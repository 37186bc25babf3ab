import LocaleStrings.Component.OpenTag

/-!
# The top-level blocks of a component

A component is a sequence of blocks: an opening tag, content and a closing tag of the same name.
Content is not looked into, except that a block named `template` ends where its own closing tag is
and not where one of a template inside it is. A block that is not closed runs to the end.

* `closes`, `plainTail`, `nestedTail`: closing tags, and where the content of a block ends;
* `Block`: a block, with the byte offsets of its content;
* `blocks`: the blocks of a component, in order;
* `i18nBlock?`: the first block named `i18n`.
-/

namespace LocaleStrings.Component

/-! ## The end of a block -/

/-- What follows a comment behind its `<!--`. -/
def afterComment : Text → Text
  | [] => []
  | '-' :: '-' :: '>' :: cs => cs
  | _ :: cs => afterComment cs

/-- What follows the next `>`. -/
def afterTag (cs : Text) : Text := (cs.dropWhile (· != '>')).drop 1

/-- Whether a text begins with a closing tag of the given name. -/
def closes (name : Text) : Text → Bool
  | '<' :: '/' :: cs =>
    Ascii.sameIgnoringCase (cs.take name.length) name
      && (cs.drop name.length).head?.all fun c => c == '>' || Ascii.isBlank c
  | _ => false

/-- The rest of a text from the first closing tag of the given name on. -/
def plainTail (name : Text) : Text → Text
  | [] => []
  | c :: cs => if closes name (c :: cs) then c :: cs else plainTail name cs

theorem length_afterComment (cs : Text) : (afterComment cs).length ≤ cs.length := by
  fun_induction afterComment cs with
  | case1 => exact Nat.le_refl _
  | case2 cs => simp only [List.length_cons]; omega
  | case3 c cs _ ih => simp only [List.length_cons]; omega

/-- The rest of a text from the closing tag on that belongs to an opening tag before it, when
`depth` tags of that name are open inside. Comments are passed over. -/
def nestedTail (name : Text) (depth : Nat) (cs : Text) : Text :=
  match cs with
  | [] => []
  | c :: rest =>
    if c = '<' then
      if Text.startsWith rest "!--" then nestedTail name depth (afterComment (rest.drop 3))
      else if closes name (c :: rest) then
        match depth with
        | 0 => c :: rest
        | depth + 1 => nestedTail name depth (rest.drop 1)
      else match _h : openTag? rest with
        | some (tag, behind) =>
          if Ascii.sameIgnoringCase tag.name name then
            nestedTail name (depth + tag.opened) behind
          else nestedTail name depth rest
        | none => nestedTail name depth rest
    else nestedTail name depth rest
termination_by cs.length
decreasing_by
  · have := length_afterComment (rest.drop 3)
    simp only [List.length_drop, List.length_cons] at this ⊢
    omega
  · simp only [List.length_drop, List.length_cons]
    omega
  · have := length_openTag? _h
    simp only [List.length_cons]
    omega
  all_goals simp

/-- The name of the blocks that nest. -/
def templateName : Text := "template".toList

/-- The rest of a text from the closing tag of a block on. -/
def tail (name cs : Text) : Text :=
  if Ascii.sameIgnoringCase name templateName then nestedTail name 0 cs else plainTail name cs

/-! ## Blocks -/

/-- A block of a component. -/
structure Block where
  /-- The name as written. -/
  name : Text
  attrs : List Attribute
  /-- The text between the tags. -/
  content : Text
  /-- The byte offset at which the content starts. -/
  start : Nat
  /-- The byte offset behind the content. -/
  stop : Nat
deriving DecidableEq, Repr

namespace Block

/-- The value of the first attribute of a name, in any case. -/
def attr? (b : Block) (name : Text) : Option Text :=
  (b.attrs.find? fun a => Ascii.sameIgnoringCase a.name name).bind (·.value)

/-- The value of the attribute `lang`. -/
def lang? (b : Block) : Option Text := b.attr? "lang".toList

/-- Whether the block is named `i18n`, in any case. -/
def isI18n (b : Block) : Bool := Ascii.sameIgnoringCase b.name "i18n".toList

end Block

theorem length_afterTag (cs : Text) : (afterTag cs).length ≤ cs.length := by
  have := (List.dropWhile_sublist (· != '>') (l := cs)).length_le
  simp only [afterTag, List.length_drop]
  omega

theorem length_plainTail (name cs : Text) : (plainTail name cs).length ≤ cs.length := by
  induction cs with
  | nil => exact Nat.le_refl _
  | cons c cs ih =>
    rw [plainTail]
    split
    · exact Nat.le_refl _
    · simp only [List.length_cons]
      omega

theorem length_nestedTail (name : Text) (depth : Nat) (cs : Text) :
    (nestedTail name depth cs).length ≤ cs.length := by
  fun_induction nestedTail name depth cs with
  | case1 => exact Nat.le_refl _
  | case2 _ rest _ ih =>
    have := length_afterComment (rest.drop 3)
    simp only [List.length_drop, List.length_cons] at this ⊢
    omega
  | case3 => exact Nat.le_refl _
  | case4 rest _ _ depth ih =>
    simp only [List.length_drop, List.length_cons] at ih ⊢
    omega
  | case5 =>
    have := length_openTag? ‹openTag? _ = _›
    simp only [List.length_cons]
    omega
  | case6 => simp only [List.length_cons]; omega
  | case7 => simp only [List.length_cons]; omega
  | case8 => simp only [List.length_cons]; omega

theorem length_tail (name cs : Text) : (tail name cs).length ≤ cs.length := by
  rw [tail]
  split
  · exact length_nestedTail _ _ _
  · exact length_plainTail _ _

/-- The blocks of the rest of a component that starts at byte `offset`. -/
def blocksFrom (offset : Nat) (cs : Text) : List Block :=
  match cs with
  | [] => []
  | c :: rest =>
    if c = '<' then
      if Text.startsWith rest "!--" then
        let behind := afterComment (rest.drop 3)
        blocksFrom (offset + Text.sizeUpTo (c :: rest) behind) behind
      else if rest.head?.any fun d => d == '/' || d == '!' || d == '?' then
        let behind := afterTag rest
        blocksFrom (offset + Text.sizeUpTo (c :: rest) behind) behind
      else match _h : openTag? rest with
        | none => blocksFrom (offset + 1) rest
        | some (tag, inside) =>
          let start := offset + Text.sizeUpTo (c :: rest) inside
          if tag.selfClosing then
            ⟨tag.name, tag.attrs, [], start, start⟩ :: blocksFrom start inside
          else
            let closing := tail tag.name inside
            let content := Text.upTo inside closing
            let stop := start + Text.size content
            let behind := afterTag closing
            ⟨tag.name, tag.attrs, content, start, stop⟩
              :: blocksFrom (stop + Text.sizeUpTo closing behind) behind
    else blocksFrom (offset + c.utf8Size) rest
termination_by cs.length
decreasing_by
  · have := length_afterComment (rest.drop 3)
    simp only [List.length_drop, List.length_cons] at this ⊢
    omega
  · have := length_afterTag rest
    simp only [List.length_cons]
    omega
  · simp
  · have := length_openTag? _h
    simp only [List.length_cons]
    omega
  · have h₁ := length_openTag? _h
    have h₂ := length_tail tag.name inside
    have h₃ := length_afterTag (tail tag.name inside)
    simp only [List.length_cons]
    omega
  · simp

/-- The top-level blocks of a component, in order. -/
def blocks (source : Text) : List Block := blocksFrom 0 source

/-- The blocks named `i18n`, in order. -/
def i18nBlocks (source : Text) : List Block := (blocks source).filter Block.isI18n

/-- The first block named `i18n`. -/
def i18nBlock? (source : Text) : Option Block := (i18nBlocks source).head?

end LocaleStrings.Component

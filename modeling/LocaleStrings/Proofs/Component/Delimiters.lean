import LocaleStrings.Proofs.Component.OffsetBlocks

/-!
# The tags around a block

Whatever a component looks like, each of its blocks stands between an opening tag of its name and a
closing tag of its name, or the end of the component.

* `Block.ofTag`: the block of an opening tag, by what follows the tag;
  **`blocks_hasTag`**: every block is one;
* `openTag?_eq_some`, `Block.OpensAt`: what an opening tag is made of, and the bytes of it;
* `closesAt_tail`: content ends at a closing tag or with the source;
* `not_closesAt_of_lt`: the first closing tag ends a block that does not nest;
* **`blocks_delimited`**: the bytes around every block.
-/

namespace LocaleStrings.Component

open Text (sizeUpTo)
open ByOffset (closesAt)

variable {source : Text}

/-! ## Blocks and their opening tags -/

/-- What follows the content behind an opening tag. -/
def OpenTag.closing (tag : OpenTag) (inside : Text) : Text :=
  if tag.selfClosing then inside else tail tag.name inside

/-- The block of an opening tag in `source` that is followed by `inside`. -/
def Block.ofTag (source : Text) (tag : OpenTag) (inside : Text) : Block :=
  ⟨tag.name, tag.attrs, Text.upTo inside (tag.closing inside), sizeUpTo source inside,
    sizeUpTo source (tag.closing inside)⟩

/-- `b` is the block of an opening tag of `source`. -/
def Block.HasTag (source : Text) (b : Block) : Prop :=
  ∃ rest tag inside, '<' :: rest <:+ source ∧ openTag? rest = some (tag, inside) ∧
    b = Block.ofTag source tag inside

theorem blocksFrom_hasTag {offset : Nat} {cs : Text} (h : cs <:+ source)
    (hoffset : offset = sizeUpTo source cs) : ∀ b ∈ blocksFrom offset cs, b.HasTag source := by
  fun_induction blocksFrom offset cs with
  | case1 => intro b hb; cases hb
  | case2 offset rest _ behind ih =>
    have hsuffix : behind <:+ '<' :: rest :=
      ((afterComment_suffix _).trans (List.drop_suffix _ _)).trans (List.suffix_cons _ _)
    exact ih (hsuffix.trans h) (by rw [hoffset, Text.sizeUpTo_trans h hsuffix])
  | case3 offset rest _ _ behind ih =>
    have hsuffix : behind <:+ '<' :: rest := (afterTag_suffix _).trans (List.suffix_cons _ _)
    exact ih (hsuffix.trans h) (by rw [hoffset, Text.sizeUpTo_trans h hsuffix])
  | case4 offset rest _ _ _ ih =>
    exact ih ((List.suffix_cons _ _).trans h)
      (by rw [hoffset, Text.sizeUpTo_cons_ascii h (by decide)])
  | case5 offset rest _ _ tag inside htag hself start ih =>
    have hsuffix : inside <:+ '<' :: rest := (openTag?_suffix htag).trans (List.suffix_cons _ _)
    have hstart : start = sizeUpTo source inside := by
      rw [← Text.sizeUpTo_trans h hsuffix, ← hoffset]
    intro b hb
    rcases List.mem_cons.mp hb with rfl | hb
    · refine ⟨rest, tag, inside, h, htag, ?_⟩
      have hempty : Text.upTo inside inside = [] := Text.upTo_append [] inside
      simp only [Block.ofTag, OpenTag.closing, if_pos hself, hempty, hstart]
    · exact ih (hsuffix.trans h) hstart b hb
  | case6 offset rest _ _ tag inside htag hself closing content behind start stop ih =>
    have hsuffix : inside <:+ '<' :: rest := (openTag?_suffix htag).trans (List.suffix_cons _ _)
    have hinside : inside <:+ source := hsuffix.trans h
    have hclosing : closing <:+ source := (tail_suffix _ _).trans hinside
    have hstart : start = sizeUpTo source inside := by
      rw [← Text.sizeUpTo_trans h hsuffix, ← hoffset]
    have hstop : stop = sizeUpTo source closing := by
      rw [← Text.sizeUpTo_trans hinside (tail_suffix tag.name inside), ← hstart]
      rfl
    intro b hb
    rcases List.mem_cons.mp hb with rfl | hb
    · refine ⟨rest, tag, inside, h, htag, ?_⟩
      simp only [Block.ofTag, OpenTag.closing, if_neg hself, hstart, hstop]
      rfl
    · refine ih ((afterTag_suffix closing).trans hclosing) ?_ b hb
      rw [hstop, Text.sizeUpTo_trans hclosing (afterTag_suffix closing)]
  | case7 offset c rest _ ih =>
    exact ih ((List.suffix_cons _ _).trans h) (by rw [hoffset, Text.sizeUpTo_cons h])

/-- **Every block is the block of an opening tag.** -/
theorem blocks_hasTag {b : Block} (hb : b ∈ blocks source) : b.HasTag source :=
  blocksFrom_hasTag List.suffix_rfl (Text.sizeUpTo_self source).symm b hb

/-! ## Opening tags -/

theorem attributes?_ends {cs rest : Text} {attrs : List Attribute} {selfClosing : Bool}
    (h : attributes? cs = some (attrs, selfClosing, rest)) : '>' :: rest <:+ cs := by
  fun_induction attributes? cs generalizing attrs selfClosing rest with
  | case1 => cases h
  | case2 cs rest' hs =>
    cases h
    exact hs ▸ skipBlanks_suffix cs
  | case3 cs c rest' hs _ hslash =>
    cases h
    obtain ⟨d, ds, rfl⟩ : ∃ d ds, rest' = d :: ds :=
      List.exists_cons_of_ne_nil fun hnil => by
        rw [hnil] at hslash
        cases hslash.2
    obtain rfl : d = '>' := Option.some.inj hslash.2
    exact (List.suffix_cons _ _).trans (hs ▸ skipBlanks_suffix cs)
  | case4 => cases h
  | case5 cs c rest' hs _ _ hc a rest₂ ha ih =>
    simp only [Option.map_eq_some_iff] at h
    obtain ⟨⟨as, sc, r⟩, hr, he⟩ := h
    cases he
    exact ((ih hr).trans (attribute?_suffix ha)).trans (hs ▸ skipBlanks_suffix cs)
  | case6 cs c rest' hs _ _ _ ih =>
    exact ((ih h).trans (List.suffix_cons _ _)).trans (hs ▸ skipBlanks_suffix cs)

/-- What an opening tag is made of: a name from a letter up to the first character that no name
has, attributes, and `>` at the end. -/
theorem openTag?_eq_some {rest inside : Text} {tag : OpenTag}
    (h : openTag? rest = some (tag, inside)) :
    rest.takeWhile isNameChar = tag.name ∧ tag.name.head?.any Ascii.isLetter = true ∧
      '>' :: inside <:+ rest := by
  cases rest with
  | nil => cases h
  | cons c cs =>
    rw [openTag?] at h
    split_ifs at h with hletter
    simp only [Option.map_eq_some_iff] at h
    obtain ⟨⟨attrs, selfClosing, behind⟩, hattrs, he⟩ := h
    cases he
    refine ⟨List.takeWhile_cons_of_pos (isNameChar_of_isLetter hletter), hletter, ?_⟩
    exact ((attributes?_ends hattrs).trans (List.dropWhile_suffix _)).trans (List.suffix_cons _ _)

/-- **The opening tag of a block, by bytes.** It stands between byte `o` and the content. -/
structure Block.OpensAt (source : Text) (b : Block) (o : Nat) : Prop where
  before : o < b.start
  mark : source.units[o]? = some '<'
  /-- The name is a whole run of characters of names. -/
  name : (source.units.drop (o + 1)).takeWhile isNameChar = b.name
  letter : b.name.head?.any Ascii.isLetter = true
  ends : source.units[b.start - 1]? = some '>'
  /-- The tag at `o` is the one of the block, with its attributes. -/
  tag : ∃ selfClosing,
    ByOffset.openTag source o = some (some (⟨b.name, b.attrs, selfClosing⟩, b.start))

theorem opensAt_of_openTag? {rest inside : Text} {tag : OpenTag} (h : '<' :: rest <:+ source)
    (htag : openTag? rest = some (tag, inside)) :
    (Block.ofTag source tag inside).OpensAt source (sizeUpTo source ('<' :: rest)) := by
  obtain ⟨hname, hletter, hends⟩ := openTag?_eq_some htag
  have hrest : rest <:+ source := (List.suffix_cons _ _).trans h
  have hsuffix : inside <:+ '<' :: rest := (openTag?_suffix htag).trans (List.suffix_cons _ _)
  have hstart := Text.sizeUpTo_trans h hsuffix
  have hend := Text.sizeUpTo_cons_ascii (hends.trans hrest) (by decide)
  have hsize := three_le_sizeUpTo_of_openTag? htag
  refine {
    before := ?_
    mark := (Text.getElem?_units_eq_some_iff h (by decide)).mpr rfl
    name := ?_
    letter := hletter
    ends := ?_
    tag := ⟨tag.selfClosing, ?_⟩ }
  · show sizeUpTo source ('<' :: rest) < sizeUpTo source inside
    omega
  · have hascii : ∀ c ∈ tag.name, c.toNat < 128 := fun c hc =>
      toNat_lt_of_isNameChar (ByOffset.isNameChar_of_openTag? htag c hc)
    rw [← Text.sizeUpTo_cons_ascii h (by decide), Text.drop_units hrest,
      asciiClass_isNameChar.takeWhile_units, hname, Text.units_of_ascii hascii]
    rfl
  · show source.units[sizeUpTo source inside - 1]? = some '>'
    rw [hend, Nat.add_sub_cancel]
    exact (Text.getElem?_units_eq_some_iff (hends.trans hrest) (by decide)).mpr rfl
  · rw [ByOffset.openTag_sizeUpTo h, htag]
    rfl

/-! ## Closing tags -/

theorem plainTail_cases (name cs : Text) :
    plainTail name cs = [] ∨ closes name (plainTail name cs) = true := by
  induction cs with
  | nil => exact .inl rfl
  | cons c cs ih =>
    rw [plainTail]
    split_ifs with hcloses
    · exact .inr hcloses
    · exact ih

theorem nestedTail_cases (name : Text) (depth : Nat) (cs : Text) :
    nestedTail name depth cs = [] ∨ closes name (nestedTail name depth cs) = true := by
  fun_induction nestedTail name depth cs with
  | case1 => exact .inl rfl
  | case2 _ _ _ ih => exact ih
  | case3 _ _ hcloses => exact .inr hcloses
  | case4 _ _ _ _ ih => exact ih
  | case5 => assumption
  | case6 => assumption
  | case7 => assumption
  | case8 => assumption

/-- Content ends at a closing tag, or with the text. -/
theorem tail_cases (name cs : Text) : tail name cs = [] ∨ closes name (tail name cs) = true := by
  rw [tail]
  split_ifs
  · exact nestedTail_cases _ _ _
  · exact plainTail_cases _ _

section Name

variable {name : Text} (hname : ∀ c ∈ name, isNameChar c = true)

include hname

/-- A block that is looked for closing tags in ends with the source, or at one of them. -/
theorem closesAt_tail {inside : Text} (h : inside <:+ source) :
    sizeUpTo source (tail name inside) = Text.size source ∨
      closesAt source name (sizeUpTo source (tail name inside)) = true := by
  rcases tail_cases name inside with hnil | hcloses
  · left
    rw [hnil, Text.sizeUpTo_nil]
  · right
    rw [ByOffset.closesAt_sizeUpTo hname ((tail_suffix name inside).trans h), hcloses]

/-- The first closing tag, at whatever byte, ends a block that does not nest. -/
theorem not_closesAt_of_lt (hplain : isTemplateName name = false) {inside : Text}
    (h : inside <:+ source) {p : Nat} (hstart : sizeUpTo source inside ≤ p)
    (hstop : p < sizeUpTo source (tail name inside)) : closesAt source name p = false := by
  have hfind := ByOffset.find?_closesAt hname h
  rw [tail_eq, hplain] at hstop
  simp only [Bool.false_eq_true, if_false] at hstop
  split_ifs at hfind with hnil
  · rw [hnil, Text.sizeUpTo_nil, ← Text.sizeUpTo_add_size h] at hstop
    have hnone := List.find?_range'_eq_none.mp hfind p hstart hstop
    rwa [Bool.not_eq_true'] at hnone
  · obtain ⟨-, -, hbefore⟩ := List.find?_range'_eq_some.mp hfind
    have hnone := hbefore p hstart hstop
    rwa [Bool.not_eq_true'] at hnone

end Name

/-- **A block stands between its tags.** Its content starts behind an opening tag of its name. If
there is content, it ends at a closing tag of the name or with the source; and unless the block is a
template, at the first such tag. -/
theorem blocks_delimited {b : Block} (hb : b ∈ blocks source) :
    (∃ o, b.OpensAt source o) ∧
    (b.content ≠ [] → b.stop = Text.size source ∨ closesAt source b.name b.stop = true) ∧
    (b.content ≠ [] → isTemplateName b.name = false →
      ∀ p, b.start ≤ p → p < b.stop → closesAt source b.name p = false) := by
  obtain ⟨rest, tag, inside, h, htag, rfl⟩ := blocks_hasTag hb
  have hname := ByOffset.isNameChar_of_openTag? htag
  have hinside : inside <:+ source := ((openTag?_suffix htag).trans (List.suffix_cons _ _)).trans h
  -- a tag that closes itself has no content
  have hclosing : (Block.ofTag source tag inside).content ≠ [] →
      tag.closing inside = tail tag.name inside := by
    intro hcontent
    unfold OpenTag.closing
    split_ifs with hself
    · refine absurd ?_ hcontent
      simp only [Block.ofTag, OpenTag.closing, if_pos hself]
      exact Text.upTo_append [] inside
    · rfl
  refine ⟨⟨_, opensAt_of_openTag? h htag⟩, fun hcontent => ?_, fun hcontent hplain p hp hlt => ?_⟩
  · show sizeUpTo source (tag.closing inside) = _ ∨
      closesAt source tag.name (sizeUpTo source (tag.closing inside)) = true
    rw [hclosing hcontent]
    exact closesAt_tail hname hinside
  · have hstop : p < sizeUpTo source (tag.closing inside) := hlt
    rw [hclosing hcontent] at hstop
    exact not_closesAt_of_lt hname hplain hinside hp hstop

/-- A block with the end of a tag in an attribute, a closing tag of a longer name in its content,
and a closing tag in other case that is cut off by the end of the component. -/
def cutOff : Text := "<i18n a='>'>é</i18nx></I18N".toList

theorem cutOff_delimited :
    ∃ b ∈ blocks cutOff, b.content = "é</i18nx>".toList ∧ (∃ o, b.OpensAt cutOff o) ∧
      closesAt cutOff "i18n".toList 22 = true ∧
      ∀ p, 12 ≤ p → p < 22 → closesAt cutOff "i18n".toList p = false := by
  have hblocks : blocks cutOff
      = [⟨"i18n".toList, [⟨['a'], some ['>']⟩], "é</i18nx>".toList, 12, 22⟩] := by
    decide +kernel
  have hb : ⟨"i18n".toList, [⟨['a'], some ['>']⟩], "é</i18nx>".toList, 12, 22⟩ ∈ blocks cutOff := by
    rw [hblocks]
    exact List.mem_cons_self
  obtain ⟨hopens, hcloses, hfirst⟩ := blocks_delimited hb
  refine ⟨_, hb, rfl, hopens, ?_, hfirst (by decide) (by decide)⟩
  exact (hcloses (by decide)).resolve_left (by decide)

end LocaleStrings.Component

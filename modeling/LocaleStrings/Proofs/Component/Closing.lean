import LocaleStrings.Proofs.Component.TagScan

/-!
# The end of a block

The content of a well-formed element ends at its closing tag.

* `closes_text`, `not_closes_other`: which texts begin with a closing tag of a name;
* `afterComment_text`: a comment ends at its end;
* **`plainTail_text`**: content that no tag of its own name closes;
* `StartsApart`: what may come behind content without going on with it;
* **`nestedTail_body`**: content in which templates are balanced is passed over;
* `tail_raw`, `tail_template`: both ends of a block.
-/

namespace LocaleStrings.Component

/-! ## Case -/

theorem lower_cases (c : Char) :
    Ascii.lower c = c ∨ c ∈ "ABCDEFGHIJKLMNOPQRSTUVWXYZ".toList := by
  by_cases h : ('A' ≤ c && c ≤ 'Z') = true
  · right
    simp only [Bool.and_eq_true, decide_eq_true_eq, Char.le_def, UInt32.le_iff_toNat_le] at h
    have hall : ∀ k ∈ List.range' 65 26, Char.ofNat k ∈ "ABCDEFGHIJKLMNOPQRSTUVWXYZ".toList := by
      decide
    exact Text.forall_of_range hall h.1 (Nat.lt_succ_of_le h.2)
  · left
    rw [Ascii.lower, if_neg h]

/-- Names are names in any case. -/
theorem isNameChar_lower (c : Char) : isNameChar (Ascii.lower c) = isNameChar c := by
  rcases lower_cases c with h | h
  · rw [h]
  · have hall : ∀ c ∈ "ABCDEFGHIJKLMNOPQRSTUVWXYZ".toList,
        isNameChar (Ascii.lower c) = isNameChar c := Text.forall_of_all (by decide)
    exact hall c h

theorem isLetter_lower (c : Char) : Ascii.isLetter (Ascii.lower c) = Ascii.isLetter c := by
  rcases lower_cases c with h | h
  · rw [h]
  · have hall : ∀ c ∈ "ABCDEFGHIJKLMNOPQRSTUVWXYZ".toList,
        Ascii.isLetter (Ascii.lower c) = Ascii.isLetter c := Text.forall_of_all (by decide)
    exact hall c h

theorem same_iff {s t : Text} :
    Ascii.sameIgnoringCase s t = true ↔ s.map Ascii.lower = t.map Ascii.lower := by
  rw [Ascii.sameIgnoringCase, beq_iff_eq]

theorem length_of_same {s t : Text} (h : Ascii.sameIgnoringCase s t = true) :
    s.length = t.length := by
  have := congrArg List.length (same_iff.mp h)
  simpa using this

/-- Every character of a text in other case is one of the text, in other case. -/
theorem isNameChar_of_same {s t : Text} (h : Ascii.sameIgnoringCase s t = true)
    (ht : ∀ c ∈ t, isNameChar c = true) : ∀ c ∈ s, isNameChar c = true := by
  intro c hc
  have hmem : Ascii.lower c ∈ t.map Ascii.lower := by
    rw [← same_iff.mp h]
    exact List.mem_map_of_mem hc
  obtain ⟨d, hd, hlower⟩ := List.mem_map.mp hmem
  rw [← isNameChar_lower, ← hlower, isNameChar_lower]
  exact ht d hd

theorem isNameChar_of_isLetter {c : Char} (h : Ascii.isLetter c = true) : isNameChar c = true := by
  simp [isNameChar, h]

theorem TagName.isNameChar (n : TagName) : ∀ c ∈ n.text, Component.isNameChar c = true := by
  intro c hc
  rcases List.mem_cons.mp hc with rfl | hc
  · exact isNameChar_of_isLetter n.letter
  · exact n.chars c hc

/-! ## Closing tags -/

/-- Whether a character may come behind the name of a closing tag. -/
theorem closes_of_same {name n r : Text} (hn : Ascii.sameIgnoringCase n name = true)
    (hr : ∀ c ∈ r.head?, c = '>' ∨ Ascii.isBlank c = true) :
    closes name ('<' :: '/' :: (n ++ r)) = true := by
  have hlength := length_of_same hn
  have hhead : (r.head?.all fun c => c == '>' || Ascii.isBlank c) = true := by
    cases r with
    | nil => rfl
    | cons c cs => simpa using hr c rfl
  rw [closes, ← hlength, List.take_left, List.drop_left, hn, hhead]
  rfl

theorem closes_text {name : Text} (close : ClosingTag name) (rest : Text) :
    closes name (close.text ++ rest) = true := by
  have hform : close.text ++ rest
      = '<' :: '/' :: (close.name ++ (close.gap.text ++ '>' :: rest)) := by
    simp [ClosingTag.text]
  rw [hform]
  exact closes_of_same close.same fun c hc => (head_gap close.gap '>' rest c hc).symm

theorem ClosingTag.text_append {name : Text} (close : ClosingTag name) (rest : Text) :
    ∃ r, close.text ++ rest = '<' :: '/' :: r := ⟨_, rfl⟩

theorem prefix_of_closes {name cs : Text} (h : closes name cs = true) :
    ('<' :: '/' :: name.map Ascii.lower) <+: cs.map Ascii.lower := by
  unfold closes at h
  split at h
  · next cs =>
    simp only [Bool.and_eq_true] at h
    rw [← same_iff.mp h.1, List.map_take]
    simp only [List.map_cons]
    exact List.cons_prefix_cons.mpr ⟨rfl, List.cons_prefix_cons.mpr ⟨rfl, List.take_prefix _ _⟩⟩
  · cases h

/-- A prefix without the character `m` ends before the first `m`. -/
theorem prefix_of_prefix_append {w s r : Text} {m : Char} (hm : m ∉ w) (h : w <+: s ++ m :: r) :
    w <+: s := by
  induction w generalizing s with
  | nil => exact List.nil_prefix
  | cons x w ih =>
    obtain ⟨hx, hw⟩ := not_or.mp (mt List.mem_cons.mpr hm)
    cases s with
    | nil => exact absurd (List.cons_prefix_cons.mp h).1.symm hx
    | cons y s =>
      obtain ⟨hxy, hrest⟩ := List.cons_prefix_cons.mp h
      exact List.cons_prefix_cons.mpr ⟨hxy, ih hw hrest⟩

theorem lt_not_mem_lower {name : Text} (hname : ∀ c ∈ name, isNameChar c = true) :
    '<' ∉ name.map Ascii.lower := by
  intro hmem
  obtain ⟨c, hc, hlower⟩ := List.mem_map.mp hmem
  have h := hname c hc
  rw [← isNameChar_lower, hlower] at h
  cases h

/-- A closing tag that starts in a text before a `<` lies in the text. -/
theorem closesNone_cons {name c r : Text} {x : Char} (hname : ∀ c ∈ name, isNameChar c = true)
    (h : ClosesNone name (x :: c)) : closes name (x :: c ++ '<' :: r) = false := by
  refine Bool.eq_false_iff.mpr fun hcloses => h ?_
  have hprefix := prefix_of_closes hcloses
  rw [List.map_append, List.map_cons, List.map_cons, List.cons_append] at hprefix
  obtain ⟨hx, htail⟩ := List.cons_prefix_cons.mp hprefix
  have hslash : '<' ∉ '/' :: name.map Ascii.lower := by
    rw [List.mem_cons, not_or]
    exact ⟨by decide, lt_not_mem_lower hname⟩
  have hinside : ('/' :: name.map Ascii.lower) <+: c.map Ascii.lower :=
    prefix_of_prefix_append hslash htail
  rw [List.map_cons, ← hx]
  exact (List.cons_prefix_cons.mpr ⟨rfl, hinside⟩).isInfix

theorem ClosesNone.of_cons {name c : Text} {x : Char} (h : ClosesNone name (x :: c)) :
    ClosesNone name c := by
  intro hin
  exact h (hin.trans (List.suffix_cons _ _).isInfix)

/-- **Content that no tag of its own name closes ends at the closing tag.** -/
theorem plainTail_text {name c : Text} (hname : ∀ c ∈ name, isNameChar c = true)
    (h : ClosesNone name c) (close : ClosingTag name) (rest : Text) :
    plainTail name (c ++ (close.text ++ rest)) = close.text ++ rest := by
  induction c with
  | nil =>
    obtain ⟨r, hr⟩ := close.text_append rest
    have hcloses := closes_text close rest
    rw [hr] at hcloses
    rw [List.nil_append, hr, plainTail, if_pos hcloses]
  | cons x c ih =>
    have hno : closes name (x :: (c ++ (close.text ++ rest))) = false :=
      closesNone_cons hname h
    rw [List.cons_append, plainTail, hno]
    exact ih h.of_cons

theorem afterTag_append {t : Text} (h : '>' ∉ t) (rest : Text) :
    afterTag (t ++ '>' :: rest) = rest := by
  have hinside : ∀ c ∈ t, (c != '>') = true := by
    intro c hc
    rw [bne_iff_ne]
    rintro rfl
    exact h hc
  rw [afterTag, Text.dropWhile_append_of_stop hinside (by simp)]
  rfl

theorem gt_not_mem_gap (g : Gap) : '>' ∉ g.text := by
  intro hmem
  exact absurd (g.blank _ hmem) (by decide)

theorem afterTag_text {name : Text} (hname : ∀ c ∈ name, isNameChar c = true)
    (close : ClosingTag name) (rest : Text) : afterTag (close.text ++ rest) = rest := by
  have hclose := isNameChar_of_same close.same hname
  have hno : '>' ∉ '<' :: '/' :: (close.name ++ close.gap.text) := by
    simp only [List.mem_cons, List.mem_append, not_or]
    refine ⟨by decide, by decide, fun hmem => ?_, gt_not_mem_gap _⟩
    exact absurd (hclose _ hmem) (by decide)
  have hform : close.text ++ rest
      = '<' :: '/' :: (close.name ++ close.gap.text) ++ '>' :: rest := by
    simp [ClosingTag.text]
  rw [hform, afterTag_append hno]

/-! ## Comments -/

theorem EndsNoComment.of_cons {c : Text} {x : Char} (h : EndsNoComment (x :: c)) :
    EndsNoComment c := by
  intro hin
  exact h (hin.trans (List.suffix_cons _ _).isInfix)

/-- **A comment ends at its end.** -/
theorem afterComment_text {c : Text} (h : EndsNoComment c) (rest : Text) :
    afterComment (c ++ (['-', '-', '>'] ++ rest)) = rest := by
  induction c with
  | nil => rfl
  | cons x c ih =>
    rw [List.cons_append, afterComment]
    · exact ih h.of_cons
    · -- the end of a comment cannot start in `x :: c` and reach behind it
      rintro cs rfl hcs
      cases c with
      | nil => cases hcs
      | cons y c =>
        obtain ⟨rfl, hcs'⟩ := List.cons.inj hcs
        cases c with
        | nil => cases hcs'
        | cons z c =>
          obtain ⟨rfl, -⟩ := List.cons.inj hcs'
          exact h (List.prefix_append ['-', '-', '>'] c).isInfix

/-! ## Templates -/

section Nested

variable {name : Text} {depth : Nat}

theorem nestedTail_char {c : Char} (hc : c ≠ '<') (r : Text) :
    nestedTail name depth (c :: r) = nestedTail name depth r := by
  rw [nestedTail.eq_def]
  simp only [if_neg hc]

theorem nestedTail_chars {t : Text} (ht : '<' ∉ t) (r : Text) :
    nestedTail name depth (t ++ r) = nestedTail name depth r := by
  induction t with
  | nil => rfl
  | cons c t ih =>
    obtain ⟨hc, ht⟩ := not_or.mp (mt List.mem_cons.mpr ht)
    rw [List.cons_append, nestedTail_char (Ne.symm hc), ih ht]

theorem nestedTail_commentOpen (x : Text) :
    nestedTail name depth (['<', '!', '-', '-'] ++ x) = nestedTail name depth (afterComment x) := by
  have hstarts : Text.startsWith ('!' :: '-' :: '-' :: x) "!--" = true := rfl
  rw [List.cons_append, nestedTail.eq_def]
  simp only [List.cons_append, List.nil_append] at hstarts ⊢
  rw [if_pos trivial, if_pos hstarts]
  rfl

theorem nestedTail_comment {c : Text} (hc : EndsNoComment c) (r : Text) :
    nestedTail name depth (['<', '!', '-', '-'] ++ (c ++ (['-', '-', '>'] ++ r)))
      = nestedTail name depth r := by
  rw [nestedTail_commentOpen, afterComment_text hc]

theorem startsWith_iff {r : Text} : Text.startsWith r "!--" = true ↔ ['!', '-', '-'] <+: r := by
  rw [Text.startsWith, List.isPrefixOf_iff_prefix]
  rfl

theorem letter_ne_slash {c : Char} (h : Ascii.isLetter c = true) : c ≠ '/' := by
  rintro rfl
  cases h

theorem not_comment_letter {c : Char} (h : Ascii.isLetter c = true) (r : Text) :
    Text.startsWith (c :: r) "!--" = false := by
  refine Bool.eq_false_iff.mpr fun hstarts => ?_
  rw [← (List.cons_prefix_cons.mp (startsWith_iff.mp hstarts)).1] at h
  cases h

theorem not_comment_slash (r : Text) : Text.startsWith ('/' :: r) "!--" = false := rfl

theorem openTag?_slash (r : Text) (tag : OpenTag) (behind : Text)
    (h : openTag? ('/' :: r) = some (tag, behind)) :
    Ascii.sameIgnoringCase tag.name name = false := by
  cases h

/-- A `<` that starts neither a comment nor a tag of the name is passed over. -/
theorem nestedTail_skip {r : Text} (hcomment : Text.startsWith r "!--" = false)
    (hcloses : closes name ('<' :: r) = false)
    (hopens : ∀ tag behind, openTag? r = some (tag, behind) →
      Ascii.sameIgnoringCase tag.name name = false) :
    nestedTail name depth ('<' :: r) = nestedTail name depth r := by
  rw [nestedTail.eq_def]
  simp only [hcomment, hcloses, Bool.false_eq_true, if_true, if_false]
  split
  · next tag behind htag =>
    rw [hopens tag behind htag]
    simp
  · rfl

theorem closes_of_head {r : Text} (hr : ∀ c ∈ r.head?, c ≠ '/') :
    closes name ('<' :: r) = false := by
  unfold closes
  split
  · next heq =>
    obtain ⟨-, rfl⟩ := List.cons.inj heq
    exact absurd rfl (hr '/' rfl)
  · rfl

theorem closes_of_ne_slash {c : Char} (hc : c ≠ '/') (r : Text) :
    closes name ('<' :: c :: r) = false := by
  refine closes_of_head fun d hd => ?_
  obtain rfl : c = d := Option.some.inj hd
  exact hc

/-- What a tag starts with. -/
theorem letter_of_openTag? {r behind : Text} {tag : OpenTag} (h : openTag? r = some (tag, behind)) :
    ∃ c cs, r = c :: cs ∧ Ascii.isLetter c = true := by
  cases r with
  | nil => cases h
  | cons c cs =>
    rw [openTag?] at h
    split_ifs at h with hc
    exact ⟨c, cs, rfl, hc⟩

theorem nestedTail_open {r behind : Text} {tag : OpenTag} (htag : openTag? r = some (tag, behind))
    (hname : Ascii.sameIgnoringCase tag.name name = true) :
    nestedTail name depth ('<' :: r) = nestedTail name (depth + tag.opened) behind := by
  obtain ⟨c, cs, rfl, hletter⟩ := letter_of_openTag? htag
  have hcloses : closes name ('<' :: c :: cs) = false :=
    closes_of_ne_slash (letter_ne_slash hletter) cs
  rw [nestedTail.eq_def]
  simp only [not_comment_letter hletter, hcloses, Bool.false_eq_true, if_true, if_false]
  split
  · next htag' =>
    rw [htag] at htag'
    cases htag'
    rw [if_pos hname]
  · next hnone =>
    rw [htag] at hnone
    cases hnone

/-- The search ends at a closing tag that belongs to no template inside. -/
theorem nestedTail_close_zero (close : ClosingTag name) (r : Text) :
    nestedTail name 0 (close.text ++ r) = close.text ++ r := by
  obtain ⟨q, hq⟩ := close.text_append r
  have hcloses := closes_text close r
  rw [hq] at hcloses ⊢
  rw [nestedTail.eq_def]
  simp only [if_true, hcloses, not_comment_slash, Bool.false_eq_true, if_false]

theorem nestedTail_close_succ {r : Text} (h : closes name ('<' :: '/' :: r) = true) :
    nestedTail name (depth + 1) ('<' :: '/' :: r) = nestedTail name depth r := by
  rw [nestedTail.eq_def]
  simp only [if_true, h, not_comment_slash, Bool.false_eq_true, if_false]
  rfl

/-- Another name does not close, even if one of the two names continues the other. -/
theorem not_closes_other {n : TagName} {r : Text} (hname : ∀ c ∈ name, isNameChar c = true)
    (hn : Ascii.sameIgnoringCase n.text name = false) (hr : EndsName r) :
    closes name ('<' :: '/' :: (n.text ++ r)) = false := by
  refine Bool.eq_false_iff.mpr fun hcloses => ?_
  simp only [closes, Bool.and_eq_true] at hcloses
  obtain ⟨hsame, hhead⟩ := hcloses
  rcases Nat.lt_trichotomy n.text.length name.length with hlt | heq | hgt
  · -- the name goes on where `n` ends
    have hlength := length_of_same hsame
    cases r with
    | nil =>
      rw [List.append_nil, List.length_take] at hlength
      omega
    | cons c r =>
      have hmem : c ∈ (n.text ++ c :: r).take name.length := by
        rw [List.take_append, List.mem_append]
        right
        obtain ⟨k, hk⟩ : ∃ k, name.length - n.text.length = k + 1 :=
          ⟨name.length - n.text.length - 1, by omega⟩
        rw [hk]
        exact List.mem_cons_self
      have hc := isNameChar_of_same hsame hname c hmem
      rw [hr c rfl] at hc
      cases hc
  · rw [← heq, List.take_left] at hsame
    rw [hsame] at hn
    cases hn
  · -- `n` goes on where the name ends
    rw [List.drop_append_of_le_length (Nat.le_of_lt hgt)] at hhead
    obtain ⟨c, cs, hcs⟩ := List.exists_cons_of_ne_nil
      (List.ne_nil_of_length_pos (by rw [List.length_drop]; omega) : n.text.drop name.length ≠ [])
    have hc : isNameChar c = true := by
      refine n.isNameChar c ?_
      have : c ∈ n.text.drop name.length := by rw [hcs]; exact List.mem_cons_self
      exact List.mem_of_mem_drop this
    rw [hcs] at hhead
    simp only [List.cons_append, List.head?_cons, Option.all_some, Bool.or_eq_true, beq_iff_eq]
      at hhead
    rcases hhead with rfl | hblank
    · cases hc
    · rw [isNameChar_of_isBlank hblank] at hc
      cases hc

/-! ## Balanced templates -/

theorem isNameChar_template (hname : isTemplateName name = true) :
    ∀ c ∈ name, isNameChar c = true :=
  isNameChar_of_same hname (Text.forall_of_all (by decide))

theorem same_template_iff (hname : isTemplateName name = true) (n : Text) :
    Ascii.sameIgnoringCase n name = isTemplateName n := by
  rw [isTemplateName, Ascii.sameIgnoringCase, Ascii.sameIgnoringCase, same_iff.mp hname]

theorem lt_not_mem_name (n : TagName) : '<' ∉ n.text := by
  intro hmem
  exact absurd (n.isNameChar _ hmem) (by decide)

theorem lt_not_mem_gap (g : Gap) : '<' ∉ g.text := by
  intro hmem
  exact absurd (g.blank _ hmem) (by decide)

/-- A text that goes on with nothing that is cut off before it: not with a name, and not with the
rest of `</` or `<!--`. -/
def StartsApart (r : Text) : Prop := ∀ c ∈ r.head?, isNameChar c = false ∧ c ≠ '/' ∧ c ≠ '!'

theorem startsApart_cons {c : Char} (h : isNameChar c = false ∧ c ≠ '/' ∧ c ≠ '!') (r : Text) :
    StartsApart (c :: r) := by
  intro d hd
  obtain rfl : c = d := Option.some.inj hd
  exact h

theorem startsApart_lt (r : Text) : StartsApart ('<' :: r) := startsApart_cons (by decide) r

theorem startsApart_closing {opened : Text} (close : ClosingTag opened) (r : Text) :
    StartsApart (close.text ++ r) := startsApart_lt _

theorem isLetter_of_not_isNameChar {c : Char} (h : isNameChar c = false) :
    Ascii.isLetter c = false := by
  refine Bool.eq_false_iff.mpr fun hletter => ?_
  rw [isNameChar_of_isLetter hletter] at h
  cases h

/-- What holds of the first character of two texts holds of the first one of both together. -/
theorem head_append {p : Char → Prop} {rest r : Text} (h : ∀ c ∈ rest.head?, p c)
    (hr : ∀ c ∈ r.head?, p c) : ∀ c ∈ (rest ++ r).head?, p c := by
  cases rest with
  | nil => exact hr
  | cons d rest => exact h

theorem StartsApart.endsName {r : Text} (h : StartsApart r) : EndsName r := fun c hc => (h c hc).1

theorem StartsApart.not_comment {rest r : Text} (h : StartsApart r)
    (hrest : ¬ ['!', '-', '-'] <+: rest) : ¬ ['!', '-', '-'] <+: rest ++ r := by
  intro hprefix
  cases r with
  | nil => exact hrest (by rwa [List.append_nil] at hprefix)
  | cons c r =>
    obtain ⟨hname, -, hmark⟩ := h c rfl
    refine hrest (prefix_of_prefix_append (m := c) ?_ hprefix)
    simp only [List.mem_cons, List.not_mem_nil, or_false, not_or]
    refine ⟨hmark, ?_, ?_⟩ <;> rintro rfl <;> cases hname

/-- A closing tag inside closes one template, and its name and blanks are passed over. -/
theorem nestedTail_closing {opened : Text} (close : ClosingTag opened)
    (hname : isTemplateName name = true) (hopened : isTemplateName opened = true) (r : Text) :
    nestedTail name (depth + 1) (close.text ++ r) = nestedTail name depth r := by
  have hsame : Ascii.sameIgnoringCase close.name name = true := by
    rw [same_iff, same_iff.mp close.same, same_iff.mp hopened, same_iff.mp hname]
  have hcloses : closes name ('<' :: '/' :: (close.name ++ (close.gap.text ++ '>' :: r))) = true :=
    closes_of_same hsame fun c hc => (head_gap close.gap '>' r c hc).symm
  have hplain : '<' ∉ close.name ++ (close.gap.text ++ ['>']) := by
    have hchars := isNameChar_of_same hsame (isNameChar_template hname)
    simp only [List.mem_append, List.mem_singleton, not_or]
    refine ⟨fun hmem => ?_, lt_not_mem_gap _, by decide⟩
    exact absurd (hchars _ hmem) (by decide)
  have hform : close.text ++ r
      = '<' :: '/' :: (close.name ++ (close.gap.text ++ '>' :: r)) := by
    simp [ClosingTag.text]
  rw [hform, nestedTail_close_succ hcloses]
  have hskip : nestedTail name depth (close.name ++ (close.gap.text ++ ['>']) ++ r)
      = nestedTail name depth r := nestedTail_chars hplain r
  simpa using hskip

/-- A closing tag of a template has a letter behind the slash. -/
theorem not_closes_of_head (hname : isTemplateName name = true) {r : Text}
    (hr : ∀ c ∈ r.head?, Ascii.isLetter c = false) : closes name ('<' :: '/' :: r) = false := by
  refine Bool.eq_false_iff.mpr fun hcloses => ?_
  have hprefix := prefix_of_closes hcloses
  rw [same_iff.mp hname] at hprefix
  obtain ⟨-, hprefix⟩ := List.cons_prefix_cons.mp hprefix
  obtain ⟨-, hprefix⟩ := List.cons_prefix_cons.mp hprefix
  cases r with
  | nil => cases List.prefix_nil.mp hprefix
  | cons c r =>
    have hlower : 't' = Ascii.lower c := (List.cons_prefix_cons.mp hprefix).1
    have hletter := hr c rfl
    rw [← isLetter_lower, ← hlower] at hletter
    cases hletter

/-- **A text in which templates are balanced is passed over.** -/
theorem nestedTail_body (hname : isTemplateName name = true) {body : Text}
    (h : TemplateBody body) {r : Text} (hapart : StartsApart r) :
    nestedTail name depth (body ++ r) = nestedTail name depth r := by
  induction h generalizing depth r with
  | nil => rfl
  | char hc _ ih => rw [List.cons_append, nestedTail_char hc, ih hapart]
  | comment hc _ ih =>
    simp only [List.append_assoc]
    rw [nestedTail_comment hc, ih hapart]
  | @other n rest hn hr _ ih =>
    rw [List.cons_append, List.append_assoc, nestedTail_skip, nestedTail_chars (lt_not_mem_name n),
      ih hapart]
    · exact not_comment_letter n.letter _
    · exact closes_of_ne_slash (letter_ne_slash n.letter) _
    · intro tag behind htag
      rw [openTag?_name n (head_append hr hapart.endsName)] at htag
      simp only [Option.map_eq_some_iff] at htag
      obtain ⟨⟨attrs, s, rest'⟩, -, he⟩ := htag
      cases he
      exact (same_template_iff hname _).trans hn
  | @otherClosing n rest hn hr _ ih =>
    rw [List.cons_append, List.cons_append, List.append_assoc, nestedTail_skip,
      nestedTail_char (by decide), nestedTail_chars (lt_not_mem_name n), ih hapart]
    · exact not_comment_slash _
    · exact not_closes_other (isNameChar_template hname) ((same_template_iff hname _).trans hn)
        (head_append hr hapart.endsName)
    · exact openTag?_slash _
  | @stray rest hr hcomment _ ih =>
    have hhead : ∀ c ∈ (rest ++ r).head?, Ascii.isLetter c = false ∧ c ≠ '/' :=
      head_append hr fun c hc => ⟨isLetter_of_not_isNameChar (hapart c hc).1, (hapart c hc).2.1⟩
    rw [List.cons_append, nestedTail_skip, ih hapart]
    · exact Bool.eq_false_iff.mpr fun hstarts =>
        hapart.not_comment hcomment (startsWith_iff.mp hstarts)
    · exact closes_of_head fun c hc => (hhead c hc).2
    · intro tag behind htag
      obtain ⟨c, cs, hcs, hletter⟩ := letter_of_openTag? htag
      rw [(hhead c (by rw [hcs]; rfl)).1] at hletter
      cases hletter
  | @strayClosing rest hr _ ih =>
    rw [List.cons_append, List.cons_append, nestedTail_skip, nestedTail_char (by decide), ih hapart]
    · exact not_comment_slash _
    · exact not_closes_of_head hname
        (head_append hr fun c hc => isLetter_of_not_isNameChar (hapart c hc).1)
    · exact openTag?_slash _
  | @selfClosing t rest ht hs _ ih =>
    rw [List.cons_append, List.append_assoc, nestedTail_open (openTag?_text t _)
      ((same_template_iff hname _).trans ht), Tag.meaning, OpenTag.opened]
    simp only [hs, if_true, Nat.add_zero]
    exact ih hapart
  | @template t body rest ht hs hb close _ ihb ih =>
    rw [List.cons_append, List.append_assoc, nestedTail_open (openTag?_text t _)
      ((same_template_iff hname _).trans ht), Tag.meaning, OpenTag.opened]
    simp only [hs, Bool.false_eq_true, if_false, List.append_assoc]
    rw [ihb (startsApart_closing close _), nestedTail_closing close hname ht, ih hapart]

end Nested

/-! ## Both kinds of content -/

theorem tail_eq (name cs : Text) :
    tail name cs = if isTemplateName name then nestedTail name 0 cs else plainTail name cs := rfl

theorem tail_raw {name c : Text} (hname : ∀ c ∈ name, isNameChar c = true)
    (hplain : isTemplateName name = false) (h : ClosesNone name c) (close : ClosingTag name)
    (rest : Text) : tail name (c ++ (close.text ++ rest)) = close.text ++ rest := by
  rw [tail_eq, hplain]
  exact plainTail_text hname h close rest

theorem tail_template {name c : Text} (hname : isTemplateName name = true) (h : TemplateBody c)
    (close : ClosingTag name) (rest : Text) :
    tail name (c ++ (close.text ++ rest)) = close.text ++ rest := by
  rw [tail_eq, if_pos hname, nestedTail_body hname h (startsApart_closing close rest),
    nestedTail_close_zero]

end LocaleStrings.Component

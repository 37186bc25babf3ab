import LocaleStrings.Proofs.Component.Closing
import LocaleStrings.Proofs.Source.Offsets

/-!
# The blocks of a component are those of its items

A component that starts with well-formed items has the blocks of the items, and then the blocks of
what follows them, moved behind the items.

* `blocksFrom_item`: one item, whatever follows it;
* `blocksFrom_shift`: the blocks of a text that starts at a later byte are moved;
* **`blocks_items`**: any number of items.
-/

namespace LocaleStrings.Component

/-! ## One item -/

theorem blocksFrom_char (offset : Nat) {c : Char} (hc : c ≠ '<') (r : Text) :
    blocksFrom offset (c :: r) = blocksFrom (offset + c.utf8Size) r := by
  rw [blocksFrom.eq_def]
  simp only [if_neg hc]

theorem blocksFrom_chars (offset : Nat) {t : Text} (ht : '<' ∉ t) (r : Text) :
    blocksFrom offset (t ++ r) = blocksFrom (offset + Text.size t) r := by
  induction t generalizing offset with
  | nil => rfl
  | cons c t ih =>
    obtain ⟨hc, ht⟩ := not_or.mp (mt List.mem_cons.mpr ht)
    rw [List.cons_append, blocksFrom_char offset (Ne.symm hc), ih _ ht, Text.size_cons,
      Nat.add_assoc]

theorem blocksFrom_comment (offset : Nat) {c : Text} (hc : EndsNoComment c) (rest : Text) :
    blocksFrom offset (['<', '!', '-', '-'] ++ (c ++ ['-', '-', '>']) ++ rest)
      = blocksFrom (offset + Text.size (['<', '!', '-', '-'] ++ (c ++ ['-', '-', '>']))) rest := by
  have hform : ['<', '!', '-', '-'] ++ (c ++ ['-', '-', '>']) ++ rest
      = '<' :: ('!' :: '-' :: '-' :: (c ++ (['-', '-', '>'] ++ rest))) := by simp
  have hstarts :
      Text.startsWith ('!' :: '-' :: '-' :: (c ++ (['-', '-', '>'] ++ rest))) "!--" = true := rfl
  have hbehind :
      afterComment (('!' :: '-' :: '-' :: (c ++ (['-', '-', '>'] ++ rest))).drop 3) = rest :=
    afterComment_text hc rest
  have hsize := Text.sizeUpTo_append (['<', '!', '-', '-'] ++ (c ++ ['-', '-', '>'])) rest
  rw [hform] at hsize ⊢
  rw [blocksFrom.eq_def]
  simp only [if_true, hstarts, hbehind, hsize]

/-- A declaration or an instruction, behind its `<`. -/
theorem blocksFrom_mark (offset : Nat) {m : Char} {x rest : Text} (hm : m = '!' ∨ m = '?')
    (hx : '>' ∉ x) (hcomment : ¬ ['!', '-', '-'] <+: m :: (x ++ '>' :: rest)) :
    blocksFrom offset ('<' :: m :: (x ++ ['>']) ++ rest)
      = blocksFrom (offset + Text.size ('<' :: m :: (x ++ ['>']))) rest := by
  have hform : '<' :: m :: (x ++ ['>']) ++ rest = '<' :: (m :: (x ++ '>' :: rest)) := by simp
  have hmark :
      ((m :: (x ++ '>' :: rest)).head?.any fun d => d == '/' || d == '!' || d == '?') = true := by
    rcases hm with rfl | rfl <;> rfl
  have hbehind : afterTag (m :: (x ++ '>' :: rest)) = rest := by
    refine afterTag_append (t := m :: x) ?_ rest
    rw [List.mem_cons, not_or]
    refine ⟨?_, hx⟩
    rcases hm with rfl | rfl <;> decide
  have hsize := Text.sizeUpTo_append ('<' :: m :: (x ++ ['>'])) rest
  rw [hform] at hsize ⊢
  rw [blocksFrom.eq_def]
  simp only [if_true, if_neg (fun h => hcomment (startsWith_iff.mp h)), hmark, hbehind, hsize]

/-- A `<` before an opening tag. -/
theorem blocksFrom_open (offset : Nat) {rest inside : Text} {tag : OpenTag}
    (htag : openTag? rest = some (tag, inside)) :
    blocksFrom offset ('<' :: rest) =
      let start := offset + Text.sizeUpTo ('<' :: rest) inside
      if tag.selfClosing then ⟨tag.name, tag.attrs, [], start, start⟩ :: blocksFrom start inside
      else
        let closing := tail tag.name inside
        let content := Text.upTo inside closing
        let stop := start + Text.size content
        ⟨tag.name, tag.attrs, content, start, stop⟩ :: blocksFrom
          (stop + Text.sizeUpTo closing (afterTag closing)) (afterTag closing) := by
  obtain ⟨c, cs, rfl, hletter⟩ := letter_of_openTag? htag
  have hmark : (c == '/' || c == '!' || c == '?') = false := by
    simp only [Bool.or_eq_false_iff, beq_eq_false_iff_ne]
    refine ⟨⟨?_, ?_⟩, ?_⟩ <;> rintro rfl <;> cases hletter
  rw [blocksFrom.eq_def]
  simp only [not_comment_letter hletter, List.head?_cons, Option.any_some, hmark,
    Bool.false_eq_true, if_true, if_false]
  split
  · next hnone =>
    rw [htag] at hnone
    cases hnone
  · next hsome =>
    rw [htag] at hsome
    cases hsome
    rfl

theorem blocksFrom_selfClosing (offset : Nat) {t : Tag} (ht : t.selfClosing = true) (rest : Text) :
    blocksFrom offset ('<' :: t.text ++ rest)
      = Item.block offset t [] :: blocksFrom (offset + Text.size ('<' :: t.text)) rest := by
  have hsize := Text.sizeUpTo_append ('<' :: t.text) rest
  rw [List.cons_append] at hsize ⊢
  rw [blocksFrom_open offset (openTag?_text t rest)]
  simp only [Tag.meaning, ht, if_true, hsize]
  rfl

theorem blocksFrom_element (offset : Nat) {t : Tag} (ht : t.selfClosing = false) {content : Text}
    (close : ClosingTag t.name.text) (rest : Text)
    (htail : tail t.name.text (content ++ (close.text ++ rest)) = close.text ++ rest) :
    blocksFrom offset ('<' :: (t.text ++ (content ++ close.text)) ++ rest)
      = Item.block offset t content ::
        blocksFrom (offset + Text.size ('<' :: (t.text ++ (content ++ close.text)))) rest := by
  have hform : '<' :: (t.text ++ (content ++ close.text)) ++ rest
      = '<' :: (t.text ++ (content ++ (close.text ++ rest))) := by simp
  have hsize := Text.sizeUpTo_append ('<' :: t.text) (content ++ (close.text ++ rest))
  rw [List.cons_append] at hsize
  rw [hform, blocksFrom_open offset (openTag?_text t _)]
  simp only [Tag.meaning, ht, Bool.false_eq_true, if_false, htail, hsize, Text.upTo_append,
    afterTag_text t.name.isNameChar close, Text.sizeUpTo_append, Item.block]
  simp only [Text.size_cons, Text.size_append, Nat.add_assoc]

/-- **An item makes up its blocks, whatever follows it.** -/
theorem blocksFrom_item (offset : Nat) (i : Item) (rest : Text) :
    blocksFrom offset (i.chars ++ rest)
      = i.blocks offset ++ blocksFrom (offset + Text.size i.chars) rest := by
  cases i with
  | text t ht => exact blocksFrom_chars offset ht rest
  | comment c hc => exact blocksFrom_comment offset hc rest
  | declaration x hx hcomment =>
    refine blocksFrom_mark offset (.inl rfl) hx fun hprefix => hcomment ?_
    exact prefix_of_prefix_append (by decide) (List.cons_prefix_cons.mp hprefix).2
  | instruction x hx =>
    refine blocksFrom_mark offset (.inr rfl) hx fun hprefix => ?_
    exact absurd (List.cons_prefix_cons.mp hprefix).1 (by decide)
  | selfClosing t ht => exact blocksFrom_selfClosing offset ht rest
  | raw t ht hname content hcontent close =>
    exact blocksFrom_element offset ht close rest
      (tail_raw t.name.isNameChar hname hcontent close rest)
  | template t ht hname content hcontent close =>
    exact blocksFrom_element offset ht close rest (tail_template hname hcontent close rest)

theorem blocksFrom_items (offset : Nat) (items : List Item) (rest : Text) :
    blocksFrom offset (charsOf items ++ rest)
      = blocksOf offset items ++ blocksFrom (offset + Text.size (charsOf items)) rest := by
  induction items generalizing offset with
  | nil => rfl
  | cons i is ih =>
    have hchars : charsOf (i :: is) = i.chars ++ charsOf is := List.flatMap_cons
    rw [hchars, List.append_assoc, blocksFrom_item, ih, blocksOf, List.append_assoc,
      Text.size_append, Nat.add_assoc]

/-! ## What follows -/

/-- The blocks of a text that starts at a later byte are moved forward. -/
theorem blocksFrom_shift (k offset : Nat) (cs : Text) :
    blocksFrom (offset + k) cs = (blocksFrom offset cs).map (Block.shift k) := by
  fun_induction blocksFrom offset cs with
  | case1 =>
    rw [blocksFrom.eq_def]
    rfl
  | case2 offset rest hstarts behind ih =>
    rw [blocksFrom.eq_def]
    simp only [if_true, hstarts]
    rw [← ih, Nat.add_right_comm]
  | case3 offset rest hstarts hmark behind ih =>
    rw [blocksFrom.eq_def]
    simp only [if_true, if_neg hstarts, hmark]
    rw [← ih, Nat.add_right_comm]
  | case4 offset rest hstarts hmark htag ih =>
    rw [blocksFrom.eq_def]
    simp only [if_true, if_neg hstarts, if_neg hmark]
    split
    · rw [← ih, Nat.add_right_comm]
    · next htag' =>
      rw [htag] at htag'
      cases htag'
  | case5 offset rest _ _ tag inside htag hself start ih =>
    rw [blocksFrom_open _ htag]
    simp only [hself, if_true, List.map_cons]
    rw [← ih, Nat.add_right_comm]
    rfl
  | case6 offset rest _ _ tag inside htag hself closing content behind start stop ih =>
    have hstart : offset + k + Text.sizeUpTo ('<' :: rest) inside = start + k :=
      Nat.add_right_comm _ _ _
    have hstop : start + k + Text.size content = stop + k := Nat.add_right_comm _ _ _
    have hbehind : stop + k + Text.sizeUpTo closing behind
        = stop + Text.sizeUpTo closing behind + k := Nat.add_right_comm _ _ _
    rw [blocksFrom_open _ htag]
    simp only [if_neg hself, List.map_cons, hstart]
    show (⟨tag.name, tag.attrs, content, start + k, start + k + Text.size content⟩ : Block)
      :: blocksFrom (start + k + Text.size content + Text.sizeUpTo closing behind) behind = _
    rw [← ih, hstop, hbehind]
    rfl
  | case7 offset c rest hc ih =>
    rw [blocksFrom_char _ hc, ← ih, Nat.add_right_comm]

/-- **A component that starts with items has their blocks**, with the names, attributes and
contents they are written with and where they stand, and then the blocks of the rest, moved behind
the items. -/
theorem blocks_items (items : List Item) (source : Text) :
    blocks (charsOf items ++ source)
      = blocksOf 0 items ++ (blocks source).map (Block.shift (Text.size (charsOf items))) := by
  rw [blocks, blocksFrom_items, blocksFrom_shift, blocks]

/-- No blanks. -/
def noGap : Gap := ⟨[], by simp⟩

/-- The tag of a template without attributes. -/
def templateTag : Tag :=
  ⟨⟨'t', "emplate".toList, rfl, Text.forall_of_all (by decide)⟩, [], noGap, false, by simp⟩

/-- A comment that hides a tag, and a template that holds another one and has an attribute with
brackets in its value. -/
def commentedTemplate : List Item :=
  [.comment "<i18n>".toList (by unfold EndsNoComment; decide),
    .template
      ⟨⟨'T', "emplate".toList, rfl, Text.forall_of_all (by decide)⟩,
        [⟨⟨[' '], Text.forall_of_all (by decide)⟩, by decide, 'a', [],
          Text.forall_of_all (by decide),
          .quoted noGap noGap '"' "<b>".toList (.inl rfl) (by decide)⟩],
        noGap, false, by simp⟩
      rfl rfl "<template/>".toList
      (.selfClosing
        (t := ⟨⟨'t', "emplate".toList, rfl, Text.forall_of_all (by decide)⟩,
          [], noGap, true, by simp⟩)
        rfl rfl .nil)
      ⟨"template".toList, rfl, noGap⟩]

theorem commentedTemplate_blocks :
    blocks ("<!--<i18n>--><Template a=\"<b>\"><template/></template>".toList
        ++ "<i18n>\x7b\x7d</i18n>".toList)
      = [⟨"Template".toList, [⟨['a'], some "<b>".toList⟩], "<template/>".toList, 31, 42⟩]
        ++ (blocks "<i18n>\x7b\x7d</i18n>".toList).map (Block.shift 53) := by
  have hchars : charsOf commentedTemplate
      = "<!--<i18n>--><Template a=\"<b>\"><template/></template>".toList := by decide
  have hblocks : blocksOf 0 commentedTemplate
      = [⟨"Template".toList, [⟨['a'], some "<b>".toList⟩], "<template/>".toList, 31, 42⟩] := by
    decide
  have hsize : Text.size (charsOf commentedTemplate) = 53 := by decide
  rw [← hchars, ← hblocks, ← hsize]
  exact blocks_items commentedTemplate _

end LocaleStrings.Component

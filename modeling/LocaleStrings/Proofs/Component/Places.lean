import LocaleStrings.Component.Block
import LocaleStrings.Proofs.Source.Offsets
import Mathlib.Data.List.Infix

/-!
# The places of blocks

Every scanner of components leaves a suffix of the text it was given. So the content of a block is
a part of the component, and the offsets of the block are those of the part.

* `openTag?_suffix`, `tail_suffix`, `afterTag_suffix`: what a scanner leaves is a suffix;
* **`blocks_partAt`**: the content of a block stands where the block says;
* **`blocksFrom_separated`**: blocks are in order, with room for an opening tag before each;
* `i18nBlock?_partAt`: in particular that of the block `i18n`.
-/

namespace LocaleStrings.Component

/-! ## Scanners leave suffixes -/

theorem skipBlanks_suffix (cs : Text) : skipBlanks cs <:+ cs := List.dropWhile_suffix _

theorem attrValue?_suffix {cs value rest : Text} (h : attrValue? cs = some (value, rest)) :
    rest <:+ cs := by
  cases cs with
  | nil => cases h
  | cons c cs =>
    rw [attrValue?] at h
    split_ifs at h with hquote
    · split at h
      · cases h
      · next x rest' hd =>
        cases h
        have hsuffix : x :: rest <:+ cs := hd ▸ List.dropWhile_suffix _
        exact ((List.suffix_cons _ _).trans hsuffix).trans (List.suffix_cons _ _)
    · cases h
      exact List.dropWhile_suffix _

theorem attribute?_suffix {cs rest : Text} {a : Attribute} (h : attribute? cs = some (a, rest)) :
    rest <:+ cs := by
  simp only [attribute?] at h
  have hname : cs.dropWhile isAttrNameChar <:+ cs := List.dropWhile_suffix _
  split at h
  · next r hr =>
    simp only [Option.map_eq_some_iff] at h
    obtain ⟨⟨v, r'⟩, hv, he⟩ := h
    cases he
    have hequals : '=' :: r <:+ cs := hr ▸ (skipBlanks_suffix _).trans hname
    exact (((attrValue?_suffix hv).trans (skipBlanks_suffix r)).trans (List.suffix_cons _ _)).trans
      hequals
  · cases h
    exact hname

theorem attributes?_suffix {cs rest : Text} {attrs : List Attribute} {selfClosing : Bool}
    (h : attributes? cs = some (attrs, selfClosing, rest)) : rest <:+ cs := by
  fun_induction attributes? cs generalizing attrs selfClosing rest with
  | case1 => cases h
  | case2 cs rest' hs =>
    cases h
    exact (List.suffix_cons _ _).trans (hs ▸ skipBlanks_suffix cs)
  | case3 cs c rest' hs _ _ =>
    cases h
    exact ((List.drop_suffix _ _).trans (List.suffix_cons _ _)).trans (hs ▸ skipBlanks_suffix cs)
  | case4 => cases h
  | case5 cs c rest' hs _ _ hc a rest₂ ha ih =>
    simp only [Option.map_eq_some_iff] at h
    obtain ⟨⟨as, sc, r⟩, hr, he⟩ := h
    cases he
    exact ((ih hr).trans (attribute?_suffix ha)).trans (hs ▸ skipBlanks_suffix cs)
  | case6 cs c rest' hs _ _ _ ih =>
    exact ((ih h).trans (List.suffix_cons _ _)).trans (hs ▸ skipBlanks_suffix cs)

theorem openTag?_suffix {cs rest : Text} {tag : OpenTag} (h : openTag? cs = some (tag, rest)) :
    rest <:+ cs := by
  cases cs with
  | nil => cases h
  | cons c cs =>
    rw [openTag?] at h
    split_ifs at h
    simp only [Option.map_eq_some_iff] at h
    obtain ⟨⟨as, sc, r⟩, hr, he⟩ := h
    cases he
    exact ((attributes?_suffix hr).trans (List.dropWhile_suffix _)).trans (List.suffix_cons _ _)

theorem afterComment_suffix (cs : Text) : afterComment cs <:+ cs := by
  fun_induction afterComment cs with
  | case1 => exact List.suffix_rfl
  | case2 cs => exact ⟨['-', '-', '>'], rfl⟩
  | case3 c cs _ ih => exact ih.trans (List.suffix_cons _ _)

theorem afterTag_suffix (cs : Text) : afterTag cs <:+ cs :=
  (List.drop_suffix _ _).trans (List.dropWhile_suffix _)

theorem plainTail_suffix (name cs : Text) : plainTail name cs <:+ cs := by
  induction cs with
  | nil => exact List.suffix_rfl
  | cons c cs ih =>
    rw [plainTail]
    split_ifs
    · exact List.suffix_rfl
    · exact ih.trans (List.suffix_cons _ _)

theorem nestedTail_suffix (name : Text) (depth : Nat) (cs : Text) :
    nestedTail name depth cs <:+ cs := by
  fun_induction nestedTail name depth cs with
  | case1 => exact List.suffix_rfl
  | case2 _ rest _ ih =>
    exact ((ih.trans (afterComment_suffix _)).trans (List.drop_suffix _ _)).trans
      (List.suffix_cons _ _)
  | case3 => exact List.suffix_rfl
  | case4 rest _ _ depth ih => exact (ih.trans (List.drop_suffix _ _)).trans (List.suffix_cons _ _)
  | case5 =>
    rename_i htag _ _ ih
    exact (ih.trans (openTag?_suffix htag)).trans (List.suffix_cons _ _)
  | case6 =>
    rename_i ih
    exact ih.trans (List.suffix_cons _ _)
  | case7 =>
    rename_i ih
    exact ih.trans (List.suffix_cons _ _)
  | case8 =>
    rename_i ih
    exact ih.trans (List.suffix_cons _ _)

theorem tail_suffix (name cs : Text) : tail name cs <:+ cs := by
  rw [tail]
  split_ifs
  · exact nestedTail_suffix _ _ _
  · exact plainTail_suffix _ _

/-! ## Blocks stand where they say -/

/-- The content of `b` stands in the text `cs`, which starts at byte `offset`. -/
def Block.StandsIn (b : Block) (offset : Nat) (cs : Text) : Prop :=
  ∃ before after, cs = before ++ b.content ++ after ∧ b.start = offset + Text.size before ∧
    b.stop = b.start + Text.size b.content

theorem Block.StandsIn.append {b : Block} {offset : Nat} {rest : Text} (taken : Text)
    (h : b.StandsIn (offset + Text.size taken) rest) : b.StandsIn offset (taken ++ rest) := by
  obtain ⟨before, after, rfl, hstart, hstop⟩ := h
  exact ⟨taken ++ before, after, by simp, by rw [hstart, Text.size_append, Nat.add_assoc], hstop⟩

/-- A block behind the part that a scanner took. -/
theorem Block.StandsIn.of_suffix {b : Block} {offset : Nat} {cs rest : Text} (hsuffix : rest <:+ cs)
    (h : b.StandsIn (offset + Text.sizeUpTo cs rest) rest) : b.StandsIn offset cs := by
  obtain ⟨taken, rfl⟩ := hsuffix
  rw [Text.sizeUpTo_append] at h
  exact h.append taken

theorem blocksFrom_standsIn (offset : Nat) (cs : Text) :
    ∀ b ∈ blocksFrom offset cs, b.StandsIn offset cs := by
  fun_induction blocksFrom offset cs with
  | case1 => intro b hb; cases hb
  | case2 offset rest _ _ ih =>
    intro b hb
    have hsuffix : afterComment (rest.drop 3) <:+ '<' :: rest :=
      ((afterComment_suffix _).trans (List.drop_suffix _ _)).trans (List.suffix_cons _ _)
    exact (ih b hb).of_suffix hsuffix
  | case3 offset rest _ _ _ ih =>
    intro b hb
    exact (ih b hb).of_suffix ((afterTag_suffix _).trans (List.suffix_cons _ _))
  | case4 offset rest _ _ _ ih =>
    intro b hb
    exact (ih b hb).append ['<']
  | case5 offset rest _ _ tag inside htag _ start ih =>
    have hsuffix : inside <:+ '<' :: rest := (openTag?_suffix htag).trans (List.suffix_cons _ _)
    intro b hb
    rcases List.mem_cons.mp hb with rfl | hb
    · exact Block.StandsIn.of_suffix hsuffix ⟨[], inside, rfl, rfl, rfl⟩
    · exact (ih b hb).of_suffix hsuffix
  | case6 offset rest _ _ tag inside htag _ closing content behind start stop ih =>
    have hsuffix : inside <:+ '<' :: rest := (openTag?_suffix htag).trans (List.suffix_cons _ _)
    have hinside : inside = content ++ closing := by
      obtain ⟨taken, htaken⟩ := tail_suffix tag.name inside
      have hcontent : content = taken := by
        rw [show content = inside.upTo closing from rfl, ← htaken]
        exact Text.upTo_append _ _
      rw [hcontent]
      exact htaken.symm
    intro b hb
    have hstands : b.StandsIn start (content ++ closing) := by
      rcases List.mem_cons.mp hb with rfl | hb
      · exact ⟨[], closing, rfl, rfl, rfl⟩
      · exact ((ih b hb).of_suffix (afterTag_suffix closing)).append content
    rw [← hinside] at hstands
    exact hstands.of_suffix hsuffix
  | case7 offset c rest _ ih =>
    intro b hb
    have hstands : b.StandsIn (offset + Text.size [c]) rest := ih b hb
    exact hstands.append [c]

/-- **The content of a block stands where the block says.** -/
theorem blocks_partAt {source : Text} {b : Block} (hb : b ∈ blocks source) :
    Text.PartAt source b.start b.content ∧ b.stop = b.start + Text.size b.content := by
  obtain ⟨before, after, hsource, hstart, hstop⟩ := blocksFrom_standsIn 0 source b hb
  exact ⟨⟨before, after, hsource, by rw [hstart, Nat.zero_add]⟩, hstop⟩

theorem i18nBlock?_partAt {source : Text} {b : Block} (hb : i18nBlock? source = some b) :
    Text.PartAt source b.start b.content := by
  have hmem : b ∈ i18nBlocks source := List.mem_of_head? hb
  exact (blocks_partAt (List.mem_of_mem_filter hmem)).1

/-! ## Blocks are in order -/

/-- An opening tag takes a letter and an end at least. -/
theorem length_add_two_le_of_openTag? {rest inside : Text} {tag : OpenTag}
    (h : openTag? rest = some (tag, inside)) : inside.length + 2 ≤ rest.length := by
  cases rest with
  | nil => cases h
  | cons c cs =>
    rw [openTag?] at h
    split_ifs at h
    simp only [Option.map_eq_some_iff] at h
    obtain ⟨⟨attrs, selfClosing, behind⟩, hattrs, he⟩ := h
    obtain rfl : behind = inside := congrArg Prod.snd he
    have hend := length_attributes? hattrs
    have hname := (List.dropWhile_sublist isNameChar (l := cs)).length_le
    rw [List.length_cons]
    omega

theorem three_le_sizeUpTo_of_openTag? {rest inside : Text} {tag : OpenTag}
    (h : openTag? rest = some (tag, inside)) : 3 ≤ Text.sizeUpTo ('<' :: rest) inside := by
  have hlength := length_add_two_le_of_openTag? h
  obtain ⟨taken, htaken⟩ := (openTag?_suffix h).trans (List.suffix_cons '<' rest)
  have hsum := congrArg List.length htaken
  rw [List.length_append, List.length_cons] at hsum
  have hsize := Text.length_le_size taken
  rw [← htaken, Text.sizeUpTo_append]
  omega

theorem blocksFrom_start (offset : Nat) (cs : Text) :
    ∀ b ∈ blocksFrom offset cs, offset + 3 ≤ b.start := by
  fun_induction blocksFrom offset cs with
  | case1 => intro b hb; cases hb
  | case2 offset rest _ _ ih =>
    intro b hb
    have hstart := ih b hb
    omega
  | case3 offset rest _ _ _ ih =>
    intro b hb
    have hstart := ih b hb
    omega
  | case4 offset rest _ _ _ ih =>
    intro b hb
    have hstart := ih b hb
    omega
  | case5 offset rest _ _ tag inside htag _ start ih =>
    have hopen : offset + 3 ≤ start :=
      Nat.add_le_add_left (three_le_sizeUpTo_of_openTag? htag) offset
    intro b hb
    rcases List.mem_cons.mp hb with rfl | hb
    · exact hopen
    · have hstart := ih b hb
      omega
  | case6 offset rest _ _ tag inside htag _ closing content behind start stop ih =>
    have hopen : offset + 3 ≤ start :=
      Nat.add_le_add_left (three_le_sizeUpTo_of_openTag? htag) offset
    have hstop : start ≤ stop := Nat.le_add_right _ _
    intro b hb
    rcases List.mem_cons.mp hb with rfl | hb
    · exact hopen
    · have hstart := ih b hb
      omega
  | case7 offset c rest _ ih =>
    intro b hb
    have hstart := ih b hb
    omega

/-- **A block starts three bytes behind the end of each block before it, or later.** -/
theorem blocksFrom_separated (offset : Nat) (cs : Text) :
    (blocksFrom offset cs).Pairwise fun a b => a.stop + 3 ≤ b.start := by
  fun_induction blocksFrom offset cs with
  | case1 => exact .nil
  | case2 _ _ _ _ ih => exact ih
  | case3 _ _ _ _ _ ih => exact ih
  | case4 _ _ _ _ _ ih => exact ih
  | case5 offset rest _ _ tag inside _ _ start ih =>
    exact List.pairwise_cons.mpr ⟨blocksFrom_start start inside, ih⟩
  | case6 offset rest _ _ tag inside _ _ closing content behind start stop ih =>
    refine List.pairwise_cons.mpr ⟨fun b hb => ?_, ih⟩
    have hstart := blocksFrom_start _ _ b hb
    show stop + 3 ≤ b.start
    omega
  | case7 _ _ _ _ ih => exact ih

end LocaleStrings.Component

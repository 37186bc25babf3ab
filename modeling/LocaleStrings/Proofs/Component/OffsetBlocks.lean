import LocaleStrings.Proofs.Component.OffsetTags

/-!
# Blocks by offsets

The scan by offsets never makes a bad cut and always ends, with the blocks of the component.

* `closes_units`: a closing tag among the bytes is one among the characters;
* `find?_closesAt_char`: a search of all offsets finds no closing tag inside a character;
* `nestedClose_lt`, `scan_lt`: one round of the loops;
* **`ByOffset.scan_eq`**: the scan ends, with the blocks of the component;
* **`blocks_wellPlaced`**: the blocks are cuts of the source, in order, with room between them.
-/

namespace LocaleStrings.Component

open Text (sizeUpTo)

namespace ByOffset

variable {source : Text}

/-! ## Closing tags -/

theorem closes_iff {name cs : Text} :
    closes name cs = true ↔ ∃ s r, cs = ['<', '/'] ++ s ++ r ∧
      Ascii.sameIgnoringCase s name = true ∧
      r.head?.all (fun c => c == '>' || Ascii.isBlank c) = true := by
  constructor
  · intro h
    unfold closes at h
    split at h
    · next cs =>
      obtain ⟨hsame, hend⟩ := Bool.and_eq_true_iff.mp h
      refine ⟨cs.take name.length, cs.drop name.length, ?_, hsame, hend⟩
      rw [List.append_assoc, List.take_append_drop]
      rfl
    · cases h
  · rintro ⟨s, r, rfl, hsame, hend⟩
    have hlength := length_of_same hsame
    simp only [closes, List.cons_append, List.nil_append, ← hlength, List.take_left,
      List.drop_left, hsame, hend, Bool.and_self]

theorem head?_of_closes {name cs : Text} (h : closes name cs = true) : cs.head? = some '<' := by
  obtain ⟨s, r, rfl, -, -⟩ := closes_iff.mp h
  rfl

theorem nestedClose_char {name : Text} (depth : Nat) {c : Char} {rest : Text} (hc : c ≠ '<')
    (h : c :: rest <:+ source) :
    nestedClose source name depth (sizeUpTo source (c :: rest))
      = nestedClose source name depth (sizeUpTo source rest) := by
  refine Loop.run_congr ?_
  simp only [nestedRound, nextMark_char hc h]

section Name

-- the name of an opening tag is ASCII, so it has the same bytes as characters
variable {name : Text} (hname : ∀ c ∈ name, isNameChar c = true)

include hname

/-- A closing tag among the bytes is one among the characters. -/
theorem closes_units (cs : Text) :
    closes name cs.units = closes name cs := by
  have hclass : AsciiClass fun c => c == '>' || Ascii.isBlank c :=
    (AsciiClass.beq (by decide)).or asciiClass_isBlank
  have hmarks : ∀ c ∈ ['<', '/'], c.toNat < 128 := by
    intro c hc
    rcases List.mem_pair.mp hc with rfl | rfl <;> decide
  have hascii : ∀ s, Ascii.sameIgnoringCase s name = true →
      ∀ c ∈ ['<', '/'] ++ s, c.toNat < 128 := by
    intro s hsame c hc
    rcases List.mem_append.mp hc with hc | hc
    · exact hmarks c hc
    · exact toNat_lt_of_isNameChar (isNameChar_of_same hsame hname c hc)
  rw [Bool.eq_iff_iff, closes_iff, closes_iff]
  constructor
  · rintro ⟨s, r, hcs, hsame, hend⟩
    obtain ⟨rest, hrest, rfl⟩ := Text.exists_of_units_eq_append (hascii s hsame) hcs
    rw [Text.all_head?_units hclass] at hend
    exact ⟨s, rest, hrest, hsame, hend⟩
  · rintro ⟨s, r, rfl, hsame, hend⟩
    refine ⟨s, r.units, ?_, hsame, ?_⟩
    · rw [Text.units_append, Text.units_of_ascii (hascii s hsame)]
    · rw [Text.all_head?_units hclass]
      exact hend

theorem closesAt_sizeUpTo {cs : Text} (h : cs <:+ source) :
    closesAt source name (sizeUpTo source cs) = closes name cs := by
  rw [closesAt, Text.units_of_ascii fun c hc => toNat_lt_of_isNameChar (hname c hc),
    Text.drop_units h, closes_units hname]

/-- No closing tag starts inside a character, and one at its start is seen. -/
theorem find?_closesAt_char {c : Char} {cs : Text} (h : c :: cs <:+ source) :
    (List.range' (sizeUpTo source (c :: cs)) c.utf8Size).find? (closesAt source name)
      = if closes name (c :: cs) then some (sizeUpTo source (c :: cs)) else none := by
  have hfirst := closesAt_sizeUpTo hname h
  by_cases hcloses : closes name (c :: cs) = true
  · obtain rfl : c = '<' := Option.some.inj (head?_of_closes hcloses)
    have hrange : List.range' (sizeUpTo source ('<' :: cs)) '<'.utf8Size
        = [sizeUpTo source ('<' :: cs)] := rfl
    rw [hrange, if_pos hcloses, List.find?_cons_of_pos (hfirst.trans hcloses)]
  · rw [if_neg hcloses, List.find?_eq_none]
    intro k hk hat
    obtain ⟨j, hj, rfl⟩ := List.mem_range'.mp hk
    -- a closing tag starts with an ASCII byte, so the character is that byte
    have hhead := head?_of_closes hat
    rw [Nat.one_mul, ← List.drop_drop, Text.drop_units h, Text.units_cons, List.head?_drop,
      List.getElem?_append_left (by rw [Text.length_units]; exact hj)] at hhead
    have hmem := List.mem_of_getElem? hhead
    have hclass := (AsciiClass.beq (show '<'.toNat < 128 by decide)).of_mem_units hmem
    obtain rfl : c = '<' := by simpa using hclass.symm
    obtain rfl : j = 0 := Nat.lt_one_iff.mp hj
    exact hcloses (hfirst.symm.trans hat)

theorem find?_closesAt {cs : Text} (h : cs <:+ source) :
    (List.range' (sizeUpTo source cs) (Text.size cs)).find? (closesAt source name)
      = if plainTail name cs = [] then none else some (sizeUpTo source (plainTail name cs)) := by
  induction cs with
  | nil => rfl
  | cons c cs ih =>
    have hsplit : List.range' (sizeUpTo source (c :: cs)) (Text.size (c :: cs))
        = List.range' (sizeUpTo source (c :: cs)) c.utf8Size
          ++ List.range' (sizeUpTo source cs) (Text.size cs) := by
      rw [Text.sizeUpTo_cons h, Text.size_cons, List.range'_append_1]
    rw [hsplit, List.find?_append, find?_closesAt_char hname h,
      ih ((List.suffix_cons _ _).trans h), plainTail]
    by_cases hcloses : closes name (c :: cs) = true
    · rw [if_pos hcloses, if_pos hcloses, if_neg (List.cons_ne_nil _ _)]
      rfl
    · rw [if_neg hcloses, if_neg hcloses]
      rfl

theorem plainClose_sizeUpTo {cs : Text} (h : cs <:+ source) :
    plainClose source name (sizeUpTo source cs)
      = some (sizeUpTo source (plainTail name cs),
          sizeUpTo source (afterTag (plainTail name cs))) := by
  have htail : plainTail name cs <:+ source := (plainTail_suffix name cs).trans h
  have hlength : source.units.length - sizeUpTo source cs = Text.size cs := by
    have := Text.sizeUpTo_add_size h
    rw [Text.length_units]
    omega
  unfold plainClose
  rw [hlength, find?_closesAt hname h]
  by_cases hnil : plainTail name cs = []
  · rw [if_pos hnil, hnil]
    show some (Text.size source, Text.size source) = some (sizeUpTo source [], sizeUpTo source [])
    rw [Text.sizeUpTo_nil]
  · simp only [if_neg hnil, closingEnd_sizeUpTo htail]
    rfl

/-- One round of the search for the closing tag of a block that nests. -/
theorem nestedClose_lt (depth : Nat) {rest : Text} (h : '<' :: rest <:+ source) :
    nestedClose source name (depth + 1) (sizeUpTo source ('<' :: rest)) =
      if Text.startsWith rest "!--" then
        nestedClose source name (depth + 1) (sizeUpTo source (afterComment (rest.drop 3)))
      else if closes name ('<' :: rest) then
        match depth with
        | 0 => some (sizeUpTo source ('<' :: rest), sizeUpTo source (afterTag ('<' :: rest)))
        | depth + 1 => nestedClose source name (depth + 1) (sizeUpTo source (rest.drop 1))
      else
        match openTag? rest with
        | none => nestedClose source name (depth + 1) (sizeUpTo source rest)
        | some (tag, behind) =>
          if Ascii.sameIgnoringCase tag.name name then
            nestedClose source name (depth + 1 + tag.opened) (sizeUpTo source behind)
          else nestedClose source name (depth + 1) (sizeUpTo source rest) := by
  have hstarts : Text.startsWith ('<' :: rest) "<!--" = Text.startsWith rest "!--" := rfl
  have hnext := Text.sizeUpTo_cons_ascii h (by decide)
  rw [nestedClose, Loop.run]
  simp only [nestedRound, nextMark_lt h, Option.bind_eq_bind, Option.bind_some, rest?_sizeUpTo h, hstarts,
    closesAt_sizeUpTo hname h, openTag_sizeUpTo h, closingEnd_sizeUpTo h, ← hnext]
  by_cases hcomment : Text.startsWith rest "!--" = true
  · rw [if_pos hcomment, if_pos hcomment, commentEnd_sizeUpTo h hcomment]
    rfl
  rw [if_neg hcomment, if_neg hcomment]
  by_cases hcloses : closes name ('<' :: rest) = true
  · rw [if_pos hcloses, if_pos hcloses]
    cases depth with
    | zero => rfl
    | succ depth =>
      obtain ⟨s, r, hsr, -, -⟩ := closes_iff.mp hcloses
      obtain rfl : rest = '/' :: (s ++ r) := (List.cons.inj hsr).2
      have hslash := Text.sizeUpTo_cons_ascii ((List.suffix_cons _ _).trans h) (by decide)
      rw [List.drop_one, List.tail_cons, hslash, hnext]
      rfl
  rw [if_neg hcloses, if_neg hcloses]
  cases openTag? rest with
  | none => rfl
  | some found =>
    obtain ⟨tag, behind⟩ := found
    by_cases hsame : Ascii.sameIgnoringCase tag.name name = true
    · simp only [Option.map_some, if_pos hsame]
      rfl
    · simp only [Option.map_some, if_neg hsame]
      rfl

theorem nestedClose_sizeUpTo (depth : Nat) {cs : Text} (h : cs <:+ source) :
    nestedClose source name (depth + 1) (sizeUpTo source cs)
      = some (sizeUpTo source (nestedTail name depth cs),
          sizeUpTo source (afterTag (nestedTail name depth cs))) := by
  fun_induction nestedTail name depth cs with
  | case1 depth =>
    rw [nestedClose, Loop.run]
    simp only [nestedRound, nextMark_nil]
    show some (Text.size source, Text.size source) = some (sizeUpTo source [], sizeUpTo source [])
    rw [Text.sizeUpTo_nil]
  | case2 depth rest hcomment ih =>
    have hrest : rest <:+ source := (List.suffix_cons _ _).trans h
    rw [nestedClose_lt hname depth h, if_pos hcomment]
    exact ih (((afterComment_suffix _).trans (List.drop_suffix _ _)).trans hrest)
  | case3 rest hcomment hcloses =>
    rw [nestedClose_lt hname 0 h, if_neg hcomment, if_pos hcloses]
  | case4 rest hcomment depth hcloses ih =>
    have hrest : rest <:+ source := (List.suffix_cons _ _).trans h
    rw [nestedClose_lt hname _ h, if_neg hcomment, if_pos hcloses]
    exact ih ((List.drop_suffix _ _).trans hrest)
  | case5 depth rest hcomment tag behind htag hsame hcloses ih =>
    have hrest : rest <:+ source := (List.suffix_cons _ _).trans h
    rw [nestedClose_lt hname depth h, if_neg hcomment, if_neg hcloses, htag]
    simp only [if_pos hsame, Nat.add_right_comm depth 1]
    exact ih ((openTag?_suffix htag).trans hrest)
  | case6 depth rest hcomment tag behind htag hsame hcloses ih =>
    rw [nestedClose_lt hname depth h, if_neg hcomment, if_neg hcloses, htag]
    simp only [if_neg hsame]
    exact ih ((List.suffix_cons _ _).trans h)
  | case7 depth rest hcomment htag hcloses ih =>
    rw [nestedClose_lt hname depth h, if_neg hcomment, if_neg hcloses, htag]
    exact ih ((List.suffix_cons _ _).trans h)
  | case8 depth c rest hc ih =>
    rw [nestedClose_char _ hc h]
    exact ih ((List.suffix_cons _ _).trans h)

/-- The end of a block, found by offsets, is the tail of the text behind its opening tag. -/
theorem close_sizeUpTo {inside : Text} (h : inside <:+ source) :
    close source name (sizeUpTo source inside)
      = some (sizeUpTo source (tail name inside),
          sizeUpTo source (afterTag (tail name inside))) := by
  rw [close, tail]
  split_ifs
  · exact nestedClose_sizeUpTo hname 0 h
  · exact plainClose_sizeUpTo hname h

end Name

/-! ## Blocks -/

theorem isNameChar_of_openTag? {rest inside : Text} {tag : OpenTag}
    (h : openTag? rest = some (tag, inside)) : ∀ c ∈ tag.name, isNameChar c = true := by
  cases rest with
  | nil => cases h
  | cons c cs =>
    rw [openTag?] at h
    split_ifs at h with hletter
    simp only [Option.map_eq_some_iff] at h
    obtain ⟨r, -, he⟩ := h
    cases he
    intro d hd
    rcases List.mem_cons.mp hd with rfl | hd
    · exact isNameChar_of_isLetter hletter
    · exact List.all_eq_true.mp List.all_takeWhile d hd

theorem startsWith_mark (rest : Text) :
    (Text.startsWith ('<' :: rest) "</" || Text.startsWith ('<' :: rest) "<!"
      || Text.startsWith ('<' :: rest) "<?")
      = rest.head?.any fun d => d == '/' || d == '!' || d == '?' := by
  cases rest with
  | nil => rfl
  | cons d rest =>
    have hstarts : ∀ m : Char, ['<', m].isPrefixOf ('<' :: d :: rest) = (d == m) := by
      intro m
      rw [Bool.eq_iff_iff, List.isPrefixOf_iff_prefix, beq_iff_eq]
      simp [eq_comm]
    exact congrArg₂ or (congrArg₂ or (hstarts '/') (hstarts '!')) (hstarts '?')

theorem scan_char (found : List Block) {c : Char} {rest : Text} (hc : c ≠ '<')
    (h : c :: rest <:+ source) :
    scan source found (sizeUpTo source (c :: rest)) = scan source found (sizeUpTo source rest) := by
  refine Loop.run_congr ?_
  simp only [scanRound, nextMark_char hc h]

/-- One round of the search for blocks. -/
theorem scan_lt (found : List Block) {rest : Text} (h : '<' :: rest <:+ source) :
    scan source found (sizeUpTo source ('<' :: rest)) =
      if Text.startsWith rest "!--" then
        scan source found (sizeUpTo source (afterComment (rest.drop 3)))
      else if rest.head?.any fun d => d == '/' || d == '!' || d == '?' then
        scan source found (sizeUpTo source (afterTag rest))
      else
        match openTag? rest with
        | none => scan source found (sizeUpTo source rest)
        | some (tag, inside) =>
          let start := sizeUpTo source inside
          if tag.selfClosing then
            scan source (found ++ [⟨tag.name, tag.attrs, [], start, start⟩]) start
          else
            let closing := tail tag.name inside
            scan source (found ++ [⟨tag.name, tag.attrs, Text.upTo inside closing, start,
              sizeUpTo source closing⟩]) (sizeUpTo source (afterTag closing)) := by
  have hstarts : Text.startsWith ('<' :: rest) "<!--" = Text.startsWith rest "!--" := rfl
  rw [scan, Loop.run]
  simp only [scanRound, nextMark_lt h, Option.bind_eq_bind, Option.bind_some, rest?_sizeUpTo h, hstarts, startsWith_mark,
    openTag_sizeUpTo h, markEnd_sizeUpTo h,
    ← Text.sizeUpTo_cons_ascii h (show '<'.toNat < 128 by decide)]
  by_cases hcomment : Text.startsWith rest "!--" = true
  · rw [if_pos hcomment, if_pos hcomment, commentEnd_sizeUpTo h hcomment]
    rfl
  rw [if_neg hcomment, if_neg hcomment, afterTag_cons, if_neg (show '<' ≠ '>' by decide)]
  by_cases hmark : (rest.head?.any fun d => d == '/' || d == '!' || d == '?') = true
  · rw [if_pos hmark, if_pos hmark]
    rfl
  rw [if_neg hmark, if_neg hmark]
  cases htag : openTag? rest with
  | none => rfl
  | some found =>
    obtain ⟨tag, inside⟩ := found
    have hinside : inside <:+ source :=
      ((openTag?_suffix htag).trans (List.suffix_cons _ _)).trans h
    simp only [Option.map_some, Option.bind_some,
      close_sizeUpTo (isNameChar_of_openTag? htag) hinside,
      between?_upTo hinside (tail_suffix tag.name inside)]
    by_cases hself : tag.selfClosing = true
    · rw [if_pos hself, if_pos hself]
      rfl
    · rw [if_neg hself, if_neg hself]
      rfl

theorem scan_sizeUpTo (found : List Block) {offset : Nat} {cs : Text} (h : cs <:+ source)
    (hoffset : offset = sizeUpTo source cs) :
    scan source found offset = some (found ++ blocksFrom offset cs) := by
  fun_induction blocksFrom offset cs generalizing found with
  | case1 offset =>
    rw [hoffset, scan, Loop.run, List.append_nil]
    simp only [scanRound, nextMark_nil]
    rfl
  | case2 offset rest hcomment behind ih =>
    have hsuffix : behind <:+ '<' :: rest :=
      ((afterComment_suffix _).trans (List.drop_suffix _ _)).trans (List.suffix_cons _ _)
    rw [hoffset, Text.sizeUpTo_trans h hsuffix] at ih
    rw [hoffset, scan_lt found h, if_pos hcomment, Text.sizeUpTo_trans h hsuffix]
    exact ih found (hsuffix.trans h) rfl
  | case3 offset rest hcomment hmark behind ih =>
    have hsuffix : behind <:+ '<' :: rest := (afterTag_suffix _).trans (List.suffix_cons _ _)
    rw [hoffset, Text.sizeUpTo_trans h hsuffix] at ih
    rw [hoffset, scan_lt found h, if_neg hcomment, if_pos hmark, Text.sizeUpTo_trans h hsuffix]
    exact ih found (hsuffix.trans h) rfl
  | case4 offset rest hcomment hmark htag ih =>
    rw [hoffset, ← Text.sizeUpTo_cons_ascii h (by decide)] at ih
    rw [hoffset, scan_lt found h, if_neg hcomment, if_neg hmark, htag,
      ← Text.sizeUpTo_cons_ascii h (by decide)]
    exact ih found ((List.suffix_cons _ _).trans h) rfl
  | case5 offset rest hcomment hmark tag inside htag hself start ih =>
    have hsuffix : inside <:+ '<' :: rest := (openTag?_suffix htag).trans (List.suffix_cons _ _)
    have hstart : start = sizeUpTo source inside := by
      rw [← Text.sizeUpTo_trans h hsuffix, ← hoffset]
    rw [hoffset, scan_lt found h, if_neg hcomment, if_neg hmark, htag]
    simp only [if_pos hself]
    rw [← hstart, ih _ (hsuffix.trans h) hstart, List.append_assoc]
    rfl
  | case6 offset rest hcomment hmark tag inside htag hself closing content behind start stop ih =>
    have hsuffix : inside <:+ '<' :: rest := (openTag?_suffix htag).trans (List.suffix_cons _ _)
    have hstart : start = sizeUpTo source inside := by
      rw [← Text.sizeUpTo_trans h hsuffix, ← hoffset]
    have hstop : stop = sizeUpTo source closing := by
      rw [← Text.sizeUpTo_trans (hsuffix.trans h) (tail_suffix tag.name inside), ← hstart]
      rfl
    have hclosing : closing <:+ source := (tail_suffix _ _).trans (hsuffix.trans h)
    have hbehind : stop + sizeUpTo closing behind = sizeUpTo source behind := by
      rw [hstop, Text.sizeUpTo_trans hclosing (afterTag_suffix closing)]
    rw [hoffset, scan_lt found h, if_neg hcomment, if_neg hmark, htag]
    simp only [if_neg hself]
    rw [← hstart, ← hstop, ← hbehind,
      ih _ ((afterTag_suffix closing).trans hclosing) hbehind, List.append_assoc]
    rfl
  | case7 offset c rest hc ih =>
    rw [hoffset, ← Text.sizeUpTo_cons h] at ih
    rw [hoffset, scan_char found hc h, ← Text.sizeUpTo_cons h]
    exact ih found ((List.suffix_cons _ _).trans h) rfl

theorem scan_eq (source : Text) : scan source [] 0 = some (blocks source) :=
  scan_sizeUpTo [] List.suffix_rfl (Text.sizeUpTo_self source).symm

end ByOffset

/-- **The scan ends without a bad cut, and its blocks are cuts of the source, in order, each with
room for an opening tag before it.** -/
theorem blocks_wellPlaced (source : Text) :
    ByOffset.scan source [] 0 = some (blocks source) ∧
      (∀ b ∈ blocks source,
        b.start ≤ b.stop ∧ b.stop ≤ Text.size source ∧
        (Text.splitAt? b.start source).isSome = true ∧
        (Text.splitAt? b.stop source).isSome = true ∧
        (⟨b.start, b.stop⟩ : Span).slice source = some b.content) ∧
      (blocks source).Pairwise fun a b => a.stop + 3 ≤ b.start := by
  refine ⟨ByOffset.scan_eq source, fun b hb => ?_, blocksFrom_separated 0 source⟩
  obtain ⟨hpart, hstop⟩ := blocks_partAt hb
  have hslice := hpart.slice
  have hsize := hpart.add_size_le
  obtain ⟨before, after, hsource, hstart⟩ := hpart
  rw [← hstop] at hslice hsize
  refine ⟨by omega, hsize, ?_, ?_, hslice⟩
  · rw [hstart, hsource, List.append_assoc, Text.splitAt?_size]
    rfl
  · rw [hstop, hstart, ← Text.size_append, hsource, Text.splitAt?_size]
    rfl

/-- A component with a `<` that opens no tag, an empty block, and behind it at once a block whose
closing tag is cut off. -/
def truncated : Text := "<é 名='<a/><b>é</b".toList

theorem truncated_wellPlaced :
    ByOffset.scan truncated [] 0
      = some [⟨['a'], [], [], 13, 13⟩, ⟨['b'], [], ['é'], 16, 18⟩] ∧
    (⟨16, 18⟩ : Span).slice truncated = some ['é'] := by
  have hblocks : blocks truncated = [⟨['a'], [], [], 13, 13⟩, ⟨['b'], [], ['é'], 16, 18⟩] := by
    decide +kernel
  obtain ⟨hscan, hplaces, -⟩ := blocks_wellPlaced truncated
  rw [hblocks] at hscan hplaces
  obtain ⟨-, -, -, -, hslice⟩ := hplaces _ (List.mem_cons_of_mem _ List.mem_cons_self)
  exact ⟨hscan, hslice⟩

end LocaleStrings.Component

import LocaleStrings.Proofs.Component.ByOffset
import LocaleStrings.Proofs.Component.Closing
import LocaleStrings.Proofs.Component.Places

/-!
# Opening tags by offsets

At the offset of a suffix of the source, each step over the bytes does what the scanner of
characters does on the suffix: the classes of bytes that end a run are ASCII classes, so a run ends
between two characters, and every cut is one.

* `rest?_sizeUpTo`, `between?_sizeUpTo`, `skip_sizeUpTo`: cuts and runs;
* `nextMark_char`, `behindNext_later`, `findIdx?_units`: searches;
* `attributes_of_cons`: one round of the loop over attributes;
* **`openTag_sizeUpTo`**: the opening tag at an offset is that of the text there.
-/

namespace LocaleStrings.Component

open Text (sizeUpTo)

variable {source : Text}

/-! ## Classes -/

theorem toNat_lt_of_isBlank {c : Char} (hc : Ascii.isBlank c = true) : c.toNat < 128 := by
  simp only [Ascii.isBlank, Bool.or_eq_true, beq_iff_eq] at hc
  rcases hc with (((rfl | rfl) | rfl) | rfl) | rfl <;> decide

theorem asciiClass_isBlank : AsciiClass Ascii.isBlank := .of_imp fun _ => toNat_lt_of_isBlank

theorem toNat_lt_of_le {c d : Char} (hd : d.toNat < 128) (h : c ≤ d) : c.toNat < 128 :=
  Nat.lt_of_le_of_lt h hd

theorem toNat_lt_of_isLetter {c : Char} (hc : Ascii.isLetter c = true) : c.toNat < 128 := by
  simp only [Ascii.isLetter, Bool.or_eq_true, Bool.and_eq_true, decide_eq_true_eq] at hc
  rcases hc with ⟨-, hc⟩ | ⟨-, hc⟩
  · exact toNat_lt_of_le (by decide) hc
  · exact toNat_lt_of_le (by decide) hc

theorem toNat_lt_of_isNameChar {c : Char} (hc : isNameChar c = true) : c.toNat < 128 := by
  simp only [isNameChar, Ascii.isDigit, Bool.or_eq_true, Bool.and_eq_true, decide_eq_true_eq,
    beq_iff_eq] at hc
  rcases hc with ((((hc | ⟨-, hc⟩) | rfl) | rfl) | rfl) | rfl
  · exact toNat_lt_of_isLetter hc
  · exact toNat_lt_of_le (by decide) hc
  all_goals decide

theorem asciiClass_isLetter : AsciiClass Ascii.isLetter := .of_imp fun _ => toNat_lt_of_isLetter

theorem asciiClass_isNameChar : AsciiClass isNameChar := .of_imp fun _ => toNat_lt_of_isNameChar

theorem asciiClass_isAttrNameChar : AsciiClass isAttrNameChar :=
  (((asciiClass_isBlank.or (.beq (by decide))).or (.beq (by decide))).or (.beq (by decide))).not

theorem toNat_lt_of_not_isAttrNameChar {c : Char} (hc : ¬ isAttrNameChar c = true) :
    c.toNat < 128 := by
  simp only [isAttrNameChar, Bool.not_eq_true', Bool.not_eq_false, Bool.or_eq_true,
    beq_iff_eq] at hc
  rcases hc with ((hc | rfl) | rfl) | rfl
  · exact toNat_lt_of_isBlank hc
  all_goals decide

theorem asciiClass_isBareValueChar : AsciiClass isBareValueChar :=
  (asciiClass_isBlank.or (.beq (by decide))).not

namespace ByOffset

/-! ## Cuts at the offsets of suffixes -/

theorem rest?_sizeUpTo {cs : Text} (h : cs <:+ source) :
    rest? source (sizeUpTo source cs) = some cs := by
  obtain ⟨before, rfl⟩ := h
  rw [rest?, Text.sizeUpTo_append, Text.splitAt?_size]
  rfl

theorem between?_sizeUpTo {t rest : Text} (h : t ++ rest <:+ source) :
    between? source (sizeUpTo source (t ++ rest)) (sizeUpTo source rest) = some t := by
  rw [Text.sizeUpTo_append_right h]
  obtain ⟨before, rfl⟩ := h
  rw [Text.sizeUpTo_append]
  have hpart : Text.PartAt (before ++ (t ++ rest)) (Text.size before) t :=
    ⟨before, rest, by rw [List.append_assoc], rfl⟩
  exact hpart.slice

theorem between?_upTo {cs rest : Text} (h : cs <:+ source) (hrest : rest <:+ cs) :
    between? source (sizeUpTo source cs) (sizeUpTo source rest) = some (Text.upTo cs rest) := by
  obtain ⟨t, rfl⟩ := hrest
  rw [Text.upTo_append]
  exact between?_sizeUpTo h

theorem units?_sizeUpTo {cs : Text} (h : cs <:+ source) :
    units? source (sizeUpTo source cs) = some cs.units := by
  have hle := Text.sizeUpTo_add_size h
  rw [units?, if_pos (by rw [Text.length_units]; omega), Text.drop_units h]

theorem between?_takeWhile (p : Char → Bool) {cs : Text} (h : cs <:+ source) :
    between? source (sizeUpTo source cs) (sizeUpTo source (cs.dropWhile p))
      = some (cs.takeWhile p) := by
  have hsplit := List.takeWhile_append_dropWhile (p := p) (l := cs)
  rw [← hsplit] at h
  have hcut := between?_sizeUpTo h
  rwa [hsplit] at hcut

theorem skip_sizeUpTo {p : Char → Bool} (hp : AsciiClass p) {cs : Text} (h : cs <:+ source) :
    skip source p (sizeUpTo source cs) = sizeUpTo source (cs.dropWhile p) := by
  rw [skip, Text.drop_units h, hp.takeWhile_units, Text.length_units, Text.sizeUpTo_dropWhile p h]

/-! ## Searches -/

theorem find?_eq_zero {wanted cs : Text} {c : Char} (h : wanted <+: c :: cs) :
    find? wanted (c :: cs) = some 0 := by
  rw [find?, if_pos (List.isPrefixOf_iff_prefix.mpr h)]

theorem find?_later {wanted cs : Text} {c : Char} (h : ¬ wanted <+: c :: cs) :
    find? wanted (c :: cs) = (find? wanted cs).map (c.utf8Size + ·) := by
  rw [find?, if_neg (mt List.isPrefixOf_iff_prefix.mp h)]

theorem find?_cons_self (x : Char) (cs : Text) : find? [x] (x :: cs) = some 0 :=
  find?_eq_zero (List.prefix_append [x] cs)

theorem not_prefix_of_ne {x c : Char} (h : c ≠ x) (cs : Text) : ¬ [x] <+: c :: cs :=
  fun hprefix => h (List.cons_prefix_cons.mp hprefix).1.symm

theorem nextMark_nil : nextMark source (sizeUpTo source []) = some none := by
  rw [nextMark, rest?_sizeUpTo List.nil_suffix]
  rfl

theorem nextMark_lt {rest : Text} (h : '<' :: rest <:+ source) :
    nextMark source (sizeUpTo source ('<' :: rest))
      = some (some (sizeUpTo source ('<' :: rest))) := by
  rw [nextMark, rest?_sizeUpTo h]
  simp [find?_cons_self]

theorem nextMark_char {c : Char} {rest : Text} (hc : c ≠ '<') (h : c :: rest <:+ source) :
    nextMark source (sizeUpTo source (c :: rest)) = nextMark source (sizeUpTo source rest) := by
  rw [nextMark, nextMark, rest?_sizeUpTo h, rest?_sizeUpTo ((List.suffix_cons _ _).trans h)]
  simp only [Option.bind_eq_bind, Option.bind_some, find?_later (not_prefix_of_ne hc _),
    Option.map_map, Text.sizeUpTo_cons h]
  congr 2
  funext i
  exact (Nat.add_assoc _ _ _).symm

/-- Looking for an ASCII byte among the bytes is looking for the character. -/
theorem findIdx?_units {x : Char} (hx : x.toNat < 128) (cs : Text) :
    cs.units.findIdx? (· == x) = find? [x] cs := by
  induction cs with
  | nil => rfl
  | cons c cs ih =>
    rw [Text.units_cons, List.findIdx?_append, ih]
    by_cases hc : c = x
    · rw [hc, find?_cons_self, Text.units_ascii hx]
      simp
    · have hnone : (Text.units [c]).findIdx? (· == x) = none := by
        refine List.findIdx?_eq_none_iff.mpr fun u hu => ?_
        rw [(AsciiClass.beq hx).of_mem_units hu]
        exact beq_eq_false_iff_ne.mpr hc
      have hlength : (Text.units [c]).length = c.utf8Size := by
        rw [Text.length_units, Text.size_cons, Text.size_nil, Nat.add_zero]
      rw [find?_later (not_prefix_of_ne hc _), hnone, hlength, Option.none_or]
      congr 1
      funext i
      exact Nat.add_comm _ _

theorem find?_eq (x : Char) (cs : Text) :
    find? [x] cs = match cs.dropWhile (· != x) with
      | [] => none
      | _ :: _ => some (Text.size (cs.takeWhile (· != x))) := by
  induction cs with
  | nil => rfl
  | cons c cs ih =>
    by_cases hc : c = x
    · rw [hc, find?_cons_self, List.dropWhile_cons_of_neg (by simp),
        List.takeWhile_cons_of_neg (by simp)]
      rfl
    · have hne : (c != x) = true := bne_iff_ne.mpr hc
      rw [find?_later (not_prefix_of_ne hc _), ih, List.dropWhile_cons, if_pos hne,
        List.takeWhile_cons, if_pos hne]
      cases cs.dropWhile (· != x) <;> rfl

theorem afterTag_cons (c : Char) (cs : Text) :
    afterTag (c :: cs) = if c = '>' then cs else afterTag cs := by
  unfold afterTag
  by_cases hc : c = '>'
  · rw [if_pos hc, List.dropWhile_cons_of_neg (by simp [hc])]
    rfl
  · rw [if_neg hc, List.dropWhile_cons_of_pos (by simpa using hc)]

theorem behindNext_nil (wanted : Text) :
    behindNext source wanted (sizeUpTo source []) = some (sizeUpTo source []) := by
  rw [behindNext, rest?_sizeUpTo List.nil_suffix, Text.sizeUpTo_nil]
  rfl

theorem behindNext_self {x : Char} {xs rest : Text} (h : x :: (xs ++ rest) <:+ source) :
    behindNext source (x :: xs) (sizeUpTo source (x :: (xs ++ rest)))
      = some (sizeUpTo source rest) := by
  have hnext := Text.sizeUpTo_append_right (t := x :: xs) h
  have hfind : find? (x :: xs) (x :: (xs ++ rest)) = some 0 :=
    find?_eq_zero (List.prefix_append (x :: xs) rest)
  rw [behindNext, rest?_sizeUpTo h, hnext]
  simp only [Option.bind_eq_bind, Option.bind_some, hfind]
  rfl

theorem behindNext_later {wanted rest : Text} {c : Char} (hc : ¬ wanted <+: c :: rest)
    (h : c :: rest <:+ source) :
    behindNext source wanted (sizeUpTo source (c :: rest))
      = behindNext source wanted (sizeUpTo source rest) := by
  rw [behindNext, behindNext, rest?_sizeUpTo h, rest?_sizeUpTo ((List.suffix_cons _ _).trans h)]
  simp only [Option.bind_eq_bind, Option.bind_some, find?_later hc]
  cases find? wanted rest with
  | none => rfl
  | some i =>
    have hpos : sizeUpTo source (c :: rest) + (c.utf8Size + i) = sizeUpTo source rest + i := by
      rw [Text.sizeUpTo_cons h]
      omega
    simp only [Option.map_some, hpos]

theorem markEnd_sizeUpTo {cs : Text} (h : cs <:+ source) :
    markEnd source (sizeUpTo source cs) = some (sizeUpTo source (afterTag cs)) := by
  unfold markEnd
  induction cs with
  | nil => exact behindNext_nil _
  | cons c cs ih =>
    rw [afterTag_cons]
    by_cases hc : c = '>'
    · subst hc
      rw [if_pos rfl]
      exact behindNext_self h
    · rw [if_neg hc, behindNext_later (not_prefix_of_ne hc cs) h]
      exact ih ((List.suffix_cons _ _).trans h)

theorem closingEnd_sizeUpTo {cs : Text} (h : cs <:+ source) :
    closingEnd source (sizeUpTo source cs) = some (sizeUpTo source (afterTag cs)) := by
  rw [← markEnd_sizeUpTo h, closingEnd, units?_sizeUpTo h, markEnd, behindNext, rest?_sizeUpTo h]
  simp only [Option.bind_eq_bind, Option.bind_some, findIdx?_units (show '>'.toNat < 128 by decide)]
  rfl

theorem behindNext_commentEnd {cs : Text} (h : cs <:+ source) :
    behindNext source "-->".toList (sizeUpTo source cs)
      = some (sizeUpTo source (afterComment cs)) := by
  fun_induction afterComment cs with
  | case1 => exact behindNext_nil _
  | case2 cs => exact behindNext_self h
  | case3 c cs hne ih =>
    have hprefix : ¬ "-->".toList <+: c :: cs := by
      rintro ⟨rest, hrest⟩
      obtain ⟨rfl, rfl⟩ := List.cons.inj hrest
      exact hne rest rfl rfl
    rw [behindNext_later hprefix h]
    exact ih ((List.suffix_cons _ _).trans h)

theorem commentEnd_sizeUpTo {rest : Text} (h : '<' :: rest <:+ source)
    (hrest : Text.startsWith rest "!--" = true) :
    commentEnd source (sizeUpTo source ('<' :: rest))
      = some (sizeUpTo source (afterComment (rest.drop 3))) := by
  obtain ⟨cs, rfl⟩ := startsWith_iff.mp hrest
  have hcs : cs <:+ source := (List.suffix_append ['<', '!', '-', '-'] cs).trans h
  have hnext : sizeUpTo source cs = sizeUpTo source ('<' :: (['!', '-', '-'] ++ cs)) + 4 :=
    Text.sizeUpTo_append_right (t := ['<', '!', '-', '-']) h
  rw [commentEnd, ← hnext, behindNext_commentEnd hcs]
  rfl

/-! ## Tags -/

theorem attrValue_sizeUpTo {cs : Text} (h : cs <:+ source) :
    attrValue source (sizeUpTo source cs)
      = some ((attrValue? cs).map fun (value, rest) => (value, sizeUpTo source rest)) := by
  cases cs with
  | nil =>
    rw [attrValue, Text.getElem?_units_eq_none]
    rfl
  | cons c cs =>
    have hcs : cs <:+ source := (List.suffix_cons _ _).trans h
    obtain ⟨u, hu, hclass⟩ := Text.getElem?_units h
    have hdouble : u = '"' ↔ c = '"' := Text.unit_eq_iff hclass (by decide)
    have hsingle : u = '\'' ↔ c = '\'' := Text.unit_eq_iff hclass (by decide)
    rw [attrValue, hu]
    simp only [hdouble, hsingle]
    rw [attrValue?]
    by_cases hquote : c = '"' ∨ c = '\''
    · have hascii : c.toNat < 128 := by rcases hquote with rfl | rfl <;> decide
      obtain rfl : u = c := (Text.unit_eq_iff hclass hascii).mpr rfl
      have hstop := Text.sizeUpTo_dropWhile (· != u) hcs
      have hvalue := between?_takeWhile (· != u) hcs
      rw [if_pos hquote, if_pos hquote, ← Text.sizeUpTo_cons_ascii h hascii, units?_sizeUpTo hcs]
      simp only [Option.bind_eq_bind, Option.bind_some, findIdx?_units hascii, find?_eq]
      cases hdrop : cs.dropWhile (· != u) with
      | nil => rfl
      | cons q rest =>
        have hq : q = u := by
          have hhead := List.head?_dropWhile_not (· != u) cs
          rw [hdrop] at hhead
          simpa using hhead
        have hsuffix : q :: rest <:+ source := (hdrop ▸ List.dropWhile_suffix _).trans hcs
        rw [hdrop] at hstop hvalue
        simp only [← hstop, hvalue, Option.bind_some,
          ← Text.sizeUpTo_cons_ascii hsuffix (hq ▸ hascii)]
        rfl
    · rw [if_neg hquote, if_neg hquote, skip_sizeUpTo asciiClass_isBareValueChar h,
        between?_takeWhile isBareValueChar h]
      rfl

theorem attr_sizeUpTo {cs : Text} (h : cs <:+ source) :
    attr source (sizeUpTo source cs) (sizeUpTo source (cs.dropWhile isAttrNameChar))
      = some ((attribute? cs).map fun (a, rest) => (a, sizeUpTo source rest)) := by
  have hbehind : cs.dropWhile isAttrNameChar <:+ source := (List.dropWhile_suffix _).trans h
  have hskip : skip source Ascii.isBlank (sizeUpTo source (cs.dropWhile isAttrNameChar))
      = sizeUpTo source (skipBlanks (cs.dropWhile isAttrNameChar)) :=
    skip_sizeUpTo asciiClass_isBlank hbehind
  have hblanks := (skipBlanks_suffix (cs.dropWhile isAttrNameChar)).trans hbehind
  have hequals := Text.getElem?_units_eq_some_iff hblanks (show '='.toNat < 128 by decide)
  unfold attr attribute?
  rw [between?_takeWhile isAttrNameChar h]
  simp only [Option.bind_eq_bind, Option.bind_some, hskip, hequals]
  by_cases hhead : (skipBlanks (cs.dropWhile isAttrNameChar)).head? = some '='
  · obtain ⟨rest, hrest⟩ := List.head?_eq_some_iff.mp hhead
    have hsuffix : '=' :: rest <:+ source := hrest ▸ hblanks
    have hvalue : rest <:+ source := (List.suffix_cons _ _).trans hsuffix
    have hskip' : skip source Ascii.isBlank (sizeUpTo source rest)
        = sizeUpTo source (skipBlanks rest) :=
      skip_sizeUpTo asciiClass_isBlank hvalue
    rw [if_pos hhead, hrest, ← Text.sizeUpTo_cons_ascii hsuffix (by decide), hskip',
      attrValue_sizeUpTo ((skipBlanks_suffix rest).trans hvalue)]
    simp only [Option.bind_some, Option.map_map]
    rfl
  · rw [if_neg hhead]
    split
    · next rest hrest => exact absurd (by rw [hrest]; rfl) hhead
    · rfl

/-- One round of the loop over attributes. -/
theorem attributes_of_cons {cs rest : Text} {c : Char} (h : cs <:+ source)
    (hs : skipBlanks cs = c :: rest) (read : List Attribute) :
    attributes source read (sizeUpTo source cs) =
      if c = '>' then some (some (read, false, sizeUpTo source rest))
      else if c = '/' ∧ rest.head? = some '>' then
        some (some (read, true, sizeUpTo source (rest.drop 1)))
      else if isAttrNameChar c then
        match attribute? (c :: rest) with
        | none => some none
        | some (a, next) => attributes source (read ++ [a]) (sizeUpTo source next)
      else attributes source read (sizeUpTo source rest) := by
  have hskip : skip source Ascii.isBlank (sizeUpTo source cs) = sizeUpTo source (c :: rest) := by
    rw [skip_sizeUpTo asciiClass_isBlank h, ← hs]
    rfl
  have hsuffix : c :: rest <:+ source := hs ▸ (skipBlanks_suffix cs).trans h
  have hrest : rest <:+ source := (List.suffix_cons _ _).trans hsuffix
  obtain ⟨u, hu, hclass⟩ := Text.getElem?_units hsuffix
  rw [attributes, Loop.run]
  simp only [attributesRound, hskip, hu, Text.unit_eq_iff hclass (show '>'.toNat < 128 by decide),
    Text.unit_eq_iff hclass (show '/'.toNat < 128 by decide),
    skip_sizeUpTo asciiClass_isAttrNameChar hsuffix, attr_sizeUpTo hsuffix]
  by_cases hgt : c = '>'
  · subst hgt
    rw [if_pos rfl, if_pos rfl, Text.sizeUpTo_cons_ascii hsuffix (by decide)]
    rfl
  rw [if_neg hgt, if_neg hgt]
  have hclose : c = '/' ∧ source.units[sizeUpTo source (c :: rest) + 1]? = some '>' ↔
      c = '/' ∧ rest.head? = some '>' := by
    refine and_congr_right fun hc => ?_
    rw [← Text.sizeUpTo_cons_ascii hsuffix (by rw [hc]; decide)]
    exact Text.getElem?_units_eq_some_iff hrest (by decide)
  by_cases hslash : c = '/' ∧ rest.head? = some '>'
  · rw [if_pos hslash, if_pos (hclose.mpr hslash)]
    obtain ⟨rfl, hhead⟩ := hslash
    obtain ⟨after, rfl⟩ := List.head?_eq_some_iff.mp hhead
    rw [List.drop_one, List.tail_cons, Text.sizeUpTo_cons_ascii hrest (by decide),
      Text.sizeUpTo_cons_ascii hsuffix (by decide)]
    rfl
  rw [if_neg hslash, if_neg (mt hclose.mp hslash)]
  by_cases hc : isAttrNameChar c = true
  · have hmoved : sizeUpTo source ((c :: rest).dropWhile isAttrNameChar)
        ≠ sizeUpTo source (c :: rest) := by
      have hpos := c.utf8Size_pos
      rw [Text.sizeUpTo_dropWhile isAttrNameChar hsuffix, List.takeWhile_cons_of_pos hc,
        Text.size_cons]
      omega
    rw [if_pos hc, if_neg hmoved]
    cases attribute? (c :: rest) <;> rfl
  · rw [if_neg hc, List.dropWhile_cons_of_neg hc, if_pos rfl,
      Text.sizeUpTo_cons_ascii hsuffix (toNat_lt_of_not_isAttrNameChar hc)]
    rfl

theorem attributes_sizeUpTo {cs : Text} (h : cs <:+ source) (read : List Attribute) :
    attributes source read (sizeUpTo source cs)
      = some ((attributes? cs).map fun (attrs, selfClosing, rest) =>
          (read ++ attrs, selfClosing, sizeUpTo source rest)) := by
  fun_induction attributes? cs generalizing read with
  | case1 cs hs =>
    have hskip : skip source Ascii.isBlank (sizeUpTo source cs) = sizeUpTo source [] := by
      rw [skip_sizeUpTo asciiClass_isBlank h, ← hs]
      rfl
    rw [attributes, Loop.run]
    simp only [attributesRound, hskip, Text.getElem?_units_eq_none]
    rfl
  | case2 cs rest hs =>
    rw [attributes_of_cons h hs, if_pos rfl]
    simp
  | case3 cs c rest hs hgt hslash =>
    rw [attributes_of_cons h hs, if_neg hgt, if_pos hslash]
    simp
  | case4 cs c rest hs hgt hslash hc ha =>
    rw [attributes_of_cons h hs, if_neg hgt, if_neg hslash, if_pos hc, ha]
    rfl
  | case5 cs c rest hs hgt hslash hc a rest' ha ih =>
    have hsuffix : rest' <:+ source :=
      ((attribute?_suffix ha).trans (hs ▸ skipBlanks_suffix cs)).trans h
    rw [attributes_of_cons h hs, if_neg hgt, if_neg hslash, if_pos hc, ha]
    simp only [ih hsuffix, Option.map_map]
    congr 2
    funext r
    simp
  | case6 cs c rest hs hgt hslash hc ih =>
    have hsuffix : rest <:+ source :=
      ((List.suffix_cons _ _).trans (hs ▸ skipBlanks_suffix cs)).trans h
    rw [attributes_of_cons h hs, if_neg hgt, if_neg hslash, if_neg hc, ih hsuffix]

theorem openTag_sizeUpTo {rest : Text} (h : '<' :: rest <:+ source) :
    openTag source (sizeUpTo source ('<' :: rest))
      = some ((openTag? rest).map fun (tag, behind) => (tag, sizeUpTo source behind)) := by
  have hrest : rest <:+ source := (List.suffix_cons _ _).trans h
  unfold openTag
  rw [← Text.sizeUpTo_cons_ascii h (by decide)]
  cases rest with
  | nil =>
    rw [Text.getElem?_units_eq_none]
    rfl
  | cons c cs =>
    obtain ⟨u, hu, hclass⟩ := Text.getElem?_units hrest
    have hletter : Ascii.isLetter u = Ascii.isLetter c := hclass _ asciiClass_isLetter
    simp only [hu, hletter, openTag?]
    by_cases hc : Ascii.isLetter c = true
    · have hname := isNameChar_of_isLetter hc
      have hbehind : cs.dropWhile isNameChar <:+ source :=
        (List.dropWhile_suffix _).trans ((List.suffix_cons _ _).trans hrest)
      have hcut := between?_takeWhile isNameChar hrest
      rw [List.dropWhile_cons_of_pos hname, List.takeWhile_cons_of_pos hname] at hcut
      rw [if_pos hc, if_pos hc, skip_sizeUpTo asciiClass_isNameChar hrest,
        List.dropWhile_cons_of_pos hname, hcut, attributes_sizeUpTo hbehind]
      cases attributes? (cs.dropWhile isNameChar) <;> rfl
    · rw [if_neg hc, if_neg hc]
      rfl

end ByOffset

end LocaleStrings.Component

import LocaleStrings.Glob.Matcher
import Mathlib.Data.List.Forall2

/-!
# A matcher is the set of its patterns

Each pattern can be used or not on its own, and then says on its own which paths it matches.

* `Glob.CompilesTo`: a pattern that can be used, with its pieces;
* `Matcher.ofPatterns_eq_ok_iff`: which patterns make which matcher;
* **`Matcher.exists_ofPatterns_iff`**: patterns make a matcher exactly if each of them can be used;
* **`Matcher.isMatch_iff`**: a matcher matches a path exactly if one of its patterns does;
* `Matcher.exists_error_append`, `Matcher.isMatch_append`: the matcher of two lists of patterns, one
  behind the other.
-/

namespace LocaleStrings.Glob

/-- The pattern is tried as an expression, and is nested too deep for that. -/
def TooDeep (pieces : List Piece) : Prop :=
  (Lookup.ofPieces pieces = .extension ∨ Lookup.ofPieces pieces = .expression) ∧
    Expression.tooDeep pieces = true

/-- The pattern can be used and has the given pieces. -/
def CompilesTo (pattern : Text) (pieces : List Piece) : Prop :=
  parse pattern = .ok pieces ∧ ¬ TooDeep pieces

namespace Matcher

theorem parseAll_eq_ok_iff {ps : List Text} {gs : List (List Piece)} :
    parseAll ps = .ok gs ↔ List.Forall₂ (fun p g => parse p = .ok g) ps gs := by
  induction ps generalizing gs with
  | nil =>
    rw [List.forall₂_nil_left_iff, parseAll, Except.ok.injEq]
    exact eq_comm
  | cons p ps ih =>
    rw [parseAll, List.forall₂_cons_left_iff]
    cases hp : parse p with
    | error e => simp
    | ok g =>
      cases hps : parseAll ps with
      | error e => simp [Except.map, ← ih, hps]
      | ok gs' =>
        simp only [Except.map, Except.ok.injEq, ← ih, hps]
        constructor
        · rintro rfl
          exact ⟨g, gs', rfl, rfl, rfl⟩
        · rintro ⟨_, _, rfl, rfl, rfl⟩
          rfl

theorem mem_lookedUp {way : Lookup} {g : List Piece} {gs : List (List Piece)} :
    g ∈ lookedUp way gs ↔ g ∈ gs ∧ Lookup.ofPieces g = way := by
  unfold lookedUp
  rw [List.mem_filter, decide_eq_true_iff]

theorem depthFault?_eq_none_iff {gs : List (List Piece)} :
    depthFault? gs = none ↔ ∀ g ∈ gs, ¬ TooDeep g := by
  unfold depthFault?
  cases hfind : (lookedUp .extension gs).find? Expression.tooDeep with
  | some g =>
    obtain ⟨hg, hway⟩ := mem_lookedUp.mp (List.mem_of_find?_eq_some hfind)
    have hdeep := List.find?_some hfind
    exact iff_of_false nofun fun h => h g hg ⟨.inl hway, hdeep⟩
  | none =>
    rw [List.find?_eq_none] at hfind
    rw [Option.map_eq_none_iff, List.findIdx?_eq_none_iff]
    constructor
    · rintro h g hg ⟨hway | hway, hdeep⟩
      · exact hfind g (mem_lookedUp.mpr ⟨hg, hway⟩) hdeep
      · exact Bool.eq_false_iff.mp (h g (mem_lookedUp.mpr ⟨hg, hway⟩)) hdeep
    · intro h g hg
      obtain ⟨hg, hway⟩ := mem_lookedUp.mp hg
      exact Bool.eq_false_iff.mpr fun hdeep => h g hg ⟨.inr hway, hdeep⟩

theorem forall₂_compilesTo_iff {ps : List Text} {gs : List (List Piece)} :
    List.Forall₂ CompilesTo ps gs ↔
      List.Forall₂ (fun p g => parse p = .ok g) ps gs ∧ ∀ g ∈ gs, ¬ TooDeep g := by
  constructor
  · intro h
    refine ⟨h.imp fun _ _ hpg => hpg.1, ?_⟩
    induction h with
    | nil => exact nofun
    | cons hpg _ ih => exact List.forall_mem_cons.mpr ⟨hpg.2, ih⟩
  · rintro ⟨h, hdeep⟩
    induction h with
    | nil => exact .nil
    | cons hpg _ ih =>
      obtain ⟨hg, hgs⟩ := List.forall_mem_cons.mp hdeep
      exact .cons ⟨hpg, hg⟩ (ih hgs)

/-- Patterns make a matcher one by one. -/
theorem ofPatterns_eq_ok_iff {ps : List Text} {m : Matcher} :
    ofPatterns ps = .ok m ↔ List.Forall₂ CompilesTo ps m.globs := by
  rw [forall₂_compilesTo_iff, ← parseAll_eq_ok_iff, ← depthFault?_eq_none_iff]
  unfold ofPatterns
  cases hparse : parseAll ps with
  | error e => simp [bind, Except.bind]
  | ok gs =>
    obtain ⟨globs⟩ := m
    cases hdepth : depthFault? gs with
    | some e =>
      simp only [bind, Except.bind, hdepth, Except.ok.injEq]
      refine iff_of_false nofun ?_
      rintro ⟨rfl, h⟩
      simp [hdepth] at h
    | none =>
      simp only [bind, Except.bind, hdepth, pure, Except.pure, Except.ok.injEq, mk.injEq]
      exact ⟨fun h => ⟨h, h ▸ hdepth⟩, And.left⟩

/-- **Patterns make a matcher exactly if each of them can be used.** -/
theorem exists_ofPatterns_iff {ps : List Text} :
    (∃ m, ofPatterns ps = .ok m) ↔ ∀ p ∈ ps, ∃ g, CompilesTo p g := by
  calc (∃ m, ofPatterns ps = .ok m)
    _ ↔ ∃ gs, List.Forall₂ CompilesTo ps gs :=
      ⟨fun ⟨m, hm⟩ => ⟨m.globs, ofPatterns_eq_ok_iff.mp hm⟩,
        fun ⟨gs, hgs⟩ => ⟨⟨gs⟩, ofPatterns_eq_ok_iff.mpr hgs⟩⟩
    _ ↔ ∀ p ∈ ps, ∃ g, CompilesTo p g := by
      induction ps with
      | nil => simp
      | cons p ps ih => simp [List.forall₂_cons_left_iff, ← ih]

theorem mem_globs {ps : List Text} {m : Matcher} (h : ofPatterns ps = .ok m) {g : List Piece} :
    g ∈ m.globs ↔ ∃ p ∈ ps, CompilesTo p g := by
  rw [ofPatterns_eq_ok_iff] at h
  generalize m.globs = gs at h
  induction h with
  | nil => simp
  | cons hp _ ih =>
    rw [List.mem_cons, ih, List.exists_mem_cons_iff]
    -- a pattern has no other pieces than those it was read to
    refine or_congr_left ⟨fun hg => hg ▸ hp, fun hg => ?_⟩
    exact Except.ok.inj (hg.1.symm.trans hp.1)

/-- **A matcher matches a path exactly if one of its patterns does.** -/
theorem isMatch_iff {ps : List Text} {m : Matcher} (h : ofPatterns ps = .ok m) {path : Text} :
    m.isMatch path = true ↔ ∃ p ∈ ps, ∃ g, CompilesTo p g ∧ finds g path = true := by
  unfold isMatch
  rw [List.any_eq_true]
  constructor
  · rintro ⟨g, hg, hfinds⟩
    obtain ⟨p, hp, hpg⟩ := (mem_globs h).mp hg
    exact ⟨p, hp, g, hpg, hfinds⟩
  · rintro ⟨p, hp, g, hpg, hfinds⟩
    exact ⟨g, (mem_globs h).mpr ⟨p, hp, hpg⟩, hfinds⟩

/-! ## Lists with the same patterns, and lists one behind the other -/

theorem exists_ofPatterns_congr {ps qs : List Text} (h : ∀ p, p ∈ ps ↔ p ∈ qs) :
    (∃ m, ofPatterns ps = .ok m) ↔ ∃ m, ofPatterns qs = .ok m := by
  simp only [exists_ofPatterns_iff, h]

theorem isMatch_congr {ps qs : List Text} {m n : Matcher} (h : ∀ p, p ∈ ps ↔ p ∈ qs)
    (hm : ofPatterns ps = .ok m) (hn : ofPatterns qs = .ok n) (path : Text) :
    m.isMatch path = n.isMatch path := by
  rw [Bool.eq_iff_iff, isMatch_iff hm, isMatch_iff hn]
  simp only [h]

theorem exists_ofPatterns_append {ps qs : List Text} :
    (∃ m, ofPatterns (ps ++ qs) = .ok m) ↔
      (∃ m, ofPatterns ps = .ok m) ∧ ∃ m, ofPatterns qs = .ok m := by
  simp only [exists_ofPatterns_iff, List.forall_mem_append]

theorem exists_error_iff {ps : List Text} :
    (∃ e, ofPatterns ps = .error e) ↔ ¬ ∃ m, ofPatterns ps = .ok m := by
  cases ofPatterns ps <;> simp

theorem exists_error_append {ps qs : List Text} :
    (∃ e, ofPatterns (ps ++ qs) = .error e) ↔
      (∃ e, ofPatterns ps = .error e) ∨ ∃ e, ofPatterns qs = .error e := by
  simp only [exists_error_iff, exists_ofPatterns_append, not_and_or]

theorem isMatch_append {ps qs : List Text} {m n both : Matcher} (hm : ofPatterns ps = .ok m)
    (hn : ofPatterns qs = .ok n) (hboth : ofPatterns (ps ++ qs) = .ok both) (path : Text) :
    both.isMatch path = (m.isMatch path || n.isMatch path) := by
  rw [Bool.eq_iff_iff, Bool.or_eq_true, isMatch_iff hm, isMatch_iff hn, isMatch_iff hboth]
  simp only [List.mem_append, or_and_right, exists_or]

end Matcher

end LocaleStrings.Glob

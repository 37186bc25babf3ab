import LocaleStrings.Proofs.Tree.Shape

/-!
# What validation says of a tree

* `Node.Sound`: what a node of a well-shaped tree satisfies, said of all its children at once;
* `Node.encloses_of_sound`: in a tree of sound nodes the root encloses every node;
* `Node.validateCounting`: validation in 32-bit arithmetic, which may overflow;
  **`Node.validateCounting_eq`**: it does not;
* **`Node.validate_exact`**: validation accepts exactly the documents of sound nodes, and reports
  the first node that fails otherwise.
-/

namespace LocaleStrings

/-! ## Sound nodes -/

/-- What every node of a well-shaped tree satisfies. -/
structure Node.Sound (n : Node) : Prop where
  span : n.span.start ≤ n.span.stop
  loc : n.loc.start ≤ n.loc.stop
  raw : Text.size n.raw = n.span.stop - n.span.start
  value : n.value.isSome = true ↔ n.type = .str
  leaf : n.type = .str → n.children = []
  enclosed : ∀ c ∈ n.children, n.span.start ≤ c.span.start ∧ c.span.stop ≤ n.span.stop
  ordered : n.children.Pairwise fun a b => a.span.start ≤ b.span.start

theorem NodeType.isText_iff (t : NodeType) : t.isText = true ↔ t = .str := by
  cases t <;> decide

theorem NodeType.isParent_iff (t : NodeType) : t.isParent = true ↔ t ≠ .str := by
  cases t <;> decide

/-- Starts that do not decrease from one child to the next do not decrease at all. -/
theorem isChain_iff_pairwise_start (ns : List Node) :
    (ns.IsChain fun a b => a.span.start ≤ b.span.start) ↔
      ns.Pairwise fun a b => a.span.start ≤ b.span.start := by
  have hstarts := List.isChain_iff_pairwise (R := fun i j : Nat => i ≤ j)
    (l := ns.map fun n => n.span.start)
  rwa [List.isChain_map, List.pairwise_map] at hstarts

theorem Node.fits_iff_sound (n : Node) : n.Fits ↔ n.Sound := by
  have hvalue : n.type.isText = n.value.isSome ↔ (n.value.isSome = true ↔ n.type = .str) := by
    rw [← NodeType.isText_iff, Bool.eq_iff_iff]
    exact ⟨Iff.symm, Iff.symm⟩
  have hleaf : n.type.isParent = true ∨ n.children = [] ↔ (n.type = .str → n.children = []) := by
    rw [NodeType.isParent_iff, ne_eq, ← imp_iff_not_or]
  have henclosed : (∀ c ∈ n.children, n.span.encloses c.span = true) ↔
      ∀ c ∈ n.children, n.span.start ≤ c.span.start ∧ c.span.stop ≤ n.span.stop := by
    simp only [Span.encloses_iff]
  constructor
  · intro h
    exact ⟨h.span, h.loc, h.raw, hvalue.mp h.value, hleaf.mp h.leaf, henclosed.mp h.enclosed,
      (isChain_iff_pairwise_start _).mp h.ordered⟩
  · intro h
    exact ⟨h.span, h.loc, h.raw, hvalue.mpr h.value, hleaf.mpr h.leaf, henclosed.mpr h.enclosed,
      (isChain_iff_pairwise_start _).mpr h.ordered⟩

theorem Node.check_eq_ok_iff_sound (n : Node) : n.check = .ok () ↔ n.Sound :=
  n.check_eq_ok_iff.trans n.fits_iff_sound

/-- **A tree of sound nodes has every node inside its root.** -/
theorem Node.encloses_of_sound {n root : Node} (hn : n.Occurs root)
    (h : ∀ m : Node, m.Occurs root → m.Sound) : root.span.encloses n.span = true := by
  induction hn with
  | root => exact Span.encloses_iff.mpr ⟨Nat.le_refl _, Nat.le_refl _⟩
  | @child c m hc hn ih =>
    obtain ⟨hstart, hstop⟩ := (h m .root).enclosed c hc
    have hinner := Span.encloses_iff.mp (ih fun k hk => h k (.child hc hk))
    exact Span.encloses_iff.mpr ⟨hstart.trans hinner.1, hinner.2.trans hstop⟩

/-! ## Validation with counts of 32 bits -/

/-- The check of a node with the length of its span as a count of 32 bits, which an inverted span
has not. -/
def Node.checkCounting (n : Node) : Except Overflow (Except ShapeError Unit) :=
  match n.checkEnds with
  | .error e => .ok (.error e)
  | .ok () => n.span.len.map n.checkContents

/-- The length is asked for only when the ends are known to be in order. -/
theorem Node.checkCounting_eq (n : Node) : n.checkCounting = .ok n.check := by
  unfold Node.checkCounting
  cases hends : n.checkEnds with
  | error e => rw [Node.check_of_checkEnds_error hends]
  | ok =>
    obtain ⟨hspan, -⟩ := n.checkEnds_eq_ok_iff.mp hends
    rw [Node.check_of_checkEnds hends, Span.len, Word.sub_of_le hspan]
    rfl

/-- What is wrong with a node, or the overflow that its check ends in. -/
def Node.countingFault? (n : Node) : Option (Except Overflow ShapeError) :=
  match n.checkCounting with
  | .error o => some (.error o)
  | .ok (.error e) => some (.ok e)
  | .ok (.ok ()) => none

theorem Node.countingFault?_eq (n : Node) : n.countingFault? = n.fault?.map .ok := by
  unfold Node.countingFault? Node.fault?
  rw [Node.checkCounting_eq]
  cases n.check <;> rfl

/-- Checks a tree with counts of 32 bits. -/
def Node.validateCounting (root : Node) : Except Overflow (Except ShapeError Unit) :=
  match root.validateBy Node.countingFault? .ok with
  | .ok () => .ok (.ok ())
  | .error (.ok e) => .ok (.error e)
  | .error (.error o) => .error o

/-- The walk that looks for faults does not depend on how they are told. -/
theorem walk_faultFinder_map {ε δ : Type} (f : ε → δ) (fault? : Node → Option ε) (root : Node)
    (s : Option ε) :
    (Visitor.faultFinder fun n => (fault? n).map f).walk root (s.map f)
      = Prod.map (Option.map f) id ((Visitor.faultFinder fault?).walk root s) := by
  rw [Visitor.faultFinder, Visitor.faultFinder, Visitor.walk_ofHooks, Visitor.walk_ofHooks]
  refine tellAll_map (Option.map f) (fun event s => ?_) root.events s
  cases event with
  | enter n =>
    simp only [Event.tell]
    cases fault? n <;> rfl
  | exit n => rfl

/-- **Validation never overflows.** -/
theorem Node.validateCounting_eq (root : Node) : root.validateCounting = .ok root.validate := by
  have hfaults : Node.countingFault? = fun n => n.fault?.map .ok := funext Node.countingFault?_eq
  have hwalk := walk_faultFinder_map (.ok : ShapeError → Except Overflow ShapeError) Node.fault?
    root none
  unfold Node.validateCounting Node.validate Node.validateBy
  rw [hfaults]
  split_ifs
  · rw [Option.map_none] at hwalk
    rw [hwalk]
    obtain ⟨fault, flow⟩ := (Visitor.faultFinder Node.fault?).walk root none
    cases fault <;> rfl
  · rfl

/-! ## The verdict -/

theorem Node.validate_eq_ok_iff (root : Node) :
    root.validate = .ok () ↔ root.type = .document ∧ ∀ n : Node, n.Occurs root → n.Sound := by
  have hnodes : root.preorder.findSome? Node.fault? = none ↔
      ∀ n : Node, n.Occurs root → n.Sound := by
    simp only [List.findSome?_eq_none_iff, Node.mem_preorder_iff, Node.fault?_eq_none_iff,
      Node.check_eq_ok_iff_sound]
  rw [← hnodes]
  by_cases htype : root.type = .document
  · rw [Node.validate_of_document htype]
    cases root.preorder.findSome? Node.fault? <;> simp [htype]
  · rw [Node.validate, Node.validateBy, if_neg htype]
    simp [htype]

theorem Node.validate_eq_error_iff {root : Node} (htype : root.type = .document) (e : ShapeError) :
    root.validate = .error e ↔
      ∃ before n after, root.preorder = before ++ n :: after ∧
        (∀ m ∈ before, m.check = .ok ()) ∧ n.check = .error e := by
  have hfirst : root.validate = .error e ↔ root.preorder.findSome? Node.fault? = some e := by
    rw [Node.validate_of_document htype]
    cases root.preorder.findSome? Node.fault? <;> simp
  rw [hfirst, List.findSome?_eq_some_iff]
  simp only [Node.fault?_eq_none_iff, Node.fault?_eq_some_iff, and_comm]

/-- **Validation never overflows, and accepts exactly the documents all of whose nodes are sound**,
at every depth; their root encloses all of them. A document that is refused is refused for the
first node that fails its check, each node being checked before everything below it. -/
theorem Node.validate_exact (root : Node) :
    root.validateCounting = .ok root.validate ∧
    (root.validate = .ok () ↔ root.type = .document ∧ ∀ n : Node, n.Occurs root → n.Sound) ∧
    (root.validate = .ok () → ∀ n : Node, n.Occurs root → root.span.encloses n.span = true) ∧
    (root.type = .document → ∀ e : ShapeError, root.validate = .error e ↔
      ∃ before n after, root.preorder = before ++ n :: after ∧
        (∀ m ∈ before, m.check = .ok ()) ∧ n.check = .error e) := by
  refine ⟨root.validateCounting_eq, root.validate_eq_ok_iff, fun hok n hn => ?_,
    fun htype e => Node.validate_eq_error_iff htype e⟩
  exact Node.encloses_of_sound hn (root.validate_eq_ok_iff.mp hok).2

/-- A string of two bytes at byte `start` of the first line. -/
def shortString (start : Nat) (children : List Node) : Node :=
  .mk .str "ab".toList ⟨start, start + 2⟩ ⟨⟨1, start⟩, ⟨1, start + 2⟩⟩ children (some [])

/-- A document with the given nodes below it. -/
def shortDocument (children : List Node) : Node :=
  .document "ab\nabab".toList ⟨0, 7⟩ ⟨⟨1, 0⟩, ⟨2, 4⟩⟩ children

/-- The first document has a string directly below it. In the second one a string has a child, which
has inverted ends itself, and so has a paragraph behind it. -/
theorem shortDocument_exact :
    (∀ n : Node, n.Occurs (shortDocument [shortString 0 []]) →
      (⟨0, 7⟩ : Span).encloses n.span = true) ∧
    ∃ before n after,
      (shortDocument [shortString 0 [.str [] ⟨1, 0⟩ ⟨⟨1, 1⟩, ⟨1, 0⟩⟩ []],
        .paragraph [] ⟨5, 3⟩ ⟨⟨2, 2⟩, ⟨2, 0⟩⟩ []]).preorder = before ++ n :: after ∧
      (∀ m ∈ before, m.check = .ok ()) ∧ n.check = .error (.unexpectedChildren .str) := by
  obtain ⟨-, -, hinside, -⟩ := Node.validate_exact (shortDocument [shortString 0 []])
  obtain ⟨-, -, -, hfirst⟩ := Node.validate_exact
    (shortDocument [shortString 0 [.str [] ⟨1, 0⟩ ⟨⟨1, 1⟩, ⟨1, 0⟩⟩ []],
      .paragraph [] ⟨5, 3⟩ ⟨⟨2, 2⟩, ⟨2, 0⟩⟩ []])
  exact ⟨hinside (by decide +kernel), (hfirst rfl _).mp (by decide +kernel)⟩

end LocaleStrings

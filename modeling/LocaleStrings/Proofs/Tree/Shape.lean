import LocaleStrings.Proofs.Tree.Walk
import LocaleStrings.Tree.Shape
import Mathlib.Data.List.Chain

/-!
# Well-shaped trees

* `Node.Occurs`: a node at any depth of a tree;
* `Node.Fits`: what is checked of one node, and `Node.check_eq_ok_iff`: it is checked;
* `Node.preorder`: the nodes of a tree in the order in which they are checked;
* `walk_shapeChecker`: one step of the walk, below a node that passes;
* **`walk_eq_stoppedBy`**: the whole walk stops at the first node that fails;
* **`Node.validate_of_fits`**: a document all of whose nodes fit is well-shaped.
-/

namespace LocaleStrings

/-- `n.Occurs m`: the node `n` occurs in the tree `m`, at any depth. -/
inductive Node.Occurs (n : Node) : Node → Prop
  | root : Occurs n n
  | child {c m : Node} (hc : c ∈ m.children) (h : n.Occurs c) : Occurs n m

/-! ## One node -/

theorem Span.encloses_iff {outer inner : Span} :
    outer.encloses inner = true ↔ outer.start ≤ inner.start ∧ inner.stop ≤ outer.stop := by
  simp [Span.encloses]

theorem checkChildren_eq_ok_iff {parent : Span} (previous : Option Span) (spans : List Span) :
    checkChildren parent previous spans = .ok () ↔
      (∀ s ∈ spans, parent.encloses s = true) ∧
      (previous.toList ++ spans).IsChain fun a b => a.start ≤ b.start := by
  induction spans generalizing previous with
  | nil => cases previous <;> simp [checkChildren]
  | cons s spans ih =>
    rw [checkChildren.eq_def]
    by_cases hs : parent.encloses s = true
    · cases previous with
      | none => simp [ih, hs]
      | some p =>
        by_cases hp : s.start < p.start
        · simp [hs, hp]
        · simp [hs, hp, ih, Nat.le_of_not_lt hp]
    · simp [hs]

/-- What is checked of a node. -/
structure Node.Fits (n : Node) : Prop where
  span : n.span.start ≤ n.span.stop
  loc : n.loc.start ≤ n.loc.stop
  raw : Text.size n.raw = n.span.stop - n.span.start
  value : n.type.isText = n.value.isSome
  leaf : n.type.isParent = true ∨ n.children = []
  enclosed : ∀ c ∈ n.children, n.span.encloses c.span = true
  ordered : n.children.IsChain fun a b => a.span.start ≤ b.span.start

theorem Node.checkEnds_eq_ok_iff (n : Node) :
    n.checkEnds = .ok () ↔ n.span.start ≤ n.span.stop ∧ n.loc.start ≤ n.loc.stop := by
  unfold Node.checkEnds
  by_cases hspan : n.span.stop < n.span.start
  · simp [hspan, Nat.not_le.mpr hspan]
  · by_cases hloc : n.loc.start ≤ n.loc.stop <;> simp [hspan, hloc, Nat.le_of_not_lt hspan]

theorem Node.check_of_checkEnds {n : Node} (h : n.checkEnds = .ok ()) :
    n.check = n.checkContents (n.span.stop - n.span.start) := by
  rw [Node.check, h]
  rfl

theorem Node.check_of_checkEnds_error {n : Node} {e : ShapeError} (h : n.checkEnds = .error e) :
    n.check = .error e := by
  rw [Node.check, h]
  rfl

theorem Node.check_eq_ok_iff (n : Node) : n.check = .ok () ↔ n.Fits := by
  have hchildren : checkChildren n.span none (n.children.map Node.span) = .ok () ↔
      (∀ c ∈ n.children, n.span.encloses c.span = true) ∧
      n.children.IsChain fun a b => a.span.start ≤ b.span.start := by
    rw [checkChildren_eq_ok_iff]
    simp [List.isChain_map]
  have hleaf : (!n.type.isParent && n.hasChildren) = true ↔
      ¬ (n.type.isParent = true ∨ n.children = []) := by
    simp [Node.hasChildren]
  constructor
  · intro h
    cases hends : n.checkEnds with
    | error e =>
      rw [Node.check_of_checkEnds_error hends] at h
      cases h
    | ok =>
      obtain ⟨hspan, hloc⟩ := n.checkEnds_eq_ok_iff.mp hends
      rw [Node.check_of_checkEnds hends, Node.checkContents] at h
      split_ifs at h with h₃ h₄ h₅
      obtain ⟨henclosed, hordered⟩ := hchildren.mp h
      exact {
        span := hspan
        loc := hloc
        raw := Decidable.of_not_not h₃
        value := Decidable.of_not_not h₄
        leaf := Decidable.of_not_not fun hne => h₅ (hleaf.mpr hne)
        enclosed := henclosed
        ordered := hordered }
  · intro h
    rw [Node.check_of_checkEnds (n.checkEnds_eq_ok_iff.mpr ⟨h.span, h.loc⟩), Node.checkContents,
      if_neg (not_not.mpr h.raw), if_neg (not_not.mpr h.value),
      if_neg fun hne => hleaf.mp hne h.leaf]
    exact hchildren.mpr ⟨h.enclosed, h.ordered⟩

theorem Node.fault?_eq_none_iff (n : Node) : n.fault? = none ↔ n.check = .ok () := by
  unfold Node.fault?
  split <;> simp_all

theorem Node.fault?_eq_some_iff {n : Node} {e : ShapeError} :
    n.fault? = some e ↔ n.check = .error e := by
  unfold Node.fault?
  split <;> simp_all

/-! ## The nodes of a tree -/

/-- The nodes of a tree, each before everything below it. -/
def Node.preorder (root : Node) : List Node := (root.lineages []).map Prod.snd

mutual

theorem map_snd_lineages : (n : Node) → (above : List Node) →
    (n.lineages above).map Prod.snd = n.preorder
  | .mk type raw span loc children value, above => by
    rw [Node.preorder, Node.lineages, Node.lineages, List.map_cons, List.map_cons,
      map_snd_lineagesOfNodes children, map_snd_lineagesOfNodes children]

theorem map_snd_lineagesOfNodes : (ns : List Node) → (above : List Node) →
    (lineagesOfNodes above ns).map Prod.snd = ns.flatMap Node.preorder
  | [], above => by
    rw [lineagesOfNodes]
    rfl
  | n :: ns, above => by
    rw [lineagesOfNodes, List.map_append, map_snd_lineages n, map_snd_lineagesOfNodes ns,
      List.flatMap_cons]

end

theorem Node.preorder_eq (n : Node) : n.preorder = n :: n.children.flatMap Node.preorder := by
  obtain ⟨type, raw, span, loc, children, value⟩ := n
  rw [Node.preorder, Node.lineages, List.map_cons, map_snd_lineagesOfNodes]
  rfl

mutual

theorem occurs_of_mem_preorder {n : Node} : (root : Node) → n ∈ root.preorder → n.Occurs root
  | .mk type raw span loc children value, h => by
    rw [Node.preorder_eq] at h
    rcases List.mem_cons.mp h with rfl | h
    · exact .root
    · obtain ⟨c, hc, hn⟩ := exists_occurs_of_mem_flatMap children h
      exact .child hc hn

theorem exists_occurs_of_mem_flatMap {n : Node} : (ns : List Node) →
    n ∈ ns.flatMap Node.preorder → ∃ c ∈ ns, n.Occurs c
  | [], h => by cases h
  | c :: ns, h => by
    rw [List.flatMap_cons] at h
    rcases List.mem_append.mp h with h | h
    · exact ⟨c, List.mem_cons_self, occurs_of_mem_preorder c h⟩
    · obtain ⟨d, hd, hn⟩ := exists_occurs_of_mem_flatMap ns h
      exact ⟨d, List.mem_cons_of_mem _ hd, hn⟩

end

/-- The list of the nodes of a tree is complete. -/
theorem Node.mem_preorder_iff {n root : Node} : n ∈ root.preorder ↔ n.Occurs root := by
  refine ⟨occurs_of_mem_preorder root, fun h => ?_⟩
  induction h with
  | root =>
    rw [Node.preorder_eq]
    exact List.mem_cons_self
  | child hc _ ih =>
    rw [Node.preorder_eq]
    exact List.mem_cons_of_mem _ (List.mem_flatMap.mpr ⟨_, hc, ih⟩)

/-! ## The walk of the checker -/

/-- The visitor that looks for nodes that fail their check. -/
def shapeChecker : Visitor (Option ShapeError) := .faultFinder Node.fault?

theorem walk_shapeChecker_of_error {n : Node} {e : ShapeError} (h : n.check = .error e)
    (s : Option ShapeError) : shapeChecker.walk n s = (some e, .stop) := by
  rw [shapeChecker, Visitor.faultFinder, Visitor.walk_ofHooks_eq, Node.fault?_eq_some_iff.mpr h]
  rfl

/-- The walk enters a node that passes its check, and looks at its children unless it is a
string. -/
theorem walk_shapeChecker {n : Node} (h : n.check = .ok ()) (s : Option ShapeError) :
    shapeChecker.walk n s =
      if n.type.isText then (s, .go) else shapeChecker.walkAll n.children s := by
  rw [shapeChecker, Visitor.faultFinder, Visitor.walk_ofHooks_eq, n.fault?_eq_none_iff.mpr h]
  exact andThen_done _

/-- A walk that looks for a fault stops if it finds one. -/
def stoppedBy (fault : Option ShapeError) : Option ShapeError × Flow :=
  (fault, if fault.isSome then .stop else .go)

mutual

/-- **The walk finds the first fault among the nodes, those below strings included.** It does not
look below strings, but a string with something below it is itself at fault. -/
theorem walk_eq_stoppedBy : (n : Node) →
    shapeChecker.walk n none = stoppedBy (n.preorder.findSome? Node.fault?)
  | .mk type raw span loc children value => by
    have hall := walkAll_eq_stoppedBy children
    rw [Node.preorder_eq, List.findSome?_cons]
    match hcheck : (Node.mk type raw span loc children value).check with
    | .error e =>
      rw [walk_shapeChecker_of_error hcheck, Node.fault?_eq_some_iff.mpr hcheck]
      rfl
    | .ok () =>
      have hleaf := ((Node.check_eq_ok_iff _).mp hcheck).leaf
      rw [walk_shapeChecker hcheck, (Node.fault?_eq_none_iff _).mpr hcheck]
      split_ifs with htext
      · obtain rfl : children = [] := by
          refine hleaf.resolve_left fun hparent => ?_
          cases type <;> cases htext
          cases hparent
        rfl
      · exact hall

theorem walkAll_eq_stoppedBy : (ns : List Node) →
    shapeChecker.walkAll ns none = stoppedBy ((ns.flatMap Node.preorder).findSome? Node.fault?)
  | [] => by
    rw [Visitor.walkAll]
    rfl
  | n :: ns => by
    rw [Visitor.walkAll_cons, walk_eq_stoppedBy n, List.flatMap_cons, List.findSome?_append]
    cases n.preorder.findSome? Node.fault? with
    | some e => rfl
    | none => exact walkAll_eq_stoppedBy ns

end

/-- **Checking a document gives the first fault among its nodes.** -/
theorem Node.validate_of_document {root : Node} (htype : root.type = .document) :
    root.validate =
      match root.preorder.findSome? Node.fault? with
      | some e => .error e
      | none => .ok () := by
  rw [Node.validate, Node.validateBy, if_pos htype, ← shapeChecker, walk_eq_stoppedBy]
  cases root.preorder.findSome? Node.fault? <;> rfl

/-- **A document all of whose nodes fit is well-shaped.** -/
theorem Node.validate_of_fits {root : Node} (htype : root.type = .document)
    (h : ∀ n : Node, n.Occurs root → n.Fits) : root.validate = .ok () := by
  have hnone : root.preorder.findSome? Node.fault? = none := by
    refine List.findSome?_eq_none_iff.mpr fun n hn => ?_
    rw [Node.fault?_eq_none_iff, Node.check_eq_ok_iff]
    exact h n (Node.mem_preorder_iff.mp hn)
  rw [Node.validate_of_document htype, hnone]

end LocaleStrings

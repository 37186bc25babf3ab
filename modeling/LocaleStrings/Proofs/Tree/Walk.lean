import LocaleStrings.Tree.Walk
import Mathlib.Data.List.Infix
import Mathlib.Tactic.SplitIfs

/-!
# Walks as runs over lists

A walk goes up and down a tree and hands a stop through every level of it. What a visitor sees of
it is a list, told from left to right up to the first item that stops.

* `andThen`: what comes behind a step, unless the step stops;
* `tellAll`: tells the items of a list, and nothing behind the first one that stops;
  `tellAll_eq_stop_iff` says where that is;
* `Event`, `Node.events`: entering and leaving the nodes of a tree;
* `Node.lineages`, `Node.reached`: the nodes of a tree from the root down with their ancestors, and
  those of them that have no ancestor of a pruned type;
* **`Visitor.walk_ofHooks`**, **`Visitor.walk_ofNotes`**: the walks of visitors that are told of
  entering and leaving, and of those that note nodes and prune;
* **`Visitor.walk_told`**: both, with the item at which a walk stops.
-/

namespace LocaleStrings

/-! ## Steps that may stop -/

section Steps

variable {α σ τ : Type}

/-- Goes on with `next` behind a step, unless the step stops. -/
def andThen (r : σ × Flow) (next : σ → σ × Flow) : σ × Flow :=
  match r with
  | (s, .stop) => (s, .stop)
  | (s, .go) => next s

@[simp] theorem andThen_stop (s : σ) (next : σ → σ × Flow) :
    andThen (s, .stop) next = (s, .stop) := rfl

@[simp] theorem andThen_go (s : σ) (next : σ → σ × Flow) : andThen (s, .go) next = next s := rfl

theorem andThen_assoc (r : σ × Flow) (next last : σ → σ × Flow) :
    andThen (andThen r next) last = andThen r fun s => andThen (next s) last := by
  obtain ⟨s, flow⟩ := r
  cases flow <;> rfl

theorem andThen_done (r : σ × Flow) : (andThen r fun s => (s, .go)) = r := by
  obtain ⟨s, flow⟩ := r
  cases flow <;> rfl

/-- A step stops at its first half, or goes on and stops at its second. -/
theorem andThen_eq_stop_iff {r : σ × Flow} {next : σ → σ × Flow} {t : σ} :
    andThen r next = (t, .stop) ↔ r = (t, .stop) ∨ ∃ u, r = (u, .go) ∧ next u = (t, .stop) := by
  obtain ⟨s, flow⟩ := r
  cases flow <;> simp

/-! ## Runs over lists -/

variable {tell : α → σ → σ × Flow}

/-- Tells items from left to right. An item that stops is the last one told. -/
def tellAll (tell : α → σ → σ × Flow) : List α → σ → σ × Flow
  | [], s => (s, .go)
  | a :: as, s => andThen (tell a s) (tellAll tell as)

theorem tellAll_append (as bs : List α) (s : σ) :
    tellAll tell (as ++ bs) s = andThen (tellAll tell as s) (tellAll tell bs) := by
  induction as generalizing s with
  | nil => rfl
  | cons a as ih =>
    rw [List.cons_append, tellAll, tellAll, andThen_assoc]
    congr 1
    funext t
    exact ih t

theorem tellAll_singleton (a : α) (s : σ) : tellAll tell [a] s = tell a s := andThen_done _

/-- **A run stops exactly if one of its items does**, and with the state right behind the first
such item. -/
theorem tellAll_eq_stop_iff {as : List α} {s t : σ} :
    tellAll tell as s = (t, .stop) ↔
      ∃ before a after u, as = before ++ a :: after ∧ tellAll tell before s = (u, .go) ∧
        tell a u = (t, .stop) := by
  constructor
  · intro h
    induction as generalizing s with
    | nil => cases h
    | cons a as ih =>
      rcases andThen_eq_stop_iff.mp h with ha | ⟨u, ha, has⟩
      · exact ⟨[], a, as, s, rfl, rfl, ha⟩
      · obtain ⟨before, b, after, w, rfl, hbefore, hb⟩ := ih has
        refine ⟨a :: before, b, after, w, rfl, ?_, hb⟩
        rw [tellAll, ha]
        exact hbefore
  · rintro ⟨before, a, after, u, rfl, hbefore, ha⟩
    rw [tellAll_append, hbefore, andThen_go, tellAll, ha, andThen_stop]

/-- Runs that take corresponding steps end in corresponding states. -/
theorem tellAll_map {tell' : α → τ → τ × Flow} (f : σ → τ)
    (h : ∀ a s, tell' a (f s) = Prod.map f id (tell a s)) (as : List α) (s : σ) :
    tellAll tell' as (f s) = Prod.map f id (tellAll tell as s) := by
  induction as generalizing s with
  | nil => rfl
  | cons a as ih =>
    rw [tellAll, tellAll, h]
    obtain ⟨t, flow⟩ := tell a s
    cases flow with
    | stop => rfl
    | go => exact ih t

end Steps

/-! ## Entering and leaving -/

/-- What happens to a node on a walk. -/
inductive Event where
  | enter (n : Node)
  | exit (n : Node)

/-- Tells an event to the hook it belongs to. -/
def Event.tell {σ : Type} (enter exit : Node → σ → σ × Flow) : Event → σ → σ × Flow
  | .enter n => enter n
  | .exit n => exit n

mutual

/-- The events of a tree: a node is entered before everything below it and left behind it. Nothing
below a string is entered. -/
def Node.events : Node → List Event
  | .mk type raw span loc children value =>
    let n : Node := .mk type raw span loc children value
    .enter n :: ((if type.isText then [] else eventsOfNodes children) ++ [.exit n])

/-- The events of trees, one behind the other. -/
def eventsOfNodes : List Node → List Event
  | [] => []
  | n :: ns => n.events ++ eventsOfNodes ns

end

/-! ## Ancestors -/

mutual

/-- The nodes of a tree, each before everything below it, with its ancestors from the nearest up.
The tree stands below the nodes `above`. -/
def Node.lineages (above : List Node) : Node → List (List Node × Node)
  | .mk type raw span loc children value =>
    let n : Node := .mk type raw span loc children value
    (above, n) :: lineagesOfNodes (n :: above) children

/-- The same for trees, one behind the other. -/
def lineagesOfNodes (above : List Node) : List Node → List (List Node × Node)
  | [] => []
  | n :: ns => n.lineages above ++ lineagesOfNodes above ns

end

section Pruning

variable (pruned : NodeType → Bool)

/-- Whether none of the nodes is of a pruned type. -/
def noPruned (above : List Node) : Bool := above.all fun a => !pruned a.type

/-- The nodes none of whose ancestors is of a pruned type. -/
def withoutPruned (ls : List (List Node × Node)) : List Node :=
  (ls.filter fun l => noPruned pruned l.1).map Prod.snd

/-- The nodes of a tree from the root down, without those that have a proper ancestor of a pruned
type. -/
def Node.reached (root : Node) : List Node := withoutPruned pruned (root.lineages [])

theorem withoutPruned_cons {above : List Node} (h : noPruned pruned above = true) (n : Node)
    (ls : List (List Node × Node)) :
    withoutPruned pruned ((above, n) :: ls) = n :: withoutPruned pruned ls := by
  simp only [withoutPruned, List.filter_cons, h, if_true, List.map_cons]

theorem withoutPruned_append (ls ms : List (List Node × Node)) :
    withoutPruned pruned (ls ++ ms) = withoutPruned pruned ls ++ withoutPruned pruned ms := by
  rw [withoutPruned, List.filter_append, List.map_append]
  rfl

end Pruning

mutual

theorem above_suffix_of_mem_lineages (above : List Node) : (n : Node) →
    ∀ l ∈ n.lineages above, above <:+ l.1
  | .mk type raw span loc children value, l, hl => by
    rw [Node.lineages] at hl
    rcases List.mem_cons.mp hl with rfl | hl
    · exact List.suffix_rfl
    · exact (List.suffix_cons _ _).trans (above_suffix_of_mem_lineagesOfNodes _ children l hl)

theorem above_suffix_of_mem_lineagesOfNodes (above : List Node) : (ns : List Node) →
    ∀ l ∈ lineagesOfNodes above ns, above <:+ l.1
  | [], l, hl => by
    rw [lineagesOfNodes] at hl
    cases hl
  | n :: ns, l, hl => by
    rw [lineagesOfNodes] at hl
    rcases List.mem_append.mp hl with hl | hl
    · exact above_suffix_of_mem_lineages above n l hl
    · exact above_suffix_of_mem_lineagesOfNodes above ns l hl

end

/-- Every node below a pruned one has it among its ancestors. -/
theorem withoutPruned_below_eq_nil (pruned : NodeType → Bool) {n : Node}
    (hn : pruned n.type = true) {above children : List Node} :
    withoutPruned pruned (lineagesOfNodes (n :: above) children) = [] := by
  refine List.map_eq_nil_iff.mpr (List.filter_eq_nil_iff.mpr fun l hl hall => ?_)
  have hmem := (above_suffix_of_mem_lineagesOfNodes _ children l hl).mem List.mem_cons_self
  have hnot := List.all_eq_true.mp hall n hmem
  rw [hn] at hnot
  cases hnot

namespace Visitor

variable {σ : Type}

theorem walkAll_cons (v : Visitor σ) (n : Node) (ns : List Node) (s : σ) :
    v.walkAll (n :: ns) s = andThen (v.walk n s) (v.walkAll ns) := by
  rw [walkAll]
  rfl

/-- One step of a walk. -/
theorem walk_eq (v : Visitor σ) (n : Node) (s : σ) :
    v.walk n s =
      andThen (v.enter n s) fun s =>
        match v.visit n s with
        | (s, .stop) => (s, .stop)
        | (s, .skip) => v.exit n s
        | (s, .descend) => andThen (v.walkAll n.children s) (v.exit n) := by
  obtain ⟨type, raw, span, loc, children, value⟩ := n
  rw [walk]
  rfl

/-! ## Visitors with hooks -/

section Hooks

variable (enter exit : Node → σ → σ × Flow)

/-- One step of the walk: the node is entered, then come its children unless it is a string, then
it is left. -/
theorem walk_ofHooks_eq (n : Node) (s : σ) :
    (ofHooks enter exit).walk n s =
      andThen (enter n s) fun s =>
        andThen (if n.type.isText then (s, .go) else (ofHooks enter exit).walkAll n.children s)
          (exit n) := by
  rw [walk_eq]
  congr 1
  funext t
  by_cases htext : n.type.isText = true
  · simp only [ofHooks, defaultChoice, if_pos htext]
    rfl
  · simp only [ofHooks, defaultChoice, if_neg htext]

mutual

/-- **The walk of a visitor with hooks is the run over the events of the tree.** -/
theorem walk_ofHooks : (n : Node) → (s : σ) →
    (ofHooks enter exit).walk n s = tellAll (Event.tell enter exit) n.events s
  | .mk type raw span loc children value, s => by
    rw [walk_ofHooks_eq, Node.events, tellAll]
    congr 1
    funext t
    rw [tellAll_append]
    congr 1
    · show (if type.isText then (t, .go) else (ofHooks enter exit).walkAll children t) = _
      split_ifs
      · rfl
      · exact walkAll_ofHooks children t
    · funext u
      exact (tellAll_singleton _ u).symm

theorem walkAll_ofHooks : (ns : List Node) → (s : σ) →
    (ofHooks enter exit).walkAll ns s = tellAll (Event.tell enter exit) (eventsOfNodes ns) s
  | [], s => by rw [walkAll, eventsOfNodes, tellAll]
  | n :: ns, s => by
    rw [walkAll_cons, eventsOfNodes, tellAll_append, walk_ofHooks n s]
    congr 1
    funext t
    exact walkAll_ofHooks ns t

end

end Hooks

/-! ## Visitors that note and prune -/

section Notes

variable (note : Node → σ → σ × Flow) (pruned : NodeType → Bool)

/-- One step of the walk: the node is noted, then come its children unless it is pruned. -/
theorem walk_ofNotes_eq (n : Node) (s : σ) :
    (ofNotes note pruned).walk n s =
      andThen (note n s) fun s =>
        if pruned n.type then (s, .go) else (ofNotes note pruned).walkAll n.children s := by
  rw [walk_eq]
  simp only [ofNotes, ofVisits, andThen_go]
  match note n s with
  | (t, .stop) => rfl
  | (t, .go) =>
    by_cases hpruned : pruned n.type = true
    · simp only [andThen_go, if_pos hpruned]
    · simp only [andThen_go, if_neg hpruned, andThen_done]

mutual

/-- Below nodes that are not pruned, the walk is the run over the nodes without a pruned
ancestor. -/
theorem walk_ofNotes_below : (n : Node) → (above : List Node) → (s : σ) →
    noPruned pruned above = true →
    (ofNotes note pruned).walk n s = tellAll note (withoutPruned pruned (n.lineages above)) s
  | .mk type raw span loc children value, above, s, habove => by
    rw [walk_ofNotes_eq, Node.lineages, withoutPruned_cons pruned habove, tellAll]
    congr 1
    funext t
    split_ifs with hpruned
    · rw [withoutPruned_below_eq_nil pruned hpruned]
      rfl
    · refine walkAll_ofNotes_below children _ t ?_
      rw [noPruned, List.all_cons, Bool.eq_false_iff.mpr hpruned]
      exact habove

theorem walkAll_ofNotes_below : (ns : List Node) → (above : List Node) → (s : σ) →
    noPruned pruned above = true →
    (ofNotes note pruned).walkAll ns s
      = tellAll note (withoutPruned pruned (lineagesOfNodes above ns)) s
  | [], above, s, _ => by
    rw [walkAll, lineagesOfNodes]
    rfl
  | n :: ns, above, s, habove => by
    rw [walkAll_cons, lineagesOfNodes, withoutPruned_append, tellAll_append,
      walk_ofNotes_below n above s habove]
    congr 1
    funext t
    exact walkAll_ofNotes_below ns above t habove

end

/-- **The walk of a visitor that notes and prunes is the run over the nodes that have no pruned
ancestor**, those below strings included. -/
theorem walk_ofNotes (root : Node) (s : σ) :
    (ofNotes note pruned).walk root s = tellAll note (root.reached pruned) s :=
  walk_ofNotes_below note pruned root [] s rfl

end Notes

/-- **A walk is a run over a list, stopped right behind the first item that stops.** For a visitor
with hooks the items are the events of the tree; for one that notes and prunes they are the nodes
without a pruned ancestor. -/
theorem walk_told (root : Node) (s t : σ) :
    (∀ enter exit : Node → σ → σ × Flow,
      (ofHooks enter exit).walk root s = tellAll (Event.tell enter exit) root.events s ∧
      ((ofHooks enter exit).walk root s = (t, .stop) ↔
        ∃ before e after u, root.events = before ++ e :: after ∧
          tellAll (Event.tell enter exit) before s = (u, .go) ∧
          Event.tell enter exit e u = (t, .stop))) ∧
    (∀ (note : Node → σ → σ × Flow) (pruned : NodeType → Bool),
      (ofNotes note pruned).walk root s = tellAll note (root.reached pruned) s ∧
      ((ofNotes note pruned).walk root s = (t, .stop) ↔
        ∃ before n after u, root.reached pruned = before ++ n :: after ∧
          tellAll note before s = (u, .go) ∧ note n u = (t, .stop))) := by
  constructor
  · intro enter exit
    refine ⟨walk_ofHooks enter exit root s, ?_⟩
    rw [walk_ofHooks]
    exact tellAll_eq_stop_iff
  · intro note pruned
    refine ⟨walk_ofNotes note pruned root s, ?_⟩
    rw [walk_ofNotes]
    exact tellAll_eq_stop_iff

end Visitor

end LocaleStrings

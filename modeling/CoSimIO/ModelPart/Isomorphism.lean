import CoSimIO.ModelPart.Invariant
import CoSimIO.ModelPart.Serialization

/-! # Model parts that differ in the places of their objects only -/

namespace CoSimIO.ModelPart

open Sequences

set_option autoImplicit false

/-- Where the objects of a state are in another one. -/
structure Renaming where
  node : Nat → Nat
  element : Nat → Nat

/-- The same sequence, and an access map that finds every id. -/
structure Renamed (place : Nat → Nat) (idOf : Nat → Int64) (v w : IndexedVector) : Prop where
  data : w.data = v.data.map place
  indexes : Indexes idOf w.data w.accessMap

section Same

variable (r : Renaming) (nodeId elementId : Nat → Int64)

mutual

/-- The iteration order of the partition parts is not part of the shape. -/
def Same : ModelPart → ModelPart → Prop
  | ⟨name, nodes, elements, localPart, ghostPart, partitions⟩, other =>
    other.name = name ∧ Renamed r.node nodeId nodes other.nodes ∧
      Renamed r.element elementId elements other.elements ∧
      SameOwned localPart other.localModelPart ∧ SameOwned ghostPart other.ghostModelPart ∧
      ∃ entries, other.partitionModelParts.Perm entries ∧ SameEntries partitions entries

def SameOwned : Option (Nat × ModelPart) → Option (Nat × ModelPart) → Prop
  | none, other => other = none
  | some (_, part), other => ∃ owner part', other = some (owner, part') ∧ Same part part'

def SameEntries :
    List (Int32 × Nat × ModelPart) → List (Int32 × Nat × ModelPart) → Prop
  | [], others => others = []
  | (partitionIndex, _, part) :: entries, others => ∃ owner part' others',
    others = (partitionIndex, owner, part') :: others' ∧ Same part part' ∧
      SameEntries entries others'

end

end Same

/-- The objects are the same, none is there twice, and the parts point to them alike. -/
structure Isomorphism (r : Renaming) (s s' : State) : Prop where
  nodesInjective : ∀ ref ∈ s.part.nodes.data, ∀ ref' ∈ s.part.nodes.data,
    r.node ref = r.node ref' → ref = ref'
  elementsInjective : ∀ ref ∈ s.part.elements.data, ∀ ref' ∈ s.part.elements.data,
    r.element ref = r.element ref' → ref = ref'
  nodes : ∀ ref ∈ s.part.nodes.data, s'.heap.nodes (r.node ref) = s.heap.nodes ref
  elements : ∀ ref ∈ s.part.elements.data, s'.heap.elements (r.element ref) =
    { s.heap.elements ref with nodes := (s.heap.elements ref).nodes.map r.node }
  part : Same r s'.heap.nodeId s'.heap.elementId s.part s'.part

def Isomorphic (s s' : State) : Prop := ∃ r, Isomorphism r s s'

end CoSimIO.ModelPart

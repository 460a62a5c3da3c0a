import CoSimIO.ModelPart.Consistency
import CoSimIO.ModelPart.PartitionMap
import Mathlib.Data.Set.Function

/-! # Two results of one stream -/

namespace CoSimIO.ModelPart

open Sequences

set_option autoImplicit false

section Follows

variable {r₁ r₂ r : Renaming} {nodeId₁ elementId₁ nodeId₂ elementId₂ : Nat → Int64}

/-- From the first place of an object to the second -/
structure Follows (r₁ r₂ r : Renaming) (parts : List ModelPart) : Prop where
  nodes : ∀ part ∈ parts, ∀ ref ∈ part.nodes.data, r.node (r₁.node ref) = r₂.node ref
  elements : ∀ part ∈ parts, ∀ ref ∈ part.elements.data,
    r.element (r₁.element ref) = r₂.element ref

theorem Follows.mono {parts parts' : List ModelPart} (h : Follows r₁ r₂ r parts)
    (hSubset : parts' ⊆ parts) : Follows r₁ r₂ r parts' where
  nodes part hPart := h.nodes part (hSubset hPart)
  elements part hPart := h.elements part (hSubset hPart)

theorem Renamed.follow {place₁ place₂ place : Nat → Nat} {idOf₁ idOf₂ : Nat → Int64}
    {v v₁ v₂ : IndexedVector} (h₁ : Renamed place₁ idOf₁ v v₁) (h₂ : Renamed place₂ idOf₂ v v₂)
    (hPlaces : ∀ ref ∈ v.data, place (place₁ ref) = place₂ ref) : Renamed place idOf₂ v₁ v₂ where
  data := by
    rw [h₁.data, h₂.data, List.map_map]
    exact List.map_congr_left fun ref hRef => (hPlaces ref hRef).symm
  indexes := h₂.indexes

mutual

theorem same_follow : ∀ {part part₁ part₂ : ModelPart}, Follows r₁ r₂ r part.parts →
    Same r₁ nodeId₁ elementId₁ part part₁ → Same r₂ nodeId₂ elementId₂ part part₂ →
    Same r nodeId₂ elementId₂ part₁ part₂
  | ⟨name, nodes, elements, localPart, ghostPart, partitions⟩, part₁, part₂, hFollows, h₁, h₂ => by
    obtain ⟨hName₁, hNodes₁, hElements₁, hLocal₁, hGhost₁, entries₁, hPerm₁, hEntries₁⟩ := h₁
    obtain ⟨hName₂, hNodes₂, hElements₂, hLocal₂, hGhost₂, entries₂, hPerm₂, hEntries₂⟩ := h₂
    rw [parts] at hFollows
    have hHead : (⟨name, nodes, elements, localPart, ghostPart, partitions⟩ : ModelPart) ∈
        _ :: (partsOf localPart ++ partsOf ghostPart ++ partsOfPartitions partitions) :=
      List.mem_cons_self
    have hInner := hFollows.mono (List.subset_cons_self _ _)
    have hEntries := sameEntries_follow (hInner.mono (List.subset_append_right _ _)) hEntries₁
      hEntries₂
    obtain ⟨entries, hRelated, hOrder⟩ :=
      List.perm_comp_forall₂ hPerm₁ (sameEntries_iff.mp hEntries)
    rw [same_iff]
    refine ⟨hName₂.trans hName₁.symm, hNodes₁.follow hNodes₂ (hFollows.nodes _ hHead),
      hElements₁.follow hElements₂ (hFollows.elements _ hHead), ?_, ?_, entries,
      hPerm₂.trans hOrder.symm, sameEntries_iff.mpr hRelated⟩
    · refine sameOwned_follow (hInner.mono ?_) hLocal₁ hLocal₂
      exact List.subset_append_of_subset_left _ (List.subset_append_left _ _)
    · refine sameOwned_follow (hInner.mono ?_) hGhost₁ hGhost₂
      exact List.subset_append_of_subset_left _ (List.subset_append_right _ _)

theorem sameOwned_follow : ∀ {owned owned₁ owned₂ : Option (Nat × ModelPart)},
    Follows r₁ r₂ r (partsOf owned) → SameOwned r₁ nodeId₁ elementId₁ owned owned₁ →
    SameOwned r₂ nodeId₂ elementId₂ owned owned₂ → SameOwned r nodeId₂ elementId₂ owned₁ owned₂
  | none, _, _, _, h₁, h₂ => by
    obtain rfl := h₁
    exact h₂
  | some (_, part), _, _, hFollows, h₁, h₂ => by
    obtain ⟨owner₁, part₁, rfl, hSame₁⟩ := h₁
    obtain ⟨owner₂, part₂, rfl, hSame₂⟩ := h₂
    exact ⟨owner₂, part₂, rfl, same_follow hFollows hSame₁ hSame₂⟩

theorem sameEntries_follow : ∀ {entries entries₁ entries₂ : List (Int32 × Nat × ModelPart)},
    Follows r₁ r₂ r (partsOfPartitions entries) → SameEntries r₁ nodeId₁ elementId₁ entries entries₁ →
    SameEntries r₂ nodeId₂ elementId₂ entries entries₂ →
    SameEntries r nodeId₂ elementId₂ entries₁ entries₂
  | [], _, _, _, h₁, h₂ => by
    obtain rfl := h₁
    exact h₂
  | (_, _, part) :: entries, _, _, hFollows, h₁, h₂ => by
    obtain ⟨owner₁, part₁, rest₁, rfl, hSame₁, hRest₁⟩ := h₁
    obtain ⟨owner₂, part₂, rest₂, rfl, hSame₂, hRest₂⟩ := h₂
    refine ⟨owner₂, part₂, rest₂, rfl, ?_, ?_⟩
    · exact same_follow (hFollows.mono (List.subset_append_left _ _)) hSame₁ hSame₂
    · exact sameEntries_follow (hFollows.mono (List.subset_append_right _ _)) hRest₁ hRest₂

end

end Follows

section Isomorphism

variable {s s₁ s₂ : State} {l g : Nat × ModelPart} {r₁ r₂ : Renaming}

theorem exists_through {first : Nat → Nat} {refs : List Nat} (second : Nat → Nat)
    (hInjective : ∀ a ∈ refs, ∀ b ∈ refs, first a = first b → a = b) :
    ∃ through : Nat → Nat, ∀ ref ∈ refs, through (first ref) = second ref := by
  have hInverse : Set.LeftInvOn (Function.invFunOn first {ref | ref ∈ refs}) first
      {ref | ref ∈ refs} :=
    Set.InjOn.leftInvOn_invFunOn fun a ha b hb => hInjective a ha b hb
  exact ⟨second ∘ Function.invFunOn first {ref | ref ∈ refs},
    fun ref hRef => congrArg second (hInverse hRef)⟩

/-- The places of an object in two results belong together. -/
theorem exists_follows (h : Invariant s l g) (h₁ : Isomorphism r₁ s s₁) (r₂ : Renaming) :
    ∃ r, Follows r₁ r₂ r s.part.parts := by
  obtain ⟨node, hNode⟩ := exists_through r₂.node h₁.nodesInjective
  obtain ⟨element, hElement⟩ := exists_through r₂.element h₁.elementsInjective
  refine ⟨⟨node, element⟩, ?_, ?_⟩
  · intro part hPart ref hRef
    exact hNode ref ((h.objects_subset part hPart).1 hRef)
  · intro part hPart ref hRef
    exact hElement ref ((h.objects_subset part hPart).2 hRef)

/-- What equals the same part is equal. -/
theorem Isomorphic.agree (h : Invariant s l g) (h₁ : Isomorphic s s₁) (h₂ : Isomorphic s s₂) :
    Isomorphic s₁ s₂ := by
  obtain ⟨r₁, h₁⟩ := h₁
  obtain ⟨r₂, h₂⟩ := h₂
  obtain ⟨r, hFollows⟩ := exists_follows h h₁ r₂
  have hTop : s.part ∈ s.part.parts := parts_eq s.part ▸ List.mem_cons_self
  have hNodes := hFollows.nodes s.part hTop
  have hElements := hFollows.elements s.part hTop
  obtain ⟨-, hNodes₁, hElements₁, -⟩ := same_iff.mp h₁.part
  have hNode : ∀ ref' ∈ s₁.part.nodes.data, ∃ ref ∈ s.part.nodes.data, r₁.node ref = ref' ∧
      r.node ref' = r₂.node ref := by
    rw [hNodes₁.data]
    intro ref' hRef'
    obtain ⟨ref, hRef, rfl⟩ := List.mem_map.mp hRef'
    exact ⟨ref, hRef, rfl, hNodes ref hRef⟩
  have hElement : ∀ ref' ∈ s₁.part.elements.data, ∃ ref ∈ s.part.elements.data,
      r₁.element ref = ref' ∧ r.element ref' = r₂.element ref := by
    rw [hElements₁.data]
    intro ref' hRef'
    obtain ⟨ref, hRef, rfl⟩ := List.mem_map.mp hRef'
    exact ⟨ref, hRef, rfl, hElements ref hRef⟩
  refine ⟨r, ?_, ?_, ?_, ?_, same_follow hFollows h₁.part h₂.part⟩
  · intro a' ha' b' hb' hEq
    obtain ⟨a, ha, rfl, hPlaceA⟩ := hNode a' ha'
    obtain ⟨b, hb, rfl, hPlaceB⟩ := hNode b' hb'
    rw [hPlaceA, hPlaceB] at hEq
    rw [h₂.nodesInjective a ha b hb hEq]
  · intro a' ha' b' hb' hEq
    obtain ⟨a, ha, rfl, hPlaceA⟩ := hElement a' ha'
    obtain ⟨b, hb, rfl, hPlaceB⟩ := hElement b' hb'
    rw [hPlaceA, hPlaceB] at hEq
    rw [h₂.elementsInjective a ha b hb hEq]
  · intro ref' hRef'
    obtain ⟨ref, hRef, rfl, hPlace⟩ := hNode ref' hRef'
    rw [hPlace, h₂.nodes ref hRef, h₁.nodes ref hRef]
  · intro ref' hRef'
    obtain ⟨ref, hRef, rfl, hPlace⟩ := hElement ref' hRef'
    have hInner : ((s.heap.elements ref).nodes.map r₁.node).map r.node =
        (s.heap.elements ref).nodes.map r₂.node := by
      rw [List.map_map]
      exact List.map_congr_left fun n hn => hNodes n ((h.elementNodes ref hRef).1 hn)
    rw [hPlace, h₂.elements ref hRef, h₁.elements ref hRef]
    dsimp only
    rw [hInner]

end Isomorphism

end CoSimIO.ModelPart

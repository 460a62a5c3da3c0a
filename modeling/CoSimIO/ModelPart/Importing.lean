import CoSimIO.ModelPart.Agreement
import CoSimIO.ModelPart.Targets
import CoSimIO.Serializer.TraceTags

/-! # Meshes that are imported one after the other into a `ModelPart` -/

namespace CoSimIO.ModelPart

open Sequences Serializer

set_option autoImplicit false

section Shapes

variable {r : Renaming} {nodeId elementId : Nat → Int64} {heap : Heap} {next : Nat}
  {inner other : ModelPart} {saved entry : Entry} {name : Text}

theorem Renamed.eq_empty {place : Nat → Nat} {idOf : Nat → Int64} {w : IndexedVector}
    (h : Renamed place idOf .empty w) : w = .empty := by
  obtain ⟨data, accessMap⟩ := w
  obtain ⟨hData, hIndexes⟩ := h
  obtain rfl : data = [] := hData
  obtain rfl := hIndexes.eq indexes_nil
  rfl

theorem leaf_of_same (hLeaf : Leaf inner) (h : Same r nodeId elementId inner other) :
    Leaf other := by
  rw [same_iff, hLeaf.noLocal, hLeaf.noGhost, hLeaf.noPartitions] at h
  obtain ⟨-, -, -, hLocal, hGhost, entries, hPerm, hEntries⟩ := h
  obtain rfl : entries = [] := hEntries
  exact ⟨hLocal, hGhost, hPerm.eq_nil⟩

theorem eq_internal_of_same (h : Same r nodeId elementId (internal name) other) :
    other = internal name := by
  obtain ⟨hLocal, hGhost, hPartitions⟩ := leaf_of_same (leaf_internal name) h
  obtain ⟨hName, hNodes, hElements, -⟩ := same_iff.mp h
  obtain ⟨name', nodes, elements, localPart, ghostPart, partitions⟩ := other
  obtain rfl : name' = name := hName
  obtain rfl : nodes = .empty := hNodes.eq_empty
  obtain rfl : elements = .empty := hElements.eq_empty
  obtain rfl : localPart = none := hLocal
  obtain rfl : ghostPart = none := hGhost
  obtain rfl : partitions = [] := hPartitions
  rfl

theorem leaf_of_sameOwned {l : Nat × ModelPart} {owned : Option (Nat × ModelPart)}
    (hLeaf : Leaf l.2) (h : SameOwned r nodeId elementId (some l) owned) :
    ∃ l', owned = some l' ∧ Leaf l'.2 := by
  obtain ⟨owner, inner, rfl, hSame⟩ := h
  exact ⟨(owner, inner), rfl, leaf_of_same hLeaf hSame⟩

theorem internal_of_sameOwned {owner : Nat} {owned : Option (Nat × ModelPart)}
    (h : SameOwned r nodeId elementId (some (owner, internal name)) owned) :
    ∃ owner', owned = some (owner', internal name) := by
  obtain ⟨owner', inner, rfl, hSame⟩ := h
  obtain rfl := eq_internal_of_same hSame
  exact ⟨owner', rfl⟩

theorem shaped_of_same (hSaved : Partition heap saved)
    (hBound : ∀ ref ∈ saved.2.2.nodes.data, r.node ref < next)
    (h : SameEntry r nodeId elementId saved entry) : Shaped next entry := by
  obtain ⟨hKey, hSame⟩ := h
  obtain ⟨hName, hNodes, hElements, hLocal, hGhost, entries, hPerm, hEntries⟩ := same_iff.mp hSame
  obtain ⟨owner, hLocal', hGhost'⟩ := hSaved.inner
  rw [hSaved.elements] at hElements
  rw [hLocal'] at hLocal
  rw [hGhost'] at hGhost
  rw [hSaved.noPartitions] at hEntries
  obtain rfl : entries = [] := hEntries
  obtain ⟨ownerL, hLocal⟩ := internal_of_sameOwned hLocal
  obtain ⟨ownerG, hGhost⟩ := internal_of_sameOwned hGhost
  refine ⟨?_, ?_, hElements.eq_empty, ⟨ownerL, ownerG, hLocal, hGhost⟩, hPerm.eq_nil⟩
  · rw [hName, hSaved.name, hKey]
  · intro ref hRef
    rw [hNodes.data] at hRef
    obtain ⟨old, hOld, rfl⟩ := List.mem_map.mp hRef
    exact hBound old hOld

end Shapes

section Result

variable {s t : State} {l g : Nat × ModelPart} {heap : Heap} {result : ModelPart}

theorem Overwritten.loadable (h : Invariant s l g) (h' : Loadable t)
    (hResult : Overwritten s t result heap) : Loadable ⟨heap, result⟩ := by
  obtain ⟨news, hPerm, hNews⟩ := hResult.entries
  rw [List.take_length] at hNews
  have hLocal := hResult.localPart
  have hGhost := hResult.ghostPart
  rw [h.isLocal] at hLocal
  rw [h.isGhost] at hGhost
  refine ⟨⟨?_, ?_⟩, ⟨?_, ?_⟩, leaf_of_sameOwned h.localPart.leaf hLocal,
    leaf_of_sameOwned h.ghostPart.leaf hGhost, ?_, ?_⟩
  · rw [hResult.nodes.data]
    exact h.nodes.nodup.map_on fun x hx y hy =>
      placed_injective h.nodes.nodup h'.nodes.nodup h'.nodes.bounded x hx y hy
  · intro ref hRef
    rw [hResult.nodes.data] at hRef
    obtain ⟨old, hOld, rfl⟩ := List.mem_map.mp hRef
    exact hResult.allocated.nodes old hOld
  · rw [hResult.elements.data]
    exact h.elements.nodup.map_on fun x hx y hy =>
      placed_injective h.elements.nodup h'.elements.nodup h'.elements.bounded x hx y hy
  · intro ref hRef
    rw [hResult.elements.data] at hRef
    obtain ⟨old, hOld, rfl⟩ := List.mem_map.mp hRef
    exact hResult.allocated.elements old hOld
  · apply (hPerm.map Prod.fst).nodup_iff.mpr
    rw [List.map_append, map_fst_of_same hNews]
    exact nodup_keys_missing h'.keys h.keys
  · intro entry hEntry
    rcases List.mem_append.mp (hPerm.mem_iff.mp hEntry) with hOld | hNew
    · exact (h'.partitions entry hOld).mono hResult.allocated.nextNode
    · obtain ⟨saved, hSaved, hSame⟩ := exists_of_mem_right hNews hNew
      have hMem := List.mem_of_mem_filter hSaved
      refine shaped_of_same (h.partitions saved hMem) ?_ hSame
      intro ref hRef
      exact hResult.allocated.nodes ref (h.partitionNodes_subset hMem hRef)

end Result

section Imports

variable {cfg : Config} {layout : Object → BitVec 64} {s t r : State} {rehash : Rehash}
  {depth : Nat} {data : Text}

/-- The mode can represent the values of the part. -/
structure Representable (cfg : Config) (s : State) : Prop where
  name : Faithful cfg .string s.part.name
  nodes : ∀ ref ∈ s.part.nodes.data, (s.heap.nodes ref).Faithful cfg

/-- `data` is the stream of the part. -/
structure Saves (cfg : Config) (s : State) (data : Text) : Prop where
  reachable : Reachable s
  representable : Representable cfg s
  written : ∃ layout, Distinct layout s ∧ writeAll cfg (saveObject cfg layout s) = .ok data

/-- The states of a part that meshes were imported into, before and after other calls. -/
inductive Imported : State → Prop
  | created {s : State} (hReachable : Reachable s) : Imported s
  | changed {s : State} (op : Op) (h : Imported s) : Imported (apply s op).1
  | imported {cfg : Config} {s t r : State} {data : Text} {rehash : Rehash} {depth : Nat}
      (hSaves : Saves cfg s data) (h : Imported t) (hDepth : 3 ≤ depth)
      (hLoad : loadObject cfg rehash depth t data = .ok r) : Imported r

theorem Saves.load (hSaves : Saves cfg s data) (h : Loadable t) (rehash : Rehash)
    (hDepth : 3 ≤ depth) :
    ∃ r, loadObject cfg rehash depth t data = .ok r ∧ Overwritten s t r.part r.heap := by
  obtain ⟨l, g, hInvariant⟩ := hSaves.reachable.invariant
  obtain ⟨layout, hLayout, hWrite⟩ := hSaves.written
  exact loadObject_saveObject hInvariant h hSaves.representable.name hSaves.representable.nodes
    hLayout rehash hDepth hWrite

theorem Imported.loadable (h : Imported t) : Loadable t := by
  induction h with
  | created hReachable =>
    obtain ⟨l, g, hInvariant⟩ := hReachable.invariant
    exact hInvariant.loadable
  | changed op _ ih => exact ih.apply op
  | @imported cfg s t r data rehash depth hSaves _ hDepth hLoad ih =>
    obtain ⟨l, g, hInvariant⟩ := hSaves.reachable.invariant
    obtain ⟨r', hLoad', hResult⟩ := hSaves.load ih rehash hDepth
    obtain rfl := Except.ok.inj (hLoad.symm.trans hLoad')
    exact hResult.loadable hInvariant ih

theorem Saves.isomorphic_iff (hSaves : Saves cfg s data) (h : Imported t) (rehash : Rehash)
    (hDepth : 3 ≤ depth) : ∃ r, loadObject cfg rehash depth t data = .ok r ∧
      (Isomorphic s r ↔ Matches s t) := by
  obtain ⟨l, g, hInvariant⟩ := hSaves.reachable.invariant
  obtain ⟨r, hLoad, hResult⟩ := hSaves.load h.loadable rehash hDepth
  exact ⟨r, hLoad, hResult.isomorphic_iff hInvariant h.loadable⟩

/-- Two parts become equal to the saved one, and so to each other, if and only if the parts
of their partitions match it. -/
theorem import_overwrites_iff (hSaves : Saves cfg s data) {t₁ t₂ : State} (h₁ : Imported t₁)
    (h₂ : Imported t₂) (rehash₁ rehash₂ : Rehash) (hDepth : 3 ≤ depth) :
    ∃ r₁ r₂, loadObject cfg rehash₁ depth t₁ data = .ok r₁ ∧
      loadObject cfg rehash₂ depth t₂ data = .ok r₂ ∧
      (Isomorphic r₁ r₂ ∧ Isomorphic s r₁ ∧ Isomorphic s r₂ ↔ Matches s t₁ ∧ Matches s t₂) := by
  obtain ⟨l, g, hInvariant⟩ := hSaves.reachable.invariant
  obtain ⟨r₁, hLoad₁, hIff₁⟩ := hSaves.isomorphic_iff h₁ rehash₁ hDepth
  obtain ⟨r₂, hLoad₂, hIff₂⟩ := hSaves.isomorphic_iff h₂ rehash₂ hDepth
  refine ⟨r₁, r₂, hLoad₁, hLoad₂, ?_⟩
  rw [← hIff₁, ← hIff₂]
  constructor
  · rintro ⟨-, hResult₁, hResult₂⟩
    exact ⟨hResult₁, hResult₂⟩
  · rintro ⟨hResult₁, hResult₂⟩
    exact ⟨hResult₁.agree hInvariant hResult₂, hResult₁, hResult₂⟩

def binaryConfig : Config where
  trace := .noTrace
  debug := false
  doubles := fourteenDigits
  uninitialized := 0

def someLayout : Object → BitVec 64
  | .node ref => BitVec.ofNat 64 (48 * ref + 16)
  | .element ref => BitVec.ofNat 64 (48 * ref + 32)
  | .modelPart owner => BitVec.ofNat 64 (48 * owner + 48)

def localNode : State := run ⟨started.1, started.2⟩ [.create (.node ⟨1, 0, 0, 0⟩)]

def localNodes : State :=
  run ⟨started.1, started.2⟩ [.create (.node ⟨5, 0, 0, 0⟩), .create (.node ⟨7, 0, 0, 0⟩)]

def ghostNode : State :=
  run ⟨started.1, started.2⟩ [.create (.ghostNode ⟨2, 0, 0, 0⟩ 3 ⟨id, fun _ => .refl _⟩)]

theorem reachable_run (ops : List Op) : Reachable (run ⟨started.1, started.2⟩ ops) :=
  ⟨emptyHeap, "mp".toList, started, ops, rfl, rfl⟩

theorem saves_localNode : ∃ data, Saves binaryConfig localNode data := by
  have hWritable : ∀ item ∈ saveObject binaryConfig someLayout localNode,
      Writable binaryConfig item := fun item _ => writable_of_binary rfl item
  obtain ⟨data, hWrite⟩ := writeAll_of_writable hWritable
  refine ⟨data, reachable_run _, ⟨faithful_of_plain (by decide) (by decide), ?_⟩, someLayout, ?_,
    hWrite⟩
  · rintro ref - x - hText
    nomatch hText
  · change ∀ a ∈ objects localNode, ∀ b ∈ objects localNode, someLayout a = someLayout b → a = b
    decide

theorem import_overwrites_iff_localNodes : ∃ data r₁ r₂,
    loadObject binaryConfig ⟨id, fun _ => .refl _⟩ 3 ⟨started.1, started.2⟩ data = .ok r₁ ∧
      loadObject binaryConfig ⟨id, fun _ => .refl _⟩ 3 localNodes data = .ok r₂ ∧
      Isomorphic r₁ r₂ ∧ Isomorphic localNode r₁ ∧ Isomorphic localNode r₂ := by
  obtain ⟨data, hSaves⟩ := saves_localNode
  obtain ⟨r₁, r₂, hLoad₁, hLoad₂, hIff⟩ := import_overwrites_iff hSaves
    (.created (reachable_run [])) (.created (reachable_run _)) ⟨id, fun _ => .refl _⟩
    ⟨id, fun _ => .refl _⟩ (Nat.le_refl 3)
  exact ⟨data, r₁, r₂, hLoad₁, hLoad₂, hIff.mpr ⟨nofun, nofun⟩⟩

/-- The partition of the part before the import is still there. -/
theorem import_keeps_partition : ∃ data r, Saves binaryConfig localNode data ∧
    Imported ghostNode ∧
    loadObject binaryConfig ⟨id, fun _ => .refl _⟩ 3 ghostNode data = .ok r ∧
    ¬ Isomorphic localNode r := by
  obtain ⟨data, hSaves⟩ := saves_localNode
  have hTarget : Imported ghostNode := .created (reachable_run _)
  obtain ⟨r, hLoad, hIff⟩ := hSaves.isomorphic_iff hTarget ⟨id, fun _ => .refl _⟩ (Nat.le_refl 3)
  refine ⟨data, r, hSaves, hTarget, hLoad, ?_⟩
  intro hSame
  obtain ⟨saved, hMem, -⟩ := hIff.mp hSame _ List.mem_cons_self
  nomatch hMem

end Imports

end CoSimIO.ModelPart

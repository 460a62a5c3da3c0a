import CoSimIO.Library.Sequences
import CoSimIO.Serializer.PointerRules
import Mathlib.Data.List.Nodup

/-! # What the loaders of vectors of pointers give back -/

namespace CoSimIO.Serializer

open Restore Restore.Writer Sequences

set_option autoImplicit false

variable {H α : Type} {cfg : Config} {Before : List (BitVec 64) → Memory H → Prop}

section Vector

variable {tag : Text} {saveElement : α → Saver} {loadElement : Nat → Loader H Unit}
  {elements : List α} {old : List Nat}

/-- What the loop over the elements of a vector leaves behind: the pointers up to `i` are
loaded, the others are as they were in the vector. -/
def VectorLoop (target : α → Nat) (elements : List α) (old : List Nat)
    (I : Nat → List (BitVec 64) → Memory H → Prop) (base i : Nat) (s : List (BitVec 64))
    (m : Memory H) : Prop :=
  I i s m ∧ base + elements.length ≤ m.nextSlot ∧
    (∀ j x, j < i → elements[j]? = some x → (m.slots (base + j)).content = some (target x)) ∧
    ∀ j < elements.length, i ≤ j → (m.slots (base + j)).content = old[j]?

theorem contents_range' {m : Memory H} {target : α → Nat} {base : Nat}
    (h : ∀ j x, elements[j]? = some x → (m.slots (base + j)).content = some (target x)) :
    m.contents (List.range' base elements.length) = some (elements.map target) := by
  induction elements generalizing base with
  | nil => rfl
  | cons x elements ih =>
    have hRest := @ih (base + 1) fun j y hy => by
      rw [Nat.add_assoc, Nat.add_comm 1]
      exact h (j + 1) y hy
    have hHead := h 0 x rfl
    rw [Nat.add_zero] at hHead
    rw [List.length_cons, List.range'_succ, Memory.contents, hHead, hRest]
    rfl

theorem reads_contents {target : α → Nat} {I : Nat → List (BitVec 64) → Memory H → Prop}
    {base : Nat} :
    Reads (Ready cfg) (emit []) (contents (List.range' base elements.length))
      (VectorLoop target elements old I base elements.length)
      fun refs s m => refs = elements.map target ∧
        VectorLoop target elements old I base elements.length s m := by
  apply reads_silent
  rintro s input m hLoop
  have hLoaded := hLoop.2.2.1
  have hSlots : m.contents (List.range' base elements.length) = some (elements.map target) := by
    apply contents_range'
    rintro j x hx
    exact hLoaded j x (List.getElem?_eq_some_iff.mp hx).1 hx
  refine ⟨elements.map target, m, ?_, rfl, hLoop⟩
  rw [contents, getMemory_bind, hSlots]
  rfl

/-- `resize` of a vector, and the loop over its elements. -/
theorem reads_pointerVector (target : α → Nat)
    (I : Nat → Nat → List (BitVec 64) → Memory H → Prop) (hTag : '"' ∉ tag)
    (hLength : elements.length < 2 ^ 64)
    (hStart : ∀ s m, Before s m →
      I m.nextSlot 0 s (m.newSlots (Memory.resized old elements.length)))
    (hStep : ∀ base i x, elements[i]? = some x → ∀ s m, I base i s m →
      base + i < m.nextSlot → (m.slots (base + i)).content = old[i]? →
      Reads (Ready cfg) (saveElement x) (loadElement (base + i))
        (fun s' m' => s' = s ∧ m' = m)
        fun _ s' m' => I base (i + 1) s' m' ∧ (m'.slots (base + i)).content = some (target x) ∧
          m.nextSlot ≤ m'.nextSlot ∧
          ∀ j < m.nextSlot, j ≠ base + i → m'.slots j = m.slots j) :
    Reads (Ready cfg) (saveVector cfg tag saveElement elements)
      (loadPointerVector cfg tag loadElement old) Before
      fun refs s m => refs = elements.map target ∧
        ∃ base, VectorLoop target elements old (I base) base elements.length s m := by
  apply (reads_point hTag).bind
  rintro _
  apply (reads_size hLength _).bind
  rintro size
  apply Reads.of_before
  rintro s m ⟨hSize, hBefore⟩
  let slots := List.range' m.nextSlot elements.length
  refine ⟨each saveElement elements, ?_, rfl, ?_, ?_⟩
  · exact do
      setMemory (m.newSlots (Memory.resized old elements.length))
      slots.foldlM (fun _ slot => loadElement slot) ()
      contents slots
  · rintro input
    simp only [slots, ← hSize]
    rfl
  have hStep' (i : Nat) (x : α) (slot : Nat) (hx : elements[i]? = some x)
      (hSlot : slots[i]? = some slot) (v : Unit) :
      Reads (Ready cfg) (saveElement x) (loadElement slot)
        (VectorLoop target elements old (I m.nextSlot) m.nextSlot i)
        fun _ => VectorLoop target elements old (I m.nextSlot) m.nextSlot (i + 1) := by
    have hLt : i < elements.length := (List.getElem?_eq_some_iff.mp hx).1
    obtain rfl : m.nextSlot + i = slot := by
      rw [List.getElem?_range' hLt] at hSlot
      simpa using hSlot
    apply Reads.of_before
    rintro s' m' ⟨hI, hBound, hLoaded, hOld⟩
    have hRead := hStep m.nextSlot i x hx s' m' hI (by omega) (hOld i hLt (Nat.le_refl i))
    refine ⟨_, _, rfl, fun _ => rfl, hRead.conseq (fun _ _ h => h) ?_⟩
    rintro _ s'' m'' ⟨hI', hHere, hMore, hFrame⟩
    refine ⟨hI', by omega, ?_, ?_⟩
    · rintro j y hj hy
      rcases Nat.lt_succ_iff_lt_or_eq.mp hj with hEarlier | rfl
      · rw [hFrame (m.nextSlot + j) (by omega) (by omega)]
        exact hLoaded j y hEarlier hy
      · obtain rfl := Option.some.inj (hx.symm.trans hy)
        exact hHere
    · rintro j hj hLater
      rw [hFrame (m.nextSlot + j) (by omega) (by omega)]
      exact hOld j hj (by omega)
  apply Reads.silent_bind (reads_setMemory
    (VectorLoop target elements old (I m.nextSlot) m.nextSlot 0) ?_)
  · rintro _
    rw [← andThen_emit_nil (each saveElement elements)]
    apply (reads_each (fun i _ => VectorLoop target elements old (I m.nextSlot) m.nextSlot i)
      (by simp [slots]) hStep' ()).bind
    rintro _
    apply reads_contents.conseq fun _ _ h => h
    rintro refs s' m' ⟨hRefs, hLoop⟩
    exact ⟨hRefs, m.nextSlot, hLoop⟩
  · rintro s' m' ⟨rfl, rfl⟩
    refine ⟨hStart s' m' hBefore, ?_, nofun, ?_⟩
    · exact Nat.add_le_add_left (Nat.le_of_eq (Memory.length_resized old _).symm) m'.nextSlot
    · rintro j hj -
      exact m'.newSlots_resized_content old hj

end Vector

namespace Memory

/-- The pointer that was loaded for the address is alive and holds the object. -/
def Holds (m : Memory H) (address : BitVec 64) (ref : Nat) : Prop :=
  ∃ slot < m.nextSlot, m.loadedPointers address = some (.slot slot) ∧
    (m.slots slot).content = some ref

/-- The pointers are as they were, there may be new ones. -/
structure Later (m m' : Memory H) : Prop where
  loadedPointers : m'.loadedPointers = m.loadedPointers
  nextSlot : m.nextSlot ≤ m'.nextSlot
  slots : ∀ slot < m.nextSlot, m'.slots slot = m.slots slot

variable {m m' : Memory H} {address : BitVec 64} {ref : Nat}

theorem Holds.later (h : m.Holds address ref) (hLater : m.Later m') : m'.Holds address ref := by
  obtain ⟨slot, hSlot, hLoaded, hContent⟩ := h
  refine ⟨slot, Nat.lt_of_lt_of_le hSlot hLater.nextSlot, ?_, ?_⟩
  · rw [hLater.loadedPointers, hLoaded]
  · rw [hLater.slots slot hSlot, hContent]

theorem later_newSlots (m : Memory H) (contents : List (Option Nat)) :
    m.Later (m.newSlots contents) where
  loadedPointers := rfl
  nextSlot := Nat.le_add_right _ _
  slots _ hSlot := if_pos hSlot

theorem Later.refl (m : Memory H) : m.Later m := ⟨rfl, Nat.le_refl _, fun _ _ => rfl⟩

theorem Later.trans {m'' : Memory H} (h : m.Later m') (h' : m'.Later m'') : m.Later m'' where
  loadedPointers := h'.loadedPointers.trans h.loadedPointers
  nextSlot := Nat.le_trans h.nextSlot h'.nextSlot
  slots slot hSlot :=
    (h'.slots slot (Nat.lt_of_lt_of_le hSlot h.nextSlot)).trans (h.slots slot hSlot)

theorem Later.assign {slot : Nat} (h : m.Later m') (hSlot : m.nextSlot ≤ slot)
    (content : Option Nat) : m.Later (m'.assign slot content) where
  loadedPointers := h.loadedPointers
  nextSlot := h.nextSlot
  slots j hj := by
    rw [m'.assign_slots_of_ne content (by omega)]
    exact h.slots j hj

end Memory

/-- A vector of pointers to objects that are all known. -/
theorem reads_vector_known {tag : Text} {T : Pointee H} {elements : List α}
    {address : α → BitVec 64} {content : α → Saver} {target : α → Nat}
    {s₀ : List (BitVec 64)} {m₀ : Memory H} {old : List Nat} (hTag : '"' ∉ tag)
    (hLength : elements.length < 2 ^ 64)
    (hKnown : ∀ x ∈ elements, address x ∈ s₀ ∧ m₀.Holds (address x) (target x)) :
    Reads (Ready cfg)
      (saveVector cfg tag (fun x => savePointer cfg "E".toList none (address x) (content x))
        elements)
      (loadPointerVector cfg tag (loadPointer cfg "E".toList T) old)
      (fun s m => s = s₀ ∧ m = m₀)
      fun refs s m => refs = elements.map target ∧ s = s₀ ∧ m₀.Later m ∧ m.heap = m₀.heap := by
  apply (reads_pointerVector target
    (fun base _ s m => s = s₀ ∧ m₀.Later m ∧ m.heap = m₀.heap ∧ m₀.nextSlot ≤ base)
    hTag hLength ?_ ?_).conseq fun _ _ h => h
  · rintro refs s m ⟨hRefs, base, ⟨hState, hLater, hHeap, -⟩, -⟩
    exact ⟨hRefs, hState, hLater, hHeap⟩
  · rintro s m ⟨rfl, rfl⟩
    exact ⟨rfl, m.later_newSlots _, rfl, Nat.le_refl _⟩
  · rintro base i x hx s m ⟨rfl, hLater, hHeap, hBase⟩ hSlot hNull
    obtain ⟨hSaved, hHolds⟩ := hKnown x (List.mem_of_getElem? hx)
    obtain ⟨other, hOther, hLoaded, hContent⟩ := hHolds.later hLater
    apply reads_pointer_known
    rintro s' m' ⟨rfl, rfl⟩
    refine ⟨hSaved, _, hLoaded, ⟨rfl, hLater.assign (by omega) _, hHeap, hBase⟩, ?_,
      Nat.le_refl _, ?_⟩
    · rw [m'.assign_slots_self]
      exact hContent
    · rintro j - hNe
      exact m'.assign_slots_of_ne _ hNe

section NewObjects

variable (target : α → Nat) (address : α → BitVec 64) (J : Nat → H → Prop) (elements : List α)
  (s₀ : List (BitVec 64)) (m₀ : Memory H)

/-- The objects up to `i` of the vector at `base` are saved and loaded. -/
structure Built (base i : Nat) (s : List (BitVec 64)) (m : Memory H) : Prop where
  saved : ∀ a, a ∈ s ↔ a ∈ s₀ ∨ a ∈ (elements.take i).map address
  heap : J i m.heap
  newer : m₀.nextSlot ≤ base
  loaded : ∀ j x, j < i → elements[j]? = some x →
    m.loadedPointers (address x) = some (.slot (base + j))
  others : ∀ a ∉ (elements.take i).map address, m.loadedPointers a = m₀.loadedPointers a
  nextSlot : m₀.nextSlot ≤ m.nextSlot
  slots : ∀ slot < m₀.nextSlot, m.slots slot = m₀.slots slot

variable {target address J elements s₀ m₀} {base i : Nat} {s : List (BitVec 64)}
  {m m' : Memory H} {x : α}

/-- What was known stays known, as its address is none of the new ones. -/
theorem Built.keeps (h : Built address J elements s₀ m₀ base i s m)
    (hNew : ∀ x ∈ elements, m₀.loadedPointers (address x) = none) {a : BitVec 64} {ref : Nat}
    (hHolds : m₀.Holds a ref) : m.Holds a ref := by
  obtain ⟨slot, hSlot, hLoaded, hContent⟩ := hHolds
  have hOther : a ∉ (elements.take i).map address := by
    rintro hMem
    obtain ⟨x, hx, rfl⟩ := List.mem_map.mp hMem
    rw [hNew x (List.mem_of_mem_take hx)] at hLoaded
    nomatch hLoaded
  refine ⟨slot, Nat.lt_of_lt_of_le hSlot h.nextSlot, (h.others a hOther).trans hLoaded, ?_⟩
  rw [h.slots slot hSlot, hContent]

theorem built_start (hStart : J 0 m₀.heap) (contents : List (Option Nat)) :
    Built address J elements s₀ m₀ m₀.nextSlot 0 s₀ (m₀.newSlots contents) where
  saved a := by simp
  heap := hStart
  newer := Nat.le_refl _
  loaded := nofun
  others _ _ := rfl
  nextSlot := Nat.le_add_right _ _
  slots _ hSlot := if_pos hSlot

/-- The memory when the content of the next object is loaded. -/
def nextObject (m : Memory H) (made : Nat × H) (a : BitVec 64) (slot : Nat) : Memory H :=
  ({ m with heap := made.2 }.assign slot (some made.1)).record a (.slot slot)

theorem Built.keeps_next (h : Built address J elements s₀ m₀ base i s m)
    (hNew : ∀ x ∈ elements, m₀.loadedPointers (address x) = none) (hx : x ∈ elements)
    {made : Nat × H} {a : BitVec 64} {ref : Nat} (hHolds : m₀.Holds a ref) :
    (nextObject m made (address x) (base + i)).Holds a ref := by
  obtain ⟨slot, hSlot, hLoaded, hContent⟩ := hHolds
  have hOther : ∀ y ∈ elements, a ≠ address y := by
    rintro y hy rfl
    rw [hNew y hy] at hLoaded
    nomatch hLoaded
  have hNotMem : a ∉ (elements.take i).map address := by
    intro hMem
    obtain ⟨y, hy, hEq⟩ := List.mem_map.mp hMem
    exact hOther y (List.mem_of_mem_take hy) hEq.symm
  have hNe : slot ≠ base + i := by
    have hNewer := h.newer
    omega
  refine ⟨slot, Nat.lt_of_lt_of_le hSlot h.nextSlot, ?_, ?_⟩
  · exact (if_neg (hOther x hx)).trans ((h.others a hNotMem).trans hLoaded)
  · have hSame : (nextObject m made (address x) (base + i)).slots slot = m₀.slots slot :=
      (if_neg hNe).trans (h.slots slot hSlot)
    rw [hSame, hContent]

theorem Built.next (h : Built address J elements s₀ m₀ base i s m)
    (hNodup : (elements.map address).Nodup) (hx : elements[i]? = some x) {made : Nat × H}
    (hSlot : base + i < m.nextSlot)
    (hLater : (nextObject m made (address x) (base + i)).Later m') (hHeap : J (i + 1) m'.heap) :
    Built address J elements s₀ m₀ base (i + 1) (address x :: s) m' where
  saved a := by
    rw [mem_map_take_succ hx, List.mem_cons, h.saved]
    exact or_left_comm
  heap := hHeap
  newer := h.newer
  loaded j y hj hy := by
    rw [hLater.loadedPointers]
    rcases Nat.lt_succ_iff_lt_or_eq.mp hj with hEarlier | rfl
    · have hMem : address y ∈ (elements.take i).map address :=
        List.mem_map_of_mem (List.mem_of_getElem? ((List.getElem?_take_of_lt hEarlier).trans hy))
      have hNe : address y ≠ address x := fun hEq =>
        notMem_map_take hNodup hx (hEq ▸ hMem)
      exact (if_neg hNe).trans (h.loaded j y hEarlier hy)
    · obtain rfl := Option.some.inj (hx.symm.trans hy)
      exact if_pos rfl
  others a ha := by
    rw [mem_map_take_succ hx, not_or] at ha
    rw [hLater.loadedPointers]
    exact (if_neg ha.1).trans (h.others a ha.2)
  nextSlot := Nat.le_trans h.nextSlot hLater.nextSlot
  slots slot hOld := by
    have hNe : slot ≠ base + i := by
      have := h.newer
      omega
    rw [hLater.slots slot (Nat.lt_of_lt_of_le hOld h.nextSlot)]
    exact (if_neg hNe).trans (h.slots slot hOld)

/-- The objects of the vector are saved and loaded, nothing else is. -/
structure LoadedVector (target : α → Nat) (address : α → BitVec 64) (elements : List α)
    (s₀ : List (BitVec 64)) (m₀ : Memory H) (s : List (BitVec 64)) (m : Memory H) : Prop where
  saved : ∀ a, a ∈ s ↔ a ∈ s₀ ∨ a ∈ elements.map address
  holds : ∀ x ∈ elements, m.Holds (address x) (target x)
  others : ∀ a ∉ elements.map address, m.loadedPointers a = m₀.loadedPointers a
  keeps : ∀ a ref, m₀.Holds a ref → m.Holds a ref

/-- A vector of pointers to objects that are all new in the stream, each with one pointer to it.
They are loaded into the objects of the old pointers as long as there are some. -/
theorem reads_vector_new {tag : Text} {T : Pointee H} {content : α → Saver} {old : List Nat}
    (hTag : '"' ∉ tag) (hLength : elements.length < 2 ^ 64)
    (hNodup : (elements.map address).Nodup)
    (hNew : ∀ x ∈ elements, address x ∉ s₀ ∧ m₀.loadedPointers (address x) = none)
    (hStart : J 0 m₀.heap)
    (hStep : ∀ i x, elements[i]? = some x → ∀ heap, J i heap → ∀ made,
      made = Memory.made T.create old[i]? heap → made.1 = target x ∧
      ∀ s m, (∀ a ∈ s₀, a ∈ s) → (∀ a ref, m₀.Holds a ref → m.Holds a ref) →
        m.heap = made.2 →
        Reads (Ready cfg) (content x) (T.load (target x)) (fun s' m' => s' = s ∧ m' = m)
          fun _ s' m' => s' = s ∧ m.Later m' ∧ J (i + 1) m'.heap) :
    Reads (Ready cfg)
      (saveVector cfg tag (fun x => savePointer cfg "E".toList none (address x) (content x))
        elements)
      (loadPointerVector cfg tag (loadPointer cfg "E".toList T) old)
      (fun s m => s = s₀ ∧ m = m₀)
      fun refs s m => refs = elements.map target ∧
        LoadedVector target address elements s₀ m₀ s m ∧ J elements.length m.heap := by
  apply (reads_pointerVector target (Built address J elements s₀ m₀) hTag hLength ?_ ?_).conseq
    fun _ _ h => h
  · rintro refs s m ⟨hRefs, base, hBuilt, hBound, hLoaded, -⟩
    have hAll : elements.take elements.length = elements := List.take_length
    refine ⟨hRefs, ?_, hBuilt.heap⟩
    constructor
    · have hSaved := hBuilt.saved
      rwa [hAll] at hSaved
    · intro x hx
      obtain ⟨j, hj⟩ := List.getElem?_of_mem hx
      have hLt : j < elements.length := (List.getElem?_eq_some_iff.mp hj).1
      exact ⟨base + j, by omega, hBuilt.loaded j x hLt hj, hLoaded j x hLt hj⟩
    · have hOthers := hBuilt.others
      rwa [hAll] at hOthers
    · intro a ref
      exact hBuilt.keeps fun x hx => (hNew x hx).2
  · rintro s m ⟨rfl, rfl⟩
    exact built_start hStart _
  · rintro base i x hx s m hBuilt hSlot hOld
    have hMem : x ∈ elements := List.mem_of_getElem? hx
    have hFresh := notMem_map_take hNodup hx
    have hName : ∀ name ∈ (none : Option Text), Faithful cfg .string name := nofun
    apply reads_pointer_new (by decide) hName rfl
    rintro s' m' ⟨rfl, rfl⟩
    refine ⟨?_, ?_, ?_⟩
    · rw [hBuilt.saved]
      exact not_or.mpr ⟨(hNew x hMem).1, hFresh⟩
    · rw [hBuilt.others _ hFresh]
      exact (hNew x hMem).2
    · intro made hMade
      rw [hOld] at hMade
      obtain ⟨hTarget, hContent⟩ := hStep i x hx m'.heap hBuilt.heap made hMade
      have hKeeps : ∀ a ref, m₀.Holds a ref →
          (nextObject m' made (address x) (base + i)).Holds a ref := by
        intro a ref hHolds
        exact hBuilt.keeps_next (fun y hy => (hNew y hy).2) hMem hHolds
      rw [hTarget]
      apply (hContent (address x :: s') _
        (fun a ha => List.mem_cons_of_mem _ ((hBuilt.saved a).mpr (.inl ha))) hKeeps rfl).conseq
      · rintro s'' m'' ⟨rfl, rfl⟩
        exact ⟨rfl, by rw [nextObject, hTarget]⟩
      · rintro _ s'' m'' ⟨rfl, hLater, hHeap⟩
        refine ⟨hBuilt.next hNodup hx hSlot hLater hHeap, ?_, hLater.nextSlot, ?_⟩
        · rw [hLater.slots _ hSlot]
          exact congrArg Slot.content (if_pos rfl) |>.trans (congrArg some hTarget)
        · rintro j hj hNe
          exact (hLater.slots j hj).trans (if_neg hNe)

end NewObjects

end CoSimIO.Serializer

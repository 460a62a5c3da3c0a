import CoSimIO.Serializer.Pointers

/-! # What the loaders of pointers give back -/

namespace CoSimIO.Serializer

open Restore Restore.Writer

set_option autoImplicit false

variable {H α : Type} {cfg : Config} {Before : List (BitVec 64) → Memory H → Prop}

theorem reads_item {k : Kind} {v : k.Carrier} (hFaithful : Faithful cfg k v) (old : k.Carrier) :
    Reads (Ready cfg) (emit [⟨k, v⟩]) (readItem cfg k old) Before
      fun a s m => a = v ∧ Before s m := by
  rintro s input m rest hReady hBefore
  obtain ⟨input', hRead, hReady'⟩ := Ready.read hReady hFaithful old
  refine ⟨v, input', m, ?_, hReady', rfl, hBefore⟩
  rw [readItem, hRead]

theorem reads_point {tag : Text} (hTag : '"' ∉ tag) :
    Reads (Ready cfg) (emit (tracePoint cfg tag)) (loadPoint cfg tag) Before
      fun _ => Before := by
  rintro s input m rest hReady hBefore
  obtain ⟨input', hLoad, hReady'⟩ := Ready.loadTracePoint hReady fun _ => hTag
  refine ⟨(), input', m, ?_, hReady', hBefore⟩
  rw [loadPoint, hLoad]
  rfl

theorem reads_load {tag : Text} {k : Kind} {v : k.Carrier} (hTag : '"' ∉ tag)
    (hFaithful : Faithful cfg k v) (old : k.Carrier) :
    Reads (Ready cfg) (emit (save cfg tag ⟨k, v⟩)) (loadItem cfg tag k old) Before
      fun a s m => a = v ∧ Before s m :=
  (reads_point hTag).bind fun _ => reads_item hFaithful old

theorem reads_size {size : Nat} (hSize : size < 2 ^ 64) (old : BitVec 64) :
    Reads (Ready cfg) (emit (save cfg "size".toList (sizeItem size)))
      (loadItem cfg "size".toList (.integer .unsignedLong) old) Before
      fun a s m => a.toNat = size ∧ Before s m := by
  apply (reads_load (k := .integer .unsignedLong) (by decide) trivial _).conseq fun _ _ h => h
  rintro a s m ⟨rfl, hBefore⟩
  exact ⟨(BitVec.toNat_ofNat size 64).trans (Nat.mod_eq_of_lt hSize), hBefore⟩

theorem reads_getMemory {s : List (BitVec 64)} {m : Memory H} :
    Reads (Ready cfg) (emit []) getMemory (fun s' m' => s' = s ∧ m' = m)
      fun a s' m' => a = m ∧ s' = s ∧ m' = m := by
  apply reads_silent
  rintro s' input m' ⟨rfl, rfl⟩
  exact ⟨m', m', rfl, rfl, rfl, rfl⟩

theorem reads_setMemory {m' : Memory H} (After : List (BitVec 64) → Memory H → Prop)
    (h : ∀ s m, Before s m → After s m') :
    Reads (Ready cfg) (emit []) (setMemory m') Before fun _ => After := by
  apply reads_silent
  rintro s input m hBefore
  exact ⟨(), m', rfl, h s m hBefore⟩

namespace Memory

variable (m : Memory H) {i slot : Nat}

@[simp] theorem assign_slots_self (content : Option Nat) :
    (m.assign slot content).slots slot = .live content := if_pos rfl

theorem assign_slots_of_ne (content : Option Nat) (h : i ≠ slot) :
    (m.assign slot content).slots i = m.slots i := if_neg h

theorem newSlots_slots_of_lt (contents : List (Option Nat)) (h : i < m.nextSlot) :
    (m.newSlots contents).slots i = m.slots i := if_pos h

/-- The pointers of a vector after `resize` -/
def resized (old : List Nat) (size : Nat) : List (Option Nat) :=
  (old.map some).take size ++ List.replicate (size - old.length) none

theorem length_resized (old : List Nat) (size : Nat) : (resized old size).length = size := by
  rw [resized, List.length_append, List.length_take, List.length_map, List.length_replicate]
  omega

theorem getElem?_resized (old : List Nat) {size : Nat} (h : i < size) :
    (resized old size)[i]? = some old[i]? := by
  rw [resized]
  rcases Nat.lt_or_ge i old.length with hOld | hNew
  · rw [List.getElem?_append_left (by rw [List.length_take, List.length_map]; omega),
      List.getElem?_take_of_lt h, List.getElem?_map, List.getElem?_eq_getElem hOld]
    rfl
  · have hTaken : ((old.map some).take size).length = old.length := by
      rw [List.length_take, List.length_map]
      omega
    rw [List.getElem?_append_right (by omega), hTaken, List.getElem?_replicate_of_lt (by omega),
      List.getElem?_eq_none hNew]

theorem newSlots_resized_content (old : List Nat) {size : Nat} (h : i < size) :
    ((m.newSlots (resized old size)).slots (m.nextSlot + i)).content = old[i]? := by
  have hRange : ¬ m.nextSlot + i < m.nextSlot := by omega
  have hAt : (resized old size)[m.nextSlot + i - m.nextSlot]? = some old[i]? := by
    rw [Nat.add_sub_cancel_left, getElem?_resized old h]
  simp only [newSlots, if_neg hRange, hAt, Slot.content]

/-- The object a pointer has already, or a new one -/
def made (create : H → Nat × H) (content : Option Nat) (heap : H) : Nat × H :=
  content.elim (create heap) fun ref => (ref, heap)

theorem make_eq (create : H → Nat × H) : m.make create slot =
    ((made create (m.slots slot).content m.heap).1,
      { m with heap := (made create (m.slots slot).content m.heap).2 }.assign slot
        (some (made create (m.slots slot).content m.heap).1)) := by
  rw [make]
  cases hContent : (m.slots slot).content with
  | none => rfl
  | some ref =>
    have hSlot : m.slots slot = .live (some ref) := by
      cases hLive : m.slots slot with
      | dead =>
        rw [hLive] at hContent
        nomatch hContent
      | live content =>
        rw [hLive] at hContent
        exact congrArg Slot.live hContent
    have hSame : m.assign slot (some ref) = m := by
      have hSlots : (fun i => if i = slot then .live (some ref) else m.slots i) = m.slots := by
        funext i
        split
        · next hEq => rw [hEq, hSlot]
        · rfl
      rw [assign, hSlots]
    exact congrArg (Prod.mk ref) hSame.symm

end Memory

section Pointer

variable {tag : Text} {T : Pointee H} {registered : Option Text} {address : BitVec 64}
  {content : Saver} {slot : Nat}

/-- The address is known: the pointer becomes a copy of what was loaded for it. -/
theorem getMemory_bind {α : Type} (f : Memory H → Loader H α) (input : Input) (m : Memory H) :
    (getMemory >>= f) (input, m) = f m (input, m) := rfl

theorem reads_pointer_known {After : List (BitVec 64) → Memory H → Prop}
    (h : ∀ s m, Before s m → address ∈ s ∧ ∃ loaded, m.loadedPointers address = some loaded ∧
      After s (m.assign slot (m.deref loaded))) :
    Reads (Ready cfg) (savePointer cfg tag registered address content)
      (loadPointer cfg tag T slot) Before fun _ => After := by
  have hType : pointerType registered ≠ .invalidPointer := by
    cases registered <;> nofun
  apply (reads_item (k := .pointerType) trivial _).bind_eq
  rw [if_neg hType]
  apply (reads_item (k := .address) trivial _).bind_eq
  apply Reads.of_before
  rintro s m hBefore
  obtain ⟨hSaved, loaded, hLoaded, hAfter⟩ := h s m hBefore
  refine ⟨emit [], setMemory (m.assign slot (m.deref loaded)), if_pos hSaved, ?_, ?_⟩
  · rintro input
    rw [getMemory_bind, hLoaded]
  · apply reads_setMemory
    rintro s' m' ⟨rfl, rfl⟩
    exact hAfter

theorem reads_prototype {default create : α} {classes : Text → Option α}
    (hName : ∀ name ∈ registered, Faithful cfg .string name)
    (hCreate : (registered.map classes).getD (some default) = some create) :
    Reads (Ready cfg) (emit (nameItems registered))
      (prototype cfg default classes (pointerType registered)) Before
      fun a s m => a = create ∧ Before s m := by
  cases registered with
  | none =>
    apply reads_pure
    rintro s m hBefore
    exact ⟨Option.some.inj hCreate, hBefore⟩
  | some name =>
    have hRegistered : classes name = some create := hCreate
    apply (reads_item (hName name rfl) _).bind_eq_silent
    rw [hRegistered]
    exact reads_pure fun s m hBefore => ⟨rfl, hBefore⟩

/-- The address is new: the content is loaded, into a new object when there is none. -/
theorem reads_pointer_new {create : H → Nat × H} {After : List (BitVec 64) → Memory H → Prop}
    (hTag : '"' ∉ tag) (hName : ∀ name ∈ registered, Faithful cfg .string name)
    (hCreate : (registered.map T.registered).getD (some T.create) = some create)
    (h : ∀ s m, Before s m → address ∉ s ∧ m.loadedPointers address = none ∧
      ∀ made, made = Memory.made create (m.slots slot).content m.heap →
      Reads (Ready cfg) content (T.load made.1)
        (fun s' m' => s' = address :: s ∧
          m' = ({ m with heap := made.2 }.assign slot (some made.1)).record address (.slot slot))
        fun _ => After) :
    Reads (Ready cfg) (savePointer cfg tag registered address content)
      (loadPointer cfg tag T slot) Before fun _ => After := by
  have hType : pointerType registered ≠ .invalidPointer := by
    cases registered <;> nofun
  apply (reads_item (k := .pointerType) trivial _).bind_eq
  rw [if_neg hType]
  apply (reads_item (k := .address) trivial _).bind_eq
  apply Reads.of_before
  rintro s m hBefore
  obtain ⟨hSaved, hLoaded, hContent⟩ := h s m hBefore
  refine ⟨fun saved => saveNew cfg tag registered content (address :: saved),
    loadNew cfg tag T slot (pointerType registered) address, if_neg hSaved, ?_, ?_⟩
  · rintro input
    rw [getMemory_bind, hLoaded]
  · apply Reads.update
    apply (reads_prototype hName hCreate).bind_eq
    have hMake : m.make create slot = _ := m.make_eq create
    apply Reads.of_before
    rintro s' m' ⟨s'', ⟨rfl, rfl⟩, rfl⟩
    refine ⟨(emit (tracePoint cfg tag)).andThen content, ?_, rfl, ?_, ?_⟩
    · exact do
        setMemory ((m'.make create slot).2.record address (.slot slot))
        loadPoint cfg tag
        T.load (m'.make create slot).1
    · rintro input
      rfl
    · rw [hMake]
      apply Reads.silent_bind (reads_setMemory (fun s m => s = address :: s'' ∧ m = _) ?_)
      · rintro _
        exact (reads_point hTag).bind fun _ => hContent _ rfl
      · rintro s m ⟨rfl, rfl⟩
        exact ⟨rfl, rfl⟩

end Pointer

section Unique

variable {tag : Text} {create : Loader H (Nat × α)}
  {registered : Text → Option (Loader H (Nat × α))} {load : α → Loader H α}
  {old : Option (Nat × α)}

theorem reads_unique_null :
    Reads (Ready cfg) saveNull (loadUnique cfg tag create registered load old) Before
      fun a s m => a = old ∧ Before s m := by
  apply (reads_item (k := .pointerType) trivial _).bind_eq_silent
  exact reads_pure fun s m h => ⟨rfl, h⟩

theorem reads_unique_new {address : BitVec 64} {content : Saver}
    {After : Option (Nat × α) → List (BitVec 64) → Memory H → Prop} (hTag : '"' ∉ tag)
    (h : ∀ s m, Before s m → address ∉ s ∧ m.loadedPointers address = none ∧ ∃ owned m',
      (∀ input, (old.elim create pure : Loader H (Nat × α)) (input, m) =
        .ok (owned, input, m')) ∧
      Reads (Ready cfg) content (load owned.2)
        (fun s'' m'' => s'' = address :: s ∧ m'' = m'.record address (.object owned.1))
        fun value => After (some (owned.1, value))) :
    Reads (Ready cfg) (savePointer cfg tag none address content)
      (loadUnique cfg tag create registered load old) Before After := by
  apply (reads_item (k := .pointerType) trivial _).bind_eq
  apply (reads_item (k := .address) trivial _).bind_eq
  apply Reads.of_before
  rintro s m hBefore
  obtain ⟨hSaved, hLoaded, owned, m', hOwned, hContent⟩ := h s m hBefore
  refine ⟨fun saved => saveNew cfg tag none content (address :: saved),
    loadNewUnique cfg tag create registered load old .baseClassPointer address,
    if_neg hSaved, ?_, ?_⟩
  · rintro input
    rw [getMemory_bind, hLoaded]
    rfl
  · apply Reads.update
    have hCreated : Reads (Ready cfg) (emit []) (old.elim create pure : Loader H (Nat × α))
        (fun s' m₁ => ∃ s'', (s'' = s ∧ m₁ = m) ∧ s' = address :: s'')
        fun a s' m₁ => a = owned ∧ s' = address :: s ∧ m₁ = m' := by
      apply reads_silent
      rintro s' input m₁ ⟨s'', ⟨rfl, rfl⟩, rfl⟩
      exact ⟨owned, m', hOwned input, rfl, rfl, rfl⟩
    have hName : ∀ name ∈ (none : Option Text), Faithful cfg .string name := nofun
    apply (reads_prototype hName rfl).bind_eq
    apply Reads.silent_bind_eq hCreated
    apply Reads.of_before
    rintro s' m₁ ⟨rfl, rfl⟩
    refine ⟨(emit (tracePoint cfg tag)).andThen content, ?_, rfl, ?_, ?_⟩
    · exact do
        setMemory (m₁.record address (.object owned.1))
        loadPoint cfg tag
        let value ← load owned.2
        return some (owned.1, value)
    · rintro input
      rfl
    · apply Reads.silent_bind (reads_setMemory (fun s' m₂ => s' = address :: s ∧ m₂ = _) ?_)
      · rintro _
        apply (reads_point hTag).bind
        rintro _
        rw [← andThen_emit_nil content]
        apply hContent.bind
        rintro value
        exact reads_pure fun s m h => h
      · rintro s' m₂ ⟨rfl, rfl⟩
        exact ⟨rfl, rfl⟩

end Unique

end CoSimIO.Serializer

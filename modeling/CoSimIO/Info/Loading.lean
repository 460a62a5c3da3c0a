import CoSimIO.Info.Entries
import CoSimIO.Serializer.Writability

/-! # What `load` of an `Info` reads -/

namespace CoSimIO

open Restore Restore.Writer Serializer

set_option autoImplicit false

/-- The keys are written and read back. -/
structure Info.Legible (cfg : Config) (info : Info) : Prop where
  size : info.length < 2 ^ 64
  keys : ∀ entry ∈ info, Faithful cfg .string entry.1 ∧ Writable cfg ⟨.string, entry.1⟩

/-- The value is written and read back, or the keys of the `Info` are. -/
def InfoData.Legible (cfg : Config) : InfoData → Prop
  | .base => True
  | .scalar type mData => Faithful cfg type.kind mData ∧ Writable cfg ⟨type.kind, mData⟩
  | .info inner => inner.Legible cfg

section Loading

variable {cfg : Config} {src : InfoHeap} {layout : Nat → BitVec 64} {depth next : Nat}
  {active bs : List (BitVec 64)} {s₀ : List (BitVec 64)} {m₀ : Memory InfoHeap} {ref : Nat}
  {data : InfoData} {info : Info} {saveInfo : Info → Saver}
  {loadInfo : Info → Loader InfoHeap Info}

theorem reads_setData {s : List (BitVec 64)} {m : Memory InfoHeap} :
    Reads (Ready cfg) (emit []) (setData ref data) (fun s' m' => s' = s ∧ m' = m)
      fun _ s' m' => s' = s ∧ m' = { m with heap := m.heap.set ref data } := by
  apply reads_getMemory.silent_bind_eq
  apply reads_setMemory
  rintro s' m' ⟨rfl, rfl⟩
  exact ⟨rfl, rfl⟩

/-- The class of the object is the one of the saved object. -/
def SameClass : InfoData → InfoData → Prop
  | .scalar type _, .scalar type' _ => type = type'
  | .info _, data => data = .info []
  | _, _ => False

theorem exists_prototype (cfg : Config) (h : data ≠ .base) : ∃ name prototype,
    data.registeredName = some name ∧ (InfoData.prototypes cfg).lookup name = some prototype ∧
      SameClass data prototype := by
  cases data with
  | base => exact absurd rfl h
  | scalar type mData =>
    cases type <;> exact ⟨_, _, rfl, rfl, rfl⟩
  | info inner => exact ⟨_, _, rfl, rfl, rfl⟩

theorem registeredName_plain {name : Text} (h : data.registeredName = some name) :
    PlainTag name ∧ name.length < 2 ^ 64 := by
  cases data with
  | base => nomatch h
  | scalar type mData =>
    obtain rfl := Option.some.inj h
    cases type <;> decide
  | info inner =>
    obtain rfl := Option.some.inj h
    decide

theorem reads_data {prototype : InfoData} (hLegible : data.Legible cfg)
    (hClass : SameClass data prototype) (hPrototype : m₀.heap.data ref = prototype)
    (hEmptied : Emptied active s₀ m₀) (hScalar : data.entries = [] → bs = [])
    (hInner : ∀ inner, data = .info inner → Reads (Ready cfg) (saveInfo inner) (loadInfo [])
      (fun s m => s = s₀ ∧ m = m₀)
      fun loaded s m => LoadedInfo src active bs inner s₀ m₀ loaded s m) :
    Reads (Ready cfg) (data.save cfg saveInfo) (InfoData.load cfg loadInfo ref)
      (fun s m => s = s₀ ∧ m = m₀)
      fun _ s m => ∃ loaded m', LoadedInfo src active bs data.entries s₀ m₀ loaded s m' ∧
        m = { m' with heap := m'.heap.set ref (data.withEntries loaded) } := by
  apply reads_getMemory.silent_bind_eq
  rw [hPrototype]
  cases data with
  | base => exact hClass.elim
  | scalar type mData =>
    cases prototype with
    | scalar type' old =>
      obtain rfl : type = type' := hClass
      apply (reads_point (by decide)).bind
      rintro _
      apply (reads_load (by decide) hLegible.1 _).bind_eq_silent
      apply reads_setData.conseq fun _ _ h => h
      rintro _ s m ⟨rfl, rfl⟩
      exact ⟨[], m₀, hScalar rfl ▸ loadedInfo_nil hEmptied, rfl⟩
    | _ => exact hClass.elim
  | info inner =>
    obtain rfl : prototype = .info [] := hClass
    apply (reads_point (by decide)).bind
    rintro _
    apply (reads_point (by decide)).bind
    rintro _
    rw [← andThen_emit_nil (saveInfo inner)]
    apply (hInner inner rfl).bind
    rintro loaded
    apply Reads.pointwise
    rintro s m hLoaded
    apply reads_setData.conseq fun _ _ h => h
    rintro _ s' m' ⟨rfl, rfl⟩
    exact ⟨loaded, m, hLoaded, rfl⟩

theorem newSlot_content (m : Memory InfoHeap) :
    ((m.newSlots [none]).slots m.nextSlot).content = none := by
  have hNew : ¬ m.nextSlot < m.nextSlot := Nat.lt_irrefl _
  simp only [Memory.newSlots, if_neg hNew, Nat.sub_self]
  rfl

theorem nextEntry_content (m : Memory InfoHeap) (prototype : InfoData) (a : BitVec 64) :
    ((nextEntry m prototype a).slots m.nextSlot).content = some m.heap.next := by
  simp only [nextEntry, Memory.record, Memory.assign_slots_self, Slot.content]

/-- The local pointer of the loop, then it is gone. -/
theorem reads_second (key : Text) (hBase : src.data ref ≠ .base)
    (hLegible : (src.data ref).Legible cfg) (hEmptied : Emptied active s₀ m₀)
    (hActive : layout ref ∉ active) (hScalar : (src.data ref).entries = [] → bs = [])
    (hInner : ∀ s₁ m₁, Emptied (layout ref :: active) s₁ m₁ → ∀ inner, src.data ref = .info inner →
      Reads (Ready cfg) (saveInfo inner) (loadInfo []) (fun s m => s = s₁ ∧ m = m₁)
        fun loaded s m => LoadedInfo src (layout ref :: active) bs inner s₁ m₁ loaded s m) :
    Reads (Ready cfg) (Info.saveData cfg src layout saveInfo (some ref))
      (loadPointer cfg "Second".toList (InfoData.pointee cfg loadInfo) m₀.nextSlot)
      (fun s m => s = s₀ ∧ m = m₀.newSlots [none])
      fun _ s m => LoadedInfo src active (layout ref :: bs) [(key, some ref)] s₀ m₀
        [(key, (m.slots m₀.nextSlot).content)] s (m.destroy m₀.nextSlot) := by
  by_cases hSaved : layout ref ∈ s₀
  · apply reads_pointer_known
    rintro s m ⟨rfl, rfl⟩
    obtain ⟨slot, hSlot, hLoaded, hContent⟩ := hEmptied.seen _ hSaved hActive
    have hEmpty : (m₀.newSlots [none]).deref (.slot slot) = none := by
      rw [Memory.deref, Memory.newSlots_slots_of_lt m₀ [none] hSlot, hContent]
    refine ⟨hSaved, .slot slot, hLoaded, ?_⟩
    rw [hEmpty, Memory.assign_slots_self]
    exact loadedInfo_known hEmptied hSaved bs
  · obtain ⟨name, prototype, hName, hLookup, hClass⟩ := exists_prototype cfg hBase
    obtain ⟨hPlain, hLength⟩ := registeredName_plain hName
    rw [Info.saveData, hName]
    have hCreate : ((some name).map (InfoData.pointee cfg loadInfo).registered).getD
        (some (InfoData.pointee cfg loadInfo).create) =
          some fun heap : InfoHeap => heap.add prototype :=
      congrArg (Option.map fun data (heap : InfoHeap) => heap.add data) hLookup
    have hNames : ∀ other ∈ some name, Faithful cfg .string other := by
      intro other hOther
      obtain rfl := Option.some.inj hOther
      exact faithful_of_plain hLength hPlain.1
    apply reads_pointer_new (by decide) hNames hCreate
    rintro s m ⟨rfl, rfl⟩
    refine ⟨hSaved, hEmptied.unseen _ hSaved, ?_⟩
    rintro made hMade
    obtain rfl : made = m₀.heap.add prototype := by
      rw [hMade, newSlot_content]
      rfl
    have hNext := emptied_nextEntry hEmptied prototype (layout ref)
    apply (reads_data hLegible hClass (InfoHeap.add_data_self m₀.heap prototype) hNext hScalar
      (hInner _ _ hNext)).conseq
    · rintro s' m' ⟨rfl, rfl⟩
      exact ⟨rfl, rfl⟩
    · rintro _ s' m' ⟨loaded, m'', hLoaded, rfl⟩
      have hPointer : (m''.slots m₀.nextSlot).content = some m₀.heap.next := by
        rw [hLoaded.kept.slots m₀.nextSlot (Nat.lt_succ_self _), nextEntry_content]
      dsimp only
      rw [hPointer]
      exact loadedInfo_new hSaved rfl hScalar hLoaded

theorem reads_entry (bs : List (BitVec 64)) {key : Text} (hKey : Faithful cfg .string key)
    (hBase : src.data ref ≠ .base) (hLegible : (src.data ref).Legible cfg)
    (hActive : layout ref ∉ active) (hScalar : (src.data ref).entries = [] → bs = [])
    (hInner : ∀ s₁ m₁, Emptied (layout ref :: active) s₁ m₁ → ∀ inner, src.data ref = .info inner →
      Reads (Ready cfg) (saveInfo inner) (loadInfo []) (fun s m => s = s₁ ∧ m = m₁)
        fun loaded s m => LoadedInfo src (layout ref :: active) bs inner s₁ m₁ loaded s m)
    (hEmptied : Emptied active s₀ m₀) (info : Info) :
    Reads (Ready cfg) (Info.saveEntry cfg src layout saveInfo (key, some ref))
      (Info.loadEntry cfg loadInfo info) (fun s m => s = s₀ ∧ m = m₀)
      fun loaded s m => ∃ pointer, loaded = OrderedMap.insert key pointer info ∧
        LoadedInfo src active (layout ref :: bs) [(key, some ref)] s₀ m₀ [(key, pointer)] s m := by
  apply (reads_point (by decide)).bind
  rintro _
  apply (reads_load (by decide) hKey _).bind_eq
  apply reads_getMemory.silent_bind_eq
  have hSlot : Reads (Ready cfg) (emit []) (setMemory (m₀.newSlots [none]))
      (fun s m => s = s₀ ∧ m = m₀) fun _ s m => s = s₀ ∧ m = m₀.newSlots [none] := by
    apply reads_setMemory
    rintro s m ⟨rfl, rfl⟩
    exact ⟨rfl, rfl⟩
  apply hSlot.silent_bind
  rintro _
  rw [← andThen_emit_nil (Info.saveData _ _ _ _ _)]
  apply (reads_second key hBase hLegible hEmptied hActive hScalar hInner).bind
  rintro _
  apply Reads.pointwise
  rintro s m hLoaded
  apply reads_getMemory.silent_bind_eq
  apply Reads.silent_bind (reads_setMemory (fun s' m' => s' = s ∧ m' = m.destroy m₀.nextSlot) ?_)
  · rintro _
    apply reads_pure
    rintro s' m' ⟨rfl, rfl⟩
    exact ⟨_, rfl, hLoaded⟩
  · rintro s' m' ⟨rfl, rfl⟩
    exact ⟨rfl, rfl⟩

end Loading

section Info

variable {cfg : Config} {src : InfoHeap} {layout : Nat → BitVec 64} {depth next : Nat}
  {active : List (BitVec 64)} {s₀ : List (BitVec 64)} {m₀ : Memory InfoHeap} {info : Info}

/-- What the `Info` contains is written and read back, and the addresses of its objects differ. -/
structure Info.Savable (cfg : Config) (heap : InfoHeap) (layout : Nat → BitVec 64) (depth : Nat)
    (info : Info) : Prop where
  keys : info.Legible cfg
  objects : ∀ ref ∈ info.visits heap depth, (heap.data ref).Legible cfg
  distinct : ∀ r ∈ info.visits heap depth, ∀ r' ∈ info.visits heap depth,
    layout r = layout r' → r = r'

theorem Info.visits_append (heap : InfoHeap) (depth : Nat) (info info' : Info) :
    Info.visits heap depth (info ++ info') =
      Info.visits heap depth info ++ Info.visits heap depth info' := by
  cases depth with
  | zero => rfl
  | succ depth => exact List.flatMap_append

theorem Info.visits_singleton (heap : InfoHeap) (depth : Nat) (key : Text) (ref : Nat) :
    Info.visits heap (depth + 1) [(key, some ref)] =
      ref :: Info.visits heap depth (heap.data ref).entries :=
  List.append_nil _

theorem Info.visits_subset {part : Info} (heap : InfoHeap) (depth : Nat) (h : part ⊆ info) :
    part.visits heap depth ⊆ info.visits heap depth := by
  cases depth with
  | zero => exact List.Subset.refl _
  | succ depth =>
    intro ref hRef
    obtain ⟨entry, hEntry, hMem⟩ := List.mem_flatMap.mp hRef
    exact List.mem_flatMap.mpr ⟨entry, h hEntry, hMem⟩

theorem Info.cons_visits_subset {key : Text} {ref : Nat} (heap : InfoHeap) (depth : Nat)
    (hEntry : (key, some ref) ∈ info) :
    ref :: Info.visits heap depth (heap.data ref).entries ⊆ info.visits heap (depth + 1) := by
  rw [← Info.visits_singleton heap depth key ref]
  exact Info.visits_subset heap (depth + 1) (List.cons_subset.mpr ⟨hEntry, List.nil_subset _⟩)

theorem Info.Savable.inner {key : Text} {ref : Nat} {inner : Info}
    (h : info.Savable cfg src layout (depth + 1)) (hEntry : (key, some ref) ∈ info)
    (hData : src.data ref = .info inner) : inner.Savable cfg src layout depth := by
  have hVisits := Info.cons_visits_subset src depth hEntry
  rw [hData, InfoData.entries] at hVisits
  obtain ⟨hRef, hInner⟩ := List.cons_subset.mp hVisits
  constructor
  · have hLegible := h.objects ref hRef
    rwa [hData] at hLegible
  · intro r hr
    exact h.objects r (hInner hr)
  · intro r hr r' hr'
    exact h.distinct r (hInner hr) r' (hInner hr')

/-- The first entries are loaded. -/
def LoadedBefore (src : InfoHeap) (layout : Nat → BitVec 64) (active : List (BitVec 64))
    (depth : Nat) (info : Info) (s₀ : List (BitVec 64)) (m₀ : Memory InfoHeap) (i : Nat)
    (loaded : Info) (s : List (BitVec 64)) (m : Memory InfoHeap) : Prop :=
  LoadedInfo src active ((Info.visits src depth (info.take i)).map layout) (info.take i) s₀ m₀
    loaded s m

theorem loadedBefore_zero (h : Emptied active s₀ m₀) :
    LoadedBefore src layout active depth info s₀ m₀ 0 [] s₀ m₀ := by
  rw [LoadedBefore, List.take_zero, Info.visits_nil]
  exact loadedInfo_nil h

/-- The keys come in their order, so the entry is placed after the others. -/
theorem LoadedBefore.succ {i : Nat} {key : Text} {ref : Nat} {pointer : Option Nat} {loaded : Info}
    {s s' : List (BitVec 64)} {m m' : Memory InfoHeap} (hOrdered : OrderedMap.Ordered info)
    (hEntry : info[i]? = some (key, some ref))
    (h : LoadedBefore src layout active (depth + 1) info s₀ m₀ i loaded s m)
    (h' : LoadedInfo src active
      (layout ref :: ((src.data ref).entries.visits src depth).map layout) [(key, some ref)] s m
      [(key, pointer)] s' m') :
    LoadedBefore src layout active (depth + 1) info s₀ m₀ (i + 1)
      (OrderedMap.insert key pointer loaded) s' m' := by
  have hTake : info.take (i + 1) = info.take i ++ [(key, some ref)] := by
    rw [List.take_add_one, hEntry]
    rfl
  have hLast : ∀ other ∈ loaded, other.1 < key := by
    intro other hOther
    have hKey : other.1 ∈ (info.take i).map Prod.fst := h.keys ▸ List.mem_map_of_mem hOther
    obtain ⟨earlier, hEarlier, hEq⟩ := List.mem_map.mp hKey
    have hPairs : OrderedMap.Ordered (info.take (i + 1)) := hOrdered.sublist (List.take_sublist _ _)
    rw [hTake] at hPairs
    exact hEq ▸ (List.pairwise_append.mp hPairs).2.2 earlier hEarlier _ List.mem_cons_self
  rw [OrderedMap.insert_of_last hLast, LoadedBefore, hTake, Info.visits_append, List.map_append,
    Info.visits_singleton]
  exact h.append h'

/-- The number of loads inside each other is bounded by the age of the objects. -/
theorem reads_info (hSound : src.Sound) (hFormed : info.Formed next) (hNext : next ≤ src.next)
    (hDepth : next < depth) (hSavable : info.Savable cfg src layout depth)
    (hActive : ∀ ref ∈ info.visits src depth, layout ref ∉ active)
    (hEmptied : Emptied active s₀ m₀) :
    Reads (Ready cfg) (Info.save cfg src layout depth info) (Info.load cfg depth [])
      (fun s m => s = s₀ ∧ m = m₀)
      fun loaded s m => LoadedInfo src active ((info.visits src depth).map layout) info s₀ m₀
        loaded s m := by
  induction depth generalizing info next active s₀ m₀ with
  | zero => exact absurd hDepth (Nat.not_lt_zero next)
  | succ depth ih =>
    apply (reads_point (by decide)).bind
    rintro _
    apply (reads_size hSavable.keys.size _).bind
    rintro size
    apply Reads.of_fact
    intro hSize
    apply (reads_each (LoadedBefore src layout active (depth + 1) info s₀ m₀) ?_ ?_ []).conseq
    · rintro s m ⟨rfl, rfl⟩
      exact loadedBefore_zero hEmptied
    · rintro loaded s m hLoaded
      rwa [LoadedBefore, List.take_length] at hLoaded
    · rw [List.length_range, hSize]
    · intro i entry _ hEntry _ loaded
      have hMem : entry ∈ info := List.mem_of_getElem? hEntry
      obtain ⟨ref, hRef, hPointer⟩ := hFormed.pointers entry hMem
      obtain ⟨key, pointer⟩ := entry
      obtain rfl : pointer = some ref := hPointer
      obtain ⟨hVisit, hInner⟩ := List.cons_subset.mp (Info.cons_visits_subset src depth hMem)
      apply Reads.pointwise
      intro s m hLoaded
      apply (reads_entry (((src.data ref).entries.visits src depth).map layout)
        (hSavable.keys.keys _ hMem).1 (hSound.created ref (by omega))
        (hSavable.objects ref hVisit) (hActive ref hVisit) ?_ ?_ hLoaded.emptied loaded).conseq
        fun _ _ h => h
      · rintro _ s' m' ⟨made, rfl, hMade⟩
        exact hLoaded.succ hFormed.ordered hEntry hMade
      · intro hNone
        rw [hNone, Info.visits_nil]
        rfl
      · intro s₁ m₁ hEmptied₁ inner hData
        have hEntries : (src.data ref).entries = inner := by rw [hData, InfoData.entries]
        rw [hEntries] at hInner ⊢
        refine ih (hSound.formed ref (by omega) inner hData) (by omega) (by omega)
          (hSavable.inner hMem hData) ?_ hEmptied₁
        intro r hr hSame
        have hFormedInner := hSound.formed ref (by omega) inner hData
        have hOlder := Info.visits_lt hSound hFormedInner (by omega) r hr
        rcases List.mem_cons.mp hSame with hAddress | hOther
        · have := hSavable.distinct r (hInner hr) ref hVisit hAddress
          omega
        · exact hActive r (hInner hr) hOther

end Info

end CoSimIO

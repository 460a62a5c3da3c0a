import CoSimIO.Communication.Transfers

/-! # An `Info` from one partner to the other -/

namespace CoSimIO.Communication

open Duplex LittleEndian Restore Restore.Writer Serializer

set_option autoImplicit false

section Heaps

/-- No object has changed. -/
structure Grows (heap heap' : InfoHeap) : Prop where
  next : heap.next ≤ heap'.next
  data : ∀ ref < heap.next, heap'.data ref = heap.data ref

variable {heap heap' heap'' : InfoHeap}

theorem Grows.refl (heap : InfoHeap) : Grows heap heap := ⟨Nat.le_refl _, fun _ _ => rfl⟩

theorem Grows.trans (h : Grows heap heap') (h' : Grows heap' heap'') : Grows heap heap'' where
  next := Nat.le_trans h.next h'.next
  data ref hRef := (h'.data ref (Nat.lt_of_lt_of_le hRef h.next)).trans (h.data ref hRef)

theorem grows_add (heap : InfoHeap) (data : InfoData) : Grows heap (heap.add data).2 :=
  ⟨Nat.le_succ _, fun _ hRef => InfoHeap.add_data_of_lt data hRef⟩

theorem grows_set (info : LocatedInfo) (key : Text) (type : ScalarType)
    (value : type.kind.Carrier) : Grows info.1 (set info key type value).1 :=
  grows_add _ _

theorem grows_setTiming (info : LocatedInfo) (timing : Timing) (memoryUsage : BitVec 64) :
    Grows info.1 (setTiming info timing memoryUsage).1 :=
  (((grows_set info _ _ _).trans (grows_set _ _ _ _)).trans (grows_set _ _ _ _)).trans
    (grows_set _ _ _ _)

end Heaps

section Located

variable {low : Nat} {info : LocatedInfo} {entries : List (Text × InfoValue)} {key : Text}
  {timing : Timing} {memoryUsage : BitVec 64}

/-- The info contains the values, and all objects from `low` on refer to those only. -/
structure Holds (low : Nat) (info : LocatedInfo) (entries : List (Text × InfoValue)) : Prop where
  low_le : low ≤ info.1.next
  region : info.1.Region low info.1.next
  within : info.2.Within low info.1.next
  denotes : DenotesInfo info.1 entries info.2

theorem holds_empty (heap : InfoHeap) : Holds heap.next (heap, []) [] :=
  ⟨Nat.le_refl _, fun _ hLow hHigh => absurd hHigh (Nat.not_lt.mpr hLow), nofun, rfl⟩

/-- A new scalar changes nothing for an info that does not get it. -/
theorem Holds.add (h : Holds low info entries) (type : ScalarType) (value : type.kind.Carrier) :
    Holds low ((info.1.add (.scalar type value)).2, info.2) entries := by
  have hOld : ∀ ref, low ≤ ref → ref < info.1.next →
      (info.1.add (.scalar type value)).2.data ref = info.1.data ref :=
    fun ref _ hRef => InfoHeap.add_data_of_lt _ hRef
  constructor
  · exact Nat.le_succ_of_le h.low_le
  · intro ref hLow hHigh inner hInner entry hEntry r hr
    rcases Nat.lt_succ_iff_lt_or_eq.mp hHigh with hLt | rfl
    · rw [hOld ref hLow hLt] at hInner
      obtain ⟨hLower, hUpper⟩ := h.region ref hLow hLt inner hInner entry hEntry r hr
      exact ⟨hLower, Nat.lt_succ_of_lt hUpper⟩
    · rw [InfoHeap.add_data_self] at hInner
      cases hInner
  · intro entry hEntry r hr
    obtain ⟨hLower, hUpper⟩ := h.within entry hEntry r hr
    exact ⟨hLower, Nat.lt_succ_of_lt hUpper⟩
  · exact (denotesInfo_congr h.region hOld h.within).mpr h.denotes

theorem Holds.set (h : Holds low info entries) (key : Text) (type : ScalarType)
    (value : type.kind.Carrier) :
    Holds low (set info key type value) (OrderedMap.set key (.scalar type value) entries) := by
  have hAdded := h.add type value
  refine ⟨hAdded.low_le, hAdded.region, ?_, ?_⟩
  · intro entry hEntry r hr
    rcases OrderedMap.eq_or_mem_of_mem_set hEntry with rfl | hOld
    · obtain rfl := Option.some.inj hr
      exact ⟨h.low_le, Nat.lt_succ_self _⟩
    · exact hAdded.within entry hOld r hr
  · have hNew : (info.1.add (.scalar type value)).2.data info.1.next = .scalar type value :=
      InfoHeap.add_data_self _ _
    exact denotesInfo_set hAdded.denotes hNew

/-- The values when the times and the size are set -/
def timed (entries : List (Text × InfoValue)) (timing : Timing) (memoryUsage : BitVec 64) :
    List (Text × InfoValue) :=
  let entries := OrderedMap.set elapsedTimeKey (.scalar .double timing.elapsedTime) entries
  let entries := OrderedMap.set elapsedTimeIpcKey (.scalar .double timing.ipc) entries
  let entries :=
    OrderedMap.set elapsedTimeSerializerKey (.scalar .double timing.serializer) entries
  OrderedMap.set memoryUsageIpcKey (.scalar .sizeT memoryUsage) entries

theorem Holds.setTiming (h : Holds low info entries) (timing : Timing) (memoryUsage : BitVec 64) :
    Holds low (setTiming info timing memoryUsage) (timed entries timing memoryUsage) :=
  (((h.set _ _ _).set _ _ _).set _ _ _).set _ _ _

/-- Another info gets the times and the size. -/
theorem Holds.keeps {inner : Info} (h : Holds low (info.1, inner) entries) (timing : Timing)
    (memoryUsage : BitVec 64) :
    Holds low ((Communication.setTiming info timing memoryUsage).1, inner) entries :=
  (((h.add _ _).add _ _).add _ _).add _ _

theorem get_of_denotes {type : ScalarType} {value : type.kind.Carrier}
    (h : DenotesInfo info.1 entries info.2)
    (hFind : OrderedMap.find entries key = some (.scalar type value)) :
    get info type key = .ok value := by
  rw [get, get_scalar h hFind]
  rfl

theorem has_of_denotes (h : DenotesInfo info.1 entries info.2) :
    has info key = (OrderedMap.find entries key).isSome := by
  cases hFind : OrderedMap.find entries key with
  | none =>
    rw [has, find_none_of_denotesInfo h hFind]
    rfl
  | some value =>
    obtain ⟨ref, hRef, -⟩ := find_of_denotesInfo h hFind
    rw [has, hRef]
    rfl

variable (entries timing memoryUsage)

theorem find_timed_elapsedTime : OrderedMap.find (timed entries timing memoryUsage)
    elapsedTimeKey = some (.scalar .double timing.elapsedTime) := by
  rw [timed, OrderedMap.find_set_of_ne (by decide), OrderedMap.find_set_of_ne (by decide),
    OrderedMap.find_set_of_ne (by decide), OrderedMap.find_set_self]

theorem find_timed_ipc : OrderedMap.find (timed entries timing memoryUsage)
    elapsedTimeIpcKey = some (.scalar .double timing.ipc) := by
  rw [timed, OrderedMap.find_set_of_ne (by decide), OrderedMap.find_set_of_ne (by decide),
    OrderedMap.find_set_self]

theorem find_timed_serializer : OrderedMap.find (timed entries timing memoryUsage)
    elapsedTimeSerializerKey = some (.scalar .double timing.serializer) := by
  rw [timed, OrderedMap.find_set_of_ne (by decide), OrderedMap.find_set_self]

theorem find_timed_memoryUsage : OrderedMap.find (timed entries timing memoryUsage)
    memoryUsageIpcKey = some (.scalar .sizeT memoryUsage) := by
  rw [timed, OrderedMap.find_set_self]

/-- The keys that `ImportInfo` overwrites -/
def timingKeys : List Text :=
  [elapsedTimeKey, elapsedTimeIpcKey, elapsedTimeSerializerKey, memoryUsageIpcKey]

theorem find_timed_of_notMem (h : key ∉ timingKeys) :
    OrderedMap.find (timed entries timing memoryUsage) key = OrderedMap.find entries key := by
  simp only [timingKeys, List.mem_cons, List.not_mem_nil, or_false, not_or] at h
  obtain ⟨hElapsed, hIpc, hSerializer, hMemory⟩ := h
  rw [timed, OrderedMap.find_set_of_ne hMemory, OrderedMap.find_set_of_ne hSerializer,
    OrderedMap.find_set_of_ne hIpc, OrderedMap.find_set_of_ne hElapsed]

end Located

section Checks

variable {iInfo oInfo : LocatedInfo} {entries : List (Text × InfoValue)} {heap : InfoHeap}
  {timing : Timing} {memoryUsage : BitVec 64}

/-- The argument of a call has an identifier that `CheckEntry` accepts. -/
structure Identified (iInfo : LocatedInfo) (identifier : Text) (ref : Nat) : Prop where
  lt : ref < iInfo.1.next
  find : OrderedMap.find iInfo.2 "identifier".toList = some (some ref)
  data : iInfo.1.data ref = .scalar .string identifier
  valid : Utilities.checkEntry identifier "identifier".toList = .ok ()

theorem identified_set (heap : InfoHeap) {identifier : Text}
    (h : Utilities.checkEntry identifier "identifier".toList = .ok ()) :
    Identified (set (heap, []) "identifier".toList .string identifier) identifier heap.next where
  lt := Nat.lt_succ_self _
  find := rfl
  data := InfoHeap.add_data_self _ _
  valid := h

theorem Identified.grows {identifier : Text} {ref : Nat} (h : Identified iInfo identifier ref)
    (hHeap : Grows iInfo.1 heap) : Identified (heap, iInfo.2) identifier ref :=
  ⟨Nat.lt_of_lt_of_le h.lt hHeap.next, h.find, (hHeap.data ref h.lt).trans h.data, h.valid⟩

theorem Identified.get {identifier : Text} {ref : Nat} (h : Identified iInfo identifier ref) :
    get iInfo .string "identifier".toList = .ok identifier := by
  have hSame : (InfoData.scalar .string identifier).as (.scalar .string) = some identifier :=
    rfl
  simp only [Communication.get, Info.get, h.find, Info.getExistingKey, h.data, hSame]
  rfl

theorem Identified.checkConnection {identifier : Text} {ref : Nat}
    (h : Identified iInfo identifier ref) : checkConnection true iInfo = .ok () := by
  have hHas : has iInfo "identifier".toList = true := by
    rw [has, h.find]
    rfl
  rw [Communication.checkConnection, hHas, h.get]
  change throwText (Utilities.checkEntry identifier "identifier".toList) = .ok ()
  rw [h.valid]
  rfl

/-- What a call returns, and what it leaves in the heap -/
structure Returns (heap : InfoHeap) (info : LocatedInfo) (entries : List (Text × InfoValue)) :
    Prop where
  grows : Grows heap info.1
  denotes : DenotesInfo info.1 entries info.2

/-- The info that is returned passes the checks. -/
structure Timed (heap : InfoHeap) (oInfo : LocatedInfo) : Prop where
  grows : Grows heap oInfo.1
  postChecks : postChecks oInfo = .ok ()
  elapsedTime : ∃ time, get oInfo .double elapsedTimeKey = .ok time

theorem Returns.timed_of_find (h : Returns heap oInfo entries) {time : Double}
    {memoryUsage : BitVec 64}
    (hTime : OrderedMap.find entries elapsedTimeKey = some (.scalar .double time))
    (hMemory : OrderedMap.find entries memoryUsageIpcKey = some (.scalar .sizeT memoryUsage)) :
    Timed heap oInfo := by
  refine ⟨h.grows, ?_, time, get_of_denotes h.denotes hTime⟩
  rw [postChecks, has_of_denotes h.denotes, has_of_denotes h.denotes, hTime, hMemory]
  rfl

theorem Returns.timed (h : Returns heap oInfo (Communication.timed entries timing memoryUsage)) :
    Timed heap oInfo :=
  h.timed_of_find (find_timed_elapsedTime _ _ _) (find_timed_memoryUsage _ _ _)

theorem Timed.printElapsedTime {identifier : Text} {ref : Nat}
    (hIdentified : Identified iInfo identifier ref) (h : Timed iInfo.1 oInfo) :
    printElapsedTime (oInfo.1, iInfo.2) oInfo = .ok () := by
  obtain ⟨time, hTime⟩ := h.elapsedTime
  rw [Communication.printElapsedTime, (hIdentified.grows h.grows).get, hTime]
  rfl

end Checks

section Dialogs

variable {E α α' γ γ' : Type} {p : Task E α} {q : Task E γ} {events events' later later' : List E}
  {x : α} {y : γ} {x' : Except CallError α'} {y' : Except CallError γ'}

theorem dialog_bind (h : Dialog p q events events' (.ok x) (.ok y)) {f : α → Task E α'}
    {g : γ → Task E γ'} (h' : Dialog (f x) (g y) later later' x' y') :
    Dialog (p >>= f : Task E α') (q >>= g : Task E γ') (events ++ later) (events' ++ later') x' y' :=
  h.bind (f := ExceptT.bindCont f) (g := ExceptT.bindCont g) h'

theorem dialog_bind_right {z z' : Except CallError α} (h : Dialog p q events events' z (.ok y))
    {g : γ → Task E γ'} (h' : Dialog (.ended z) (g y) later later' z' y') :
    Dialog p (q >>= g : Task E γ') (events ++ later) (events' ++ later') z' y' :=
  h.bind_right (g := ExceptT.bindCont g) h'

theorem dialog_concluding {z : Except CallError α} {w : Except CallError γ}
    (h : Dialog p q events events' z w) (event : Except CallError α → E)
    (event' : Except CallError γ → E) :
    Dialog (concluding p event) (concluding q event') (events ++ [event z]) (events' ++ [event' w])
      () () :=
  h.bind ((Dialog.report_left (event z) ()).bind_right
    (g := fun _ => .report (event' w) (.ended ())) (.report_right () (event' w)))

variable {cfg : Config} {items : List Item} {data : Text} {timing timing' : Timing}
  {heap heap' heap'' : InfoHeap}

/-- The serializer has written the string, of which every character is one byte. -/
structure Sent (cfg : Config) (items : List Item) (data : Text) : Prop where
  written : writeAll cfg items = .ok data
  bytes : ∀ c ∈ data, c.toNat < 256
  size_lt : data.length < 2 ^ 64

theorem sent_of_toOption (h : (writeAll cfg items).toOption = some data)
    (hBytes : (data.all fun c => c.toNat < 256) = true) (hSize : data.length < 2 ^ 64) :
    Sent cfg items data := by
  refine ⟨?_, fun c hc => of_decide_eq_true (List.all_eq_true.mp hBytes c hc), hSize⟩
  cases hWrite : writeAll cfg items with
  | error message =>
    rw [hWrite] at h
    cases h
  | ok text =>
    rw [hWrite] at h
    exact congrArg Except.ok (Option.some.inj h)

theorem bytesText_map_charByte (h : ∀ c ∈ data, c.toNat < 256) :
    bytesText (data.map charByte) = data := by
  induction data with
  | nil => rfl
  | cons c data ih =>
    obtain ⟨hFirst, hLater⟩ := List.forall_mem_cons.mp h
    have hChar : Char.ofNat (charByte c).toNat = c := by
      have hByte : (charByte c).toNat = c.toNat := Nat.mod_eq_of_lt hFirst
      rw [hByte, Char.ofNat_toNat]
    have hRest := ih hLater
    rw [bytesText] at hRest ⊢
    rw [List.map_cons, List.map_cons, hRest, hChar]

theorem dialog_sendString (hBytes : ∀ c ∈ data, c.toNat < 256) (hSize : data.length < 2 ^ 64) :
    Dialog (E := E) (sendString data) receiveString [] [] (.ok ()) (.ok data) := by
  have hCountable : (BaseSocketCommunication.Message.string (data.map charByte)).Countable := by
    rw [BaseSocketCommunication.Message.Countable, BaseSocketCommunication.Message.bytes,
      List.length_map]
    exact hSize
  have hText := (BaseSocketCommunication.dialog_sendString (E := E) hCountable []).bind_right
    (g := fun bytes => .ended (bytesText bytes)) (.pure () (bytesText (data.map charByte)))
  have hEnd := Dialog.pure (β := UInt8) (E := E) (Except.ok (ε := CallError) ())
    (Except.ok (ε := CallError) (bytesText (data.map charByte)))
  have hAll := hText.bind (f := fun u => .ended (Except.ok (ε := CallError) u))
    (g := fun text => .ended (Except.ok (ε := CallError) text)) hEnd
  rwa [bytesText_map_charByte hBytes] at hAll

/-- Whatever the object is, its items get to the partner. -/
theorem dialog_object (h : Sent cfg items data) (timing timing' : Timing) (heap : InfoHeap)
    {load : Text → InfoHeap → Except CallError (InfoHeap × α)} {object : α}
    (hLoad : load data heap' = .ok (heap'', object)) :
    Dialog (E := E) (sendObjectWithStreamSerializer cfg timing heap items)
      (receiveObjectWithStreamSerializer timing' heap' load) [] []
      (.ok (setTiming (heap, []) timing (BitVec.ofNat 64 data.length)))
      (.ok (setTiming (heap'', []) timing' (BitVec.ofNat 64 data.length), object)) := by
  rw [sendObjectWithStreamSerializer, h.written, receiveObjectWithStreamSerializer]
  refine dialog_bind (dialog_sendString h.bytes h.size_lt) (?_ : Dialog _ _ [] [] _ _)
  rw [hLoad]
  exact .pure _ _

/-- The checks around the two calls -/
theorem dialog_checked {iInfo iInfo' : LocatedInfo} {name name' : Text} {ref ref' : Nat}
    (hName : Identified iInfo name ref) (hName' : Identified iInfo' name' ref')
    {oInfo : α → LocatedInfo} {oInfo' : γ → LocatedInfo} (hTimed : Timed iInfo.1 (oInfo x))
    (hTimed' : Timed iInfo'.1 (oInfo' y)) (h : Dialog p q [] [] (.ok x) (.ok y)) :
    Dialog (E := E) (checked true iInfo oInfo p) (checked true iInfo' oInfo' q) [] [] (.ok x)
      (.ok y) := by
  rw [checked, checked, hName.checkConnection, hName'.checkConnection]
  refine dialog_bind h (?_ : Dialog _ _ [] [] _ _)
  rw [hTimed.postChecks, hTimed'.postChecks, hTimed.printElapsedTime hName,
    hTimed'.printElapsedTime hName']
  exact .pure _ _

end Dialogs

section Infos

variable {E : Type} {cfg : Config} {layout : Nat → BitVec 64} {depth : Nat}
  {iInfo other : LocatedInfo} {entries : List (Text × InfoValue)} {data : Text}
  {timing timing' : Timing}

/-- The info is one of a program, which the serializer can save and load. -/
structure Exportable (cfg : Config) (layout : Nat → BitVec 64) (depth : Nat)
    (iInfo : LocatedInfo) (entries : List (Text × InfoValue)) : Prop where
  sound : iInfo.1.Sound
  formed : iInfo.2.Formed iInfo.1.next
  next_lt : iInfo.1.next < depth
  savable : iInfo.2.Savable cfg iInfo.1 layout depth
  unshared : iInfo.2.Unshared iInfo.1 depth
  denotes : DenotesInfo iInfo.1 entries iInfo.2

theorem loadInfo_of_sent (h : Exportable cfg layout depth iInfo entries)
    (hSent : Sent cfg (infoItems cfg layout depth iInfo) data) (heap : InfoHeap) :
    ∃ loaded, loadInfo cfg depth data heap = .ok loaded ∧ Grows heap loaded.1 ∧
      Holds heap.next loaded entries := by
  have hReads : Reads (Ready cfg)
      ((emit (tracePoint cfg "object".toList)).andThen (Info.save cfg iInfo.1 layout depth iInfo.2))
      (do
        loadPoint cfg "object".toList
        Info.load cfg depth [] : Loader InfoHeap Info)
      (fun s m => s = [] ∧ m = startMemory heap) fun loaded s m =>
        LoadedInfo iInfo.1 [] ((iInfo.2.visits iInfo.1 depth).map layout) iInfo.2 []
          (startMemory heap) loaded s m := by
    apply (reads_point (by decide)).bind
    rintro _
    exact reads_info h.sound h.formed (Nat.le_refl _) h.next_lt h.savable
      (fun _ _ => List.not_mem_nil) (emptied_start [] heap)
  obtain ⟨loaded, input, m, hRun, -, hLoaded⟩ :=
    hReads [] (streamSerializer data) (startMemory heap) []
      (by rw [List.append_nil]; exact ready_streamSerializer hSent.written) ⟨rfl, rfl⟩
  have hFresh := (fresh_addresses_iff h.savable.distinct).mpr h.unshared
  refine ⟨(m.heap, loaded), ?_, ⟨hLoaded.kept.next, hLoaded.kept.data⟩, hLoaded.kept.next,
    hLoaded.region, hLoaded.within, (hLoaded.fresh hFresh).2 entries h.denotes⟩
  rw [loadInfo, hRun]
  rfl

theorem dialog_infoImpl (h : Exportable cfg layout depth iInfo entries)
    (hSent : Sent cfg (infoItems cfg layout depth iInfo) data) (timing timing' : Timing)
    (heap : InfoHeap) :
    ∃ imported, Dialog (E := E) (exportInfoImpl cfg timing layout depth iInfo)
        (importInfoImpl cfg timing' depth heap) [] []
        (.ok (setTiming (iInfo.1, []) timing (BitVec.ofNat 64 data.length))) (.ok imported) ∧
      Grows heap imported.1 ∧
      Holds heap.next imported (timed entries timing' (BitVec.ofNat 64 data.length)) := by
  obtain ⟨loaded, hLoad, hGrows, hLoaded⟩ := loadInfo_of_sent h hSent heap
  have hThrow : throwText (loadInfo cfg depth data heap) = .ok loaded := by
    rw [hLoad]
    rfl
  have hRecInfo := ((holds_empty loaded.1).setTiming timing' (BitVec.ofNat 64 data.length)).denotes
  have hElapsedTime := get_of_denotes hRecInfo (find_timed_elapsedTime _ _ _)
  have hIpc := get_of_denotes hRecInfo (find_timed_ipc _ _ _)
  have hSerializer := get_of_denotes hRecInfo (find_timed_serializer _ _ _)
  have hMemoryUsage := get_of_denotes hRecInfo (find_timed_memoryUsage _ _ _)
  have hImported : Holds heap.next (loaded.1, loaded.2) entries := hLoaded
  refine ⟨setTiming ((setTiming (loaded.1, []) timing' (BitVec.ofNat 64 data.length)).1, loaded.2)
      timing' (BitVec.ofNat 64 data.length),
    dialog_bind_right (dialog_object hSent timing timing' iInfo.1 hThrow)
      (?_ : Dialog _ _ [] [] _ _), ?_, ?_⟩
  · dsimp only
    rw [hElapsedTime, hIpc, hSerializer, hMemoryUsage]
    exact .pure _ _
  · exact hGrows.trans ((grows_setTiming (loaded.1, []) _ _).trans (grows_setTiming _ _ _))
  · exact (hImported.keeps _ _).setTiming _ _

theorem dialog_info (h : Exportable cfg layout depth iInfo entries) {name name' : Text}
    {ref ref' : Nat} (hName : Identified iInfo name ref) (hName' : Identified other name' ref')
    (hSent : Sent cfg (infoItems cfg layout depth iInfo) data) (timing timing' : Timing) :
    ∃ exported imported, Dialog (E := E) (exportInfo cfg timing true layout depth iInfo)
        (importInfo cfg timing' true depth other) [] [] (.ok exported) (.ok imported) ∧
      Returns iInfo.1 exported (timed [] timing (BitVec.ofNat 64 data.length)) ∧
      Returns other.1 imported (timed entries timing' (BitVec.ofNat 64 data.length)) := by
  obtain ⟨imported, hDialog, hGrows, hImported⟩ :=
    dialog_infoImpl (E := E) h hSent timing timing' other.1
  have hExported := ((holds_empty iInfo.1).setTiming timing (BitVec.ofNat 64 data.length)).denotes
  have hReturns : Returns iInfo.1 _ _ := ⟨grows_setTiming (iInfo.1, []) _ _, hExported⟩
  have hReturns' : Returns other.1 imported _ := ⟨hGrows, hImported.denotes⟩
  exact ⟨_, _, dialog_checked hName hName' hReturns.timed hReturns'.timed hDialog, hReturns,
    hReturns'⟩

end Infos

end CoSimIO.Communication

import CoSimIO.Serializer.Formats
import CoSimIO.Serializer.PlainValues

/-! # The connection infos of `SocketCommunication` as a string

The text that a serializer writes contains quotes and newlines, which a string in another
serializer cannot have in the text modes.
-/

namespace CoSimIO

open Serializer

set_option autoImplicit false

structure ConnectionInfo where
  PortNumber : BitVec 32
  IpAddress : Text
deriving DecidableEq

namespace ConnectionInfo

/-- `save` and `load` -/
def shape : Shape :=
  .object (.cons "PortNumber".toList (.scalar (.integer .int))
    (.cons "IpAddress".toList (.scalar .string) .nil))

def members (info : ConnectionInfo) : shape.Carrier := (info.PortNumber, info.IpAddress, ())

def ofMembers (members : shape.Carrier) : ConnectionInfo := ⟨members.1, members.2.1⟩

/-- The addresses have no character that the text modes or the preparation use, and no string is
longer than what its size counts. -/
structure Clean (info : ConnectionInfo) : Prop where
  characters : ∀ c ∈ ['"', '\n', '<', '>'], c ∉ info.IpAddress
  length : info.IpAddress.length < 2 ^ 64

end ConnectionInfo

namespace SocketCommunication

/-- `std::replace` -/
def replace (s : Text) (old new : Char) : Text := s.map fun c => if c = old then new else c

def disallowedError (ch : Char) : Text :=
  "String contains a character that is not allowed: \"".toList ++ ch :: "\"!\n".toList

def prepareStringForAsciiSerialization (s : Text) : Except Text Text :=
  if '<' ∈ s then .error (disallowedError '<')
  else if '>' ∈ s then .error (disallowedError '>')
  else .ok (replace (replace s '\n' '<') '"' '>')

def revertAsciiSerialization (s : Text) : Text := replace (replace s '<' '\n') '>' '"'

variable (cfg : Config) (floats : FloatText) (place : Placement)

/-- The part of `PrepareConnection` on rank 0 that gives `mSerializedConnectionInfo` -/
def prepareConnection (connInfos : List ConnectionInfo) : Except Text Text := do
  let serialized ← saveValues cfg floats
    [⟨"conn_info".toList, .vector ConnectionInfo.shape, connInfos.map ConnectionInfo.members⟩]
  if cfg.trace ≠ .noTrace then prepareStringForAsciiSerialization serialized
  else return serialized

/-- The part of `GetConnectionInformation` that loads the connection infos -/
def loadConnectionInfos (serializedInfo : Text) : Except Text (List ConnectionInfo) := do
  let data := if cfg.trace ≠ .noTrace then revertAsciiSerialization serializedInfo
    else serializedInfo
  let loaded ← Shape.load cfg floats place (.vector ConnectionInfo.shape) "conn_info".toList []
    (streamSerializer data)
  return loaded.1.map ConnectionInfo.ofMembers

section Replacing

variable {s : Text} {old new c : Char}

theorem mem_replace : c ∈ replace s old new ↔ (c ∈ s ∧ c ≠ old) ∨ (c = new ∧ old ∈ s) := by
  rw [replace, List.mem_map]
  constructor
  · rintro ⟨d, hd, rfl⟩
    split
    · next hOld => exact .inr ⟨rfl, hOld ▸ hd⟩
    · next hOld => exact .inl ⟨hd, hOld⟩
  · rintro (⟨hc, hOld⟩ | ⟨rfl, hOld⟩)
    · exact ⟨c, hc, if_neg hOld⟩
    · exact ⟨old, hOld, if_pos rfl⟩

/-- A character that is new in the string is replaced by the one it was put for. -/
theorem replace_replace (h : new ∉ s) : replace (replace s old new) new old = s := by
  rw [replace, replace, List.map_map]
  refine (List.map_congr_left ?_).trans (List.map_id s)
  intro c hc
  have hNew : c ≠ new := fun hEq => h (hEq ▸ hc)
  rw [Function.comp_apply, id_eq]
  by_cases hOld : c = old
  · rw [if_pos hOld, if_pos rfl, hOld]
  · rw [if_neg hOld, if_neg hNew]

theorem replace_comm {old' new' : Char} (hOld : old ≠ old') (hNew : new ≠ old')
    (hNew' : new' ≠ old) :
    replace (replace s old new) old' new' = replace (replace s old' new') old new := by
  rw [replace, replace, replace, replace, List.map_map, List.map_map]
  apply List.map_congr_left
  intro c _
  rw [Function.comp_apply, Function.comp_apply]
  by_cases hc : c = old
  · obtain rfl := hc
    simp only [if_true, if_neg hNew, if_neg hOld]
  · by_cases hc' : c = old'
    · simp only [if_neg hc, if_pos hc', if_neg hNew']
    · simp only [if_neg hc, if_neg hc']

theorem prepare_eq (hLess : '<' ∉ s) (hGreater : '>' ∉ s) :
    prepareStringForAsciiSerialization s = .ok (replace (replace s '\n' '<') '"' '>') := by
  rw [prepareStringForAsciiSerialization, if_neg hLess, if_neg hGreater]

/-- No quote and no newline is left. -/
theorem prepared_plain {prepared : Text}
    (h : prepareStringForAsciiSerialization s = .ok prepared) :
    '"' ∉ prepared ∧ '\n' ∉ prepared := by
  rw [prepareStringForAsciiSerialization] at h
  split at h
  · nomatch h
  split at h
  · nomatch h
  obtain rfl := Except.ok.inj h
  constructor
  · intro hQuote
    rcases mem_replace.mp hQuote with ⟨-, hNe⟩ | ⟨hEq, -⟩
    · exact hNe rfl
    · nomatch hEq
  · intro hNewline
    rcases mem_replace.mp hNewline with ⟨hLeft, -⟩ | ⟨hEq, -⟩
    · rcases mem_replace.mp hLeft with ⟨-, hNe⟩ | ⟨hEq, -⟩
      · exact hNe rfl
      · nomatch hEq
    · nomatch hEq

theorem revert_prepare {prepared : Text}
    (h : prepareStringForAsciiSerialization s = .ok prepared) :
    revertAsciiSerialization prepared = s := by
  rw [prepareStringForAsciiSerialization] at h
  split at h
  · nomatch h
  next hLess =>
  split at h
  · nomatch h
  next hGreater =>
  obtain rfl := Except.ok.inj h
  have hQuoted : '<' ∉ replace s '"' '>' := by
    intro hMem
    rcases mem_replace.mp hMem with ⟨hOld, -⟩ | ⟨hEq, -⟩
    · exact hLess hOld
    · nomatch hEq
  have hSwap : replace (replace s '\n' '<') '"' '>' = replace (replace s '"' '>') '\n' '<' :=
    replace_comm (by decide) (by decide) (by decide)
  calc revertAsciiSerialization (replace (replace s '\n' '<') '"' '>')
    _ = replace (replace (replace (replace s '"' '>') '\n' '<') '<' '\n') '>' '"' := by
      rw [revertAsciiSerialization, hSwap]
    _ = replace (replace s '"' '>') '>' '"' := by rw [replace_replace hQuoted]
    _ = s := replace_replace hGreater

end Replacing

section Texts

variable {cfg : Config} {floats : FloatText} {item : Item} {c : Char} {items : List Item}
  {connInfos : List ConnectionInfo}

/-- An integer, or a string without the characters that the preparation uses. -/
inductive Plain : Item → Prop
  | integer (t : IntegerType) (v : t.Carrier) : Plain ⟨.integer t, v⟩
  | string (v : Text) (h : ∀ c ∈ ['"', '\n', '<', '>'], c ∉ v) : Plain ⟨.string, v⟩

theorem Plain.writable (h : Plain item) : Writable cfg item := by
  cases h with
  | integer t v => exact writable_of_kind nofun
  | string v h => exact writable_string fun _ _ => ⟨h '"' (by decide), h '\n' (by decide)⟩

theorem Plain.not_mem (h : Plain item) (hText : cfg.binary = false) {text : Text}
    (hWrite : write cfg item.kind item.value = .ok text) (hc : c = '<' ∨ c = '>') : c ∉ text := by
  have hMode : ¬ cfg.binary = true := by simp [hText]
  have hNewline : c ≠ '\n' := by rcases hc with rfl | rfl <;> decide
  rw [write, if_neg hMode] at hWrite
  cases h with
  | integer t v =>
    obtain rfl := Except.ok.inj hWrite
    intro hMem
    rcases List.mem_append.mp hMem with hDigits | hEnd
    · rcases mem_integerText hDigits with hMinus | hDigit
      · rcases hc with rfl | rfl <;> exact absurd hMinus (by decide)
      · rcases hc with rfl | rfl <;> revert hDigit <;> decide
    · exact hNewline (List.mem_singleton.mp hEnd)
  | string v h =>
    have hQuote : c ≠ '"' := by rcases hc with rfl | rfl <;> decide
    have hIn : c ∈ ['"', '\n', '<', '>'] := by rcases hc with rfl | rfl <;> decide
    rw [writeText] at hWrite
    split at hWrite
    · cases hWrite
    split at hWrite
    · cases hWrite
    obtain rfl := Except.ok.inj hWrite
    rw [List.cons_append, List.mem_cons, List.mem_append]
    rintro (hOpen | hContent | hClose)
    · exact hQuote hOpen
    · exact h c hIn hContent
    · rcases List.mem_cons.mp hClose with hEq | hEnd
      · exact hQuote hEq
      · exact hNewline (List.mem_singleton.mp hEnd)

theorem not_mem_writeAll (h : ∀ item ∈ items, Plain item) (hText : cfg.binary = false) {text : Text}
    (hWrite : writeAll cfg items = .ok text) (hc : c = '<' ∨ c = '>') : c ∉ text := by
  induction items generalizing text with
  | nil =>
    obtain rfl := Except.ok.inj hWrite
    exact List.not_mem_nil
  | cons item items ih =>
    obtain ⟨first, rest, hFirst, hRest, rfl⟩ := writeAll_cons_ok hWrite
    rw [List.mem_append, not_or]
    exact ⟨(h item List.mem_cons_self).not_mem hText hFirst hc,
      ih (fun other hOther => h other (List.mem_cons_of_mem item hOther)) hRest⟩

theorem clean_of_all {tag : Text}
    (h : ['"', '\n', '<', '>'].all (fun c => decide (c ∉ tag)) = true) :
    ∀ c ∈ ['"', '\n', '<', '>'], c ∉ tag :=
  fun c hc => of_decide_eq_true (List.all_eq_true.mp h c hc)

theorem plain_tracePoint {tag : Text} (h : ∀ c ∈ ['"', '\n', '<', '>'], c ∉ tag) :
    ∀ item ∈ tracePoint cfg tag, Plain item := by
  intro item hItem
  rw [tracePoint] at hItem
  split at hItem
  · obtain rfl := List.mem_singleton.mp hItem
    exact .string tag h
  · cases hItem

theorem plain_save {tag : Text} (h : ∀ c ∈ ['"', '\n', '<', '>'], c ∉ tag) (hItem : Plain item) :
    ∀ other ∈ Serializer.save cfg tag item, Plain other := by
  intro other hOther
  rcases List.mem_append.mp hOther with hTag | hEnd
  · exact plain_tracePoint h other hTag
  · obtain rfl := List.mem_singleton.mp hEnd
    exact hItem

theorem plain_connInfos (cfg : Config) (floats : FloatText)
    (h : ∀ info ∈ connInfos, ∀ c ∈ ['"', '\n', '<', '>'], c ∉ info.IpAddress) :
    ∀ item ∈ (Shape.vector ConnectionInfo.shape).save cfg floats "conn_info".toList
      (connInfos.map ConnectionInfo.members), Plain item := by
  have hInfo : ∀ info ∈ connInfos, ∀ item ∈ ConnectionInfo.shape.save cfg floats "E".toList
      info.members, Plain item := by
    intro info hMem item hItem
    rcases List.mem_append.mp hItem with hTag | hMembers
    · exact plain_tracePoint (clean_of_all rfl) item hTag
    rcases List.mem_append.mp hMembers with hPort | hAddress
    · exact plain_save (clean_of_all rfl) (.integer .int info.PortNumber) item hPort
    rcases List.mem_append.mp hAddress with hAddress | hNone
    · exact plain_save (clean_of_all rfl) (.string info.IpAddress (h info hMem)) item hAddress
    · nomatch hNone
  intro item hItem
  rcases List.mem_append.mp hItem with hTag | hRest
  · exact plain_tracePoint (clean_of_all rfl) item hTag
  rcases List.mem_append.mp hRest with hSize | hElements
  · exact plain_save (clean_of_all rfl) (.integer .unsignedLong _) item hSize
  · obtain ⟨members, hMembers, hElement⟩ := List.mem_flatMap.mp hElements
    obtain ⟨info, hMem, rfl⟩ := List.mem_map.mp hMembers
    exact hInfo info hMem item hElement

end Texts

section RoundTrip

variable {cfg cfg' : Config} {floats : FloatText} {place : Placement}
  {connInfos : List ConnectionInfo}

theorem ofMembers_members (connInfos : List ConnectionInfo) :
    (connInfos.map ConnectionInfo.members).map ConnectionInfo.ofMembers = connInfos := by
  rw [List.map_map]
  exact List.map_id connInfos

theorem trace_ne_iff : cfg.trace ≠ .noTrace ↔ cfg.binary = false := by
  rw [Config.binary, decide_eq_false_iff_not]

theorem restores_connInfos (cfg : Config) (floats : FloatText) (place : Placement)
    (hSize : connInfos.length < 2 ^ 64)
    (hClean : ∀ info ∈ connInfos, info.Clean) (old : List ConnectionInfo.shape.Carrier) :
    Restores cfg
      (Shape.load cfg floats place (.vector ConnectionInfo.shape) "conn_info".toList old)
      (Shape.save cfg floats (.vector ConnectionInfo.shape) "conn_info".toList
        (connInfos.map ConnectionInfo.members)) (connInfos.map ConnectionInfo.members) := by
  apply Shape.restores
  · rfl
  · decide
  · decide
  · refine ⟨?_, ?_⟩
    · rwa [List.length_map]
    · intro members _
      exact ⟨trivial, trivial, trivial⟩
  · intro members hMembers
    obtain ⟨info, hInfo, rfl⟩ := List.mem_map.mp hMembers
    obtain ⟨hCharacters, hLength⟩ := hClean info hInfo
    exact ⟨trivial, faithful_of_plain hLength (hCharacters '"' (by decide)), trivial⟩

theorem exists_saveValues (cfg : Config) (floats : FloatText)
    (hClean : ∀ info ∈ connInfos, info.Clean) : ∃ data,
    saveValues cfg floats
      [⟨"conn_info".toList, .vector ConnectionInfo.shape, connInfos.map ConnectionInfo.members⟩] =
        .ok data ∧
    writeAll cfg (Shape.save cfg floats (.vector ConnectionInfo.shape) "conn_info".toList
      (connInfos.map ConnectionInfo.members)) = .ok data := by
  obtain ⟨data, hData⟩ := writeAll_of_writable fun item hItem =>
    (plain_connInfos cfg floats
      (fun info hInfo => (hClean info hInfo).characters) item hItem).writable
  refine ⟨data, ?_, hData⟩
  rw [saveValues, List.flatMap_singleton]
  exact hData

theorem prepareConnection_eq {data : Text} (hData : saveValues cfg floats
      [⟨"conn_info".toList, .vector ConnectionInfo.shape, connInfos.map ConnectionInfo.members⟩] =
        .ok data) :
    prepareConnection cfg floats connInfos =
      if cfg.binary then .ok data else prepareStringForAsciiSerialization data := by
  rw [prepareConnection, hData]
  cases hMode : cfg.binary with
  | true =>
    have hTrace : ¬ cfg.trace ≠ .noTrace := by rw [trace_ne_iff, hMode]; decide
    exact if_neg hTrace
  | false => exact if_pos (trace_ne_iff.mpr hMode)

theorem plain_of_prepareConnection {serialized : Text}
    (h : prepareConnection cfg floats connInfos = .ok serialized) (hMode : cfg.binary = false) :
    '"' ∉ serialized ∧ '\n' ∉ serialized := by
  cases hSave : saveValues cfg floats [⟨"conn_info".toList, .vector ConnectionInfo.shape,
      connInfos.map ConnectionInfo.members⟩] with
  | error e =>
    rw [prepareConnection, hSave] at h
    nomatch h
  | ok data =>
    rw [prepareConnection_eq hSave, hMode] at h
    exact prepared_plain h

/-- The secondary loads the list of the primary. -/
theorem loadConnectionInfos_of_prepareConnection (hFormat : cfg.SameFormat cfg')
    (hSize : connInfos.length < 2 ^ 64) (hClean : ∀ info ∈ connInfos, info.Clean) :
    ∃ serialized, prepareConnection cfg floats connInfos = .ok serialized ∧
      (cfg.binary = false → '"' ∉ serialized ∧ '\n' ∉ serialized) ∧
      loadConnectionInfos cfg' floats place serialized = .ok connInfos := by
  obtain ⟨data, hSave, hData⟩ := exists_saveValues cfg floats hClean
  obtain ⟨data', -, hData'⟩ := exists_saveValues cfg' floats hClean
  have hSame : data = data' := by
    rw [Shape.save_congr hFormat] at hData
    exact writeAll_congr hFormat hData hData'
  subst hSame
  obtain ⟨input, hLoad, -⟩ := restores_connInfos cfg' floats place
    hSize hClean [] [] (streamSerializer data)
    (by rw [List.append_nil]; exact ready_streamSerializer hData')
  have hLoaded : (do
      let loaded ← Shape.load cfg' floats place (.vector ConnectionInfo.shape) "conn_info".toList []
        (streamSerializer data)
      return loaded.1.map ConnectionInfo.ofMembers : Except Text (List ConnectionInfo)) =
        .ok connInfos := by
    rw [hLoad]
    exact congrArg Except.ok (ofMembers_members connInfos)
  rw [prepareConnection_eq hSave]
  cases hMode : cfg.binary with
  | true =>
    have hTrace : ¬ cfg'.trace ≠ .noTrace := by rw [trace_ne_iff, ← hFormat.binary, hMode]; decide
    refine ⟨data, rfl, nofun, ?_⟩
    rw [loadConnectionInfos, if_neg hTrace]
    exact hLoaded
  | false =>
    have hBrackets := fun c hc => not_mem_writeAll (c := c)
      (plain_connInfos cfg floats fun info hInfo => (hClean info hInfo).characters) hMode hData hc
    have hPrepare := prepare_eq (hBrackets '<' (.inl rfl)) (hBrackets '>' (.inr rfl))
    refine ⟨_, hPrepare, fun _ => prepared_plain hPrepare, ?_⟩
    rw [loadConnectionInfos, if_pos (trace_ne_iff.mpr (hFormat.binary ▸ hMode)),
      revert_prepare hPrepare]
    exact hLoaded

end RoundTrip

end SocketCommunication

end CoSimIO

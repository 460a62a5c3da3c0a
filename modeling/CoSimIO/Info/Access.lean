import CoSimIO.Info.Restoring

/-! # `Get`, and the values under the keys of an `Info` -/

namespace CoSimIO

open Serializer

set_option autoImplicit false

inductive InfoType
  | scalar (type : ScalarType)
  | info
deriving DecidableEq

abbrev InfoType.Carrier : InfoType → Type
  | .scalar type => type.kind.Carrier
  | .info => Info

/-- `Internals::Name` -/
def InfoType.name : InfoType → Text
  | .scalar .int => "int".toList
  | .scalar .sizeT => "size_t".toList
  | .scalar .double => "double".toList
  | .scalar .bool => "bool".toList
  | .scalar .string => "string".toList
  | .info => "info".toList

/-- The first error shows what the `Info` contains, the third is undefined behaviour. -/
inductive GetError
  | doesNotExist (key : Text) (available : Info)
  | wrongDataType (key found wanted : Text)
  | nullPointer
  | baseClass

/-- `mData`, when the object has the type. -/
def InfoData.as : (type : InfoType) → InfoData → Option type.Carrier
  | .scalar type, .scalar type' mData =>
    if h : type' = type then some (h ▸ mData) else none
  | .info, .info mData => some mData
  | _, _ => none

/-- `GetDataTypeName` -/
def InfoData.typeName : InfoData → Except GetError Text
  | .base => .error .baseClass
  | .scalar type _ => .ok (InfoType.scalar type).name
  | .info _ => .ok InfoType.info.name

namespace Info

def getExistingKey (heap : InfoHeap) (type : InfoType) (key : Text) :
    Option Nat → Except GetError type.Carrier
  | none => .error .nullPointer
  | some ref => do
    let found ← (heap.data ref).typeName
    match (heap.data ref).as type with
    | some mData => .ok mData
    | none => .error (.wrongDataType key found type.name)

def get (heap : InfoHeap) (info : Info) (type : InfoType) (key : Text) :
    Except GetError type.Carrier :=
  match OrderedMap.find info key with
  | none => .error (.doesNotExist key info)
  | some pointer => getExistingKey heap type key pointer

end Info

section Denotes

variable {heap : InfoHeap} {info : Info} {entries : List (Text × InfoValue)} {key : Text}

theorem find_of_denotesInfo {value : InfoValue} (h : DenotesInfo heap entries info)
    (hFind : OrderedMap.find entries key = some value) :
    ∃ ref, OrderedMap.find info key = some (some ref) ∧ Denotes heap value (heap.data ref) := by
  induction entries generalizing info with
  | nil => nomatch hFind
  | cons entry entries ih =>
    obtain ⟨ref, rest, rfl, hValue, hRest⟩ := h
    rw [OrderedMap.find_cons] at hFind ⊢
    split at hFind
    · next hKey =>
      obtain rfl := Option.some.inj hFind
      exact ⟨ref, if_pos hKey, hValue⟩
    · next hKey =>
      obtain ⟨ref', hFind', hValue'⟩ := ih hRest hFind
      exact ⟨ref', (if_neg hKey).trans hFind', hValue'⟩

theorem get_scalar {type : ScalarType} {mData : type.kind.Carrier}
    (h : DenotesInfo heap entries info)
    (hFind : OrderedMap.find entries key = some (.scalar type mData)) :
    info.get heap (.scalar type) key = .ok mData := by
  obtain ⟨ref, hEntry, hValue⟩ := find_of_denotesInfo h hFind
  have hData : heap.data ref = .scalar type mData := hValue
  have hSame : (InfoData.scalar type mData).as (.scalar type) = some mData := dif_pos rfl
  simp only [Info.get, hEntry, Info.getExistingKey, hData, hSame]
  rfl

theorem get_info {inner : List (Text × InfoValue)} (h : DenotesInfo heap entries info)
    (hFind : OrderedMap.find entries key = some (.info inner)) :
    ∃ value, info.get heap .info key = .ok value ∧ DenotesInfo heap inner value := by
  obtain ⟨ref, hEntry, value, hData, hInner⟩ := find_of_denotesInfo h hFind
  refine ⟨value, ?_, hInner⟩
  simp only [Info.get, hEntry, Info.getExistingKey, hData]
  rfl

end Denotes

end CoSimIO

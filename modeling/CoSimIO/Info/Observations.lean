import CoSimIO.Info.Building

/-! # What a program sees of an `Info`

A program calls the functions that change an `Info` and those that read it. Everything that it
gets to see, the texts of the errors included, is what a map would show that holds its values
itself.
-/

namespace CoSimIO

open Serializer

set_option autoImplicit false

/-- The output of a value, with `std::boolalpha` for `bool`. -/
def ScalarType.text (doubles : BitVec 64 → Text) : (type : ScalarType) → type.kind.Carrier → Text
  | .int, v => integerText (BitVec.toInt v)
  | .sizeT, v => integerText (BitVec.toNat v)
  | .double, v => doubles v
  | .bool, true => "true".toList
  | .bool, false => "false".toList
  | .string, v => v

/-- `InfoData::Print` -/
def printScalar (doubles : BitVec 64 → Text) (type : ScalarType) (mData : type.kind.Carrier) : Text :=
  "value: ".toList ++ type.text doubles mData ++ " | type: ".toList ++ (InfoType.scalar type).name ++
    "\n".toList

def printHeader (size : Nat) : Text :=
  "CoSimIO-Info; containing ".toList ++ Nat.toDigits 10 size ++ " entries\n".toList

def printName (indent key : Text) : Text := indent ++ "  name: ".toList ++ key ++ " | ".toList

def missingText (key available : Text) : Text :=
  "Trying to get \"".toList ++ key ++ "\" which does not exist!\nCurrently available:\n".toList ++
    available ++ "\n".toList

def wrongTypeText (key found wanted : Text) : Text :=
  "Wrong DataType! Trying to get \"".toList ++ key ++ "\" which is of type \"".toList ++ found ++
    "\" with \"".toList ++ wanted ++ "\"!\n".toList

def baseClassText : Text := "This is the baseclass!\n".toList

inductive Query
  | has (key : Text)
  | size
  | get (type : ScalarType) (key : Text)
  | getOr (type : ScalarType) (key : Text) (default : type.kind.Carrier)
  | print (indent : Text)

inductive Answer
  | flag (value : Bool)
  | count (size : Nat)
  | value (type : ScalarType) (mData : type.kind.Carrier)
  | printed (text : Text)

/-- A query reads a variable, or what `Get<Info>` leads to from there. -/
inductive Command
  | change (op : InfoState.Op)
  | query (info : Nat) (path : List Text) (query : Query)

namespace Info

section Reading

variable (doubles : BitVec 64 → Text) (heap : InfoHeap)

/-- The line of an entry. A null pointer is undefined behaviour. -/
def printEntry (printInfo : Info → Text → Except Text Text) (indent key : Text) :
    Option Nat → Except Text Text
  | none => .error []
  | some ref =>
    match heap.data ref with
    | .base => .error baseClassText
    | .scalar type mData => .ok (printName indent key ++ printScalar doubles type mData)
    | .info inner => do
      let text ← printInfo inner (indent ++ "  ".toList)
      return printName indent key ++ ("type: ".toList ++ text)

def printEntries (printInfo : Info → Text → Except Text Text) (indent : Text) :
    Info → Except Text Text
  | [] => .ok []
  | entry :: info => do
    let text ← printEntry doubles heap printInfo indent entry.1 entry.2
    let rest ← printEntries printInfo indent info
    return text ++ rest

/-- `Print`, for infos that are nested in each other less than `depth` times. -/
def print : Nat → Info → Text → Except Text Text
  | 0, _, _ => .error []
  | depth + 1, info, indent => do
    let text ← printEntries doubles heap (print depth) indent info
    return printHeader info.length ++ text

/-- The text of the exception, or that of the exception that printing the info raises. -/
def errorText : GetError → Text
  | .doesNotExist key available =>
    match print doubles heap (heap.next + 1) available [] with
    | .ok text => missingText key text
    | .error text => text
  | .wrongDataType key found wanted => wrongTypeText key found wanted
  | .nullPointer => []
  | .baseClass => baseClassText

/-- `Get<Info>` for one key after the other -/
def walk (info : Info) : List Text → Except GetError Info
  | [] => .ok info
  | key :: path => do
    let inner ← info.get heap .info key
    walk inner path

def answer (info : Info) : Query → Except Text Answer
  | .has key => .ok (.flag (OrderedMap.has info key))
  | .size => .ok (.count info.length)
  | .get type key =>
    ((info.get heap (.scalar type) key).map (.value type)).mapError (errorText doubles heap)
  | .getOr type key default =>
    if OrderedMap.has info key then
      ((info.get heap (.scalar type) key).map (.value type)).mapError (errorText doubles heap)
    else .ok (.value type default)
  | .print indent => (print doubles heap (heap.next + 1) info indent).map .printed

end Reading

end Info

namespace InfoState

variable (doubles : BitVec 64 → Text)

def answer (s : InfoState) (info : Nat) (path : List Text) (query : Query) : Except Text Answer :=
  match (s.infos info).walk s.heap path with
  | .ok inner => inner.answer doubles s.heap query
  | .error error => .error (Info.errorText doubles s.heap error)

/-- The answers that a program gets -/
def observe (s : InfoState) : List Command → List (Except Text Answer)
  | [] => []
  | .change op :: commands => observe (s.apply op) commands
  | .query info path query :: commands =>
    s.answer doubles info path query :: observe s commands

end InfoState

namespace InfoValues

variable (doubles : BitVec 64 → Text)

mutual

def printValue (indent : Text) : InfoValue → Text
  | .scalar type mData => printScalar doubles type mData
  | .info entries => "type: ".toList ++ (printHeader entries.length ++
    printEntries (indent ++ "  ".toList) entries)

def printEntries (indent : Text) : List (Text × InfoValue) → Text
  | [] => []
  | (key, value) :: entries =>
    printName indent key ++ printValue indent value ++ printEntries indent entries

end

def print (entries : List (Text × InfoValue)) (indent : Text) : Text :=
  printHeader entries.length ++ printEntries doubles indent entries

def typeName : InfoValue → Text
  | .scalar type _ => (InfoType.scalar type).name
  | .info _ => InfoType.info.name

def asScalar (type : ScalarType) : InfoValue → Option type.kind.Carrier
  | .scalar type' mData => if h : type' = type then some (h ▸ mData) else none
  | .info _ => none

def asInfo : InfoValue → Option (List (Text × InfoValue))
  | .scalar _ _ => none
  | .info entries => some entries

/-- The value of a key, if it has the type. -/
def get {α : Type} (entries : List (Text × InfoValue)) (wanted : InfoType)
    (cast : InfoValue → Option α) (key : Text) : Except Text α :=
  match OrderedMap.find entries key with
  | none => .error (missingText key (print doubles entries []))
  | some value =>
    match cast value with
    | some mData => .ok mData
    | none => .error (wrongTypeText key (typeName value) wanted.name)

def walk (entries : List (Text × InfoValue)) : List Text → Except Text (List (Text × InfoValue))
  | [] => .ok entries
  | key :: path => do
    let inner ← get doubles entries .info asInfo key
    walk inner path

def answer (entries : List (Text × InfoValue)) : Query → Except Text Answer
  | .has key => .ok (.flag (OrderedMap.find entries key).isSome)
  | .size => .ok (.count entries.length)
  | .get type key => (get doubles entries (.scalar type) (asScalar type) key).map (.value type)
  | .getOr type key default =>
    match OrderedMap.find entries key with
    | some _ => (get doubles entries (.scalar type) (asScalar type) key).map (.value type)
    | none => .ok (.value type default)
  | .print indent => .ok (.printed (print doubles entries indent))

def observe (values : InfoValues) : List Command → List (Except Text Answer)
  | [] => []
  | .change op :: commands => observe (values.apply op) commands
  | .query info path query :: commands =>
    ((walk doubles (values info) path).bind fun entries => answer doubles entries query) ::
      observe values commands

end InfoValues

section Agreement

variable {doubles : BitVec 64 → Text} {heap : InfoHeap} {info : Info}
  {entries : List (Text × InfoValue)} {key indent : Text} {next : Nat}

theorem length_of_denotesInfo (h : DenotesInfo heap entries info) : info.length = entries.length := by
  induction entries generalizing info with
  | nil =>
    obtain rfl : info = [] := h
    rfl
  | cons entry entries ih =>
    obtain ⟨ref, rest, rfl, -, hRest⟩ := h
    rw [List.length_cons, List.length_cons, ih hRest]

theorem has_of_denotesInfo (h : DenotesInfo heap entries info) (key : Text) :
    OrderedMap.has info key = (OrderedMap.find entries key).isSome := by
  induction entries generalizing info with
  | nil =>
    obtain rfl : info = [] := h
    rfl
  | cons entry entries ih =>
    obtain ⟨ref, rest, rfl, -, hRest⟩ := h
    rw [OrderedMap.find_cons, OrderedMap.has, List.any_cons]
    by_cases hKey : entry.1 = key
    · simp [hKey]
    · rw [if_neg hKey, ← ih hRest]
      simp [hKey, OrderedMap.has]

/-- The lines of the entries, when the infos under them print what they contain. -/
theorem printEntries_of_denotesInfo {printInfo : Info → Text → Except Text Text}
    (hInner : ∀ ref < next, ∀ inner entries indent, heap.data ref = .info inner →
      DenotesInfo heap entries inner →
        printInfo inner indent = .ok (InfoValues.print doubles entries indent))
    (hPointers : ∀ entry ∈ info, ∃ ref < next, entry.2 = some ref)
    (h : DenotesInfo heap entries info) (indent : Text) :
    Info.printEntries doubles heap printInfo indent info =
      .ok (InfoValues.printEntries doubles indent entries) := by
  induction entries generalizing info with
  | nil =>
    obtain rfl : info = [] := h
    rfl
  | cons entry entries ih =>
    obtain ⟨key, value⟩ := entry
    obtain ⟨ref, rest, rfl, hValue, hRest⟩ := h
    obtain ⟨⟨r, hRef, hSame⟩, hLater⟩ := List.forall_mem_cons.mp hPointers
    obtain rfl := Option.some.inj hSame
    have hEntry : Info.printEntry doubles heap printInfo indent key (some ref) =
        .ok (printName indent key ++ InfoValues.printValue doubles indent value) := by
      cases value with
      | scalar type mData =>
        have hData : heap.data ref = .scalar type mData := hValue
        simp only [Info.printEntry, hData, InfoValues.printValue]
      | info inner =>
        obtain ⟨found, hData, hFound⟩ := hValue
        have hPrint := hInner ref hRef found inner (indent ++ "  ".toList) hData hFound
        simp only [Info.printEntry, hData, hPrint]
        rfl
    rw [Info.printEntries, hEntry, ih hLater hRest]
    rfl

theorem print_of_denotesInfo (hSound : heap.Sound) (hFormed : info.Formed next)
    (hNext : next ≤ heap.next) (h : DenotesInfo heap entries info) {depth : Nat}
    (hDepth : next < depth) (indent : Text) :
    info.print doubles heap depth indent = .ok (InfoValues.print doubles entries indent) := by
  induction depth generalizing info entries next indent with
  | zero => exact absurd hDepth (Nat.not_lt_zero _)
  | succ depth ih =>
    have hInner : ∀ ref < next, ∀ inner entries indent, heap.data ref = .info inner →
        DenotesInfo heap entries inner →
          inner.print doubles heap depth indent =
            .ok (InfoValues.print doubles entries indent) := by
      intro ref hRef inner entries indent hData hDenotes
      have hOlder : ref < heap.next := Nat.lt_of_lt_of_le hRef hNext
      exact ih (hSound.formed ref hOlder inner hData) (Nat.le_of_lt hOlder) hDenotes
        (Nat.lt_of_lt_of_le hRef (Nat.le_of_lt_succ hDepth)) indent
    rw [Info.print, printEntries_of_denotesInfo hInner hFormed.pointers h indent,
      length_of_denotesInfo h]
    rfl

variable (hSound : heap.Sound) (hFormed : info.Formed heap.next)
  (h : DenotesInfo heap entries info)

include hSound hFormed h

theorem errorText_missing (key : Text) :
    Info.errorText doubles heap (.doesNotExist key info) =
      missingText key (InfoValues.print doubles entries []) := by
  rw [Info.errorText, print_of_denotesInfo hSound hFormed (Nat.le_refl _) h (Nat.lt_succ_self _)]

theorem get_of_denotesInfo (type : ScalarType) (key : Text) :
    (info.get heap (.scalar type) key).mapError (Info.errorText doubles heap) =
      InfoValues.get doubles entries (.scalar type) (InfoValues.asScalar type) key := by
  rw [Info.get, InfoValues.get]
  cases hFind : OrderedMap.find entries key with
  | none =>
    rw [find_none_of_denotesInfo h hFind]
    exact congrArg Except.error (errorText_missing hSound hFormed h key)
  | some value =>
    obtain ⟨ref, hEntry, hValue⟩ := find_of_denotesInfo h hFind
    rw [hEntry]
    cases value with
    | scalar type' mData =>
      have hData : heap.data ref = .scalar type' mData := hValue
      by_cases hType : type' = type
      · subst hType
        simp [Info.getExistingKey, hData, InfoData.typeName, InfoData.as, InfoValues.asScalar,
          Except.mapError, bind, Except.bind]
      · simp [Info.getExistingKey, hData, InfoData.typeName, InfoData.as, InfoValues.asScalar, hType,
          Except.mapError, bind, Except.bind, Info.errorText, InfoValues.typeName]
    | info inner =>
      obtain ⟨found, hData, -⟩ := hValue
      simp [Info.getExistingKey, hData, InfoData.typeName, InfoData.as, InfoValues.asScalar,
        Except.mapError, bind, Except.bind, Info.errorText, InfoValues.typeName]

variable (doubles) in
theorem getInfo_of_denotesInfo (key : Text) :
    (∃ value inner, info.get heap .info key = .ok value ∧
      InfoValues.get doubles entries .info InfoValues.asInfo key = .ok inner ∧
      value.Formed heap.next ∧ DenotesInfo heap inner value) ∨
    ∃ error, info.get heap .info key = .error error ∧
      InfoValues.get doubles entries .info InfoValues.asInfo key =
        .error (Info.errorText doubles heap error) := by
  rw [Info.get, InfoValues.get]
  cases hFind : OrderedMap.find entries key with
  | none =>
    rw [find_none_of_denotesInfo h hFind]
    refine .inr ⟨_, rfl, ?_⟩
    rw [errorText_missing hSound hFormed h]
  | some value =>
    obtain ⟨ref, hEntry, hValue⟩ := find_of_denotesInfo h hFind
    rw [hEntry]
    cases value with
    | scalar type mData =>
      have hData : heap.data ref = .scalar type mData := hValue
      refine .inr ⟨.wrongDataType key (InfoType.scalar type).name InfoType.info.name, ?_, rfl⟩
      simp only [Info.getExistingKey, hData]
      rfl
    | info inner =>
      obtain ⟨found, hData, hFound⟩ := hValue
      have hSelect : info.select heap [key] = some found := by
        simp only [Info.select, hEntry, hData]
      refine .inl ⟨found, inner, ?_, rfl, hFormed.select hSound hSelect, hFound⟩
      simp only [Info.getExistingKey, hData]
      rfl

variable (doubles) in
theorem walk_of_denotesInfo (path : List Text) :
    (∃ value inner, info.walk heap path = .ok value ∧
      InfoValues.walk doubles entries path = .ok inner ∧
      value.Formed heap.next ∧ DenotesInfo heap inner value) ∨
    ∃ error, info.walk heap path = .error error ∧
      InfoValues.walk doubles entries path = .error (Info.errorText doubles heap error) := by
  induction path generalizing info entries with
  | nil => exact .inl ⟨info, entries, rfl, rfl, hFormed, h⟩
  | cons key path ih =>
    rw [Info.walk, InfoValues.walk]
    rcases getInfo_of_denotesInfo doubles hSound hFormed h key with
      ⟨value, inner, hValue, hInner, hFormed', hDenotes⟩ | ⟨error, hError, hText⟩
    · rw [hValue, hInner]
      exact ih hFormed' hDenotes
    · rw [hError, hText]
      exact .inr ⟨error, rfl, rfl⟩

theorem answer_of_denotesInfo (query : Query) :
    info.answer doubles heap query = InfoValues.answer doubles entries query := by
  cases query with
  | has key => rw [Info.answer, InfoValues.answer, has_of_denotesInfo h]
  | size => rw [Info.answer, InfoValues.answer, length_of_denotesInfo h]
  | get type key =>
    rw [Info.answer, InfoValues.answer, ← get_of_denotesInfo hSound hFormed h]
    cases info.get heap (.scalar type) key <;> rfl
  | getOr type key default =>
    rw [Info.answer, InfoValues.answer, has_of_denotesInfo h, ← get_of_denotesInfo hSound hFormed h]
    cases OrderedMap.find entries key with
    | none => rfl
    | some => cases info.get heap (.scalar type) key <;> rfl
  | print indent =>
    rw [Info.answer, InfoValues.answer, print_of_denotesInfo hSound hFormed (Nat.le_refl _) h
      (Nat.lt_succ_self _)]
    rfl

end Agreement

section Runs

variable {doubles : BitVec 64 → Text} {s : InfoState} {values : InfoValues}

theorem InfoState.Contains.answer (h : s.Contains values) (hSound : s.Sound) (info : Nat)
    (path : List Text) (query : Query) : s.answer doubles info path query =
      (InfoValues.walk doubles (values info) path).bind fun entries =>
        InfoValues.answer doubles entries query := by
  rw [InfoState.answer]
  rcases walk_of_denotesInfo doubles hSound.heap (hSound.infos info) (h info) path with
    ⟨value, inner, hValue, hInner, hFormed, hDenotes⟩ | ⟨error, hError, hText⟩
  · rw [hValue, hInner]
    exact answer_of_denotesInfo hSound.heap hFormed hDenotes query
  · rw [hError, hText]
    rfl

theorem InfoState.Contains.observe (h : s.Contains values) (hSound : s.Sound)
    (commands : List Command) :
    s.observe doubles commands = InfoValues.observe doubles values commands := by
  induction commands generalizing s values with
  | nil => rfl
  | cons command commands ih =>
    cases command with
    | change op => exact ih (h.apply hSound op) (hSound.apply op)
    | query info path query =>
      rw [InfoState.observe, InfoValues.observe, h.answer hSound, ih h hSound]

end Runs

end CoSimIO

import CoSimIO.Basic
import CoSimIO.Library.LittleEndian
import CoSimIO.Library.NumberText

/-! # The stream below `Serializer`: the overloads of `write` and `read`

The buffer is a `std::stringstream`. In the binary mode values are their bytes, in the other
modes lines of text. Whether the text of a floating point number reads back is left to
`DoubleText`.
-/

namespace CoSimIO.Serializer

open LittleEndian

set_option autoImplicit false

inductive TraceType
  | noTrace
  | traceError
  | traceAll
  | ascii
deriving DecidableEq

inductive PointerType
  | invalidPointer
  | baseClassPointer
  | derivedClassPointer
deriving DecidableEq

def PointerType.code : PointerType → Nat
  | .invalidPointer => 0
  | .baseClassPointer => 1
  | .derivedClassPointer => 2

/-- No other value is one of the enumeration. -/
def PointerType.ofCode : Nat → PointerType
  | 1 => .baseClassPointer
  | 2 => .derivedClassPointer
  | _ => .invalidPointer

inductive IntegerType
  | int
  | unsignedInt
  | long
  | unsignedLong
  | longLong
deriving DecidableEq

def IntegerType.size : IntegerType → Nat
  | .int | .unsignedInt => 4
  | .long | .unsignedLong | .longLong => 8

def IntegerType.signed : IntegerType → Bool
  | .int | .long | .longLong => true
  | .unsignedInt | .unsignedLong => false

abbrev IntegerType.Carrier (t : IntegerType) : Type := BitVec (8 * t.size)

def IntegerType.toInt (t : IntegerType) (v : t.Carrier) : Int :=
  if t.signed then v.toInt else v.toNat

inductive Kind
  | pointerType
  | address
  | string
  | bool
  | integer (t : IntegerType)
  | double
deriving DecidableEq

/-- Doubles and addresses are their bits. -/
abbrev Kind.Carrier : Kind → Type
  | .pointerType => PointerType
  | .address => BitVec 64
  | .string => Text
  | .bool => Bool
  | .integer t => t.Carrier
  | .double => BitVec 64

instance Kind.decEqCarrier : (k : Kind) → DecidableEq k.Carrier
  | .pointerType => inferInstanceAs (DecidableEq PointerType)
  | .address => inferInstanceAs (DecidableEq (BitVec 64))
  | .string => inferInstanceAs (DecidableEq Text)
  | .bool => inferInstanceAs (DecidableEq Bool)
  | .integer t => inferInstanceAs (DecidableEq t.Carrier)
  | .double => inferInstanceAs (DecidableEq (BitVec 64))

/-- The argument of one call of `write`. -/
structure Item where
  kind : Kind
  value : kind.Carrier
deriving DecidableEq

/-- `operator<<` with fourteen digits and `operator>>` for a `double`. The parser gives the
value, whether the stream does not fail, and the rest. -/
structure DoubleText where
  print : BitVec 64 → Text
  parse : Text → (BitVec 64 × Bool) × Text

/-- `debug` is whether `CO_SIM_IO_DEBUG` is defined, `uninitialized` what a variable holds
before its first assignment. -/
structure Config where
  trace : TraceType
  debug : Bool
  doubles : DoubleText
  uninitialized : BitVec 64

def Config.binary (cfg : Config) : Bool :=
  decide (cfg.trace = .noTrace)

def Config.tracing (cfg : Config) : Bool :=
  decide (cfg.trace = .traceError ∨ cfg.trace = .traceAll)

section Write

def bytesText (bytes : List UInt8) : Text :=
  bytes.map fun byte => Char.ofNat byte.toNat

def integerText (n : Int) : Text :=
  if n < 0 then '-' :: Nat.toDigits 10 n.natAbs else Nat.toDigits 10 n.natAbs

theorem mem_integerText {n : Int} {c : Char} (h : c ∈ integerText n) :
    c = '-' ∨ c.isDigit = true := by
  have hDigits : ∀ c ∈ Nat.toDigits 10 n.natAbs, c.isDigit = true := by
    rintro c hc
    exact Nat.isDigit_of_mem_toDigits (by decide) (by decide) hc
  rw [integerText] at h
  split at h
  · rcases List.mem_cons.mp h with rfl | hMem
    · exact .inl rfl
    · exact .inr (hDigits c hMem)
  · exact .inr (hDigits c h)

theorem integerText_ne_nil (n : Int) : integerText n ≠ [] := by
  rw [integerText]
  split
  · nofun
  · exact Nat.toDigits_ne_nil

theorem integerText_injective {m n : Int} (h : integerText m = integerText n) : m = n := by
  have hMinus : ∀ k : Nat, '-' ∉ Nat.toDigits 10 k := by
    rintro k hMem
    exact absurd (Nat.isDigit_of_mem_toDigits (by decide) (by decide) hMem) (by decide)
  have hAbs : ∀ k l : Nat, Nat.toDigits 10 k = Nat.toDigits 10 l → k = l := by
    rintro k l hDigits
    rw [← @Nat.ofDigitChars_ten_toDigits k, hDigits, Nat.ofDigitChars_ten_toDigits]
  rw [integerText, integerText] at h
  split at h
  · split at h
    · have := hAbs _ _ (List.cons.inj h).2
      omega
    · exact absurd (h ▸ List.mem_cons_self) (hMinus n.natAbs)
  · split at h
    · exact absurd (h ▸ List.mem_cons_self) (hMinus m.natAbs)
    · have := hAbs _ _ h
      omega

def addressText (address : BitVec 64) : Text :=
  if address = 0 then ['0'] else '0' :: 'x' :: Nat.toDigits 16 address.toNat

def quoteError : Text :=
  "String contains a quote character, which is not supported!\n".toList

def newlineError : Text :=
  "String contains a newline character, which is not supported!\n".toList

def writeText (cfg : Config) : (k : Kind) → k.Carrier → Except Text Text
  | .pointerType, v => .ok (integerText v.code ++ ['\n'])
  | .address, v => .ok (addressText v ++ ['\n'])
  | .string, v =>
    if cfg.debug ∧ '"' ∈ v then .error quoteError
    else if cfg.debug ∧ '\n' ∈ v then .error newlineError
    else .ok ('"' :: v ++ ['"', '\n'])
  | .bool, v => .ok ((if v then '1' else '0') :: ['\n'])
  | .integer t, v => .ok (integerText (t.toInt v) ++ ['\n'])
  | .double, v => .ok (cfg.doubles.print v ++ ['\n'])

def writeBinary : (k : Kind) → k.Carrier → Text
  | .pointerType, v => bytesText (encode 4 v.code)
  | .address, v => bytesText (encode 8 v.toNat)
  | .string, v => bytesText (encode 8 v.length) ++ v
  | .bool, v => bytesText (encode 1 v.toNat)
  | .integer t, v => bytesText (encode t.size v.toNat)
  | .double, v => bytesText (encode 8 v.toNat)

def write (cfg : Config) (k : Kind) (v : k.Carrier) : Except Text Text :=
  if cfg.binary then .ok (writeBinary k v) else writeText cfg k v

def writeAll (cfg : Config) : List Item → Except Text Text
  | [] => .ok []
  | item :: items => do
    let text ← write cfg item.kind item.value
    let rest ← writeAll cfg items
    return text ++ rest

end Write

section Read

/-- What is left of the buffer, whether none of the state bits of the stream is set, and
`mNumberOfLines`. -/
structure Input where
  chars : Text
  good : Bool
  numberOfLines : Nat
deriving DecidableEq

def isSpace (c : Char) : Bool :=
  decide (c ∈ [' ', '\t', '\n', '\x0b', '\x0c', '\r'])

/-- `std::istream::read` -/
def Input.readBytes (input : Input) (count : Nat) : Text × Input :=
  if input.good then
    (input.chars.take count,
      { input with chars := input.chars.drop count, good := count ≤ input.chars.length })
  else ([], input)

/-- `std::getline`, which assigns nothing when the stream is not good before it. -/
def Input.getline (input : Input) (delimiter : Char) : Option Text × Input :=
  if input.good then
    let found := input.chars.takeWhile (· ≠ delimiter)
    match input.chars.dropWhile (· ≠ delimiter) with
    | [] => (some found, { input with chars := [], good := false })
    | _ :: rest => (some found, { input with chars := rest })
  else (none, input)

/-- `operator>>`, which assigns nothing when there is no character to parse. -/
def Input.extract {α : Type} (input : Input) (parse : Text → (α × Bool) × Text) :
    Option α × Input :=
  if input.good then
    match input.chars.dropWhile isSpace with
    | [] => (none, { input with chars := [], good := false })
    | c :: cs =>
      let parsed := parse (c :: cs)
      (some parsed.1.1,
        { input with chars := parsed.2, good := parsed.1.2 && !parsed.2.isEmpty })
  else (none, input)

def splitSign : Text → Bool × Text
  | '-' :: text => (true, text)
  | '+' :: text => (false, text)
  | text => (false, text)

def splitHexMark : Text → Text
  | '0' :: 'x' :: text => text
  | '0' :: 'X' :: text => text
  | text => text

/-- The nearest value of the type, and whether it is the number itself. A sign of an unsigned
number is taken after the conversion. -/
def toInteger (width : Nat) (signed negative : Bool) (n : Nat) : BitVec width × Bool :=
  if signed then
    if negative then
      if n ≤ 2 ^ (width - 1) then (BitVec.ofInt width (-n), true)
      else (BitVec.ofInt width (-2 ^ (width - 1)), false)
    else if n < 2 ^ (width - 1) then (BitVec.ofNat width n, true)
    else (BitVec.ofNat width (2 ^ (width - 1) - 1), false)
  else if n < 2 ^ width then
    (if negative then -BitVec.ofNat width n else BitVec.ofNat width n, true)
  else (BitVec.ofNat width (2 ^ width - 1), false)

def parseInteger (width base : Nat) (signed : Bool) (text : Text) :
    (BitVec width × Bool) × Text :=
  let signedText := splitSign text
  let digits := if base = 16 then splitHexMark signedText.2 else signedText.2
  match NumberText.scan base digits with
  | (some n, rest) => (toInteger width signed signedText.1 n, rest)
  | (none, rest) => ((0, false), rest)

def parseBool (text : Text) : (Bool × Bool) × Text :=
  let parsed := parseInteger 64 10 true text
  ((parsed.1.1 ≠ 0, parsed.1.2 && decide (parsed.1.1 = 0 ∨ parsed.1.1 = 1)), parsed.2)

def charByte (c : Char) : UInt8 :=
  UInt8.ofNat c.toNat

/-- The bytes that were read over those of the old value. -/
def Input.readNat (input : Input) (size old : Nat) : Nat × Input :=
  let data := input.readBytes size
  (decode (data.1.map charByte ++ (encode size old).drop data.1.length), data.2)

def resize (old : Text) (size : Nat) : Text :=
  old.take size ++ List.replicate (size - old.length) '\x00'

def readBinary (cfg : Config) : (k : Kind) → k.Carrier → Input → k.Carrier × Input
  | .pointerType, _, input =>
    let data := input.readNat 4 cfg.uninitialized.toNat
    (PointerType.ofCode data.1, data.2)
  | .address, old, input =>
    let data := input.readNat 8 old.toNat
    (BitVec.ofNat 64 data.1, data.2)
  | .string, old, input =>
    let size := input.readNat 8 cfg.uninitialized.toNat
    if size.1 > 0 then
      let data := size.2.readBytes size.1
      (data.1 ++ (resize old size.1).drop data.1.length, data.2)
    else ([], size.2)
  | .bool, old, input =>
    let data := input.readNat 1 old.toNat
    (data.1 ≠ 0, data.2)
  | .integer t, old, input =>
    let data := input.readNat t.size old.toNat
    (BitVec.ofNat (8 * t.size) data.1, data.2)
  | .double, old, input =>
    let data := input.readNat 8 old.toNat
    (BitVec.ofNat 64 data.1, data.2)

def Input.nextLine (input : Input) : Input :=
  { input with numberOfLines := input.numberOfLines + 1 }

/-- `>>` into a variable that keeps its old value when nothing is assigned. -/
def Input.extractInto {α : Type} (input : Input) (old : α) (parse : Text → (α × Bool) × Text) :
    α × Input :=
  let read := input.extract parse
  (read.1.getD old, read.2.nextLine)

/-- To the first quote, then the string itself until the second one. -/
def Input.readQuoted (input : Input) (old : Text) : Text × Input :=
  let opening := input.getline '"'
  let content := opening.2.getline '"'
  (content.1.getD (opening.1.getD old), content.2.nextLine)

def readText (cfg : Config) : (k : Kind) → k.Carrier → Input → k.Carrier × Input
  | .pointerType, _, input =>
    let read := input.extractInto (cfg.uninitialized.setWidth 32) (parseInteger 32 10 true)
    (PointerType.ofCode read.1.toNat, read.2)
  | .address, old, input => input.extractInto old (parseInteger 64 16 false)
  | .string, old, input => input.readQuoted old
  | .bool, old, input => input.extractInto old parseBool
  | .integer t, old, input =>
    input.extractInto old (parseInteger (8 * t.size) 10 t.signed)
  | .double, old, input => input.extractInto old cfg.doubles.parse

def read (cfg : Config) (k : Kind) (old : k.Carrier) (input : Input) : k.Carrier × Input :=
  if cfg.binary then readBinary cfg k old input else readText cfg k old input

end Read

section TracePoints

def tracePoint (cfg : Config) (tag : Text) : List Item :=
  if cfg.tracing then [⟨.string, tag⟩] else []

/-- `save` of a value that is written directly -/
def save (cfg : Config) (tag : Text) (item : Item) : List Item :=
  tracePoint cfg tag ++ [item]

def traceError (lines : Nat) (readTag tag : Text) : Text :=
  "In line ".toList ++ Nat.toDigits 10 lines ++
    " the trace tag is not the expected one:\n    Tag found : ".toList ++ readTag ++
    "\n    Tag given : ".toList ++ tag ++ "\n\n".toList

def loadTracePoint (cfg : Config) (tag : Text) (input : Input) : Except Text Input :=
  if cfg.tracing then
    let found := read cfg .string [] input
    if found.1 = tag then .ok found.2
    else .error (traceError found.2.numberOfLines found.1 tag)
  else .ok input

def load (cfg : Config) (tag : Text) (k : Kind) (old : k.Carrier) (input : Input) :
    Except Text (k.Carrier × Input) := do
  let input ← loadTracePoint cfg tag input
  return read cfg k old input

/-- `StreamSerializer(rData, rTrace)` -/
def streamSerializer (data : Text) : Input :=
  { chars := data ++ ['\n'], good := true, numberOfLines := 0 }

end TracePoints

end CoSimIO.Serializer

import CoSimIO.Serializer.Stream

/-! # What is written is read back -/

namespace CoSimIO.Serializer

open LittleEndian NumberText

set_option autoImplicit false

section Bytes

theorem charByte_ofNat (byte : UInt8) : charByte (Char.ofNat byte.toNat) = byte := by
  have hValid : byte.toNat.isValidChar := Or.inl (Nat.lt_trans byte.toNat_lt (by decide))
  have hChar : (Char.ofNat byte.toNat).toNat = byte.toNat := by
    rw [Char.ofNat, dif_pos hValid]
    rfl
  rw [charByte, hChar, UInt8.ofNat_toNat]

@[simp] theorem length_bytesText (bytes : List UInt8) : (bytesText bytes).length = bytes.length := by
  rw [bytesText, List.length_map]

theorem map_charByte_bytesText (bytes : List UInt8) :
    (bytesText bytes).map charByte = bytes := by
  induction bytes with
  | nil => rfl
  | cons byte bytes ih =>
    rw [bytesText, List.map_cons, List.map_cons, charByte_ofNat]
    exact congrArg (byte :: ·) ih

theorem Input.readBytes_append {input : Input} {bytes rest : Text} {count : Nat}
    (hGood : input.good = true) (hChars : input.chars = bytes ++ rest)
    (hLength : bytes.length = count) :
    input.readBytes count = (bytes, { input with chars := rest }) := by
  subst hLength
  have hLe : bytes.length ≤ (bytes ++ rest).length := by simp
  rw [Input.readBytes, if_pos hGood, hChars, List.take_left, List.drop_left,
    decide_eq_true hLe, hGood]

theorem Input.readNat_encode {input : Input} {size n : Nat} {rest : Text} (hBound : n < 256 ^ size)
    (hGood : input.good = true) (hChars : input.chars = bytesText (encode size n) ++ rest)
    (old : Nat) : input.readNat size old = (n, { input with chars := rest }) := by
  have hDrop : (encode size old).drop (encode size n).length = [] := by simp
  rw [Input.readNat, Input.readBytes_append hGood hChars (by simp)]
  simp only [map_charByte_bytesText, length_bytesText, hDrop, List.append_nil,
    decode_encode hBound]

theorem bitVec_lt (size : Nat) (v : BitVec (8 * size)) : v.toNat < 256 ^ size := by
  rw [show (256 : Nat) = 2 ^ 8 from rfl, ← Nat.pow_mul]
  exact v.isLt

theorem ofCode_code (v : PointerType) : PointerType.ofCode v.code = v := by
  cases v <;> rfl

end Bytes

/-- The text of the number reads back as the number. -/
def DoubleText.ReadsBack (doubles : DoubleText) (v : BitVec 64) : Prop :=
  (∃ c cs, doubles.print v = c :: cs ∧ isSpace c = false) ∧
    ∀ rest, doubles.parse (doubles.print v ++ '\n' :: rest) = ((v, true), '\n' :: rest)

/-- The strings and doubles that the mode can represent. A `std::string` is shorter than
what its `std::size_t` counts. -/
def Faithful (cfg : Config) : (k : Kind) → k.Carrier → Prop
  | .string, v => if cfg.binary then v.length < 2 ^ 64 else '"' ∉ v
  | .double, v => cfg.binary = false → cfg.doubles.ReadsBack v
  | _, _ => True

theorem faithful_of_plain {cfg : Config} {v : Text} (hLength : v.length < 2 ^ 64) (hQuote : '"' ∉ v) :
    Faithful cfg .string v := by
  rw [Faithful]
  split
  · exact hLength
  · exact hQuote

theorem readBinary_writeBinary {cfg : Config} (hMode : cfg.binary = true) {k : Kind}
    {v : k.Carrier} (hFaithful : Faithful cfg k v) (old : k.Carrier) {input : Input}
    (hGood : input.good = true) {rest : Text} (hChars : input.chars = writeBinary k v ++ rest) :
    readBinary cfg k old input = (v, { input with chars := rest }) := by
  cases k with
  | pointerType =>
    have hCode : PointerType.code v < 256 ^ 4 := by cases v <;> decide
    rw [readBinary, Input.readNat_encode hCode hGood hChars]
    simp only [ofCode_code]
  | address =>
    rw [readBinary, Input.readNat_encode (bitVec_lt 8 v) hGood hChars]
    simp only [BitVec.ofNat_toNat, BitVec.setWidth_eq]
  | string =>
    have hLength : v.length < 256 ^ 8 := by simpa [Faithful, hMode] using hFaithful
    rw [writeBinary, List.append_assoc] at hChars
    rw [readBinary, Input.readNat_encode hLength hGood hChars]
    cases v with
    | nil => rfl
    | cons c cs =>
      have hDrop : (resize old (c :: cs).length).drop (c :: cs).length = [] := by
        simp [resize]
        omega
      have hRead : Input.readBytes { input with chars := c :: cs ++ rest } (c :: cs).length =
          (c :: cs, { input with chars := rest }) := Input.readBytes_append hGood rfl rfl
      have hPos : (c :: cs).length > 0 := Nat.succ_pos cs.length
      simp only [hPos, if_true, hRead, hDrop, List.append_nil]
  | bool =>
    have hBit : v.toNat < 256 ^ 1 := by cases v <;> decide
    rw [readBinary, Input.readNat_encode hBit hGood hChars]
    cases v <;> rfl
  | integer t =>
    rw [readBinary, Input.readNat_encode (bitVec_lt t.size v) hGood hChars]
    simp only [BitVec.ofNat_toNat, BitVec.setWidth_eq]
  | double =>
    rw [readBinary, Input.readNat_encode (bitVec_lt 8 v) hGood hChars]
    simp only [BitVec.ofNat_toNat, BitVec.setWidth_eq]

section Text

theorem stops_space (base : Nat) {c : Char} (hc : isSpace c = true) (text : Text) :
    Stops base (c :: text) := by
  have hNone : [' ', '\t', '\n', '\x0b', '\x0c', '\r'].all (fun space => hexValue space == none) =
      true := by
    decide
  rintro d hd
  obtain rfl := Option.some.inj hd
  rw [digitValue, eq_of_beq (List.all_eq_true.mp hNone c (of_decide_eq_true hc))]
  rfl

theorem stops_newline (base : Nat) (text : Text) : Stops base ('\n' :: text) :=
  stops_space base rfl text

theorem splitSign_toDigits (n : Nat) (text : Text) :
    splitSign (Nat.toDigits 10 n ++ text) = (false, Nat.toDigits 10 n ++ text) := by
  obtain ⟨digit, hDigit, digits, hDigits⟩ := toDigits_head (by decide : 1 < 10) n
  have hHead : ∀ digit < 10, digit.digitChar ≠ '-' ∧ digit.digitChar ≠ '+' := by decide
  obtain ⟨hMinus, hPlus⟩ := hHead digit hDigit
  rw [hDigits, List.cons_append, splitSign]
  · rintro rest h
    exact hMinus (List.cons.inj h).1
  · rintro rest h
    exact hPlus (List.cons.inj h).1

theorem splitSign_integerText (n : Int) (text : Text) :
    splitSign (integerText n ++ text) =
      (decide (n < 0), Nat.toDigits 10 n.natAbs ++ text) := by
  rcases Int.lt_or_le n 0 with hNeg | hNonneg
  · rw [integerText, if_pos hNeg, decide_eq_true hNeg]
    rfl
  · rw [integerText, if_neg (Int.not_lt.mpr hNonneg), splitSign_toDigits,
      decide_eq_false (Int.not_lt.mpr hNonneg)]

theorem parseInteger_integerText (width : Nat) (signed : Bool) (n : Int) {text : Text}
    (hStops : Stops 10 text) : parseInteger width 10 signed (integerText n ++ text) =
      (toInteger width signed (decide (n < 0)) n.natAbs, text) := by
  rw [parseInteger, splitSign_integerText]
  simp only [show ¬ (10 = 16) by decide, if_false,
    scan_toDigits (by decide : 1 < 10) (by decide) n.natAbs hStops]

theorem toInteger_toInt_signed {width : Nat} (v : BitVec width) :
    toInteger width true (decide (v.toInt < 0)) v.toInt.natAbs = (v, true) := by
  have hLower := BitVec.le_toInt v
  have hUpper := BitVec.toInt_lt (x := v)
  have hPow : ((2 ^ (width - 1) : Nat) : Int) = 2 ^ (width - 1) := by push_cast; rfl
  rw [toInteger, if_pos rfl]
  rcases Int.lt_or_le v.toInt 0 with hNeg | hNonneg
  · have hBound : v.toInt.natAbs ≤ 2 ^ (width - 1) := by omega
    have hValue : -(v.toInt.natAbs : Int) = v.toInt := by omega
    rw [decide_eq_true hNeg, if_pos rfl, if_pos hBound, hValue, BitVec.ofInt_toInt]
  · have hBound : v.toInt.natAbs < 2 ^ (width - 1) := by omega
    have hValue : (v.toInt.natAbs : Int) = v.toInt := by omega
    rw [decide_eq_false (Int.not_lt.mpr hNonneg), if_neg (by decide), if_pos hBound,
      ← BitVec.ofInt_natCast, hValue, BitVec.ofInt_toInt]

theorem toInteger_toNat {width : Nat} (v : BitVec width) :
    toInteger width false false v.toNat = (v, true) := by
  rw [toInteger, if_neg (by decide), if_pos v.isLt, if_neg (by decide), BitVec.ofNat_toNat,
    BitVec.setWidth_eq]

theorem parseInteger_toInt (t : IntegerType) (v : t.Carrier) {text : Text}
    (hStops : Stops 10 text) :
    parseInteger (8 * t.size) 10 t.signed (integerText (t.toInt v) ++ text) =
      ((v, true), text) := by
  rw [parseInteger_integerText _ _ _ hStops, IntegerType.toInt]
  cases t.signed with
  | true => rw [if_pos rfl, toInteger_toInt_signed]
  | false =>
    rw [if_neg (by decide), Int.natAbs_natCast, decide_eq_false (by omega), toInteger_toNat]

theorem parseInteger_addressText (v : BitVec 64) (text : Text) :
    parseInteger 64 16 false (addressText v ++ '\n' :: text) = ((v, true), '\n' :: text) := by
  rcases eq_or_ne v 0 with rfl | hNonzero
  · rfl
  · have hScan := scan_toDigits (by decide : 1 < 16) (by decide) v.toNat (stops_newline 16 text)
    have hSign (cs : Text) : splitSign ('0' :: cs) = (false, '0' :: cs) := rfl
    have hMark (cs : Text) : splitHexMark ('0' :: 'x' :: cs) = cs := rfl
    rw [addressText, if_neg hNonzero, parseInteger]
    simp only [List.cons_append, hSign, hMark, if_true, hScan, toInteger_toNat]

/-- What stands before the text of a value. -/
def Blank (gap : Text) : Prop :=
  ∀ c ∈ gap, isSpace c = true

theorem dropWhile_isSpace {gap : Text} (hGap : Blank gap) {c : Char} (hc : isSpace c = false)
    (text : Text) : (gap ++ c :: text).dropWhile isSpace = c :: text := by
  induction gap with
  | nil => rw [List.nil_append, List.dropWhile_cons_of_neg (by simp [hc])]
  | cons space gap ih =>
    rw [List.cons_append, List.dropWhile_cons_of_pos (hGap space List.mem_cons_self)]
    exact ih fun c hc => hGap c (List.mem_cons_of_mem space hc)

theorem Input.extractInto_of_parse {α : Type} {input : Input} {gap text rest : Text}
    {parse : Text → (α × Bool) × Text} {v : α} (hGood : input.good = true) (hGap : Blank gap)
    (hText : ∃ c cs, text = c :: cs ∧ isSpace c = false)
    (hChars : input.chars = gap ++ (text ++ '\n' :: rest))
    (hParse : parse (text ++ '\n' :: rest) = ((v, true), '\n' :: rest)) (old : α) :
    input.extractInto old parse =
      (v, { input with chars := '\n' :: rest, numberOfLines := input.numberOfLines + 1 }) := by
  obtain ⟨c, cs, rfl, hc⟩ := hText
  rw [List.cons_append] at hChars hParse
  rw [Input.extractInto, Input.extract, if_pos hGood, hChars, dropWhile_isSpace hGap hc]
  simp only [hParse, Option.getD_some, Input.nextLine, List.isEmpty_cons, Bool.not_false,
    Bool.and_true, hGood]

theorem Input.getline_append {input : Input} {line rest : Text} {delimiter : Char}
    (hGood : input.good = true) (hLine : delimiter ∉ line)
    (hChars : input.chars = line ++ delimiter :: rest) :
    input.getline delimiter = (some line, { input with chars := rest }) := by
  have hAll : ∀ c ∈ line, decide (c ≠ delimiter) = true := by
    rintro c hc
    exact decide_eq_true fun h => hLine (h ▸ hc)
  rw [Input.getline, if_pos hGood, hChars, List.takeWhile_append_of_pos hAll,
    List.dropWhile_append_of_pos hAll, List.takeWhile_cons_of_neg (by simp),
    List.dropWhile_cons_of_neg (by simp), List.append_nil]

theorem Input.readQuoted_of_quoted {input : Input} {gap v rest : Text}
    (hGood : input.good = true) (hGap : Blank gap) (hQuote : '"' ∉ v)
    (hChars : input.chars = gap ++ '"' :: (v ++ '"' :: rest)) (old : Text) :
    input.readQuoted old =
      (v, { input with chars := rest, numberOfLines := input.numberOfLines + 1 }) := by
  have hOpening : '"' ∉ gap := by
    rintro h
    exact absurd (hGap '"' h) (by decide)
  have hFirst := Input.getline_append hGood hOpening hChars
  have hSecond : Input.getline { input with chars := v ++ '"' :: rest } '"' =
      (some v, { input with chars := rest }) := Input.getline_append hGood hQuote rfl
  rw [Input.readQuoted, hFirst]
  simp only [hSecond, Option.getD_some, Input.nextLine]

theorem integerText_head (n : Int) : ∃ c cs, integerText n = c :: cs ∧ isSpace c = false := by
  have hDigits : ∀ digit < 10, isSpace digit.digitChar = false := by decide
  obtain ⟨digit, hDigit, digits, hText⟩ := toDigits_head (by decide : 1 < 10) n.natAbs
  rw [integerText]
  split
  · exact ⟨'-', _, rfl, rfl⟩
  · exact ⟨digit.digitChar, digits, hText, hDigits digit hDigit⟩

theorem addressText_head (v : BitVec 64) :
    ∃ c cs, addressText v = c :: cs ∧ isSpace c = false := by
  rw [addressText]
  split
  · exact ⟨'0', _, rfl, rfl⟩
  · exact ⟨'0', _, rfl, rfl⟩

theorem readText_writeText {cfg : Config} (hMode : cfg.binary = false) {k : Kind} {v : k.Carrier}
    (hFaithful : Faithful cfg k v) {text : Text} (hWrite : writeText cfg k v = .ok text)
    (old : k.Carrier) {input : Input} (hGood : input.good = true) {gap rest : Text}
    (hGap : Blank gap) (hChars : input.chars = gap ++ (text ++ rest)) :
    readText cfg k old input =
      (v, { input with chars := '\n' :: rest, numberOfLines := input.numberOfLines + 1 }) := by
  cases k with
  | pointerType =>
    have hParse : ∀ code : PointerType, parseInteger 32 10 true (integerText code.code ++ '\n' :: rest) =
        ((BitVec.ofNat 32 code.code, true), '\n' :: rest) := by
      rintro (_ | _ | _) <;> rw [parseInteger_integerText _ _ _ (stops_newline 10 rest)] <;> rfl
    obtain rfl := Except.ok.inj hWrite
    rw [List.append_assoc] at hChars
    rw [readText, Input.extractInto_of_parse hGood hGap (integerText_head _) hChars (hParse v)]
    cases v <;> rfl
  | address =>
    obtain rfl := Except.ok.inj hWrite
    rw [List.append_assoc] at hChars
    exact Input.extractInto_of_parse hGood hGap (addressText_head v) hChars
      (parseInteger_addressText v rest) old
  | string =>
    have hQuote : '"' ∉ v := by simpa [Faithful, hMode] using hFaithful
    rw [writeText, if_neg fun h => hQuote h.2] at hWrite
    split at hWrite
    · nomatch hWrite
    · obtain rfl := Except.ok.inj hWrite
      rw [List.append_assoc] at hChars
      exact Input.readQuoted_of_quoted hGood hGap hQuote hChars old
  | bool =>
    obtain rfl := Except.ok.inj hWrite
    cases v with
    | false => exact Input.extractInto_of_parse hGood hGap ⟨'0', [], rfl, rfl⟩ hChars rfl old
    | true => exact Input.extractInto_of_parse hGood hGap ⟨'1', [], rfl, rfl⟩ hChars rfl old
  | integer t =>
    obtain rfl := Except.ok.inj hWrite
    rw [List.append_assoc] at hChars
    exact Input.extractInto_of_parse hGood hGap (integerText_head _) hChars
      (parseInteger_toInt t v (stops_newline 10 rest)) old
  | double =>
    obtain ⟨hHead, hParse⟩ := hFaithful hMode
    obtain rfl := Except.ok.inj hWrite
    rw [List.append_assoc] at hChars
    exact Input.extractInto_of_parse hGood hGap hHead hChars (hParse rest) old

end Text

/-- The stream is at the first of the items. -/
def Ready (cfg : Config) (input : Input) (items : List Item) : Prop :=
  input.good = true ∧ ∃ gap text rest, Blank gap ∧ (cfg.binary = true → gap = []) ∧
    writeAll cfg items = .ok text ∧ input.chars = gap ++ (text ++ rest)

theorem writeAll_cons_ok {cfg : Config} {item : Item} {items : List Item} {text : Text}
    (h : writeAll cfg (item :: items) = .ok text) : ∃ first rest,
      write cfg item.kind item.value = .ok first ∧ writeAll cfg items = .ok rest ∧
      text = first ++ rest := by
  rw [writeAll] at h
  cases hFirst : write cfg item.kind item.value with
  | error message =>
    rw [hFirst] at h
    nomatch h
  | ok first =>
    cases hRest : writeAll cfg items with
    | error message =>
      rw [hFirst, hRest] at h
      nomatch h
    | ok rest =>
      rw [hFirst, hRest] at h
      exact ⟨first, rest, rfl, rfl, (Except.ok.inj h).symm⟩

theorem Ready.read {cfg : Config} {input : Input} {k : Kind} {v : k.Carrier} {items : List Item}
    (hReady : Ready cfg input (⟨k, v⟩ :: items)) (hFaithful : Faithful cfg k v) (old : k.Carrier) :
    ∃ input', read cfg k old input = (v, input') ∧ Ready cfg input' items := by
  obtain ⟨hGood, gap, text, rest, hGap, hBinary, hWrite, hChars⟩ := hReady
  obtain ⟨first, later, hFirst, hLater, rfl⟩ := writeAll_cons_ok hWrite
  rw [List.append_assoc] at hChars
  cases hMode : cfg.binary with
  | true =>
    rw [write, if_pos hMode] at hFirst
    obtain rfl := Except.ok.inj hFirst
    rw [hBinary hMode, List.nil_append] at hChars
    rw [Serializer.read, if_pos hMode, readBinary_writeBinary hMode hFaithful old hGood hChars]
    exact ⟨_, rfl, hGood, [], later, rest, nofun, fun _ => rfl, hLater, rfl⟩
  | false =>
    have hText : ¬ cfg.binary = true := by simp [hMode]
    rw [write, if_neg hText] at hFirst
    rw [Serializer.read, if_neg hText, readText_writeText hMode hFaithful hFirst old hGood hGap hChars]
    refine ⟨_, rfl, hGood, ['\n'], later, rest, ?_, fun h => absurd h hText, hLater, rfl⟩
    rintro c hc
    obtain rfl := List.mem_singleton.mp hc
    rfl

theorem Ready.loadTracePoint {cfg : Config} {input : Input} {tag : Text} {items : List Item}
    (hReady : Ready cfg input (tracePoint cfg tag ++ items))
    (hTag : cfg.tracing = true → '"' ∉ tag) :
    ∃ input', loadTracePoint cfg tag input = .ok input' ∧ Ready cfg input' items := by
  cases hTracing : cfg.tracing with
  | false =>
    rw [tracePoint, hTracing] at hReady
    rw [Serializer.loadTracePoint, hTracing]
    exact ⟨input, rfl, hReady⟩
  | true =>
    have hText : cfg.binary = false := by
      rw [Config.tracing, decide_eq_true_eq] at hTracing
      rw [Config.binary, decide_eq_false_iff_not]
      rintro hBinary
      rw [hBinary] at hTracing
      simp at hTracing
    have hFaithful : Faithful cfg .string tag := by
      rw [Faithful, hText]
      exact hTag hTracing
    rw [tracePoint, hTracing] at hReady
    obtain ⟨input', hRead, hReady'⟩ := Ready.read hReady hFaithful []
    rw [Serializer.loadTracePoint, hTracing, if_pos rfl, hRead]
    exact ⟨input', if_pos rfl, hReady'⟩

theorem Ready.load {cfg : Config} {input : Input} {tag : Text} {k : Kind} {v : k.Carrier}
    {items : List Item} (hReady : Ready cfg input (save cfg tag ⟨k, v⟩ ++ items))
    (hTag : cfg.tracing = true → '"' ∉ tag) (hFaithful : Faithful cfg k v) (old : k.Carrier) :
    ∃ input', load cfg tag k old input = .ok (v, input') ∧ Ready cfg input' items := by
  rw [save, List.append_assoc] at hReady
  obtain ⟨input₁, hTrace, hReady₁⟩ := hReady.loadTracePoint hTag
  obtain ⟨input₂, hRead, hReady₂⟩ := hReady₁.read hFaithful old
  refine ⟨input₂, ?_, hReady₂⟩
  rw [Serializer.load, hTrace]
  exact congrArg Except.ok hRead

theorem ready_streamSerializer {cfg : Config} {items : List Item} {data : Text}
    (h : writeAll cfg items = .ok data) : Ready cfg (streamSerializer data) items :=
  ⟨rfl, [], data, ['\n'], nofun, fun _ => rfl, h, rfl⟩

section Writable

variable {cfg : Config}

/-- Writing the value does not fail. -/
def Writable (cfg : Config) (item : Item) : Prop :=
  ∃ text, write cfg item.kind item.value = .ok text

theorem writeAll_of_writable {items : List Item} (h : ∀ item ∈ items, Writable cfg item) :
    ∃ data, writeAll cfg items = .ok data := by
  induction items with
  | nil => exact ⟨[], rfl⟩
  | cons item items ih =>
    obtain ⟨first, hFirst⟩ := h item List.mem_cons_self
    obtain ⟨rest, hRest⟩ := ih fun other hOther => h other (List.mem_cons_of_mem item hOther)
    refine ⟨first ++ rest, ?_⟩
    rw [writeAll, hFirst, hRest]
    rfl

theorem writable_of_kind {item : Item} (hKind : item.kind ≠ .string) : Writable cfg item := by
  obtain ⟨kind, v⟩ := item
  rw [Writable, write]
  split
  · exact ⟨_, rfl⟩
  · cases kind with
    | string => exact absurd rfl hKind
    | _ => exact ⟨_, rfl⟩

theorem writable_string {v : Text}
    (h : cfg.binary = false → cfg.debug = true → '"' ∉ v ∧ '\n' ∉ v) :
    Writable cfg ⟨.string, v⟩ := by
  rw [Writable, write]
  split
  · exact ⟨_, rfl⟩
  next hText =>
  have hClean := h (Bool.eq_false_iff.mpr hText)
  rw [writeText, if_neg fun hQuote => (hClean hQuote.1).1 hQuote.2,
    if_neg fun hNewline => (hClean hNewline.1).2 hNewline.2]
  exact ⟨_, rfl⟩

theorem writable_of_binary (hMode : cfg.binary = true) (item : Item) : Writable cfg item := by
  rw [Writable, write, if_pos hMode]
  exact ⟨_, rfl⟩

theorem writable_of_release (hDebug : cfg.debug = false) (item : Item) : Writable cfg item := by
  by_cases hKind : item.kind = .string
  · obtain ⟨kind, v⟩ := item
    subst hKind
    apply writable_string
    intro _ hOn
    rw [hDebug] at hOn
    nomatch hOn
  · exact writable_of_kind hKind

theorem writable_tracePoint {tag : Text} (hQuote : '"' ∉ tag) (hNewline : '\n' ∉ tag) :
    ∀ item ∈ tracePoint cfg tag, Writable cfg item := by
  intro item hItem
  rw [tracePoint] at hItem
  split at hItem
  · obtain rfl := List.mem_singleton.mp hItem
    exact writable_string fun _ _ => ⟨hQuote, hNewline⟩
  · nomatch hItem

end Writable

end CoSimIO.Serializer

import CoSimIO.Vtk.Lines

/-! # What the reader makes of lines and of numbers between spaces -/

namespace CoSimIO.Vtk

open Serializer NumberText

set_option autoImplicit false

/-- The stream before these characters. -/
def before (chars : Text) : Input := ⟨chars, true, 0⟩

section Lines

variable {text : CoordinateText} {line rest : Text} {grid : Grid}

theorem nextLine_before (hLine : '\n' ∉ line) :
    nextLine (before (line ++ '\n' :: rest)) = some (line, before rest) := by
  have hSome : (before (line ++ '\n' :: rest)).chars.isEmpty = false := by simp [before]
  have hGet : Input.getline (before (line ++ '\n' :: rest)) '\n' = (some line, before rest) :=
    Input.getline_append rfl hLine rfl
  rw [nextLine, hSome, hGet]
  rfl

theorem readLine_quiet (hLine : Quiet line) (input : Input) :
    readLine text (line, input, grid) = some (.ok (line, input, grid)) := by
  rw [readLine, readPoints, hLine .points]
  dsimp only [Except.bind]
  rw [readCells, hLine .cells]
  dsimp only
  rw [readNodeIds, hLine .nodeId]
  dsimp only
  rw [readElementIds, hLine .elementId]
  dsimp only
  rw [readElementTypes, hLine .elementType]
  rfl

/-- The loop gets from one position to the other, in no more rounds than characters. -/
def Scans (text : CoordinateText) (chars : Text) (grid : Grid) (chars' : Text) (grid' : Grid) :
    Prop :=
  ∃ rounds, rounds + chars'.length ≤ chars.length ∧ ∀ fuel,
    readLines text (fuel + rounds) (before chars) grid = readLines text fuel (before chars') grid'

theorem Scans.refl (chars : Text) (grid : Grid) : Scans text chars grid chars grid :=
  ⟨0, by omega, fun _ => rfl⟩

theorem Scans.trans {chars chars' chars'' : Text} {grid' grid'' : Grid}
    (h : Scans text chars grid chars' grid') (h' : Scans text chars' grid' chars'' grid'') :
    Scans text chars grid chars'' grid'' := by
  obtain ⟨k, hLength, hRun⟩ := h
  obtain ⟨k', hLength', hRun'⟩ := h'
  refine ⟨k' + k, by omega, ?_⟩
  intro fuel
  rw [← Nat.add_assoc, hRun, hRun']

theorem scans_line {chars' line' : Text} {grid' : Grid} (hLine : '\n' ∉ line)
    (hLength : chars'.length ≤ line.length + rest.length)
    (hRead : readLine text (line, before rest, grid) = some (.ok (line', before chars', grid'))) :
    Scans text (line ++ '\n' :: rest) grid chars' grid' := by
  refine ⟨1, ?_, ?_⟩
  · rw [List.length_append, List.length_cons]
    omega
  · intro fuel
    rw [readLines, nextLine_before hLine]
    dsimp only
    rw [hRead]

theorem scans_quiet (hQuiet : Quiet line) (hLine : '\n' ∉ line) :
    Scans text (line ++ '\n' :: rest) grid rest grid :=
  scans_line hLine (by omega) (readLine_quiet hQuiet _)

theorem scans_lines {lines : List Text} (hLines : ∀ line ∈ lines, Quiet line ∧ '\n' ∉ line) :
    Scans text (lines.flatMap (fun line => line ++ ['\n']) ++ rest) grid rest grid := by
  induction lines with
  | nil => exact Scans.refl rest grid
  | cons line lines ih =>
    obtain ⟨hQuiet, hLine⟩ := hLines line List.mem_cons_self
    rw [List.flatMap_cons, List.append_assoc, List.append_assoc, List.singleton_append]
    exact (scans_quiet hQuiet hLine).trans
      (ih fun other hOther => hLines other (List.mem_cons_of_mem line hOther))

/-- The newline after the last number that was read, or nothing. -/
def Lead (gap : Text) : Prop := gap = [] ∨ gap = ['\n']

theorem Lead.blank {gap : Text} (h : Lead gap) : Blank gap := by
  rcases h with rfl | rfl
  · nofun
  · intro c hc
    obtain rfl := List.mem_singleton.mp hc
    rfl

theorem Lead.scans {gap : Text} (h : Lead gap) : Scans text (gap ++ rest) grid rest grid := by
  rcases h with rfl | rfl
  · exact Scans.refl rest grid
  · exact scans_quiet quiet_nil (by decide)

/-- At the end of the file the loop ends. -/
theorem Scans.readGrid {file : Text} {grid' : Grid} {gap : Text} (hGap : Lead gap)
    (h : Scans text file .empty gap grid') : readGrid text file = some (.ok grid') := by
  rw [← List.append_nil gap] at h
  obtain ⟨rounds, hLength, hRun⟩ := h.trans hGap.scans
  obtain ⟨fuel, hFuel⟩ := Nat.exists_eq_add_of_le (show rounds + 1 ≤ file.length + 1 by
    rw [List.length_nil] at hLength
    omega)
  rw [Vtk.readGrid, hFuel, Nat.add_comm (rounds + 1), ← Nat.add_assoc, Nat.add_right_comm]
  exact hRun (fuel + 1)

end Lines

section Tokens

/-- The text of a value, as it is read before a space. -/
structure Token {α : Type} (parse : Text → (α × Bool) × Text) (text : Text) (v : α) : Prop where
  head : ∃ c cs, text = c :: cs ∧ isSpace c = false
  parse : ∀ c rest, isSpace c = true → parse (text ++ c :: rest) = ((v, true), c :: rest)

theorem token_integerText (width : Nat) (v : BitVec width) :
    Token (parseInteger width 10 true) (integerText v.toInt) v where
  head := integerText_head v.toInt
  parse c rest hc := by
    rw [parseInteger_integerText width true _ (stops_space 10 hc rest), toInteger_toInt_signed]

theorem token_idText (id : Int64) : Token parseId (idText id) id where
  head := integerText_head id.toInt
  parse c rest hc := by
    have hParse : parseInteger 64 10 true (idText id ++ c :: rest) =
        ((id.toBitVec, true), c :: rest) := (token_integerText 64 id.toBitVec).parse c rest hc
    simp only [parseId, hParse, Int64.ofBitVec_toBitVec]

theorem numberText_eq (n : Nat) : numberText n = integerText n := by
  rw [integerText, if_neg (by omega), Int.natAbs_natCast]
  rfl

theorem parse_numberText {n : Nat} (hSize : n < 2 ^ 64) {c : Char} (hc : isSpace c = true)
    (rest : Text) : parseInteger 64 10 false (numberText n ++ c :: rest) =
      ((BitVec.ofNat 64 n, true), c :: rest) := by
  have hValue : (BitVec.ofNat 64 n).toNat = n := Nat.mod_eq_of_lt hSize
  have hParse := toInteger_toNat (BitVec.ofNat 64 n)
  rw [hValue] at hParse
  rw [numberText_eq, parseInteger_integerText 64 false _ (stops_space 10 hc rest),
    Int.natAbs_natCast, decide_eq_false (by omega), hParse]

theorem token_numberText {n : Nat} (hSize : n < 2 ^ 64) : Token parseSize (numberText n) n where
  head := by
    rw [numberText_eq]
    exact integerText_head n
  parse c rest hc := by
    rw [parseSize, parse_numberText hSize hc]
    exact congrArg (fun m => ((m, true), c :: rest)) (Nat.mod_eq_of_lt hSize)

variable {α : Type} {parse : Text → (α × Bool) × Text}

theorem Token.extract {text : Text} {v : α} (h : Token parse text v) {gap : Text}
    (hGap : Blank gap) {c : Char} (hc : isSpace c = true) (rest : Text) (old : α) :
    extractInto (before (gap ++ (text ++ c :: rest))) old parse = (v, before (c :: rest)) := by
  obtain ⟨first, cs, rfl, hFirst⟩ := h.head
  have hParse := h.parse c rest hc
  rw [List.cons_append] at hParse ⊢
  rw [extractInto, Input.extract, before, if_pos rfl]
  dsimp only
  rw [dropWhile_isSpace hGap hFirst]
  dsimp only
  rw [hParse]
  rfl

/-- A value, its text and the space after it -/
structure Field (α : Type) where
  value : α
  text : Text
  space : Char

def Field.written (field : Field α) : Text := field.text ++ [field.space]

structure Field.Sound (parse : Text → (α × Bool) × Text) (field : Field α) : Prop where
  token : Token parse field.text field.value
  space : isSpace field.space = true

def gapAfter (gap : Text) (fields : List (Field α)) : Text :=
  match fields.getLast? with
  | none => gap
  | some field => [field.space]

theorem gapAfter_cons (gap : Text) (field : Field α) (fields : List (Field α)) :
    gapAfter gap (field :: fields) = gapAfter [field.space] fields := by
  rw [gapAfter, gapAfter, List.getLast?_cons]
  cases fields.getLast? <;> rfl

theorem extractEach_fields {fields : List (Field α)} (hSound : ∀ field ∈ fields, field.Sound parse)
    {olds : List α} (hLength : olds.length = fields.length) {gap : Text} (hGap : Blank gap)
    (rest : Text) :
    extractEach parse olds (before (gap ++ (fields.flatMap Field.written ++ rest))) =
      (fields.map Field.value, before (gapAfter gap fields ++ rest)) := by
  induction fields generalizing olds gap with
  | nil =>
    obtain rfl := List.length_eq_zero_iff.mp hLength
    rfl
  | cons field fields ih =>
    cases olds with
    | nil => nomatch hLength
    | cons old olds =>
      obtain ⟨hToken, hSpace⟩ := hSound field List.mem_cons_self
      have hBlank : Blank [field.space] := by
        intro c hc
        obtain rfl := List.mem_singleton.mp hc
        exact hSpace
      have hRest := ih (fun other hOther => hSound other (List.mem_cons_of_mem field hOther))
        (Nat.succ.inj hLength) hBlank
      have hFirst := hToken.extract hGap hSpace (fields.flatMap Field.written ++ rest) old
      rw [List.flatMap_cons, Field.written, List.append_assoc, List.append_assoc,
        List.singleton_append, extractEach, hFirst]
      dsimp only
      rw [List.singleton_append] at hRest
      rw [hRest, gapAfter_cons]
      rfl

end Tokens

end CoSimIO.Vtk

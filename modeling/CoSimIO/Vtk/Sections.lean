import CoSimIO.Serializer.ValueRules
import CoSimIO.Vtk.Scanning

/-! # Each section is read as it was written -/

namespace CoSimIO.Vtk

open Serializer NumberText ModelPart

set_option autoImplicit false

section Gaps

variable {α : Type} {fields : List (Field α)} {gap : Text}

theorem lead_gapAfter (hGap : Lead gap) (hLast : ∀ field ∈ fields.getLast?, field.space = '\n') :
    Lead (gapAfter gap fields) := by
  rw [gapAfter]
  split
  · exact hGap
  · next field hField =>
    rw [hLast field hField]
    exact .inr rfl

theorem length_gapAfter_le (gap : Text) (fields : List (Field α)) :
    (gapAfter gap fields).length ≤ gap.length + (fields.flatMap Field.written).length := by
  cases fields with
  | nil => exact Nat.le_refl _
  | cons field fields =>
    have hFirst : 1 ≤ field.written.length := by
      rw [Field.written, List.length_append]
      exact Nat.le_add_left _ _
    have hOne : (gapAfter gap (field :: fields)).length = 1 := by
      rw [gapAfter, List.getLast?_cons]
      rfl
    rw [hOne, List.flatMap_cons, List.length_append]
    omega

end Gaps

variable {text : CoordinateText} {line rest : Text}

theorem newline_notMem_append {a b : Text} (ha : '\n' ∉ a) (hb : '\n' ∉ b) : '\n' ∉ a ++ b := by
  intro hMem
  exact (List.mem_append.mp hMem).elim ha hb

theorem find_numbered (kind : Section) (keyword : Text) {tail : Text} (n : Nat)
    (hTail : Plain tail) :
    find kind.keyword (keyword ++ numberText n ++ tail) = find kind.keyword keyword := by
  rw [find_plain hTail, find_plain (plain_numberText n)]

theorem plain_space_numberText (n : Nat) : Plain (' ' :: numberText n) := by
  have hSpace : Plain [' '] := by decide
  exact hSpace.append (plain_numberText n)

theorem newline_notMem_numbered {keyword tail : Text} (n : Nat) (hKeyword : '\n' ∉ keyword)
    (hTail : '\n' ∉ tail) : '\n' ∉ keyword ++ numberText n ++ tail :=
  newline_notMem_append (newline_notMem_append hKeyword (newline_notMem_numberText n)) hTail

section Points

/-- The text of the coordinate reads back as the coordinate. -/
def CoordinateText.ReadsBack (text : CoordinateText) (v : BitVec 64) : Prop :=
  Token text.parse (text.print v) v

def coordinates (node : Node) : List (BitVec 64) := [node.x, node.y, node.z]

def pointFields (text : CoordinateText) (node : Node) : List (Field (BitVec 64)) :=
  [⟨node.x, text.print node.x, ' '⟩, ⟨node.y, text.print node.y, ' '⟩,
    ⟨node.z, text.print node.z, '\n'⟩]

theorem written_pointFields (node : Node) :
    (pointFields text node).flatMap Field.written = pointLine text node := by
  simp [pointFields, Field.written, pointLine]

theorem pointFields_all (text : CoordinateText) (nodes : List Node) :
    (nodes.flatMap (pointFields text)).flatMap Field.written = nodes.flatMap (pointLine text) ∧
    (nodes.flatMap (pointFields text)).map Field.value = nodes.flatMap coordinates ∧
    (nodes.flatMap (pointFields text)).length = 3 * nodes.length ∧
    ∀ field ∈ (nodes.flatMap (pointFields text)).getLast?, field.space = '\n' := by
  induction nodes with
  | nil => exact ⟨rfl, rfl, rfl, nofun⟩
  | cons node nodes ih =>
    obtain ⟨hWritten, hValue, hLength, hLast⟩ := ih
    refine ⟨?_, ?_, ?_, ?_⟩
    · rw [List.flatMap_cons, List.flatMap_append, hWritten, written_pointFields, List.flatMap_cons]
    · rw [List.flatMap_cons, List.map_append, hValue, List.flatMap_cons]
      rfl
    · rw [List.flatMap_cons, List.length_append, hLength, List.length_cons, pointFields]
      simp only [List.length_cons, List.length_nil]
      omega
    · rw [List.flatMap_cons, List.getLast?_append]
      intro field hField
      cases hTail : (nodes.flatMap (pointFields text)).getLast? with
      | none =>
        rw [hTail] at hField
        obtain rfl := Option.some.inj hField
        rfl
      | some last =>
        rw [hTail] at hField
        obtain rfl := Option.some.inj hField
        exact hLast last hTail

theorem sound_pointFields {node : Node} (h : ∀ v ∈ coordinates node, text.ReadsBack v) :
    ∀ field ∈ pointFields text node, field.Sound text.parse := by
  simp only [pointFields, coordinates, List.forall_mem_cons] at h ⊢
  obtain ⟨hX, hY, hZ, -⟩ := h
  exact ⟨⟨hX, rfl⟩, ⟨hY, rfl⟩, ⟨hZ, rfl⟩, nofun⟩

theorem countAfter_keyword (keyword tail : Text) {n : Nat} (hSize : n < 2 ^ 64) {c : Char}
    (hc : isSpace c = true) {skip : Nat} (hSkip : keyword.length = skip) :
    countAfter text (keyword ++ (numberText n ++ c :: tail)) 0 skip =
      .ok (n, numberText n ++ c :: tail) := by
  cases hSkip
  obtain ⟨first, cs, hText, hFirst⟩ := (token_numberText hSize).head
  have hParse := parse_numberText hSize hc tail
  have hDrop : (keyword ++ (numberText n ++ c :: tail)).drop (0 + keyword.length) =
      numberText n ++ c :: tail := by
    rw [Nat.zero_add, List.drop_left]
  have hExtract :
      (Input.extract ⟨numberText n ++ c :: tail, true, 0⟩ (parseInteger 64 10 false)).1 =
        some (BitVec.ofNat 64 n) := by
    rw [Input.extract, if_pos rfl]
    dsimp only
    rw [hText, List.cons_append] at hParse ⊢
    rw [List.dropWhile_cons_of_neg (by simp [hFirst])]
    dsimp only
    rw [hParse]
  rw [countAfter, hDrop, if_pos (by rw [List.length_append]; omega)]
  dsimp only
  rw [hExtract]
  exact congrArg (fun m => Except.ok (m, _)) (Nat.mod_eq_of_lt hSize)

/-- What is not named in the line is not read. -/
theorem readPoints_none (h : find Section.points.keyword line = none) (input : Input)
    (grid : Grid) : readPoints text (line, input, grid) = .ok (line, input, grid) := by
  rw [readPoints, h]

theorem readCells_none (h : find Section.cells.keyword line = none) (input : Input)
    (grid : Grid) : readCells text (line, input, grid) = .ok (line, input, grid) := by
  rw [readCells, h]

theorem readNodeIds_none (h : find Section.nodeId.keyword line = none) (input : Input)
    (grid : Grid) : readNodeIds (line, input, grid) = (line, input, grid) := by
  rw [readNodeIds, h]

theorem readElementIds_none (h : find Section.elementId.keyword line = none) (input : Input)
    (grid : Grid) : readElementIds (line, input, grid) = (line, input, grid) := by
  rw [readElementIds, h]

theorem readElementTypes_none (h : find Section.elementType.keyword line = none) (input : Input)
    (grid : Grid) : readElementTypes text (line, input, grid) = some (line, input, grid) := by
  rw [readElementTypes, h]

theorem readLine_points (input : Input) (grid : Grid) {line' : Text} {position n : Nat}
    (hFind : find Section.points.keyword line = some position)
    (hCount : countAfter text line position 7 = .ok (n, line')) (hQuiet : Quiet line') :
    readLine text (line, input, grid) =
      some (.ok (line', (extractEach text.parse (resizeWith 0 grid.nodalCoords (3 * n)) input).2,
        { grid with
          nodalCoords := (extractEach text.parse (resizeWith 0 grid.nodalCoords (3 * n)) input).1
          nodalIds := resizeWith 0 grid.nodalIds n
          read := grid.read ++ [.points] })) := by
  have hPoints : readPoints text (line, input, grid) = .ok (line',
      (extractEach text.parse (resizeWith 0 grid.nodalCoords (3 * n)) input).2, { grid with
        nodalCoords := (extractEach text.parse (resizeWith 0 grid.nodalCoords (3 * n)) input).1
        nodalIds := resizeWith 0 grid.nodalIds n
        read := grid.read ++ [.points] }) := by
    rw [readPoints, hFind]
    dsimp only
    rw [hCount]
    rfl
  rw [readLine, hPoints]
  dsimp only [Except.bind]
  rw [readCells_none (hQuiet .cells)]
  dsimp only
  rw [readNodeIds_none (hQuiet .nodeId), readElementIds_none (hQuiet .elementId),
    readElementTypes_none (hQuiet .elementType)]
  rfl

theorem scans_points {nodes : List Node} (grid : Grid) (hSize : nodes.length < 2 ^ 64)
    (hReadsBack : ∀ node ∈ nodes, ∀ v ∈ coordinates node, text.ReadsBack v) :
    Scans text (pointsSection text nodes ++ rest) grid rest
      { grid with
        nodalCoords := nodes.flatMap coordinates
        nodalIds := resizeWith 0 grid.nodalIds nodes.length
        read := grid.read ++ [.points] } := by
  obtain ⟨hWritten, hValue, hLength, hLast⟩ := pointFields_all text nodes
  have hSound : ∀ field ∈ nodes.flatMap (pointFields text), field.Sound text.parse := by
    intro field hField
    obtain ⟨node, hNode, hMem⟩ := List.mem_flatMap.mp hField
    exact sound_pointFields (hReadsBack node hNode) field hMem
  have hExtract := extractEach_fields hSound
    (show (resizeWith 0 grid.nodalCoords (3 * nodes.length)).length = _ by
      rw [length_resizeWith, hLength])
    blank_nil ('\n' :: rest)
  have hPlain : Plain " float".toList := by decide
  have hFind : find Section.points.keyword
      ("POINTS ".toList ++ numberText nodes.length ++ " float".toList) = some 0 := by
    rw [find_numbered .points _ _ hPlain]
    decide
  have hCount : countAfter text ("POINTS ".toList ++ numberText nodes.length ++ " float".toList)
      0 7 = .ok (nodes.length, numberText nodes.length ++ " float".toList) := by
    have hSplit : " float".toList = ' ' :: "float".toList := rfl
    rw [List.append_assoc, hSplit]
    exact countAfter_keyword "POINTS ".toList "float".toList hSize (by decide) (by decide)
  have hQuiet : Quiet (numberText nodes.length ++ " float".toList) :=
    ((plain_numberText _).append hPlain).quiet
  have hLine : '\n' ∉ "POINTS ".toList ++ numberText nodes.length ++ " float".toList :=
    newline_notMem_numbered _ (by decide) (by decide)
  have hSection : pointsSection text nodes ++ rest =
      ("POINTS ".toList ++ numberText nodes.length ++ " float".toList) ++
        '\n' :: (nodes.flatMap (pointLine text) ++ '\n' :: rest) := by
    have hHeader : " float\n".toList = " float".toList ++ ['\n'] := by decide
    unfold pointsSection
    simp only [hHeader, List.append_assoc, List.cons_append, List.nil_append]
  have hRead := readLine_points (before (nodes.flatMap (pointLine text) ++ '\n' :: rest)) grid
    hFind hCount hQuiet
  rw [List.nil_append, hWritten, hValue] at hExtract
  rw [hExtract] at hRead
  have hShorter := length_gapAfter_le [] (nodes.flatMap (pointFields text))
  rw [hWritten, List.length_nil] at hShorter
  have hLength' : (gapAfter [] (nodes.flatMap (pointFields text)) ++ '\n' :: rest).length ≤
      ("POINTS ".toList ++ numberText nodes.length ++ " float".toList).length +
        (nodes.flatMap (pointLine text) ++ '\n' :: rest).length := by
    simp only [List.length_append]
    omega
  rw [hSection]
  exact (scans_line hLine hLength' hRead).trans
    ((lead_gapAfter (.inl rfl) hLast).scans.trans (scans_quiet quiet_nil (by decide)))

end Points

section Cells

def idFields : List Int64 → List (Field Int64)
  | [] => []
  | [id] => [⟨id, idText id, '\n'⟩]
  | id :: next :: ids => ⟨id, idText id, ' '⟩ :: idFields (next :: ids)

theorem idFields_all (id : Int64) (ids : List Int64) :
    (idFields (id :: ids)).flatMap Field.written =
      [' '].intercalate ((id :: ids).map idText) ++ ['\n'] ∧
    (idFields (id :: ids)).map Field.value = id :: ids ∧
    (∀ gap, gapAfter gap (idFields (id :: ids)) = ['\n']) ∧
    ∀ field ∈ idFields (id :: ids), field.Sound parseId := by
  induction ids generalizing id with
  | nil =>
    refine ⟨?_, rfl, fun _ => rfl, ?_⟩
    · simp [idFields, Field.written]
    · intro field hField
      obtain rfl := List.mem_singleton.mp hField
      exact ⟨token_idText id, rfl⟩
  | cons next ids ih =>
    obtain ⟨hWritten, hValue, hGap, hSound⟩ := ih next
    refine ⟨?_, ?_, ?_, ?_⟩
    · rw [idFields, List.flatMap_cons, hWritten]
      simp [Field.written, List.intercalate_cons_cons]
    · rw [idFields, List.map_cons, hValue]
    · intro gap
      rw [idFields, gapAfter_cons]
      exact hGap [' ']
    · intro field hField
      rw [idFields, List.mem_cons] at hField
      cases hField with
      | inl hFirst =>
        subst hFirst
        exact ⟨token_idText id, rfl⟩
      | inr hRest => exact hSound field hRest

theorem extractCells_lines {conns : List (List Int64)}
    (hConns : ∀ ids ∈ conns, ids ≠ [] ∧ ids.length < 2 ^ 64) {olds : List (List Int64)}
    (hLength : olds.length = conns.length) (numNodes : Nat) {gap : Text} (hGap : Lead gap)
    (rest : Text) :
    ∃ gap', Lead gap' ∧ gap'.length ≤ gap.length + (conns.flatMap cellLine).length ∧
      extractCells olds numNodes (before (gap ++ (conns.flatMap cellLine ++ rest))) =
        (conns, before (gap' ++ rest)) := by
  induction conns generalizing olds numNodes gap with
  | nil =>
    obtain rfl := List.length_eq_zero_iff.mp hLength
    exact ⟨gap, hGap, Nat.le_add_right _ _, rfl⟩
  | cons ids conns ih =>
    cases olds with
    | nil => nomatch hLength
    | cons old olds =>
      obtain ⟨hNonempty, hSize⟩ := hConns ids List.mem_cons_self
      obtain ⟨id, others, rfl⟩ := List.exists_cons_of_ne_nil hNonempty
      obtain ⟨hWritten, hValue, hAfter, hSound⟩ := idFields_all id others
      obtain ⟨gap', hGap', hShorter, hRest⟩ :=
        ih (fun other hOther => hConns other (List.mem_cons_of_mem _ hOther))
          (Nat.succ.inj hLength) (id :: others).length (.inr rfl)
      have hFields : (idFields (id :: others)).length = (id :: others).length := by
        have hMapped := congrArg List.length hValue
        rwa [List.length_map] at hMapped
      have hCount := (token_numberText hSize).extract hGap.blank
        (show isSpace ' ' = true from rfl)
        ((idFields (id :: others)).flatMap Field.written ++ (conns.flatMap cellLine ++ rest))
        numNodes
      have hSpace : Blank [' '] := by
        intro c hc
        obtain rfl := List.mem_singleton.mp hc
        rfl
      have hIds := extractEach_fields hSound
        (show (resizeWith 0 old (id :: others).length).length = _ by
          rw [length_resizeWith, hFields])
        hSpace (conns.flatMap cellLine ++ rest)
      rw [List.singleton_append, hValue, hAfter] at hIds
      have hLine : (((id :: others) :: conns).flatMap cellLine ++ rest) =
          numberText (id :: others).length ++ ' ' ::
            ((idFields (id :: others)).flatMap Field.written ++
              (conns.flatMap cellLine ++ rest)) := by
        rw [List.flatMap_cons, cellLine, hWritten]
        simp only [List.append_assoc, List.cons_append]
      refine ⟨gap', hGap', ?_, ?_⟩
      · rw [List.flatMap_cons, List.length_append, cellLine]
        simp only [List.length_append, List.length_cons, List.length_nil] at hShorter ⊢
        omega
      · rw [hLine, extractCells, hCount]
        dsimp only
        rw [hIds]
        dsimp only
        rw [hRest]

theorem readLine_cells (input : Input) (grid : Grid) {line' : Text} {position n : Nat}
    (hPoints : find Section.points.keyword line = none)
    (hFind : find Section.cells.keyword line = some position)
    (hCount : countAfter text line position 6 = .ok (n, line')) (hQuiet : Quiet line') :
    readLine text (line, input, grid) =
      some (.ok (line', (extractCells (resizeWith [] grid.elementConnectivities n)
          text.uninitialized.toNat input).2, { grid with
        elementIds := resizeWith 0 grid.elementIds n
        elementTypes := resizeWith (.ofNat 0) grid.elementTypes n
        elementConnectivities := (extractCells (resizeWith [] grid.elementConnectivities n)
          text.uninitialized.toNat input).1
        read := grid.read ++ [.cells] })) := by
  rw [readLine, readPoints_none hPoints]
  dsimp only [Except.bind]
  rw [readCells, hFind]
  dsimp only
  rw [hCount]
  dsimp only [bind, Except.bind, pure, Except.pure]
  rw [readNodeIds_none (hQuiet .nodeId), readElementIds_none (hQuiet .elementId),
    readElementTypes_none (hQuiet .elementType)]
  rfl

theorem scans_cells {elements : List Element} {conns : List (List Int64)} (grid : Grid)
    (hLength : conns.length = elements.length) (hSize : elements.length < 2 ^ 64)
    (hConns : ∀ ids ∈ conns, ids ≠ [] ∧ ids.length < 2 ^ 64) :
    Scans text (cellsSection elements (conns.flatMap cellLine) ++ rest) grid rest
      { grid with
        elementIds := resizeWith 0 grid.elementIds elements.length
        elementTypes := resizeWith (.ofNat 0) grid.elementTypes elements.length
        elementConnectivities := conns
        read := grid.read ++ [.cells] } := by
  obtain ⟨gap, hGap, hShorter, hExtract⟩ := extractCells_lines hConns
    (show (resizeWith [] grid.elementConnectivities elements.length).length = _ by
      rw [length_resizeWith, hLength])
    text.uninitialized.toNat (.inl rfl) ('\n' :: rest)
  have hPlain : Plain (' ' :: numberText (cellListSize elements)) := plain_space_numberText _
  have hFind : find Section.cells.keyword ("CELLS ".toList ++ numberText elements.length ++
      ' ' :: numberText (cellListSize elements)) = some 0 := by
    rw [find_numbered .cells _ _ hPlain]
    decide
  have hPoints : find Section.points.keyword ("CELLS ".toList ++ numberText elements.length ++
      ' ' :: numberText (cellListSize elements)) = none := by
    rw [find_numbered .points _ _ hPlain]
    decide
  have hCount : countAfter text ("CELLS ".toList ++ numberText elements.length ++
      ' ' :: numberText (cellListSize elements)) 0 6 =
      .ok (elements.length, numberText elements.length ++
        ' ' :: numberText (cellListSize elements)) := by
    rw [List.append_assoc]
    exact countAfter_keyword "CELLS ".toList _ hSize (by decide) (by decide)
  have hQuiet : Quiet (numberText elements.length ++ ' ' :: numberText (cellListSize elements)) :=
    ((plain_numberText _).append hPlain).quiet
  have hLine : '\n' ∉ "CELLS ".toList ++ numberText elements.length ++
      ' ' :: numberText (cellListSize elements) :=
    newline_notMem_numbered _ (by decide)
      (List.not_mem_cons_of_ne_of_not_mem (by decide) (newline_notMem_numberText _))
  have hSection : cellsSection elements (conns.flatMap cellLine) ++ rest =
      ("CELLS ".toList ++ numberText elements.length ++
        ' ' :: numberText (cellListSize elements)) ++
        '\n' :: (conns.flatMap cellLine ++ '\n' :: rest) := by
    unfold cellsSection
    simp only [List.append_assoc, List.cons_append, List.nil_append]
  have hRead := readLine_cells (before (conns.flatMap cellLine ++ '\n' :: rest)) grid
    hPoints hFind hCount hQuiet
  rw [List.nil_append] at hExtract
  rw [hExtract] at hRead
  have hLength' : (gap ++ '\n' :: rest).length ≤ ("CELLS ".toList ++ numberText elements.length ++
      ' ' :: numberText (cellListSize elements)).length +
        (conns.flatMap cellLine ++ '\n' :: rest).length := by
    rw [List.length_nil] at hShorter
    simp only [List.length_append]
    omega
  rw [hSection]
  exact (scans_line hLine hLength' hRead).trans
    (hGap.scans.trans (scans_quiet quiet_nil (by decide)))

end Cells

section Fields

theorem scans_cellTypes {elements : List Element} (codes : List Int) (grid : Grid) :
    Scans text (cellTypesSection elements
      ((codes.map integerText).flatMap fun line => line ++ ['\n']) ++ rest) grid rest grid := by
  have hHeader : Quiet ("CELL_TYPES ".toList ++ numberText elements.length) := by
    apply Quiet.append _ (plain_numberText _)
    intro kind
    cases kind <;> decide
  have hLine : '\n' ∉ "CELL_TYPES ".toList ++ numberText elements.length :=
    newline_notMem_append (by decide) (newline_notMem_numberText _)
  have hCodes : ∀ line ∈ codes.map integerText, Quiet line ∧ '\n' ∉ line := by
    intro line hMem
    obtain ⟨code, -, rfl⟩ := List.mem_map.mp hMem
    exact ⟨(plain_integerText code).quiet, newline_notMem_integerText code⟩
  have hSection : cellTypesSection elements
      ((codes.map integerText).flatMap fun line => line ++ ['\n']) ++ rest =
      ("CELL_TYPES ".toList ++ numberText elements.length) ++ '\n' ::
        (((codes.map integerText).flatMap fun line => line ++ ['\n']) ++ ([] ++ '\n' :: rest)) := by
    unfold cellTypesSection
    simp only [List.append_assoc, List.cons_append, List.nil_append]
  rw [hSection]
  exact (scans_quiet hHeader hLine).trans
    ((scans_lines hCodes).trans (scans_quiet quiet_nil (by decide)))

/-- The line has the keyword of this section only. -/
def Names (kind : Section) (line : Text) : Prop :=
  ∀ other : Section, find other.keyword line = if other = kind then some 0 else none

def fieldLine (kind : Section) (count : Nat) : Text :=
  (kind.keyword ++ " 1 ".toList) ++ numberText count ++ " int".toList

theorem names_fieldLine {kind : Section} (hKind : Names kind (kind.keyword ++ " 1 ".toList))
    (count : Nat) : Names kind (fieldLine kind count) := by
  intro other
  have hPlain : Plain " int".toList := by decide
  rw [fieldLine, find_numbered other _ count hPlain]
  exact hKind other

theorem scans_fieldHeader {data : Text} {kind : Section} {count : Nat} {chars chars' : Text}
    {grid grid' : Grid} (hData : Quiet data ∧ '\n' ∉ data) (hKind : '\n' ∉ kind.keyword)
    (hLength : chars'.length ≤ chars.length) {line' : Text}
    (hRead : readLine text (fieldLine kind count, before chars, grid) =
      some (.ok (line', before chars', grid'))) :
    Scans text (fieldHeader data kind.keyword count ++ chars) grid chars' grid' := by
  have hPlain : Plain (' ' :: numberText count) := plain_space_numberText _
  have hDataLine : '\n' ∉ data ++ ' ' :: numberText count :=
    newline_notMem_append hData.2
      (List.not_mem_cons_of_ne_of_not_mem (by decide) (newline_notMem_numberText _))
  have hFieldQuiet : Quiet "FIELD FieldData 1".toList := by
    intro kind
    cases kind <;> decide
  have hKeyword : '\n' ∉ fieldLine kind count :=
    newline_notMem_numbered _ (newline_notMem_append hKind (by decide)) (by decide)
  have hHeader : fieldHeader data kind.keyword count ++ chars =
      (data ++ ' ' :: numberText count) ++ '\n' ::
        ("FIELD FieldData 1".toList ++ '\n' :: (fieldLine kind count ++ '\n' :: chars)) := by
    have hField : "\nFIELD FieldData 1\n".toList =
        '\n' :: ("FIELD FieldData 1".toList ++ ['\n']) := by decide
    have hInt : " int\n".toList = " int".toList ++ ['\n'] := by decide
    unfold fieldHeader fieldLine
    simp only [hField, hInt, List.append_assoc, List.cons_append, List.nil_append]
  rw [hHeader]
  exact (scans_quiet (hData.1.append hPlain) hDataLine).trans
    ((scans_quiet hFieldQuiet (by decide)).trans
      (scans_line hKeyword (Nat.le_trans hLength (Nat.le_add_left _ _)) hRead))

theorem Names.self {kind : Section} (h : Names kind line) : find kind.keyword line = some 0 :=
  (h kind).trans (if_pos rfl)

theorem Names.others {kind other : Section} (h : Names kind line) (hOther : other ≠ kind) :
    find other.keyword line = none :=
  (h other).trans (if_neg hOther)

theorem readLine_nodeIds (text : CoordinateText) (hNames : Names .nodeId line) (input : Input)
    (grid : Grid) :
    readLine text (line, input, grid) =
      some (.ok (line, (extractEach parseId grid.nodalIds input).2, { grid with
        nodalIds := (extractEach parseId grid.nodalIds input).1
        read := grid.read ++ [.nodeId] })) := by
  rw [readLine, readPoints_none (hNames.others (by decide))]
  dsimp only [Except.bind]
  rw [readCells_none (hNames.others (by decide))]
  dsimp only
  rw [readNodeIds, hNames.self]
  dsimp only
  rw [readElementIds_none (hNames.others (by decide)),
    readElementTypes_none (hNames.others (by decide))]
  rfl

theorem readLine_elementIds (text : CoordinateText) (hNames : Names .elementId line) (input : Input)
    (grid : Grid) :
    readLine text (line, input, grid) =
      some (.ok (line, (extractEach parseId grid.elementIds input).2, { grid with
        elementIds := (extractEach parseId grid.elementIds input).1
        read := grid.read ++ [.elementId] })) := by
  rw [readLine, readPoints_none (hNames.others (by decide))]
  dsimp only [Except.bind]
  rw [readCells_none (hNames.others (by decide))]
  dsimp only
  rw [readNodeIds_none (hNames.others (by decide)), readElementIds, hNames.self]
  dsimp only
  rw [readElementTypes_none (hNames.others (by decide))]
  rfl

theorem readLine_elementTypes (hNames : Names .elementType line) (input : Input) (grid : Grid)
    {types : List ElementType} {input' : Input}
    (hTypes : extractTypes grid.elementTypes.length (text.uninitialized.setWidth 32) input =
      some (types, input')) :
    readLine text (line, input, grid) =
      some (.ok (line, input', { grid with
        elementTypes := types
        read := grid.read ++ [.elementType] })) := by
  rw [readLine, readPoints_none (hNames.others (by decide))]
  dsimp only [Except.bind]
  rw [readCells_none (hNames.others (by decide))]
  dsimp only
  rw [readNodeIds_none (hNames.others (by decide)),
    readElementIds_none (hNames.others (by decide)), readElementTypes, hNames.self]
  dsimp only
  rw [hTypes]
  rfl

def idLine (id : Int64) : Field Int64 := ⟨id, idText id, '\n'⟩

theorem extractEach_idLines {ids olds : List Int64} (hLength : olds.length = ids.length)
    (rest : Text) :
    ∃ gap, Lead gap ∧ gap.length ≤ (idLines ids).length ∧
      extractEach parseId olds (before (idLines ids ++ rest)) = (ids, before (gap ++ rest)) := by
  have hWritten : (ids.map idLine).flatMap Field.written = idLines ids := by
    rw [List.flatMap_map]
    rfl
  have hValue : (ids.map idLine).map Field.value = ids := by
    rw [List.map_map]
    exact List.map_id ids
  have hSound : ∀ field ∈ ids.map idLine, field.Sound parseId := by
    intro field hField
    obtain ⟨id, -, rfl⟩ := List.mem_map.mp hField
    exact ⟨token_idText id, rfl⟩
  have hLast : ∀ field ∈ (ids.map idLine).getLast?, field.space = '\n' := by
    intro field hField
    obtain ⟨id, -, rfl⟩ := List.mem_map.mp (List.mem_of_getLast? hField)
    rfl
  have hShorter := length_gapAfter_le [] (ids.map idLine)
  have hExtract := extractEach_fields hSound
    (show olds.length = _ by rw [List.length_map, hLength]) blank_nil rest
  rw [hWritten, List.length_nil, Nat.zero_add] at hShorter
  rw [List.nil_append, hWritten, hValue] at hExtract
  exact ⟨_, lead_gapAfter (.inl rfl) hLast, hShorter, hExtract⟩

theorem extractTypes_typeLines (types : List ElementType) (enumTemp : BitVec 32) {gap : Text}
    (hGap : Lead gap) (rest : Text) :
    ∃ gap', Lead gap' ∧ gap'.length ≤ gap.length + (typeLines types).length ∧
      extractTypes types.length enumTemp (before (gap ++ (typeLines types ++ rest))) =
        some (types, before (gap' ++ rest)) := by
  induction types generalizing enumTemp gap with
  | nil => exact ⟨gap, hGap, Nat.le_add_right _ _, rfl⟩
  | cons type types ih =>
    obtain ⟨gap', hGap', hShorter, hRest⟩ := ih type.code (.inr rfl)
    have hFirst := (token_integerText 32 type.code).extract hGap.blank
      (show isSpace '\n' = true from rfl) (typeLines types ++ rest) enumTemp
    have hLine : typeLines (type :: types) ++ rest =
        integerText type.code.toInt ++ '\n' :: (typeLines types ++ rest) := by
      simp only [typeLines, List.flatMap_cons, List.append_assoc, List.cons_append, List.nil_append]
    refine ⟨gap', hGap', ?_, ?_⟩
    · rw [typeLines, List.flatMap_cons, List.length_append, List.length_append]
      rw [typeLines] at hShorter
      omega
    · rw [List.length_cons, extractTypes, hLine, hFirst]
      dsimp only
      rw [ElementType.ofCode_code]
      dsimp only [bind, Option.bind]
      rw [List.singleton_append] at hRest
      rw [hRest]
      rfl

theorem scans_nodeIds {ids : List Int64} {count : Nat} (hCount : ids.length = count) (grid : Grid)
    (hLength : grid.nodalIds.length = ids.length) :
    Scans text (fieldHeader "POINT_DATA".toList "NODE_ID".toList count ++
      (idLines ids ++ '\n' :: rest)) grid rest
      { grid with nodalIds := ids, read := grid.read ++ [.nodeId] } := by
  cases hCount
  obtain ⟨gap, hGap, hShorter, hExtract⟩ := extractEach_idLines hLength ('\n' :: rest)
  have hData : Quiet "POINT_DATA".toList := by
    intro kind
    cases kind <;> decide
  have hNames : Names .nodeId (fieldLine .nodeId ids.length) := by
    apply names_fieldLine
    intro kind
    cases kind <;> decide
  have hRead := readLine_nodeIds text hNames (before (idLines ids ++ '\n' :: rest)) grid
  rw [hExtract] at hRead
  have hLength' : (gap ++ '\n' :: rest).length ≤ (idLines ids ++ '\n' :: rest).length := by
    simp only [List.length_append]
    omega
  have hKeyword : "NODE_ID".toList = Section.nodeId.keyword := rfl
  rw [hKeyword]
  exact (scans_fieldHeader ⟨hData, by decide⟩ (by decide) hLength' hRead).trans
    (hGap.scans.trans (scans_quiet quiet_nil (by decide)))

theorem scans_elementIds {ids : List Int64} {count : Nat} (hCount : ids.length = count)
    (grid : Grid) (hLength : grid.elementIds.length = ids.length) :
    Scans text (fieldHeader "CELL_DATA".toList "ELEMENT_ID".toList count ++
      (idLines ids ++ '\n' :: rest)) grid rest
      { grid with elementIds := ids, read := grid.read ++ [.elementId] } := by
  cases hCount
  obtain ⟨gap, hGap, hShorter, hExtract⟩ := extractEach_idLines hLength ('\n' :: rest)
  have hData : Quiet "CELL_DATA".toList := by
    intro kind
    cases kind <;> decide
  have hNames : Names .elementId (fieldLine .elementId ids.length) := by
    apply names_fieldLine
    intro kind
    cases kind <;> decide
  have hRead := readLine_elementIds text hNames (before (idLines ids ++ '\n' :: rest)) grid
  rw [hExtract] at hRead
  have hLength' : (gap ++ '\n' :: rest).length ≤ (idLines ids ++ '\n' :: rest).length := by
    simp only [List.length_append]
    omega
  have hKeyword : "ELEMENT_ID".toList = Section.elementId.keyword := rfl
  rw [hKeyword]
  exact (scans_fieldHeader ⟨hData, by decide⟩ (by decide) hLength' hRead).trans
    (hGap.scans.trans (scans_quiet quiet_nil (by decide)))

theorem scans_elementTypes (text : CoordinateText) (types : List ElementType) {count : Nat}
    (hCount : types.length = count) :
    ∃ gap, Lead gap ∧ ∀ grid : Grid, grid.elementTypes.length = types.length →
      Scans text (fieldHeader "CELL_DATA".toList "ELEMENT_TYPE".toList count ++ typeLines types)
        grid gap { grid with elementTypes := types, read := grid.read ++ [.elementType] } := by
  cases hCount
  obtain ⟨gap, hGap, hShorter, hTypes⟩ := extractTypes_typeLines types
    (text.uninitialized.setWidth 32) (.inl rfl) []
  have hData : Quiet "CELL_DATA".toList := by
    intro kind
    cases kind <;> decide
  have hNames : Names .elementType (fieldLine .elementType types.length) := by
    apply names_fieldLine
    intro kind
    cases kind <;> decide
  rw [List.nil_append, List.append_nil, List.append_nil] at hTypes
  rw [List.length_nil, Nat.zero_add] at hShorter
  refine ⟨gap, hGap, ?_⟩
  intro grid hLength
  rw [← hLength] at hTypes
  have hRead := readLine_elementTypes hNames (before (typeLines types)) grid hTypes
  have hKeyword : "ELEMENT_TYPE".toList = Section.elementType.keyword := rfl
  rw [hKeyword]
  exact scans_fieldHeader ⟨hData, by decide⟩ (by decide) hShorter hRead

end Fields

section File

theorem scans_header (grid : Grid) : Scans text (header ++ rest) grid rest grid := by
  have hHeader : header = ["# vtk DataFile Version 4.0".toList,
      "CoSimIO FileCommunication".toList, "ASCII".toList, "DATASET UNSTRUCTURED_GRID".toList,
      []].flatMap fun line => line ++ ['\n'] := by decide
  rw [hHeader]
  apply scans_lines
  simp only [List.forall_mem_cons]
  refine ⟨⟨?_, by decide⟩, ⟨?_, by decide⟩, ⟨?_, by decide⟩, ⟨?_, by decide⟩, ⟨?_, by decide⟩,
    nofun⟩
  all_goals
    intro kind
    cases kind <;> decide

theorem readGrid_sections {nodes : List Node} {elements : List Element}
    {conns : List (List Int64)} (codes : List Int)
    (hNodes : nodes.length < 2 ^ 64) (hElements : elements.length < 2 ^ 64)
    (hReadsBack : ∀ node ∈ nodes, ∀ v ∈ coordinates node, text.ReadsBack v)
    (hLength : conns.length = elements.length)
    (hConns : ∀ ids ∈ conns, ids ≠ [] ∧ ids.length < 2 ^ 64) :
    readGrid text (header ++ pointsSection text nodes ++
      cellsSection elements (conns.flatMap cellLine) ++
      cellTypesSection elements ((codes.map integerText).flatMap fun line => line ++ ['\n']) ++
      fieldHeader "POINT_DATA".toList "NODE_ID".toList nodes.length ++
      idLines (nodes.map Node.id) ++ '\n' ::
      fieldHeader "CELL_DATA".toList "ELEMENT_ID".toList elements.length ++
      idLines (elements.map Element.id) ++ '\n' ::
      fieldHeader "CELL_DATA".toList "ELEMENT_TYPE".toList elements.length ++
      typeLines (elements.map Element.type)) =
    some (.ok ⟨nodes.flatMap coordinates, nodes.map Node.id, elements.map Element.id,
      elements.map Element.type, conns, [.points, .cells, .nodeId, .elementId, .elementType]⟩) := by
  obtain ⟨gap, hGap, hTypes⟩ := scans_elementTypes text (elements.map Element.type)
    (List.length_map _)
  simp only [List.append_assoc, List.cons_append]
  apply Scans.readGrid hGap
  refine (scans_header _).trans ?_
  refine (scans_points _ hNodes hReadsBack).trans ?_
  refine (scans_cells _ hLength hElements hConns).trans ?_
  refine (scans_cellTypes codes _).trans ?_
  refine (scans_nodeIds (List.length_map _) _ ?_).trans ?_
  · rw [length_resizeWith, List.length_map]
  refine (scans_elementIds (List.length_map _) _ ?_).trans ?_
  · rw [length_resizeWith, List.length_map]
  refine hTypes _ ?_
  rw [length_resizeWith, List.length_map]

end File

end CoSimIO.Vtk

import CoSimIO.ModelPart.Bulk
import CoSimIO.ModelPart.Serialization
import CoSimIO.Serializer.Values

/-! # `WriteVtk` and `ReadVtk`

The text of the file in between. How a coordinate is printed and parsed is left to
`CoordinateText`.
-/

namespace CoSimIO

set_option autoImplicit false

/-- `Utilities::GetElementName` -/
def ElementType.name : ElementType → Text
  | .hexahedra3D20 => "Hexahedra3D20".toList
  | .hexahedra3D27 => "Hexahedra3D27".toList
  | .hexahedra3D8 => "Hexahedra3D8".toList
  | .prism3D15 => "Prism3D15".toList
  | .prism3D6 => "Prism3D6".toList
  | .pyramid3D13 => "Pyramid3D13".toList
  | .pyramid3D5 => "Pyramid3D5".toList
  | .quadrilateral2D4 => "Quadrilateral2D4".toList
  | .quadrilateral2D8 => "Quadrilateral2D8".toList
  | .quadrilateral2D9 => "Quadrilateral2D9".toList
  | .quadrilateral3D4 => "Quadrilateral3D4".toList
  | .quadrilateral3D8 => "Quadrilateral3D8".toList
  | .quadrilateral3D9 => "Quadrilateral3D9".toList
  | .tetrahedra3D10 => "Tetrahedra3D10".toList
  | .tetrahedra3D4 => "Tetrahedra3D4".toList
  | .triangle2D3 => "Triangle3D3".toList
  | .triangle2D6 => "Triangle2D6".toList
  | .triangle3D3 => "Triangle3D3".toList
  | .triangle3D6 => "Triangle3D6".toList
  | .line2D2 => "Line2D2".toList
  | .line2D3 => "Line2D3".toList
  | .line3D2 => "Line3D2".toList
  | .line3D3 => "Line3D3".toList
  | .point2D => "Point2D".toList
  | .point3D => "Point3D".toList

/-- `GetVtkCellTypeForElementType` -/
def ElementType.vtkCellType : ElementType → Option Int
  | .hexahedra3D20 => some 25
  | .hexahedra3D8 => some 12
  | .prism3D6 => some 13
  | .pyramid3D5 => some 14
  | .quadrilateral2D4 => some 9
  | .quadrilateral2D8 => some 23
  | .quadrilateral3D4 => some 9
  | .quadrilateral3D8 => some 23
  | .tetrahedra3D10 => some 24
  | .tetrahedra3D4 => some 10
  | .triangle2D3 => some 5
  | .triangle2D6 => some 22
  | .triangle3D3 => some 5
  | .triangle3D6 => some 22
  | .line2D2 => some 3
  | .line2D3 => some 21
  | .line3D2 => some 3
  | .line3D3 => some 21
  | .point2D => some 1
  | .point3D => some 1
  | _ => none

namespace Vtk

open ModelPart Serializer

/-- `operator<<` with `std::scientific` and the precision of the settings, `operator>>`, and what
a variable holds before its first assignment. -/
structure CoordinateText where
  print : BitVec 64 → Text
  parse : Text → (BitVec 64 × Bool) × Text
  uninitialized : BitVec 64

section Write

variable (text : CoordinateText)

def header : Text :=
  "# vtk DataFile Version 4.0\nCoSimIO FileCommunication\nASCII\nDATASET UNSTRUCTURED_GRID\n\n".toList

def numberText (n : Nat) : Text := Nat.toDigits 10 n

def pointLine (node : Node) : Text :=
  text.print node.x ++ ' ' :: text.print node.y ++ ' ' :: text.print node.z ++ ['\n']

/-- `id_map[r_node.Id()] = vtk_id++` -/
def idMap : List Node → Int64 → (Int64 → Option Int64) → Int64 → Option Int64
  | [], _, ids => ids
  | node :: nodes, vtkId, ids =>
    idMap nodes (vtkId + 1) fun id => if id = node.id then some vtkId else ids id

def notPartError (nodeId elementId : Int64) : Text :=
  "The node with Id ".toList ++ idText nodeId ++
    " is not part of the ModelPart but used for Element with Id ".toList ++ idText elementId ++
    ['\n']

def vtkIds (ids : Int64 → Option Int64) (elementId : Int64) : List Node →
    Except Text (List Int64)
  | [] => .ok []
  | node :: nodes => match ids node.id with
    | none => .error (notPartError node.id elementId)
    | some vtkId => do
      let rest ← vtkIds ids elementId nodes
      return vtkId :: rest

def cellLine (ids : List Int64) : Text :=
  numberText ids.length ++ ' ' :: [' '].intercalate (ids.map idText) ++ ['\n']

def cellLines (heap : Heap) (ids : Int64 → Option Int64) : List Element → Except Text Text
  | [] => .ok []
  | element :: elements => do
    let vtkIds ← vtkIds ids element.id (element.nodes.map heap.nodes)
    let rest ← cellLines heap ids elements
    return cellLine vtkIds ++ rest

def cellTypeError (type : ElementType) : Text :=
  "Vtk does not support element type: ".toList ++ type.name ++ ['\n']

def cellTypeLines : List Element → Except Text Text
  | [] => .ok []
  | element :: elements => match element.type.vtkCellType with
    | none => .error (cellTypeError element.type)
    | some cellType => do
      let rest ← cellTypeLines elements
      return integerText cellType ++ '\n' :: rest

def cellListSize (elements : List Element) : Nat :=
  elements.foldl (fun size element => (size + (element.nodes.length + 1)) % 2 ^ 64) 0

def idLines (ids : List Int64) : Text := ids.flatMap fun id => idText id ++ ['\n']

def typeLines (types : List ElementType) : Text :=
  types.flatMap fun type => integerText type.code.toInt ++ ['\n']

def pointsSection (nodes : List Node) : Text :=
  "POINTS ".toList ++ numberText nodes.length ++ " float\n".toList ++
    nodes.flatMap (pointLine text) ++ ['\n']

def cellsSection (elements : List Element) (lines : Text) : Text :=
  "CELLS ".toList ++ numberText elements.length ++ ' ' :: numberText (cellListSize elements) ++
    '\n' :: lines ++ ['\n']

def cellTypesSection (elements : List Element) (lines : Text) : Text :=
  "CELL_TYPES ".toList ++ numberText elements.length ++ '\n' :: lines ++ ['\n']

def fieldHeader (data keyword : Text) (count : Nat) : Text :=
  data ++ ' ' :: numberText count ++ "\nFIELD FieldData 1\n".toList ++
    keyword ++ " 1 ".toList ++ numberText count ++ " int\n".toList

def writeVtk (s : State) : Except Text Text := do
  let nodes := s.part.nodes.data.map s.heap.nodes
  let elements := s.part.elements.data.map s.heap.elements
  let cells ← cellLines s.heap (idMap nodes 0 fun _ => none) elements
  let cellTypes ← cellTypeLines elements
  return header ++ pointsSection text nodes ++ cellsSection elements cells ++
    cellTypesSection elements cellTypes ++
    fieldHeader "POINT_DATA".toList "NODE_ID".toList nodes.length ++
    idLines (nodes.map Node.id) ++ '\n' ::
    fieldHeader "CELL_DATA".toList "ELEMENT_ID".toList elements.length ++
    idLines (elements.map Element.id) ++ '\n' ::
    fieldHeader "CELL_DATA".toList "ELEMENT_TYPE".toList elements.length ++
    typeLines (elements.map Element.type)

end Write

section Read

inductive Section
  | points
  | cells
  | nodeId
  | elementId
  | elementType
deriving DecidableEq

def Section.keyword : Section → Text
  | .points => "POINTS".toList
  | .cells => "CELLS".toList
  | .nodeId => "NODE_ID".toList
  | .elementId => "ELEMENT_ID".toList
  | .elementType => "ELEMENT_TYPE".toList

/-- The variables of `ReadVtk`, and which sections were read. -/
structure Grid where
  nodalCoords : List (BitVec 64)
  nodalIds : List Int64
  elementIds : List Int64
  elementTypes : List ElementType
  elementConnectivities : List (List Int64)
  read : List Section

def Grid.empty : Grid := ⟨[], [], [], [], [], []⟩

/-- `std::string::find` -/
def find (pattern : Text) : Text → Option Nat
  | [] => if pattern.isEmpty then some 0 else none
  | c :: cs => if pattern.isPrefixOf (c :: cs) then some 0 else (find pattern cs).map (· + 1)

def outOfRange : Text := "basic_string::substr\n".toList

/-- The number behind the keyword, and what is left of the line. -/
def countAfter (text : CoordinateText) (line : Text) (position skip : Nat) :
    Except Text (Nat × Text) :=
  if position + skip ≤ line.length then
    let rest := line.drop (position + skip)
    let count := (Input.extract ⟨rest, true, 0⟩ (parseInteger 64 10 false)).1.getD
      text.uninitialized
    .ok (count.toNat, rest)
  else .error outOfRange

def extractInto {α : Type} (input : Input) (old : α) (parse : Text → (α × Bool) × Text) :
    α × Input :=
  let read := input.extract parse
  (read.1.getD old, read.2)

def extractEach {α : Type} (parse : Text → (α × Bool) × Text) : List α → Input → List α × Input
  | [], input => ([], input)
  | old :: olds, input =>
    let read := extractInto input old parse
    let rest := extractEach parse olds read.2
    (read.1 :: rest.1, rest.2)

def parseId (text : Text) : (Int64 × Bool) × Text :=
  let parsed := parseInteger 64 10 true text
  ((Int64.ofBitVec parsed.1.1, parsed.1.2), parsed.2)

def parseSize (text : Text) : (Nat × Bool) × Text :=
  let parsed := parseInteger 64 10 false text
  ((parsed.1.1.toNat, parsed.1.2), parsed.2)

/-- The variable for the number of nodes is the same for all cells. -/
def extractCells : List (List Int64) → Nat → Input → List (List Int64) × Input
  | [], _, input => ([], input)
  | old :: olds, numNodesPerElem, input =>
    let size := extractInto input numNodesPerElem parseSize
    let ids := extractEach parseId (resizeWith 0 old size.1) size.2
    let rest := extractCells olds size.1 ids.2
    (ids.1 :: rest.1, rest.2)

/-- An integer that is no enumerator is none of the values of the model, which stops there. -/
def extractTypes : Nat → BitVec 32 → Input → Option (List ElementType × Input)
  | 0, _, input => some ([], input)
  | count + 1, enumTemp, input => do
    let code := extractInto input enumTemp (parseInteger 32 10 true)
    let type ← ElementType.ofCode code.1
    let rest ← extractTypes count code.1 code.2
    return (type :: rest.1, rest.2)

variable (text : CoordinateText)

/-- The line, the rest of the file and the variables while a line is examined. -/
abbrev Scan : Type := Text × Input × Grid

def readPoints : Scan → Except Text Scan
  | (line, input, grid) => match find Section.points.keyword line with
    | none => .ok (line, input, grid)
    | some position => do
      let (numNodes, line) ← countAfter text line position 7
      let coords := extractEach text.parse (resizeWith 0 grid.nodalCoords (3 * numNodes)) input
      return (line, coords.2, { grid with
        nodalCoords := coords.1
        nodalIds := resizeWith 0 grid.nodalIds numNodes
        read := grid.read ++ [.points] })

def readCells : Scan → Except Text Scan
  | (line, input, grid) => match find Section.cells.keyword line with
    | none => .ok (line, input, grid)
    | some position => do
      let (numElems, line) ← countAfter text line position 6
      let cells := extractCells (resizeWith [] grid.elementConnectivities numElems)
        text.uninitialized.toNat input
      return (line, cells.2, { grid with
        elementIds := resizeWith 0 grid.elementIds numElems
        elementTypes := resizeWith (.ofNat 0) grid.elementTypes numElems
        elementConnectivities := cells.1
        read := grid.read ++ [.cells] })

def readNodeIds : Scan → Scan
  | (line, input, grid) => match find Section.nodeId.keyword line with
    | none => (line, input, grid)
    | some _ =>
      let ids := extractEach parseId grid.nodalIds input
      (line, ids.2, { grid with nodalIds := ids.1, read := grid.read ++ [.nodeId] })

def readElementIds : Scan → Scan
  | (line, input, grid) => match find Section.elementId.keyword line with
    | none => (line, input, grid)
    | some _ =>
      let ids := extractEach parseId grid.elementIds input
      (line, ids.2, { grid with elementIds := ids.1, read := grid.read ++ [.elementId] })

def readElementTypes : Scan → Option Scan
  | (line, input, grid) => match find Section.elementType.keyword line with
    | none => some (line, input, grid)
    | some _ => do
      let types ← extractTypes grid.elementTypes.length (text.uninitialized.setWidth 32) input
      return (line, types.2, { grid with
        elementTypes := types.1, read := grid.read ++ [.elementType] })

/-- The body of the loop over the lines. There is no result where the model stops. -/
def readLine (scan : Scan) : Option (Except Text Scan) :=
  match (readPoints text scan).bind (readCells text) with
  | .error message => some (.error message)
  | .ok scan => (readElementTypes text (readElementIds (readNodeIds scan))).map .ok

/-- `std::getline` fails when there is no character left. -/
def nextLine (input : Input) : Option (Text × Input) :=
  if input.chars.isEmpty then none
  else match input.getline '\n' with
    | (some line, rest) => some (line, rest)
    | (none, _) => none

/-- Every line takes a character at least, so that the fuel is enough. -/
def readLines : Nat → Input → Grid → Option (Except Text Grid)
  | 0, _, _ => none
  | fuel + 1, input, grid => match nextLine input with
    | none => some (.ok grid)
    | some (line, rest) => match readLine text (line, rest, grid) with
      | none => none
      | some (.error message) => some (.error message)
      | some (.ok (_, rest, grid)) => readLines fuel rest grid

def readGrid (file : Text) : Option (Except Text Grid) :=
  readLines text (file.length + 1) ⟨file, true, 0⟩ .empty

def originalIds (nodalIds : List Int64) : List Int64 → Option (List Int64)
  | [] => some []
  | conn :: conns => do
    let id ← if conn < 0 then none else nodalIds[conn.toInt.toNat]?
    let rest ← originalIds nodalIds conns
    return id :: rest

def createNode (grid : Grid) (i : Nat) (s : State) : Option (State × Outcome) := do
  return createNewNode s (← grid.nodalIds[i]?) (← grid.nodalCoords[i * 3]?)
    (← grid.nodalCoords[i * 3 + 1]?) (← grid.nodalCoords[i * 3 + 2]?)

def createElement (grid : Grid) (i : Nat) (s : State) : Option (State × Outcome) := do
  let connectivities ← originalIds grid.nodalIds (← grid.elementConnectivities[i]?)
  return createNewElement s (← grid.elementIds[i]?) (← grid.elementTypes[i]?) connectivities

/-- There is no result when a container is accessed out of its bounds. -/
def fillModelPart (grid : Grid) (s : State) : Option (State × Outcome) :=
  match forEach (createNode grid) (List.range grid.nodalIds.length) s with
  | some (s, .ok ()) => forEach (createElement grid) (List.range grid.elementIds.length) s
  | result => result

def readVtk (file : Text) (s : State) : Option (State × Outcome) :=
  match readGrid text file with
  | none => none
  | some (.error message) => some (s, .error message)
  | some (.ok grid) => fillModelPart grid s

end Read

end Vtk

end CoSimIO

import CoSimIO.Serializer.ReadBack
import Mathlib.Data.List.Forall2

/-! # Values that are saved without pointers

The types `Serializer` saves and loads by value: scalars, strings, the containers of the
standard library and classes that save their members one after the other. A map is the list of
its entries in the order of iteration.
-/

namespace CoSimIO.Serializer

set_option autoImplicit false

/-- The types with a `CO_SIM_IO_SERIALIZATION_DIRECT_SAVE` -/
inductive Scalar
  | bool
  | integer (t : IntegerType)
  | double
  | float
  | string
deriving DecidableEq

abbrev Scalar.Carrier : Scalar → Type
  | .bool => Bool
  | .integer t => t.Carrier
  | .double => BitVec 64
  | .float => BitVec 32
  | .string => Text

instance Scalar.decEqCarrier : (s : Scalar) → DecidableEq s.Carrier
  | .bool => inferInstanceAs (DecidableEq Bool)
  | .integer t => inferInstanceAs (DecidableEq t.Carrier)
  | .double => inferInstanceAs (DecidableEq (BitVec 64))
  | .float => inferInstanceAs (DecidableEq (BitVec 32))
  | .string => inferInstanceAs (DecidableEq Text)

mutual

inductive Shape
  | scalar (s : Scalar)
  | pair (first second : Shape)
  | array (size : Nat) (element : Shape)
  | vector (element : Shape)
  | map (key value : Shape)
  | object (members : Members)

/-- What the `save` of a class saves, with the tags. A base class is a member with the tag
`BaseClass`. -/
inductive Members
  | nil
  | cons (tag : Text) (type : Shape) (rest : Members)

end

mutual

@[reducible] def Shape.Carrier : Shape → Type
  | .scalar s => s.Carrier
  | .pair a b => a.Carrier × b.Carrier
  | .array size a => { elements : List a.Carrier // elements.length = size }
  | .vector a => List a.Carrier
  | .map a b => List (a.Carrier × b.Carrier)
  | .object members => members.Carrier

@[reducible] def Members.Carrier : Members → Type
  | .nil => Unit
  | .cons _ a rest => a.Carrier × rest.Carrier

end

mutual

/-- `operator==`, with which the maps also compare their keys. -/
def Shape.equal : (a : Shape) → a.Carrier → a.Carrier → Bool
  | .scalar _, v, w => decide (v = w)
  | .pair a b, v, w => a.equal v.1 w.1 && b.equal v.2 w.2
  | .array _ a, v, w => List.all₂ a.equal v.1 w.1
  | .vector a, v, w => List.all₂ a.equal v w
  | .map a b, v, w =>
    v.all (fun x => w.any fun y => a.equal x.1 y.1 && b.equal x.2 y.2) &&
      w.all (fun y => v.any fun x => a.equal x.1 y.1 && b.equal x.2 y.2)
  | .object members, v, w => members.equal v w

def Members.equal : (members : Members) → members.Carrier → members.Carrier → Bool
  | .nil, _, _ => true
  | .cons _ a rest, v, w => a.equal v.1 w.1 && rest.equal v.2 w.2

end

mutual

/-- The value after value initialization -/
def Shape.default : (a : Shape) → a.Carrier
  | .scalar .bool => false
  | .scalar (.integer _) => 0
  | .scalar .double => 0
  | .scalar .float => 0
  | .scalar .string => []
  | .pair a b => (a.default, b.default)
  | .array size a => ⟨List.replicate size a.default, List.length_replicate⟩
  | .vector _ => []
  | .map _ _ => []
  | .object members => members.default

def Members.default : (members : Members) → members.Carrier
  | .nil => ()
  | .cons _ a rest => (a.default, rest.default)

end

section Properties

mutual

theorem Shape.equal_symm : (a : Shape) → ∀ {v w : a.Carrier}, a.equal v w = true →
    a.equal w v = true
  | .scalar _, v, w, h => decide_eq_true (of_decide_eq_true h).symm
  | .pair a b, v, w, h => by
    simp only [Shape.equal, Bool.and_eq_true] at h ⊢
    exact ⟨a.equal_symm h.1, b.equal_symm h.2⟩
  | .array _ a, v, w, h => by
    simp only [Shape.equal, List.all₂_eq_true] at h ⊢
    exact h.flip.imp fun _ _ hEqual => a.equal_symm hEqual
  | .vector a, v, w, h => by
    simp only [Shape.equal, List.all₂_eq_true] at h ⊢
    exact h.flip.imp fun _ _ hEqual => a.equal_symm hEqual
  | .map a b, v, w, h => by
    simp only [Shape.equal, Bool.and_eq_true, List.all_eq_true, List.any_eq_true] at h ⊢
    constructor
    · rintro x hx
      obtain ⟨y, hy, hKey, hValue⟩ := h.2 x hx
      exact ⟨y, hy, a.equal_symm hKey, b.equal_symm hValue⟩
    · rintro x hx
      obtain ⟨y, hy, hKey, hValue⟩ := h.1 x hx
      exact ⟨y, hy, a.equal_symm hKey, b.equal_symm hValue⟩
  | .object members, v, w, h => members.equal_symm h

theorem Members.equal_symm : (members : Members) → ∀ {v w : members.Carrier},
    members.equal v w = true → members.equal w v = true
  | .nil, _, _, _ => rfl
  | .cons _ a rest, v, w, h => by
    simp only [Members.equal, Bool.and_eq_true] at h ⊢
    exact ⟨a.equal_symm h.1, rest.equal_symm h.2⟩

end

theorem forall₂_trans {α : Type} {R : α → α → Prop}
    (hTrans : ∀ x y z, R x y → R y z → R x z) {u v w : List α} (h : List.Forall₂ R u v)
    (h' : List.Forall₂ R v w) : List.Forall₂ R u w := by
  induction h generalizing w with
  | nil => exact h'
  | cons hHead _ ih =>
    cases h' with
    | cons hHead' hTail' => exact .cons (hTrans _ _ _ hHead hHead') (ih hTail')

mutual

theorem Shape.equal_trans : (a : Shape) → ∀ {u v w : a.Carrier}, a.equal u v = true →
    a.equal v w = true → a.equal u w = true
  | .scalar _, u, v, w, h, h' =>
    decide_eq_true ((of_decide_eq_true h).trans (of_decide_eq_true h'))
  | .pair a b, u, v, w, h, h' => by
    simp only [Shape.equal, Bool.and_eq_true] at h h' ⊢
    exact ⟨a.equal_trans h.1 h'.1, b.equal_trans h.2 h'.2⟩
  | .array _ a, u, v, w, h, h' => by
    simp only [Shape.equal, List.all₂_eq_true] at h h' ⊢
    exact forall₂_trans (R := fun x y => a.equal x y = true) (fun _ _ _ => a.equal_trans) h h'
  | .vector a, u, v, w, h, h' => by
    simp only [Shape.equal, List.all₂_eq_true] at h h' ⊢
    exact forall₂_trans (R := fun x y => a.equal x y = true) (fun _ _ _ => a.equal_trans) h h'
  | .map a b, u, v, w, h, h' => by
    simp only [Shape.equal, Bool.and_eq_true, List.all_eq_true, List.any_eq_true] at h h' ⊢
    constructor
    · rintro x hx
      obtain ⟨y, hy, hKey, hValue⟩ := h.1 x hx
      obtain ⟨z, hz, hKey', hValue'⟩ := h'.1 y hy
      exact ⟨z, hz, a.equal_trans hKey hKey', b.equal_trans hValue hValue'⟩
    · rintro z hz
      obtain ⟨y, hy, hKey, hValue⟩ := h'.2 z hz
      obtain ⟨x, hx, hKey', hValue'⟩ := h.2 y hy
      exact ⟨x, hx, a.equal_trans hKey' hKey, b.equal_trans hValue' hValue⟩
  | .object members, u, v, w, h, h' => members.equal_trans h h'

theorem Members.equal_trans : (members : Members) → ∀ {u v w : members.Carrier},
    members.equal u v = true → members.equal v w = true → members.equal u w = true
  | .nil, _, _, _, _, _ => rfl
  | .cons _ a rest, u, v, w, h, h' => by
    simp only [Members.equal, Bool.and_eq_true] at h h' ⊢
    exact ⟨a.equal_trans h.1 h'.1, rest.equal_trans h.2 h'.2⟩

end

mutual

/-- Sizes are below what `std::size_t` counts, and a map has every key once. -/
def Shape.Sound : (a : Shape) → a.Carrier → Prop
  | .scalar _, _ => True
  | .pair a b, v => a.Sound v.1 ∧ b.Sound v.2
  | .array _ a, v => ∀ x ∈ v.1, a.Sound x
  | .vector a, v => List.length v < 2 ^ 64 ∧ ∀ x ∈ v, a.Sound x
  | .map a b, v => List.length v < 2 ^ 64 ∧ (∀ x ∈ v, a.Sound x.1 ∧ b.Sound x.2) ∧
    List.Pairwise (fun x y => a.equal x.1 y.1 = false) v
  | .object members, v => members.Sound v

def Members.Sound : (members : Members) → members.Carrier → Prop
  | .nil, _ => True
  | .cons _ a rest, v => a.Sound v.1 ∧ rest.Sound v.2

end

mutual

/-- Every scalar of the value is as wanted. -/
def Shape.Each (P : (s : Scalar) → s.Carrier → Prop) : (a : Shape) → a.Carrier → Prop
  | .scalar s, v => P s v
  | .pair a b, v => a.Each P v.1 ∧ b.Each P v.2
  | .array _ a, v => ∀ x ∈ v.1, a.Each P x
  | .vector a, v => ∀ x ∈ v, a.Each P x
  | .map a b, v => ∀ x ∈ v, a.Each P x.1 ∧ b.Each P x.2
  | .object members, v => members.Each P v

def Members.Each (P : (s : Scalar) → s.Carrier → Prop) :
    (members : Members) → members.Carrier → Prop
  | .nil, _ => True
  | .cons _ a rest, v => a.Each P v.1 ∧ rest.Each P v.2

end

mutual

/-- All maps in the value are empty. -/
def Shape.NoEntries : (a : Shape) → a.Carrier → Prop
  | .scalar _, _ => True
  | .pair a b, v => a.NoEntries v.1 ∧ b.NoEntries v.2
  | .array _ a, v => ∀ x ∈ v.1, a.NoEntries x
  | .vector a, v => ∀ x ∈ v, a.NoEntries x
  | .map _ _, v => v = []
  | .object members, v => members.NoEntries v

def Members.NoEntries : (members : Members) → members.Carrier → Prop
  | .nil, _ => True
  | .cons _ a rest, v => a.NoEntries v.1 ∧ rest.NoEntries v.2

end

mutual

/-- The tags of the members of all classes -/
def Shape.tags : Shape → List Text
  | .scalar _ => []
  | .pair a b => a.tags ++ b.tags
  | .array _ a => a.tags
  | .vector a => a.tags
  | .map a b => a.tags ++ b.tags
  | .object members => members.tags

def Members.tags : Members → List Text
  | .nil => []
  | .cons tag a rest => tag :: a.tags ++ rest.tags

end

mutual

theorem Shape.noEntries_default : (a : Shape) → a.NoEntries a.default
  | .scalar _ => trivial
  | .pair a b => ⟨a.noEntries_default, b.noEntries_default⟩
  | .array _ a => fun _ hx => (List.eq_of_mem_replicate hx) ▸ a.noEntries_default
  | .vector _ => nofun
  | .map _ _ => rfl
  | .object members => members.noEntries_default

theorem Members.noEntries_default : (members : Members) → members.NoEntries members.default
  | .nil => trivial
  | .cons _ a rest => ⟨a.noEntries_default, rest.noEntries_default⟩

end

end Properties

/-- A `float` is converted to a `double` to be written, and has a parser of its own. -/
structure FloatText where
  widen : BitVec 32 → BitVec 64
  parse : Text → (BitVec 32 × Bool) × Text

/-- Where `std::map` and `std::unordered_map` put a new entry. -/
abbrev Placement : Type :=
  (key value : Shape) → List (key.Carrier × value.Carrier) → key.Carrier → Nat

abbrev Read (α : Type) : Type := Input → Except Text (α × Input)

section Save

variable (cfg : Config) (floats : FloatText)

def Scalar.item : (s : Scalar) → s.Carrier → Item
  | .bool, v => ⟨.bool, v⟩
  | .integer t, v => ⟨.integer t, v⟩
  | .double, v => ⟨.double, v⟩
  | .float, v => if cfg.binary then ⟨.integer .unsignedInt, v⟩ else ⟨.double, floats.widen v⟩
  | .string, v => ⟨.string, v⟩

def saveSize (size : Nat) : List Item :=
  save cfg "size".toList ⟨.integer .unsignedLong, BitVec.ofNat 64 size⟩

mutual

def Shape.save : (a : Shape) → Text → a.Carrier → List Item
  | .scalar s, tag, v => Serializer.save cfg tag (s.item cfg floats v)
  | .pair a b, tag, v =>
    tracePoint cfg tag ++ (a.save "First".toList v.1 ++ b.save "Second".toList v.2)
  | .array _ a, tag, v => tracePoint cfg tag ++ v.1.flatMap (a.save "E".toList)
  | .vector a, tag, v =>
    tracePoint cfg tag ++ (saveSize cfg v.length ++ v.flatMap (a.save "E".toList))
  | .map a b, tag, v =>
    tracePoint cfg tag ++ (saveSize cfg v.length ++ v.flatMap fun entry =>
      tracePoint cfg "E".toList ++
        (a.save "First".toList entry.1 ++ b.save "Second".toList entry.2))
  | .object members, tag, v => tracePoint cfg tag ++ members.save v

def Members.save : (members : Members) → members.Carrier → List Item
  | .nil, _ => []
  | .cons tag a rest, v => a.save tag v.1 ++ rest.save v.2

end

end Save

section Load

variable (cfg : Config) (floats : FloatText) (place : Placement)

def Scalar.read : (s : Scalar) → s.Carrier → Input → s.Carrier × Input
  | .bool, old, input => Serializer.read cfg .bool old input
  | .integer t, old, input => Serializer.read cfg (.integer t) old input
  | .double, old, input => Serializer.read cfg .double old input
  | .float, old, input =>
    if cfg.binary then Serializer.read cfg (.integer .unsignedInt) old input
    else input.extractInto old floats.parse
  | .string, old, input => Serializer.read cfg .string old input

def loadSize (old : BitVec 64) : Read (BitVec 64) :=
  load cfg "size".toList (.integer .unsignedLong) old

def loadPair {α β : Type} (first : Read α) (second : Read β) : Read (α × β) := fun input => do
  let (v, input) ← first input
  let (w, input) ← second input
  return ((v, w), input)

def loadElements {α : Type} (loadElement : α → Read α) :
    (olds : List α) → Read { elements : List α // elements.length = olds.length }
  | [], input => .ok (⟨[], rfl⟩, input)
  | old :: olds, input => do
    let (v, input) ← loadElement old input
    let (vs, input) ← loadElements loadElement olds input
    return (⟨v :: vs.1, congrArg (· + 1) vs.2⟩, input)

/-- `insert` keeps an entry that has the key already. -/
def insertEntry {κ α : Type} (equal : κ → κ → Bool) (position : List (κ × α) → κ → Nat)
    (entries : List (κ × α)) (entry : κ × α) : List (κ × α) :=
  if entries.any (fun old => equal old.1 entry.1) then entries
  else entries.take (position entries entry.1) ++
    entry :: entries.drop (position entries entry.1)

def loadEntries {ε : Type} (loadEntry : Read ε) (insert : List ε → ε → List ε) :
    Nat → List ε → Read (List ε)
  | 0, entries, input => .ok (entries, input)
  | count + 1, entries, input => do
    let (entry, input) ← loadEntry input
    loadEntries loadEntry insert count (insert entries entry) input

def resizeWith {α : Type} (default : α) (old : List α) (size : Nat) : List α :=
  old.take size ++ List.replicate (size - old.length) default

def loadArray {α : Type} (loadElement : α → Read α) {size : Nat}
    (old : { elements : List α // elements.length = size }) :
    Read { elements : List α // elements.length = size } := fun input => do
  let (elements, input) ← loadElements loadElement old.1 input
  return (⟨elements.1, elements.2.trans old.2⟩, input)

def loadVector {α : Type} (loadElement : α → Read α) (default : α) (old : List α) :
    Read (List α) := fun input => do
  let (size, input) ← loadSize cfg cfg.uninitialized input
  let (elements, input) ← loadElements loadElement (resizeWith default old size.toNat) input
  return (elements.1, input)

def loadMap {ε : Type} (loadEntry : Read ε) (insert : List ε → ε → List ε) (old : List ε) :
    Read (List ε) := fun input => do
  let (size, input) ← loadSize cfg (BitVec.ofNat 64 old.length) input
  loadEntries loadEntry insert size.toNat old input

def loadAt {α : Type} (tag : Text) (body : Read α) : Read α := fun input => do
  let input ← loadTracePoint cfg tag input
  body input

mutual

def Shape.load : (a : Shape) → Text → a.Carrier → Read a.Carrier
  | .scalar s, tag, old => loadAt cfg tag fun input => .ok (s.read cfg floats old input)
  | .pair a b, tag, old =>
    loadAt cfg tag (loadPair (a.load "First".toList old.1) (b.load "Second".toList old.2))
  | .array _ a, tag, old => loadAt cfg tag (loadArray (a.load "E".toList) old)
  | .vector a, tag, old => loadAt cfg tag (loadVector cfg (a.load "E".toList) a.default old)
  | .map a b, tag, old =>
    let loadEntry := loadAt cfg "E".toList
      (loadPair (a.load "First".toList a.default) (b.load "Second".toList b.default))
    loadAt cfg tag (loadMap cfg loadEntry (insertEntry a.equal (place a b)) old)
  | .object members, tag, old => loadAt cfg tag (members.load old)

def Members.load : (members : Members) → members.Carrier → Read members.Carrier
  | .nil, _ => fun input => .ok ((), input)
  | .cons tag a rest, old => loadPair (a.load tag old.1) (rest.load old.2)

end

end Load

section Sequences

structure Value where
  type : Shape
  value : type.Carrier

structure Saved where
  tag : Text
  type : Shape
  value : type.Carrier

/-- A load into a variable that has a value already. -/
structure Request where
  tag : Text
  type : Shape
  old : type.Carrier

variable (cfg : Config) (floats : FloatText) (place : Placement)

def saveValues (saves : List Saved) : Except Text Text :=
  writeAll cfg (saves.flatMap fun saved => saved.type.save cfg floats saved.tag saved.value)

/-- The values that were loaded, and what ended the loads. -/
def loadValues : List Request → Input → List Value × Except Text Input
  | [], input => ([], .ok input)
  | request :: requests, input =>
    match request.type.load cfg floats place request.tag request.old input with
    | .error message => ([], .error message)
    | .ok (value, input) =>
      let rest := loadValues requests input
      (⟨request.type, value⟩ :: rest.1, rest.2)

end Sequences

end CoSimIO.Serializer

import CoSimIO.Serializer.ValueRules

/-! # Values without maps are read back in every mode -/

namespace CoSimIO.Serializer

set_option autoImplicit false

/-- The scalars that the mode can represent. -/
def Scalar.Faithful (cfg : Config) (floats : FloatText) : (s : Scalar) → s.Carrier → Prop
  | .double, v => Serializer.Faithful cfg .double v
  | .float, v => cfg.binary = false → floats.ReadsBack cfg.doubles v
  | .string, v => Serializer.Faithful cfg .string v
  | _, _ => True

mutual

def Shape.mapless : Shape → Bool
  | .scalar _ => true
  | .pair a b => a.mapless && b.mapless
  | .array _ a => a.mapless
  | .vector a => a.mapless
  | .map _ _ => false
  | .object members => members.mapless

def Members.mapless : Members → Bool
  | .nil => true
  | .cons _ a rest => a.mapless && rest.mapless

end

/-- The load takes the items and gives the value. -/
def Restores {α : Type} (cfg : Config) (load : Read α) (items : List Item) (v : α) : Prop :=
  ∀ later input, Ready cfg input (items ++ later) →
    ∃ input', load input = .ok (v, input') ∧ Ready cfg input' later

section Restores

variable {cfg : Config} {floats : FloatText} {place : Placement} {α β : Type}

theorem Ready.readFloat {v : BitVec 32} {later : List Item} {input : Input}
    (hReady : Ready cfg input (Scalar.item cfg floats .float v :: later))
    (hFaithful : Scalar.Faithful cfg floats .float v) (old : BitVec 32) :
    ∃ input', Scalar.read cfg floats .float old input = (v, input') ∧ Ready cfg input' later := by
  cases hMode : cfg.binary with
  | true =>
    rw [Scalar.item, if_pos hMode] at hReady
    have hRead : Scalar.read cfg floats .float old input =
        Serializer.read cfg (.integer .unsignedInt) old input := if_pos hMode
    rw [hRead]
    exact hReady.read trivial old
  | false =>
    have hText : ¬ cfg.binary = true := by simp [hMode]
    have hRead : Scalar.read cfg floats .float old input = input.extractInto old floats.parse :=
      if_neg hText
    obtain ⟨hGood, gap, text, rest, hGap, -, hWrite, hChars⟩ := hReady
    rw [Scalar.item, if_neg hText] at hWrite
    have hAt : At cfg rest gap (⟨.double, floats.widen v⟩ :: later) input :=
      ⟨hGood, text, hWrite, hChars⟩
    obtain ⟨input', hExtract, hGood', text', hWrite', hChars'⟩ :=
      hAt.readFloat hMode hGap (hFaithful hMode) old
    exact ⟨input', hRead.trans hExtract, hGood', ['\n'], text', rest, blank_newline,
      fun h => absurd h hText, hWrite', hChars'⟩

theorem Ready.readScalar {s : Scalar} {v : s.Carrier} {later : List Item} {input : Input}
    (hReady : Ready cfg input (s.item cfg floats v :: later))
    (hFaithful : s.Faithful cfg floats v) (old : s.Carrier) :
    ∃ input', s.read cfg floats old input = (v, input') ∧ Ready cfg input' later := by
  cases s with
  | bool => exact hReady.read trivial old
  | integer t => exact hReady.read trivial old
  | double => exact hReady.read hFaithful old
  | float => exact hReady.readFloat hFaithful old
  | string => exact hReady.read hFaithful old

theorem restores_loadAt {tag : Text} (hTag : '"' ∉ tag) {body : Read α} {items : List Item}
    {v : α} (h : Restores cfg body items v) :
    Restores cfg (loadAt cfg tag body) (tracePoint cfg tag ++ items) v := by
  intro later input hReady
  rw [List.append_assoc] at hReady
  obtain ⟨input', hPoint, hReady'⟩ := hReady.loadTracePoint fun _ => hTag
  obtain ⟨input'', hLoad, hReady''⟩ := h later input' hReady'
  refine ⟨input'', ?_, hReady''⟩
  rw [loadAt, hPoint]
  exact hLoad

theorem restores_pair {first : Read α} {second : Read β} {items items' : List Item} {v : α}
    {w : β} (hFirst : Restores cfg first items v) (hSecond : Restores cfg second items' w) :
    Restores cfg (loadPair first second) (items ++ items') (v, w) := by
  intro later input hReady
  rw [List.append_assoc] at hReady
  obtain ⟨input', hLoad, hReady'⟩ := hFirst _ input hReady
  obtain ⟨input'', hLoad', hReady''⟩ := hSecond later input' hReady'
  refine ⟨input'', ?_, hReady''⟩
  rw [loadPair, hLoad]
  change (second input' >>= fun read => Except.ok ((v, read.1), read.2)) = _
  rw [hLoad']
  rfl

theorem restores_elements {loadElement : α → Read α} {save : α → List Item}
    {elements olds : List α} (hLength : olds.length = elements.length)
    (hEach : ∀ v ∈ elements, ∀ old ∈ olds, Restores cfg (loadElement old) (save v) v) :
    Restores cfg (loadElements loadElement olds) (elements.flatMap save)
      ⟨elements, hLength.symm⟩ := by
  induction elements generalizing olds with
  | nil =>
    obtain rfl := List.length_eq_zero_iff.mp hLength
    intro later input hReady
    exact ⟨input, rfl, hReady⟩
  | cons v elements ih =>
    cases olds with
    | nil => nomatch hLength
    | cons old olds =>
      have hTail := ih (Nat.succ.inj hLength) fun x hx y hy =>
        hEach x (List.mem_cons_of_mem v hx) y (List.mem_cons_of_mem old hy)
      intro later input hReady
      rw [List.flatMap_cons, List.append_assoc] at hReady
      obtain ⟨input', hLoad, hReady'⟩ :=
        hEach v List.mem_cons_self old List.mem_cons_self _ input hReady
      obtain ⟨input'', hLoad', hReady''⟩ := hTail later input' hReady'
      refine ⟨input'', ?_, hReady''⟩
      rw [loadElements, hLoad]
      change (loadElements loadElement olds input' >>= _) = _
      rw [hLoad']
      rfl

theorem restores_array {loadElement : α → Read α} {save : α → List Item} {size : Nat}
    {v old : { elements : List α // elements.length = size }}
    (hEach : ∀ x ∈ v.1, ∀ y ∈ old.1, Restores cfg (loadElement y) (save x) x) :
    Restores cfg (loadArray loadElement old) (v.1.flatMap save) v := by
  intro later input hReady
  obtain ⟨input', hLoad, hReady'⟩ :=
    restores_elements (old.2.trans v.2.symm) hEach later input hReady
  refine ⟨input', ?_, hReady'⟩
  rw [loadArray, hLoad]
  rfl

theorem restores_size (size : Nat) (old : BitVec 64) :
    Restores cfg (loadSize cfg old) (saveSize cfg size) (BitVec.ofNat 64 size) :=
  fun _ _ hReady => hReady.load (fun _ => by decide) trivial old

theorem restores_vector {loadElement : α → Read α} {save : α → List Item} {default : α}
    {v old : List α} (hSize : v.length < 2 ^ 64)
    (hEach : ∀ x ∈ v, ∀ y, Restores cfg (loadElement y) (save x) x) :
    Restores cfg (loadVector cfg loadElement default old)
      (saveSize cfg v.length ++ v.flatMap save) v := by
  intro later input hReady
  rw [List.append_assoc] at hReady
  obtain ⟨input', hLoad, hReady'⟩ := restores_size v.length cfg.uninitialized _ input hReady
  have hLength : (resizeWith default old (BitVec.ofNat 64 v.length).toNat).length = v.length := by
    rw [length_resizeWith, BitVec.toNat_ofNat, Nat.mod_eq_of_lt hSize]
  obtain ⟨input'', hLoad', hReady''⟩ :=
    restores_elements hLength (fun x hx y _ => hEach x hx y) later input' hReady'
  refine ⟨input'', ?_, hReady''⟩
  rw [loadVector, hLoad]
  change (loadElements loadElement _ input' >>= _) = _
  rw [hLoad']
  rfl

mutual

theorem Shape.restores : (a : Shape) → a.mapless = true → ∀ {tag : Text} {v : a.Carrier}
    (old : a.Carrier), '"' ∉ tag → (∀ t ∈ a.tags, '"' ∉ t) → a.Sound v →
    a.Each (Scalar.Faithful cfg floats) v →
    Restores cfg (a.load cfg floats place tag old) (a.save cfg floats tag v) v
  | .scalar s, _, tag, v, old, hTag, _, _, hEach => by
    apply restores_loadAt hTag
    intro later input hReady
    obtain ⟨input', hRead, hReady'⟩ := Ready.readScalar hReady hEach old
    exact ⟨input', congrArg Except.ok hRead, hReady'⟩
  | .pair a b, hMapless, tag, v, old, hTag, hTags, hSound, hEach => by
    obtain ⟨hA, hB⟩ := Bool.and_eq_true_iff.mp hMapless
    exact restores_loadAt hTag (restores_pair
      (a.restores hA old.1 first_quote (fun t ht => hTags t (List.mem_append_left _ ht))
        hSound.1 hEach.1)
      (b.restores hB old.2 second_quote (fun t ht => hTags t (List.mem_append_right _ ht))
        hSound.2 hEach.2))
  | .array _ a, hMapless, tag, v, old, hTag, hTags, hSound, hEach =>
    restores_loadAt hTag (restores_array fun x hx y _ =>
      a.restores hMapless y element_quote hTags (hSound x hx) (hEach x hx))
  | .vector a, hMapless, tag, v, old, hTag, hTags, hSound, hEach =>
    restores_loadAt hTag (restores_vector hSound.1 fun x hx y =>
      a.restores hMapless y element_quote hTags (hSound.2 x hx) (hEach x hx))
  | .map a b, hMapless, _, _, _, _, _, _, _ => nomatch hMapless
  | .object members, hMapless, tag, v, old, hTag, hTags, hSound, hEach =>
    restores_loadAt hTag (members.restores hMapless old hTags hSound hEach)

theorem Members.restores : (members : Members) → members.mapless = true →
    ∀ {v : members.Carrier} (old : members.Carrier), (∀ t ∈ members.tags, '"' ∉ t) →
    members.Sound v → members.Each (Scalar.Faithful cfg floats) v →
    Restores cfg (members.load cfg floats place old) (members.save cfg floats v) v
  | .nil, _, _, _, _, _, _ => fun _ input hReady => ⟨input, rfl, hReady⟩
  | .cons tag a rest, hMapless, v, old, hTags, hSound, hEach => by
    obtain ⟨hA, hRest⟩ := Bool.and_eq_true_iff.mp hMapless
    exact restores_pair
      (a.restores hA old.1 (hTags tag List.mem_cons_self)
        (fun t ht => hTags t (List.mem_cons_of_mem tag (List.mem_append_left _ ht)))
        hSound.1 hEach.1)
      (rest.restores hRest old.2
        (fun t ht => hTags t (List.mem_cons_of_mem tag (List.mem_append_right _ ht)))
        hSound.2 hEach.2)

end

end Restores

end CoSimIO.Serializer

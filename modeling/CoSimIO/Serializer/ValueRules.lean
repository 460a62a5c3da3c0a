import CoSimIO.Serializer.Values

/-! # The rules for loading values in the modes with trace tags

In these modes every load begins with a string, so that the stream is before a newline when it
ends.
-/

namespace CoSimIO.Serializer

set_option autoImplicit false

/-- The text of the number reads back as the number. -/
def FloatText.ReadsBack (doubles : DoubleText) (floats : FloatText) (v : BitVec 32) : Prop :=
  (∃ c cs, doubles.print (floats.widen v) = c :: cs ∧ isSpace c = false) ∧
    ∀ rest, floats.parse (doubles.print (floats.widen v) ++ '\n' :: rest) =
      ((v, true), '\n' :: rest)

def Scalar.Legible (cfg : Config) (floats : FloatText) : (s : Scalar) → s.Carrier → Prop
  | .double, v => cfg.doubles.ReadsBack v
  | .float, v => floats.ReadsBack cfg.doubles v
  | .string, v => '"' ∉ v
  | _, _ => True

section Position

/-- The stream is good, and what is left are the items between two texts. -/
def At (cfg : Config) (extra gap : Text) (items : List Item) (input : Input) : Prop :=
  input.good = true ∧ ∃ text, writeAll cfg items = .ok text ∧ input.chars = gap ++ (text ++ extra)

/-- The load takes its items, then the stream is before a newline. -/
def Loads {α : Type} (cfg : Config) (extra gap : Text) (load : Read α) (items : List Item)
    (post : α → Prop) : Prop :=
  ∀ later input, At cfg extra gap (items ++ later) input →
    ∃ v input', load input = .ok (v, input') ∧ post v ∧ At cfg extra ['\n'] later input'

variable {cfg : Config} {floats : FloatText} {place : Placement} {extra gap : Text}

theorem blank_nil : Blank [] := fun _ => nofun

theorem blank_newline : Blank ['\n'] := by
  rintro c hc
  obtain rfl := List.mem_singleton.mp hc
  rfl

theorem binary_of_tracing (hTracing : cfg.tracing = true) : cfg.binary = false := by
  rw [Config.tracing, decide_eq_true_eq] at hTracing
  rw [Config.binary, decide_eq_false_iff_not]
  intro hBinary
  rw [hBinary] at hTracing
  simp at hTracing

theorem At.read (hText : cfg.binary = false) {k : Kind} {v : k.Carrier} {items : List Item}
    {input : Input} (h : At cfg extra gap (⟨k, v⟩ :: items) input) (hGap : Blank gap)
    (hFaithful : Faithful cfg k v) (old : k.Carrier) :
    ∃ input', Serializer.read cfg k old input = (v, input') ∧ At cfg extra ['\n'] items input' := by
  obtain ⟨hGood, text, hWrite, hChars⟩ := h
  obtain ⟨first, rest, hFirst, hRest, rfl⟩ := writeAll_cons_ok hWrite
  have hMode : ¬ cfg.binary = true := by simp [hText]
  rw [write, if_neg hMode] at hFirst
  rw [List.append_assoc] at hChars
  rw [Serializer.read, if_neg hMode,
    readText_writeText hText hFaithful hFirst old hGood hGap hChars]
  exact ⟨_, rfl, hGood, rest, hRest, rfl⟩

theorem At.readFloat (hText : cfg.binary = false) {v : BitVec 32} {items : List Item}
    {input : Input} (h : At cfg extra gap (⟨.double, floats.widen v⟩ :: items) input)
    (hGap : Blank gap) (hReadsBack : floats.ReadsBack cfg.doubles v) (old : BitVec 32) :
    ∃ input', input.extractInto old floats.parse = (v, input') ∧
      At cfg extra ['\n'] items input' := by
  obtain ⟨hGood, text, hWrite, hChars⟩ := h
  obtain ⟨first, rest, hFirst, hRest, rfl⟩ := writeAll_cons_ok hWrite
  obtain ⟨hHead, hParse⟩ := hReadsBack
  have hMode : ¬ cfg.binary = true := by simp [hText]
  rw [write, if_neg hMode] at hFirst
  obtain rfl := Except.ok.inj hFirst
  rw [List.append_assoc, List.append_assoc] at hChars
  rw [Input.extractInto_of_parse hGood hGap hHead hChars (hParse _)]
  exact ⟨_, rfl, hGood, rest, hRest, rfl⟩

theorem At.readScalar (hText : cfg.binary = false) {s : Scalar} {v : s.Carrier}
    {items : List Item} {input : Input} (h : At cfg extra gap (s.item cfg floats v :: items) input)
    (hGap : Blank gap) (hLegible : s.Legible cfg floats v) (old : s.Carrier) :
    ∃ input', s.read cfg floats old input = (v, input') ∧ At cfg extra ['\n'] items input' := by
  have hMode : ¬ cfg.binary = true := by simp [hText]
  cases s with
  | bool => exact h.read hText hGap trivial old
  | integer t => exact h.read hText hGap trivial old
  | double => exact h.read hText hGap (fun _ => hLegible) old
  | string =>
    have hFaithful : Faithful cfg .string v := by
      rw [Faithful, if_neg hMode]
      exact hLegible
    exact h.read hText hGap hFaithful old
  | float =>
    rw [Scalar.item, if_neg hMode] at h
    have hRead : Scalar.read cfg floats .float old input = input.extractInto old floats.parse :=
      if_neg hMode
    rw [hRead]
    exact h.readFloat hText hGap hLegible old

/-- After its trace point the rest of a load is before a newline. -/
theorem loads_loadAt {α : Type} (hTracing : cfg.tracing = true) (hGap : Blank gap) {tag : Text}
    (hTag : '"' ∉ tag) {body : Read α} {items : List Item} {post : α → Prop}
    (h : Loads cfg extra ['\n'] body items post) :
    Loads cfg extra gap (loadAt cfg tag body) (tracePoint cfg tag ++ items) post := by
  intro later input hAt
  have hText := binary_of_tracing hTracing
  have hFaithful : Faithful cfg .string tag := by
    rw [Faithful, hText]
    exact hTag
  rw [tracePoint, if_pos hTracing, List.append_assoc] at hAt
  obtain ⟨input', hRead, hAt'⟩ := hAt.read hText hGap hFaithful []
  obtain ⟨v, input'', hLoad, hPost, hAt''⟩ := h later input' hAt'
  have hPoint : loadTracePoint cfg tag input = .ok input' := by
    rw [loadTracePoint, if_pos hTracing, hRead]
    exact if_pos rfl
  refine ⟨v, input'', ?_, hPost, hAt''⟩
  rw [loadAt, hPoint]
  exact hLoad

theorem Loads.conseq {α : Type} {load : Read α} {items : List Item} {P Q : α → Prop}
    (h : Loads cfg extra gap load items P) (hPost : ∀ v, P v → Q v) :
    Loads cfg extra gap load items Q := by
  intro later input hAt
  obtain ⟨v, input', hLoad, hP, hAt'⟩ := h later input hAt
  exact ⟨v, input', hLoad, hPost v hP, hAt'⟩

theorem loads_pure {α : Type} {v : α} {post : α → Prop} (h : post v) :
    Loads cfg extra ['\n'] (fun input => .ok (v, input)) [] post :=
  fun _ input hAt => ⟨v, input, rfl, h, hAt⟩

theorem loads_pair {α β : Type} {first : Read α} {second : Read β} {items items' : List Item}
    {P : α → Prop} {Q : β → Prop} (hFirst : Loads cfg extra gap first items P)
    (hSecond : Loads cfg extra ['\n'] second items' Q) :
    Loads cfg extra gap (loadPair first second) (items ++ items') fun v => P v.1 ∧ Q v.2 := by
  intro later input hAt
  rw [List.append_assoc] at hAt
  obtain ⟨v, input', hLoad, hP, hAt'⟩ := hFirst _ input hAt
  obtain ⟨w, input'', hLoad', hQ, hAt''⟩ := hSecond later input' hAt'
  refine ⟨(v, w), input'', ?_, ⟨hP, hQ⟩, hAt''⟩
  rw [loadPair, hLoad]
  change (second input' >>= fun read => Except.ok ((v, read.1), read.2)) = _
  rw [hLoad']
  rfl

theorem loads_elements {α : Type} {loadElement : α → Read α} {save : α → List Item}
    {same : α → α → Prop} {elements olds : List α} (hLength : olds.length = elements.length)
    (hEach : ∀ v ∈ elements, ∀ old ∈ olds,
      Loads cfg extra ['\n'] (loadElement old) (save v) (same · v)) :
    Loads cfg extra ['\n'] (loadElements loadElement olds) (elements.flatMap save)
      fun read => List.Forall₂ same read.1 elements := by
  induction elements generalizing olds with
  | nil =>
    obtain rfl := List.length_eq_zero_iff.mp hLength
    exact loads_pure .nil
  | cons v elements ih =>
    cases olds with
    | nil => nomatch hLength
    | cons old olds =>
      have hTail := ih (Nat.succ.inj hLength) fun x hx y hy =>
        hEach x (List.mem_cons_of_mem v hx) y (List.mem_cons_of_mem old hy)
      intro later input hAt
      rw [List.flatMap_cons, List.append_assoc] at hAt
      obtain ⟨w, input', hLoad, hSame, hAt'⟩ :=
        hEach v List.mem_cons_self old List.mem_cons_self _ input hAt
      obtain ⟨ws, input'', hLoad', hSames, hAt''⟩ := hTail later input' hAt'
      refine ⟨⟨w :: ws.1, congrArg (· + 1) ws.2⟩, input'', ?_, .cons hSame hSames, hAt''⟩
      rw [loadElements, hLoad]
      change (loadElements loadElement olds input' >>= _) = _
      rw [hLoad']
      rfl

theorem mem_insertEntry {κ α : Type} {equal : κ → κ → Bool}
    {position : List (κ × α) → κ → Nat} {entries : List (κ × α)} {entry : κ × α}
    (hNew : ∀ old ∈ entries, equal old.1 entry.1 = false) (x : κ × α) :
    x ∈ insertEntry equal position entries entry ↔ x = entry ∨ x ∈ entries := by
  have hNone : ¬ entries.any (fun old => equal old.1 entry.1) = true := by
    rw [List.any_eq_true]
    rintro ⟨old, hMem, hEqual⟩
    rw [hNew old hMem] at hEqual
    nomatch hEqual
  have hSplit := List.take_append_drop (position entries entry.1) entries
  rw [insertEntry, if_neg hNone, List.mem_append, List.mem_cons]
  conv_rhs => rw [← hSplit, List.mem_append]
  exact or_left_comm

/-- Each entry of either list has its like in the other. -/
def Covers {ε : Type} (same : ε → ε → Prop) (entries saved : List ε) : Prop :=
  (∀ x ∈ entries, ∃ y ∈ saved, same x y) ∧ ∀ y ∈ saved, ∃ x ∈ entries, same x y

theorem Covers.insert {κ α : Type} {equal : κ → κ → Bool} {position : List (κ × α) → κ → Nat}
    {same : κ × α → κ × α → Prop} {entries saved : List (κ × α)} (h : Covers same entries saved)
    {x y : κ × α} (hSame : same x y) (hNew : ∀ old ∈ entries, equal old.1 x.1 = false) :
    Covers same (insertEntry equal position entries x) (saved ++ [y]) := by
  constructor
  · intro z hz
    rcases (mem_insertEntry hNew z).mp hz with rfl | hOld
    · exact ⟨y, List.mem_append_right _ List.mem_cons_self, hSame⟩
    · obtain ⟨w, hw, hOther⟩ := h.1 z hOld
      exact ⟨w, List.mem_append_left _ hw, hOther⟩
  · intro w hw
    rcases List.mem_append.mp hw with hOld | hLast
    · obtain ⟨z, hz, hOther⟩ := h.2 w hOld
      exact ⟨z, (mem_insertEntry hNew z).mpr (.inr hz), hOther⟩
    · obtain rfl := List.mem_singleton.mp hLast
      exact ⟨x, (mem_insertEntry hNew x).mpr (.inl rfl), hSame⟩

theorem loads_entries {κ α : Type} {equal : κ → κ → Bool} {position : List (κ × α) → κ → Nat}
    (hSymm : ∀ x y, equal x y = true → equal y x = true)
    (hTrans : ∀ x y z, equal x y = true → equal y z = true → equal x z = true)
    {same : κ × α → κ × α → Prop} (hSame : ∀ x y, same x y → equal x.1 y.1 = true)
    {loadEntry : Read (κ × α)} {save : κ × α → List Item} {rest : List (κ × α)} :
    ∀ {entries loaded : List (κ × α)},
      (∀ y ∈ rest, Loads cfg extra ['\n'] loadEntry (save y) (same · y)) →
      List.Pairwise (fun x y => equal x.1 y.1 = false) (loaded ++ rest) →
      Covers same entries loaded →
      Loads cfg extra ['\n']
        (loadEntries loadEntry (insertEntry equal position) rest.length entries)
        (rest.flatMap save) fun read => Covers same read (loaded ++ rest) := by
  induction rest with
  | nil =>
    intro entries loaded _ _ hCovers
    rw [List.append_nil]
    exact loads_pure hCovers
  | cons y rest ih =>
    intro entries loaded hEach hKeys hCovers later input hAt
    rw [List.flatMap_cons, List.append_assoc] at hAt
    obtain ⟨x, input', hLoad, hx, hAt'⟩ := hEach y List.mem_cons_self _ input hAt
    have hNew : ∀ old ∈ entries, equal old.1 x.1 = false := by
      intro old hOld
      obtain ⟨z, hz, hOther⟩ := hCovers.1 old hOld
      have hApart := (List.pairwise_append.mp hKeys).2.2 z hz y List.mem_cons_self
      apply Bool.eq_false_iff.mpr
      intro hEqual
      have hMet :=
        hTrans _ _ _ (hSymm _ _ (hSame old z hOther)) (hTrans _ _ _ hEqual (hSame x y hx))
      rw [hApart] at hMet
      nomatch hMet
    rw [List.append_cons] at hKeys
    obtain ⟨read, input'', hLoad', hRead, hAt''⟩ :=
      ih (fun z hz => hEach z (List.mem_cons_of_mem y hz)) hKeys (hCovers.insert hx hNew)
        later input' hAt'
    rw [← List.append_cons] at hRead
    refine ⟨read, input'', ?_, hRead, hAt''⟩
    rw [List.length_cons, loadEntries, hLoad]
    exact hLoad'

theorem length_resizeWith {α : Type} (default : α) (old : List α) (size : Nat) :
    (resizeWith default old size).length = size := by
  rw [resizeWith, List.length_append, List.length_take, List.length_replicate]
  omega

theorem mem_resizeWith {α : Type} {default x : α} {old : List α} {size : Nat}
    (h : x ∈ resizeWith default old size) : x ∈ old ++ [default] := by
  rcases List.mem_append.mp h with hKept | hNew
  · exact List.mem_append_left _ (List.mem_of_mem_take hKept)
  · exact List.mem_append_right _ (List.mem_singleton.mpr (List.eq_of_mem_replicate hNew))

theorem loads_size (hTracing : cfg.tracing = true) (hGap : Blank gap) {size : Nat}
    (hSize : size < 2 ^ 64) (old : BitVec 64) :
    Loads cfg extra gap (loadSize cfg old) (saveSize cfg size) fun read => read.toNat = size := by
  have hText := binary_of_tracing hTracing
  apply loads_loadAt hTracing hGap (by decide)
  intro later input hAt
  obtain ⟨input', hRead, hAt'⟩ := hAt.read hText blank_newline trivial old
  exact ⟨_, input', congrArg Except.ok hRead, Nat.mod_eq_of_lt hSize, hAt'⟩

theorem loads_array {α : Type} {loadElement : α → Read α} {save : α → List Item}
    {same : α → α → Prop} {size : Nat} {v old : { elements : List α // elements.length = size }}
    (hEach : ∀ x ∈ v.1, ∀ y ∈ old.1,
      Loads cfg extra ['\n'] (loadElement y) (save x) (same · x)) :
    Loads cfg extra ['\n'] (loadArray loadElement old) (v.1.flatMap save)
      fun read => List.Forall₂ same read.1 v.1 := by
  intro later input hAt
  obtain ⟨elements, input', hLoad, hSame, hAt'⟩ :=
    loads_elements (old.2.trans v.2.symm) hEach later input hAt
  refine ⟨⟨elements.1, elements.2.trans old.2⟩, input', ?_, hSame, hAt'⟩
  rw [loadArray, hLoad]
  rfl

theorem loads_vector (hTracing : cfg.tracing = true) {α : Type} {loadElement : α → Read α}
    {save : α → List Item} {same : α → α → Prop} {default : α} {v old : List α}
    (hSize : v.length < 2 ^ 64)
    (hEach : ∀ x ∈ v, ∀ y ∈ old ++ [default],
      Loads cfg extra ['\n'] (loadElement y) (save x) (same · x)) :
    Loads cfg extra ['\n'] (loadVector cfg loadElement default old)
      (saveSize cfg v.length ++ v.flatMap save) fun read => List.Forall₂ same read v := by
  intro later input hAt
  rw [List.append_assoc] at hAt
  obtain ⟨size, input', hLoad, hRead, hAt'⟩ :=
    loads_size hTracing blank_newline hSize cfg.uninitialized _ input hAt
  have hLength : (resizeWith default old size.toNat).length = v.length := by
    rw [length_resizeWith, hRead]
  obtain ⟨elements, input'', hLoad', hSame, hAt''⟩ :=
    loads_elements hLength (fun x hx y hy => hEach x hx y (mem_resizeWith hy)) later input' hAt'
  refine ⟨elements.1, input'', ?_, hSame, hAt''⟩
  rw [loadVector, hLoad]
  change (loadElements loadElement (resizeWith default old size.toNat) input' >>= _) = _
  rw [hLoad']
  rfl

/-- A map without entries before. -/
theorem loads_map (hTracing : cfg.tracing = true) {κ α : Type} {equal : κ → κ → Bool}
    {position : List (κ × α) → κ → Nat}
    (hSymm : ∀ x y, equal x y = true → equal y x = true)
    (hTrans : ∀ x y z, equal x y = true → equal y z = true → equal x z = true)
    {same : κ × α → κ × α → Prop} (hSame : ∀ x y, same x y → equal x.1 y.1 = true)
    {loadEntry : Read (κ × α)} {save : κ × α → List Item} {v : List (κ × α)}
    (hSize : v.length < 2 ^ 64) (hKeys : v.Pairwise (fun x y => equal x.1 y.1 = false))
    (hEach : ∀ y ∈ v, Loads cfg extra ['\n'] loadEntry (save y) (same · y)) :
    Loads cfg extra ['\n'] (loadMap cfg loadEntry (insertEntry equal position) [])
      (saveSize cfg v.length ++ v.flatMap save) (Covers same · v) := by
  intro later input hAt
  rw [List.append_assoc] at hAt
  obtain ⟨size, input', hLoad, hRead, hAt'⟩ :=
    loads_size hTracing blank_newline hSize (BitVec.ofNat 64 ([] : List (κ × α)).length) _ input hAt
  have hAll : List.Pairwise (fun x y : κ × α => equal x.1 y.1 = false) ([] ++ v) := hKeys
  have hStart : Covers same [] [] := ⟨nofun, nofun⟩
  obtain ⟨entries, input'', hLoad', hCovers, hAt''⟩ :
      ∃ entries input'', loadEntries loadEntry (insertEntry equal position) v.length [] input' =
        .ok (entries, input'') ∧ Covers same entries v ∧ At cfg extra ['\n'] later input'' :=
    loads_entries hSymm hTrans hSame hEach hAll hStart later input' hAt'
  refine ⟨entries, input'', ?_, hCovers, hAt''⟩
  rw [loadMap, hLoad]
  change loadEntries loadEntry (insertEntry equal position) size.toNat [] input' = _
  rw [hRead]
  exact hLoad'

theorem first_quote : '"' ∉ "First".toList := by decide

theorem second_quote : '"' ∉ "Second".toList := by decide

theorem element_quote : '"' ∉ "E".toList := by decide

mutual

theorem Shape.loads (hTracing : cfg.tracing = true) : (a : Shape) → ∀ {tag : Text}
    {v old : a.Carrier} {gap : Text}, Blank gap → '"' ∉ tag → (∀ t ∈ a.tags, '"' ∉ t) →
    a.Sound v → a.Each (Scalar.Legible cfg floats) v → a.NoEntries old →
    Loads cfg extra gap (a.load cfg floats place tag old) (a.save cfg floats tag v)
      fun read => a.equal read v = true
  | .scalar s, tag, v, old, gap, hGap, hTag, _, _, hEach, _ => by
    apply loads_loadAt hTracing hGap hTag
    intro later input hAt
    obtain ⟨input', hRead, hAt'⟩ :=
      hAt.readScalar (binary_of_tracing hTracing) blank_newline hEach old
    exact ⟨v, input', congrArg Except.ok hRead, decide_eq_true rfl, hAt'⟩
  | .pair a b, tag, v, old, gap, hGap, hTag, hTags, hSound, hEach, hOld => by
    have hFirst := a.loads hTracing blank_newline first_quote
      (fun t ht => hTags t (List.mem_append_left _ ht)) hSound.1 hEach.1 hOld.1
    have hSecond := b.loads hTracing blank_newline second_quote
      (fun t ht => hTags t (List.mem_append_right _ ht)) hSound.2 hEach.2 hOld.2
    apply loads_loadAt hTracing hGap hTag
    exact (loads_pair hFirst hSecond).conseq fun _ hRead => Bool.and_eq_true_iff.mpr hRead
  | .array _ a, tag, v, old, gap, hGap, hTag, hTags, hSound, hEach, hOld => by
    apply loads_loadAt hTracing hGap hTag
    apply (loads_array fun x hx y hy => a.loads hTracing blank_newline element_quote hTags
      (hSound x hx) (hEach x hx) (hOld y hy)).conseq
    intro read hRead
    exact (List.all₂_eq_true _ _).mpr hRead
  | .vector a, tag, v, old, gap, hGap, hTag, hTags, hSound, hEach, hOld => by
    have hClean : ∀ y ∈ old ++ [a.default], a.NoEntries y := by
      intro y hy
      rcases List.mem_append.mp hy with hKept | hNew
      · exact hOld y hKept
      · rw [List.mem_singleton.mp hNew]
        exact a.noEntries_default
    apply loads_loadAt hTracing hGap hTag
    apply (loads_vector hTracing hSound.1 fun x hx y hy => a.loads hTracing blank_newline
      element_quote hTags (hSound.2 x hx) (hEach x hx) (hClean y hy)).conseq
    intro read hRead
    exact (List.all₂_eq_true _ _).mpr hRead
  | .map a b, tag, v, old, gap, hGap, hTag, hTags, hSound, hEach, hOld => by
    obtain ⟨hSize, hEntries, hKeys⟩ := hSound
    obtain rfl := hOld
    apply loads_loadAt hTracing hGap hTag
    have hEntry : ∀ y ∈ v, Loads cfg extra ['\n']
        (loadAt cfg "E".toList (loadPair (a.load cfg floats place "First".toList a.default)
          (b.load cfg floats place "Second".toList b.default)))
        (tracePoint cfg "E".toList ++ (a.save cfg floats "First".toList y.1 ++
          b.save cfg floats "Second".toList y.2))
        fun x => a.equal x.1 y.1 = true ∧ b.equal x.2 y.2 = true := by
      intro y hy
      have hFirst := a.loads hTracing blank_newline first_quote
        (fun t ht => hTags t (List.mem_append_left _ ht)) (hEntries y hy).1 (hEach y hy).1
        a.noEntries_default
      have hSecond := b.loads hTracing blank_newline second_quote
        (fun t ht => hTags t (List.mem_append_right _ ht)) (hEntries y hy).2 (hEach y hy).2
        b.noEntries_default
      exact loads_loadAt hTracing blank_newline element_quote (loads_pair hFirst hSecond)
    have hSymm : ∀ x y : a.Carrier, a.equal x y = true → a.equal y x = true :=
      fun _ _ => a.equal_symm
    have hTrans : ∀ x y z : a.Carrier, a.equal x y = true → a.equal y z = true →
        a.equal x z = true := fun _ _ _ => a.equal_trans
    apply (loads_map hTracing hSymm hTrans (fun _ _ h => h.1) hSize hKeys hEntry).conseq
    intro read hRead
    simp only [Shape.equal, Bool.and_eq_true, List.all_eq_true, List.any_eq_true]
    exact hRead
  | .object members, tag, v, old, gap, hGap, hTag, hTags, hSound, hEach, hOld => by
    apply loads_loadAt hTracing hGap hTag
    exact members.loads hTracing hTags hSound hEach hOld

theorem Members.loads (hTracing : cfg.tracing = true) : (members : Members) →
    ∀ {v old : members.Carrier}, (∀ t ∈ members.tags, '"' ∉ t) → members.Sound v →
    members.Each (Scalar.Legible cfg floats) v → members.NoEntries old →
    Loads cfg extra ['\n'] (members.load cfg floats place old) (members.save cfg floats v)
      fun read => members.equal read v = true
  | .nil, v, old, _, _, _, _ => loads_pure rfl
  | .cons tag a rest, v, old, hTags, hSound, hEach, hOld => by
    have hFirst := a.loads hTracing blank_newline (hTags tag List.mem_cons_self)
      (fun t ht => hTags t (List.mem_cons_of_mem tag (List.mem_append_left _ ht)))
      hSound.1 hEach.1 hOld.1
    have hRest := rest.loads hTracing
      (fun t ht => hTags t (List.mem_cons_of_mem tag (List.mem_append_right _ ht)))
      hSound.2 hEach.2 hOld.2
    exact (loads_pair hFirst hRest).conseq fun _ hRead => Bool.and_eq_true_iff.mpr hRead

end

end Position

end CoSimIO.Serializer

import CoSimIO.Serializer.ReadBack

/-! # What the text modes do to strings -/

namespace CoSimIO.Serializer

set_option autoImplicit false

/-- A saved value with its tag, and what the variable holds into which it is loaded. -/
structure Entry where
  tag : Text
  kind : Kind
  value : kind.Carrier
  old : kind.Carrier

def Entry.item (entry : Entry) : Item :=
  ⟨entry.kind, entry.value⟩

def saved (cfg : Config) (entries : List Entry) : List Item :=
  entries.flatMap fun entry => save cfg entry.tag entry.item

def loadAll (cfg : Config) : List Entry → Input → Except Text (List Item)
  | [], _ => .ok []
  | entry :: entries, input => do
    let (value, input) ← load cfg entry.tag entry.kind entry.old input
    let values ← loadAll cfg entries input
    return ⟨entry.kind, value⟩ :: values

/-- Saving raises an error, or loading gives exactly the saved values. -/
def Lossless (cfg : Config) (entries : List Entry) : Prop :=
  match writeAll cfg (saved cfg entries) with
  | .error _ => True
  | .ok data => loadAll cfg entries (streamSerializer data) = .ok (entries.map Entry.item)

def Item.quoted : Item → Prop
  | ⟨.string, value⟩ => '"' ∈ value
  | _ => False

theorem quote_notMem_getline {input : Input} {line : Text} {rest : Input}
    (h : input.getline '"' = (some line, rest)) : '"' ∉ line := by
  have hTake : '"' ∉ input.chars.takeWhile (· ≠ '"') := by
    rintro hMem
    simpa using List.all_eq_true.mp List.all_takeWhile '"' hMem
  rw [Input.getline] at h
  split at h
  · dsimp only at h
    split at h
    · obtain rfl := Option.some.inj (congrArg Prod.fst h)
      exact hTake
    · obtain rfl := Option.some.inj (congrArg Prod.fst h)
      exact hTake
  · cases h

/-- A string that is read from a good stream has no quote. -/
theorem quote_notMem_readQuoted {input : Input} (hGood : input.good = true) (old : Text) :
    '"' ∉ (input.readQuoted old).1 := by
  rw [Input.readQuoted]
  cases hOpening : input.getline '"' with
  | mk opening input₁ =>
    cases hContent : input₁.getline '"' with
    | mk content input₂ =>
      cases content with
      | some line => simpa only [hContent, Option.getD_some] using quote_notMem_getline hContent
      | none =>
        cases opening with
        | some line =>
          simpa only [hContent, Option.getD_some, Option.getD_none]
            using quote_notMem_getline hOpening
        | none =>
          rw [Input.getline, if_pos hGood] at hOpening
          dsimp only at hOpening
          split at hOpening <;> cases hOpening

variable {cfg : Config}

theorem faithful_of_not_quoted (hText : cfg.binary = false) {item : Item}
    (hKind : item.kind ≠ .double) (hQuoted : ¬ item.quoted) :
    Faithful cfg item.kind item.value := by
  rcases item with ⟨k, v⟩
  cases k with
  | string =>
    rw [Faithful, hText]
    exact hQuoted
  | double => exact absurd rfl hKind
  | _ => trivial

theorem loadAll_of_ready (hText : cfg.binary = false) {entries : List Entry}
    (hKinds : ∀ entry ∈ entries, entry.kind ≠ .double)
    (hQuoted : ∀ item ∈ saved cfg entries, ¬ item.quoted) {input : Input}
    (hReady : Ready cfg input (saved cfg entries)) :
    loadAll cfg entries input = .ok (entries.map Entry.item) := by
  induction entries generalizing input with
  | nil => rfl
  | cons entry entries ih =>
    rw [saved, List.flatMap_cons] at hReady hQuoted
    have hTag : cfg.tracing = true → '"' ∉ entry.tag := by
      rintro hTracing
      apply hQuoted ⟨.string, entry.tag⟩
      simp [save, tracePoint, hTracing]
    have hValue : ¬ entry.item.quoted := hQuoted entry.item (by simp [save])
    have hFaithful : Faithful cfg entry.item.kind entry.item.value :=
      faithful_of_not_quoted hText (hKinds entry List.mem_cons_self) hValue
    obtain ⟨input', hLoad, hReady'⟩ := Ready.load hReady hTag hFaithful entry.old
    have hRest := ih (fun e he => hKinds e (List.mem_cons_of_mem entry he))
      (fun item hItem => hQuoted item (List.mem_append_right _ hItem)) hReady'
    rw [loadAll, hLoad]
    simp only [bind, Except.bind, hRest]
    rfl

theorem readString_ne (hText : cfg.binary = false) {input : Input} (hGood : input.good = true)
    (old : Text) {value : Text} (hQuote : '"' ∈ value) :
    (read cfg .string old input).1 ≠ value := by
  rw [read, hText]
  rintro rfl
  exact quote_notMem_readQuoted hGood old hQuote

theorem not_quoted_of_loadAll (hText : cfg.binary = false) {entries : List Entry}
    (hKinds : ∀ entry ∈ entries, entry.kind ≠ .double) {input : Input}
    (hReady : Ready cfg input (saved cfg entries))
    (hLoad : loadAll cfg entries input = .ok (entries.map Entry.item)) :
    ∀ item ∈ saved cfg entries, ¬ item.quoted := by
  induction entries generalizing input with
  | nil =>
    intro item hItem
    cases hItem
  | cons entry entries ih =>
    rw [saved, List.flatMap_cons] at hReady ⊢
    have hTag : cfg.tracing = true → '"' ∉ entry.tag := by
      rintro hTracing hQuote
      have hRead := readString_ne hText hReady.1 [] hQuote
      rw [loadAll, load, loadTracePoint, hTracing, if_pos rfl, if_neg hRead] at hLoad
      cases hLoad
    rw [save, List.append_assoc] at hReady
    obtain ⟨input₁, hTrace, hReady₁⟩ := hReady.loadTracePoint hTag
    have hFirst : load cfg entry.tag entry.kind entry.old input =
        .ok (read cfg entry.kind entry.old input₁) := by
      rw [load, hTrace]
      rfl
    rw [loadAll, hFirst] at hLoad
    cases hRest : loadAll cfg entries (read cfg entry.kind entry.old input₁).2 with
    | error message =>
      simp only [bind, Except.bind, hRest] at hLoad
      cases hLoad
    | ok values =>
      simp only [bind, Except.bind, hRest] at hLoad
      obtain ⟨hItem, hValues⟩ := List.cons.inj (Except.ok.inj hLoad)
      have hValue : (read cfg entry.kind entry.old input₁).1 = entry.value :=
        eq_of_heq (Item.mk.inj hItem).2
      have hNotQuoted : ¬ entry.item.quoted := by
        rcases entry with ⟨tag, k, value, old⟩
        cases k with
        | string =>
          rintro hQuote
          exact readString_ne hText hReady₁.1 old hQuote hValue
        | _ => exact id
      have hFaithful : Faithful cfg entry.item.kind entry.item.value :=
        faithful_of_not_quoted hText (hKinds entry List.mem_cons_self) hNotQuoted
      obtain ⟨input₂, hRead, hReady₂⟩ := hReady₁.read hFaithful entry.old
      rw [hRead, hValues] at hRest
      have hLater := ih (fun e he => hKinds e (List.mem_cons_of_mem entry he)) hReady₂ hRest
      rintro item hItem
      rcases List.mem_append.mp hItem with hSaved | hSaved
      · rcases List.mem_append.mp hSaved with hTagItem | hValueItem
        · rw [tracePoint] at hTagItem
          split at hTagItem
          · next hTracing =>
            obtain rfl := List.mem_singleton.mp hTagItem
            exact hTag hTracing
          · cases hTagItem
        · obtain rfl := List.mem_singleton.mp hValueItem
          exact hNotQuoted
      · exact hLater item hSaved

/-- In a debug build no string with a quote is written. -/
theorem not_quoted_of_writeAll (hText : cfg.binary = false) (hDebug : cfg.debug = true)
    {items : List Item} {text : Text} (h : writeAll cfg items = .ok text) :
    ∀ item ∈ items, ¬ item.quoted := by
  induction items generalizing text with
  | nil =>
    intro item hItem
    cases hItem
  | cons item items ih =>
    obtain ⟨first, rest, hFirst, hRest, -⟩ := writeAll_cons_ok h
    rintro other hOther
    rcases List.mem_cons.mp hOther with rfl | hLater
    · rcases other with ⟨k, v⟩
      cases k with
      | string =>
        rintro hQuote
        rw [write, hText, if_neg (by decide), writeText, if_pos ⟨hDebug, hQuote⟩] at hFirst
        cases hFirst
      | _ => exact id
    · exact ih hRest other hLater

/-- The text modes keep every sequence of values whose strings, in the tracing modes also
its tags, have no quote. Only a debug build refuses the others. -/
theorem lossless_iff (cfg : Config) (entries : List Entry) (hText : cfg.trace ≠ .noTrace)
    (hKinds : ∀ entry ∈ entries, entry.kind ≠ .double) :
    Lossless cfg entries ↔
      cfg.debug = true ∨ ∀ item ∈ saved cfg entries, ¬ item.quoted := by
  have hMode : cfg.binary = false := decide_eq_false hText
  constructor
  · rintro hLossless
    cases hDebug : cfg.debug with
    | true => exact .inl rfl
    | false =>
      have hWritable : ∀ item ∈ saved cfg entries, Writable cfg item :=
        fun item _ => writable_of_release hDebug item
      obtain ⟨data, hData⟩ := writeAll_of_writable hWritable
      rw [Lossless, hData] at hLossless
      exact .inr (not_quoted_of_loadAll hMode hKinds (ready_streamSerializer hData) hLossless)
  · rintro hCondition
    rw [Lossless]
    cases hData : writeAll cfg (saved cfg entries) with
    | error message => trivial
    | ok data =>
      refine loadAll_of_ready hMode hKinds ?_ (ready_streamSerializer hData)
      rcases hCondition with hDebug | hQuoted
      · exact not_quoted_of_writeAll hMode hDebug hData
      · exact hQuoted

/-- A release build in the mode `ascii`. No double is written. -/
def asciiRelease : Config where
  trace := .ascii
  debug := false
  doubles := ⟨fun _ => [], fun text => ((0, false), text)⟩
  uninitialized := 0

def keyAndValue (key : Text) : List Entry :=
  [⟨"First".toList, .string, key, []⟩, ⟨"Second".toList, .integer .int, 7, 0⟩]

theorem lossless_iff_keyAndValue : Lossless asciiRelease (keyAndValue "a b\n".toList) ↔
    asciiRelease.debug = true ∨
      ∀ item ∈ saved asciiRelease (keyAndValue "a b\n".toList), ¬ item.quoted := by
  refine lossless_iff asciiRelease (keyAndValue "a b\n".toList) (by decide) ?_
  rintro entry hEntry
  have hKind : ∀ kind ∈ (keyAndValue "a b\n".toList).map Entry.kind, kind ≠ .double := by decide
  exact hKind entry.kind (List.mem_map_of_mem hEntry)

/-- The key `a"b` becomes `a`, and the number after it zero. -/
theorem quote_changes_values : ¬ Lossless asciiRelease (keyAndValue "a\"b".toList) := by
  have hData : writeAll asciiRelease (saved asciiRelease (keyAndValue "a\"b".toList)) =
      .ok "\"a\"b\"\n7\n".toList := by decide
  have hLoad : loadAll asciiRelease (keyAndValue "a\"b".toList)
      (streamSerializer "\"a\"b\"\n7\n".toList) =
        .ok [⟨.string, "a".toList⟩, ⟨.integer .int, 0⟩] := by decide
  rw [Lossless, hData]
  dsimp only
  rw [hLoad]
  decide

end CoSimIO.Serializer

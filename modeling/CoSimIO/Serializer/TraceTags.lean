import CoSimIO.Serializer.ValueRules
import Mathlib.Data.List.TakeWhile

/-! # Trace tags: a load with another tag than the save is found out -/

namespace CoSimIO.Serializer

set_option autoImplicit false

section Ended

variable {cfg : Config} {floats : FloatText} {place : Placement}

mutual

/-- Loaded without a tag inside that is not empty. -/
def Shape.silent : Shape → Bool
  | .scalar _ => true
  | .array size _ => size == 0
  | .object members => members.silent
  | _ => false

def Members.silent : Members → Bool
  | .nil => true
  | .cons tag a rest => tag.isEmpty && a.silent && rest.silent

end

/-- What a load can do on a stream that is not good any more: when it is silent it ends, else it
misses a tag. -/
def Ends {α : Type} (silent : Bool) (outcome : Except Text (α × Input)) : Prop :=
  if silent then ∃ v input, outcome = .ok (v, input) ∧ input.good = false
  else ∃ lines given, given ≠ [] ∧ outcome = .error (traceError lines [] given)

theorem Input.extractInto_ended {α : Type} {input : Input} (hEnded : input.good = false)
    (old : α) (parse : Text → (α × Bool) × Text) :
    input.extractInto old parse = (old, input.nextLine) := by
  have hMode : ¬ input.good = true := by simp [hEnded]
  rw [Input.extractInto, Input.extract, if_neg hMode]
  rfl

theorem Input.readQuoted_ended {input : Input} (hEnded : input.good = false) (old : Text) :
    input.readQuoted old = (old, input.nextLine) := by
  have hMode : ¬ input.good = true := by simp [hEnded]
  have hLine : input.getline '"' = (none, input) := by rw [Input.getline, if_neg hMode]
  rw [Input.readQuoted, hLine]
  simp only [hLine, Option.getD_none]

theorem readScalar_ended (hText : cfg.binary = false) {input : Input}
    (hEnded : input.good = false) (s : Scalar) (old : s.Carrier) :
    (s.read cfg floats old input).2.good = false := by
  have hMode : ¬ cfg.binary = true := by simp [hText]
  cases s with
  | bool =>
    change (Serializer.read cfg .bool old input).2.good = false
    rw [Serializer.read, if_neg hMode, readText, Input.extractInto_ended hEnded]
    exact hEnded
  | integer t =>
    change (Serializer.read cfg (.integer t) old input).2.good = false
    rw [Serializer.read, if_neg hMode, readText, Input.extractInto_ended hEnded]
    exact hEnded
  | double =>
    change (Serializer.read cfg .double old input).2.good = false
    rw [Serializer.read, if_neg hMode, readText, Input.extractInto_ended hEnded]
    exact hEnded
  | string =>
    change (Serializer.read cfg .string old input).2.good = false
    rw [Serializer.read, if_neg hMode, readText, Input.readQuoted_ended hEnded]
    exact hEnded
  | float =>
    have hRead : Scalar.read cfg floats .float old input = input.extractInto old floats.parse :=
      if_neg hMode
    rw [hRead, Input.extractInto_ended hEnded]
    exact hEnded

theorem loadTracePoint_ended (hTracing : cfg.tracing = true) {input : Input}
    (hEnded : input.good = false) (tag : Text) :
    loadTracePoint cfg tag input =
      if tag = [] then .ok input.nextLine
      else .error (traceError (input.numberOfLines + 1) [] tag) := by
  have hMode : ¬ cfg.binary = true := by simp [binary_of_tracing hTracing]
  have hRead : read cfg .string [] input = ([], input.nextLine) := by
    rw [read, if_neg hMode, readText, Input.readQuoted_ended hEnded]
  rw [loadTracePoint, if_pos hTracing, hRead]
  cases tag with
  | nil => rfl
  | cons c cs => rfl

theorem ends_loadAt (hTracing : cfg.tracing = true) {α : Type} {tag : Text} {silent : Bool}
    {body : Read α} (hBody : ∀ input, input.good = false → Ends silent (body input))
    {input : Input} (hEnded : input.good = false) :
    Ends (tag.isEmpty && silent) (loadAt cfg tag body input) := by
  rw [loadAt, loadTracePoint_ended hTracing hEnded]
  cases tag with
  | nil => exact hBody input.nextLine hEnded
  | cons c cs => exact ⟨_, c :: cs, List.cons_ne_nil c cs, rfl⟩

theorem ends_tagged (hTracing : cfg.tracing = true) {α : Type} {c : Char} {tag : Text}
    {silent : Bool} {body : Read α} (hBody : ∀ input, input.good = false → Ends silent (body input))
    {input : Input} (hEnded : input.good = false) :
    Ends false (loadAt cfg (c :: tag) body input) := by
  have hEnds : Ends ((c :: tag).isEmpty && silent) (loadAt cfg (c :: tag) body input) :=
    ends_loadAt hTracing hBody hEnded
  exact hEnds

theorem ends_size (hTracing : cfg.tracing = true) {old : BitVec 64} {input : Input}
    (hEnded : input.good = false) : Ends false (loadSize cfg old input) := by
  refine ⟨input.numberOfLines + 1, "size".toList, nofun, ?_⟩
  change (loadTracePoint cfg "size".toList input >>= _) = _
  rw [loadTracePoint_ended hTracing hEnded]
  rfl

theorem ends_loadPair {α β : Type} {first : Read α} {second : Read β} {silent silent' : Bool}
    {input : Input} (hFirst : Ends silent (first input))
    (hSecond : ∀ input, input.good = false → Ends silent' (second input)) :
    Ends (silent && silent') (loadPair first second input) := by
  cases silent with
  | false =>
    obtain ⟨lines, given, hGiven, hOutcome⟩ := hFirst
    refine ⟨lines, given, hGiven, ?_⟩
    rw [loadPair, hOutcome]
    rfl
  | true =>
    obtain ⟨v, input', hOutcome, hEnded⟩ := hFirst
    have hLater := hSecond input' hEnded
    cases silent' with
    | false =>
      obtain ⟨lines, given, hGiven, hOutcome'⟩ := hLater
      refine ⟨lines, given, hGiven, ?_⟩
      rw [loadPair, hOutcome]
      change (second input' >>= _) = _
      rw [hOutcome']
      rfl
    | true =>
      obtain ⟨w, input'', hOutcome', hEnded'⟩ := hLater
      refine ⟨(v, w), input'', ?_, hEnded'⟩
      rw [loadPair, hOutcome]
      change (second input' >>= _) = _
      rw [hOutcome']
      rfl

theorem ends_bind {α β : Type} {first : Read α} {second : α × Input → Except Text (β × Input)}
    {input : Input} (h : Ends false (first input)) : Ends false (first input >>= second) := by
  obtain ⟨lines, given, hGiven, hOutcome⟩ := h
  refine ⟨lines, given, hGiven, ?_⟩
  rw [hOutcome]
  rfl

mutual

/-- What follows the trace point of a load. -/
theorem Shape.body (hTracing : cfg.tracing = true) : (a : Shape) → ∀ (tag : Text)
    (old : a.Carrier), ∃ body : Read a.Carrier,
      a.load cfg floats place tag old = loadAt cfg tag body ∧
      ∀ input, input.good = false → Ends a.silent (body input)
  | .scalar s, tag, old => by
    refine ⟨_, rfl, ?_⟩
    intro input hEnded
    exact ⟨_, _, rfl, readScalar_ended (binary_of_tracing hTracing) hEnded s old⟩
  | .pair a b, tag, old => by
    refine ⟨_, rfl, ?_⟩
    intro input hEnded
    obtain ⟨first, hFirst, hEnds⟩ := a.body hTracing "First".toList old.1
    have hEnd : Ends false (a.load cfg floats place "First".toList old.1 input) := by
      rw [hFirst]
      exact ends_tagged hTracing hEnds hEnded
    exact ends_bind hEnd
  | .array size a, tag, old => by
    refine ⟨_, rfl, ?_⟩
    intro input hEnded
    obtain ⟨elements, hSize⟩ := old
    cases elements with
    | nil =>
      obtain rfl := hSize
      exact ⟨_, input, rfl, hEnded⟩
    | cons element elements =>
      obtain rfl := hSize
      obtain ⟨first, hFirst, hEnds⟩ := a.body hTracing "E".toList element
      have hElement : Ends false (a.load cfg floats place "E".toList element input) := by
        rw [hFirst]
        exact ends_tagged hTracing hEnds hEnded
      exact ends_bind (ends_bind hElement)
  | .vector a, tag, old => by
    refine ⟨_, rfl, ?_⟩
    intro input hEnded
    exact ends_bind (ends_size hTracing hEnded)
  | .map a b, tag, old => by
    refine ⟨_, rfl, ?_⟩
    intro input hEnded
    exact ends_bind (ends_size hTracing hEnded)
  | .object members, tag, old => ⟨_, rfl, fun input hEnded => members.ends hTracing old hEnded⟩

theorem Members.ends (hTracing : cfg.tracing = true) : (members : Members) →
    ∀ (old : members.Carrier) {input : Input}, input.good = false →
      Ends members.silent (members.load cfg floats place old input)
  | .nil, old, input, hEnded => ⟨(), input, rfl, hEnded⟩
  | .cons tag a rest, old, input, hEnded => by
    obtain ⟨body, hBody, hEnds⟩ := a.body hTracing tag old.1
    have hFirst : Ends (tag.isEmpty && a.silent) (a.load cfg floats place tag old.1 input) := by
      rw [hBody]
      exact ends_loadAt hTracing hEnds hEnded
    exact ends_loadPair hFirst fun later hLater => rest.ends hTracing old.2 hLater

end

end Ended

section Sequences

variable {cfg : Config} {floats : FloatText} {place : Placement} {extra gap : Text}

/-- A value that the text modes can represent: no quotes, and numbers whose text reads back. -/
structure Saved.Legible (cfg : Config) (floats : FloatText) (saved : Saved) : Prop where
  tag : '"' ∉ saved.tag
  tags : ∀ t ∈ saved.type.tags, '"' ∉ t
  sound : saved.type.Sound saved.value
  scalars : saved.type.Each (Scalar.Legible cfg floats) saved.value

def Saved.Agrees (saved : Saved) (request : Request) : Prop :=
  saved.tag = request.tag ∧ saved.type = request.type

def Saved.Returned (saved : Saved) (value : Value) : Prop :=
  ∃ v, value = ⟨saved.type, v⟩ ∧ saved.type.equal v saved.value = true

def items (cfg : Config) (floats : FloatText) (saves : List Saved) : List Item :=
  saves.flatMap fun saved => saved.type.save cfg floats saved.tag saved.value

/-- Each save begins with its tag. -/
theorem Shape.save_point (cfg : Config) (floats : FloatText) (a : Shape) (tag : Text)
    (v : a.Carrier) :
    ∃ rest, a.save cfg floats tag v = tracePoint cfg tag ++ rest := by
  cases a with
  | scalar s => exact ⟨_, rfl⟩
  | pair a b => exact ⟨_, rfl⟩
  | array size a => exact ⟨_, rfl⟩
  | vector a => exact ⟨_, rfl⟩
  | map a b => exact ⟨_, rfl⟩
  | object members => exact ⟨_, rfl⟩

theorem Saved.Agrees.load (hTracing : cfg.tracing = true) {saved : Saved} {request : Request}
    (hAgrees : saved.Agrees request) (hLegible : saved.Legible cfg floats)
    (hOld : request.type.NoEntries request.old) (hGap : Blank gap) :
    Loads cfg extra gap (request.type.load cfg floats place request.tag request.old)
      (saved.type.save cfg floats saved.tag saved.value)
      fun v => saved.Returned ⟨request.type, v⟩ := by
  obtain ⟨tag, type, old⟩ := request
  obtain ⟨rfl, rfl⟩ := hAgrees
  exact (saved.type.loads hTracing hGap hLegible.tag hLegible.tags hLegible.sound
    hLegible.scalars hOld).conseq fun v hEqual => ⟨v, rfl, hEqual⟩

/-- What the loads that agree with the saves leave before the next item -/
def gapAfter (gap : Text) (loaded : List Saved) : Text :=
  if loaded.isEmpty then gap else ['\n']

theorem loadValues_agreeing (hTracing : cfg.tracing = true) {before : List Saved}
    {matching : List Request} (hAgree : List.Forall₂ Saved.Agrees before matching)
    (hLegible : ∀ saved ∈ before, saved.Legible cfg floats)
    (hOld : ∀ request ∈ matching, request.type.NoEntries request.old)
    (requests : List Request) (later : List Item) {gap : Text} (hGap : Blank gap) {input : Input}
    (hAt : At cfg extra gap (items cfg floats before ++ later) input) :
    ∃ values input', At cfg extra (gapAfter gap before) later input' ∧
      List.Forall₂ Saved.Returned before values ∧
      loadValues cfg floats place (matching ++ requests) input =
        (values ++ (loadValues cfg floats place requests input').1,
          (loadValues cfg floats place requests input').2) := by
  induction hAgree generalizing gap input with
  | nil => exact ⟨[], input, hAt, .nil, rfl⟩
  | @cons saved request before matching hHead _ ih =>
    rw [items, List.flatMap_cons, List.append_assoc] at hAt
    obtain ⟨v, input₁, hLoad, hReturned, hAt₁⟩ :=
      hHead.load hTracing (hLegible saved List.mem_cons_self) (hOld request List.mem_cons_self)
        hGap _ input hAt
    obtain ⟨values, input₂, hAt₂, hValues, hRest⟩ :=
      ih (fun x hx => hLegible x (List.mem_cons_of_mem saved hx))
        (fun x hx => hOld x (List.mem_cons_of_mem request hx)) blank_newline hAt₁
    have hLast : gapAfter ['\n'] before = ['\n'] := by
      rw [gapAfter]
      exact ite_self _
    rw [hLast] at hAt₂
    refine ⟨⟨request.type, v⟩ :: values, input₂, hAt₂, .cons hReturned hValues, ?_⟩
    rw [List.cons_append, loadValues, hLoad]
    dsimp only
    rw [hRest]
    rfl

theorem loadTracePoint_other (hTracing : cfg.tracing = true) (hGap : Blank gap) {found tag : Text}
    (hFound : '"' ∉ found) (hNe : found ≠ tag) {later : List Item} {input : Input}
    (hAt : At cfg extra gap (tracePoint cfg found ++ later) input) :
    ∃ lines, loadTracePoint cfg tag input = .error (traceError lines found tag) := by
  have hText := binary_of_tracing hTracing
  have hFaithful : Faithful cfg .string found := by
    rw [Faithful, hText]
    exact hFound
  rw [tracePoint, if_pos hTracing] at hAt
  obtain ⟨input', hRead, -⟩ := hAt.read hText hGap hFaithful []
  refine ⟨input'.numberOfLines, ?_⟩
  rw [loadTracePoint, if_pos hTracing, hRead]
  exact if_neg hNe

/-- At the end what is left is taken for the tag. -/
theorem loadTracePoint_end (hTracing : cfg.tracing = true) {input : Input}
    (hGood : input.good = true) (hBlank : Blank input.chars) (tag : Text) :
    loadTracePoint cfg tag input =
      if input.chars = tag then .ok ⟨[], false, input.numberOfLines + 1⟩
      else .error (traceError (input.numberOfLines + 1) input.chars tag) := by
  have hMode : ¬ cfg.binary = true := by simp [binary_of_tracing hTracing]
  have hAll : ∀ c ∈ input.chars, decide (c ≠ '"') = true := by
    intro c hc
    refine decide_eq_true ?_
    rintro rfl
    exact absurd (hBlank '"' hc) (by decide)
  have hLine : input.getline '"' =
      (some input.chars, { input with chars := [], good := false }) := by
    rw [Input.getline, if_pos hGood, List.takeWhile_eq_self_iff.mpr hAll,
      List.dropWhile_eq_nil_iff.mpr hAll]
  have hRead : read cfg .string [] input = (input.chars, ⟨[], false, input.numberOfLines + 1⟩) := by
    rw [read, if_neg hMode, readText, Input.readQuoted, hLine]
    rfl
  rw [loadTracePoint, if_pos hTracing, hRead]

/-- All loads of the agreeing part returned what was saved, the next one raised the error of a
trace tag. -/
def Detected (before : List Saved) (outcome : List Value × Except Text Input) : Prop :=
  List.Forall₂ Saved.Returned before outcome.1 ∧
    ∃ lines found given, found ≠ given ∧ outcome.2 = .error (traceError lines found given)

theorem loadValues_error {request : Request} {requests : List Request} {input : Input}
    {message : Text}
    (h : request.type.load cfg floats place request.tag request.old input = .error message) :
    loadValues cfg floats place (request :: requests) input = ([], .error message) := by
  rw [loadValues, h]

theorem Shape.load_of_point (hTracing : cfg.tracing = true) (a : Shape) {tag : Text}
    (old : a.Carrier) {input : Input} {message : Text}
    (h : loadTracePoint cfg tag input = .error message) :
    a.load cfg floats place tag old input = .error message := by
  obtain ⟨body, hBody, -⟩ : ∃ body : Read a.Carrier,
      a.load cfg floats place tag old = loadAt cfg tag body ∧
        ∀ input, input.good = false → Ends a.silent (body input) := a.body hTracing tag old
  rw [hBody, loadAt, h]
  rfl

theorem Shape.load_ended (hTracing : cfg.tracing = true) (a : Shape) {tag : Text}
    (old : a.Carrier) {input input' : Input} (hPoint : loadTracePoint cfg tag input = .ok input')
    (hEnded : input'.good = false) : Ends a.silent (a.load cfg floats place tag old input) := by
  obtain ⟨body, hBody, hEnds⟩ : ∃ body : Read a.Carrier,
      a.load cfg floats place tag old = loadAt cfg tag body ∧
        ∀ input, input.good = false → Ends a.silent (body input) := a.body hTracing tag old
  rw [hBody, loadAt, hPoint]
  exact hEnds input' hEnded

/-- After the last save a load is found out unless it is silent. -/
theorem detected_ended {before : List Saved} {values : List Value}
    (hValues : List.Forall₂ Saved.Returned before values) {request : Request}
    {requests : List Request} {input : Input} (h : Ends request.type.silent
      (request.type.load cfg floats place request.tag request.old input)) :
    Detected before (values ++ (loadValues cfg floats place (request :: requests) input).1,
      (loadValues cfg floats place (request :: requests) input).2) ↔
      request.type.silent = false := by
  cases hSilent : request.type.silent with
  | true =>
    rw [hSilent] at h
    obtain ⟨v, input', hLoad, -⟩ := h
    refine iff_of_false ?_ nofun
    rintro ⟨hReturned, -⟩
    rw [loadValues, hLoad] at hReturned
    have hLength := hReturned.length_eq
    rw [List.length_append, List.length_cons, hValues.length_eq] at hLength
    omega
  | false =>
    rw [hSilent] at h
    obtain ⟨lines, given, hGiven, hLoad⟩ := h
    rw [loadValues_error hLoad, List.append_nil]
    exact iff_of_true ⟨hValues, lines, [], given, hGiven.symm, rfl⟩ rfl

/-- A different tag, or a load after the last save, is found out, except where all that is left
in the buffer is the tag. -/
theorem trace_mismatch_detected (cfg : Config) (floats : FloatText) (place : Placement)
    (hTracing : cfg.tracing = true) (before after : List Saved) (matching : List Request)
    (request : Request) (requests : List Request) (extra data : Text) (hExtra : Blank extra)
    (hAgree : List.Forall₂ Saved.Agrees before matching)
    (hDiffer : ∀ saved ∈ after.head?, saved.tag ≠ request.tag ∧ '"' ∉ saved.tag)
    (hLegible : ∀ saved ∈ before, saved.Legible cfg floats)
    (hOld : ∀ request ∈ matching, request.type.NoEntries request.old)
    (hData : saveValues cfg floats (before ++ after) = .ok data) :
    Detected before (loadValues cfg floats place (matching ++ request :: requests)
        ⟨data ++ extra, true, 0⟩) ↔
      (after = [] → request.tag = gapAfter [] before ++ extra → request.type.silent = false) := by
  have hStart : At cfg extra [] (items cfg floats before ++ items cfg floats after)
      ⟨data ++ extra, true, 0⟩ := by
    rw [items, items, ← List.flatMap_append]
    exact ⟨rfl, data, hData, rfl⟩
  obtain ⟨values, input, hAt, hValues, hAll⟩ := loadValues_agreeing hTracing hAgree hLegible hOld
    (request :: requests) (items cfg floats after) blank_nil hStart
  have hGap : Blank (gapAfter [] before) := by
    rw [gapAfter]
    split
    · exact blank_nil
    · exact blank_newline
  rw [hAll]
  cases after with
  | cons saved after =>
    obtain ⟨hNe, hQuote⟩ := hDiffer saved rfl
    obtain ⟨rest, hRest⟩ := Shape.save_point cfg floats saved.type saved.tag saved.value
    rw [items, List.flatMap_cons, hRest, List.append_assoc] at hAt
    obtain ⟨lines, hPoint⟩ := loadTracePoint_other hTracing hGap hQuote hNe hAt
    rw [loadValues_error (request.type.load_of_point hTracing request.old hPoint)]
    refine iff_of_true ⟨?_, lines, saved.tag, request.tag, hNe, rfl⟩ nofun
    rw [List.append_nil]
    exact hValues
  | nil =>
    obtain ⟨hGood, text, hText, hChars⟩ := hAt
    obtain rfl := Except.ok.inj hText
    rw [List.nil_append] at hChars
    have hBlank : Blank input.chars := by
      rw [hChars]
      intro c hc
      exact (List.mem_append.mp hc).elim (hGap c) (hExtra c)
    have hPoint := loadTracePoint_end hTracing hGood hBlank request.tag
    rw [hChars] at hPoint
    by_cases hTag : gapAfter [] before ++ extra = request.tag
    · rw [if_pos hTag] at hPoint
      rw [detected_ended hValues (request.type.load_ended hTracing request.old hPoint rfl)]
      exact ⟨fun h _ _ => h, fun h => h rfl hTag.symm⟩
    · rw [if_neg hTag] at hPoint
      rw [loadValues_error (request.type.load_of_point hTracing request.old hPoint)]
      refine iff_of_true ⟨?_, _, _, request.tag, hTag, rfl⟩ fun _ h => absurd h.symm hTag
      rw [List.append_nil]
      exact hValues

/-- 100000000000001 is written with fourteen digits. -/
def fourteenDigits : DoubleText where
  print _ := "1e+14".toList
  parse text := ((0x42D6BCC41E900000, true), text.dropWhile (· ≠ '\n'))

def traceErrorConfig : Config where
  trace := .traceError
  debug := false
  doubles := fourteenDigits
  uninitialized := 0

def noFloats : FloatText := ⟨fun _ => 0, fun text => ((0, false), text)⟩

def atEnd : Placement := fun _ _ entries _ => entries.length

def twoNumbers : Saved := ⟨"numbers".toList, .vector (.scalar (.integer .int)), [1, 2]⟩

def someName : Saved := ⟨"name".toList, .scalar .string, "x".toList⟩

def numbersRequest : Request := ⟨"numbers".toList, .vector (.scalar (.integer .int)), [7]⟩

def wordRequest : Request := ⟨"word".toList, .scalar .string, []⟩

theorem trace_mismatch_detected_name : Detected [twoNumbers]
    (loadValues traceErrorConfig noFloats atEnd [numbersRequest, wordRequest]
      ⟨"\"numbers\"\n\"size\"\n2\n\"E\"\n1\n\"E\"\n2\n\"name\"\n\"x\"\n".toList, true, 0⟩) := by
  have hLegible : twoNumbers.Legible traceErrorConfig noFloats :=
    ⟨by decide, nofun, ⟨by decide, fun _ _ => trivial⟩, fun _ _ => trivial⟩
  have hAll : ∀ saved ∈ [twoNumbers], saved.Legible traceErrorConfig noFloats := by
    rintro saved hMem
    obtain rfl := List.mem_singleton.mp hMem
    exact hLegible
  have hAgree : List.Forall₂ Saved.Agrees [twoNumbers] [numbersRequest] := .cons ⟨rfl, rfl⟩ .nil
  have hOld : ∀ request ∈ [numbersRequest], request.type.NoEntries request.old := by
    rintro request hMem
    obtain rfl := List.mem_singleton.mp hMem
    exact fun _ _ => trivial
  have hDiffer : ∀ saved ∈ [someName].head?, saved.tag ≠ wordRequest.tag ∧ '"' ∉ saved.tag := by
    rintro saved hMem
    obtain rfl := Option.some.inj hMem
    exact ⟨by decide, by decide⟩
  exact (trace_mismatch_detected traceErrorConfig noFloats atEnd rfl [twoNumbers] [someName] _
    wordRequest [] [] _ blank_nil hAgree hDiffer hAll hOld rfl).mpr nofun

def five : Saved := ⟨"a".toList, .scalar (.integer .int), 5⟩

def fifteenDigitNumber : Saved := ⟨"a".toList, .scalar .double, 0x42D6BCC41E900040⟩

/-- A load that is too much with a newline as its tag, and a double that changes. -/
theorem trace_mismatch_missed :
    (saveValues traceErrorConfig noFloats [five] = .ok "\"a\"\n5\n".toList ∧
      ¬ Detected [five] (loadValues traceErrorConfig noFloats atEnd
        [⟨"a".toList, .scalar (.integer .int), 0⟩, ⟨"\n".toList, .scalar (.integer .int), 7⟩]
        ⟨"\"a\"\n5\n".toList, true, 0⟩)) ∧
    (saveValues traceErrorConfig noFloats [fifteenDigitNumber] = .ok "\"a\"\n1e+14\n".toList ∧
      ¬ Detected [fifteenDigitNumber] (loadValues traceErrorConfig noFloats atEnd
        [⟨"a".toList, .scalar .double, 0⟩, ⟨"b".toList, .scalar .double, 0⟩]
        ⟨"\"a\"\n1e+14\n".toList, true, 0⟩)) := by
  refine ⟨⟨rfl, ?_⟩, rfl, ?_⟩
  · rintro ⟨hReturned, -⟩
    have hLength := hReturned.length_eq
    revert hLength
    decide
  · rintro ⟨hReturned, -⟩
    have hValues : (loadValues traceErrorConfig noFloats atEnd
        [⟨"a".toList, .scalar .double, 0⟩, ⟨"b".toList, .scalar .double, 0⟩]
        ⟨"\"a\"\n1e+14\n".toList, true, 0⟩).1 = [⟨.scalar .double, 0x42D6BCC41E900000⟩] := rfl
    rw [hValues] at hReturned
    obtain ⟨v, hValue, hEqual⟩ := (List.forall₂_cons.mp hReturned).1
    obtain rfl := eq_of_heq (Value.mk.inj hValue).2
    exact absurd hEqual (by decide)

end Sequences

end CoSimIO.Serializer

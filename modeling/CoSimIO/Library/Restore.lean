import Mathlib.Tactic.Common

/-! # Writers and the readers that take back what they wrote

A writer emits items and passes on a state of its own. A reader takes items from a stream
and works on a memory. `Reads` is a triple over both sides: from a state of the writer and a
memory that are related before, the reader takes exactly the items of the writer, does not
fail, and leaves a memory that is related to the next state of the writer.
-/

namespace Restore

set_option autoImplicit false

abbrev Writer (ι σ : Type) : Type := σ → List ι × σ

namespace Writer

variable {ι σ α : Type}

def emit (items : List ι) : Writer ι σ := fun s => (items, s)

def andThen (first second : Writer ι σ) : Writer ι σ := fun s =>
  ((first s).1 ++ (second (first s).2).1, (second (first s).2).2)

def each (write : α → Writer ι σ) : List α → Writer ι σ
  | [] => emit []
  | x :: xs => (write x).andThen (each write xs)

@[simp] theorem emit_nil_andThen (second : Writer ι σ) : (emit []).andThen second = second := rfl

@[simp] theorem andThen_emit_nil (first : Writer ι σ) : first.andThen (emit []) = first := by
  funext s
  simp only [andThen, emit, List.append_nil]

theorem andThen_assoc (first second third : Writer ι σ) :
    (first.andThen second).andThen third = first.andThen (second.andThen third) := by
  funext s
  simp only [andThen, List.append_assoc]

theorem emit_append (first second : List ι) :
    (emit (first ++ second) : Writer ι σ) = (emit first).andThen (emit second) := rfl

/-- All items of the writer have the property. -/
def Emits (P : ι → Prop) (writer : Writer ι σ) : Prop := ∀ s, ∀ item ∈ (writer s).1, P item

variable {P : ι → Prop} {first second : Writer ι σ}

theorem emits_emit {items : List ι} (h : ∀ item ∈ items, P item) :
    (emit items : Writer ι σ).Emits P := fun _ => h

theorem Emits.andThen (hFirst : first.Emits P) (hSecond : second.Emits P) :
    (first.andThen second).Emits P := by
  intro s item hItem
  rcases List.mem_append.mp hItem with hHere | hLater
  · exact hFirst s item hHere
  · exact hSecond _ item hLater

theorem emits_each {write : α → Writer ι σ} {xs : List α} (h : ∀ x ∈ xs, (write x).Emits P) :
    (each write xs).Emits P := by
  induction xs with
  | nil => exact emits_emit nofun
  | cons x xs ih =>
    exact (h x List.mem_cons_self).andThen (ih fun y hy => h y (List.mem_cons_of_mem x hy))

end Writer

open Writer

abbrev Reader (S μ ε α : Type) : Type := StateT (S × μ) (Except ε) α

variable {ι σ S μ ε α β γ : Type} {ready : S → List ι → Prop}

def Reads (ready : S → List ι → Prop) (writer : Writer ι σ) (reader : Reader S μ ε α)
    (Before : σ → μ → Prop) (After : α → σ → μ → Prop) : Prop :=
  ∀ s input memory rest, ready input ((writer s).1 ++ rest) → Before s memory →
    ∃ a input' memory', reader (input, memory) = .ok (a, input', memory') ∧
      ready input' rest ∧ After a (writer s).2 memory'

variable {writer next : Writer ι σ} {reader : Reader S μ ε α} {Before : σ → μ → Prop}

theorem reads_pure {After : α → σ → μ → Prop} {a : α}
    (h : ∀ s memory, Before s memory → After a s memory) :
    Reads ready (emit []) (pure a : Reader S μ ε α) Before After := by
  rintro s input memory rest hReady hBefore
  exact ⟨a, input, memory, rfl, hReady, h s memory hBefore⟩

/-- A reader that leaves the stream alone. -/
theorem reads_silent {After : α → σ → μ → Prop}
    (h : ∀ s input memory, Before s memory → ∃ a memory',
      reader (input, memory) = .ok (a, input, memory') ∧ After a s memory') :
    Reads ready (emit []) reader Before After := by
  rintro s input memory rest hReady hBefore
  obtain ⟨a, memory', hRun, hAfter⟩ := h s input memory hBefore
  exact ⟨a, input, memory', hRun, hReady, hAfter⟩

theorem Reads.bind {Between : α → σ → μ → Prop} {After : β → σ → μ → Prop}
    {continuation : α → Reader S μ ε β} (hFirst : Reads ready writer reader Before Between)
    (hNext : ∀ a, Reads ready next (continuation a) (Between a) After) :
    Reads ready (writer.andThen next) (reader >>= continuation) Before After := by
  rintro s input memory rest hReady hBefore
  rw [andThen, List.append_assoc] at hReady
  obtain ⟨a, input₁, memory₁, hRun₁, hReady₁, hBetween⟩ :=
    hFirst s input memory ((next (writer s).2).1 ++ rest) hReady hBefore
  obtain ⟨b, input₂, memory₂, hRun₂, hReady₂, hAfter⟩ :=
    hNext a (writer s).2 input₁ memory₁ rest hReady₁ hBetween
  refine ⟨b, input₂, memory₂, ?_, hReady₂, hAfter⟩
  change (reader (input, memory) >>= fun r => continuation r.1 r.2) = _
  rw [hRun₁]
  exact hRun₂

/-- The value that the first reader gives is known. -/
theorem Reads.bind_eq {Between : σ → μ → Prop} {After : β → σ → μ → Prop} {v : α}
    {continuation : α → Reader S μ ε β}
    (hFirst : Reads ready writer reader Before fun a s memory => a = v ∧ Between s memory)
    (hNext : Reads ready next (continuation v) Between After) :
    Reads ready (writer.andThen next) (reader >>= continuation) Before After := by
  apply hFirst.bind
  rintro a s input memory rest hReady ⟨rfl, hBetween⟩
  exact hNext s input memory rest hReady hBetween

theorem Reads.silent_bind {Between : α → σ → μ → Prop} {After : β → σ → μ → Prop}
    {continuation : α → Reader S μ ε β} (hFirst : Reads ready (emit []) reader Before Between)
    (hNext : ∀ a, Reads ready next (continuation a) (Between a) After) :
    Reads ready next (reader >>= continuation) Before After :=
  hFirst.bind hNext

theorem Reads.silent_bind_eq {Between : σ → μ → Prop} {After : β → σ → μ → Prop} {v : α}
    {continuation : α → Reader S μ ε β}
    (hFirst : Reads ready (emit []) reader Before fun a s memory => a = v ∧ Between s memory)
    (hNext : Reads ready next (continuation v) Between After) :
    Reads ready next (reader >>= continuation) Before After :=
  hFirst.bind_eq hNext

/-- The continuation leaves the stream alone. -/
theorem Reads.bind_eq_silent {Between : σ → μ → Prop} {After : β → σ → μ → Prop} {v : α}
    {continuation : α → Reader S μ ε β}
    (hFirst : Reads ready writer reader Before fun a s memory => a = v ∧ Between s memory)
    (hNext : Reads ready (emit []) (continuation v) Between After) :
    Reads ready writer (reader >>= continuation) Before After :=
  andThen_emit_nil writer ▸ hFirst.bind_eq hNext

theorem Reads.conseq {Weaker : σ → μ → Prop} {After Stronger : α → σ → μ → Prop}
    (h : Reads ready writer reader Weaker Stronger)
    (hBefore : ∀ s memory, Before s memory → Weaker s memory)
    (hAfter : ∀ a s memory, Stronger a s memory → After a s memory) :
    Reads ready writer reader Before After := by
  rintro s input memory rest hReady hHere
  obtain ⟨a, input', memory', hRun, hReady', hThere⟩ :=
    h s input memory rest hReady (hBefore s memory hHere)
  exact ⟨a, input', memory', hRun, hReady', hAfter a _ memory' hThere⟩

theorem Reads.of_fact {P : Prop} {After : α → σ → μ → Prop}
    (h : P → Reads ready writer reader Before After) :
    Reads ready writer reader (fun s memory => P ∧ Before s memory) After := by
  rintro s input memory rest hReady ⟨hFact, hBefore⟩
  exact h hFact s input memory rest hReady hBefore

/-- What is a fact already stays one. -/
theorem Reads.frame {P : Prop} {After : α → σ → μ → Prop}
    (h : P → Reads ready writer reader Before After) :
    Reads ready writer reader (fun s memory => P ∧ Before s memory)
      fun a s memory => P ∧ After a s memory := by
  rintro s input memory rest hReady ⟨hFact, hBefore⟩
  obtain ⟨a, input', memory', hRun, hReady', hAfter⟩ :=
    h hFact s input memory rest hReady hBefore
  exact ⟨a, input', memory', hRun, hReady', hFact, hAfter⟩

/-- The relation before may fix what the writer does, what the reader does, and facts. -/
theorem Reads.of_before {After : α → σ → μ → Prop}
    (h : ∀ s memory, Before s memory → ∃ (writer' : Writer ι σ) (reader' : Reader S μ ε α),
      writer s = writer' s ∧ (∀ input, reader (input, memory) = reader' (input, memory)) ∧
      Reads ready writer' reader' (fun s' memory' => s' = s ∧ memory' = memory) After) :
    Reads ready writer reader Before After := by
  rintro s input memory rest hReady hBefore
  obtain ⟨writer', reader', hWriter, hReader, hReads⟩ := h s memory hBefore
  rw [hWriter] at hReady ⊢
  rw [hReader]
  exact hReads s input memory rest hReady ⟨rfl, rfl⟩

/-- A triple from one state and memory each. -/
theorem Reads.pointwise {After : α → σ → μ → Prop}
    (h : ∀ s memory, Before s memory →
      Reads ready writer reader (fun s' memory' => s' = s ∧ memory' = memory) After) :
    Reads ready writer reader Before After := by
  rintro s input memory rest hReady hBefore
  exact h s memory hBefore s input memory rest hReady ⟨rfl, rfl⟩

/-- The writer updates its state first. -/
theorem Reads.update {After : α → σ → μ → Prop} (f : σ → σ)
    (h : Reads ready writer reader (fun s memory => ∃ s', Before s' memory ∧ s = f s') After) :
    Reads ready (fun s => writer (f s)) reader Before After := by
  rintro s input memory rest hReady hBefore
  exact h (f s) input memory rest hReady ⟨s, hBefore, rfl⟩

/-- A loop over as many steps as the writer wrote elements. -/
theorem reads_each {write : α → Writer ι σ} {body : γ → β → Reader S μ ε γ} {xs : List α}
    {ys : List β} (I : Nat → γ → σ → μ → Prop) (hLength : ys.length = xs.length)
    (step : ∀ i x y, xs[i]? = some x → ys[i]? = some y → ∀ v,
      Reads ready (write x) (body v y) (I i v) (I (i + 1))) (v : γ) :
    Reads ready (each write xs) (ys.foldlM body v) (I 0 v) (I xs.length) := by
  induction xs generalizing ys I v with
  | nil =>
    obtain rfl := List.eq_nil_of_length_eq_zero hLength
    exact reads_pure fun _ _ h => h
  | cons x xs ih =>
    cases ys with
    | nil => nomatch hLength
    | cons y ys =>
      rw [List.foldlM_cons]
      apply (step 0 x y rfl rfl v).bind
      rintro v'
      exact ih (fun i => I (i + 1)) (Nat.succ.inj hLength)
        (fun i x' y' hx hy => step (i + 1) x' y' hx hy) v'

end Restore

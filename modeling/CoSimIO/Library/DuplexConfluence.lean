import CoSimIO.Library.Duplex
import Mathlib.Order.GameAdd

/-! # The order of the steps does not matter

Two processes over a stream in each direction are deterministic apart from the segments in which
data is written, delivered and read. So every run terminates, and all runs that cannot go on end
in the same state.
-/

namespace Duplex

set_option autoImplicit false

variable {β E : Type}

/-- What a process writes, reads and reports in one action -/
inductive Transition : Process β E Unit → List β → List β → List E → Process β E Unit → Prop
  | write (sent rest : List β) (next : Process β E Unit) (hSent : sent ≠ []) :
    Transition (.write (sent ++ rest) next) sent [] [] (.write rest next)
  | written (next : Process β E Unit) : Transition (.write [] next) [] [] [] next
  | read (count : Nat) (got : List β) (next : List β → Process β E Unit) (hGot : got ≠ [])
    (hCount : got.length ≤ count) :
    Transition (.read count next) [] got []
      (.read (count - got.length) fun more => next (got ++ more))
  | wasRead (next : List β → Process β E Unit) : Transition (.read 0 next) [] [] [] (next [])
  | report (event : E) (next : Process β E Unit) :
    Transition (.report event next) [] [] [event] next

namespace State

variable (s : State β E) (a : Party)

/-- A party has made a transition, and `arrived` is what it has left of the data of its partner. -/
def act (p : Process β E Unit) (out : List β) (events : List E) (arrived : List β) : State β E :=
  s.move a { s a with
    process := p, inFlight := (s a).inFlight ++ out, reported := (s a).reported ++ events } arrived

/-- A segment that a party has written has arrived. -/
def pass (segment rest : List β) : State β E :=
  s.goOn a { s a with inFlight := rest, arrived := (s a).arrived ++ segment }

variable {s a} {t : State β E}

theorem ext_party (hSelf : s a = t a) (hOther : s a.other = t a.other) : s = t := by
  funext b
  rcases Party.eq_or_eq_other a b with rfl | rfl
  · exact hSelf
  · exact hOther

variable (s a) (p : Process β E Unit) (out arrived segment rest : List β) (events : List E)

@[simp] theorem act_self : s.act a p out events arrived a = { s a with
    process := p, inFlight := (s a).inFlight ++ out, reported := (s a).reported ++ events } :=
  move_self _ _ _ _

@[simp] theorem act_other :
    s.act a p out events arrived a.other = { s a.other with arrived := arrived } :=
  move_other _ _ _ _

@[simp] theorem pass_self : s.pass a segment rest a =
    { s a with inFlight := rest, arrived := (s a).arrived ++ segment } :=
  move_self _ _ _ _

@[simp] theorem pass_other : s.pass a segment rest a.other = s a.other := move_other _ _ _ _

@[simp] theorem act_partner :
    s.act a.other p out events arrived a = { s a with arrived := arrived } := by
  simpa using act_other s a.other p out arrived events

@[simp] theorem pass_partner : s.pass a.other segment rest a = s a := by
  simpa using pass_other s a.other segment rest

variable (p' : Process β E Unit) (out' arrived' segment' rest' : List β) (events' : List E)

theorem act_act : (s.act a p out events arrived).act a p' out' events' arrived' =
    s.act a p' (out ++ out') (events ++ events') arrived' :=
  ext_party (a := a) (by simp) (by simp)

theorem pass_pass : (s.pass a segment rest).pass a segment' rest' =
    s.pass a (segment ++ segment') rest' :=
  ext_party (a := a) (by simp) (by simp)

theorem act_act_comm : (s.act a p out events arrived).act a.other p' out' events' arrived' =
    (s.act a.other p' out' events' arrived').act a p out events arrived :=
  ext_party (a := a) (by simp) (by simp)

theorem act_pass_comm : (s.act a p out events arrived).pass a segment (rest ++ out) =
    (s.pass a segment rest).act a p out events arrived :=
  ext_party (a := a) (by simp) (by simp)

theorem act_pass_partner_comm :
    (s.act a p out events arrived).pass a.other segment rest =
      (s.pass a.other segment rest).act a p out events (arrived ++ segment) :=
  ext_party (a := a) (by simp) (by simp)

theorem pass_pass_comm : (s.pass a segment rest).pass a.other segment' rest' =
    (s.pass a.other segment' rest').pass a segment rest :=
  ext_party (a := a) (by simp) (by simp)

end State

section Steps

variable {s t u : State β E} {a b : Party} {p p₁ p₂ : Process β E Unit}
  {out out₁ out₂ got got₁ got₂ r r₁ r₂ segment rest : List β} {events events₁ events₂ : List E}

theorem step_act (hProcess : (s a).process = p₁) (h : Transition p₁ out got events p)
    (hArrived : (s a.other).arrived = got ++ r) : Step s (s.act a p out events r) := by
  rw [State.act]
  cases h with
  | write _ rest next hSent =>
    rw [List.append_nil, ← List.nil_append r, ← hArrived]
    exact .write a _ rest next hProcess hSent
  | written =>
    rw [List.append_nil, List.append_nil, ← List.nil_append r, ← hArrived]
    exact .written a p hProcess
  | read count _ next hGot hCount =>
    rw [List.append_nil, List.append_nil]
    exact .read a count got r next hProcess hArrived hGot hCount
  | wasRead next =>
    rw [List.append_nil, List.append_nil, ← List.nil_append r, ← hArrived]
    exact .wasRead a next hProcess
  | report event =>
    rw [List.append_nil, ← List.nil_append r, ← hArrived]
    exact .report a event p hProcess

theorem step_pass (segment rest : List β) (hInFlight : (s a).inFlight = segment ++ rest)
    (hSegment : segment ≠ []) : Step s (s.pass a segment rest) :=
  .deliver a segment rest hInFlight hSegment

/-- Everything one step can do -/
theorem step_cases (h : Step s t) :
    (∃ a q out got events p r, (s a).process = q ∧ Transition q out got events p ∧
      (s a.other).arrived = got ++ r ∧ t = s.act a p out events r) ∨
    ∃ a segment rest, (s a).inFlight = segment ++ rest ∧ segment ≠ [] ∧
      t = s.pass a segment rest := by
  cases h with
  | write a sent rest next hProcess hSent =>
    refine .inl ⟨a, _, sent, [], [], _, _, hProcess, .write sent rest next hSent, rfl, ?_⟩
    rw [State.act, List.append_nil]
    rfl
  | written a next hProcess =>
    refine .inl ⟨a, _, [], [], [], _, _, hProcess, .written next, rfl, ?_⟩
    rw [State.act, List.append_nil, List.append_nil]
    rfl
  | deliver a segment rest hInFlight hSegment =>
    exact .inr ⟨a, segment, rest, hInFlight, hSegment, rfl⟩
  | read a count got rest next hProcess hArrived hGot hCount =>
    refine .inl ⟨a, _, [], got, [], _, rest, hProcess, .read count got next hGot hCount, hArrived, ?_⟩
    rw [State.act, List.append_nil, List.append_nil]
  | wasRead a next hProcess =>
    refine .inl ⟨a, _, [], [], [], _, _, hProcess, .wasRead next, rfl, ?_⟩
    rw [State.act, List.append_nil, List.append_nil]
    rfl
  | report a event next hProcess =>
    refine .inl ⟨a, _, [], [], [event], _, _, hProcess, .report event next, rfl, ?_⟩
    rw [State.act, List.append_nil]
    rfl

/-- One transition is the other one, or it is continued by a further one to the other. -/
theorem Transition.linear (h₁ : Transition p out₁ got₁ events₁ p₁)
    (h₂ : Transition p out₂ got₂ events₂ p₂) (hGot : got₁ ++ r₁ = got₂ ++ r₂)
    (hLength : out₁.length + got₁.length ≤ out₂.length + got₂.length) :
    (out₁ = out₂ ∧ got₁ = got₂ ∧ events₁ = events₂ ∧ p₁ = p₂) ∨
      ∃ out got events, Transition p₁ out got events p₂ ∧ out₂ = out₁ ++ out ∧
        got₂ = got₁ ++ got ∧ events₂ = events₁ ++ events := by
  cases h₁ with
  | write _ rest next hSent =>
    generalize hAll : Process.write (E := E) (out₁ ++ rest) next = q at h₂
    cases h₂ with
    | write _ rest' next' hSent' =>
      obtain ⟨hData, rfl⟩ := Process.write.inj hAll
      simp only [List.length_nil] at hLength
      obtain ⟨more, hMore⟩ := List.prefix_of_prefix_length_le (List.prefix_append out₁ rest)
        (hData ▸ List.prefix_append out₂ rest') hLength
      subst hMore
      rw [List.append_assoc] at hData
      obtain rfl := List.append_cancel_left hData
      cases more with
      | nil => exact .inl ⟨(List.append_nil _).symm, rfl, rfl, rfl⟩
      | cons c more =>
        exact .inr ⟨c :: more, [], [], .write _ _ _ (List.cons_ne_nil _ _), rfl, rfl, rfl⟩
    | written =>
      obtain ⟨hData, -⟩ := Process.write.inj hAll
      exact absurd (List.append_eq_nil_iff.mp hData).1 hSent
    | _ => nomatch hAll
  | written =>
    generalize hAll : Process.write (E := E) [] p₁ = q at h₂
    cases h₂ with
    | write _ rest' next' hSent' =>
      obtain ⟨hData, -⟩ := Process.write.inj hAll
      exact absurd (List.append_eq_nil_iff.mp hData.symm).1 hSent'
    | written =>
      obtain ⟨-, rfl⟩ := Process.write.inj hAll
      exact .inl ⟨rfl, rfl, rfl, rfl⟩
    | _ => nomatch hAll
  | read count _ next hGot₁ hCount =>
    generalize hAll : Process.read (E := E) count next = q at h₂
    cases h₂ with
    | read count' _ next' hGot₂ hCount' =>
      obtain ⟨rfl, rfl⟩ := Process.read.inj hAll
      simp only [List.length_nil, Nat.zero_add] at hLength
      obtain ⟨more, rfl⟩ := List.prefix_of_prefix_length_le (List.prefix_append got₁ r₁)
        (hGot ▸ List.prefix_append got₂ r₂) hLength
      cases more with
      | nil =>
        refine .inl ⟨rfl, (List.append_nil _).symm, rfl, ?_⟩
        rw [List.append_nil]
      | cons c more =>
        rw [List.length_append] at hCount'
        have hNext := Transition.read (E := E) (count - got₁.length) (c :: more)
          (fun later => next (got₁ ++ later)) (List.cons_ne_nil _ _) (by omega)
        refine .inr ⟨[], c :: more, [], ?_, rfl, rfl, rfl⟩
        rw [List.length_append, ← Nat.sub_sub]
        simpa only [List.append_assoc] using hNext
    | wasRead next' =>
      obtain ⟨rfl, -⟩ := Process.read.inj hAll
      exact absurd (List.eq_nil_of_length_eq_zero (Nat.le_zero.mp hCount)) hGot₁
    | _ => nomatch hAll
  | wasRead next =>
    generalize hAll : Process.read (E := E) 0 next = q at h₂
    cases h₂ with
    | read count' _ next' hGot₂ hCount' =>
      obtain ⟨rfl, -⟩ := Process.read.inj hAll
      exact absurd (List.eq_nil_of_length_eq_zero (Nat.le_zero.mp hCount')) hGot₂
    | wasRead next' =>
      obtain ⟨-, rfl⟩ := Process.read.inj hAll
      exact .inl ⟨rfl, rfl, rfl, rfl⟩
    | _ => nomatch hAll
  | report event =>
    generalize hAll : Process.report (β := β) event p₁ = q at h₂
    cases h₂ with
    | report event' =>
      obtain ⟨rfl, rfl⟩ := Process.report.inj hAll
      exact .inl ⟨rfl, rfl, rfl, rfl⟩
    | _ => nomatch hAll

end Steps

section Confluence

/-- The runs from two states meet after one step at most. -/
def Meet (t u : State β E) : Prop := t = u ∨ Step t u ∨ Step u t ∨ ∃ v, Step t v ∧ Step u v

variable {s t u : State β E} {a b : Party} {q p p₁ p₂ : Process β E Unit}
  {out out₁ out₂ got got₁ got₂ r r₁ r₂ segment segment₁ segment₂ rest rest₁ rest₂ : List β}
  {events events₁ events₂ : List E}

theorem Meet.symm (h : Meet t u) : Meet u t := by
  rcases h with rfl | hStep | hStep | ⟨v, hFirst, hSecond⟩
  · exact .inl rfl
  · exact .inr (.inr (.inl hStep))
  · exact .inr (.inl hStep)
  · exact .inr (.inr (.inr ⟨v, hSecond, hFirst⟩))

theorem meet_act_act (h₁ : Transition q out₁ got₁ events₁ p₁)
    (h₂ : Transition q out₂ got₂ events₂ p₂) (hArrived₁ : (s a.other).arrived = got₁ ++ r₁)
    (hArrived₂ : (s a.other).arrived = got₂ ++ r₂)
    (hLength : out₁.length + got₁.length ≤ out₂.length + got₂.length) :
    Meet (s.act a p₁ out₁ events₁ r₁) (s.act a p₂ out₂ events₂ r₂) := by
  have hGot := hArrived₁.symm.trans hArrived₂
  rcases h₁.linear h₂ hGot hLength with ⟨rfl, rfl, rfl, rfl⟩ |
    ⟨out, got, events, hNext, rfl, rfl, rfl⟩
  · obtain rfl := List.append_cancel_left hGot
    exact .inl rfl
  · rw [List.append_assoc] at hGot
    have hStep := step_act (s := s.act a p₁ out₁ events₁ r₁) (a := a) (r := r₂) (by simp) hNext
      (by simpa using List.append_cancel_left hGot)
    rw [State.act_act] at hStep
    exact .inr (.inl hStep)

theorem meet_pass_pass (hInFlight₁ : (s a).inFlight = segment₁ ++ rest₁)
    (hInFlight₂ : (s a).inFlight = segment₂ ++ rest₂)
    (hLength : segment₁.length ≤ segment₂.length) :
    Meet (s.pass a segment₁ rest₁) (s.pass a segment₂ rest₂) := by
  have hAll := hInFlight₁.symm.trans hInFlight₂
  obtain ⟨more, rfl⟩ := List.prefix_of_prefix_length_le (List.prefix_append segment₁ rest₁)
    (hAll ▸ List.prefix_append segment₂ rest₂) hLength
  rw [List.append_assoc] at hAll
  obtain rfl := List.append_cancel_left hAll
  cases more with
  | nil =>
    rw [List.append_nil, List.nil_append]
    exact .inl rfl
  | cons c more =>
    have hStep := step_pass (s := s.pass a segment₁ (c :: more ++ rest₂)) (a := a) (c :: more) rest₂
      (by simp) (List.cons_ne_nil c more)
    rw [State.pass_pass] at hStep
    exact .inr (.inl hStep)

theorem meet_act_pass (hProcess : (s a).process = q) (h : Transition q out got events p)
    (hArrived : (s a.other).arrived = got ++ r) (hInFlight : (s b).inFlight = segment ++ rest)
    (hSegment : segment ≠ []) : Meet (s.act a p out events r) (s.pass b segment rest) := by
  right; right; right
  rcases Party.eq_or_eq_other a b with rfl | rfl
  · refine ⟨_, step_pass (a := b) segment (rest ++ out) (by simp [hInFlight]) hSegment, ?_⟩
    rw [State.act_pass_comm]
    exact step_act (by simpa using hProcess) h (by simpa using hArrived)
  · refine ⟨_, step_pass (a := a.other) segment rest (by simpa using hInFlight) hSegment, ?_⟩
    rw [State.act_pass_partner_comm]
    exact step_act (by simpa using hProcess) h (by simp [hArrived])

/-- Different steps of a state can be made one after the other. -/
theorem meet_of_steps (h₁ : Step s t) (h₂ : Step s u) : Meet t u := by
  rcases step_cases h₁ with
    ⟨a, q₁, out₁, got₁, events₁, p₁, r₁, hProcess₁, hTransition₁, hArrived₁, rfl⟩ |
    ⟨a, segment₁, rest₁, hInFlight₁, hSegment₁, rfl⟩
  · rcases step_cases h₂ with
      ⟨b, q₂, out₂, got₂, events₂, p₂, r₂, hProcess₂, hTransition₂, hArrived₂, rfl⟩ |
      ⟨b, segment₂, rest₂, hInFlight₂, hSegment₂, rfl⟩
    · rcases Party.eq_or_eq_other a b with rfl | rfl
      · obtain rfl := hProcess₁.symm.trans hProcess₂
        rcases Nat.le_total (out₁.length + got₁.length) (out₂.length + got₂.length) with hLe | hLe
        · exact meet_act_act hTransition₁ hTransition₂ hArrived₁ hArrived₂ hLe
        · exact (meet_act_act hTransition₂ hTransition₁ hArrived₂ hArrived₁ hLe).symm
      · rw [Party.other_other] at hArrived₂
        refine .inr (.inr (.inr ⟨_, step_act (a := a.other) (by simpa using hProcess₂)
          hTransition₂ (by simpa using hArrived₂), ?_⟩))
        rw [State.act_act_comm]
        exact step_act (by simpa using hProcess₁) hTransition₁ (by simpa using hArrived₁)
    · exact meet_act_pass hProcess₁ hTransition₁ hArrived₁ hInFlight₂ hSegment₂
  · rcases step_cases h₂ with
      ⟨b, q₂, out₂, got₂, events₂, p₂, r₂, hProcess₂, hTransition₂, hArrived₂, rfl⟩ |
      ⟨b, segment₂, rest₂, hInFlight₂, hSegment₂, rfl⟩
    · exact (meet_act_pass hProcess₂ hTransition₂ hArrived₂ hInFlight₁ hSegment₁).symm
    · rcases Party.eq_or_eq_other a b with rfl | rfl
      · rcases Nat.le_total segment₁.length segment₂.length with hLe | hLe
        · exact meet_pass_pass hInFlight₁ hInFlight₂ hLe
        · exact (meet_pass_pass hInFlight₂ hInFlight₁ hLe).symm
      · refine .inr (.inr (.inr ⟨_, step_pass (a := a.other) _ _ (by simpa using hInFlight₂)
          hSegment₂, ?_⟩))
        rw [State.pass_pass_comm]
        exact step_pass _ _ (by simpa using hInFlight₁) hSegment₁

/-- A state that one run stops in is reached from every state of every run. -/
theorem reaches_stuck (hStuck : ∀ v, ¬ Step u v) (hEnd : Relation.ReflTransGen Step s u)
    (hRun : Relation.ReflTransGen Step s t) : Relation.ReflTransGen Step t u := by
  have hDiamond : ∀ s t u : State β E, Step s t → Step s u →
      ∃ v, Relation.ReflGen Step t v ∧ Relation.ReflTransGen Step u v := by
    intro s t u hFirst hSecond
    rcases meet_of_steps hFirst hSecond with rfl | hStep | hStep | ⟨v, hMeet, hMeet'⟩
    · exact ⟨t, .refl, .refl⟩
    · exact ⟨u, .single hStep, .refl⟩
    · exact ⟨t, .refl, .single hStep⟩
    · exact ⟨v, .single hMeet, .single hMeet'⟩
  obtain ⟨v, hLeft, hRight⟩ := Relation.church_rosser hDiamond hRun hEnd
  rcases Relation.ReflTransGen.cases_head hRight with rfl | ⟨w, hStep, -⟩
  · exact hLeft
  · exact absurd hStep (hStuck w)

end Confluence

section Termination

/-- The process comes from the other one by one transition. -/
def Continues (p' p : Process β E Unit) : Prop :=
  ∃ out got events, Transition p out got events p'

theorem acc_write {next : Process β E Unit} (h : Acc Continues next) (data : List β) :
    Acc Continues (.write data next) := by
  induction hLength : data.length using Nat.strong_induction_on generalizing data with
  | h n ih =>
    constructor
    rintro p ⟨out, got, events, hTransition⟩
    generalize hProcess : Process.write (E := E) data next = q at hTransition
    cases hTransition with
    | write _ rest next' hSent =>
      obtain ⟨rfl, rfl⟩ := Process.write.inj hProcess
      have hPositive := List.length_pos_of_ne_nil hSent
      rw [List.length_append] at hLength
      exact ih rest.length (by omega) rest rfl
    | written =>
      obtain ⟨-, rfl⟩ := Process.write.inj hProcess
      exact h
    | _ => nomatch hProcess

theorem acc_read {next : List β → Process β E Unit} (h : ∀ got, Acc Continues (next got))
    (count : Nat) : Acc Continues (.read count next) := by
  induction count using Nat.strong_induction_on generalizing next with
  | h count ih =>
    constructor
    rintro p ⟨out, got, events, hTransition⟩
    generalize hProcess : Process.read (E := E) count next = q at hTransition
    cases hTransition with
    | read count' _ next' hGot hCount =>
      obtain ⟨rfl, rfl⟩ := Process.read.inj hProcess
      have hPositive := List.length_pos_of_ne_nil hGot
      exact ih (count - got.length) (by omega) fun more => h (got ++ more)
    | wasRead next' =>
      obtain ⟨-, rfl⟩ := Process.read.inj hProcess
      exact h []
    | _ => nomatch hProcess

theorem acc_process (p : Process β E Unit) : Acc Continues p := by
  induction p with
  | ended result =>
    constructor
    rintro p ⟨_, _, _, hTransition⟩
    nomatch hTransition
  | write data next ih => exact acc_write ih data
  | read count next ih => exact acc_read ih count
  | report event next ih =>
    constructor
    rintro p ⟨_, _, _, hTransition⟩
    cases hTransition with
    | report => exact ih

/-- What is left of the processes, and how much is on the way -/
def measure (s : State β E) : (Process β E Unit × Process β E Unit) × Nat :=
  (((s .one).process, (s .two).process), (s .one).inFlight.length + (s .two).inFlight.length)

/-- No run of two processes goes on for ever. -/
theorem acc_step (s : State β E) : Acc (fun t s => Step s t) s := by
  have hProcesses := (acc_process (s .one).process).prod_gameAdd (acc_process (s .two).process)
  have hMeasure : Acc (Prod.Lex (Prod.GameAdd Continues Continues) (· < ·)) (measure s) :=
    Prod.lexAccessible hProcesses (fun n => Nat.lt_wfRel.wf.apply n) _
  refine Subrelation.accessible ?_ (InvImage.accessible measure hMeasure)
  intro t s hStep
  rcases step_cases hStep with ⟨a, q, out, got, events, p, r, hProcess, hTransition, -, rfl⟩ |
    ⟨a, segment, rest, hInFlight, hSegment, rfl⟩
  · have hLess : Continues p (s a).process := ⟨out, got, events, hProcess ▸ hTransition⟩
    cases a with
    | one => exact .left _ _ (.fst hLess)
    | two => exact .left _ _ (.snd hLess)
  · have hLength := congrArg List.length hInFlight
    have hPositive := List.length_pos_of_ne_nil hSegment
    rw [List.length_append] at hLength
    cases a with
    | one =>
      refine .right _ (?_ : rest.length + (s .two).inFlight.length < _)
      omega
    | two =>
      refine .right _ (?_ : (s .one).inFlight.length + rest.length < _)
      omega

theorem exists_stuck (s : State β E) :
    ∃ t, Relation.ReflTransGen Step s t ∧ ∀ u, ¬ Step t u := by
  induction acc_step s with
  | intro s _ ih =>
    by_cases hStuck : ∀ u, ¬ Step s u
    · exact ⟨s, .refl, hStuck⟩
    · obtain ⟨u, hStep⟩ := not_forall_not.mp hStuck
      obtain ⟨t, hRun, hEnd⟩ := ih u hStep
      exact ⟨t, .head hStep hRun, hEnd⟩

end Termination

section Reports

variable {s t : State β E}

theorem reported_prefix (hRun : Relation.ReflTransGen Step s t) (a : Party) :
    (s a).reported <+: (t a).reported := by
  induction hRun with
  | refl => exact List.prefix_refl _
  | tail _ hStep ih =>
    apply ih.trans
    rcases step_cases hStep with ⟨b, q, out, got, events, p, r, -, -, -, rfl⟩ |
      ⟨b, segment, rest, -, -, rfl⟩
    · rcases Party.eq_or_eq_other b a with rfl | rfl
      · simp
      · simp
    · rcases Party.eq_or_eq_other b a with rfl | rfl
      · simp
      · simp

end Reports

section Talks

/-! A talk is a run in which the one party sends what the other one reads at once. -/

/-- Both parties stand before the processes, and nothing is on the way. -/
def quiet (p : Party → Process β E Unit) (reported : Party → List E) : State β E :=
  fun a => ⟨p a, [], [], reported a⟩

/-- The parties get from the one processes to the others and report the events. -/
def Talks (p : Party → Process β E Unit) (events : Party → List E)
    (q : Party → Process β E Unit) : Prop :=
  ∀ reported, Relation.ReflTransGen Step (quiet p reported)
    (quiet q fun a => reported a ++ events a)

variable {p p' q : Party → Process β E Unit} {events events' : Party → List E}

theorem Talks.refl (p : Party → Process β E Unit) : Talks p (fun _ => []) p := by
  intro reported
  simp only [List.append_nil]
  exact .refl

theorem Talks.trans (h : Talks p events p') (h' : Talks p' events' q) :
    Talks p (fun a => events a ++ events' a) q := by
  intro reported
  have hLater := h' fun a => reported a ++ events a
  simp only [List.append_assoc] at hLater
  exact (h reported).trans hLater

/-- The one party writes what the other one reads. -/
theorem talks_transfer {a : Party} {data : List β} {next : Process β E Unit}
    {later : List β → Process β E Unit} (hWrite : p a = .write data next)
    (hRead : p a.other = .read data.length later) (hNext : q a = next)
    (hLater : q a.other = later data) : Talks p (fun _ => []) q := by
  intro reported
  have hReader : (quiet p reported a.other).process = .read data.length later := hRead
  cases hData : data with
  | nil =>
    subst hData
    have hWritten := step_act (s := quiet p reported) (a := a) (r := []) hWrite (.written next) rfl
    have hRead' := step_act (a := a.other) (r := [])
      (s := (quiet p reported).act a next [] [] []) (by simpa using hReader) (.wasRead later)
      (by simp [quiet])
    refine .trans (.single hWritten) (.trans (.single hRead') (Eq.subst ?_ .refl))
    exact State.ext_party (a := a) (by simp [quiet, hNext]) (by simp [quiet, hLater])
  | cons c rest =>
    have hNonempty : data ≠ [] := hData ▸ List.cons_ne_nil c rest
    have hAll : (quiet p reported a).process = .write (data ++ []) next := by
      rw [List.append_nil]
      exact hWrite
    have hWrites := step_act (s := quiet p reported) (a := a) (r := []) hAll
      (.write data [] next hNonempty) rfl
    have hWritten := step_act (a := a) (r := []) (s := (quiet p reported).act a (.write [] next)
      data [] []) (by simp) (.written next) (by simp)
    rw [State.act_act] at hWritten
    have hDelivers := step_pass (a := a) data []
      (s := (quiet p reported).act a next (data ++ []) ([] ++ []) []) (by simp [quiet]) hNonempty
    have hReads := step_act (a := a.other) (r := [])
      (s := ((quiet p reported).act a next (data ++ []) ([] ++ []) []).pass a data [])
      (by simpa using hReader) (.read data.length data later hNonempty (Nat.le_refl _))
      (by simp [quiet])
    have hRead' := step_act (a := a.other) (r := [])
      (s := (((quiet p reported).act a next (data ++ []) ([] ++ []) []).pass a data []).act a.other
        (.read (data.length - data.length) fun more => later (data ++ more)) [] [] [])
      (by simp) (Transition.wasRead fun more => later (data ++ more)) (by simp)
    refine .trans (.single hWrites) (.trans (.single hWritten) (.trans (.single hDelivers)
      (.trans (.single hReads) (.trans (.single hRead') (Eq.subst ?_ .refl)))))
    exact State.ext_party (a := a) (by simp [quiet, hNext]) (by simp [quiet, hLater])

theorem talks_report {a : Party} {event : E} {next : Process β E Unit}
    (hReport : p a = .report event next) (hNext : q a = next) (hOther : q a.other = p a.other) :
    Talks p (fun b => if b = a then [event] else []) q := by
  intro reported
  have hStep := step_act (s := quiet p reported) (a := a) (r := []) hReport (.report event next) rfl
  refine .trans (.single hStep) (Eq.subst ?_ .refl)
  exact State.ext_party (a := a) (by simp [quiet, hNext]) (by simp [quiet, hOther, Party.other_ne])

/-- When the parties can talk to their end, every run ends so. -/
theorem Talks.completes (h : Talks p events fun _ => .ended ()) {s : State β E}
    (hReachable : Reachable p s) : (∀ a, (s a).reported <+: events a) ∧
      ((∀ t, ¬ Step s t) → s = quiet (fun _ => .ended ()) events) := by
  have hEnd : Reachable p (quiet (fun _ => .ended ()) events) := h fun _ => []
  have hStuck : ∀ t, ¬ Step (quiet (fun _ => .ended ()) events : State β E) t := by
    intro t hStep
    rcases step_cases hStep with ⟨a, q, out, got, events', p', r, hProcess, hTransition, -, -⟩ |
      ⟨a, segment, rest, hInFlight, hSegment, -⟩
    · obtain rfl : Process.ended () = q := hProcess
      nomatch hTransition
    · exact hSegment (List.append_eq_nil_iff.mp hInFlight.symm).1
  have hRun := reaches_stuck hStuck hEnd hReachable
  refine ⟨fun a => reported_prefix hRun a, fun hNoStep => ?_⟩
  rcases Relation.ReflTransGen.cases_head hRun with rfl | ⟨t, hStep, -⟩
  · rfl
  · exact absurd hStep (hNoStep t)

end Talks

end Duplex

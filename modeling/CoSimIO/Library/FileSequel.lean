import CoSimIO.Library.FileProtocol

/-! # One protocol after the other

The files of a protocol are its own. So two protocols with different files can follow each other
without a wait in between: some agents still follow the first one while others are in the second.
-/

namespace FileScript

open FileProcess

set_option autoImplicit false

variable {Path Byte Event Result Result' Agent : Type}

section Sequel

variable {next : Result → Script Path Byte Event Result'} {result : Result}
  {process : Process Path Byte} {script : Script Path Byte Event Result}

/-- The party that goes on with another script, when the one script has ended. -/
inductive Party.Sequel (next : Result → Script Path Byte Event Result') (result : Result) :
    Party Path Byte Event Result → Party Path Byte Event Result' →
    Party Path Byte Event Result' → Prop
  | first (process : Process Path Byte) (script : List Byte → Script Path Byte Event Result)
      (reported : List Event) :
      Sequel next result ⟨.running process script, reported⟩ (next result).start
        ⟨.running process fun read => (script read).bind next, reported⟩
  | second (activity : Activity Path Byte Event Result') (reported reported' : List Event) :
      Sequel next result ⟨.ended result, reported⟩ ⟨activity, reported'⟩
        ⟨activity, reported ++ reported'⟩

theorem Script.resume_append (script : Script Path Byte Event Result)
    (process : Process Path Byte) (reported reported' : List Event) :
    script.resume process (reported ++ reported') =
      ⟨(script.resume process reported').activity,
        reported ++ (script.resume process reported').reported⟩ := by
  induction script generalizing reported' with
  | ended => rfl
  | report event _ ih =>
    rw [Script.resume, Script.resume, List.append_assoc]
    exact ih (reported' ++ [event])
  | run => rfl

theorem Script.resume_idle (hHandle : process.handle = none) (hFailed : process.failed = none)
    (reported : List Event) :
    script.resume process reported = script.resume Process.idle reported := by
  induction script generalizing reported with
  | ended => rfl
  | report _ _ ih => exact ih _
  | run instructions _ =>
    rw [Script.resume, Script.resume, hHandle, hFailed]
    rfl

theorem Script.sequel_resume (hCloses : script.Closes process.handle.isSome)
    (hFailed : process.failed = none) {reported : List Event}
    (hResult : ∀ r, (script.resume process reported).result = some r → r = result) :
    Party.Sequel next result (script.resume process reported) (next result).start
      ((script.bind next).resume process reported) := by
  induction script generalizing reported with
  | ended r =>
    obtain rfl := hResult r rfl
    have hHandle : process.handle = none :=
      Option.isNone_iff_eq_none.mp (Option.isSome_eq_false_iff.mp hCloses)
    have hAppend := (next r).resume_append process reported []
    rw [List.append_nil, Script.resume_idle hHandle hFailed []] at hAppend
    rw [Script.bind, hAppend]
    exact .second _ _ _
  | report _ _ ih => exact ih hCloses hResult
  | run => exact .first _ _ _

end Sequel

section Sequels

variable {next : Agent → Result → Script Path Byte Event Result'} {result : Agent → Result}
  {w₁ : World Agent Path Byte Event Result} {w₂ w : World Agent Path Byte Event Result'} {a : Agent}

/-- Where the runs of two groups of scripts are in the run of the one after the other. -/
structure Sequels (next : Agent → Result → Script Path Byte Event Result') (result : Agent → Result)
    (w₁ : World Agent Path Byte Event Result) (w₂ w : World Agent Path Byte Event Result') :
    Prop where
  store : w₁.store = w.store
  store' : w₂.store = w.store
  party : ∀ a, Party.Sequel (next a) (result a) (w₁.party a) (w₂.party a) (w.party a)

theorem Sequels.unique {w' : World Agent Path Byte Event Result'} (h : Sequels next result w₁ w₂ w)
    (h' : Sequels next result w₁ w₂ w') : w = w' := by
  have hStore := h.store.symm.trans h'.store
  have hParty : w.party = w'.party := by
    funext a
    have hOne := h.party a
    have hTwo := h'.party a
    generalize w₁.party a = p₁ at hOne hTwo
    generalize w₂.party a = p₂ at hOne hTwo
    generalize w.party a = p at hOne ⊢
    generalize w'.party a = p' at hTwo ⊢
    cases hOne with
    | first => cases hTwo; rfl
    | second => cases hTwo; rfl
  cases w
  cases w'
  exact congrArg₂ World.mk hStore hParty

variable [DecidableEq Agent]

theorem World.set_party (store : Store Path Byte) (a : Agent) :
    w.set store a (w.party a) = { w with store := store } := by
  rw [World.set]
  congr 1
  funext b
  split
  · next hb => rw [hb]
  · rfl

theorem Sequels.set (h : Sequels next result w₁ w₂ w) (store : Store Path Byte)
    {p₁ : Party Path Byte Event Result} {p₂ p : Party Path Byte Event Result'}
    (hParty : Party.Sequel (next a) (result a) p₁ p₂ p) :
    Sequels next result (w₁.set store a p₁) (w₂.set store a p₂) (w.set store a p) where
  store := rfl
  store' := rfl
  party b := by
    by_cases hb : b = a
    · subst hb
      rw [World.set_party_self, World.set_party_self, World.set_party_self]
      exact hParty
    · rw [World.set_party_other _ _ _ hb, World.set_party_other _ _ _ hb,
        World.set_party_other _ _ _ hb]
      exact h.party b

variable [DecidableEq Path]

theorem Sequels.turn_first (h : Sequels next result w₁ w₂ w) (hRunning : (w₁.party a).result = none)
    (hFailed : (w₁.party a).failed = none) (hCloses : (w₁.party a).Closes)
    (hResult : ∀ r, ((turn w₁ a).party a).result = some r → r = result a) :
    Sequels next result (turn w₁ a) { w₂ with store := (turn w₁ a).store } (turn w a) := by
  have hOwn := h.party a
  rw [← World.set_party (turn w₁ a).store a]
  generalize hFirst : w₁.party a = p₁ at hOwn hRunning hFailed hCloses
  generalize w₂.party a = p₂ at hOwn ⊢
  generalize hBoth : w.party a = p at hOwn
  cases hOwn with
  | second => cases hRunning
  | first process script reported =>
    have hOne : (w₁.party a).activity = .running process script := by rw [hFirst]
    have hTwo : (w.party a).activity = .running process fun read => (script read).bind (next a) := by
      rw [hBoth]
    cases hRest : process.rest with
    | nil =>
      have hNext := hCloses hFailed process.buffer
      rw [hRest] at hNext
      rw [turn_next hOne hRest hFailed, hFirst, World.set_party_self] at hResult
      rw [turn_next hOne hRest hFailed, turn_next hTwo hRest hFailed, hFirst, hBoth, h.store]
      exact h.set _ (Script.sequel_resume hNext hFailed hResult)
    | cons instruction rest =>
      rw [turn_exec hOne hRest, turn_exec hTwo hRest, hFirst, hBoth, h.store]
      exact h.set _ (.first _ _ _)

theorem Sequels.turn_second (h : Sequels next result w₁ w₂ w)
    (hEnded : (w₁.party a).result.isSome) (hFailed : (w₂.party a).failed = none) :
    Sequels next result { w₁ with store := (turn w₂ a).store } (turn w₂ a) (turn w a) := by
  have hOwn := h.party a
  rw [← World.set_party (turn w₂ a).store a]
  generalize w₁.party a = p₁ at hOwn hEnded ⊢
  generalize hSecond : w₂.party a = p₂ at hOwn hFailed
  generalize hBoth : w.party a = p at hOwn
  cases hOwn with
  | first => cases hEnded
  | second activity reported reported' =>
    have hTwo : (w₂.party a).activity = activity := by rw [hSecond]
    have hAll : (w.party a).activity = activity := by rw [hBoth]
    cases activity with
    | ended r =>
      rw [turn_ended hTwo, turn_ended hAll, ← World.set_self w a, ← World.set_self w₂ a, hSecond,
        hBoth, h.store']
      exact h.set _ (.second _ _ _)
    | running process script =>
      cases hRest : process.rest with
      | nil =>
        rw [turn_next hTwo hRest hFailed, turn_next hAll hRest hFailed, hSecond, hBoth, h.store',
          Script.resume_append]
        exact h.set _ (.second _ _ _)
      | cons instruction rest =>
        rw [turn_exec hTwo hRest, turn_exec hAll hRest, hSecond, hBoth, h.store']
        exact h.set _ (.second _ _ _)

end Sequels

section Sequence

variable [DecidableEq Path] [DecidableEq Agent]

variable {scripts : Agent → Script Path Byte Event Result} {result : Agent → Result}
  {events : Agent → List Event} {uses : Path → Prop}
  {next : Agent → Result → Script Path Byte Event Result'} {result' : Agent → Result'}
  {events' : Agent → List Event} {uses' : Path → Prop}

namespace Protocol

/-- The worlds of the two protocols, and what is known of each of them. -/
structure SeqGhost (first : Protocol scripts result events uses)
    (second : Protocol (fun a => next a (result a)) result' events' uses') where
  firstWorld : World Agent Path Byte Event Result
  firstGhost : first.Ghost
  secondWorld : World Agent Path Byte Event Result'
  secondGhost : second.Ghost

variable (first : Protocol scripts result events uses)
  (second : Protocol (fun a => next a (result a)) result' events' uses')

structure SeqSound (w : World Agent Path Byte Event Result') (g : SeqGhost first second) :
    Prop where
  sequels : Sequels next result g.firstWorld g.secondWorld w
  first : first.Sound g.firstWorld g.firstGhost
  second : second.Sound g.secondWorld g.secondGhost
  closes : ∀ a, (g.firstWorld.party a).Closes

variable {first second} {w : World Agent Path Byte Event Result'} {g : SeqGhost first second}

theorem SeqSound.start {store : Store Path Byte}
    (hFresh : ∀ path, uses path ∨ uses' path → store.isFile path = false) :
    ∃ g : SeqGhost first second,
      SeqSound first second (FileScript.start store fun a => (scripts a).bind (next a)) g := by
  obtain ⟨g, hFirst⟩ := first.start fun path h => hFresh path (.inl h)
  obtain ⟨g', hSecond⟩ := second.start fun path h => hFresh path (.inr h)
  have hCloses : ∀ a, (scripts a).Closes (Process.idle : Process Path Byte).handle.isSome :=
    first.closes
  have hParty : ∀ a, Party.Sequel (next a) (result a) (scripts a).start (next a (result a)).start
      ((scripts a).bind (next a)).start := by
    intro a
    exact Script.sequel_resume (hCloses a) rfl fun r hResult =>
      ((first.outcome hFirst a).result r hResult).1
  refine ⟨⟨FileScript.start store scripts, g, FileScript.start store fun a => next a (result a),
    g'⟩, ⟨rfl, rfl, hParty⟩, hFirst, hSecond, fun a => ?_⟩
  exact (hCloses a).resume []

theorem SeqSound.turn_running (h : SeqSound first second w g) {a : Agent}
    (hResult : (g.firstWorld.party a).result = none) :
    Sequels next result (FileScript.turn g.firstWorld a)
      { g.secondWorld with store := (FileScript.turn g.firstWorld a).store }
      (FileScript.turn w a) := by
  have hSound : ∃ g₁, first.Sound (FileScript.turn g.firstWorld a) g₁ := by
    rcases first.turn h.first a with ⟨-, hSame⟩ | ⟨g₁, hSound, -⟩
    · exact ⟨_, hSame.symm ▸ h.first⟩
    · exact ⟨g₁, hSound⟩
  obtain ⟨g₁, hSound⟩ := hSound
  exact h.sequels.turn_first hResult (first.outcome h.first a).failed (h.closes a)
    fun r hr => ((first.outcome hSound a).result r hr).1

theorem SeqSound.turn_ended (h : SeqSound first second w g) {a : Agent}
    (hEnded : (g.firstWorld.party a).result.isSome) :
    Sequels next result
      { g.firstWorld with store := (FileScript.turn g.secondWorld a).store }
      (FileScript.turn g.secondWorld a) (FileScript.turn w a) :=
  h.sequels.turn_second hEnded (second.outcome h.second a).failed

theorem SeqSound.turn (h : SeqSound first second w g)
    (hDisjoint : ∀ path, uses path → ¬ uses' path) (a : Agent) :
    (((g.firstWorld.party a).result = none ∧ first.idle g.firstGhost a ∨
        (g.firstWorld.party a).result.isSome ∧ second.idle g.secondGhost a) ∧
      FileScript.turn w a = w) ∨
    ∃ g', SeqSound first second (FileScript.turn w a) g' ∧
      first.rank g'.firstGhost + second.rank g'.secondGhost <
        first.rank g.firstGhost + second.rank g.secondGhost := by
  cases hResult : (g.firstWorld.party a).result with
  | none =>
    have hSequels := h.turn_running hResult
    rcases first.turn h.first a with ⟨hIdle, hSame⟩ | ⟨g₁, hSound, hLess⟩
    · refine .inl ⟨.inl ⟨rfl, hIdle⟩, ?_⟩
      rw [hSame, h.sequels.store, ← h.sequels.store'] at hSequels
      exact hSequels.unique h.sequels
    · have hKeeps : ∀ path, uses' path →
          Store.Keeps g.secondWorld.store (FileScript.turn g.firstWorld a).store path := by
        intro path hUses
        rw [h.sequels.store', ← h.sequels.store]
        exact first.keeps h.first a path fun hFirst => hDisjoint path hFirst hUses
      obtain ⟨g₂, hSecond, hRank⟩ := second.stable h.second hKeeps
      refine .inr ⟨⟨_, g₁, _, g₂⟩, ⟨hSequels, hSound, hSecond, Party.Closes.turn h.closes a⟩, ?_⟩
      rw [hRank]
      exact Nat.add_lt_add_right hLess _
  | some r =>
    have hSequels := h.turn_ended (by rw [hResult]; rfl)
    rcases second.turn h.second a with ⟨hIdle, hSame⟩ | ⟨g₂, hSound, hLess⟩
    · refine .inl ⟨.inr ⟨rfl, hIdle⟩, ?_⟩
      rw [hSame, h.sequels.store', ← h.sequels.store] at hSequels
      exact hSequels.unique h.sequels
    · have hKeeps : ∀ path, uses path →
          Store.Keeps g.firstWorld.store (FileScript.turn g.secondWorld a).store path := by
        intro path hUses
        rw [h.sequels.store, ← h.sequels.store']
        exact second.keeps h.second a path (hDisjoint path hUses)
      obtain ⟨g₁, hFirst, hRank⟩ := first.stable h.first hKeeps
      refine .inr ⟨⟨_, g₁, _, g₂⟩, ⟨hSequels, hFirst, hSound, h.closes⟩, ?_⟩
      rw [hRank]
      exact Nat.add_lt_add_left hLess _

theorem SeqSound.keeps (h : SeqSound first second w g) (a : Agent) {path : Path}
    (hUses : ¬ (uses path ∨ uses' path)) :
    Store.Keeps w.store (FileScript.turn w a).store path := by
  obtain ⟨hFirst, hSecond⟩ := not_or.mp hUses
  cases hResult : (g.firstWorld.party a).result with
  | none =>
    rw [← h.sequels.store, ← (h.turn_running hResult).store]
    exact first.keeps h.first a path hFirst
  | some r =>
    rw [← h.sequels.store', ← (h.turn_ended (by rw [hResult]; rfl)).store']
    exact second.keeps h.second a path hSecond

theorem SeqSound.stable (h : SeqSound first second w g) {store : Store Path Byte}
    (hKeeps : ∀ path, uses path ∨ uses' path → Store.Keeps w.store store path) :
    ∃ g', SeqSound first second { w with store := store } g' ∧
      first.rank g'.firstGhost + second.rank g'.secondGhost =
        first.rank g.firstGhost + second.rank g.secondGhost := by
  obtain ⟨g₁, hFirst, hRank₁⟩ := first.stable h.first (by
    rw [h.sequels.store]
    exact fun path hUses => hKeeps path (.inl hUses))
  obtain ⟨g₂, hSecond, hRank₂⟩ := second.stable h.second (by
    rw [h.sequels.store']
    exact fun path hUses => hKeeps path (.inr hUses))
  refine ⟨⟨{ g.firstWorld with store := store }, g₁, { g.secondWorld with store := store }, g₂⟩,
    ⟨⟨rfl, rfl, h.sequels.party⟩, hFirst, hSecond, h.closes⟩, ?_⟩
  rw [hRank₁, hRank₂]

theorem SeqSound.ended_iff (h : SeqSound first second w g) (a : Agent) :
    (w.party a).result.isSome ↔
      (g.firstWorld.party a).result.isSome ∧ (g.secondWorld.party a).result.isSome := by
  have hOwn := h.sequels.party a
  generalize g.firstWorld.party a = p₁ at hOwn
  generalize g.secondWorld.party a = p₂ at hOwn
  generalize w.party a = p at hOwn
  cases hOwn with
  | first =>
    constructor
    · nofun
    · rintro ⟨hFirst, -⟩
      cases hFirst
  | second => exact (and_iff_right rfl).symm

theorem SeqSound.ends (h : SeqSound first second w g)
    (hIdle : ∀ a, (w.party a).result.isSome ∨
      ((g.firstWorld.party a).result = none ∧ first.idle g.firstGhost a ∨
        (g.firstWorld.party a).result.isSome ∧ second.idle g.secondGhost a)) (a : Agent) :
    (w.party a).result.isSome := by
  have hFirst := first.ends h.first fun b => by
    rcases hIdle b with hEnded | ⟨-, hWaits⟩ | ⟨hEnded, -⟩
    · exact .inl ((h.ended_iff b).mp hEnded).1
    · exact .inr hWaits
    · exact .inl hEnded
  have hSecond := second.ends h.second fun b => by
    rcases hIdle b with hEnded | ⟨hRunning, -⟩ | ⟨-, hWaits⟩
    · exact .inl ((h.ended_iff b).mp hEnded).2
    · exact absurd (hFirst b) (by rw [hRunning]; nofun)
    · exact .inr hWaits
  exact (h.ended_iff a).mpr ⟨hFirst a, hSecond a⟩

theorem SeqSound.leaves (h : SeqSound first second w g)
    (hEnded : ∀ a, (w.party a).result.isSome) (path : Path) (hUses : uses path ∨ uses' path) :
    w.store.isFile path = false := by
  rcases hUses with hUses | hUses
  · rw [← h.sequels.store]
    exact first.leaves h.first (fun a => ((h.ended_iff a).mp (hEnded a)).1) path hUses
  · rw [← h.sequels.store']
    exact second.leaves h.second (fun a => ((h.ended_iff a).mp (hEnded a)).2) path hUses

theorem SeqSound.outcome (h : SeqSound first second w g) (a : Agent) :
    (w.party a).Outcome (result' a) (events a ++ events' a) := by
  have hFirst := first.outcome h.first a
  have hSecond := second.outcome h.second a
  have hOwn := h.sequels.party a
  generalize g.firstWorld.party a = p₁ at hOwn hFirst
  generalize g.secondWorld.party a = p₂ at hOwn hSecond
  generalize w.party a = p at hOwn
  cases hOwn with
  | first process script reported =>
    exact ⟨hFirst.failed, hFirst.reported.trans (List.prefix_append _ _), nofun⟩
  | second activity reported reported' =>
    obtain rfl : reported = events a := (hFirst.result _ rfl).2
    refine ⟨hSecond.failed, (List.prefix_append_right_inj _).mpr hSecond.reported, ?_⟩
    intro r hResult
    obtain ⟨hSame, hReported⟩ := hSecond.result r hResult
    exact ⟨hSame, congrArg (events a ++ ·) hReported⟩

end Protocol

end Sequence

end FileScript

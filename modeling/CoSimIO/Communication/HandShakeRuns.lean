import CoSimIO.Communication.HandShakePhases

/-! # Runs of two sides that exchange their files -/

namespace CoSimIO.HandShake

open FileProcess FileScript

set_option autoImplicit false

section Steps

variable (c : Communication) (data : Side → Text) (side : Side)

/-- The steps lead from the first phase to the last one. -/
def Leads : Phase → List Step → Phase → Prop
  | phase, [], last => phase = last
  | phase, instruction :: rest, last =>
    ∃ next, Moves c data side phase instruction next ∧ Leads next rest last

variable {c data side} {last : Phase} {rest : List Step}

theorem leads_openMyFile : Leads c data side .clear (openMyFile c side) (.drafting []) :=
  ⟨_, .waitRemoved, _, .tryOpen, _, .create, _, .requireCreated [], rfl⟩

theorem leads_writes (written : Text) (pieces : List Text)
    (hRest : Leads c data side (.drafting (written ++ pieces.flatten)) rest last) :
    Leads c data side (.drafting written) (pieces.map .write ++ rest) last := by
  induction pieces generalizing written with
  | nil => simpa using hRest
  | cons bytes pieces ih =>
    refine ⟨_, .write written bytes, ih (written ++ bytes) ?_⟩
    rw [List.append_assoc]
    exact hRest

theorem leads_reads (position : Nat) (portions : List Nat)
    (hRest : ∀ position, Leads c data side (.reading position) rest last) :
    Leads c data side (.reading position) (portions.map .readSome ++ rest) last := by
  induction portions generalizing position with
  | nil => exact hRest position
  | cons count portions ih => exact ⟨_, .readSome position count, ih (position + count)⟩

theorem leads_exchangeFiles (buffering : Buffering) :
    Leads c data side (.drafting []) (exchangeFiles c side buffering (data side)) .loaded := by
  have hReads : Leads c data side .holding
      (FileCommunication.serializeFromFile (infoFile c side.other) buffering.portions) .loaded := by
    rw [FileCommunication.serializeFromFile, List.append_assoc]
    refine ⟨_, .openReceived, _, .stayOpen 0, _, .requireReceived 0, leads_reads 0 _ ?_⟩
    intro position
    exact ⟨_, .readAll position, _, .closeReceived, rfl⟩
  rw [exchangeFiles, List.append_assoc, List.append_assoc, List.append_assoc]
  apply leads_writes
  rw [buffering.flatten_pieces]
  exact ⟨_, .closeWritten, _, .permissions, _, .announce, _, .closeAnnounced, _, .find, _,
    .removeAvail, hReads⟩

theorem leads_removePath : Leads c data side .accepted
    (Communication.removePath (infoFile c side.other)) .done :=
  ⟨_, .removeReceived, rfl⟩

end Steps

/-- Two sides with their files. When a side has the file of the other one, it reports an event,
removes the file and ends. -/
structure Plan (c : Communication) (Event Result : Type) where
  data : Side → Text
  buffering : Side → Buffering
  after : Side → Text → Script Text Char Event Result
  event : Side → Event
  result : Side → Result
  after_data : ∀ side, after side (data side.other) =
    .report (event side) (.run (Communication.removePath (infoFile c side.other)) fun _ =>
      .ended (result side))

variable {c : Communication} {Event Result : Type}

namespace Plan

variable (plan : Plan c Event Result) (side : Side)

def code : List Step := exchangeFiles c side (plan.buffering side) (plan.data side)

def exchange : Text → Script Text Char Event Result :=
  fun _ => .run (plan.code side) (plan.after side)

def script : Script Text Char Event Result := .run (openMyFile c side) (plan.exchange side)

def finish : Text → Script Text Char Event Result := fun _ => .ended (plan.result side)

/-- The parts of the script: the phase at the end, what follows, what has been reported, and how
many turns are left afterwards. -/
inductive Part : Phase → (Text → Script Text Char Event Result) → List Event → Nat → Prop
  | opening : Part (.drafting []) (plan.exchange side) [] ((plan.code side).length + 3)
  | exchanging : Part .loaded (plan.after side) [] 2
  | removing : Part .done (plan.finish side) [plan.event side] 0

inductive Follows (store : Store Text Char) :
    Phase → Nat → Party Text Char Event Result → Prop
  | running {phase last : Phase} {process : Process Text Char}
      {next : Text → Script Text Char Event Result} {reported : List Event} {left : Nat}
      (hPart : plan.Part side last next reported left)
      (hLeads : Leads c plan.data side phase process.rest last)
      (hFailed : process.failed = none) (hHolds : Holds c plan.data side store process phase) :
      Follows store phase (process.rest.length + 1 + left) ⟨.running process next, reported⟩
  | ended : Follows store .done 0 ⟨.ended (plan.result side), [plan.event side]⟩

/-- The phases, and the turns that are left apart from those that wait. -/
structure Progress where
  phase : Side → Phase
  left : Side → Nat

namespace Progress

def set (g : Progress) (side : Side) (phase : Phase) (left : Nat) : Progress where
  phase := fun s => if s = side then phase else g.phase s
  left := fun s => if s = side then left else g.left s

def total (g : Progress) : Nat := g.left .primary + g.left .secondary

/-- The side has ended, or waits for the other one. -/
def Idle (g : Progress) (side : Side) : Prop :=
  g.left side = 0 ∨ g.phase side = .announced ∧ (g.phase side.other).announces = false

variable {g : Progress} {side : Side}

theorem total_set_lt {phase : Phase} {left : Nat} (h : left < g.left side) :
    (g.set side phase left).total < g.total := by
  cases side with
  | primary => exact Nat.add_lt_add_right h _
  | secondary => exact Nat.add_lt_add_left h _

end Progress

structure Sound (w : World Side Text Char Event Result) (g : Progress) : Prop where
  files : ∀ side, Files c plan.data side w.store (g.phase side) (g.phase side.other)
  follows : ∀ side, plan.Follows side w.store (g.phase side) (g.left side) (w.party side)

section Runs

variable {plan side} {w : World Side Text Char Event Result} {g : Progress}
  {store store' : Store Text Char} {phase : Phase} {left : Nat}
  {party : Party Text Char Event Result}

theorem Follows.transfer (h : plan.Follows side store phase left party)
    (hHolds : ∀ process : Process Text Char, Holds c plan.data side store process phase →
      Holds c plan.data side store' process phase) :
    plan.Follows side store' phase left party := by
  cases h with
  | running hPart hLeads hFailed h => exact .running hPart hLeads hFailed (hHolds _ h)
  | ended => exact .ended

theorem Sound.set (h : plan.Sound w g)
    (hFiles : Files c plan.data side store phase (g.phase side.other))
    (hFollows : plan.Follows side store phase left party)
    (hOthers : ∀ process : Process Text Char,
      Holds c plan.data side.other w.store process (g.phase side.other) →
        Holds c plan.data side.other store process (g.phase side.other)) :
    plan.Sound (w.set store side party) (g.set side phase left) := by
  have hOwn : (g.set side phase left).phase side = phase := if_pos rfl
  have hOther : (g.set side phase left).phase side.other = g.phase side.other :=
    if_neg (Side.other_ne side)
  have hLeft : (g.set side phase left).left side = left := if_pos rfl
  have hOtherLeft : (g.set side phase left).left side.other = g.left side.other :=
    if_neg (Side.other_ne side)
  constructor
  · intro s
    rcases Side.eq_or_eq_other side s with rfl | rfl
    · rw [hOwn, hOther]
      exact hFiles
    · rw [Side.other_other, hOwn, hOther]
      exact hFiles.symm
  · intro s
    rcases Side.eq_or_eq_other side s with rfl | rfl
    · rw [hOwn, hLeft, World.set_party_self]
      exact hFollows
    · rw [hOther, hOtherLeft, World.set_party_other _ _ _ (Side.other_ne side)]
      exact (h.follows side.other).transfer hOthers

/-- The instructions of a part are executed, and its script goes on. -/
theorem Sound.turn_next (h : plan.Sound w g) {last : Phase} {process : Process Text Char}
    {next : Text → Script Text Char Event Result} {reported : List Event}
    (hParty : w.party side = ⟨.running process next, reported⟩)
    (hPart : plan.Part side last next reported left) (hPhase : g.phase side = last)
    (hRest : process.rest = []) (hFailed : process.failed = none)
    (hHolds : Holds c plan.data side w.store process last) :
    ∃ phase left', plan.Sound (turn w side) (g.set side phase left') ∧ left' ≤ left := by
  have hActivity : (w.party side).activity = .running process next := by rw [hParty]
  have hFiles := h.files side
  rw [hPhase] at hFiles
  rw [FileScript.turn_next hActivity hRest hFailed, hParty]
  cases hPart with
  | opening =>
    obtain ⟨inode, hEntry, hHandle, -⟩ := hHolds
    have hStart : Holds c plan.data side w.store
        { process with rest := plan.code side, buffer := [] } (.drafting []) :=
      ⟨inode, hEntry, hHandle, rfl⟩
    exact ⟨_, _, h.set hFiles (.running .exchanging (leads_exchangeFiles _) hFailed hStart)
      fun _ h => h, Nat.le_refl _⟩
  | exchanging =>
    have hBuffer : process.buffer = plan.data side.other := hHolds
    have hStart : Holds c plan.data side w.store
        { process with rest := Communication.removePath (infoFile c side.other), buffer := [] }
        .accepted := trivial
    have hAccepted : Files c plan.data side w.store .accepted (g.phase side.other) :=
      hFiles.congr rfl rfl rfl rfl hFiles.order
    rw [hBuffer, plan.after_data]
    exact ⟨_, _, h.set hAccepted (.running .removing leads_removePath hFailed hStart)
      fun _ h => h, Nat.le_refl _⟩
  | removing => exact ⟨_, _, h.set hFiles .ended fun _ h => h, Nat.le_refl _⟩

/-- One instruction of a part is executed, or it waits. -/
theorem Sound.turn_exec (h : plan.Sound w g) {last : Phase} {process : Process Text Char}
    {next : Text → Script Text Char Event Result} {reported : List Event}
    (hParty : w.party side = ⟨.running process next, reported⟩)
    (hPart : plan.Part side last next reported left) {instruction : Step} {rest : List Step}
    (hRest : process.rest = instruction :: rest) {phase : Phase}
    (hMove : Moves c plan.data side (g.phase side) instruction phase)
    (hLeads : Leads c plan.data side phase rest last) (hFailed : process.failed = none)
    (hHolds : Holds c plan.data side w.store process (g.phase side)) :
    (g.Idle side ∧ turn w side = w) ∨
      plan.Sound (turn w side) (g.set side phase (rest.length + 1 + left)) := by
  have hActivity : (w.party side).activity = .running process next := by rw [hParty]
  rw [FileScript.turn_exec hActivity hRest, hParty]
  rcases hMove.exec (h.files side) hHolds hRest with hMoved | ⟨hPhase, hTheirs, hSame⟩
  · right
    have hFollows := Follows.running hPart (hMoved.rest ▸ hLeads)
      (hMoved.failed.trans hFailed) hMoved.holds
    rw [hMoved.rest] at hFollows
    exact h.set hMoved.files hFollows hMoved.others
  · left
    refine ⟨.inr ⟨hPhase, hTheirs⟩, ?_⟩
    rw [hSame]
    change w.set w.store side ⟨.running process next, reported⟩ = w
    rw [← hParty, World.set_self]

theorem Sound.turn (h : plan.Sound w g) (side : Side) :
    (g.Idle side ∧ turn w side = w) ∨
      ∃ g', plan.Sound (turn w side) g' ∧ g'.total < g.total := by
  have hFollows := h.follows side
  generalize hPhase : g.phase side = phase at hFollows
  generalize hLeft : g.left side = left at hFollows
  generalize hParty : w.party side = party at hFollows
  cases hFollows with
  | ended =>
    have hActivity : (w.party side).activity = .ended (plan.result side) := by rw [hParty]
    exact .inl ⟨.inl hLeft, turn_ended hActivity⟩
  | @running _ last process next reported later hPart hLeads hFailed hHolds =>
    cases hRest : process.rest with
    | nil =>
      rw [hRest] at hLeads hLeft
      obtain rfl : phase = last := hLeads
      obtain ⟨next, left', hSound, hLess⟩ := h.turn_next hParty hPart hPhase hRest hFailed hHolds
      refine .inr ⟨_, hSound, Progress.total_set_lt ?_⟩
      rw [hLeft, List.length_nil]
      omega
    | cons instruction rest =>
      rw [hRest] at hLeads hLeft
      obtain ⟨middle, hMove, hLeads⟩ := hLeads
      subst hPhase
      rcases h.turn_exec hParty hPart hRest hMove hLeads hFailed hHolds with hIdle | hSound
      · exact .inl hIdle
      · refine .inr ⟨_, hSound, Progress.total_set_lt ?_⟩
        rw [hLeft, List.length_cons]
        omega

structure Outcome (plan : Plan c Event Result) (side : Side)
    (party : Party Text Char Event Result) : Prop where
  failed : party.failed = none
  reported : party.reported = [] ∨ party.reported = [plan.event side]
  result : ∀ r, party.result = some r →
    r = plan.result side ∧ party.reported = [plan.event side]

theorem Follows.outcome (h : plan.Follows side store phase left party) :
    plan.Outcome side party := by
  cases h with
  | running hPart _ hFailed _ =>
    refine ⟨hFailed, ?_, nofun⟩
    cases hPart with
    | opening => exact .inl rfl
    | exchanging => exact .inl rfl
    | removing => exact .inr rfl
  | ended => exact ⟨rfl, .inr rfl, fun r h => ⟨(Option.some.inj h).symm, rfl⟩⟩

theorem Follows.result_of_zero (h : plan.Follows side store phase 0 party) :
    phase = .done ∧ party.result = some (plan.result side) := by
  generalize hLeft : 0 = left at h
  cases h with
  | running => omega
  | ended => exact ⟨rfl, rfl⟩

theorem Sound.done (h : plan.Sound w g) (hLeft : g.left side = 0) : g.phase side = .done := by
  have hFollows := h.follows side
  rw [hLeft] at hFollows
  exact hFollows.result_of_zero.1

/-- The two sides never wait for each other. -/
theorem Sound.left_of_idle (h : plan.Sound w g) (hIdle : ∀ side, g.Idle side) (side : Side) :
    g.left side = 0 := by
  rcases hIdle side with hLeft | ⟨-, hTheirs⟩
  · exact hLeft
  · rcases hIdle side.other with hLeft | ⟨hPhase, -⟩
    · rw [h.done hLeft] at hTheirs
      nomatch hTheirs
    · rw [hPhase] at hTheirs
      nomatch hTheirs

def initial (plan : Plan c Event Result) : Progress where
  phase _ := .clear
  left side := (openMyFile c side).length + 1 + ((plan.code side).length + 3)

def NoFiles (c : Communication) (store : Store Text Char) : Prop :=
  ∀ writer, store.isFile (infoFile c writer) = false ∧
    store.isFile (Communication.availFile (infoFile c writer)) = false

theorem sound_start (plan : Plan c Event Result) (hFresh : NoFiles c store) :
    plan.Sound (start store plan.script) plan.initial := by
  have hFile : ∀ writer, store.file (infoFile c writer) = none := by
    intro writer
    have hMissing := (hFresh writer).1
    rw [Store.isFile_eq_isSome] at hMissing
    exact Option.isNone_iff_eq_none.mp (Option.isSome_eq_false_iff.mp hMissing)
  constructor
  · intro side
    exact ⟨hFile side, hFile side.other, (hFresh side).2, (hFresh side.other).2, nofun, nofun⟩
  · intro side
    have hHolds : Holds c plan.data side store
        { rest := openMyFile c side, handle := none, buffer := [], failed := none } .clear :=
      ⟨rfl, rfl⟩
    exact .running .opening leads_openMyFile rfl hHolds

theorem run_sound (plan : Plan c Event Result) (hFresh : NoFiles c store)
    (schedule : List Side) : ∃ g, plan.Sound (run (start store plan.script) schedule) g :=
  run_ghost (P := plan.Sound) (fun _ _ side h => h.turn side) (plan.sound_start hFresh) schedule

/-- In every run no side fails, and each side reports and decides the same. -/
theorem run_outcome (plan : Plan c Event Result) (hFresh : NoFiles c store)
    (schedule : List Side) (side : Side) :
    plan.Outcome side ((run (start store plan.script) schedule).party side) := by
  obtain ⟨g, hSound⟩ := plan.run_sound hFresh schedule
  exact (hSound.follows side).outcome

/-- Both sides end when both have turns enough. -/
theorem run_result (plan : Plan c Event Result) (hFresh : NoFiles c store)
    {rounds : List (List Side)} (hRounds : ∀ round ∈ rounds, ∀ side, side ∈ round)
    (hLength : plan.initial.total < rounds.length) (side : Side) :
    ((run (start store plan.script) rounds.flatten).party side).result =
      some (plan.result side) := by
  obtain ⟨g, hSound, hIdle⟩ := run_rounds (P := plan.Sound)
    (fun _ _ side h => h.turn side) (plan.sound_start hFresh) hRounds hLength
  have hFollows := hSound.follows side
  rw [hSound.left_of_idle hIdle] at hFollows
  exact hFollows.result_of_zero.2

end Runs

end Plan

end CoSimIO.HandShake

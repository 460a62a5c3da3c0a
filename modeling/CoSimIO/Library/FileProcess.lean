import CoSimIO.Library.Schedule
import Mathlib.Logic.Function.Basic
import Mathlib.Tactic.Common

/-! # Processes that share a directory

A directory maps paths to inodes, an inode holds the bytes of one file. Opening a
file for writing empties an existing file and makes a missing one, renaming is
atomic and replaces a file that has the new name already.

A process is the list of the instructions it has still to execute, with its open
file (inode and position), what it has read, and the instruction that raised an
error. Each instruction is one atomic access to the directory or to an open file.
Every caller runs a list of calls, and each call unfolds to instructions. The
callers take turns in any order.
-/

namespace FileProcess

set_option autoImplicit false

variable {Path Byte Call Agent : Type}

/-- Two paths never share an inode, and the inodes from `next` on are unused. -/
structure Store (Path Byte : Type) where
  entry : Path → Option Nat
  content : Nat → List Byte
  next : Nat
  entry_injective : ∀ {p q i}, entry p = some i → entry q = some i → p = q
  entry_lt_next : ∀ {p i}, entry p = some i → i < next

namespace Store

def empty : Store Path Byte where
  entry _ := none
  content _ := []
  next := 0
  entry_injective := nofun
  entry_lt_next := nofun

def isFile (s : Store Path Byte) (path : Path) : Bool := (s.entry path).isSome

def file (s : Store Path Byte) (path : Path) : Option (List Byte) := (s.entry path).map s.content

def overwrite (old : List Byte) (position : Nat) (bytes : List Byte) : List Byte :=
  old.take position ++ bytes ++ old.drop (position + bytes.length)

def write (s : Store Path Byte) (i position : Nat) (bytes : List Byte) : Store Path Byte :=
  { s with content := Function.update s.content i (overwrite (s.content i) position bytes) }

theorem isFile_eq_isSome (s : Store Path Byte) (path : Path) :
    s.isFile path = (s.file path).isSome := by
  simp [isFile, file]

@[simp] theorem isFile_write (s : Store Path Byte) (i position : Nat) (bytes : List Byte)
    (other : Path) : (s.write i position bytes).isFile other = s.isFile other := rfl

@[simp] theorem overwrite_end (old bytes : List Byte) :
    overwrite old old.length bytes = old ++ bytes := by
  simp [overwrite, List.drop_eq_nil_of_le]

theorem file_write_self {s : Store Path Byte} {path : Path} {i : Nat} {written : List Byte}
    (hEntry : s.entry path = some i) (hFile : s.file path = some written) (bytes : List Byte) :
    (s.write i written.length bytes).file path = some (written ++ bytes) := by
  have hContent : s.content i = written := by simpa [file, hEntry] using hFile
  simp [file, write, hEntry, hContent]

/-- The file of a path has the same inode and the same bytes before and after. -/
structure Keeps (s t : Store Path Byte) (path : Path) : Prop where
  entry : t.entry path = s.entry path
  file : t.file path = s.file path

theorem Keeps.refl (s : Store Path Byte) (path : Path) : Keeps s s path := ⟨rfl, rfl⟩

theorem Keeps.isFile {s t : Store Path Byte} {path : Path} (h : Keeps s t path) :
    t.isFile path = s.isFile path := by
  rw [Store.isFile, Store.isFile, h.entry]

theorem keeps_of_content {s t : Store Path Byte} {path : Path} (hEntry : t.entry path = s.entry path)
    (hContent : ∀ i, s.entry path = some i → t.content i = s.content i) : Keeps s t path where
  entry := hEntry
  file := by
    rw [file, file, hEntry]
    cases h : s.entry path with
    | none => rfl
    | some i => simp [hContent i h]

theorem keeps_write {s : Store Path Byte} {path other : Path} {i : Nat}
    (hEntry : s.entry path = some i) (h : other ≠ path) (position : Nat) (bytes : List Byte) :
    Keeps s (s.write i position bytes) other := by
  apply keeps_of_content
  · rfl
  · intro j hj
    apply Function.update_of_ne
    rintro rfl
    exact h (s.entry_injective hj hEntry)

variable [DecidableEq Path]

def create (s : Store Path Byte) (path : Path) : Nat × Store Path Byte :=
  match s.entry path with
  | some i => (i, { s with content := Function.update s.content i [] })
  | none => (s.next, {
      entry := Function.update s.entry path (some s.next)
      content := Function.update s.content s.next []
      next := s.next + 1
      entry_injective := by
        intro p q i hp hq
        rw [Function.update_apply] at hp hq
        split at hp <;> split at hq
        · simp_all
        · cases hp
          exact absurd (s.entry_lt_next hq) (Nat.lt_irrefl _)
        · cases hq
          exact absurd (s.entry_lt_next hp) (Nat.lt_irrefl _)
        · exact s.entry_injective hp hq
      entry_lt_next := by
        intro p i hp
        rw [Function.update_apply] at hp
        split at hp
        · cases hp
          exact Nat.lt_succ_self _
        · exact Nat.lt_succ_of_lt (s.entry_lt_next hp) })

def remove (s : Store Path Byte) (path : Path) : Store Path Byte :=
  { s with
    entry := Function.update s.entry path none
    entry_injective := by
      intro p q i hp hq
      rw [Function.update_apply] at hp hq
      split at hp
      · cases hp
      · split at hq
        · cases hq
        · exact s.entry_injective hp hq
    entry_lt_next := by
      intro p i hp
      rw [Function.update_apply] at hp
      split at hp
      · cases hp
      · exact s.entry_lt_next hp }

theorem rename_apply {s : Store Path Byte} {source target p : Path} {i : Nat}
    (h : Function.update (Function.update s.entry source none) target (s.entry source) p = some i) :
    (p = target ∧ s.entry source = some i) ∨
      (p ≠ target ∧ p ≠ source ∧ s.entry p = some i) := by
  rw [Function.update_apply] at h
  split at h
  · exact Or.inl ⟨by assumption, h⟩
  · rw [Function.update_apply] at h
    split at h
    · cases h
    · exact Or.inr ⟨by assumption, by assumption, h⟩

def rename (s : Store Path Byte) (source target : Path) : Store Path Byte :=
  { s with
    entry := Function.update (Function.update s.entry source none) target (s.entry source)
    entry_injective := by
      intro p q i hp hq
      rcases rename_apply hp with ⟨hpTarget, hp⟩ | ⟨-, hpSource, hp⟩ <;>
        rcases rename_apply hq with ⟨hqTarget, hq⟩ | ⟨-, hqSource, hq⟩
      · rw [hpTarget, hqTarget]
      · exact absurd (s.entry_injective hq hp) hqSource
      · exact absurd (s.entry_injective hp hq) hpSource
      · exact s.entry_injective hp hq
    entry_lt_next := by
      intro p i hp
      rcases rename_apply hp with ⟨-, hp⟩ | ⟨-, -, hp⟩ <;> exact s.entry_lt_next hp }

@[simp] theorem isFile_create (s : Store Path Byte) (path other : Path) :
    (s.create path).2.isFile other = (decide (other = path) || s.isFile other) := by
  unfold create
  by_cases hOther : other = path
  · subst hOther
    split <;> simp_all [isFile]
  · split <;> simp [isFile, hOther]

@[simp] theorem isFile_remove (s : Store Path Byte) (path other : Path) :
    (s.remove path).isFile other = (!decide (other = path) && s.isFile other) := by
  by_cases hOther : other = path
  · simp [isFile, remove, hOther]
  · simp [isFile, remove, hOther]

theorem entry_create_self (s : Store Path Byte) (path : Path) :
    (s.create path).2.entry path = some (s.create path).1 := by
  unfold create
  split <;> simp_all

theorem content_create (s : Store Path Byte) (path : Path) :
    (s.create path).2.content = Function.update s.content (s.create path).1 [] := by
  unfold create
  split <;> rfl

@[simp] theorem file_create_self (s : Store Path Byte) (path : Path) :
    (s.create path).2.file path = some [] := by
  rw [file, entry_create_self, content_create]
  simp

@[simp] theorem file_remove_self (s : Store Path Byte) (path : Path) :
    (s.remove path).file path = none := by
  simp [file, remove]

@[simp] theorem file_rename_target (s : Store Path Byte) (source target : Path) :
    (s.rename source target).file target = s.file source := by
  simp [file, rename]

theorem file_rename_source (s : Store Path Byte) {source target : Path} (h : source ≠ target) :
    (s.rename source target).file source = none := by
  simp [file, rename, h]

theorem keeps_create (s : Store Path Byte) {path other : Path} (h : other ≠ path) :
    Keeps s (s.create path).2 other := by
  apply keeps_of_content
  · unfold create
    split <;> simp [h]
  · intro i hi
    rw [content_create, Function.update_of_ne]
    rintro rfl
    revert hi
    unfold create
    split
    · intro hi
      exact h (s.entry_injective hi (by assumption))
    · intro hi
      exact absurd (s.entry_lt_next hi) (Nat.lt_irrefl _)

theorem keeps_remove (s : Store Path Byte) {path other : Path} (h : other ≠ path) :
    Keeps s (s.remove path) other :=
  keeps_of_content (Function.update_of_ne h _ _) fun _ _ => rfl

theorem keeps_rename (s : Store Path Byte) {source target other : Path} (hSource : other ≠ source)
    (hTarget : other ≠ target) : Keeps s (s.rename source target) other := by
  apply keeps_of_content
  · simp [rename, hSource, hTarget]
  · intro i _
    rfl

end Store

/-- The waiting instructions poll. `requireExists`, `requireOpen`, `fileSize`, `permissions`,
`rename` and `remove` raise an error when the file is missing, `remove` after the given number
of attempts. `openExisting` does not empty the file, and `createUnlessOpen` does nothing after
a successful `openExisting`. -/
inductive Instruction (Path Byte : Type)
  | waitExists (path : Path)
  | waitRemoved (path : Path)
  | requireExists (path : Path)
  | openExisting (path : Path)
  | createUnlessOpen (path : Path)
  | create (path : Path)
  | requireOpen
  | write (bytes : List Byte)
  | readSome (count : Nat)
  | readAll
  | close
  | fileSize (path : Path)
  | permissions (path : Path)
  | rename (source target : Path)
  | remove (path : Path) (attempts : Nat)
deriving DecidableEq

structure Process (Path Byte : Type) where
  rest : List (Instruction Path Byte)
  handle : Option (Nat × Nat)
  buffer : List Byte
  failed : Option (Instruction Path Byte)
deriving DecidableEq

namespace Process

def start (rest : List (Instruction Path Byte)) : Process Path Byte :=
  { rest, handle := none, buffer := [], failed := none }

def idle : Process Path Byte := start []

def fail (p : Process Path Byte) (instruction : Instruction Path Byte) : Process Path Byte :=
  { p with rest := [], failed := some instruction }

end Process

def exec [DecidableEq Path] (s : Store Path Byte) (p : Process Path Byte) : Store Path Byte × Process Path Byte :=
  match p.rest with
  | [] => (s, p)
  | .waitExists path :: rest => if s.isFile path then (s, { p with rest }) else (s, p)
  | .waitRemoved path :: rest => if s.isFile path then (s, p) else (s, { p with rest })
  | .requireExists path :: rest =>
    if s.isFile path then (s, { p with rest }) else (s, p.fail (.requireExists path))
  | .openExisting path :: rest =>
    (s, { p with rest, handle := (s.entry path).map fun i => (i, 0) })
  | .createUnlessOpen path :: rest =>
    match p.handle with
    | some _ => (s, { p with rest })
    | none => ((s.create path).2, { p with rest, handle := some ((s.create path).1, 0) })
  | .create path :: rest =>
    ((s.create path).2, { p with rest, handle := some ((s.create path).1, 0) })
  | .requireOpen :: rest =>
    if p.handle.isSome then (s, { p with rest }) else (s, p.fail .requireOpen)
  | .write bytes :: rest =>
    match p.handle with
    | some (i, position) =>
      (s.write i position bytes, { p with rest, handle := some (i, position + bytes.length) })
    | none => (s, { p with rest })
  | .readSome count :: rest =>
    match p.handle with
    | some (i, position) => (s, { p with
        rest
        handle := some (i, position + count)
        buffer := p.buffer ++ ((s.content i).drop position).take count })
    | none => (s, { p with rest })
  | .readAll :: rest =>
    match p.handle with
    | some (i, position) => (s, { p with
        rest
        handle := some (i, (s.content i).length)
        buffer := p.buffer ++ (s.content i).drop position })
    | none => (s, { p with rest })
  | .close :: rest => (s, { p with rest, handle := none })
  | .fileSize path :: rest =>
    if s.isFile path then (s, { p with rest }) else (s, p.fail (.fileSize path))
  | .permissions path :: rest =>
    if s.isFile path then (s, { p with rest }) else (s, p.fail (.permissions path))
  | .rename source target :: rest =>
    if s.isFile source then (s.rename source target, { p with rest })
    else (s, p.fail (.rename source target))
  | .remove path attempts :: rest =>
    if s.isFile path then (s.remove path, { p with rest })
    else if attempts ≤ 1 then (s, p.fail (.remove path attempts))
    else (s, { p with rest := .remove path (attempts - 1) :: rest })

theorem exec_start_waitRemoved [DecidableEq Path] (s : Store Path Byte) (path : Path)
    (rest : List (Instruction Path Byte)) : exec s (Process.start (.waitRemoved path :: rest)) =
      (s, Process.start (if s.isFile path then .waitRemoved path :: rest else rest)) := by
  simp only [exec, Process.start]
  split <;> rfl

theorem exec_start_waitExists [DecidableEq Path] (s : Store Path Byte) (path : Path)
    (rest : List (Instruction Path Byte)) : exec s (Process.start (.waitExists path :: rest)) =
      (s, Process.start (if s.isFile path then rest else .waitExists path :: rest)) := by
  simp only [exec, Process.start]
  split <;> rfl

theorem exec_buffer_of_remove [DecidableEq Path] {s : Store Path Byte} {p : Process Path Byte}
    {path : Path} {attempts : Nat} {rest : List (Instruction Path Byte)}
    (h : p.rest = .remove path attempts :: rest) : (exec s p).2.buffer = p.buffer := by
  simp only [exec, h]
  split
  · rfl
  · split <;> rfl

structure Caller (Path Byte Call : Type) where
  todo : List Call
  current : Option Call
  process : Process Path Byte
  returned : List (Call × List Byte)

namespace Caller

def init (calls : List Call) : Caller Path Byte Call :=
  { todo := calls, current := none, process := Process.idle, returned := [] }

def enter (c : Caller Path Byte Call) (call : Call) (todo : List Call)
    (program : List (Instruction Path Byte)) : Caller Path Byte Call :=
  { c with todo, current := some call, process := Process.start program }

def leave (c : Caller Path Byte Call) (call : Call) : Caller Path Byte Call :=
  { c with
    current := none
    process := Process.idle
    returned := c.returned ++ [(call, c.process.buffer)] }

def resume (c : Caller Path Byte Call) (process : Process Path Byte) : Caller Path Byte Call :=
  { c with process }

@[simp] theorem resume_todo (c : Caller Path Byte Call) (process : Process Path Byte) :
    (c.resume process).todo = c.todo := rfl

@[simp] theorem resume_current (c : Caller Path Byte Call) (process : Process Path Byte) :
    (c.resume process).current = c.current := rfl

@[simp] theorem resume_returned (c : Caller Path Byte Call) (process : Process Path Byte) :
    (c.resume process).returned = c.returned := rfl

@[simp] theorem resume_process (c : Caller Path Byte Call) (process : Process Path Byte) :
    (c.resume process).process = process := rfl

def calls (c : Caller Path Byte Call) : List Call :=
  c.returned.map Prod.fst ++ (c.current.toList ++ c.todo)

def entered (c : Caller Path Byte Call) : Nat := c.returned.length + c.current.toList.length

end Caller

structure World (Agent Path Byte Call : Type) where
  store : Store Path Byte
  caller : Agent → Caller Path Byte Call

namespace World

variable [DecidableEq Agent]

def init (store : Store Path Byte) (calls : Agent → List Call) : World Agent Path Byte Call :=
  { store, caller := fun a => Caller.init (calls a) }

def set (w : World Agent Path Byte Call) (store : Store Path Byte) (a : Agent)
    (c : Caller Path Byte Call) : World Agent Path Byte Call :=
  { store, caller := Function.update w.caller a c }

@[simp] theorem set_store (w : World Agent Path Byte Call) (store : Store Path Byte) (a : Agent)
    (c : Caller Path Byte Call) : (w.set store a c).store = store := rfl

@[simp] theorem set_caller_self (w : World Agent Path Byte Call) (store : Store Path Byte)
    (a : Agent) (c : Caller Path Byte Call) : (w.set store a c).caller a = c := by
  simp [set]

@[simp] theorem set_caller_other (w : World Agent Path Byte Call) (store : Store Path Byte)
    {a b : Agent} (c : Caller Path Byte Call) (h : b ≠ a) :
    (w.set store a c).caller b = w.caller b := by
  simp [set, h]

end World

variable [DecidableEq Path] [DecidableEq Agent]

/-- One step of an agent: it enters its next call, executes one instruction of the
current call, or returns. An agent whose call raised an error takes no further step. -/
def step (program : Agent → Call → List (Instruction Path Byte))
    (w : World Agent Path Byte Call) (a : Agent) : Option (World Agent Path Byte Call) :=
  let c := w.caller a
  if c.process.failed.isSome then none
  else match c.current with
    | none =>
      match c.todo with
      | [] => none
      | call :: todo => some (w.set w.store a (c.enter call todo (program a call)))
    | some call =>
      match c.process.rest with
      | [] => some (w.set w.store a (c.leave call))
      | _ :: _ =>
        let result := exec w.store c.process
        some (w.set result.1 a (c.resume result.2))

/-- Everything one step can do. -/
theorem step_cases {program : Agent → Call → List (Instruction Path Byte)}
    {w w' : World Agent Path Byte Call} {a : Agent} (h : step program w a = some w') :
    (w.caller a).process.failed = none ∧
    ((∃ call todo, (w.caller a).current = none ∧ (w.caller a).todo = call :: todo ∧
        w' = w.set w.store a ((w.caller a).enter call todo (program a call))) ∨
     (∃ call, (w.caller a).current = some call ∧ (w.caller a).process.rest = [] ∧
        w' = w.set w.store a ((w.caller a).leave call)) ∨
     (∃ call instruction rest, (w.caller a).current = some call ∧
        (w.caller a).process.rest = instruction :: rest ∧
        w' = w.set (exec w.store (w.caller a).process).1 a
          ((w.caller a).resume (exec w.store (w.caller a).process).2))) := by
  unfold step at h
  simp only at h
  split at h
  · cases h
  · rename_i hFailed
    refine ⟨by simpa using hFailed, ?_⟩
    split at h
    · rename_i hCurrent
      split at h
      · cases h
      · rename_i call todo hTodo
        exact Or.inl ⟨call, todo, hCurrent, hTodo, by cases h; rfl⟩
    · rename_i call hCurrent
      split at h
      · rename_i hRest
        exact Or.inr (Or.inl ⟨call, hCurrent, hRest, by cases h; rfl⟩)
      · rename_i instruction rest hRest
        exact Or.inr (Or.inr ⟨call, instruction, rest, hCurrent, hRest, by cases h; rfl⟩)

theorem step_caller_other {program : Agent → Call → List (Instruction Path Byte)}
    {w w' : World Agent Path Byte Call} {a b : Agent} (h : step program w a = some w')
    (hb : b ≠ a) : w'.caller b = w.caller b := by
  obtain ⟨-, ⟨_, _, _, _, rfl⟩ | ⟨_, _, _, rfl⟩ | ⟨_, _, _, _, _, rfl⟩⟩ := step_cases h
  all_goals exact World.set_caller_other _ _ _ hb

theorem step_calls {program : Agent → Call → List (Instruction Path Byte)}
    {w w' : World Agent Path Byte Call} {a : Agent} (h : step program w a = some w') (b : Agent) :
    (w'.caller b).calls = (w.caller b).calls := by
  by_cases hb : b = a
  · subst hb
    obtain ⟨-, ⟨call, todo, hCurrent, hTodo, rfl⟩ | ⟨call, hCurrent, _, rfl⟩ |
      ⟨_, _, _, _, _, rfl⟩⟩ := step_cases h
    · simp [Caller.calls, Caller.enter, hCurrent, hTodo]
    · simp [Caller.calls, Caller.leave, hCurrent]
    · simp [Caller.calls]
  · rw [step_caller_other h hb]

theorem run_calls {program : Agent → Call → List (Instruction Path Byte)}
    {w w' : World Agent Path Byte Call} {schedule : List Agent}
    (h : Schedule.run (step program) w schedule = some w') (b : Agent) :
    (w'.caller b).calls = (w.caller b).calls :=
  Schedule.invariant (fun v => (v.caller b).calls = (w.caller b).calls)
    (fun _ _ _ hInv hStep => (step_calls hStep b).trans hInv) rfl h

end FileProcess

import CoSimIO.Library.FileProcess
import Mathlib.Tactic.Common

/-! # What an instruction leaves alone

An instruction neither needs nor changes the files that it does not name, but a write also changes
the file that is open.
-/

namespace FileProcess

set_option autoImplicit false

variable {Path Byte : Type}

def Instruction.paths : Instruction Path Byte → List Path
  | .waitExists path => [path]
  | .waitRemoved path => [path]
  | .requireExists path => [path]
  | .openExisting path => [path]
  | .createUnlessOpen path => [path]
  | .create path => [path]
  | .fileSize path => [path]
  | .permissions path => [path]
  | .rename source target => [source, target]
  | .remove path _ => [path]
  | _ => []

def Instruction.writes : Instruction Path Byte → Bool
  | .write _ => true
  | _ => false

namespace Store

/-- The directory without some files -/
def restrict (s : Store Path Byte) (keep : Path → Bool) : Store Path Byte where
  entry path := if keep path then s.entry path else none
  content := s.content
  next := s.next
  entry_injective := by
    intro p q i hp hq
    split at hp
    · split at hq
      · exact s.entry_injective hp hq
      · cases hq
    · cases hp
  entry_lt_next := by
    intro p i hp
    split at hp
    · exact s.entry_lt_next hp
    · cases hp

variable {s t : Store Path Byte} {keep : Path → Bool} {path : Path}

theorem entry_restrict (h : keep path = true) : (s.restrict keep).entry path = s.entry path :=
  if_pos h

theorem isFile_restrict : (s.restrict keep).isFile path = (keep path && s.isFile path) := by
  cases h : keep path with
  | false => simp [isFile, restrict, h]
  | true => simp [isFile, restrict, h]

theorem ext (hEntry : s.entry = t.entry) (hContent : s.content = t.content)
    (hNext : s.next = t.next) : s = t := by
  cases s
  cases t
  cases hEntry
  cases hContent
  cases hNext
  rfl

variable [DecidableEq Path]

theorem restrict_update (h : keep path = true) (inode : Option Nat) :
    (fun other => if keep other then Function.update s.entry path inode other else none) =
      Function.update (s.restrict keep).entry path inode := by
  funext other
  by_cases hOther : other = path
  · subst hOther
    rw [if_pos h, Function.update_self, Function.update_self]
  · rw [Function.update_of_ne hOther, Function.update_of_ne hOther]
    rfl

theorem create_restrict (h : keep path = true) :
    (s.restrict keep).create path = ((s.create path).1, (s.create path).2.restrict keep) := by
  have hEntry := entry_restrict (s := s) h
  cases hInode : s.entry path with
  | some i =>
    rw [hInode] at hEntry
    simp only [create, hInode, hEntry]
    rfl
  | none =>
    rw [hInode] at hEntry
    simp only [create, hInode, hEntry]
    refine Prod.ext rfl (ext ?_ rfl rfl)
    exact (restrict_update h _).symm

theorem remove_restrict (h : keep path = true) :
    (s.restrict keep).remove path = (s.remove path).restrict keep :=
  ext (restrict_update h none).symm rfl rfl

theorem rename_restrict {source target : Path} (hSource : keep source = true)
    (hTarget : keep target = true) :
    (s.restrict keep).rename source target = (s.rename source target).restrict keep := by
  refine ext ?_ rfl rfl
  change Function.update (Function.update (s.restrict keep).entry source none) target
    ((s.restrict keep).entry source) = _
  rw [entry_restrict hSource]
  exact ((restrict_update (s := s.remove source) hTarget _).trans
    (congrArg (Function.update · target _) (restrict_update hSource none))).symm

end Store

variable [DecidableEq Path] {s : Store Path Byte} {keep : Path → Bool} {process : Process Path Byte}
  {instruction : Instruction Path Byte} {rest : List (Instruction Path Byte)}

/-- The instruction does the same without the files that it does not name. -/
theorem exec_restrict (hRest : process.rest = instruction :: rest)
    (hKeep : ∀ path ∈ instruction.paths, keep path = true) :
    exec (s.restrict keep) process = ((exec s process).1.restrict keep, (exec s process).2) := by
  have hIsFile : ∀ path ∈ instruction.paths, (s.restrict keep).isFile path = s.isFile path := by
    intro path hPath
    rw [Store.isFile_restrict, hKeep path hPath, Bool.true_and]
  cases instruction with
  | openExisting path =>
    simp only [exec, hRest, Store.entry_restrict (hKeep path (.head _))]
  | createUnlessOpen path =>
    simp only [exec, hRest, Store.create_restrict (hKeep path (.head _))]
    split <;> rfl
  | create path => simp only [exec, hRest, Store.create_restrict (hKeep path (.head _))]
  | requireOpen =>
    simp only [exec, hRest]
    split <;> rfl
  | write bytes =>
    simp only [exec, hRest]
    split <;> rfl
  | readSome count =>
    simp only [exec, hRest]
    split <;> rfl
  | readAll =>
    simp only [exec, hRest]
    split <;> rfl
  | close => simp only [exec, hRest]
  | rename source target =>
    have hRename := Store.rename_restrict (s := s) (hKeep source (.head _))
      (hKeep target (.tail _ (.head _)))
    simp only [exec, hRest, hIsFile source (.head _), hRename]
    split <;> rfl
  | remove path attempts =>
    simp only [exec, hRest, hIsFile path (.head _), Store.remove_restrict (hKeep path (.head _))]
    split
    · rfl
    · split <;> rfl
  | _ path =>
    simp only [exec, hRest, hIsFile path (.head _)]
    split <;> rfl

/-- An instruction that does not write changes only the files that it names. -/
theorem exec_keeps (hRest : process.rest = instruction :: rest) (hWrites : instruction.writes = false)
    {path : Path} (hPath : path ∉ instruction.paths) :
    Store.Keeps s (exec s process).1 path := by
  cases instruction with
  | createUnlessOpen other =>
    simp only [exec, hRest]
    split
    · exact .refl s path
    · exact Store.keeps_create s (List.ne_of_not_mem_cons hPath)
  | create other =>
    simp only [exec, hRest]
    exact Store.keeps_create s (List.ne_of_not_mem_cons hPath)
  | rename source target =>
    obtain ⟨hSource, hTarget⟩ := List.ne_and_not_mem_of_not_mem_cons hPath
    simp only [exec, hRest]
    split
    · exact Store.keeps_rename s hSource (List.ne_of_not_mem_cons hTarget)
    · exact .refl s path
  | remove other attempts =>
    simp only [exec, hRest]
    split
    · exact Store.keeps_remove s (List.ne_of_not_mem_cons hPath)
    · split <;> exact .refl s path
  | write => cases hWrites
  | openExisting => simpa only [exec, hRest] using .refl s path
  | close => simpa only [exec, hRest] using .refl s path
  | _ =>
    simp only [exec, hRest]
    split <;> exact .refl s path

theorem exec_isFile (hRest : process.rest = instruction :: rest) {path : Path}
    (hPath : path ∉ instruction.paths) : (exec s process).1.isFile path = s.isFile path := by
  cases hWrites : instruction.writes with
  | false => exact (exec_keeps hRest hWrites hPath).isFile
  | true =>
    cases instruction with
    | write bytes =>
      simp only [exec, hRest]
      split
      · rfl
      · rfl
    | _ => cases hWrites

/-- The instruction polls in vain. -/
def Instruction.Waits (s : Store Path Byte) : Instruction Path Byte → Prop
  | .waitExists path => s.isFile path = false
  | .waitRemoved path => s.isFile path = true
  | _ => False

theorem exec_of_waits (hRest : process.rest = instruction :: rest) (hWaits : instruction.Waits s) :
    exec s process = (s, process) := by
  cases instruction with
  | waitExists path =>
    have hFile : ¬ s.isFile path = true := by rw [hWaits]; nofun
    simp only [exec, hRest, if_neg hFile]
  | waitRemoved path =>
    have hFile : s.isFile path = true := hWaits
    simp only [exec, hRest, if_pos hFile]
  | _ => cases hWaits

theorem waits_of_same (hRest : process.rest = instruction :: rest)
    (hSame : (exec s process).2 = process) : instruction.Waits s := by
  have hLength := congrArg (fun p : Process Path Byte => p.rest) hSame
  rw [hRest] at hLength
  have hNext : ¬ rest = instruction :: rest := (List.cons_ne_self _ _).symm
  cases instruction with
  | waitExists path =>
    simp only [exec, hRest] at hLength
    split at hLength
    · exact absurd hLength hNext
    · next hFile => exact Bool.eq_false_iff.mpr hFile
  | waitRemoved path =>
    simp only [exec, hRest] at hLength
    split at hLength
    · next hFile => exact hFile
    · exact absurd hLength hNext
  | remove path attempts =>
    simp only [exec, hRest] at hLength
    split at hLength
    · exact absurd hLength hNext
    · split at hLength
      · cases hLength
      · next hAttempts =>
        have hLess := (Instruction.remove.inj (List.cons.inj hLength).1).2
        omega
  | openExisting => exact absurd (by simpa only [exec, hRest] using hLength) hNext
  | create => exact absurd (by simpa only [exec, hRest] using hLength) hNext
  | close => exact absurd (by simpa only [exec, hRest] using hLength) hNext
  | _ =>
    simp only [exec, hRest] at hLength
    split at hLength
    · exact absurd hLength hNext
    · first | exact absurd hLength hNext | cases hLength

end FileProcess

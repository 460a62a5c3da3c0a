import CoSimIO.Library.FileProtocol
import Mathlib.Data.List.Nodup

/-! # A protocol in a directory that one agent cleans up first -/

namespace FileScript

open FileProcess

set_option autoImplicit false

variable {Path Byte Event Result Agent : Type} [DecidableEq Path] [DecidableEq Agent]

section Removal

variable {scripts : Agent → Script Path Byte Event Result} {result : Agent → Result}
  {events : Agent → List Event} {uses : Path → Prop} {cleaner : Agent} {paths : List Path}
  {store : Store Path Byte}

def removed (store : Store Path Byte) (paths : List Path) : Store Path Byte :=
  paths.foldl Store.remove store

theorem isFile_removed (store : Store Path Byte) (paths : List Path) (path : Path) :
    (removed store paths).isFile path = (decide (path ∉ paths) && store.isFile path) := by
  induction paths generalizing store with
  | nil => simp [removed]
  | cons first paths ih =>
    change (removed (store.remove first) paths).isFile path = _
    rw [ih, Store.isFile_remove]
    by_cases hFirst : path = first
    · simp [hFirst]
    · simp [hFirst]

/-- One agent first removes files. -/
def cleaning (cleaner : Agent) (paths : List Path)
    (scripts : Agent → Script Path Byte Event Result) (a : Agent) :
    Script Path Byte Event Result :=
  if a = cleaner then .run (paths.map fun path => .remove path 1) fun _ => scripts cleaner
  else scripts a

/-- The others wait for a file that the cleaner has not made yet. -/
def Waits (announcement : Path) : Script Path Byte Event Result → Prop
  | .run (.waitExists path :: _) _ => path = announcement
  | _ => False

/-- The first files are removed, and nothing else has happened. -/
structure Clearing (store : Store Path Byte) (cleaner : Agent) (paths : List Path)
    (scripts : Agent → Script Path Byte Event Result) (w : World Agent Path Byte Event Result)
    (count : Nat) : Prop where
  count_le : count ≤ paths.length
  store : w.store = removed store (paths.take count)
  own : w.party cleaner = ⟨.running
    { rest := (paths.drop count).map fun path => .remove path 1, handle := none, buffer := [],
      failed := none } fun _ => scripts cleaner, []⟩
  others : ∀ a, a ≠ cleaner → w.party a = (scripts a).start

variable {w : World Agent Path Byte Event Result} {count : Nat}

theorem clearing_start : Clearing store cleaner paths scripts
    (FileScript.start store (cleaning cleaner paths scripts)) 0 where
  count_le := Nat.zero_le _
  store := rfl
  own := congrArg Script.start (if_pos rfl)
  others _ h := congrArg Script.start (if_neg h)

theorem Clearing.remove (h : Clearing store cleaner paths scripts w count)
    (hCount : count < paths.length) (hNodup : paths.Nodup)
    (hFiles : ∀ path ∈ paths, store.isFile path = true) :
    Clearing store cleaner paths scripts (turn w cleaner) (count + 1) := by
  have hRest : (paths.drop count).map (fun path => (.remove path 1 : Instruction Path Byte)) =
      .remove paths[count] 1 :: (paths.drop (count + 1)).map fun path => .remove path 1 := by
    rw [List.drop_eq_getElem_cons hCount, List.map_cons]
  have hLater : paths[count] ∈ paths.drop count := by
    rw [List.drop_eq_getElem_cons hCount]
    exact .head _
  have hFile : w.store.isFile paths[count] = true := by
    rw [h.store, isFile_removed, hFiles _ (List.getElem_mem hCount), Bool.and_true,
      decide_eq_true_eq]
    exact fun hEarlier => List.disjoint_take_drop hNodup (Nat.le_refl count) hEarlier hLater
  have hActivity := congrArg Party.activity h.own
  rw [hRest] at hActivity
  have hTurn := turn_exec hActivity rfl
  simp only [exec, hFile, if_true] at hTurn
  rw [hTurn]
  refine ⟨hCount, ?_, ?_, ?_⟩
  · rw [World.set_store, h.store, List.take_succ_eq_append_getElem hCount, removed, removed,
      List.foldl_append]
    rfl
  · rw [World.set_party_self, h.own]
  · intro a ha
    rw [World.set_party_other _ _ _ ha]
    exact h.others a ha

/-- Then the run goes on as if the files had never been there. -/
theorem Clearing.finish (h : Clearing store cleaner paths scripts w paths.length) :
    turn w cleaner = FileScript.start (removed store paths) scripts := by
  have hStore := h.store
  have hOwn := h.own
  rw [List.take_length] at hStore
  rw [List.drop_length] at hOwn
  rw [turn_next (congrArg Party.activity hOwn) rfl rfl, hOwn, World.set, FileScript.start, hStore]
  congr 1
  funext a
  split
  · next ha => rw [ha]; rfl
  · next ha => exact h.others a ha

theorem Clearing.wait (h : Clearing store cleaner paths scripts w count) {announcement : Path}
    (hMissing : store.isFile announcement = false) {a : Agent} (ha : a ≠ cleaner)
    (hWaits : Waits announcement (scripts a)) : turn w a = w := by
  have hParty := h.others a ha
  generalize scripts a = script at hWaits hParty
  have hFile : w.store.isFile announcement = false := by
    rw [h.store, isFile_removed, hMissing, Bool.and_false]
  cases script with
  | ended => cases hWaits
  | report => cases hWaits
  | run instructions next =>
    cases instructions with
    | nil => cases hWaits
    | cons instruction rest =>
      cases instruction with
      | waitExists path =>
        obtain rfl : path = announcement := hWaits
        rw [turn_exec (congrArg Party.activity hParty) rfl]
        simp only [exec, hFile, Bool.false_eq_true, if_false]
        rw [hParty]
        change w.set w.store a (Script.run (.waitExists path :: rest) next).start = w
        rw [← hParty, World.set_self]
      | _ => cases hWaits

namespace Protocol

variable (protocol : Protocol scripts result events uses)

/-- Either files are still removed, or the agents follow the protocol. -/
def CleaningSound (store : Store Path Byte) (cleaner : Agent) (paths : List Path)
    (w : World Agent Path Byte Event Result) : Nat ⊕ protocol.Ghost → Prop
  | .inl count => Clearing store cleaner paths scripts w count
  | .inr g => protocol.Sound w g ∧
    ∀ path, ¬ uses path → w.store.isFile path = (removed store paths).isFile path

def cleaningIdle (cleaner : Agent) : Nat ⊕ protocol.Ghost → Agent → Prop
  | .inl _, a => a ≠ cleaner
  | .inr g, a => protocol.idle g a

/-- After the removal the turns of the start are left. -/
def cleaningRank (paths : List Path) (start : protocol.Ghost) : Nat ⊕ protocol.Ghost → Nat
  | .inl count => paths.length - count + 1 + protocol.rank start
  | .inr g => protocol.rank g

variable {protocol} {g : Nat ⊕ protocol.Ghost} {start : protocol.Ghost} {announcement : Path}

theorem CleaningSound.turn (h : protocol.CleaningSound store cleaner paths w g)
    (hNodup : paths.Nodup) (hFiles : ∀ path ∈ paths, store.isFile path = true)
    (hStart : protocol.Sound (FileScript.start (removed store paths) scripts) start)
    (hMissing : store.isFile announcement = false)
    (hWaits : ∀ a, a ≠ cleaner → Waits announcement (scripts a)) (a : Agent) :
    (protocol.cleaningIdle cleaner g a ∧ FileScript.turn w a = w) ∨
      ∃ g', protocol.CleaningSound store cleaner paths (FileScript.turn w a) g' ∧
        protocol.cleaningRank paths start g' < protocol.cleaningRank paths start g := by
  cases g with
  | inl count =>
    have hClearing : Clearing store cleaner paths scripts w count := h
    by_cases ha : a = cleaner
    · subst ha
      rcases Nat.lt_or_eq_of_le hClearing.count_le with hCount | rfl
      · refine .inr ⟨.inl (count + 1), hClearing.remove hCount hNodup hFiles, ?_⟩
        simp only [cleaningRank]
        omega
      · refine .inr ⟨.inr start, ?_, ?_⟩
        · rw [hClearing.finish]
          exact ⟨hStart, fun _ _ => rfl⟩
        · simp only [cleaningRank]
          omega
    · exact .inl ⟨ha, hClearing.wait hMissing ha (hWaits a ha)⟩
  | inr g =>
    obtain ⟨hSound, hOthers⟩ := h
    rcases protocol.turn hSound a with hIdle | ⟨g', hSound', hLess⟩
    · exact .inl hIdle
    · refine .inr ⟨.inr g', ⟨hSound', fun path hUses => ?_⟩, hLess⟩
      rw [(protocol.keeps hSound a path hUses).isFile, hOthers path hUses]

theorem CleaningSound.outcome (h : protocol.CleaningSound store cleaner paths w g)
    (hWaits : ∀ a, a ≠ cleaner → Waits announcement (scripts a)) (a : Agent) :
    (w.party a).Outcome (result a) (events a) := by
  cases g with
  | inl count =>
    by_cases ha : a = cleaner
    · subst ha
      rw [Clearing.own h]
      exact ⟨rfl, List.nil_prefix, nofun⟩
    · have hWait := hWaits a ha
      rw [Clearing.others h a ha]
      generalize scripts a = script at hWait
      cases script with
      | run => exact ⟨rfl, List.nil_prefix, nofun⟩
      | _ => cases hWait
  | inr g => exact protocol.outcome h.1 a

theorem CleaningSound.ends (h : protocol.CleaningSound store cleaner paths w g)
    (hIdle : ∀ a, protocol.cleaningIdle cleaner g a) (a : Agent) :
    (w.party a).result.isSome := by
  cases g with
  | inl count => exact absurd rfl (hIdle cleaner)
  | inr g => exact protocol.ends h.1 (fun b => .inr (hIdle b)) a

/-- Who has ended has followed the protocol. -/
theorem CleaningSound.of_ended (h : protocol.CleaningSound store cleaner paths w g)
    (hWaits : ∀ a, a ≠ cleaner → Waits announcement (scripts a)) {a : Agent}
    (hEnded : (w.party a).result.isSome) : ∃ g, protocol.CleaningSound store cleaner paths w (.inr g) := by
  cases g with
  | inl count =>
    by_cases ha : a = cleaner
    · subst ha
      rw [Clearing.own h] at hEnded
      cases hEnded
    · have hWait := hWaits a ha
      rw [Clearing.others h a ha] at hEnded
      generalize scripts a = script at hWait hEnded
      cases script with
      | run => cases hEnded
      | _ => cases hWait
  | inr g => exact ⟨g, h⟩

theorem cleaningSound_start (protocol : Protocol scripts result events uses)
    (hAll : ∀ path, uses path → store.isFile path = true → path ∈ paths) :
    ∃ start, protocol.Sound (FileScript.start (removed store paths) scripts) start := by
  apply protocol.start
  intro path hUses
  rw [isFile_removed]
  cases hFile : store.isFile path with
  | false => exact Bool.and_false _
  | true => simp [hAll path hUses hFile]

/-- The cleaner finds all files of the protocol that are already there. -/
theorem completes_cleaning (protocol : Protocol scripts result events uses)
    (hNodup : paths.Nodup) (hFiles : ∀ path ∈ paths, store.isFile path = true)
    (hAll : ∀ path, uses path → store.isFile path = true → path ∈ paths)
    (hMissing : store.isFile announcement = false)
    (hWaits : ∀ a, a ≠ cleaner → Waits announcement (scripts a)) :
    Completes (FileScript.start store (cleaning cleaner paths scripts)) result events := by
  obtain ⟨start, hStart⟩ := cleaningSound_start protocol hAll
  exact completes_of_ghost (P := protocol.CleaningSound store cleaner paths)
    (fun _ _ a h => h.turn hNodup hFiles hStart hMissing hWaits a)
    (show protocol.CleaningSound store cleaner paths _ (.inl 0) from clearing_start)
    (fun h => h.outcome hWaits) fun h => h.ends

/-- When all agents have ended, only files are left that the protocol does not use and that the cleaner
has not removed. One agent is enough, when it ends after the others have no more files. -/
theorem gone_cleaning (protocol : Protocol scripts result events uses)
    (hNodup : paths.Nodup) (hFiles : ∀ path ∈ paths, store.isFile path = true)
    (hAll : ∀ path, uses path → store.isFile path = true → path ∈ paths)
    (hMissing : store.isFile announcement = false)
    (hWaits : ∀ a, a ≠ cleaner → Waits announcement (scripts a)) (schedule : List Agent) {a : Agent}
    (hEnded : ((run (FileScript.start store (cleaning cleaner paths scripts)) schedule).party
      a).result.isSome)
    (hOthers : protocol.Settles ∨ ∀ b,
      ((run (FileScript.start store (cleaning cleaner paths scripts)) schedule).party
        b).result.isSome)
    {path : Path} (hPath : uses path ∨ (removed store paths).isFile path = false) :
    (run (FileScript.start store (cleaning cleaner paths scripts)) schedule).store.isFile path =
      false := by
  obtain ⟨start, hStart⟩ := cleaningSound_start protocol hAll
  obtain ⟨g, hSound⟩ := run_ghost (P := protocol.CleaningSound store cleaner paths)
    (fun _ _ a h => h.turn hNodup hFiles hStart hMissing hWaits a)
    (show protocol.CleaningSound store cleaner paths _ (.inl 0) from clearing_start) schedule
  obtain ⟨g, hProtocol, hKept⟩ := hSound.of_ended hWaits hEnded
  by_cases hUses : uses path
  · rcases hOthers with hSettles | hAllEnded
    · exact hSettles hProtocol hEnded path hUses
    · exact protocol.leaves hProtocol hAllEnded path hUses
  · rw [hKept path hUses]
    exact hPath.resolve_left hUses

end Protocol

end Removal

end FileScript

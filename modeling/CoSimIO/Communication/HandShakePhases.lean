import CoSimIO.Communication.HandShake

/-! # The two files of the handshake

Each side goes through phases: it writes its own file, announces it, waits for the file of the
other side, reads and removes it. `Moves` says which file-system step is right in which phase.
-/

namespace CoSimIO.HandShake

open FileProcess

set_option autoImplicit false

inductive Phase
  | clear
  | drafting (written : Text)
  | written
  | announced
  | found
  | holding
  | reading (position : Nat)
  | loaded
  | accepted
  | done

namespace Phase

/-- What the own file contains, if the other side has not removed it. -/
def draft (mine : Text) : Phase → Option Text
  | clear => none
  | drafting text => some text
  | _ => some mine

def announces : Phase → Bool
  | clear | drafting _ | written => false
  | _ => true

/-- The other side has announced its file. -/
def finds : Phase → Bool
  | clear | drafting _ | written | announced => false
  | _ => true

/-- The announcement of the other side is removed. -/
def takes : Phase → Bool
  | holding | reading _ | loaded | accepted | done => true
  | _ => false

/-- The file of the other side is removed. -/
def removes : Phase → Bool
  | done => true
  | _ => false

variable {phase : Phase}

theorem not_finds (h : phase.announces = false) : phase.finds = false := by
  cases phase with
  | clear => rfl
  | drafting => rfl
  | written => rfl
  | _ => nomatch h

theorem not_takes (h : phase.finds = false) : phase.takes = false := by
  cases phase with
  | clear => rfl
  | drafting => rfl
  | written => rfl
  | announced => rfl
  | _ => nomatch h

theorem not_removes (h : phase.finds = false) : phase.removes = false := by
  cases phase with
  | done => nomatch h
  | _ => rfl

theorem draft_of_announces (mine : Text) (h : phase.announces = true) :
    phase.draft mine = some mine := by
  cases phase with
  | clear => nomatch h
  | drafting => nomatch h
  | _ => rfl

end Phase

variable (c : Communication) (data : Side → Text)

/-- The files of a side and those of the other side, which are in their own phases. -/
structure Files (side : Side) (store : Store Text Char) (mine theirs : Phase) : Prop where
  file : store.file (infoFile c side) =
    if theirs.removes then none else mine.draft (data side)
  otherFile : store.file (infoFile c side.other) =
    if mine.removes then none else theirs.draft (data side.other)
  avail : store.isFile (Communication.availFile (infoFile c side)) =
    (mine.announces && !theirs.takes)
  otherAvail : store.isFile (Communication.availFile (infoFile c side.other)) =
    (theirs.announces && !mine.takes)
  order : mine.finds = true → theirs.announces = true
  otherOrder : theirs.finds = true → mine.announces = true

/-- The open file of a side and what it has read. -/
def Holds (side : Side) (store : Store Text Char) (process : Process Text Char) : Phase → Prop
  | .clear => process.handle = none ∧ process.buffer = []
  | .drafting text => ∃ inode, store.entry (infoFile c side) = some inode ∧
      process.handle = some (inode, text.length) ∧ process.buffer = []
  | .reading position => ∃ inode, store.entry (infoFile c side.other) = some inode ∧
      process.handle = some (inode, position) ∧
      process.buffer = (data side.other).take position
  | .loaded => process.buffer = data side.other
  | .accepted => True
  | .done => True
  | _ => process.buffer = []

inductive Moves (side : Side) : Phase → Step → Phase → Prop
  | waitRemoved : Moves side .clear (.waitRemoved (infoFile c side)) .clear
  | tryOpen : Moves side .clear (.openExisting (infoFile c side)) .clear
  | create : Moves side .clear (.createUnlessOpen (infoFile c side)) (.drafting [])
  | requireCreated (text : Text) : Moves side (.drafting text) .requireOpen (.drafting text)
  | write (text bytes : Text) :
      Moves side (.drafting text) (.write bytes) (.drafting (text ++ bytes))
  | closeWritten : Moves side (.drafting (data side)) .close .written
  | permissions : Moves side .written (.permissions (infoFile c side)) .written
  | announce :
      Moves side .written (.create (Communication.availFile (infoFile c side))) .announced
  | closeAnnounced : Moves side .announced .close .announced
  | find :
      Moves side .announced (.waitExists (Communication.availFile (infoFile c side.other))) .found
  | removeAvail :
      Moves side .found (.remove (Communication.availFile (infoFile c side.other)) 5) .holding
  | openReceived : Moves side .holding (.openExisting (infoFile c side.other)) (.reading 0)
  | stayOpen (position : Nat) :
      Moves side (.reading position) (.createUnlessOpen (infoFile c side.other)) (.reading position)
  | requireReceived (position : Nat) :
      Moves side (.reading position) .requireOpen (.reading position)
  | readSome (position count : Nat) :
      Moves side (.reading position) (.readSome count) (.reading (position + count))
  | readAll (position : Nat) : Moves side (.reading position) .readAll .loaded
  | closeReceived : Moves side .loaded .close .loaded
  | removeReceived : Moves side .accepted (.remove (infoFile c side.other) 5) .done

section Paths

theorem infoFile_ne_other (side : Side) : infoFile c side ≠ infoFile c side.other := by
  cases side with
  | primary =>
    intro h
    exact absurd (List.append_cancel_left (c.getFileName_injective h)) (by decide)
  | secondary =>
    intro h
    exact absurd (List.append_cancel_left (c.getFileName_injective h)) (by decide)

theorem infoFile_getLast? (side : Side) : (infoFile c side).getLast? = some 't' := by
  cases side with
  | primary => exact c.getFileName_getLast? _ _
  | secondary => exact c.getFileName_getLast? _ _

theorem availFile_ne_infoFile (side : Side) (path : Text) :
    Communication.availFile path ≠ infoFile c side := by
  intro h
  have hLast := congrArg List.getLast? h
  rw [Communication.availFile_getLast?, infoFile_getLast?] at hLast
  nomatch hLast

theorem availFile_ne_other (side : Side) : Communication.availFile (infoFile c side) ≠
    Communication.availFile (infoFile c side.other) :=
  fun h => infoFile_ne_other c side (List.append_cancel_right h)

end Paths

/-- What a right move does to the files and to the two sides. -/
structure Moved (side : Side) (store : Store Text Char) (process : Process Text Char)
    (rest : List Step) (theirs next : Phase) (store' : Store Text Char)
    (process' : Process Text Char) : Prop where
  rest : process'.rest = rest
  failed : process'.failed = process.failed
  files : Files c data side store' next theirs
  holds : Holds c data side store' process' next
  others : ∀ partner : Process Text Char, Holds c data side.other store partner theirs →
    Holds c data side.other store' partner theirs

section Moves

variable {c data} {side : Side} {store store' : Store Text Char} {process : Process Text Char}
  {mine theirs next : Phase} {instruction : Step} {rest : List Step}

theorem Files.symm (h : Files c data side store mine theirs) :
    Files c data side.other store theirs mine where
  file := h.otherFile
  otherFile := by rw [Side.other_other]; exact h.file
  avail := h.otherAvail
  otherAvail := by rw [Side.other_other]; exact h.avail
  order := h.otherOrder
  otherOrder := h.order

theorem Files.not_finds (h : Files c data side store mine theirs)
    (hAnnounces : mine.announces = false) : theirs.finds = false := by
  cases hFinds : theirs.finds with
  | false => rfl
  | true => rw [h.otherOrder hFinds] at hAnnounces; nomatch hAnnounces

theorem Files.own (h : Files c data side store mine theirs) (hAnnounces : mine.announces = false) :
    store.file (infoFile c side) = mine.draft (data side) := by
  rw [h.file, Phase.not_removes (h.not_finds hAnnounces)]
  rfl

theorem Files.received (h : Files c data side store mine theirs) (hFinds : mine.finds = true)
    (hRemoves : mine.removes = false) :
    store.file (infoFile c side.other) = some (data side.other) := by
  rw [h.otherFile, hRemoves]
  exact Phase.draft_of_announces _ (h.order hFinds)

theorem Files.congr (h : Files c data side store mine theirs)
    (hDraft : next.draft (data side) = mine.draft (data side))
    (hAnnounces : next.announces = mine.announces) (hTakes : next.takes = mine.takes)
    (hRemoves : next.removes = mine.removes)
    (hOrder : next.finds = true → theirs.announces = true) :
    Files c data side store next theirs where
  file := by rw [hDraft, h.file]
  otherFile := by rw [hRemoves, h.otherFile]
  avail := by rw [hAnnounces, h.avail]
  otherAvail := by rw [hTakes, h.otherAvail]
  order := hOrder
  otherOrder := by rw [hAnnounces]; exact h.otherOrder

theorem Holds.of_keeps (h : Holds c data side store process mine)
    (hOwn : mine.announces = false → Store.Keeps store store' (infoFile c side))
    (hOther : mine.finds = true → Store.Keeps store store' (infoFile c side.other)) :
    Holds c data side store' process mine := by
  cases mine with
  | drafting text =>
    obtain ⟨inode, hEntry, hHandle⟩ := h
    exact ⟨inode, (hOwn rfl).entry.trans hEntry, hHandle⟩
  | reading position =>
    obtain ⟨inode, hEntry, hHandle⟩ := h
    exact ⟨inode, (hOther rfl).entry.trans hEntry, hHandle⟩
  | _ => exact h

/-- While a side writes its file, only this file changes. -/
theorem Files.rewrite (h : Files c data side store mine theirs) (hMine : mine.announces = false)
    (hNext : next.announces = false)
    (hFile : store'.file (infoFile c side) = next.draft (data side))
    (hKeeps : ∀ path, path ≠ infoFile c side → Store.Keeps store store' path) :
    Files c data side store' next theirs where
  file := by
    rw [hFile, Phase.not_removes (h.not_finds hMine)]
    rfl
  otherFile := by
    rw [(hKeeps _ (infoFile_ne_other c side).symm).file, h.otherFile,
      Phase.not_removes (Phase.not_finds hMine), Phase.not_removes (Phase.not_finds hNext)]
  avail := by rw [(hKeeps _ (availFile_ne_infoFile c side _)).isFile, h.avail, hMine, hNext]
  otherAvail := by
    rw [(hKeeps _ (availFile_ne_infoFile c side _)).isFile, h.otherAvail,
      Phase.not_takes (Phase.not_finds hMine), Phase.not_takes (Phase.not_finds hNext)]
  order := by
    rw [Phase.not_finds hNext]
    nofun
  otherOrder := by
    rw [h.not_finds hMine]
    nofun

theorem Files.announce (h : Files c data side store .written theirs) :
    Files c data side (store.create (Communication.availFile (infoFile c side))).2
      .announced theirs where
  file := by
    rw [(Store.keeps_create store (availFile_ne_infoFile c side _).symm).file, h.file]
    rfl
  otherFile := by
    rw [(Store.keeps_create store (availFile_ne_infoFile c side.other _).symm).file, h.otherFile]
    rfl
  avail := by
    rw [Store.isFile_create, decide_eq_true rfl, Phase.not_takes (h.not_finds rfl)]
    rfl
  otherAvail := by
    rw [(Store.keeps_create store (availFile_ne_other c side).symm).isFile, h.otherAvail]
    rfl
  order := nofun
  otherOrder := fun _ => rfl

theorem Files.removeAvail (h : Files c data side store .found theirs) :
    Files c data side (store.remove (Communication.availFile (infoFile c side.other)))
      .holding theirs where
  file := by
    rw [(Store.keeps_remove store (availFile_ne_infoFile c side _).symm).file, h.file]
    rfl
  otherFile := by
    rw [(Store.keeps_remove store (availFile_ne_infoFile c side.other _).symm).file, h.otherFile]
    rfl
  avail := by
    rw [(Store.keeps_remove store (availFile_ne_other c side)).isFile, h.avail]
    rfl
  otherAvail := by
    rw [Store.isFile_remove, decide_eq_true rfl, h.order rfl]
    rfl
  order := fun _ => h.order rfl
  otherOrder := fun _ => rfl

theorem Files.remove (h : Files c data side store .accepted theirs) :
    Files c data side (store.remove (infoFile c side.other)) .done theirs where
  file := by
    rw [(Store.keeps_remove store (infoFile_ne_other c side)).file, h.file]
    rfl
  otherFile := Store.file_remove_self _ _
  avail := by
    rw [(Store.keeps_remove store (availFile_ne_infoFile c side.other _)).isFile, h.avail]
    rfl
  otherAvail := by
    rw [(Store.keeps_remove store (availFile_ne_infoFile c side.other _)).isFile, h.otherAvail]
    rfl
  order := fun _ => h.order rfl
  otherOrder := fun _ => rfl

theorem Holds.of_avail {writer : Side} {partner : Process Text Char}
    (h : Holds c data side.other store partner theirs)
    (hKeeps : ∀ path, path ≠ Communication.availFile (infoFile c writer) →
      Store.Keeps store store' path) : Holds c data side.other store' partner theirs :=
  h.of_keeps (fun _ => hKeeps _ (availFile_ne_infoFile c _ _).symm)
    fun _ => hKeeps _ (availFile_ne_infoFile c _ _).symm

theorem Holds.of_rewrite {partner : Process Text Char}
    (h : Holds c data side.other store partner theirs)
    (hFiles : Files c data side store mine theirs) (hMine : mine.announces = false)
    (hKeeps : ∀ path, path ≠ infoFile c side → Store.Keeps store store' path) :
    Holds c data side.other store' partner theirs := by
  apply h.of_keeps
  · intro _
    exact hKeeps _ (infoFile_ne_other c side).symm
  · intro hFinds
    rw [hFiles.not_finds hMine] at hFinds
    nomatch hFinds

theorem Files.readable (h : Files c data side store mine theirs) (hFinds : mine.finds = true)
    (hRemoves : mine.removes = false) {inode : Nat}
    (hEntry : store.entry (infoFile c side.other) = some inode) :
    store.content inode = data side.other := by
  have hFile := h.received hFinds hRemoves
  rw [Store.file, hEntry] at hFile
  exact Option.some.inj hFile

/-- No right move fails. Only the wait for the other side takes more than one turn. -/
theorem Moves.exec (hMove : Moves c data side mine instruction next)
    (hFiles : Files c data side store mine theirs) (hHolds : Holds c data side store process mine)
    (hRest : process.rest = instruction :: rest) :
    Moved c data side store process rest theirs next
        (FileProcess.exec store process).1 (FileProcess.exec store process).2 ∨
      (mine = .announced ∧ theirs.announces = false ∧
        FileProcess.exec store process = (store, process)) := by
  cases hMove with
  | waitRemoved =>
    have hMissing : store.isFile (infoFile c side) = false := by
      rw [Store.isFile_eq_isSome, hFiles.own rfl]
      rfl
    simp only [FileProcess.exec, hRest, hMissing, Bool.false_eq_true, if_false]
    exact .inl ⟨rfl, rfl, hFiles, hHolds, fun _ h => h⟩
  | tryOpen =>
    have hMissing : store.entry (infoFile c side) = none := by
      simpa [Store.file, Phase.draft] using hFiles.own rfl
    simp only [FileProcess.exec, hRest, hMissing]
    exact .inl ⟨rfl, rfl, hFiles, ⟨rfl, hHolds.2⟩, fun _ h => h⟩
  | create =>
    obtain ⟨hHandle, hBuffer⟩ := hHolds
    simp only [FileProcess.exec, hRest, hHandle]
    refine .inl ⟨rfl, rfl, hFiles.rewrite rfl rfl (Store.file_create_self _ _) ?_,
      ⟨_, Store.entry_create_self _ _, rfl, hBuffer⟩, fun _ h => h.of_rewrite hFiles rfl ?_⟩
    · exact fun _ hOther => Store.keeps_create store hOther
    · exact fun _ hOther => Store.keeps_create store hOther
  | requireCreated text =>
    obtain ⟨inode, hEntry, hHandle, hBuffer⟩ := hHolds
    simp only [FileProcess.exec, hRest, hHandle, Option.isSome_some, if_true]
    exact .inl ⟨rfl, rfl, hFiles, ⟨inode, hEntry, rfl, hBuffer⟩, fun _ h => h⟩
  | write text bytes =>
    obtain ⟨inode, hEntry, hHandle, hBuffer⟩ := hHolds
    have hWritten := Store.file_write_self hEntry (hFiles.own rfl) bytes
    have hKeeps : ∀ path, path ≠ infoFile c side →
        Store.Keeps store (store.write inode text.length bytes) path :=
      fun _ hOther => Store.keeps_write hEntry hOther _ _
    simp only [FileProcess.exec, hRest, hHandle]
    exact .inl ⟨rfl, rfl, hFiles.rewrite rfl rfl hWritten hKeeps,
      ⟨inode, hEntry, by rw [List.length_append], hBuffer⟩,
      fun _ h => h.of_rewrite hFiles rfl hKeeps⟩
  | closeWritten =>
    obtain ⟨inode, hEntry, hHandle, hBuffer⟩ := hHolds
    simp only [FileProcess.exec, hRest]
    exact .inl ⟨rfl, rfl, hFiles.congr rfl rfl rfl rfl fun h => absurd h Bool.false_ne_true,
      hBuffer, fun _ h => h⟩
  | permissions =>
    have hFile : store.isFile (infoFile c side) = true := by
      rw [Store.isFile_eq_isSome, hFiles.own rfl]
      rfl
    simp only [FileProcess.exec, hRest, hFile, if_true]
    exact .inl ⟨rfl, rfl, hFiles, hHolds, fun _ h => h⟩
  | announce =>
    simp only [FileProcess.exec, hRest]
    exact .inl ⟨rfl, rfl, hFiles.announce, hHolds,
      fun _ h => h.of_avail fun _ hOther => Store.keeps_create store hOther⟩
  | closeAnnounced =>
    simp only [FileProcess.exec, hRest]
    exact .inl ⟨rfl, rfl, hFiles, hHolds, fun _ h => h⟩
  | find =>
    cases hTheirs : theirs.announces with
    | false =>
      have hFile : store.isFile (Communication.availFile (infoFile c side.other)) = false := by
        rw [hFiles.otherAvail, hTheirs]
        rfl
      refine .inr ⟨rfl, rfl, ?_⟩
      simp only [FileProcess.exec, hRest, hFile, Bool.false_eq_true, if_false]
    | true =>
      have hFile : store.isFile (Communication.availFile (infoFile c side.other)) = true := by
        rw [hFiles.otherAvail, hTheirs]
        rfl
      simp only [FileProcess.exec, hRest, hFile, if_true]
      exact .inl ⟨rfl, rfl, hFiles.congr rfl rfl rfl rfl fun _ => hTheirs, hHolds, fun _ h => h⟩
  | removeAvail =>
    have hFile : store.isFile (Communication.availFile (infoFile c side.other)) = true := by
      rw [hFiles.otherAvail, hFiles.order rfl]
      rfl
    simp only [FileProcess.exec, hRest, hFile, if_true]
    exact .inl ⟨rfl, rfl, hFiles.removeAvail, hHolds,
      fun _ h => h.of_avail fun _ hOther => Store.keeps_remove store hOther⟩
  | openReceived =>
    obtain ⟨inode, hEntry, -⟩ := Option.map_eq_some_iff.mp (hFiles.received rfl rfl)
    simp only [FileProcess.exec, hRest, hEntry]
    exact .inl ⟨rfl, rfl, hFiles.congr rfl rfl rfl rfl hFiles.order, ⟨inode, hEntry, rfl, hHolds⟩,
      fun _ h => h⟩
  | stayOpen position =>
    obtain ⟨inode, hEntry, hHandle, hBuffer⟩ := hHolds
    simp only [FileProcess.exec, hRest, hHandle]
    exact .inl ⟨rfl, rfl, hFiles, ⟨inode, hEntry, rfl, hBuffer⟩, fun _ h => h⟩
  | requireReceived position =>
    obtain ⟨inode, hEntry, hHandle, hBuffer⟩ := hHolds
    simp only [FileProcess.exec, hRest, hHandle, Option.isSome_some, if_true]
    exact .inl ⟨rfl, rfl, hFiles, ⟨inode, hEntry, rfl, hBuffer⟩, fun _ h => h⟩
  | readSome position count =>
    obtain ⟨inode, hEntry, hHandle, hBuffer⟩ := hHolds
    simp only [FileProcess.exec, hRest, hHandle]
    refine .inl ⟨rfl, rfl, hFiles.congr rfl rfl rfl rfl hFiles.order, ⟨inode, hEntry, rfl, ?_⟩,
      fun _ h => h⟩
    rw [hFiles.readable rfl rfl hEntry, hBuffer, List.take_add]
  | readAll position =>
    obtain ⟨inode, hEntry, hHandle, hBuffer⟩ := hHolds
    simp only [FileProcess.exec, hRest, hHandle]
    refine .inl ⟨rfl, rfl, hFiles.congr rfl rfl rfl rfl hFiles.order, ?_, fun _ h => h⟩
    simp only [Holds, hFiles.readable rfl rfl hEntry, hBuffer, List.take_append_drop]
  | closeReceived =>
    simp only [FileProcess.exec, hRest]
    exact .inl ⟨rfl, rfl, hFiles, hHolds, fun _ h => h⟩
  | removeReceived =>
    have hFile : store.isFile (infoFile c side.other) = true := by
      rw [Store.isFile_eq_isSome, hFiles.received rfl rfl]
      rfl
    simp only [FileProcess.exec, hRest, hFile, if_true]
    refine .inl ⟨rfl, rfl, hFiles.remove, trivial, fun _ h => h.of_keeps ?_ ?_⟩
    · intro hTheirs
      rw [hFiles.order rfl] at hTheirs
      cases hTheirs
    · intro _
      rw [Side.other_other]
      exact Store.keeps_remove store (infoFile_ne_other c side)

end Moves

end CoSimIO.HandShake

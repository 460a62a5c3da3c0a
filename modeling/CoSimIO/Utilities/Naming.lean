import CoSimIO.Communication.FileCommunication
import CoSimIO.Serializer.Stream
import Mathlib.Data.List.Basic

/-! # The names of connections, folders and data files

The entries are joined with underscores, which they may have inside. What is left of the
entries in a name is the sequence of the words between the underscores.
-/

namespace CoSimIO.Naming

open Utilities

set_option autoImplicit false

/-- Two partners, an identifier and a rank that pass the checks of the settings. -/
structure Entries where
  myName : Text
  connectTo : Text
  identifier : Text
  rank : Int32
  checkMyName : checkEntry myName "my_name".toList = .ok ()
  checkConnectTo : checkEntry connectTo "connect_to".toList = .ok ()
  checkIdentifier : checkEntry identifier "identifier".toList = .ok ()
  distinct : myName ≠ connectTo

namespace Entries

variable (e : Entries)

def connectionName : Text := createConnectionName e.myName e.connectTo

/-- The communication of one rank. The other settings do not change the name of the file. -/
def fileCommunication (workingDirectory : Text) (commInFolder : Bool) : FileCommunication where
  connectionName := e.connectionName
  commFolder := Communication.appendPath workingDirectory
    (".CoSimIOComm_".toList ++ e.connectionName)
  commInFolder := commInFolder
  rank := Serializer.integerText e.rank.toInt
  useAuxFileForFileAvailability := false
  useFileSerializer := true
  alwaysUseSerializer := false

def dataPath (workingDirectory : Text) (commInFolder : Bool) : Text :=
  (e.fileCommunication workingDirectory commInFolder).dataFile e.identifier

/-- The names in the order in which they are joined. -/
def names : List Text :=
  if e.myName < e.connectTo then [e.myName, e.connectTo] else [e.connectTo, e.myName]

def SamePair (e e' : Entries) : Prop :=
  (e.myName = e'.myName ∧ e.connectTo = e'.connectTo) ∨
    (e.myName = e'.connectTo ∧ e.connectTo = e'.myName)

end Entries

/-- What lies between the underscores. -/
def words (entry : Text) : List Text := entry.splitOn '_'

/-- The same words, cut into other entries. -/
def Recut (entries entries' : List Text) : Prop :=
  entries ≠ entries' ∧ entries.flatMap words = entries'.flatMap words

/-- Different partners have different names, the same have the same, and one path belongs to
one pair, identifier and rank. -/
structure CollisionFree (workingDirectory : Text) (e e' : Entries) (inFolder inFolder' : Bool) :
    Prop where
  connectionName : e.connectionName = e'.connectionName ↔ e.SamePair e'
  dataPath : e.dataPath workingDirectory inFolder = e'.dataPath workingDirectory inFolder' →
    e.SamePair e' ∧ e.identifier = e'.identifier ∧ e.rank = e'.rank

section Words

theorem words_join (entry entry' : Text) : words (entry ++ '_' :: entry') = words entry ++ words entry' :=
  List.splitOn_append_cons_self _ _

theorem words_injective {entry entry' : Text} (h : words entry = words entry') : entry = entry' := by
  have hJoined := congrArg (List.intercalate ['_']) h
  rwa [words, words, List.intercalate_splitOn, List.intercalate_splitOn] at hJoined

variable {e e' : Entries}

theorem words_connectionName : words e.connectionName = e.names.flatMap words := by
  rw [Entries.connectionName, createConnectionName, Entries.names]
  split <;> simp [words_join]

theorem names_eq_iff : e.names = e'.names ↔ e.SamePair e' := by
  have hDistinct := e.distinct
  rw [Entries.names, Entries.names, Entries.SamePair]
  constructor
  · rintro h
    split at h <;> split at h <;> simp at h <;> simp [h]
  · rintro (⟨hMy, hTo⟩ | ⟨hMy, hTo⟩)
    · rw [hMy, hTo]
    · rw [← hMy, ← hTo]
      split
      · next hLt => rw [if_neg (List.lt_asymm hLt)]
      · next hNot =>
        have hLt : e.connectTo < e.myName := by
          by_contra hNot'
          exact hDistinct (List.le_antisymm hNot' hNot)
        rw [if_pos hLt]

theorem connectionName_eq_iff : e.connectionName = e'.connectionName ↔
    e.names.flatMap words = e'.names.flatMap words := by
  rw [← words_connectionName, ← words_connectionName]
  exact ⟨congrArg words, words_injective⟩

/-- A connection name tells its partners unless the words can be cut in another way. -/
theorem connectionName_iff : (e.connectionName = e'.connectionName ↔ e.SamePair e') ↔
    ¬ Recut e.names e'.names := by
  rw [connectionName_eq_iff, ← names_eq_iff, Recut]
  constructor
  · rintro h ⟨hNames, hWords⟩
    exact hNames (h.mp hWords)
  · rintro h
    refine ⟨fun hWords => ?_, fun hNames => by rw [hNames]⟩
    by_contra hNames
    exact h ⟨hNames, hWords⟩

end Words

section Paths

variable {e e' : Entries}

theorem slash_notMem_entry {entry key : Text} (h : checkEntry entry key = .ok ()) : '/' ∉ entry :=
  ((checkEntry_eq_ok_iff entry key).mp h).2.2 '/' (by decide)

theorem slash_notMem_connectionName : '/' ∉ e.connectionName := by
  have hMy := slash_notMem_entry e.checkMyName
  have hTo := slash_notMem_entry e.checkConnectTo
  rw [Entries.connectionName, createConnectionName]
  split <;> simp [hMy, hTo]

/-- Neither a slash nor an underscore is in a number. -/
theorem notMem_integerText (n : Int) {c : Char} (hMinus : c ≠ '-') (hDigit : c.isDigit = false) :
    c ∉ Serializer.integerText n := by
  rintro h
  rcases Serializer.mem_integerText h with hSign | hMem
  · exact hMinus hSign
  · rw [hMem] at hDigit
    nomatch hDigit

/-- What a data path says without its folder. -/
def Entries.stem (e : Entries) : Text :=
  e.connectionName ++ '_' :: e.identifier ++ '_' :: Serializer.integerText e.rank.toInt

theorem words_stem : words e.stem = (e.names ++ [e.identifier]).flatMap words ++
    [Serializer.integerText e.rank.toInt] := by
  have hRank : words (Serializer.integerText e.rank.toInt) =
      [Serializer.integerText e.rank.toInt] :=
    List.splitOn_eq_singleton (notMem_integerText _ (by decide) (by decide))
  rw [Entries.stem, words_join, words_join, words_connectionName, hRank, List.flatMap_append]
  simp

theorem stem_eq_iff : e.stem = e'.stem ↔
    (e.names ++ [e.identifier]).flatMap words = (e'.names ++ [e'.identifier]).flatMap words ∧
      e.rank = e'.rank := by
  have hWords : e.stem = e'.stem ↔ words e.stem = words e'.stem :=
    ⟨congrArg words, words_injective⟩
  rw [hWords, words_stem, words_stem]
  constructor
  · rintro h
    obtain ⟨hEntries, hRank⟩ := List.append_inj' h (by simp)
    exact ⟨hEntries, Int32.toInt_inj.mp (Serializer.integerText_injective (List.singleton_inj.mp hRank))⟩
  · rintro ⟨hEntries, hRank⟩
    rw [hEntries, hRank]

theorem slash_notMem_stem : '/' ∉ e.stem := by
  have hRank := notMem_integerText e.rank.toInt (c := '/') (by decide) (by decide)
  have hName := @slash_notMem_connectionName e
  have hIdentifier := slash_notMem_entry e.checkIdentifier
  rw [Entries.stem, List.mem_append, List.mem_append, not_or, not_or]
  exact ⟨⟨hName, List.not_mem_cons_of_ne_of_not_mem (by decide) hIdentifier⟩,
    List.not_mem_cons_of_ne_of_not_mem (by decide) hRank⟩

variable {workingDirectory : Text}

theorem dataPath_flat : e.dataPath workingDirectory false =
    "CoSimIO_data_".toList ++ (e.stem ++ ".dat".toList) := by
  rw [Entries.dataPath, FileCommunication.dataFile_eq, FileCommunication.localName, Entries.stem]
  simp [FileCommunication.folderPrefix, Entries.fileCommunication]

theorem dataPath_folder : e.dataPath workingDirectory true =
    workingDirectory ++ ("/.CoSimIOComm_".toList ++
      (e.connectionName ++ '/' :: ("CoSimIO_data_".toList ++ (e.stem ++ ".dat".toList)))) := by
  rw [Entries.dataPath, FileCommunication.dataFile_eq, FileCommunication.localName, Entries.stem]
  simp [FileCommunication.folderPrefix, Entries.fileCommunication, Communication.appendPath]

theorem dataPath_flat_eq_iff :
    e.dataPath workingDirectory false = e'.dataPath workingDirectory false ↔ e.stem = e'.stem := by
  rw [dataPath_flat, dataPath_flat, List.append_right_inj, List.append_left_inj]

theorem dataPath_folder_eq_iff :
    e.dataPath workingDirectory true = e'.dataPath workingDirectory true ↔
      e.connectionName = e'.connectionName ∧ e.stem = e'.stem := by
  have hFile : '/' ∉ "CoSimIO_data_".toList ++ (e.stem ++ ".dat".toList) := by
    rw [List.mem_append, List.mem_append, not_or, not_or]
    exact ⟨by decide, slash_notMem_stem, by decide⟩
  rw [dataPath_folder, dataPath_folder, List.append_right_inj, List.append_right_inj,
    List.append_cons_inj_of_notMem slash_notMem_connectionName hFile, List.append_right_inj,
    List.append_left_inj]
  simp

/-- Only a path in the folder has a slash. -/
theorem dataPath_ne : e.dataPath workingDirectory true ≠ e'.dataPath workingDirectory false := by
  rintro h
  have hSlash : '/' ∈ e.dataPath workingDirectory true := by
    rw [dataPath_folder]
    simp
  have hStem := @slash_notMem_stem e'
  rw [h, dataPath_flat] at hSlash
  simp [hStem] at hSlash

end Paths

/-- Names are free of collisions unless the words of the two partners, without folder also
those of partners and identifier, can be cut in another way. -/
theorem collisionFree_iff (workingDirectory : Text) (e e' : Entries) (inFolder inFolder' : Bool) :
    CollisionFree workingDirectory e e' inFolder inFolder' ↔
      ¬ Recut e.names e'.names ∧ (inFolder = false → inFolder' = false → e.rank = e'.rank →
        ¬ Recut (e.names ++ [e.identifier]) (e'.names ++ [e'.identifier])) := by
  constructor
  · rintro ⟨hNames, hPath⟩
    refine ⟨connectionName_iff.mp hNames, ?_⟩
    rintro rfl rfl hRank ⟨hEntries, hWords⟩
    obtain ⟨hPair, hIdentifier, -⟩ :=
      hPath (dataPath_flat_eq_iff.mpr (stem_eq_iff.mpr ⟨hWords, hRank⟩))
    rw [names_eq_iff.mpr hPair, hIdentifier] at hEntries
    exact hEntries rfl
  · rintro ⟨hNames, hEntries⟩
    refine ⟨connectionName_iff.mpr hNames, fun hPath => ?_⟩
    cases inFolder with
    | true =>
      cases inFolder' with
      | false => exact absurd hPath dataPath_ne
      | true =>
        obtain ⟨hConnection, hStem⟩ := dataPath_folder_eq_iff.mp hPath
        have hPair := (connectionName_iff.mpr hNames).mp hConnection
        obtain ⟨hWords, hRank⟩ := stem_eq_iff.mp hStem
        rw [List.flatMap_append, List.flatMap_append, names_eq_iff.mpr hPair,
          List.append_right_inj] at hWords
        exact ⟨hPair, words_injective (by simpa using hWords), hRank⟩
    | false =>
      cases inFolder' with
      | true => exact absurd hPath.symm dataPath_ne
      | false =>
        obtain ⟨hWords, hRank⟩ := stem_eq_iff.mp (dataPath_flat_eq_iff.mp hPath)
        have hSame : e.names ++ [e.identifier] = e'.names ++ [e'.identifier] := by
          by_contra hNot
          exact hEntries rfl rfl hRank ⟨hNot, hWords⟩
        obtain ⟨hBoth, hIdentifier⟩ := List.append_inj' hSame rfl
        exact ⟨names_eq_iff.mp hBoth, List.singleton_inj.mp hIdentifier, hRank⟩

/-- The partners `a` and `b_c`. -/
def solvers : Entries where
  myName := "a".toList
  connectTo := "b_c".toList
  identifier := "data".toList
  rank := 0
  checkMyName := by decide
  checkConnectTo := by decide
  checkIdentifier := by decide
  distinct := by decide

/-- The partners `a_b` and `c`. -/
def otherSolvers : Entries where
  myName := "a_b".toList
  connectTo := "c".toList
  identifier := "data".toList
  rank := 0
  checkMyName := by decide
  checkConnectTo := by decide
  checkIdentifier := by decide
  distinct := by decide

/-- Both pairs share the connection name `a_b_c`, and with it their folder and data files. -/
theorem solvers_collide :
    ¬ CollisionFree "wd".toList solvers otherSolvers true true ∧
      solvers.dataPath "wd".toList true = otherSolvers.dataPath "wd".toList true := by
  have hRecut : Recut solvers.names otherSolvers.names := ⟨by decide, by decide⟩
  refine ⟨fun h => ((collisionFree_iff _ _ _ _ _).mp h).1 hRecut, ?_⟩
  rw [dataPath_folder_eq_iff]
  exact ⟨by decide, by decide⟩

end CoSimIO.Naming

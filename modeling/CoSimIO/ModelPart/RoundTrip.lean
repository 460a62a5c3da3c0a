import CoSimIO.ModelPart.Importing
import CoSimIO.Serializer.Writability

/-! # Saving a `ModelPart` and loading it into a new one -/

namespace CoSimIO.ModelPart

open Restore Restore.Writer Sequences Serializer

set_option autoImplicit false

section Writable

variable {cfg : Config} {heap : Heap} {layout : Object → BitVec 64} {tag : Text}

theorem emits_nodePointer (ref : Nat) :
    (saveNodePointer cfg heap layout ref).Emits (Writable cfg) := by
  have hName : ∀ name ∈ (none : Option Text), Writable cfg ⟨.string, name⟩ := by
    intro name h
    cases h
  have hId : Kind.integer .long ≠ .string := by decide
  have hDouble : Kind.double ≠ .string := by decide
  apply emits_savePointer (by decide) hName
  rw [Node.save, emit_append, emit_append, emit_append]
  exact (((emits_save (by decide) (writable_of_kind hId)).andThen
    (emits_save (by decide) (writable_of_kind hDouble))).andThen
      (emits_save (by decide) (writable_of_kind hDouble))).andThen
        (emits_save (by decide) (writable_of_kind hDouble))

theorem emits_elementPointer (ref : Nat) :
    (saveElementPointer cfg heap layout ref).Emits (Writable cfg) := by
  apply emits_savePointer (by decide) (by nofun)
  exact (emits_save (by decide) (writable_of_kind (by nofun))).andThen
    ((emits_save (by decide) (writable_of_kind (by nofun))).andThen
      (emits_saveVector (by decide) fun node _ => emits_nodePointer node))

theorem emits_indexedVector {save : Nat → Saver} {v : IndexedVector} (hTag : PlainTag tag)
    (hElements : ∀ ref, (save ref).Emits (Writable cfg)) :
    (v.save cfg tag save).Emits (Writable cfg) :=
  (emits_point hTag).andThen (emits_saveVector (by decide) fun ref _ => hElements ref)

/-- The names of all parts can be written. -/
def Nameable (cfg : Config) (parts : List ModelPart) : Prop :=
  ∀ part ∈ parts, Writable cfg ⟨.string, part.name⟩

theorem Nameable.mono {parts parts' : List ModelPart} (h : Nameable cfg parts)
    (hSubset : parts' ⊆ parts) : Nameable cfg parts' :=
  fun part hPart => h part (hSubset hPart)

mutual

theorem emits_part : ∀ {part : ModelPart}, Nameable cfg part.parts →
    (part.save cfg heap layout).Emits (Writable cfg)
  | ⟨name, nodes, elements, localPart, ghostPart, partitions⟩, hNames => by
    rw [parts] at hNames
    have hInner := hNames.mono (List.subset_cons_self _ _)
    rw [save]
    refine (emits_save (by decide) (hNames _ List.mem_cons_self)).andThen ?_
    refine (emits_indexedVector (by decide) emits_nodePointer).andThen ?_
    refine (emits_indexedVector (by decide) emits_elementPointer).andThen ?_
    refine (emits_owned (by decide) (hInner.mono ?_)).andThen ?_
    · exact List.subset_append_of_subset_left _ (List.subset_append_left _ _)
    refine (emits_owned (by decide) (hInner.mono ?_)).andThen ?_
    · exact List.subset_append_of_subset_left _ (List.subset_append_right _ _)
    refine (emits_point (by decide)).andThen ?_
    refine (emits_save (by decide) (writable_of_kind (by nofun))).andThen ?_
    exact emits_entries (hInner.mono (List.subset_append_right _ _))

theorem emits_owned : ∀ {owned : Option (Nat × ModelPart)} {tag : Text}, PlainTag tag →
    Nameable cfg (partsOf owned) → (saveOwned cfg heap layout tag owned).Emits (Writable cfg)
  | none, _, _, _ => by
    rw [saveOwned]
    exact emits_emit (List.forall_mem_singleton.mpr (writable_of_kind (by nofun)))
  | some (_, part), _, hTag, hNames => by
    rw [saveOwned]
    exact emits_savePointer hTag (by nofun) (emits_part hNames)

theorem emits_entries : ∀ {entries : List (Int32 × Nat × ModelPart)},
    Nameable cfg (partsOfPartitions entries) →
    (saveEntries cfg heap layout entries).Emits (Writable cfg)
  | [], _ => emits_emit nofun
  | (_, _, part) :: entries, hNames => by
    rw [saveEntries]
    refine (emits_point (by decide)).andThen ?_
    refine (emits_save (by decide) (writable_of_kind (by nofun))).andThen ?_
    refine (emits_savePointer (by decide) (by nofun) ?_).andThen ?_
    · exact emits_part (hNames.mono (List.subset_append_left _ _))
    · exact emits_entries (hNames.mono (List.subset_append_right _ _))

end

end Writable

section RoundTrip

variable {cfg : Config} {layout : Object → BitVec 64} {s : State} {l g : Nat × ModelPart}
  {heap : Heap} {name : Text} {start : Heap × ModelPart} {depth : Nat}

theorem integerText_plain (n : Int) : '"' ∉ integerText n ∧ '\n' ∉ integerText n := by
  constructor
  · intro hMem
    exact absurd (mem_integerText hMem) (by decide)
  · intro hMem
    exact absurd (mem_integerText hMem) (by decide)

/-- Only the name of the part itself is not one of the program. -/
theorem Invariant.nameable (h : Invariant s l g) (hName : Writable cfg ⟨.string, s.part.name⟩) :
    Nameable cfg s.part.parts := by
  refine h.forall_parts (P := fun part => Writable cfg ⟨.string, part.name⟩) hName ?_ ?_ ?_ ?_
  · rw [h.localPart.name]
    exact writable_string fun _ _ => by decide
  · rw [h.ghostPart.name]
    exact writable_string fun _ _ => by decide
  · intro entry hEntry
    rw [(h.partitions entry hEntry).name]
    exact writable_string fun _ _ => integerText_plain _
  · intro name hInternal
    have hPlain : PlainTag name := by
      simp only [List.mem_cons, List.not_mem_nil, or_false] at hInternal
      rcases hInternal with rfl | rfl
      · decide
      · decide
    exact writable_string fun _ _ => hPlain

theorem Invariant.writeAll (h : Invariant s l g) (hName : Writable cfg ⟨.string, s.part.name⟩) :
    ∃ data, writeAll cfg (saveObject cfg layout s) = .ok data := by
  apply writeAll_of_writable
  intro item hItem
  rcases List.mem_append.mp hItem with hPoint | hPart
  · exact writable_tracePoint (by decide) (by decide) item hPoint
  · exact emits_part (h.nameable hName) [] item hPart

theorem matches_of_noPartitions {t : State} (h : t.part.partitionModelParts = []) :
    Matches s t := by
  rw [Matches, h]
  nofun

theorem new_noPartitions (hNew : new heap name = .ok start) : start.2.partitionModelParts = [] := by
  rcases new_cases heap name with ⟨message, hThrows⟩ | ⟨-, -, hStart⟩
  · nomatch hThrows.symm.trans hNew
  · obtain rfl := Except.ok.inj (hStart.symm.trans hNew)
    rfl

/-- In the text modes the name and the coordinates have to be some that these represent. -/
theorem isomorphic_of_load (hReachable : Reachable s) (hLayout : Distinct layout s)
    (hSize : s.part.name.length < 2 ^ 64)
    (hName : cfg.binary = false → '"' ∉ s.part.name ∧ (cfg.debug = true → '\n' ∉ s.part.name))
    (hDoubles : cfg.binary = false → ∀ ref ∈ s.part.nodes.data,
      ∀ x ∈ [(s.heap.nodes ref).x, (s.heap.nodes ref).y, (s.heap.nodes ref).z],
        cfg.doubles.ReadsBack x)
    (hNew : new heap name = .ok start) (rehash : Rehash) (hDepth : 3 ≤ depth) :
    ∃ data r, writeAll cfg (saveObject cfg layout s) = .ok data ∧
      loadObject cfg rehash depth ⟨start.1, start.2⟩ data = .ok r ∧ Isomorphic s r := by
  obtain ⟨l, g, h⟩ := hReachable.invariant
  have hWritable : Writable cfg ⟨.string, s.part.name⟩ :=
    writable_string fun hText hDebug => ⟨(hName hText).1, (hName hText).2 hDebug⟩
  have hData : ∃ data, writeAll cfg (saveObject cfg layout s) = .ok data := h.writeAll hWritable
  obtain ⟨data, hWrite⟩ := hData
  have hFaithful : Faithful cfg .string s.part.name := by
    rw [Faithful]
    split
    · exact hSize
    · next hMode => exact (hName (Bool.eq_false_iff.mpr hMode)).1
  have hSaves : Saves cfg s data := ⟨hReachable,
    ⟨hFaithful, fun ref hRef x hx hText => hDoubles hText ref hRef x hx⟩, layout, hLayout, hWrite⟩
  have hFresh : Imported ⟨start.1, start.2⟩ := .created ⟨heap, name, start, [], hNew, rfl⟩
  obtain ⟨r, hLoad, hIff⟩ := hSaves.isomorphic_iff hFresh rehash hDepth
  exact ⟨data, r, hWrite, hLoad, hIff.mpr (matches_of_noPartitions (new_noPartitions hNew))⟩

theorem twoNodes_fit : ([1, 2] : List Int64).length < 2 ^ 64 := by decide

theorem perm_of_id (parts : List (Int32 × Nat × ModelPart)) : (id parts).Perm parts := .refl _

def lineMesh : State :=
  run ⟨started.1, started.2⟩ [.create (.node ⟨1, 0, 0, 0⟩),
    .create (.ghostNode ⟨2, 0, 0, 0⟩ 3 ⟨id, perm_of_id⟩),
    .create (.element 1 .line2D2 [1, 2] twoNodes_fit)]

theorem isomorphic_of_load_lineMesh : ∃ data r,
    writeAll binaryConfig (saveObject binaryConfig someLayout lineMesh) = .ok data ∧
      loadObject binaryConfig ⟨id, fun _ => .refl _⟩ 3 ⟨started.1, started.2⟩ data = .ok r ∧
      Isomorphic lineMesh r := by
  have hLayout : ∀ a ∈ objects lineMesh, ∀ b ∈ objects lineMesh,
      someLayout a = someLayout b → a = b := by decide
  have hMode : ¬ binaryConfig.binary = false := by decide
  have hNew : new emptyHeap "mp".toList = .ok started := rfl
  exact isomorphic_of_load (reachable_run _) hLayout (by decide)
    (fun hText => absurd hText hMode) (fun hText => absurd hText hMode) hNew
    ⟨id, fun _ => .refl _⟩ (Nat.le_refl 3)

def asciiDebug : Config where
  trace := .ascii
  debug := true
  doubles := fourteenDigits
  uninitialized := 0

def quotedName : Heap × ModelPart :=
  initializeInternalModelParts emptyHeap (internal "a\"b".toList)

/-- The constructor accepts a name that the text modes cannot represent. -/
theorem quoted_name_not_saved : new emptyHeap "a\"b".toList = .ok quotedName ∧
    ∀ layout, writeAll asciiDebug (saveObject asciiDebug layout ⟨quotedName.1, quotedName.2⟩) =
      .error quoteError :=
  ⟨rfl, fun _ => rfl⟩

end RoundTrip

end CoSimIO.ModelPart

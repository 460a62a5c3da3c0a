import CoSimIO.Communication.Files
import Mathlib.Tactic.IntervalCases

/-! # `SynchronizeAll` as a barrier between the two partners

Each partner makes one file of its own and removes the file of the other one. The
invariant counts: a partner is described by the number of calls it returned from
and by the number of steps it made in the current call, and every file exists
exactly from the step that makes it to the step of the other partner that removes it.
-/

namespace CoSimIO.Communication

open FileProcess

set_option autoImplicit false

variable (c : Communication)

def syncFile (side : Side) (tag : Text) : Text :=
  let role := match side with
    | .primary => "CoSimIO_primary_".toList
    | .secondary => "CoSimIO_secondary_".toList
  c.getFileName (role ++ c.connectionName ++ '_' :: tag) "sync".toList

def writeSyncFile (side : Side) (tag : Text) : List Step :=
  let path := c.syncFile side tag
  [.create (c.getTmpFileName path true), .close, .requireExists (c.getTmpFileName path true)] ++
    c.makeFileVisible path true

def consumeSyncFile (side : Side) (tag : Text) : List Step :=
  waitForPath (c.syncFile side tag) true ++ removePath (c.syncFile side tag)

def synchronizeAll (side : Side) (tag : Text) : List Step :=
  match side with
  | .primary =>
    c.writeSyncFile .primary tag ++ c.consumeSyncFile .secondary tag ++
      waitUntilFileIsRemoved (c.syncFile .primary tag)
  | .secondary =>
    c.consumeSyncFile .primary tag ++ c.writeSyncFile .secondary tag ++
      waitUntilFileIsRemoved (c.syncFile .secondary tag)

/-- The sync file of a side and, for `avail`, the file that announces it. -/
def syncPath (side : Side) (avail : Bool) (tag : Text) : Text :=
  if avail then availFile (c.syncFile side tag) else c.syncFile side tag

theorem syncPath_injective {side side' : Side} {avail avail' : Bool} {tag tag' : Text}
    (h : c.syncPath side avail tag = c.syncPath side' avail' tag') :
    side = side' ∧ avail = avail' ∧ tag = tag' := by
  have hAvail : avail = avail' := by
    have hLast := congrArg List.getLast? h
    cases avail <;> cases avail' <;> simp [syncPath, syncFile] at hLast <;> rfl
  subst hAvail
  have hFile : c.syncFile side tag = c.syncFile side' tag' := by
    unfold syncPath availFile at h
    split at h <;> simpa using h
  have hName := c.getFileName_injective hFile
  cases side <;> cases side' <;> simp at hName <;> exact ⟨rfl, rfl, hName⟩

/-- The number of calls in which a partner made the given step, when it made `g % 11`
steps of the current call after `g / 11` complete calls. -/
def happened (g step : Nat) : Nat := (g + 11 - step) / 11

def madeAt : Side → Bool → Nat
  | .primary, false => 1
  | .primary, true => 5
  | .secondary, false => 4
  | .secondary, true => 8

def removedAt : Side → Bool → Nat
  | .primary, true => 2
  | .primary, false => 3
  | .secondary, true => 8
  | .secondary, false => 9

/-- Some call numbered from `first` up to `last` uses the tag. -/
def Used (tags : List Text) (first last : Nat) (tag : Text) : Prop :=
  ∃ m, first ≤ m ∧ m < last ∧ tags[m]? = some tag

structure Files (tags : List Text) (store : Store Text Char) (g : Side → Nat) : Prop where
  exists_iff : ∀ side avail tag, store.isFile (c.syncPath side avail tag) = true ↔
    Used tags (happened (g side.other) (removedAt side avail))
      (happened (g side) (madeAt side avail)) tag

/-- Which steps of one partner come after which steps of the other one. -/
structure Ordered (g : Side → Nat) : Prop where
  secondaryFound : happened (g .secondary) 1 ≤ happened (g .primary) 5
  primaryFound : happened (g .primary) 7 ≤ happened (g .secondary) 8
  primaryReleased : happened (g .primary) 10 ≤ happened (g .secondary) 3
  secondaryReleased : happened (g .secondary) 10 ≤ happened (g .primary) 9

structure Control (tags : List Text) (side : Side) (caller : Caller Text Char Text) (g : Nat) :
    Prop where
  calls : caller.calls = tags
  sound : caller.process.failed = none
  position : match caller.current with
    | none => g = 11 * caller.returned.length
    | some tag => ∃ k, k ≤ 10 ∧ g = 11 * caller.returned.length + k ∧
        tags[caller.returned.length]? = some tag ∧
        caller.process.rest = (c.synchronizeAll side tag).drop k

structure Barrier (tags : List Text) (w : World Side Text Char Text) (g : Side → Nat) : Prop where
  control : ∀ side, c.Control tags side (w.caller side) (g side)
  files : c.Files tags w.store g
  ordered : Ordered g

theorem happened_succ {n k step : Nat} (hk : k < 10) (hStep : 1 ≤ step) (hBound : step ≤ 10) :
    happened (11 * n + (k + 1)) step =
      if step = k + 1 then n + 1 else happened (11 * n + k) step := by
  simp only [happened]
  split <;> omega

theorem happened_now (n k : Nat) : happened (11 * n + k) (k + 1) = n := by
  simp only [happened]
  omega

theorem used_extend {tags : List Text} {first n : Nat} {tag : Text} (hFirst : first ≤ n)
    (hTag : tags[n]? = some tag) (other : Text) :
    Used tags first (n + 1) other ↔ other = tag ∨ Used tags first n other := by
  constructor
  · rintro ⟨m, hLow, hHigh, hm⟩
    rcases Nat.lt_succ_iff_lt_or_eq.mp hHigh with hLt | rfl
    · exact Or.inr ⟨m, hLow, hLt, hm⟩
    · exact Or.inl (Option.some.inj (hm.symm.trans hTag))
  · rintro (rfl | ⟨m, hLow, hHigh, hm⟩)
    · exact ⟨n, hFirst, Nat.lt_succ_self n, hTag⟩
    · exact ⟨m, hLow, Nat.lt_succ_of_lt hHigh, hm⟩

theorem used_single {tags : List Text} {n : Nat} {tag : Text} (hTag : tags[n]? = some tag)
    (other : Text) : Used tags n (n + 1) other ↔ other = tag := by
  rw [used_extend (Nat.le_refl _) hTag, or_iff_left_iff_imp]
  rintro ⟨m, hLow, hHigh, -⟩
  omega

theorem not_used_empty {tags : List Text} {first last : Nat} (h : last ≤ first) (tag : Text) :
    ¬ Used tags first last tag := by
  rintro ⟨m, hLow, hHigh, -⟩
  omega

theorem madeAt_bounds (side : Side) (avail : Bool) :
    1 ≤ madeAt side avail ∧ madeAt side avail ≤ 10 := by
  cases side <;> cases avail <;> decide

theorem removedAt_bounds (side : Side) (avail : Bool) :
    1 ≤ removedAt side avail ∧ removedAt side avail ≤ 10 := by
  cases side <;> cases avail <;> decide

theorem madeAt_injective {side : Side} {avail avail' : Bool}
    (h : madeAt side avail' = madeAt side avail) : avail' = avail := by
  revert h
  cases side <;> cases avail <;> cases avail' <;> decide

theorem removedAt_injective {side : Side} {avail avail' : Bool}
    (h : removedAt side avail' = removedAt side avail) : avail' = avail := by
  revert h
  cases side <;> cases avail <;> cases avail' <;> decide

theorem madeAt_ne_removedAt (side : Side) (avail avail' : Bool) :
    madeAt side avail ≠ removedAt side.other avail' := by
  cases side <;> cases avail <;> cases avail' <;> decide

section Moves

variable {c} {tags : List Text} {store : Store Text Char} {g : Side → Nat} {side : Side}
  {n k : Nat} {tag : Text}

theorem happened_moved (hk : k < 10) (hg : g side = 11 * n + k) {step : Nat} (hStep : 1 ≤ step)
    (hBound : step ≤ 10) :
    happened (Function.update g side (11 * n + (k + 1)) side) step =
      if step = k + 1 then n + 1 else happened (g side) step := by
  rw [Function.update_self, happened_succ hk hStep hBound, hg]

theorem Files.keep (h : c.Files tags store g) (hk : k < 10) (hg : g side = 11 * n + k)
    (hMade : ∀ avail, madeAt side avail ≠ k + 1)
    (hRemoved : ∀ avail, removedAt side.other avail ≠ k + 1) :
    c.Files tags store (Function.update g side (11 * n + (k + 1))) where
  exists_iff side' avail other := by
    rw [h.exists_iff side' avail other]
    rcases Side.eq_or_eq_other side side' with rfl | rfl
    · obtain ⟨hLow, hHigh⟩ := madeAt_bounds side' avail
      rw [happened_moved hk hg hLow hHigh, if_neg (hMade avail), Function.update_of_ne (by simp)]
    · obtain ⟨hLow, hHigh⟩ := removedAt_bounds side.other avail
      rw [Side.other_other, happened_moved hk hg hLow hHigh, if_neg (hRemoved avail),
        Function.update_of_ne (by simp)]

theorem Files.make (h : c.Files tags store g) (hk : k < 10) (hg : g side = 11 * n + k)
    (hTag : tags[n]? = some tag) (avail : Bool) (hMade : madeAt side avail = k + 1)
    (hFirst : happened (g side.other) (removedAt side avail) ≤ n) :
    c.Files tags (store.create (c.syncPath side avail tag)).2
      (Function.update g side (11 * n + (k + 1))) where
  exists_iff side' avail' other := by
    rw [Store.isFile_create, Bool.or_eq_true, h.exists_iff side' avail' other, decide_eq_true_eq]
    rcases Side.eq_or_eq_other side side' with rfl | rfl
    · obtain ⟨hLow, hHigh⟩ := madeAt_bounds side' avail'
      rw [happened_moved hk hg hLow hHigh, Function.update_of_ne (by simp)]
      by_cases hAvail : avail' = avail
      · subst hAvail
        have hNow : happened (g side') (madeAt side' avail') = n := by
          rw [hg, hMade, happened_now]
        rw [if_pos hMade, used_extend hFirst hTag, hNow]
        constructor
        · rintro (hPath | hUsed)
          · exact Or.inl (c.syncPath_injective hPath).2.2
          · exact Or.inr hUsed
        · rintro (rfl | hUsed)
          · exact Or.inl rfl
          · exact Or.inr hUsed
      · rw [if_neg fun hStep => hAvail (madeAt_injective (hStep.trans hMade.symm))]
        exact or_iff_right fun hPath => hAvail (c.syncPath_injective hPath).2.1
    · obtain ⟨hLow, hHigh⟩ := removedAt_bounds side.other avail'
      rw [Side.other_other, happened_moved hk hg hLow hHigh, Function.update_of_ne (by simp),
        if_neg fun hStep => madeAt_ne_removedAt side avail avail' (hMade.trans hStep.symm)]
      exact or_iff_right fun hPath => Side.other_ne side (c.syncPath_injective hPath).1

theorem Files.isFile_of_pending (h : c.Files tags store g) (avail : Bool)
    (hTag : tags[n]? = some tag) (hFirst : happened (g side.other) (removedAt side avail) ≤ n)
    (hLast : n < happened (g side) (madeAt side avail)) :
    store.isFile (c.syncPath side avail tag) = true :=
  (h.exists_iff side avail tag).mpr ⟨n, hFirst, hLast, hTag⟩

theorem Files.remove (h : c.Files tags store g) (hk : k < 10) (hg : g side = 11 * n + k)
    (hTag : tags[n]? = some tag) (avail : Bool) (hRemoved : removedAt side.other avail = k + 1)
    (hLast : happened (g side.other) (madeAt side.other avail) = n + 1) :
    c.Files tags (store.remove (c.syncPath side.other avail tag))
      (Function.update g side (11 * n + (k + 1))) where
  exists_iff side' avail' other := by
    rw [Store.isFile_remove, Bool.and_eq_true, h.exists_iff side' avail' other,
      Bool.not_eq_true', decide_eq_false_iff_not]
    rcases Side.eq_or_eq_other side side' with rfl | rfl
    · obtain ⟨hLow, hHigh⟩ := madeAt_bounds side' avail'
      rw [happened_moved hk hg hLow hHigh, Function.update_of_ne (by simp),
        if_neg fun hStep => madeAt_ne_removedAt side' avail' avail (hStep.trans hRemoved.symm)]
      exact and_iff_right fun hPath => Side.ne_other side' (c.syncPath_injective hPath).1
    · obtain ⟨hLow, hHigh⟩ := removedAt_bounds side.other avail'
      rw [Side.other_other, happened_moved hk hg hLow hHigh, Function.update_of_ne (by simp)]
      by_cases hAvail : avail' = avail
      · subst hAvail
        have hNow : happened (g side) (removedAt side.other avail') = n := by
          rw [hg, hRemoved, happened_now]
        rw [if_pos hRemoved, hNow, hLast, used_single hTag]
        constructor
        · rintro ⟨hPath, rfl⟩
          exact absurd rfl hPath
        · intro hUsed
          exact absurd hUsed (not_used_empty (Nat.le_refl _) other)
      · rw [if_neg fun hStep => hAvail (removedAt_injective (hStep.trans hRemoved.symm))]
        exact and_iff_right fun hPath => hAvail (c.syncPath_injective hPath).2.1

end Moves

theorem synchronizeAll_primary (tag : Text) : c.synchronizeAll .primary tag =
    [.create (c.syncPath .primary false tag), .close,
      .requireExists (c.syncPath .primary false tag), .permissions (c.syncPath .primary false tag),
      .create (c.syncPath .primary true tag), .close,
      .waitExists (c.syncPath .secondary true tag), .remove (c.syncPath .secondary true tag) 5,
      .remove (c.syncPath .secondary false tag) 5, .waitRemoved (c.syncPath .primary false tag)] :=
  rfl

theorem synchronizeAll_secondary (tag : Text) : c.synchronizeAll .secondary tag =
    [.waitExists (c.syncPath .primary true tag), .remove (c.syncPath .primary true tag) 5,
      .remove (c.syncPath .primary false tag) 5, .create (c.syncPath .secondary false tag), .close,
      .requireExists (c.syncPath .secondary false tag),
      .permissions (c.syncPath .secondary false tag), .create (c.syncPath .secondary true tag),
      .close, .waitRemoved (c.syncPath .secondary false tag)] :=
  rfl

theorem synchronizeAll_length (side : Side) (tag : Text) :
    (c.synchronizeAll side tag).length = 10 := by
  cases side <;> rfl

section Moves

variable {c} {tags : List Text} {store : Store Text Char} {g : Side → Nat} {n k : Nat} {tag : Text}

theorem Ordered.movePrimary (h : Ordered g) (hk : k < 10) (hg : g .primary = 11 * n + k)
    (hFound : k + 1 = 7 → n + 1 ≤ happened (g .secondary) 8)
    (hReleased : k + 1 = 10 → n + 1 ≤ happened (g .secondary) 3) :
    Ordered (Function.update g .primary (11 * n + (k + 1))) := by
  obtain ⟨h1, h2, h3, h4⟩ := h
  rw [hg] at h1 h2 h3 h4
  constructor <;> simp only [Function.update_self, Function.update_of_ne, ne_eq, reduceCtorEq,
    not_false_eq_true, happened] at * <;> omega

theorem Ordered.moveSecondary (h : Ordered g) (hk : k < 10) (hg : g .secondary = 11 * n + k)
    (hFound : k + 1 = 1 → n + 1 ≤ happened (g .primary) 5)
    (hReleased : k + 1 = 10 → n + 1 ≤ happened (g .primary) 9) :
    Ordered (Function.update g .secondary (11 * n + (k + 1))) := by
  obtain ⟨h1, h2, h3, h4⟩ := h
  rw [hg] at h1 h2 h3 h4
  constructor <;> simp only [Function.update_self, Function.update_of_ne, ne_eq, reduceCtorEq,
    not_false_eq_true, happened] at * <;> omega

/-- The outcome of one instruction: the poll failed, or the partner is one step further. -/
def Advanced (c : Communication) (tags : List Text) (store : Store Text Char) (g : Side → Nat)
    (side : Side) (tag : Text) (n k : Nat) (p : Process Text Char) : Prop :=
  exec store p = (store, p) ∨
    ((exec store p).2.failed = none ∧
      (exec store p).2.rest = (c.synchronizeAll side tag).drop (k + 1) ∧
      c.Files tags (exec store p).1 (Function.update g side (11 * n + (k + 1))) ∧
      Ordered (Function.update g side (11 * n + (k + 1))))

theorem Files.used_of_isFile (h : c.Files tags store g) {side : Side} {avail : Bool} {tag : Text}
    (hFile : store.isFile (c.syncPath side avail tag) = true) :
    happened (g side.other) (removedAt side avail) < happened (g side) (madeAt side avail) := by
  obtain ⟨m, hLow, hHigh, -⟩ := (h.exists_iff side avail tag).mp hFile
  omega

theorem Files.not_isFile (h : c.Files tags store g) {side : Side} {avail : Bool} {tag : Text}
    (hTag : tags[n]? = some tag) (hLast : n < happened (g side) (madeAt side avail))
    (hFile : ¬ store.isFile (c.syncPath side avail tag) = true) :
    n < happened (g side.other) (removedAt side avail) := by
  apply Nat.lt_of_not_le
  intro hFirst
  exact hFile (h.isFile_of_pending avail hTag hFirst hLast)

theorem advanced_primary {p : Process Text Char} (hFiles : c.Files tags store g)
    (hOrdered : Ordered g) (hk : k < 10) (hg : g .primary = 11 * n + k)
    (hTag : tags[n]? = some tag) (hFailed : p.failed = none)
    (hRest : p.rest = (c.synchronizeAll .primary tag).drop k) :
    Advanced c tags store g .primary tag n k p := by
  obtain ⟨hFound, hFound', hReleased, hReleased'⟩ := id hOrdered
  rw [hg] at hFound hFound' hReleased hReleased'
  simp only [happened] at hFound hFound' hReleased hReleased'
  have hOwn : ∀ avail, madeAt .primary avail ≤ k → k < 5 →
      store.isFile (c.syncPath .primary avail tag) = true := by
    intro avail hMade hFive
    have hBounds := madeAt_bounds .primary avail
    have hBounds' := removedAt_bounds .primary avail
    apply hFiles.isFile_of_pending avail hTag
    all_goals simp only [happened, Side.other]
    all_goals omega
  have hPartner : ∀ avail, k < removedAt .secondary avail → 7 ≤ k →
      store.isFile (c.syncPath .secondary avail tag) = true ∧
        happened (g .secondary) (madeAt .secondary avail) = n + 1 := by
    intro avail hRemoved hSeven
    have hLast : happened (g .secondary) (madeAt .secondary avail) = n + 1 := by
      have hBounds := madeAt_bounds .secondary avail
      have hEight : madeAt .secondary avail ≤ 8 := by cases avail <;> decide
      simp only [happened]
      omega
    refine ⟨hFiles.isFile_of_pending avail hTag ?_ (by omega), hLast⟩
    simp only [happened, Side.other]
    omega
  rw [synchronizeAll_primary] at hRest
  unfold Advanced
  rw [synchronizeAll_primary]
  interval_cases k
  all_goals simp only [List.drop_succ_cons, List.drop_zero] at hRest
  all_goals simp only [exec, hRest]
  · refine Or.inr ⟨hFailed, rfl, hFiles.make hk hg hTag false rfl ?_, hOrdered.movePrimary hk hg ?_ ?_⟩
    all_goals simp only [happened, Side.other, removedAt]
    all_goals omega
  · exact Or.inr ⟨hFailed, rfl, hFiles.keep hk hg (by decide) (by decide),
      hOrdered.movePrimary hk hg (by omega) (by omega)⟩
  · rw [if_pos (hOwn false (by decide) (by decide))]
    exact Or.inr ⟨hFailed, rfl, hFiles.keep hk hg (by decide) (by decide),
      hOrdered.movePrimary hk hg (by omega) (by omega)⟩
  · rw [if_pos (hOwn false (by decide) (by decide))]
    exact Or.inr ⟨hFailed, rfl, hFiles.keep hk hg (by decide) (by decide),
      hOrdered.movePrimary hk hg (by omega) (by omega)⟩
  · refine Or.inr ⟨hFailed, rfl, hFiles.make hk hg hTag true rfl ?_, hOrdered.movePrimary hk hg ?_ ?_⟩
    all_goals simp only [happened, Side.other, removedAt]
    all_goals omega
  · exact Or.inr ⟨hFailed, rfl, hFiles.keep hk hg (by decide) (by decide),
      hOrdered.movePrimary hk hg (by omega) (by omega)⟩
  · split
    · rename_i hFile
      have hUsed := hFiles.used_of_isFile hFile
      simp only [happened, Side.other, removedAt, madeAt] at hUsed
      refine Or.inr ⟨hFailed, rfl, hFiles.keep hk hg (by decide) (by decide),
        hOrdered.movePrimary hk hg ?_ ?_⟩
      all_goals simp only [happened]
      all_goals omega
    · exact Or.inl rfl
  · obtain ⟨hFile, hLast⟩ := hPartner true (by decide) (by decide)
    rw [if_pos hFile]
    exact Or.inr ⟨hFailed, rfl, hFiles.remove hk hg hTag true rfl hLast,
      hOrdered.movePrimary hk hg (by omega) (by omega)⟩
  · obtain ⟨hFile, hLast⟩ := hPartner false (by decide) (by decide)
    rw [if_pos hFile]
    exact Or.inr ⟨hFailed, rfl, hFiles.remove hk hg hTag false rfl hLast,
      hOrdered.movePrimary hk hg (by omega) (by omega)⟩
  · split
    · exact Or.inl rfl
    · rename_i hFile
      have hGone := hFiles.not_isFile hTag (by rw [hg]; simp only [happened, madeAt]; omega) hFile
      exact Or.inr ⟨hFailed, rfl, hFiles.keep hk hg (by decide) (by decide),
        hOrdered.movePrimary hk hg (by omega) fun _ => hGone⟩

theorem advanced_secondary {p : Process Text Char} (hFiles : c.Files tags store g)
    (hOrdered : Ordered g) (hk : k < 10) (hg : g .secondary = 11 * n + k)
    (hTag : tags[n]? = some tag) (hFailed : p.failed = none)
    (hRest : p.rest = (c.synchronizeAll .secondary tag).drop k) :
    Advanced c tags store g .secondary tag n k p := by
  obtain ⟨hFound, hFound', hReleased, hReleased'⟩ := id hOrdered
  rw [hg] at hFound hFound' hReleased hReleased'
  simp only [happened] at hFound hFound' hReleased hReleased'
  have hOwn : ∀ avail, madeAt .secondary avail ≤ k → k < 8 →
      store.isFile (c.syncPath .secondary avail tag) = true := by
    intro avail hMade hEight
    have hBounds := madeAt_bounds .secondary avail
    have hBounds' : 8 ≤ removedAt .secondary avail := by cases avail <;> decide
    apply hFiles.isFile_of_pending avail hTag
    all_goals simp only [happened, Side.other]
    all_goals omega
  have hPartner : ∀ avail, k < removedAt .primary avail → 1 ≤ k →
      store.isFile (c.syncPath .primary avail tag) = true ∧
        happened (g .primary) (madeAt .primary avail) = n + 1 := by
    intro avail hRemoved hOne
    have hThree : removedAt .primary avail ≤ 3 := by cases avail <;> decide
    have hLast : happened (g .primary) (madeAt .primary avail) = n + 1 := by
      have hBounds := madeAt_bounds .primary avail
      have hFive : madeAt .primary avail ≤ 5 := by cases avail <;> decide
      simp only [happened]
      omega
    refine ⟨hFiles.isFile_of_pending avail hTag ?_ (by omega), hLast⟩
    simp only [happened, Side.other]
    omega
  rw [synchronizeAll_secondary] at hRest
  unfold Advanced
  rw [synchronizeAll_secondary]
  interval_cases k
  all_goals simp only [List.drop_succ_cons, List.drop_zero] at hRest
  all_goals simp only [exec, hRest]
  · split
    · rename_i hFile
      have hUsed := hFiles.used_of_isFile hFile
      simp only [happened, Side.other, removedAt, madeAt] at hUsed
      refine Or.inr ⟨hFailed, rfl, hFiles.keep hk hg (by decide) (by decide),
        hOrdered.moveSecondary hk hg ?_ ?_⟩
      all_goals simp only [happened]
      all_goals omega
    · exact Or.inl rfl
  · obtain ⟨hFile, hLast⟩ := hPartner true (by decide) (by decide)
    rw [if_pos hFile]
    exact Or.inr ⟨hFailed, rfl, hFiles.remove hk hg hTag true rfl hLast,
      hOrdered.moveSecondary hk hg (by omega) (by omega)⟩
  · obtain ⟨hFile, hLast⟩ := hPartner false (by decide) (by decide)
    rw [if_pos hFile]
    exact Or.inr ⟨hFailed, rfl, hFiles.remove hk hg hTag false rfl hLast,
      hOrdered.moveSecondary hk hg (by omega) (by omega)⟩
  · refine Or.inr ⟨hFailed, rfl, hFiles.make hk hg hTag false rfl ?_,
      hOrdered.moveSecondary hk hg ?_ ?_⟩
    all_goals simp only [happened, Side.other, removedAt]
    all_goals omega
  · exact Or.inr ⟨hFailed, rfl, hFiles.keep hk hg (by decide) (by decide),
      hOrdered.moveSecondary hk hg (by omega) (by omega)⟩
  · rw [if_pos (hOwn false (by decide) (by decide))]
    exact Or.inr ⟨hFailed, rfl, hFiles.keep hk hg (by decide) (by decide),
      hOrdered.moveSecondary hk hg (by omega) (by omega)⟩
  · rw [if_pos (hOwn false (by decide) (by decide))]
    exact Or.inr ⟨hFailed, rfl, hFiles.keep hk hg (by decide) (by decide),
      hOrdered.moveSecondary hk hg (by omega) (by omega)⟩
  · refine Or.inr ⟨hFailed, rfl, hFiles.make hk hg hTag true rfl ?_,
      hOrdered.moveSecondary hk hg ?_ ?_⟩
    all_goals simp only [happened, Side.other, removedAt]
    all_goals omega
  · exact Or.inr ⟨hFailed, rfl, hFiles.keep hk hg (by decide) (by decide),
      hOrdered.moveSecondary hk hg (by omega) (by omega)⟩
  · split
    · exact Or.inl rfl
    · rename_i hFile
      have hGone := hFiles.not_isFile hTag (by rw [hg]; simp only [happened, madeAt]; omega) hFile
      exact Or.inr ⟨hFailed, rfl, hFiles.keep hk hg (by decide) (by decide),
        hOrdered.moveSecondary hk hg (by omega) fun _ => hGone⟩

end Moves

variable {c} {tags : List Text}

theorem Barrier.init {store : Store Text Char}
    (hFresh : ∀ side avail tag, store.isFile (c.syncPath side avail tag) = false) :
    c.Barrier tags (World.init store fun _ => tags) fun _ => 0 where
  control side := ⟨rfl, rfl, rfl⟩
  files := by
    constructor
    intro side avail tag
    have hBounds := madeAt_bounds side avail
    rw [show (World.init store fun _ => tags).store = store from rfl, hFresh, Bool.false_eq_true,
      false_iff]
    apply not_used_empty
    simp only [happened]
    omega
  ordered := by constructor <;> decide

theorem Files.congr {store : Store Text Char} {g g' : Side → Nat} (h : c.Files tags store g)
    (hSame : ∀ side step, 1 ≤ step → step ≤ 10 → happened (g' side) step = happened (g side) step) :
    c.Files tags store g' where
  exists_iff side avail tag := by
    obtain ⟨hLow, hHigh⟩ := madeAt_bounds side avail
    obtain ⟨hLow', hHigh'⟩ := removedAt_bounds side avail
    rw [h.exists_iff, hSame _ _ hLow hHigh, hSame _ _ hLow' hHigh']

theorem Ordered.congr {g g' : Side → Nat} (h : Ordered g)
    (hSame : ∀ side step, 1 ≤ step → step ≤ 10 → happened (g' side) step = happened (g side) step) :
    Ordered g' where
  secondaryFound := by simpa [hSame] using h.secondaryFound
  primaryFound := by simpa [hSame] using h.primaryFound
  primaryReleased := by simpa [hSame] using h.primaryReleased
  secondaryReleased := by simpa [hSame] using h.secondaryReleased

theorem Barrier.step {w w' : World Side Text Char Text} {g : Side → Nat} {side : Side}
    (h : c.Barrier tags w g) (hStep : FileProcess.step c.synchronizeAll w side = some w') :
    ∃ g', c.Barrier tags w' g' := by
  have hOthers : ∀ g' : Side → Nat, (∀ other, other ≠ side → g' other = g other) →
      c.Control tags side (w'.caller side) (g' side) →
      ∀ other, c.Control tags other (w'.caller other) (g' other) := by
    intro g' hOther hControl other
    by_cases hEq : other = side
    · rw [hEq]
      exact hControl
    · rw [step_caller_other hStep hEq, hOther other hEq]
      exact h.control other
  have hCalls := (step_calls hStep side).trans (h.control side).calls
  have hPosition := (h.control side).position
  obtain ⟨hFailed, ⟨tag, todo, hCurrent, hTodo, rfl⟩ | ⟨tag, hCurrent, hRest, rfl⟩ |
    ⟨tag, instruction, rest, hCurrent, hRest, rfl⟩⟩ := step_cases hStep
  · rw [hCurrent] at hPosition
    have hTag : tags[(w.caller side).returned.length]? = some tag := by
      have hAll := (h.control side).calls
      rw [Caller.calls, hCurrent, hTodo] at hAll
      rw [← hAll]
      simp
    refine ⟨g, hOthers g (fun _ _ => rfl) ⟨hCalls, ?_, ?_⟩, h.files, h.ordered⟩
    · simp [Caller.enter, Process.start]
    · rw [World.set_caller_self]
      exact ⟨0, by decide, by simpa [Caller.enter] using hPosition, hTag, rfl⟩
  · rw [hCurrent] at hPosition
    obtain ⟨k, hk, hg, hTag, hDrop⟩ := hPosition
    have hTen : k = 10 := by
      have hLength := congrArg List.length (hDrop.symm.trans hRest)
      rw [List.length_drop, synchronizeAll_length, List.length_nil] at hLength
      omega
    have hSame : ∀ other step, 1 ≤ step → step ≤ 10 →
        happened (Function.update g side (g side + 1) other) step = happened (g other) step := by
      intro other step hLow hHigh
      by_cases hEq : other = side
      · rw [hEq, Function.update_self, hg, hTen]
        simp only [happened]
        omega
      · rw [Function.update_of_ne hEq]
    refine ⟨Function.update g side (g side + 1), hOthers _ (fun _ hNe => Function.update_of_ne hNe _ _)
      ⟨hCalls, ?_, ?_⟩, h.files.congr hSame, h.ordered.congr hSame⟩
    · simp [Caller.leave, Process.idle, Process.start]
    · rw [World.set_caller_self, Function.update_self, hg, hTen]
      simp only [Caller.leave, List.length_append, List.length_singleton]
      omega
  · rw [hCurrent] at hPosition
    obtain ⟨k, hk, hg, hTag, hDrop⟩ := hPosition
    have hLess : k < 10 := by
      have hLength := congrArg List.length (hDrop.symm.trans hRest)
      rw [List.length_drop, synchronizeAll_length, List.length_cons] at hLength
      omega
    have hAdvanced : Advanced c tags w.store g side tag (w.caller side).returned.length k
        (w.caller side).process := by
      cases side
      · exact advanced_primary h.files h.ordered hLess hg hTag hFailed hDrop
      · exact advanced_secondary h.files h.ordered hLess hg hTag hFailed hDrop
    rcases hAdvanced with hPoll | ⟨hFailed', hRest', hFiles, hOrdered⟩
    · refine ⟨g, hOthers g (fun _ _ => rfl) ⟨hCalls, ?_, ?_⟩, ?_, h.ordered⟩
      · rw [World.set_caller_self, hPoll]
        exact hFailed
      · rw [World.set_caller_self, hPoll]
        simp only [Caller.resume, hCurrent]
        exact ⟨k, hk, hg, hTag, hDrop⟩
      · rw [hPoll]
        exact h.files
    · refine ⟨_, hOthers _ (fun _ hNe => Function.update_of_ne hNe _ _) ⟨hCalls, ?_, ?_⟩, hFiles, hOrdered⟩
      · rw [World.set_caller_self]
        exact hFailed'
      · rw [World.set_caller_self, Function.update_self]
        simp only [Caller.resume, hCurrent]
        exact ⟨k + 1, by omega, rfl, hTag, hRest'⟩

theorem Barrier.run {store : Store Text Char}
    (hFresh : ∀ side avail tag, store.isFile (c.syncPath side avail tag) = false)
    {schedule : List Side} {w : World Side Text Char Text}
    (hRun : Schedule.run (FileProcess.step c.synchronizeAll) (World.init store fun _ => tags)
      schedule = some w) : ∃ g, c.Barrier tags w g :=
  Schedule.invariant (fun v => ∃ g, c.Barrier tags v g)
    (fun _ _ _ ⟨_, hInv⟩ hStep => hInv.step hStep) ⟨_, Barrier.init hFresh⟩ hRun

theorem Barrier.returned_le_entered {w : World Side Text Char Text} {g : Side → Nat}
    (h : c.Barrier tags w g) (side : Side) :
    (w.caller side).returned.length ≤ (w.caller side.other).entered := by
  obtain ⟨hFound, hFound', hReleased, hReleased'⟩ := h.ordered
  have hOwn : 11 * (w.caller side).returned.length ≤ g side := by
    have hPosition := (h.control side).position
    split at hPosition
    · exact hPosition.ge
    · obtain ⟨k, -, hg, -⟩ := hPosition
      omega
  have hPartner : ∀ step, 1 ≤ step →
      happened (g side.other) step ≤ (w.caller side.other).entered := by
    intro step hLow
    have hPosition := (h.control side.other).position
    rw [Caller.entered]
    split at hPosition
    · rename_i hCurrent
      rw [hCurrent, hPosition]
      simp only [happened, Option.toList_none, List.length_nil]
      omega
    · rename_i hCurrent
      obtain ⟨k, hk, hg, -⟩ := hPosition
      rw [hCurrent, hg]
      simp only [happened, Option.toList_some, List.length_singleton]
      omega
  cases side with
  | primary =>
    have hThree := hPartner 3 (by decide)
    simp only [happened, Side.other] at *
    omega
  | secondary =>
    have hNine := hPartner 9 (by decide)
    simp only [happened, Side.other] at *
    omega

theorem Barrier.current_of_isFile {w : World Side Text Char Text} {g : Side → Nat}
    (h : c.Barrier tags w g) {side : Side} {avail : Bool} {tag : Text}
    (hFile : w.store.isFile (c.syncPath side avail tag) = true) :
    (w.caller side).current = some tag := by
  obtain ⟨m, hLow, hHigh, hTag⟩ := (h.files.exists_iff side avail tag).mp hFile
  obtain ⟨-, -, hReleased, hReleased'⟩ := h.ordered
  have hRemoved : happened (g side) 10 ≤ m := by
    refine Nat.le_trans ?_ hLow
    cases side <;> cases avail <;> simp only [happened, Side.other, removedAt] at * <;> omega
  have hBounds := madeAt_bounds side avail
  have hPosition := (h.control side).position
  simp only [happened] at hRemoved hHigh
  split at hPosition
  · omega
  · rename_i tag' hCurrent
    obtain ⟨k, hk, hg, hTag', -⟩ := hPosition
    have hm : m = (w.caller side).returned.length := by omega
    rw [hCurrent, ← hTag', ← hTag, hm]

/-- Files of a side exist only while this side is inside a call with their tag, so they are
gone when it returns, and none of the four files exists when both partners are outside. -/
theorem synchronizeAll_barrier (c : Communication) (tags : List Text) (store : Store Text Char)
    (hFresh : ∀ side tag, store.isFile (c.syncFile side tag) = false ∧
      store.isFile (availFile (c.syncFile side tag)) = false)
    (schedule : List Side) (w : World Side Text Char Text)
    (hRun : Schedule.run (FileProcess.step c.synchronizeAll) (World.init store fun _ => tags)
      schedule = some w) :
    (∀ side n, n ≤ (w.caller side).returned.length → n ≤ (w.caller side.other).entered) ∧
    (∀ side, (w.caller side).process.failed = none) ∧
    (∀ side tag, (w.caller side).current ≠ some tag →
      w.store.isFile (c.syncFile side tag) = false ∧
        w.store.isFile (availFile (c.syncFile side tag)) = false) := by
  have hFresh' : ∀ side avail tag, store.isFile (c.syncPath side avail tag) = false := by
    intro side avail tag
    cases avail
    · exact (hFresh side tag).1
    · exact (hFresh side tag).2
  obtain ⟨g, hBarrier⟩ := Barrier.run hFresh' hRun
  refine ⟨?_, fun side => (hBarrier.control side).sound, ?_⟩
  · intro side n hn
    exact Nat.le_trans hn (hBarrier.returned_le_entered side)
  · intro side tag hCurrent
    have hGone : ∀ avail, w.store.isFile (c.syncPath side avail tag) = false := by
      intro avail
      rw [Bool.eq_false_iff]
      exact fun hFile => hCurrent (hBarrier.current_of_isFile hFile)
    exact ⟨hGone false, hGone true⟩

def localSocket : Communication where
  connectionName := "a_b".toList
  commFolder := "./.CoSimIOComm_a_b".toList
  commInFolder := true

def oneRound : List Side :=
  List.replicate 7 .primary ++ List.replicate 10 .secondary ++ List.replicate 5 .primary ++
    List.replicate 2 .secondary

theorem synchronizeAll_barrier_conn :
    ∃ w, Schedule.run (FileProcess.step localSocket.synchronizeAll)
        (World.init Store.empty fun _ => ["conn".toList, "conn".toList]) oneRound = some w ∧
      (w.caller .primary).returned.length = 1 ∧ (w.caller .secondary).returned.length = 1 ∧
      w.store.isFile (localSocket.syncFile .primary "conn".toList) = false := by
  have hSome : (Schedule.run (FileProcess.step localSocket.synchronizeAll)
      (World.init Store.empty fun _ => ["conn".toList, "conn".toList]) oneRound).isSome := by
    decide
  obtain ⟨w, hw⟩ := Option.isSome_iff_exists.mp hSome
  have hCounts : (Schedule.run (FileProcess.step localSocket.synchronizeAll)
      (World.init Store.empty fun _ => ["conn".toList, "conn".toList]) oneRound).map
        (fun w => ((w.caller .primary).returned.length, (w.caller .secondary).returned.length,
          (w.caller .primary).current)) = some (1, 1, none) := by
    decide
  rw [hw] at hCounts
  simp only [Option.map_some, Option.some.injEq, Prod.mk.injEq] at hCounts
  obtain ⟨hPrimary, hSecondary, hCurrent⟩ := hCounts
  have hAll := synchronizeAll_barrier localSocket ["conn".toList, "conn".toList] Store.empty
    (fun _ _ => ⟨rfl, rfl⟩) oneRound w hw
  exact ⟨w, hw, hPrimary, hSecondary,
    (hAll.2.2 .primary "conn".toList (by rw [hCurrent]; nofun)).1⟩

end CoSimIO.Communication

import CoSimIO.Library.DoubleRounding
import Mathlib.Data.Finset.Lattice.Fold

/-! # Partner ranks of importers and exporters

Both sides compute alone with which ranks of the partner they communicate. Ranks and
sizes are of type `std::size_t`, so products are taken modulo `2 ^ 64`.
-/

namespace CoSimIO.Utilities

open DoubleRounding

set_option autoImplicit false

def checkSizes (myRank mySize partnerSize : Nat) : Except String Unit :=
  if mySize = 0 then .error "MySize cannot be zero!\n"
  else if partnerSize = 0 then .error "PartnerSize cannot be zero!\n"
  else if ¬ myRank < mySize then .error "MyRank must be smaller MySize!\n"
  else .ok ()

/-- `std::ceil` of the quotient, with both operands converted to double. -/
def numRanksPerPartnerRank (size partnerSize : Nat) : Nat :=
  ⌈rounded (rounded size / rounded partnerSize)⌉₊

def computePartnerRanksAsImporter (myRank mySize partnerSize : Nat) :
    Except String (Finset Nat) := do
  checkSizes myRank mySize partnerSize
  if mySize = 1 then
    return Finset.range partnerSize
  else if mySize = partnerSize then
    return {myRank}
  else if mySize > partnerSize then
    if myRank < partnerSize then return {myRank} else return ∅
  else
    let ranks := numRanksPerPartnerRank partnerSize mySize
    let lowerEnd := myRank * ranks % 2 ^ 64
    let upperEnd := (myRank + 1) * ranks % 2 ^ 64
    return (Finset.range partnerSize).filter fun i => lowerEnd ≤ i ∧ i < upperEnd

def computePartnerRanksAsExporter (myRank mySize partnerSize : Nat) :
    Except String (Finset Nat) := do
  checkSizes myRank mySize partnerSize
  if mySize = 1 then
    return {0}
  else if partnerSize = 1 then
    return {0}
  else if mySize = partnerSize then
    return {myRank}
  else if mySize > partnerSize then
    return {myRank / numRanksPerPartnerRank mySize partnerSize}
  else
    return {myRank}

/-- The importer rank that receives from an exporter rank. -/
def partnerOf (importers exporters rank : Nat) : Nat :=
  if importers < exporters then rank / numRanksPerPartnerRank exporters importers else rank

section Sizes

variable {importers exporters rank : Nat}

theorem checkSizes_ok {size partnerSize : Nat} (hRank : rank < size) (hPartner : 0 < partnerSize) :
    checkSizes rank size partnerSize = .ok () := by
  have hSize : size ≠ 0 := by omega
  simp [checkSizes, hSize, hPartner.ne', hRank]

theorem numRanksPerPartnerRank_eq (hSize : exporters < 2 ^ 53) (hPos : 0 < importers)
    (hPartner : importers < 2 ^ 53) :
    numRanksPerPartnerRank exporters importers = ⌈(exporters : ℚ) / importers⌉₊ := by
  rw [numRanksPerPartnerRank, rounded_natCast hSize, rounded_natCast hPartner,
    ceil_rounded_div hPos hSize]

theorem size_le_mul_numRanks (hSize : exporters < 2 ^ 53) (hPos : 0 < importers)
    (hPartner : importers < 2 ^ 53) :
    exporters ≤ numRanksPerPartnerRank exporters importers * importers := by
  have hCeil := Nat.le_ceil ((exporters : ℚ) / importers)
  rw [div_le_iff₀ (by exact_mod_cast hPos)] at hCeil
  rw [numRanksPerPartnerRank_eq hSize hPos hPartner]
  exact_mod_cast hCeil

theorem mul_numRanks_lt (hSize : exporters < 2 ^ 53) (hPos : 0 < importers)
    (hPartner : importers < 2 ^ 53) :
    numRanksPerPartnerRank exporters importers * importers < exporters + importers := by
  have hCast : (0 : ℚ) < importers := by exact_mod_cast hPos
  have hCeil := Nat.ceil_lt_add_one (div_nonneg (Nat.cast_nonneg exporters) hCast.le)
  rw [← sub_lt_iff_lt_add, lt_div_iff₀ hCast, sub_mul] at hCeil
  rw [numRanksPerPartnerRank_eq hSize hPos hPartner]
  have hRational : ((⌈(exporters : ℚ) / importers⌉₊ * importers : ℕ) : ℚ) < exporters + importers := by
    push_cast
    linarith
  exact_mod_cast hRational

theorem numRanks_pos (hSize : exporters < 2 ^ 53) (hPos : 0 < importers)
    (hPartner : importers < 2 ^ 53) (hExporters : 0 < exporters) :
    0 < numRanksPerPartnerRank exporters importers := by
  have hCover := size_le_mul_numRanks hSize hPos hPartner
  by_contra hZero
  rw [Nat.eq_zero_of_not_pos hZero, Nat.zero_mul] at hCover
  omega

theorem numRanks_one (hSize : exporters < 2 ^ 53) :
    numRanksPerPartnerRank exporters 1 = exporters := by
  rw [numRanksPerPartnerRank_eq hSize (by norm_num) (by norm_num)]
  simp

theorem partnerOf_one (hSize : exporters < 2 ^ 53) (hRank : rank < exporters) :
    partnerOf 1 exporters rank = 0 := by
  unfold partnerOf
  split
  · rw [numRanks_one hSize, Nat.div_eq_of_lt hRank]
  · omega

theorem partnerOf_lt (hSize : exporters < 2 ^ 53) (hPos : 0 < importers)
    (hPartner : importers < 2 ^ 53) (hRank : rank < exporters) :
    partnerOf importers exporters rank < importers := by
  unfold partnerOf
  split
  · apply Nat.div_lt_of_lt_mul
    exact Nat.lt_of_lt_of_le hRank (size_le_mul_numRanks hSize hPos hPartner)
  · omega

theorem computePartnerRanksAsExporter_eq (hSize : exporters < 2 ^ 53) (hPos : 0 < importers)
    (hRank : rank < exporters) :
    computePartnerRanksAsExporter rank exporters importers =
      .ok {partnerOf importers exporters rank} := by
  rw [computePartnerRanksAsExporter, checkSizes_ok hRank hPos]
  change ite _ _ _ = _
  split_ifs with hSerial hPartnerSerial hSame hMore
  · subst hSerial
    obtain rfl : rank = 0 := by omega
    rw [partnerOf, if_neg (by omega)]
    rfl
  · subst hPartnerSerial
    rw [partnerOf_one hSize hRank]
    rfl
  · rw [partnerOf, if_neg (by omega)]
    rfl
  · rw [partnerOf, if_pos hMore]
    rfl
  · rw [partnerOf, if_neg (by omega)]
    rfl

/-- An importer communicates with the exporters whose partner it is. -/
theorem computePartnerRanksAsImporter_eq (hSize : exporters < 2 ^ 53) (hExporters : 0 < exporters)
    (hPartner : importers < 2 ^ 53) (hRank : rank < importers) :
    computePartnerRanksAsImporter rank importers exporters =
      .ok ((Finset.range exporters).filter fun i => partnerOf importers exporters i = rank) := by
  have hPos : 0 < importers := by omega
  rw [computePartnerRanksAsImporter, checkSizes_ok hRank hExporters]
  change ite _ _ _ = _
  split_ifs with hSerial hSame hMore hBelow
  · subst hSerial
    obtain rfl : rank = 0 := by omega
    apply congrArg Except.ok
    rw [Finset.filter_true_of_mem]
    intro i hi
    exact partnerOf_one hSize (Finset.mem_range.mp hi)
  · apply congrArg Except.ok
    ext i
    rw [Finset.mem_singleton, Finset.mem_filter, Finset.mem_range, partnerOf, if_neg (by omega)]
    omega
  · apply congrArg Except.ok
    ext i
    rw [Finset.mem_singleton, Finset.mem_filter, Finset.mem_range, partnerOf, if_neg (by omega)]
    omega
  · apply congrArg Except.ok
    ext i
    rw [Finset.mem_filter, Finset.mem_range, partnerOf, if_neg (by omega)]
    simp only [Finset.notMem_empty, false_iff]
    omega
  · apply congrArg Except.ok
    have hBlocks := mul_numRanks_lt hSize hPos hPartner
    have hBlock := numRanks_pos hSize hPos hPartner hExporters
    have hLess : importers < exporters := by omega
    simp only [partnerOf, if_pos hLess]
    generalize numRanksPerPartnerRank exporters importers = block at hBlocks hBlock ⊢
    have hUpper : (rank + 1) * block ≤ block * importers := by
      rw [Nat.mul_comm block]
      exact Nat.mul_le_mul_right block hRank
    have hLower : rank * block ≤ (rank + 1) * block := Nat.mul_le_mul_right block (Nat.le_succ rank)
    -- neither end of a block wraps around, as the last block ends below `2 ^ 54`
    rw [Nat.mod_eq_of_lt (by omega), Nat.mod_eq_of_lt (by omega)]
    apply Finset.filter_congr
    intro i _
    rw [Nat.div_eq_iff hBlock, Nat.succ_mul]
    omega

end Sizes

theorem partnerRanks_agree (importers exporters : Nat) (hImporters : 1 ≤ importers)
    (hExporters : 1 ≤ exporters) (hImportersSmall : importers < 2 ^ 53)
    (hExportersSmall : exporters < 2 ^ 53) :
    ∃ (partner : Nat → Nat) (partners : Nat → Finset Nat),
      (∀ j < exporters, computePartnerRanksAsExporter j exporters importers = .ok {partner j} ∧
        partner j < importers) ∧
      (∀ i < importers, computePartnerRanksAsImporter i importers exporters = .ok (partners i)) ∧
      (∀ i < importers, ∀ j < exporters, j ∈ partners i ↔ i ∈ ({partner j} : Finset Nat)) ∧
      (∀ i < importers, ∀ i' < importers, i ≠ i' → Disjoint (partners i) (partners i')) ∧
      (Finset.range importers).biUnion partners = Finset.range exporters := by
  refine ⟨partnerOf importers exporters, fun i => (Finset.range exporters).filter fun j =>
    partnerOf importers exporters j = i, ?_, ?_, ?_, ?_, ?_⟩
  · intro j hj
    exact ⟨computePartnerRanksAsExporter_eq hExportersSmall hImporters hj,
      partnerOf_lt hExportersSmall hImporters hImportersSmall hj⟩
  · intro i hi
    exact computePartnerRanksAsImporter_eq hExportersSmall hExporters hImportersSmall hi
  · intro i _ j hj
    rw [Finset.mem_filter, Finset.mem_range, Finset.mem_singleton, eq_comm]
    exact and_iff_right hj
  · intro i _ i' _ hNe
    rw [Finset.disjoint_left]
    intro j hj hj'
    rw [Finset.mem_filter] at hj hj'
    exact hNe (hj.2.symm.trans hj'.2)
  · ext j
    rw [Finset.mem_biUnion, Finset.mem_range]
    constructor
    · rintro ⟨i, -, hj⟩
      exact Finset.mem_range.mp (Finset.mem_filter.mp hj).1
    · intro hj
      have hPartner := partnerOf_lt hExportersSmall hImporters hImportersSmall hj
      exact ⟨_, Finset.mem_range.mpr hPartner, Finset.mem_filter.mpr ⟨Finset.mem_range.mpr hj, rfl⟩⟩

theorem partnerRanks_agree_three_seven :
    ∃ (partner : Nat → Nat) (partners : Nat → Finset Nat),
      (∀ j < 7, computePartnerRanksAsExporter j 7 3 = .ok {partner j} ∧ partner j < 3) ∧
      (∀ i < 3, computePartnerRanksAsImporter i 3 7 = .ok (partners i)) ∧
      (∀ i < 3, ∀ j < 7, j ∈ partners i ↔ i ∈ ({partner j} : Finset Nat)) ∧
      (∀ i < 3, ∀ i' < 3, i ≠ i' → Disjoint (partners i) (partners i')) ∧
      (Finset.range 3).biUnion partners = Finset.range 7 :=
  partnerRanks_agree 3 7 (by decide) (by decide) (by norm_num) (by norm_num)

end CoSimIO.Utilities

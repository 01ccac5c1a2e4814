import Vertix.SdkInterface
import Vertix.OrderStatistics
import Mathlib.Data.String.Basic
import Mathlib.Tactic

/-!
# Medians and the quorum gate

`WeightedMedian`, `UnweightedMedian` and `QuorumMet` of the oracle.  The
weighted walk accumulates int64 weights; without overflow it is the weighted
selection at half of the total weight.
-/

namespace Vertix
namespace Oracle

open OrderStatistics

structure WeightedPrice where
  price : LegacyDec
  weight : Int64
  valoper : String
  deriving DecidableEq

/-- The comparator of `WeightedMedian`: by price, ties by operator. -/
def WeightedPrice.before (a b : WeightedPrice) : Prop :=
  a.price.raw < b.price.raw ∨
    (a.price.raw = b.price.raw ∧ a.valoper ≤ b.valoper)

instance : DecidableRel WeightedPrice.before :=
  fun _ _ => inferInstanceAs (Decidable (_ ∨ _))

instance : Std.Total WeightedPrice.before where
  total a b := by
    rcases lt_trichotomy a.price.raw b.price.raw with hlt | heq | hgt
    · exact Or.inl (Or.inl hlt)
    · rcases le_total a.valoper b.valoper with hle | hle
      · exact Or.inl (Or.inr ⟨heq, hle⟩)
      · exact Or.inr (Or.inr ⟨heq.symm, hle⟩)
    · exact Or.inr (Or.inl hgt)

instance : IsTrans WeightedPrice WeightedPrice.before where
  trans a b c hab hbc := by
    rcases hab with hab | ⟨hab, hval⟩
    · rcases hbc with hbc | ⟨hbc, -⟩
      · exact Or.inl (hab.trans hbc)
      · exact Or.inl (hbc ▸ hab)
    · rcases hbc with hbc | ⟨hbc, hval'⟩
      · exact Or.inl (hab ▸ hbc)
      · exact Or.inr ⟨hab.trans hbc, hval.trans hval'⟩

def sumWeights (entries : List WeightedPrice) : Int64 :=
  entries.foldl (fun total e => total + e.weight) 0

def medianWalk (half : Int64) : Int64 → List WeightedPrice → LegacyDec
  | _, [] => legacyZeroDec
  | cum, e :: rest =>
      if half ≤ cum + e.weight then e.price
      else medianWalk half (cum + e.weight) rest

def weightedMedian (entries : List WeightedPrice) : LegacyDec :=
  let sorted := entries.insertionSort WeightedPrice.before
  medianWalk (sumWeights sorted / 2) 0 sorted

def unweightedMedian (prices : List LegacyDec) : LegacyDec :=
  let sorted := prices.insertionSort fun a b => a.raw ≤ b.raw
  match lowerMiddle? sorted with
  | some price => price
  | none => legacyZeroDec

def quorumMet (submittedPower totalPower : ℤ) (quorumFraction : LegacyDec) :
    Exec Bool :=
  if totalPower = 0 then .ok false
  else do
    let submitted ← Exec.ofOption (toInt64 submittedPower)
    let total ← Exec.ofOption (toInt64 totalPower)
    let ratio ← Exec.ofOption
      ((legacyNewDec submitted).quo? (legacyNewDec total))
    return decide (quorumFraction.raw ≤ ratio.raw)

/-! ## The weighted median is one of the submitted prices -/

def WeightedPrice.weightInt (e : WeightedPrice) : ℤ := e.weight.toInt

theorem int64_add_toInt
    {a b : Int64} (hlow : -2 ^ 63 ≤ a.toInt + b.toInt)
    (hhigh : a.toInt + b.toInt < 2 ^ 63) :
    (a + b).toInt = a.toInt + b.toInt := by
  rw [Int64.toInt_add]
  apply Int.bmod_eq_of_le <;> omega

theorem foldl_weight_toInt
    (entries : List WeightedPrice) (acc : Int64)
    (hweight : ∀ e ∈ entries, 0 ≤ e.weightInt) (hacc : 0 ≤ acc.toInt)
    (hfits :
      acc.toInt + totalWeight WeightedPrice.weightInt entries < 2 ^ 63) :
    (entries.foldl (fun total e => total + e.weight) acc).toInt =
      acc.toInt + totalWeight WeightedPrice.weightInt entries := by
  induction entries generalizing acc with
  | nil => simp
  | cons e rest ih =>
      have hhead : 0 ≤ e.weightInt := hweight e (by simp)
      have htail : ∀ e' ∈ rest, 0 ≤ e'.weightInt :=
        fun e' he' => hweight e' (by simp [he'])
      have hrest := totalWeight_nonneg htail
      rw [totalWeight_cons] at hfits ⊢
      have hweightInt : e.weightInt = e.weight.toInt := rfl
      have hadd : (acc + e.weight).toInt = acc.toInt + e.weight.toInt :=
        int64_add_toInt (by omega) (by omega)
      rw [List.foldl_cons, ih (acc + e.weight) htail (by omega) (by omega),
        hadd]
      omega

theorem sumWeights_toInt
    {entries : List WeightedPrice}
    (hweight : ∀ e ∈ entries, 0 ≤ e.weightInt)
    (hfits : totalWeight WeightedPrice.weightInt entries < 2 ^ 63) :
    (sumWeights entries).toInt =
      totalWeight WeightedPrice.weightInt entries := by
  have hfold :=
    foldl_weight_toInt entries 0 hweight (by simp) (by simpa using hfits)
  simpa [sumWeights] using hfold

/-- Without overflow the int64 walk is the weighted selection. -/
theorem medianWalk_eq_select
    {half cum : Int64} {entries : List WeightedPrice}
    (hweight : ∀ e ∈ entries, 0 ≤ e.weightInt) (hcum : 0 ≤ cum.toInt)
    (hfits :
      cum.toInt + totalWeight WeightedPrice.weightInt entries < 2 ^ 63) :
    medianWalk half cum entries =
      match select WeightedPrice.weightInt half.toInt cum.toInt entries with
      | some e => e.price
      | none => legacyZeroDec := by
  induction entries generalizing cum with
  | nil => rfl
  | cons e rest ih =>
      have hhead : 0 ≤ e.weightInt := hweight e (by simp)
      have htail : ∀ e' ∈ rest, 0 ≤ e'.weightInt :=
        fun e' he' => hweight e' (by simp [he'])
      have hrest := totalWeight_nonneg htail
      rw [totalWeight_cons] at hfits
      have hweightInt : e.weightInt = e.weight.toInt := rfl
      have hadd : (cum + e.weight).toInt = cum.toInt + e.weight.toInt :=
        int64_add_toInt (by omega) (by omega)
      have hreached : half ≤ cum + e.weight ↔
          half.toInt ≤ cum.toInt + e.weightInt := by
        rw [Int64.le_iff_toInt_le, hadd, hweightInt]
      rw [medianWalk, select]
      by_cases hhalf : half ≤ cum + e.weight
      · rw [if_pos hhalf, if_pos (hreached.mp hhalf)]
      · rw [if_neg hhalf, if_neg (fun h => hhalf (hreached.mpr h)),
          ih htail (by omega) (by omega), hadd, hweightInt]

theorem half_toInt (total : Int64) : (total / 2).toInt = total.toInt.tdiv 2 :=
  Int64.toInt_div_of_ne_right total 2 (by decide)

/-- On submissions with non-negative powers whose sum fits in an int64 the
median is the selection at half of the total, rounded down. -/
theorem exists_select_weightedMedian
    {entries : List WeightedPrice} (hne : entries ≠ [])
    (hweight : ∀ e ∈ entries, 0 ≤ e.weightInt)
    (hfits : totalWeight WeightedPrice.weightInt entries < 2 ^ 63) :
    ∃ e, select WeightedPrice.weightInt
        (totalWeight WeightedPrice.weightInt entries / 2) 0
        (entries.insertionSort WeightedPrice.before) = some e ∧
      weightedMedian entries = e.price := by
  let sorted := entries.insertionSort WeightedPrice.before
  have hperm : sorted.Perm entries := List.perm_insertionSort _ entries
  have hsortedWeight : ∀ e ∈ sorted, 0 ≤ e.weightInt :=
    fun e he => hweight e (hperm.mem_iff.mp he)
  have htotal := totalWeight_perm WeightedPrice.weightInt hperm
  have hnonneg := totalWeight_nonneg hsortedWeight
  have hsum : (sumWeights sorted).toInt =
      totalWeight WeightedPrice.weightInt sorted :=
    sumWeights_toInt hsortedWeight (by omega)
  have hhalf : (sumWeights sorted / 2).toInt =
      totalWeight WeightedPrice.weightInt entries / 2 := by
    rw [half_toInt, hsum, Int.tdiv_eq_ediv_of_nonneg hnonneg, htotal]
  have hsortedNe : sorted ≠ [] := by
    intro hnil
    rw [hnil] at hperm
    exact hne hperm.symm.eq_nil
  have hreached : totalWeight WeightedPrice.weightInt entries / 2 ≤
      0 + totalWeight WeightedPrice.weightInt sorted := by omega
  rcases select_isSome hsortedNe hreached with ⟨e, hselect⟩
  refine ⟨e, hselect, ?_⟩
  have hwalk :
      weightedMedian entries =
        medianWalk (sumWeights sorted / 2) 0 sorted := rfl
  rw [hwalk, medianWalk_eq_select hsortedWeight (by simp) (by simp; omega),
    hhalf, Int64.toInt_zero, hselect]

/-- The median is the price of one of the submissions, so the zero fallback of
the walk never shows. -/
theorem weightedMedian_mem
    {entries : List WeightedPrice} (hne : entries ≠ [])
    (hweight : ∀ e ∈ entries, 0 ≤ e.weightInt)
    (hfits : totalWeight WeightedPrice.weightInt entries < 2 ^ 63) :
    ∃ e ∈ entries, weightedMedian entries = e.price := by
  rcases exists_select_weightedMedian hne hweight hfits with
    ⟨e, hselect, hmedian⟩
  exact ⟨e, (List.mem_insertionSort _).mp (select_mem hselect), hmedian⟩

/-- The published median does not depend on the order in which submissions of
distinct validators are listed. -/
theorem weightedMedian_perm
    {left right : List WeightedPrice} (hperm : left.Perm right)
    (hdistinct : (left.map WeightedPrice.valoper).Nodup) :
    weightedMedian left = weightedMedian right := by
  unfold weightedMedian
  rw [insertionSort_eq_of_perm WeightedPrice.before hperm]
  intro a ha b hb hab hba
  have hvaloper : a.valoper = b.valoper := by
    rcases hab with hab | ⟨heq, hle⟩
    · rcases hba with hba | ⟨heq, -⟩
      · exact absurd (hab.trans hba) (lt_irrefl _)
      · exact absurd hab (by rw [heq]; exact lt_irrefl _)
    · rcases hba with hba | ⟨-, hle'⟩
      · exact absurd hba (by rw [heq]; exact lt_irrefl _)
      · exact le_antisymm hle hle'
  exact List.inj_on_of_nodup_map hdistinct ha hb hvaloper

theorem unweightedMedian_mem
    {prices : List LegacyDec} (hne : prices ≠ []) :
    unweightedMedian prices ∈ prices := by
  have hsortedNe :
      (prices.insertionSort fun a b => a.raw ≤ b.raw) ≠ [] := by
    intro hnil
    have hperm :=
      List.perm_insertionSort (fun a b : LegacyDec => a.raw ≤ b.raw) prices
    rw [hnil] at hperm
    exact hne hperm.symm.eq_nil
  rcases lowerMiddle?_mem hsortedNe with ⟨price, hmiddle, hmem⟩
  unfold unweightedMedian
  simp only [hmiddle]
  exact (List.mem_insertionSort _).mp hmem

/-! ## The quorum gate -/

theorem legacyNewDec_raw (value : Int64) :
    (legacyNewDec value).raw = value.toInt * 10 ^ 18 := rfl

/-- A quotient of two whole numbers in the int64 range never leaves the
decimal range. -/
theorem legacyNewDec_quo?_isSome
    (a b : Int64) (hb : b.toInt ≠ 0) :
    ((legacyNewDec a).quo? (legacyNewDec b)).isSome := by
  have hraw : (legacyNewDec b).raw ≠ 0 := by
    rw [legacyNewDec_raw]
    positivity
  rw [FixedPoint.quo?_isSome_iff hraw (by norm_num) (by norm_num)
    (by norm_num) (by norm_num), legacyNewDec_raw, legacyNewDec_raw]
  have ha := int64_toInt_natAbs_le a
  have hpos : 0 < b.toInt.natAbs := Int.natAbs_pos.mpr hb
  rw [Int.natAbs_mul, Int.natAbs_mul]
  norm_num
  omega

theorem quorumMet_isOk
    {submitted total : ℤ} (fraction : LegacyDec)
    (hsubmitted : 0 ≤ submitted) (hsubmittedFits : submitted < 2 ^ 63)
    (htotal : 0 ≤ total) (htotalFits : total < 2 ^ 63) :
    ∃ met, quorumMet submitted total fraction = .ok met := by
  unfold quorumMet
  split_ifs with hzero
  · exact ⟨false, rfl⟩
  · have hleft : toInt64 submitted = some (Int64.ofInt submitted) := by
      unfold toInt64
      rw [if_pos ⟨by omega, hsubmittedFits⟩]
    have hright : toInt64 total = some (Int64.ofInt total) := by
      unfold toInt64
      rw [if_pos ⟨by omega, htotalFits⟩]
    have hround := toInt64_eq_some_iff.mp hright
    have hquo :=
      legacyNewDec_quo?_isSome (Int64.ofInt submitted) (Int64.ofInt total)
        (by rw [hround]; exact hzero)
    rcases Option.isSome_iff_exists.mp hquo with ⟨ratio, hratio⟩
    simp only [hleft, hright]
    exact ⟨decide (fraction.raw ≤ ratio.raw), by
      simp [Exec.ofOption, hratio, bind, Except.bind, pure, Except.pure]⟩

/-- A gate that answers at all has checked that the submitted power fits in an
int64. -/
theorem submittedPower_lt_of_quorumMet
    {submitted total : ℤ} {fraction : LegacyDec}
    (hmet : quorumMet submitted total fraction = .ok true) :
    submitted < 2 ^ 63 := by
  unfold quorumMet at hmet
  split_ifs at hmet with hzero
  · simp at hmet
  · simp only [bind_eq_ok_iff, Exec.ofOption_eq_ok_iff,
      toInt64_eq_some_iff] at hmet
    rcases hmet with ⟨value, hvalue, -⟩
    rw [← hvalue]
    exact value.toInt_lt

end Oracle
end Vertix

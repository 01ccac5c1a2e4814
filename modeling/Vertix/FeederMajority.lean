import Vertix.FeederPriceLoop
import Vertix.OracleMajority
import Mathlib.Tactic

/-!
# A majority of honest sources

If more than half of the quotes lie in an interval no wider than the allowed
deviation, then the provisional median lies in it as well.  No quote of the
interval is dropped, whatever the others are, so that those which are left
have the same majority and their median lies in the interval too.  The order
in which the providers answer does not matter.
-/

namespace Vertix.Feeder

open OrderStatistics
open Oracle (priceValue priceValue_le_iff distance_le_of_narrow)

/-- The number of quotes in an interval. -/
def quotesWithin (prices : List LegacyDec) (low high : ℚ) : ℕ :=
  prices.countP fun p => low ≤ priceValue p ∧ priceValue p ≤ high

section Majority

variable {prices : List LegacyDec} {low high : ℚ}

theorem median_within
    (hmajority : prices.length < 2 * quotesWithin prices low high)
    {m : LegacyDec} (hmedian : median prices = .ok m) :
    low ≤ priceValue m ∧ priceValue m ≤ high := by
  obtain ⟨i, j, hi, hj, hlow, hhigh⟩ := median_between hmedian
  have hperm := List.perm_insertionSort (fun a b : LegacyDec => a.raw ≤ b.raw)
    prices
  have hsorted : (prices.insertionSort fun a b => a.raw ≤ b.raw).Pairwise
      fun a b => priceValue a ≤ priceValue b :=
    (List.pairwise_insertionSort _ prices).imp priceValue_le_iff.mpr
  rw [quotesWithin, ← hperm.countP_eq, ← hperm.length_eq] at hmajority
  rw [← hperm.length_eq] at hi hj
  rw [sortedAt_eq_getElem hi.1] at hlow
  rw [sortedAt_eq_getElem hj.1] at hhigh
  constructor
  · refine le_trans ?_ (priceValue_le_iff.mpr hlow)
    apply le_key_getElem_of_majority hsorted hi.1 hi.2
    refine lt_of_lt_of_le hmajority (Nat.mul_le_mul_left 2 ?_)
    apply List.countP_mono_left
    intro p _ hp
    simp only [decide_eq_true_eq] at hp ⊢
    exact hp.1
  · refine le_trans (priceValue_le_iff.mpr hhigh) ?_
    apply key_getElem_le_of_majority hsorted hj.1 hj.2
    refine lt_of_lt_of_le hmajority (Nat.mul_le_mul_left 2 ?_)
    apply List.countP_mono_left
    intro p _ hp
    simp only [decide_eq_true_eq] at hp ⊢
    exact hp.2

/-- The band around a median in a narrow interval covers the interval. -/
theorem within_of_narrow {maxDeviation mid band p : LegacyDec}
    (hlow : 0 < low) (hnarrow : high - low ≤ maxDeviation.toRat * low)
    (hmid : low ≤ priceValue mid ∧ priceValue mid ≤ high)
    (hband : mid.mul? maxDeviation = some band)
    (hp : low ≤ priceValue p ∧ priceValue p ≤ high) :
    within mid band p = true := by
  obtain ⟨-, hdistance⟩ := distance_le_of_narrow hlow hnarrow hp hmid
  have hraw : band.raw =
      roundHalfEvenInt (mid.raw * maxDeviation.raw) (10 ^ 18) :=
    FixedPoint.checked_eq_some_iff.mp hband
  rw [within, decide_eq_true_eq, hraw]
  apply le_roundHalfEvenInt_of_mul_le
  · norm_num
  · rw [mul_comm mid.raw]
    exact_mod_cast hdistance

/-- What is dropped is neither in the interval nor part of the majority. -/
theorem dropDeviating_majority {maxDeviation : LegacyDec}
    {kept : List LegacyDec} (hlow : 0 < low)
    (hnarrow : high - low ≤ maxDeviation.toRat * low)
    (hmajority : prices.length < 2 * quotesWithin prices low high)
    (hkept : dropDeviating prices maxDeviation = .ok kept) :
    kept.length ≤ prices.length ∧
      quotesWithin kept low high = quotesWithin prices low high := by
  rcases dropDeviating_cases hkept with
    ⟨rfl, -⟩ | ⟨mid, band, hmedian, hband, rfl⟩
  · exact ⟨le_rfl, rfl⟩
  · have hmid := median_within hmajority hmedian
    refine ⟨List.length_filter_le _ _, ?_⟩
    rw [quotesWithin, List.countP_filter]
    apply List.countP_congr
    intro p _
    simp only [Bool.and_eq_true, decide_eq_true_eq, and_iff_left_iff_imp]
    exact within_of_narrow hlow hnarrow hmid hband

theorem crossSourceMedian_within {maxDeviation : LegacyDec}
    {minProviders : Int64} (hlow : 0 < low)
    (hnarrow : high - low ≤ maxDeviation.toRat * low)
    (hmajority : prices.length < 2 * quotesWithin prices low high)
    {price : LegacyDec}
    (hprice : crossSourceMedian prices maxDeviation minProviders = .ok price) :
    low ≤ priceValue price ∧ priceValue price ≤ high := by
  obtain ⟨-, kept, hkept, -, hmedian⟩ := crossSourceMedian_eq_ok_iff.mp hprice
  obtain ⟨hlength, hsame⟩ :=
    dropDeviating_majority hlow hnarrow hmajority hkept
  exact median_within (by omega) hmedian

theorem quotesWithin_le_length (quotes : List LegacyDec) (low high : ℚ) :
    quotesWithin quotes low high ≤ quotes.length :=
  List.countP_le_length

/-- Enough quotes of the interval make the policy return a price, unless it
panics. -/
theorem exists_crossSourceMedian {maxDeviation : LegacyDec}
    {minProviders : Int64} (hmin : 1 ≤ minProviders.toInt) (hlow : 0 < low)
    (hnarrow : high - low ≤ maxDeviation.toRat * low)
    (hmajority : prices.length < 2 * quotesWithin prices low high)
    (henough : minProviders.toInt ≤ quotesWithin prices low high)
    (hsafe : crossSourceMedian prices maxDeviation minProviders ≠
      Exec.panicked) :
    ∃ price,
      crossSourceMedian prices maxDeviation minProviders = .ok price := by
  have hcounted := quotesWithin_le_length prices low high
  have hmany : ¬ (prices.length : ℤ) < minProviders.toInt := by omega
  rcases dropDeviating_panicked_or_ok prices maxDeviation with
    hpanic | ⟨kept, hkept⟩
  · exact absurd (by simp [crossSourceMedian, hmany, hpanic, bind, Except.bind,
      Exec.panicked]) hsafe
  · obtain ⟨-, hsame⟩ := dropDeviating_majority hlow hnarrow hmajority hkept
    have hcounted' := quotesWithin_le_length kept low high
    have hleft : ¬ (kept.length : ℤ) < minProviders.toInt := by omega
    have hne : kept ≠ [] := List.length_pos_iff.mp (by omega)
    rcases median_panicked_or_ok hne with hpanic | ⟨price, hprice⟩
    · exact absurd (by simp [crossSourceMedian, hmany, hkept, hleft, hpanic,
        bind, Except.bind]) hsafe
    · exact ⟨price, crossSourceMedian_eq_ok_iff.mpr
        ⟨not_lt.mp hmany, kept, hkept, not_lt.mp hleft, hprice⟩⟩

end Majority

/-! ## The order of the quotes -/

section Order

variable {prices prices' : List LegacyDec}

theorem sortedAt_perm (hperm : prices.Perm prices') (i : ℕ) :
    sortedAt prices i = sortedAt prices' i := by
  unfold sortedAt
  rw [insertionSort_eq_of_perm _ hperm]
  intro a _ b _ hab hba
  exact FixedPoint.ext_raw (le_antisymm hab hba)

theorem median_perm (hperm : prices.Perm prices') :
    median prices = median prices' := by
  simp only [median, hperm.length_eq, sortedAt_perm hperm]

/-- Equal failures, or results equal up to their order. -/
inductive SameQuotes :
    Exec (List LegacyDec) → Exec (List LegacyDec) → Prop
  | failed (failure : Failure) : SameQuotes (.error failure) (.error failure)
  | kept {quotes quotes' : List LegacyDec} (hperm : quotes.Perm quotes') :
      SameQuotes (.ok quotes) (.ok quotes')

theorem keepWithin_perm (hperm : prices.Perm prices') (mid band : LegacyDec) :
    SameQuotes (keepWithin mid band prices)
      (keepWithin mid band prices') := by
  rw [keepWithin_eq, keepWithin_eq, hperm.all_eq]
  split_ifs
  · exact .kept (hperm.filter _)
  · exact .failed _

theorem dropDeviating_perm (hperm : prices.Perm prices')
    (maxDeviation : LegacyDec) :
    SameQuotes (dropDeviating prices maxDeviation)
      (dropDeviating prices' maxDeviation) := by
  by_cases hempty : prices = []
  · have hsame : prices' = prices := by
      rw [hempty] at hperm ⊢
      exact hperm.symm.eq_nil
    rw [hsame, dropDeviating, if_pos hempty]
    exact .kept (List.Perm.refl prices)
  · have hempty' : prices' ≠ [] := by
      rintro rfl
      exact hempty hperm.eq_nil
    unfold dropDeviating
    rw [if_neg hempty, if_neg hempty', median_perm hperm]
    cases median prices' with
    | error failure =>
        cases failure with
        | error err => exact .kept hperm
        | panicked => exact .failed _
    | ok mid =>
        dsimp only
        split_ifs
        · exact .kept hperm
        · cases mid.mul? maxDeviation with
          | none => exact .failed _
          | some band => exact keepWithin_perm hperm mid band

theorem crossSourceMedian_perm (hperm : prices.Perm prices')
    (maxDeviation : LegacyDec) (minProviders : Int64) :
    crossSourceMedian prices maxDeviation minProviders =
      crossSourceMedian prices' maxDeviation minProviders := by
  have hsame := dropDeviating_perm hperm maxDeviation
  unfold crossSourceMedian
  rw [hperm.length_eq]
  generalize dropDeviating prices maxDeviation = left at hsame ⊢
  generalize dropDeviating prices' maxDeviation = right at hsame ⊢
  cases hsame with
  | failed failure => rfl
  | kept hkept =>
      simp only [bind, Except.bind, hkept.length_eq, median_perm hkept]

end Order

/-- Whatever fewer than half of the sources report, the policy publishes a
price of the others' interval, in whichever order the quotes come. -/
theorem crossSourceMedian_resists_minority {prices : List LegacyDec}
    {maxDeviation : LegacyDec} {minProviders : Int64}
    (hdev : 0 < maxDeviation.raw) (hone : maxDeviation.raw ≤ 10 ^ 18)
    (hmin : 1 ≤ minProviders.toInt) :
    (∀ low high : ℚ, 0 < low → high - low ≤ maxDeviation.toRat * low →
      prices.length < 2 * quotesWithin prices low high →
      (∀ price,
        crossSourceMedian prices maxDeviation minProviders = .ok price →
          low ≤ priceValue price ∧ priceValue price ≤ high) ∧
      (minProviders.toInt ≤ quotesWithin prices low high →
        crossSourceMedian prices maxDeviation minProviders ≠ Exec.panicked →
        ∃ price,
          crossSourceMedian prices maxDeviation minProviders = .ok price)) ∧
    ((∀ p ∈ prices, Moderate p) →
      crossSourceMedian prices maxDeviation minProviders ≠ Exec.panicked) ∧
    ∀ prices', prices.Perm prices' →
      crossSourceMedian prices maxDeviation minProviders =
        crossSourceMedian prices' maxDeviation minProviders := by
  refine ⟨?_, ?_, ?_⟩
  · intro low high hlow hnarrow hmajority
    constructor
    · intro price hprice
      exact crossSourceMedian_within hlow hnarrow hmajority hprice
    · intro henough hsafe
      exact exists_crossSourceMedian hmin hlow hnarrow hmajority henough hsafe
  · intro hmoderate
    exact crossSourceMedian_ne_panicked hmin hmoderate hdev.le hone
  · intro prices' hperm
    exact crossSourceMedian_perm hperm maxDeviation minProviders

/-- Two sources near 100, with a third between them. -/
def outvotedQuotes (bad : LegacyDec) : List LegacyDec :=
  [legacyNewDec 100, bad, legacyNewDec 101]

/-- A quote of zero is outvoted, in every order of the three. -/
theorem zero_quote_outvoted :
    (∃ price,
      crossSourceMedian (outvotedQuotes legacyZeroDec) fallbackDeviation 2 =
          .ok price ∧
        100 ≤ priceValue price ∧ priceValue price ≤ 101) ∧
      ∀ prices', (outvotedQuotes legacyZeroDec).Perm prices' →
        crossSourceMedian (outvotedQuotes legacyZeroDec) fallbackDeviation 2 =
          crossSourceMedian prices' fallbackDeviation 2 := by
  obtain ⟨hinterval, hmoderate, horder⟩ :=
    @crossSourceMedian_resists_minority (outvotedQuotes legacyZeroDec)
      fallbackDeviation 2 (by decide) (by decide) (by decide)
  obtain ⟨hwithin, hreturns⟩ := hinterval 100 101 (by norm_num)
    (by decide +kernel) (by decide +kernel)
  obtain ⟨price, hprice⟩ := hreturns (by decide +kernel)
    (hmoderate (by decide +kernel))
  exact ⟨⟨price, hprice, hwithin price hprice⟩, horder⟩

end Vertix.Feeder

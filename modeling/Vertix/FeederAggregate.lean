import Vertix.SdkInterface
import Vertix.OrderStatistics
import Mathlib.Tactic

/-!
# The feeder's median over sources

Quotes of several providers for one pair are reduced to a single price: quotes
far from the provisional median are dropped, and the median of the others is
taken if enough are left.  Sums and products of decimals may overflow, which
panics, unless all quotes are below half of the bound of a decimal.  Positive
quotes give a positive price.
-/

namespace Vertix.Feeder

open OrderStatistics

def errInsufficientSources : SdkError :=
  SdkError.plain "insufficient healthy price sources"

/-- The price at position `i` of the sorted prices. -/
def sortedAt (prices : List LegacyDec) (i : ℕ) : LegacyDec :=
  (prices.insertionSort fun a b => a.raw ≤ b.raw).getD i legacyZeroDec

/-- The middle price, or the average of the two middle ones. -/
def median (prices : List LegacyDec) : Exec LegacyDec :=
  if prices.length = 0 then Exec.fail (SdkError.plain "median of empty set")
  else if prices.length % 2 = 1 then
    return sortedAt prices (prices.length / 2)
  else do
    let lo := sortedAt prices (prices.length / 2 - 1)
    let hi := sortedAt prices (prices.length / 2)
    let sum ← Exec.ofOption (lo.add? hi)
    return sum.quoInt 2

/-- The prices whose distance from `mid` is within `band`. -/
def keepWithin (mid band : LegacyDec) : List LegacyDec → Exec (List LegacyDec)
  | [] => return []
  | p :: rest => do
      let diff ← Exec.ofOption (p.sub? mid)
      let kept ← keepWithin mid band rest
      return if diff.abs.raw ≤ band.raw then p :: kept else kept

/-- A provisional median that is not positive leaves all prices in. -/
def dropDeviating (prices : List LegacyDec) (maxDeviation : LegacyDec) :
    Exec (List LegacyDec) :=
  if prices = [] then return prices
  else
    match median prices with
    | .error .panicked => Exec.panicked
    | .error (.error _) => return prices
    | .ok mid =>
        if mid.raw ≤ 0 then return prices
        else do
          let band ← Exec.ofOption (mid.mul? maxDeviation)
          keepWithin mid band prices

def crossSourceMedian (prices : List LegacyDec) (maxDeviation : LegacyDec)
    (minProviders : Int64) : Exec LegacyDec :=
  if (prices.length : ℤ) < minProviders.toInt then
    Exec.fail errInsufficientSources
  else do
    let filtered ← dropDeviating prices maxDeviation
    if (filtered.length : ℤ) < minProviders.toInt then
      Exec.fail errInsufficientSources
    else median filtered

/-! ## The two middle prices -/

section Aggregate

variable {prices : List LegacyDec}

theorem sortedAt_eq_getElem {i : ℕ}
    (hi : i < (prices.insertionSort fun a b => a.raw ≤ b.raw).length) :
    sortedAt prices i =
      (prices.insertionSort fun a b => a.raw ≤ b.raw)[i] := by
  rw [sortedAt, List.getD_eq_getElem?_getD, List.getElem?_eq_getElem hi,
    Option.getD_some]

theorem sortedAt_mem {i : ℕ} (hi : i < prices.length) :
    sortedAt prices i ∈ prices := by
  rw [sortedAt_eq_getElem (by rwa [List.length_insertionSort])]
  exact (List.mem_insertionSort _).mp (List.getElem_mem _)

theorem sortedAt_mono {i j : ℕ} (hij : i ≤ j) (hj : j < prices.length) :
    (sortedAt prices i).raw ≤ (sortedAt prices j).raw := by
  rw [← List.length_insertionSort (fun a b => a.raw ≤ b.raw)] at hj
  rw [sortedAt_eq_getElem (lt_of_le_of_lt hij hj), sortedAt_eq_getElem hj]
  exact key_getElem_mono (List.pairwise_insertionSort _ prices) hij hj

theorem median_eq_ok_iff {m : LegacyDec} :
    median prices = .ok m ↔
      (prices.length % 2 = 1 ∧ sortedAt prices (prices.length / 2) = m) ∨
      (prices.length ≠ 0 ∧ prices.length % 2 = 0 ∧ ∃ sum : LegacyDec,
        sum.raw = (sortedAt prices (prices.length / 2 - 1)).raw +
          (sortedAt prices (prices.length / 2)).raw ∧
        sum.quoInt 2 = m) := by
  unfold median
  by_cases hempty : prices.length = 0
  · simp [hempty]
  · rcases Nat.mod_two_eq_zero_or_one prices.length with heven | hodd
    · have hnotOdd : ¬ prices.length % 2 = 1 := by omega
      rw [if_neg hempty, if_neg hnotOdd]
      simp only [bind_eq_ok_iff, Exec.ofOption_eq_ok_iff, pure_eq_ok_iff,
        FixedPoint.add?, FixedPoint.checked_eq_some_iff]
      constructor
      · rintro ⟨sum, hsum, hm⟩
        exact Or.inr ⟨hempty, heven, sum, hsum, hm⟩
      · rintro (⟨hodd, -⟩ | ⟨-, -, sum, hsum, hm⟩)
        · exact absurd hodd hnotOdd
        · exact ⟨sum, hsum, hm⟩
    · simp [hempty, hodd]

/-- Half of a sum, truncated towards zero, lies between the summands. -/
theorem half_between {lo hi : ℤ} (hle : lo ≤ hi) :
    lo ≤ (lo + hi).tdiv 2 ∧ (lo + hi).tdiv 2 ≤ hi := by
  have hself : ∀ x : ℤ, (2 * x).tdiv 2 = x := by
    intro x
    exact Int.mul_tdiv_cancel_left x (by norm_num)
  constructor
  · calc lo = (2 * lo).tdiv 2 := (hself lo).symm
      _ ≤ (lo + hi).tdiv 2 := Int.tdiv_le_tdiv (by norm_num) (by omega)
  · calc (lo + hi).tdiv 2 ≤ (2 * hi).tdiv 2 :=
        Int.tdiv_le_tdiv (by norm_num) (by omega)
      _ = hi := hself hi

/-- The median lies between a price at or after the lower middle and one at or
before the upper middle. -/
theorem median_between {m : LegacyDec} (hmedian : median prices = .ok m) :
    ∃ i j, (i < prices.length ∧ prices.length ≤ 2 * i + 2) ∧
      (j < prices.length ∧ 2 * j ≤ prices.length) ∧
      (sortedAt prices i).raw ≤ m.raw ∧ m.raw ≤ (sortedAt prices j).raw := by
  rcases median_eq_ok_iff.mp hmedian with
    ⟨hodd, rfl⟩ | ⟨hne, heven, sum, hsum, rfl⟩
  · exact ⟨prices.length / 2, prices.length / 2, by omega, by omega, le_rfl,
      le_rfl⟩
  · refine ⟨prices.length / 2 - 1, prices.length / 2, by omega, by omega, ?_⟩
    change _ ≤ sum.raw.tdiv 2 ∧ sum.raw.tdiv 2 ≤ _
    rw [hsum]
    exact half_between (sortedAt_mono (by omega) (by omega))

theorem median_pos (hprices : ∀ p ∈ prices, 0 < p.raw) {m : LegacyDec}
    (hmedian : median prices = .ok m) : 0 < m.raw := by
  obtain ⟨i, j, hi, hj, hlow, hhigh⟩ := median_between hmedian
  exact lt_of_lt_of_le (hprices _ (sortedAt_mem hi.1)) hlow

/-! ## Prices of moderate size -/

/-- Below half of the bound of a decimal, so that no sum and no difference of
two prices reaches it. -/
def Moderate (p : LegacyDec) : Prop :=
  2 * p.raw.natAbs < 2 ^ 256 * 10 ^ 18

instance decidableModerate (p : LegacyDec) : Decidable (Moderate p) :=
  inferInstanceAs (Decidable (_ < _))

theorem Moderate.sub? {p q : LegacyDec} (hp : Moderate p) (hq : Moderate q) :
    (p.sub? q).isSome := by
  have hbound : (p.raw - q.raw).natAbs < 2 ^ 256 * 10 ^ 18 := by
    unfold Moderate at hp hq
    omega
  rw [FixedPoint.sub?, FixedPoint.checked, dif_pos hbound, Option.isSome_some]

theorem median_moderate (hprices : ∀ p ∈ prices, Moderate p) {m : LegacyDec}
    (hmedian : median prices = .ok m) : Moderate m := by
  obtain ⟨i, j, hi, hj, hlow, hhigh⟩ := median_between hmedian
  have hleft := hprices _ (sortedAt_mem hi.1)
  have hright := hprices _ (sortedAt_mem hj.1)
  unfold Moderate at hleft hright ⊢
  omega

theorem exists_median (hne : prices ≠ [])
    (hprices : ∀ p ∈ prices, Moderate p) :
    ∃ m, median prices = .ok m := by
  have hlength : 0 < prices.length := List.length_pos_iff.mpr hne
  simp only [median_eq_ok_iff]
  rcases Nat.mod_two_eq_zero_or_one prices.length with heven | hodd
  · have hlo : Moderate (sortedAt prices (prices.length / 2 - 1)) :=
      hprices _ (sortedAt_mem (by omega))
    have hhi : Moderate (sortedAt prices (prices.length / 2)) :=
      hprices _ (sortedAt_mem (by omega))
    have hsum : ((sortedAt prices (prices.length / 2 - 1)).raw +
        (sortedAt prices (prices.length / 2)).raw).natAbs <
          2 ^ 256 * 10 ^ 18 := by
      unfold Moderate at hlo hhi
      omega
    exact ⟨_, Or.inr ⟨by omega, heven, ⟨_, hsum⟩, rfl, rfl⟩⟩
  · exact ⟨_, Or.inl ⟨hodd, rfl⟩⟩

/-! ## The prices kept -/

def within (mid band p : LegacyDec) : Bool := |p.raw - mid.raw| ≤ band.raw

/-- The loop panics if one of the differences does, and else keeps the prices
within the band. -/
theorem keepWithin_eq (mid band : LegacyDec) (prices : List LegacyDec) :
    keepWithin mid band prices =
      if prices.all fun p => (p.sub? mid).isSome then
        .ok (prices.filter (within mid band))
      else Exec.panicked := by
  induction prices with
  | nil => rfl
  | cons p rest ih =>
      rw [keepWithin, ih]
      cases hsub : p.sub? mid with
      | none => simp [hsub, Exec.ofOption, bind, Except.bind, Exec.panicked]
      | some diff =>
          have hdiff : diff.raw = p.raw - mid.raw :=
            FixedPoint.checked_eq_some_iff.mp hsub
          have hkeep : diff.abs.raw ≤ band.raw ↔ within mid band p = true := by
            simp [FixedPoint.abs, within, hdiff]
          simp only [hkeep, List.all_cons, hsub, Option.isSome_some,
            Bool.true_and, List.filter_cons, Exec.ofOption, bind, Except.bind]
          split_ifs <;> rfl

theorem keepWithin_eq_ok {mid band : LegacyDec} {kept : List LegacyDec}
    (hkept : keepWithin mid band prices = .ok kept) :
    kept = prices.filter (within mid band) := by
  rw [keepWithin_eq] at hkept
  split_ifs at hkept
  · exact (Except.ok.inj hkept).symm
  · simp [Exec.panicked] at hkept

theorem median_panicked_or_ok (hne : prices ≠ []) :
    median prices = Exec.panicked ∨ ∃ m, median prices = .ok m := by
  have hlength : prices.length ≠ 0 := fun hzero =>
    hne (List.length_eq_zero_iff.mp hzero)
  unfold median
  rw [if_neg hlength]
  split_ifs
  · exact Or.inr ⟨_, rfl⟩
  · dsimp only
    cases (sortedAt prices (prices.length / 2 - 1)).add?
        (sortedAt prices (prices.length / 2)) with
    | none => exact Or.inl rfl
    | some sum => exact Or.inr ⟨_, rfl⟩

theorem dropDeviating_panicked_or_ok (prices : List LegacyDec)
    (maxDeviation : LegacyDec) :
    dropDeviating prices maxDeviation = Exec.panicked ∨
      ∃ kept, dropDeviating prices maxDeviation = .ok kept := by
  unfold dropDeviating
  split_ifs with hempty
  · exact Or.inr ⟨prices, rfl⟩
  · rcases median_panicked_or_ok hempty with hpanic | ⟨mid, hmid⟩
    · rw [hpanic]
      exact Or.inl rfl
    · rw [hmid]
      dsimp only
      split_ifs
      · exact Or.inr ⟨prices, rfl⟩
      · cases mid.mul? maxDeviation with
        | none => exact Or.inl rfl
        | some band =>
            change keepWithin mid band prices = _ ∨
              ∃ kept, keepWithin mid band prices = _
            rw [keepWithin_eq]
            split_ifs
            · exact Or.inr ⟨_, rfl⟩
            · exact Or.inl rfl

theorem dropDeviating_cases {maxDeviation : LegacyDec}
    {kept : List LegacyDec}
    (hkept : dropDeviating prices maxDeviation = .ok kept) :
    (kept = prices ∧ ∀ mid, median prices = .ok mid → mid.raw ≤ 0) ∨
      ∃ mid band, median prices = .ok mid ∧ mid.mul? maxDeviation = some band ∧
        kept = prices.filter (within mid band) := by
  unfold dropDeviating at hkept
  split_ifs at hkept with hempty
  · simp only [pure_eq_ok_iff] at hkept
    refine Or.inl ⟨hkept.symm, ?_⟩
    rw [hempty]
    simp [median]
  · cases hmedian : median prices with
    | error failure =>
        rw [hmedian] at hkept
        cases failure with
        | error err =>
            simp only [pure_eq_ok_iff] at hkept
            exact Or.inl ⟨hkept.symm, by simp⟩
        | panicked => simp at hkept
    | ok mid =>
        rw [hmedian] at hkept
        dsimp only at hkept
        split_ifs at hkept with hsign
        · simp only [pure_eq_ok_iff] at hkept
          refine Or.inl ⟨hkept.symm, ?_⟩
          rintro mid' heq
          rwa [← Except.ok.inj heq]
        · simp only [bind_eq_ok_iff, Exec.ofOption_eq_ok_iff] at hkept
          obtain ⟨band, hband, hkept⟩ := hkept
          exact Or.inr ⟨mid, band, rfl, hband, keepWithin_eq_ok hkept⟩

theorem dropDeviating_subset {maxDeviation : LegacyDec}
    {kept : List LegacyDec}
    (hkept : dropDeviating prices maxDeviation = .ok kept) :
    kept ⊆ prices := by
  rcases dropDeviating_cases hkept with ⟨rfl, -⟩ | ⟨mid, band, -, -, rfl⟩
  · exact List.Subset.refl kept
  · exact List.filter_subset_self _

theorem exists_dropDeviating {maxDeviation : LegacyDec}
    (hprices : ∀ p ∈ prices, Moderate p)
    (hdev : 0 ≤ maxDeviation.raw) (hone : maxDeviation.raw ≤ 10 ^ 18) :
    ∃ kept, dropDeviating prices maxDeviation = .ok kept := by
  unfold dropDeviating
  split_ifs with hempty
  · exact ⟨prices, rfl⟩
  · obtain ⟨mid, hmid⟩ := exists_median hempty hprices
    have hmoderate := median_moderate hprices hmid
    have hband : ∃ band, mid.mul? maxDeviation = some band :=
      FixedPoint.mul?_of_le_one (by norm_num) hdev (by exact_mod_cast hone)
    obtain ⟨band, hband⟩ := hband
    have hdiffs : prices.all (fun p => (p.sub? mid).isSome) = true := by
      rw [List.all_eq_true]
      intro p hp
      exact (hprices p hp).sub? hmoderate
    rw [hmid]
    dsimp only
    split_ifs
    · exact ⟨prices, rfl⟩
    · simp only [bind_eq_ok_iff, Exec.ofOption_eq_ok_iff]
      exact ⟨_, band, hband, by rw [keepWithin_eq, if_pos hdiffs]⟩

/-! ## The policy -/

theorem crossSourceMedian_eq_ok_iff {maxDeviation : LegacyDec}
    {minProviders : Int64} {m : LegacyDec} :
    crossSourceMedian prices maxDeviation minProviders = .ok m ↔
      minProviders.toInt ≤ prices.length ∧ ∃ kept,
        dropDeviating prices maxDeviation = .ok kept ∧
          minProviders.toInt ≤ kept.length ∧ median kept = .ok m := by
  unfold crossSourceMedian
  split_ifs with hfew
  · simp [not_le.mpr hfew]
  · rw [bind_eq_ok_iff]
    constructor
    · rintro ⟨kept, hkept, hmedian⟩
      split_ifs at hmedian with hleft
      · simp at hmedian
      · exact ⟨not_lt.mp hfew, kept, hkept, not_lt.mp hleft, hmedian⟩
    · rintro ⟨-, kept, hkept, hleft, hmedian⟩
      exact ⟨kept, hkept, by rw [if_neg (not_lt.mpr hleft), hmedian]⟩

theorem crossSourceMedian_pos {maxDeviation : LegacyDec}
    {minProviders : Int64} {m : LegacyDec}
    (hprices : ∀ p ∈ prices, 0 < p.raw)
    (hmedian : crossSourceMedian prices maxDeviation minProviders = .ok m) :
    0 < m.raw := by
  obtain ⟨-, kept, hkept, -, hmedian⟩ :=
    crossSourceMedian_eq_ok_iff.mp hmedian
  exact median_pos (fun p hp => hprices p (dropDeviating_subset hkept hp))
    hmedian

theorem crossSourceMedian_ne_panicked {maxDeviation : LegacyDec}
    {minProviders : Int64} (hmin : 1 ≤ minProviders.toInt)
    (hprices : ∀ p ∈ prices, Moderate p)
    (hdev : 0 ≤ maxDeviation.raw) (hone : maxDeviation.raw ≤ 10 ^ 18) :
    crossSourceMedian prices maxDeviation minProviders ≠ Exec.panicked := by
  obtain ⟨kept, hkept⟩ := exists_dropDeviating hprices hdev hone
  have hsubset := dropDeviating_subset hkept
  unfold crossSourceMedian
  rw [hkept]
  split_ifs with hfew
  · simp [Exec.fail, Exec.panicked]
  · change (if _ then _ else median kept) ≠ _
    split_ifs with hleft
    · simp [Exec.fail, Exec.panicked]
    · have hne : kept ≠ [] := by
        rintro rfl
        simp only [List.length_nil, Nat.cast_zero] at hleft
        omega
      obtain ⟨m, hm⟩ := exists_median hne fun p hp => hprices p (hsubset hp)
      rw [hm]
      simp [Exec.panicked]

end Aggregate

end Vertix.Feeder

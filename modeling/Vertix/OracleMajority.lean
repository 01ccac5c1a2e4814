import Vertix.OracleParticipation
import Mathlib.Tactic

/-!
# What a majority decides

Both medians of the oracle are selections from the sorted submissions.  The
unweighted one is balanced: an interval which holds more than half of the
submissions contains it, and nobody inside a narrow interval of that kind is
slashed.  The weighted one compares the running power with half of the total
rounded down.  For an odd total this is half a unit too low, and the walk may
stop at a price which more than half of the power exceeds.
-/

namespace Vertix
namespace Oracle

open OrderStatistics

/-! ## The weighted median -/

def priceValue (price : LegacyDec) : ℚ := price.toRat

theorem priceValue_le_iff {a b : LegacyDec} :
    priceValue a ≤ priceValue b ↔ a.raw ≤ b.raw :=
  FixedPoint.toRat_le_toRat_iff (by norm_num)

def WeightedPrice.value (e : WeightedPrice) : ℚ := priceValue e.price

abbrev totalPower (entries : List WeightedPrice) : ℤ :=
  totalWeight WeightedPrice.weightInt entries

abbrev powerBelow (entries : List WeightedPrice) (level : ℚ) : ℤ :=
  weightBelow WeightedPrice.value WeightedPrice.weightInt entries level

abbrev powerUpTo (entries : List WeightedPrice) (level : ℚ) : ℤ :=
  weightUpTo WeightedPrice.value WeightedPrice.weightInt entries level

abbrev powerAbove (entries : List WeightedPrice) (level : ℚ) : ℤ :=
  weightAbove WeightedPrice.value WeightedPrice.weightInt entries level

abbrev powerWithin (entries : List WeightedPrice) (low high : ℚ) : ℤ :=
  weightWithin WeightedPrice.value WeightedPrice.weightInt entries low high

theorem before_value_le {a b : WeightedPrice} (hbefore : a.before b) :
    a.value ≤ b.value := by
  apply priceValue_le_iff.mpr
  rcases hbefore with hlt | heq
  · exact hlt.le
  · exact heq.1.le

theorem pairwise_value_le (entries : List WeightedPrice) :
    (entries.insertionSort WeightedPrice.before).Pairwise
      fun a b => a.value ≤ b.value :=
  (List.pairwise_insertionSort WeightedPrice.before entries).imp
    before_value_le

/-- Every interval with more than half of the power contains the median. -/
def MajorityDecides (entries : List WeightedPrice) : Prop :=
  ∀ low high, totalPower entries < 2 * powerWithin entries low high →
    low ≤ priceValue (weightedMedian entries) ∧
      priceValue (weightedMedian entries) ≤ high

/-- The power up to some submitted price falls short of half of an odd total
by half a unit. -/
def StopsShort (entries : List WeightedPrice) : Prop :=
  ∃ e ∈ entries, 2 * powerUpTo entries e.value + 1 = totalPower entries

instance decidableStopsShort (entries : List WeightedPrice) :
    Decidable (StopsShort entries) :=
  inferInstanceAs (Decidable (∃ e ∈ entries, _))

theorem totalPower_filter_sorted (entries : List WeightedPrice)
    (keep : WeightedPrice → Bool) :
    totalPower ((entries.insertionSort WeightedPrice.before).filter keep) =
      totalPower (entries.filter keep) :=
  totalWeight_perm _ ((List.perm_insertionSort _ entries).filter keep)

/-- The power on the two sides of the published median. -/
theorem weightedMedian_sides
    {entries : List WeightedPrice} (hne : entries ≠ [])
    (hweight : ∀ e ∈ entries, 0 ≤ e.weightInt)
    (hfits : totalPower entries < 2 ^ 63) :
    (0 < powerBelow entries (priceValue (weightedMedian entries)) →
        powerBelow entries (priceValue (weightedMedian entries)) <
          totalPower entries / 2) ∧
      powerAbove entries (priceValue (weightedMedian entries)) ≤
        totalPower entries - totalPower entries / 2 := by
  rcases exists_select_weightedMedian hne hweight hfits with
    ⟨e, hselect, hmedian⟩
  have hperm := List.perm_insertionSort WeightedPrice.before entries
  have hsides := select_sides
    (fun other hother => hweight other (hperm.mem_iff.mp hother))
    (pairwise_value_le entries) hselect
  simp only [weightBelow, weightAbove, totalPower_filter_sorted,
    totalWeight_perm _ hperm] at hsides
  rw [hmedian]
  exact hsides

theorem weightInt_le_powerUpTo
    {entries : List WeightedPrice} {e : WeightedPrice}
    (hweight : ∀ e ∈ entries, 0 ≤ e.weightInt) (he : e ∈ entries) :
    e.weightInt ≤ powerUpTo entries e.value := by
  apply List.single_le_sum
  · intro weight hmem
    rcases List.mem_map.mp hmem with ⟨other, hother, rfl⟩
    exact hweight other (List.mem_of_mem_filter hother)
  · exact List.mem_map_of_mem (List.mem_filter.mpr ⟨he, by simp⟩)

/-- A walk that stops short does so at or before the price in question. -/
theorem weightedMedian_le_of_stopsShort
    {entries : List WeightedPrice} {e : WeightedPrice}
    (hweight : ∀ e ∈ entries, 0 < e.weightInt)
    (hfits : totalPower entries < 2 ^ 63) (he : e ∈ entries)
    (hshort : 2 * powerUpTo entries e.value + 1 = totalPower entries) :
    priceValue (weightedMedian entries) ≤ e.value := by
  have hnonneg : ∀ e ∈ entries, 0 ≤ e.weightInt :=
    fun e he => (hweight e he).le
  have hbelow :=
    (weightedMedian_sides (List.ne_nil_of_mem he) hnonneg hfits).1
  by_contra hover
  have hcovered : powerUpTo entries e.value ≤
      powerBelow entries (priceValue (weightedMedian entries)) := by
    apply totalWeight_filter_mono hnonneg
    simp only [decide_eq_true_eq]
    intro other _ hother
    exact lt_of_le_of_lt hother (not_le.mp hover)
  have hown := weightInt_le_powerUpTo hnonneg he
  have hpos := hweight e he
  have hlt := hbelow (by omega)
  omega

/-- The level has at most half of the power on either side. -/
def HalvesPower (entries : List WeightedPrice) (level : ℚ) : Prop :=
  2 * powerBelow entries level ≤ totalPower entries ∧
    2 * powerAbove entries level ≤ totalPower entries

theorem weightedMedian_halvesPower_iff
    {entries : List WeightedPrice} (hne : entries ≠ [])
    (hweight : ∀ e ∈ entries, 0 < e.weightInt)
    (hfits : totalPower entries < 2 ^ 63) :
    HalvesPower entries (priceValue (weightedMedian entries)) ↔
      ¬ StopsShort entries := by
  have hnonneg : ∀ e ∈ entries, 0 ≤ e.weightInt :=
    fun e he => (hweight e he).le
  have htotal : 0 ≤ totalPower entries := totalWeight_nonneg hnonneg
  have hsplit : ∀ level, powerUpTo entries level + powerAbove entries level =
      totalPower entries :=
    weightUpTo_add_weightAbove WeightedPrice.value WeightedPrice.weightInt
      entries
  rcases weightedMedian_sides hne hnonneg hfits with ⟨hbelow, habove⟩
  constructor
  · rintro hbalanced ⟨e, he, hshort⟩
    have hle := weightedMedian_le_of_stopsShort hweight hfits he hshort
    have hmore : powerAbove entries e.value ≤
        powerAbove entries (priceValue (weightedMedian entries)) := by
      apply totalWeight_filter_mono hnonneg
      simp only [decide_eq_true_eq]
      intro other _ hother
      exact lt_of_le_of_lt hle hother
    have hsum := hsplit e.value
    have hhalf := hbalanced.2
    omega
  · intro hshort
    constructor
    · by_cases hpos : 0 < powerBelow entries
          (priceValue (weightedMedian entries))
      · have hlt := hbelow hpos
        omega
      · omega
    · by_contra hheavy
      rcases weightedMedian_mem hne hnonneg hfits with ⟨e, he, hmedian⟩
      have hsum := hsplit e.value
      apply hshort
      refine ⟨e, he, ?_⟩
      have hvalue : priceValue (weightedMedian entries) = e.value := by
        rw [hmedian, WeightedPrice.value]
      rw [hvalue] at habove hheavy
      omega

/-- A majority of the power decides the published price, and the median has
at most half of the power on either side, exactly when no submitted price
leaves the power up to it half a unit short of half. -/
theorem weightedMedian_is_median_iff
    {entries : List WeightedPrice} (hne : entries ≠ [])
    (hweight : ∀ e ∈ entries, 0 < e.weightInt)
    (hfits : totalPower entries < 2 ^ 63) :
    (MajorityDecides entries ↔ ¬ StopsShort entries) ∧
      (HalvesPower entries (priceValue (weightedMedian entries)) ↔
        ¬ StopsShort entries) := by
  have hhalves := weightedMedian_halvesPower_iff hne hweight hfits
  refine ⟨?_, hhalves⟩
  rw [← hhalves]
  exact (balancedAt_iff_majorities_contain fun e he => (hweight e he).le).symm

/-- Three validators of one power, two of which report ten times the price of
the first. -/
def threeReports (power : Int64) : List WeightedPrice :=
  [⟨legacyNewDec 1, power, "first"⟩, ⟨legacyNewDec 10, power, "second"⟩,
    ⟨legacyNewDec 10, power, "third"⟩]

theorem threeReports_even_power_decides :
    ¬ StopsShort (threeReports 2) ∧ MajorityDecides (threeReports 2) ∧
      weightedMedian (threeReports 2) = legacyNewDec 10 := by
  have hshort : ¬ StopsShort (threeReports 2) := by decide +kernel
  have hne : threeReports 2 ≠ [] := by decide
  have hboth := weightedMedian_is_median_iff hne (by decide) (by decide)
  exact ⟨hshort, hboth.1.mpr hshort, by decide +kernel⟩

/-- One validator out of three sets the price: two thirds of the power report
ten and the published median is one. -/
theorem single_validator_sets_price :
    (∀ e ∈ threeReports 1, 0 < e.weightInt) ∧
      totalPower (threeReports 1) = 3 ∧
      powerWithin (threeReports 1) 10 10 = 2 ∧
      weightedMedian (threeReports 1) = legacyNewDec 1 ∧
      ¬ MajorityDecides (threeReports 1) := by
  have hmedian : weightedMedian (threeReports 1) = legacyNewDec 1 := by
    decide +kernel
  have htotal : totalPower (threeReports 1) = 3 := by decide +kernel
  have hmost : powerWithin (threeReports 1) 10 10 = 2 := by decide +kernel
  refine ⟨by decide, htotal, hmost, hmedian, ?_⟩
  intro hdecides
  have hcontained := (hdecides 10 10 (by rw [htotal, hmost]; norm_num)).1
  rw [hmedian] at hcontained
  revert hcontained
  decide +kernel

/-! ## The unweighted median -/

theorem totalWeight_one {α : Type} (items : List α) :
    totalWeight (fun _ => 1) items = items.length := by
  induction items with
  | nil => rfl
  | cons item rest ih =>
      rw [totalWeight_cons, ih, List.length_cons]
      push_cast
      omega

theorem unweightedMedian_balancedAt {prices : List LegacyDec}
    (hne : prices ≠ []) :
    BalancedAt priceValue (fun _ => 1) prices
      (priceValue (unweightedMedian prices)) := by
  let sorted := prices.insertionSort fun a b => a.raw ≤ b.raw
  have hperm : sorted.Perm prices := List.perm_insertionSort _ prices
  have hsortedNe : sorted ≠ [] := by
    intro hnil
    rw [hnil] at hperm
    exact hne hperm.symm.eq_nil
  rcases lowerMiddle?_mem hsortedNe with ⟨price, hmiddle, -⟩
  have hmedian : unweightedMedian prices = price := by
    unfold unweightedMedian
    simp only [sorted] at hmiddle
    simp only [hmiddle]
  rw [lowerMiddle?_eq_select hsortedNe] at hmiddle
  have hordered : sorted.Pairwise fun a b => priceValue a ≤ priceValue b :=
    (List.pairwise_insertionSort _ prices).imp
      priceValue_le_iff.mpr
  have hsides := select_sides (fun _ _ => zero_le_one) hordered hmiddle
  have hfilter : ∀ keep : LegacyDec → Bool,
      totalWeight (fun _ => 1) (sorted.filter keep) =
        totalWeight (fun _ => 1) (prices.filter keep) :=
    fun keep => totalWeight_perm _ (hperm.filter keep)
  simp only [weightBelow, weightAbove, hfilter, totalWeight_one,
    hperm.length_eq] at hsides
  rcases hsides with ⟨hbelow, habove⟩
  rw [hmedian]
  simp only [BalancedAt, weightBelow, weightAbove, totalWeight_one]
  omega

/-- The reference of the outlier check lies in every interval which holds more
than half of the prices. -/
theorem unweightedMedian_within
    {prices : List LegacyDec} {low high : ℚ}
    (hmajority : prices.length <
      2 * prices.countP fun p => low ≤ priceValue p ∧ priceValue p ≤ high) :
    low ≤ priceValue (unweightedMedian prices) ∧
      priceValue (unweightedMedian prices) ≤ high := by
  have hne : prices ≠ [] := by
    rintro rfl
    simp at hmajority
  apply (balancedAt_iff_majorities_contain (fun _ _ => zero_le_one)).mp
    (unweightedMedian_balancedAt hne)
  rw [weightWithin, totalWeight_one, totalWeight_one,
    ← List.countP_eq_length_filter]
  exact_mod_cast hmajority

/-- The distance of two prices in a narrow interval is at most the given
fraction of either. -/
theorem distance_le_of_narrow
    {price ref threshold : LegacyDec} {low high : ℚ} (hlow : 0 < low)
    (hnarrow : high - low ≤ threshold.toRat * low)
    (hprice : low ≤ priceValue price ∧ priceValue price ≤ high)
    (href : low ≤ priceValue ref ∧ priceValue ref ≤ high) :
    0 ≤ threshold.raw ∧
      |price.raw - ref.raw| * 10 ^ 18 ≤ threshold.raw * ref.raw := by
  have hthreshold : 0 ≤ threshold.toRat := by
    by_contra hnegative
    nlinarith
  have hexact : |priceValue price - priceValue ref| ≤
      threshold.toRat * priceValue ref := by
    have hspread : |priceValue price - priceValue ref| ≤ high - low := by
      rw [abs_le]
      constructor <;> linarith
    nlinarith
  simp only [priceValue, FixedPoint.toRat] at hthreshold hexact
  constructor
  · have hraw : (0 : ℚ) ≤ threshold.raw := by
      rw [le_div_iff₀ (by norm_num), zero_mul] at hthreshold
      exact hthreshold
    exact_mod_cast hraw
  · have hscale : (0 : ℚ) < ((10 ^ 18 : ℕ) : ℚ) := by norm_num
    rw [← sub_div, abs_div, div_mul_div_comm, abs_of_pos hscale,
      div_le_div_iff₀ hscale (mul_pos hscale hscale)] at hexact
    have hscaled : |(price.raw : ℚ) - ref.raw| * 10 ^ 18 ≤
        threshold.raw * ref.raw := by
      push_cast at hexact
      nlinarith
    exact_mod_cast hscaled

namespace Window

/-- A price in a narrow interval with the reference deviates by at most the
threshold, rounding included. -/
theorem deviation_le_of_narrow
    {price ref threshold dev : LegacyDec} {low high : ℚ} (hlow : 0 < low)
    (hnarrow : high - low ≤ threshold.toRat * low)
    (hprice : low ≤ priceValue price ∧ priceValue price ≤ high)
    (href : low ≤ priceValue ref ∧ priceValue ref ≤ high)
    (hdev : deviation price ref = .ok dev) : dev.raw ≤ threshold.raw := by
  have hdistance := (distance_le_of_narrow hlow hnarrow hprice href).2
  have hpos : 0 < ref.raw := by
    have hvalue : 0 < priceValue ref := lt_of_lt_of_le hlow href.1
    rw [priceValue, FixedPoint.toRat,
      div_pos_iff_of_pos_right (by norm_num)] at hvalue
    exact_mod_cast hvalue
  simp only [deviation, bind_eq_ok_iff, Exec.ofOption_eq_ok_iff,
    FixedPoint.sub?, FixedPoint.checked_eq_some_iff] at hdev
  rcases hdev with ⟨diff, hdiff, hquo⟩
  have habs : diff.abs.raw = |price.raw - ref.raw| := by
    rw [← hdiff]
    exact (Int.abs_eq_natAbs diff.raw).symm
  apply FixedPoint.quo?_raw_le (by norm_num) hpos _ hquo
  rw [habs]
  exact_mod_cast hdistance

variable {sdk : Sdk}

/-- More than half of the counted submissions for a pair lie in the
interval. -/
def Majority (w : Window sdk) (store : OracleStore) (pair : String)
    (low high : ℚ) : Prop :=
  (w.countedFeeds store pair).length <
    2 * (w.countedFeeds store pair).countP
      fun f => low ≤ f.value ∧ f.value ≤ high

theorem not_outlying_of_majority
    {w : Window sdk} {store : OracleStore} {pair : String} {low high : ℚ}
    {f : WeightedPrice} (hlow : 0 < low)
    (hnarrow : high - low ≤ w.outlierThreshold.toRat * low)
    (hmajority : w.Majority store pair low high)
    (hprice : low ≤ f.value ∧ f.value ≤ high) :
    ¬ w.Outlying store pair f := by
  have hcounted : ((w.countedFeeds store pair).map WeightedPrice.price).length <
      2 * ((w.countedFeeds store pair).map WeightedPrice.price).countP
        fun p => low ≤ priceValue p ∧ priceValue p ≤ high := by
    rw [List.length_map, List.countP_map]
    exact hmajority
  have href := unweightedMedian_within hcounted
  rintro ⟨dev, hdev, hover⟩
  have hle := deviation_le_of_narrow hlow hnarrow hprice href hdev
  exact absurd hle (not_le.mpr hover)

/-- The slashes of a boundary call: for every published pair those of the
outlying submissions, then those of the validators which miss too often. -/
theorem slashes_of_close
    {w : Window sdk} {store : OracleStore}
    {result : OracleStore × List SlashCall}
    (hdistinct : Distinct sdk w.vals) (hclose : w.close store = .ok result) :
    result.2 = (w.livePairs store).flatMap (w.outlierSlashes store) ++
      w.vals.flatMap (w.missSlash store (w.livePairs store)) := by
  rcases (closedCounters_of_close hdistinct hclose).slashes with
    ⟨aggregated, hloop, hslashes⟩
  rw [hslashes, aggregate_slashes hloop]

end Window

/-- The slashes of a completed boundary call are those of the submissions of
the published pairs and those for misses.  When more than half of the counted
submissions for a pair lie in an interval no wider than the threshold allows,
none of the submissions in the interval contributes to the former. -/
theorem honest_majority_never_slashed
    {k : Keeper} {ctx : Ctx} {staking : StakingView k.sdk}
    {store : OracleStore} {result : OracleStore × List SlashCall}
    (hcall : endBlocker k ctx staking store = .ok result)
    (hboundary : ctx.blockHeight % (getParams store).voteWindow = 0) :
    ∃ w, openWindow k.sdk ctx staking (getParams store) = .ok w ∧
      result.2 = (w.livePairs store).flatMap (fun pair =>
          (w.countedFeeds store pair).flatMap (w.outlierSlash store pair)) ++
        w.vals.flatMap (w.missSlash store (w.livePairs store)) ∧
      ∀ pair ∈ w.livePairs store, ∀ low high : ℚ, 0 < low →
        high - low ≤ w.outlierThreshold.toRat * low →
        w.Majority store pair low high →
        ∀ f ∈ w.countedFeeds store pair,
          low ≤ f.value → f.value ≤ high →
          w.outlierSlash store pair f = [] := by
  rcases endBlocker_cases hcall with ⟨hinside, -⟩ | ⟨-, w, hopen, hclose⟩
  · exact absurd hboundary hinside
  · refine ⟨w, hopen, Window.slashes_of_close
      (Window.distinct_of_openWindow hopen) hclose, ?_⟩
    intro pair _ low high hlow hnarrow hmajority f _ hfrom hto
    exact if_neg (Window.not_outlying_of_majority hlow hnarrow hmajority
      ⟨hfrom, hto⟩)

instance decidableMajority {sdk : Sdk} (w : Window sdk) (store : OracleStore)
    (pair : String) (low high : ℚ) : Decidable (w.Majority store pair low high) :=
  inferInstanceAs (Decidable (_ < _))

/-- Two validators report `1.0` and `1.02`, a spread within the threshold of
five percent. -/
theorem close_reports_not_slashed :
    ∃ store result w,
      submittedPrices "1.0" "1.02" = .ok store ∧
        endBlocker referenceKeeper boundaryCtx twoValidators store =
          .ok result ∧
        openWindow referenceKeeper.sdk boundaryCtx twoValidators
          (getParams store) = .ok w ∧
        w.Majority store "VTX:USD" 1 (51 / 50) ∧
        ∀ f ∈ w.countedFeeds store "VTX:USD", 1 ≤ f.value →
          f.value ≤ 51 / 50 → w.outlierSlash store "VTX:USD" f = [] := by
  have hfacts : (submittedPrices "1.0" "1.02").toOption.any (fun store =>
      decide (boundaryCtx.blockHeight % (getParams store).voteWindow = 0) &&
      (endBlocker referenceKeeper boundaryCtx twoValidators
        store).toOption.any (fun _ => true) &&
      (openWindow referenceKeeper.sdk boundaryCtx twoValidators
        (getParams store)).toOption.any (fun w =>
          decide ("VTX:USD" ∈ w.livePairs store) &&
          decide (51 / 50 - 1 ≤ w.outlierThreshold.toRat * 1) &&
          decide (w.Majority store "VTX:USD" 1 (51 / 50)))) = true := by
    decide +kernel
  rcases exists_ok_of_any hfacts with ⟨store, hstore, hchecked⟩
  simp only [Bool.and_eq_true, decide_eq_true_eq] at hchecked
  rcases hchecked with ⟨⟨hboundary, hcompletes⟩, hwindow⟩
  rcases exists_ok_of_any hcompletes with ⟨result, hcall, -⟩
  rcases exists_ok_of_any hwindow with ⟨w, hopen, hchecked⟩
  simp only [Bool.and_eq_true, decide_eq_true_eq] at hchecked
  rcases hchecked with ⟨⟨hlive, hnarrow⟩, hmajority⟩
  rcases honest_majority_never_slashed hcall hboundary with
    ⟨w', hopen', -, hspared⟩
  have hsame : w' = w := Except.ok.inj (hopen'.symm.trans hopen)
  subst hsame
  exact ⟨store, result, w', hstore, hcall, hopen, hmajority,
    hspared "VTX:USD" hlive 1 (51 / 50) one_pos hnarrow hmajority⟩

end Oracle
end Vertix

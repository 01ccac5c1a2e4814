import Vertix.OracleRun
import Vertix.SdkReference
import Mathlib.Tactic

/-!
# When the oracle EndBlocker completes

Every step of the EndBlocker but one is total under validated parameters and
bounded powers.  The exception is the relative deviation of a submitted price
from the unweighted median, whose quotient leaves the decimal range when the
two prices are far enough apart.
-/

namespace Vertix
namespace Oracle

open OrderStatistics Transition

/-- The deviation of a price from a reference, relative to the reference, is
a decimal: half a unit of the last place below the bound. -/
def RepresentableDeviation (price refMedian : LegacyDec) : Prop :=
  2 * (price.raw - refMedian.raw).natAbs * 10 ^ 18 <
    refMedian.raw.natAbs * (2 * (2 ^ 256 * 10 ^ 18) - 1)

instance (price refMedian : LegacyDec) :
    Decidable (RepresentableDeviation price refMedian) :=
  inferInstanceAs (Decidable (_ < _))

namespace Window

variable {sdk : Sdk}

theorem deviation_completes_iff
    {price refMedian : LegacyDec} (hprice : 0 < price.raw)
    (href : 0 < refMedian.raw) :
    (∃ dev, deviation price refMedian = .ok dev) ↔
      RepresentableDeviation price refMedian := by
  obtain ⟨diff, hsub, hdiff⟩ := FixedPoint.sub?_of_nonneg hprice.le href.le
  have habs : diff.abs.raw.natAbs = (price.raw - refMedian.raw).natAbs := by
    rw [← hdiff]
    exact Int.natAbs_natCast _
  have hquo := FixedPoint.quo?_isSome_iff (a := diff.abs) href.ne'
    (by norm_num) (by norm_num) (by norm_num) (by norm_num)
  rw [habs] at hquo
  simp only [deviation, hsub, bind_eq_ok_iff, Exec.ofOption_eq_ok_iff,
    Option.some.injEq, exists_eq_left']
  rw [← Option.isSome_iff_exists, hquo]
  rfl

theorem slashOutlier_completes_iff
    (w : Window sdk) {refMedian : LegacyDec} (slashes : List SlashCall)
    {f : WeightedPrice} (hprice : 0 < f.price.raw)
    (href : 0 < refMedian.raw) :
    (∃ slashes', w.slashOutlier refMedian slashes f = .ok slashes') ↔
      RepresentableDeviation f.price refMedian := by
  rw [← deviation_completes_iff hprice href]
  simp only [slashOutlier, bind_eq_ok_iff]
  constructor
  · intro h
    obtain ⟨slashes', dev, hdev, -⟩ := h
    exact ⟨dev, hdev⟩
  · intro h
    obtain ⟨dev, hdev⟩ := h
    by_cases hover : w.outlierThreshold.raw < dev.raw
    · exact ⟨_, dev, hdev, by rw [if_pos hover]; rfl⟩
    · exact ⟨_, dev, hdev, by rw [if_neg hover]; rfl⟩

theorem slashOutliers_completes_iff
    (w : Window sdk) {store : OracleStore} {pair : String}
    (slashes : List SlashCall) (hne : w.countedFeeds store pair ≠ []) :
    (∃ slashes',
        w.slashOutliers (w.countedFeeds store pair) slashes = .ok slashes') ↔
      ∀ f ∈ w.countedFeeds store pair,
        RepresentableDeviation f.price
          (unweightedMedian
            ((w.countedFeeds store pair).map WeightedPrice.price)) := by
  have href := refMedian_pos hne
  unfold slashOutliers
  simp only [href, if_true]
  apply foldlM_completes_iff (I := fun _ => True)
  · intro _ _ _ _ _
    trivial
  · intro f hf acc _
    exact w.slashOutlier_completes_iff acc (countedFeeds_price_pos hf) href
  · trivial

/-! ## Powers -/

/-- Counted submissions come from distinct bonded validators, so their power
is part of the bonded power. -/
theorem submittedPower_le_bondedPower
    (w : Window sdk) (store : OracleStore) (pair : String) :
    submittedPower (w.countedFeeds store pair) ≤
      w.staking.bondedPower w.vals := by
  have hpower : ∀ e ∈ w.countedFeeds store pair,
      e.weightInt = w.staking.operatorPower e.valoper := by
    intro e he
    obtain ⟨val, feed, -, -, -, hoper, hweight, -⟩ := mem_countedFeeds_iff.mp he
    unfold StakingView.operatorPower
    rw [hoper, sdk.valAddress_roundTrip]
    simp only [hweight]
    rfl
  have hsum : submittedPower (w.countedFeeds store pair) =
      (((w.countedFeeds store pair).map WeightedPrice.valoper).map
        w.staking.operatorPower).sum := by
    unfold submittedPower totalWeight
    rw [List.map_map]
    congr 1
    apply List.map_congr_left
    exact hpower
  have hsubset : (w.countedFeeds store pair).map WeightedPrice.valoper ⊆
      w.vals.map Validator.operatorAddress := by
    intro oper hoper
    obtain ⟨e, he, hvaloper⟩ := List.mem_map.mp hoper
    obtain ⟨-, -, -, -, -, -, -, -, v, hv, -⟩ := mem_countedFeeds_iff.mp he
    have hmem := mem_of_valByOper hv
    rw [← hvaloper, ← hmem.2]
    exact List.mem_map_of_mem hmem.1
  obtain ⟨part, hperm, hsublist⟩ :=
    List.subperm_of_subset (w.countedFeeds_valoper_nodup store pair) hsubset
  rw [hsum, ← (hperm.map w.staking.operatorPower).sum_eq]
  apply (hsublist.map w.staking.operatorPower).sum_le_sum
  intro power hmem
  obtain ⟨oper, -, hoper⟩ := List.mem_map.mp hmem
  rw [← hoper]
  exact w.staking.operatorPower_nonneg oper

theorem quorum_decided
    {w : Window sdk} (hbonded : w.staking.bondedPower w.vals < 2 ^ 60)
    (htotal : 0 ≤ w.totalPower.raw) (htotalBound : w.totalPower.raw < 2 ^ 60)
    (store : OracleStore) (pair : String) :
    ∃ met, quorumMet (submittedPower (w.countedFeeds store pair))
      w.totalPower.raw w.quorumFraction = .ok met := by
  have hle := w.submittedPower_le_bondedPower store pair
  have hnonneg := w.submittedPower_nonneg store pair
  exact quorumMet_isOk w.quorumFraction hnonneg (by omega) htotal (by omega)

/-! ## The loops -/

/-- The condition under which the loop body completes for a pair. -/
def PairCompletes (w : Window sdk) (store : OracleStore) (pair : String) :
    Prop :=
  w.Qualifies store pair →
    ∀ f ∈ w.countedFeeds store pair,
      RepresentableDeviation f.price
        (unweightedMedian
          ((w.countedFeeds store pair).map WeightedPrice.price))

theorem aggregatePair_completes_iff
    {w : Window sdk} {s : Progress} {pair : String}
    (hquorum : ∃ met, quorumMet
      (submittedPower (w.countedFeeds s.store pair)) w.totalPower.raw
      w.quorumFraction = .ok met) :
    (∃ s', w.aggregatePair s pair = .ok s') ↔
      w.PairCompletes s.store pair := by
  obtain ⟨met, hmet⟩ := hquorum
  by_cases hempty : w.countedFeeds s.store pair = []
  · have hpair : w.aggregatePair s pair = .ok s := by
      simp [aggregatePair, hempty, pure, Except.pure]
    constructor
    · intro _ hqualifies
      exact absurd hempty hqualifies.1
    · intro _
      exact ⟨s, hpair⟩
  · have hnot : (w.countedFeeds s.store pair).isEmpty = false := by
      simpa using hempty
    cases met with
    | false =>
        have hpair : w.aggregatePair s pair = .ok s := by
          simp [aggregatePair, hnot, hmet, bind, Except.bind, pure,
            Except.pure]
        constructor
        · intro _ hqualifies
          rw [hqualifies.2] at hmet
          cases hmet
        · intro _
          exact ⟨s, hpair⟩
    | true =>
        have hslash := w.slashOutliers_completes_iff s.slashes hempty
        simp only [aggregatePair, hnot, Bool.false_eq_true, if_false, hmet,
          bind_eq_ok_iff, Except.ok.injEq, exists_eq_left', if_true,
          pure_eq_ok_iff]
        constructor
        · intro h _
          obtain ⟨s', slashes, hslashes, -⟩ := h
          exact hslash.mp ⟨slashes, hslashes⟩
        · intro h
          obtain ⟨slashes, hslashes⟩ := hslash.mpr (h ⟨hempty, hmet⟩)
          exact ⟨_, slashes, hslashes, rfl⟩

/-- The participation counters divide by a positive number of windows. -/
theorem countWindow_completes
    {w : Window sdk} (hsize : 0 < w.params.missWindowSize.toInt)
    (s : Progress) (v : Validator) :
    ∃ s', w.countWindow s v = .ok s' := by
  unfold countWindow
  cases hval : sdk.valAddressFromBech32 v.operatorAddress with
  | error reason => exact ⟨s, rfl⟩
  | ok valAddr =>
      by_cases hreached : w.params.missWindowSize ≤
          (incTotalWindows s.store valAddr).2
      · have hpositive : (incTotalWindows s.store valAddr).2.toInt ≠ 0 := by
          rw [Int64.le_iff_toInt_le] at hreached
          omega
        simp only [hreached, if_true]
        obtain ⟨rate, hrate⟩ := Option.isSome_iff_exists.mp
          (legacyNewDec_quo?_isSome _ _ hpositive)
        rw [hrate]
        exact ⟨_, rfl⟩
      · simp only [hreached, if_false]
        exact ⟨_, rfl⟩

theorem countWindows_complete
    {w : Window sdk} (hsize : 0 < w.params.missWindowSize.toInt)
    (s : Progress) : ∃ s', w.vals.foldlM w.countWindow s = .ok s' := by
  have hloop : (∃ s', w.vals.foldlM w.countWindow s = .ok s') ↔
      ∀ v ∈ w.vals, True := by
    apply foldlM_completes_iff (I := fun _ : Progress => True)
    · intro _ _ _ _ _
      trivial
    · intro v _ s _
      exact iff_of_true (countWindow_completes hsize s v) trivial
    · trivial
  exact hloop.mpr fun _ _ => trivial

theorem aggregatePair_feeds
    {w : Window sdk} {s s' : Progress} {pair : String}
    (hpair : w.aggregatePair s pair = .ok s') (val : Address)
    (other : String) :
    s'.store.get (.feed val other) = s.store.get (.feed val other) := by
  rcases aggregatePair_cases hpair with ⟨-, hsame⟩ | ⟨-, hstore, -⟩
  · rw [hsame]
  · rw [hstore, get_publish_of_ne _ _ _ _ (by simp) (by simp)]

theorem close_completes_iff
    {w : Window sdk} (hsize : 0 < w.params.missWindowSize.toInt)
    (hbonded : w.staking.bondedPower w.vals < 2 ^ 60)
    (htotal : 0 ≤ w.totalPower.raw) (htotalBound : w.totalPower.raw < 2 ^ 60)
    (store : OracleStore) :
    (∃ result, w.close store = .ok result) ↔
      ∀ pair ∈ w.params.acceptList, w.PairCompletes store pair := by
  have hloop : (∃ s, w.aggregate store = .ok s) ↔
      ∀ pair ∈ w.params.acceptList, w.PairCompletes store pair := by
    apply foldlM_completes_iff (I := fun s => ∀ val pair,
      s.store.get (.feed val pair) = store.get (.feed val pair))
    · intro s pair s' hfeeds hpair val other
      exact (aggregatePair_feeds hpair val other).trans (hfeeds val other)
    · intro pair _ s hfeeds
      rw [aggregatePair_completes_iff
        (quorum_decided hbonded htotal htotalBound s.store pair)]
      unfold PairCompletes Qualifies
      rw [w.countedFeeds_congr pair hfeeds]
    · intro val pair
      rfl
  rw [← hloop]
  simp only [close, bind_eq_ok_iff, pure_eq_ok_iff]
  constructor
  · intro h
    obtain ⟨result, s, hs, -⟩ := h
    exact ⟨s, hs⟩
  · intro h
    obtain ⟨s, hs⟩ := h
    obtain ⟨s', hs'⟩ := countWindows_complete hsize s
    exact ⟨_, s, hs, s', hs', rfl⟩

end Window

/-! ## The EndBlocker -/

/-- With validated parameters, answering staking getters and powers below
`2 ^ 60`, a call completes exactly when it is not at a boundary or no pair
with quorum has a counted price too far from its unweighted median. -/
theorem endBlocker_completes_iff
    {k : Keeper} {ctx : Ctx} {staking : StakingView k.sdk}
    {store : OracleStore} {vals : List Validator} {totalPower : SdkInt}
    (hparams : (getParams store).validate k.sdk = .ok ())
    (hvals : staking.bondedValidatorsByPower = .ok vals)
    (htotal : staking.lastTotalPower = .ok totalPower)
    (hbonded : staking.bondedPower vals < 2 ^ 60)
    (htotalBound : totalPower.raw < 2 ^ 60) :
    (∃ result, endBlocker k ctx staking store = .ok result) ↔
      (ctx.blockHeight % (getParams store).voteWindow = 0 →
        ∀ w, openWindow k.sdk ctx staking (getParams store) = .ok w →
          ∀ pair ∈ (getParams store).acceptList, w.Qualifies store pair →
            ∀ f ∈ w.countedFeeds store pair,
              RepresentableDeviation f.price
                (unweightedMedian
                  ((w.countedFeeds store pair).map WeightedPrice.price))) := by
  have hvalid := OracleParams.validate_eq_ok_iff.mp hparams
  have hwindow : (getParams store).voteWindow ≠ 0 := by
    intro hzero
    have hpos := hvalid.voteWindow_pos
    rw [hzero] at hpos
    exact absurd hpos (by decide)
  by_cases hheight : ctx.blockHeight % (getParams store).voteWindow = 0
  · obtain ⟨w, hopen, hwvals, hwtotal⟩ :=
      exists_openWindow ctx staking hvals htotal hvalid
    obtain ⟨-, hstaking, hwparams, -⟩ := openWindow_eq_ok_iff.mp hopen
    have hclose := Window.close_completes_iff (w := w)
      (by rw [hwparams]; exact hvalid.missWindowSize_pos)
      (by rw [hstaking, hwvals]; exact hbonded)
      (by rw [hwtotal]; exact staking.totalPower_nonneg _ htotal)
      (by rw [hwtotal]; exact htotalBound) store
    rw [hwparams] at hclose
    have hcall : endBlocker k ctx staking store = w.close store := by
      simp [endBlocker, hwindow, hheight, hopen, Exec.ofExcept, bind,
        Except.bind]
    rw [hcall, hclose]
    constructor
    · intro h _ w' hopen'
      rw [hopen, Except.ok.injEq] at hopen'
      subst hopen'
      exact h
    · intro h
      exact h hheight w hopen
  · constructor
    · intro _ hboundary
      exact absurd hboundary hheight
    · intro _
      exact ⟨_, endBlocker_of_not_boundary hwindow hheight⟩

/-! ## Two validators, one pair -/

def boundaryCtx : Ctx := ⟨10, 1700000000000000000, by decide⟩

def singlePairGenesis : GenesisState :=
  ⟨{ defaultParams with acceptList := ["VTX:USD"] }, [], []⟩

/-- A submission by the operator of the first validator. -/
def firstFeed (price : String) : MsgSubmitFeed where
  feeder := "vtx1qyqszqgpqyqszqgpqyqszqgpqyqszqgpszseuz"
  validator := "vtxvaloper1qyqszqgpqyqszqgpqyqszqgpqyqszqgpk7xzwh"
  pair := "VTX:USD"
  price := price

/-- A submission by the operator of the second validator. -/
def secondFeed (price : String) : MsgSubmitFeed where
  feeder := "vtx1qgpqyqszqgpqyqszqgpqyqszqgpqyqszpxkuh5"
  validator := "vtxvaloper1qgpqyqszqgpqyqszqgpqyqszqgpqyqsz86q89p"
  pair := "VTX:USD"
  price := price

/-- The store after both validators submitted a price in one window. -/
def submittedPrices (first second : String) : Except SdkError OracleStore := do
  let start ← initGenesis referenceKeeper boundaryCtx twoValidators
    TypedStore.empty singlePairGenesis
  let store ← submitFeed referenceKeeper boundaryCtx twoValidators start
    (firstFeed first)
  submitFeed referenceKeeper boundaryCtx twoValidators store
    (secondFeed second)

/-- The store after `1.0` and `1.2` were submitted. -/
def nearPrices : OracleStore :=
  commit TypedStore.empty (submittedPrices "1.0" "1.2")

/-- Prices a fifth apart are counted at the boundary without a panic. -/
theorem endBlocker_completes_on_near_prices :
    ∃ result, endBlocker referenceKeeper boundaryCtx twoValidators nearPrices =
      .ok result := by
  have hfacts :
      (decide ((getParams nearPrices).validate referenceKeeper.sdk = .ok ()) &&
      (openWindow referenceKeeper.sdk boundaryCtx twoValidators
        (getParams nearPrices)).toOption.all (fun w =>
          (getParams nearPrices).acceptList.all fun pair =>
            (w.countedFeeds nearPrices pair).length == 2 &&
              (w.countedFeeds nearPrices pair).all fun f =>
                RepresentableDeviation f.price
                  (unweightedMedian ((w.countedFeeds nearPrices pair).map
                    WeightedPrice.price)))) = true := by
    decide +kernel
  rw [Bool.and_eq_true, decide_eq_true_eq] at hfacts
  obtain ⟨hvalid, hwindow⟩ := hfacts
  refine (endBlocker_completes_iff hvalid rfl rfl (by decide +kernel)
    (by decide +kernel)).mpr ?_
  intro _ w hopen pair hpair _ f hf
  simp only [hopen, Except.toOption, Option.all_some, List.all_eq_true,
    Bool.and_eq_true, decide_eq_true_eq] at hwindow
  exact (hwindow pair hpair).2 f hf

/-- The prices `10 ^ -18` and `2 * 10 ^ 59` are both accepted, and the call at the
next boundary panics on their ratio. -/
theorem endBlocker_panics_on_distant_prices :
    ∃ store,
      submittedPrices "0.000000000000000001"
        "200000000000000000000000000000000000000000000000000000000000" =
          .ok store ∧
      endBlocker referenceKeeper boundaryCtx twoValidators store =
        Exec.panicked := by
  apply Exec.ofExcept_bind_eq_panicked_iff.mp
  apply Exec.eq_panicked_of_isPanic
  decide +kernel

end Oracle
end Vertix

import Vertix.OracleAggregate
import Vertix.OracleKeeper
import Mathlib.Tactic

/-!
# The oracle EndBlocker

At a vote-window boundary the EndBlocker publishes the median of every
accept-listed pair with enough submitted power, slashes outliers, advances the
participation counters and clears the window's feeds.  The two loops are kept
as loops over an explicit state; the results below say what a completed call
did to each key of the store.
-/

namespace Vertix
namespace Oracle

open OrderStatistics

/-- One call of `SlashingKeeper.Slash`, whose error is ignored. -/
structure SlashCall where
  consAddr : Bytes
  rate : LegacyDec
  power : Int64
  height : Int64
  deriving DecidableEq

/-- The values the EndBlocker reads once before its loops. -/
structure Window (sdk : Sdk) where
  ctx : Ctx
  staking : StakingView sdk
  params : OracleParams
  vals : List Validator
  totalPower : SdkInt
  quorumFraction : LegacyDec
  outlierThreshold : LegacyDec
  outlierSlashRate : LegacyDec
  missThreshold : LegacyDec
  missSlashRate : LegacyDec

def openWindow (sdk : Sdk) (ctx : Ctx) (staking : StakingView sdk)
    (params : OracleParams) : Except SdkError (Window sdk) := do
  let vals ← staking.bondedValidatorsByPower
  let totalPower ← staking.lastTotalPower
  let quorumFraction ← plainError <| sdk.legacyNewDecFromStr params.quorumFraction
  let outlierThreshold ← plainError <| sdk.legacyNewDecFromStr params.outlierThreshold
  let outlierSlashRate ← plainError <| sdk.legacyNewDecFromStr params.outlierSlashRate
  let missThreshold ← plainError <| sdk.legacyNewDecFromStr params.missThreshold
  let missSlashRate ← plainError <| sdk.legacyNewDecFromStr params.missSlashRate
  return { ctx, staking, params, vals, totalPower, quorumFraction,
           outlierThreshold, outlierSlashRate, missThreshold, missSlashRate }

/-- The map `valByOper`; a later validator replaces an earlier one. -/
def valByOper (vals : List Validator) (oper : String) : Option Validator :=
  vals.reverse.find? fun v => v.operatorAddress = oper

namespace Window

variable {sdk : Sdk}

/-- The callback of the feed scan: what one stored feed contributes to a
pair. -/
def countedFeed (w : Window sdk) (pair : String) :
    Bytes × Bytes × String → Option WeightedPrice
  | (val, feedPair, priceStr) => do
      guard (feedPair = strBytes pair)
      let price ← (sdk.legacyNewDecFromStr priceStr).toOption
      guard (0 < price.raw)
      let v ← valByOper w.vals (sdk.valAddressString val)
      guard (v.status = .bonded)
      let pw ← (w.staking.lastValidatorPower val).toOption
      guard (pw ≠ 0)
      return ⟨price, pw, sdk.valAddressString val⟩

def countedFeeds (w : Window sdk) (store : OracleStore) (pair : String) :
    List WeightedPrice :=
  (iterateAllFeeds store).filterMap (w.countedFeed pair)

def submittedPower (weighted : List WeightedPrice) : ℤ :=
  totalWeight WeightedPrice.weightInt weighted

def slashValidator (w : Window sdk) (v : Validator) (rate : LegacyDec) :
    List SlashCall :=
  match v.consAddr with
  | none => []
  | some consAddr =>
      match sdk.valAddressFromBech32 v.operatorAddress with
      | .error _ => []
      | .ok valAddr =>
          match w.staking.lastValidatorPower valAddr.bytes with
          | .error _ => []
          | .ok power =>
              if power = 0 then []
              else [⟨consAddr, rate, power, w.ctx.blockHeight⟩]

/-- `slashValidator` on `valByOper[oper]`; the zero validator of a missing entry
has no consensus address. -/
def slashOperator (w : Window sdk) (oper : String) (rate : LegacyDec) :
    List SlashCall :=
  match valByOper w.vals oper with
  | some v => w.slashValidator v rate
  | none => []

/-- `f.price.Sub(refMedian).Abs().Quo(refMedian)` -/
def deviation (price refMedian : LegacyDec) : Exec LegacyDec := do
  let diff ← Exec.ofOption (price.sub? refMedian)
  Exec.ofOption (diff.abs.quo? refMedian)

def slashOutlier (w : Window sdk) (refMedian : LegacyDec)
    (slashes : List SlashCall) (f : WeightedPrice) : Exec (List SlashCall) := do
  let dev ← deviation f.price refMedian
  if w.outlierThreshold.raw < dev.raw then
    return slashes ++ w.slashOperator f.valoper w.outlierSlashRate
  else return slashes

def slashOutliers (w : Window sdk) (weighted : List WeightedPrice)
    (slashes : List SlashCall) : Exec (List SlashCall) :=
  let refMedian := unweightedMedian (weighted.map WeightedPrice.price)
  if 0 < refMedian.raw then weighted.foldlM (w.slashOutlier refMedian) slashes
  else return slashes

def publishedPrice (w : Window sdk) (pair : String)
    (weighted : List WeightedPrice) : AggregatedPrice where
  pair := pair
  price := sdk.legacyDecString (weightedMedian weighted)
  blockHeight := w.ctx.blockHeight
  blockTime := w.ctx.blockTime

/-- The store writes made for a pair with quorum. -/
def publish (w : Window sdk) (store : OracleStore) (pair : String)
    (weighted : List WeightedPrice) : OracleStore :=
  let store := setAggregatedPrice store (w.publishedPrice pair weighted)
  let store := appendTWAPEntry sdk store pair (weightedMedian weighted)
    w.ctx.blockTime
  pruneTWAPOlderThan store pair (w.ctx.blockTime - 24 * hour)

/-- The state of both loops. -/
structure Progress where
  store : OracleStore
  quorumLive : List String
  slashes : List SlashCall

def aggregatePair (w : Window sdk) (s : Progress) (pair : String) :
    Exec Progress :=
  let weighted := w.countedFeeds s.store pair
  if weighted.isEmpty then return s
  else do
    let met ← quorumMet (submittedPower weighted) w.totalPower.raw
      w.quorumFraction
    if met then do
      let slashes ← w.slashOutliers weighted s.slashes
      return ⟨w.publish s.store pair weighted, s.quorumLive ++ [pair], slashes⟩
    else return s

def countWindow (w : Window sdk) (s : Progress) (v : Validator) :
    Exec Progress :=
  match sdk.valAddressFromBech32 v.operatorAddress with
  | .error _ => return s
  | .ok valAddr =>
      let submitted := getValidatorSubmittedPairs s.store valAddr
      let submittedAllLive :=
        s.quorumLive.all fun pair => submitted.contains (strBytes pair)
      let (store, total) := incTotalWindows s.store valAddr
      let (store, miss) :=
        if submittedAllLive then (store, getMissCounter store valAddr)
        else incMissCounter store valAddr
      if w.params.missWindowSize ≤ total then do
        let missRate ← Exec.ofOption
          ((legacyNewDec miss).quo? (legacyNewDec total))
        let slashed :=
          if w.missThreshold.raw < missRate.raw then
            w.slashValidator v w.missSlashRate
          else []
        return ⟨resetValidatorWindows store valAddr, s.quorumLive,
          s.slashes ++ slashed⟩
      else return ⟨store, s.quorumLive, s.slashes⟩

def aggregate (w : Window sdk) (store : OracleStore) : Exec Progress :=
  w.params.acceptList.foldlM w.aggregatePair ⟨store, [], []⟩

def close (w : Window sdk) (store : OracleStore) :
    Exec (OracleStore × List SlashCall) := do
  let aggregated ← w.aggregate store
  let settled ← w.vals.foldlM w.countWindow aggregated
  return (deleteAllFeeds settled.store, settled.slashes)

end Window

def endBlocker (k : Keeper) (ctx : Ctx) (staking : StakingView k.sdk)
    (store : OracleStore) : Exec (OracleStore × List SlashCall) :=
  let params := getParams store
  if params.voteWindow = 0 then Exec.panicked
  else if ctx.blockHeight % params.voteWindow ≠ 0 then return (store, [])
  else do
    let w ← Exec.ofExcept (openWindow k.sdk ctx staking params)
    w.close store

/-! ## Opening a window -/

theorem openWindow_eq_ok_iff
    {sdk : Sdk} {ctx : Ctx} {staking : StakingView sdk}
    {params : OracleParams} {w : Window sdk} :
    openWindow sdk ctx staking params = .ok w ↔
      w.ctx = ctx ∧ w.staking = staking ∧ w.params = params ∧
        staking.bondedValidatorsByPower = .ok w.vals ∧
        staking.lastTotalPower = .ok w.totalPower ∧
        sdk.legacyNewDecFromStr params.quorumFraction =
          .ok w.quorumFraction ∧
        sdk.legacyNewDecFromStr params.outlierThreshold =
          .ok w.outlierThreshold ∧
        sdk.legacyNewDecFromStr params.outlierSlashRate =
          .ok w.outlierSlashRate ∧
        sdk.legacyNewDecFromStr params.missThreshold =
          .ok w.missThreshold ∧
        sdk.legacyNewDecFromStr params.missSlashRate =
          .ok w.missSlashRate := by
  simp only [openWindow, bind_eq_ok_iff, plainError_eq_ok_iff, pure_eq_ok_iff]
  constructor
  · intro h
    rcases h with ⟨vals, hvals, total, htotal, quorum, hquorum, outlier,
      houtlier, outlierRate, houtlierRate, miss, hmiss, missRate, hmissRate, hw⟩
    subst hw
    exact ⟨rfl, rfl, rfl, hvals, htotal, hquorum, houtlier, houtlierRate,
      hmiss, hmissRate⟩
  · intro h
    rcases h with ⟨hctx, hstaking, hparams, hvals, htotal, hquorum, houtlier,
      houtlierRate, hmiss, hmissRate⟩
    subst hctx
    subst hstaking
    subst hparams
    exact ⟨_, hvals, _, htotal, _, hquorum, _, houtlier, _, houtlierRate,
      _, hmiss, _, hmissRate, rfl⟩

/-- With validated parameters and answering getters a window opens. -/
theorem exists_openWindow
    {sdk : Sdk} {params : OracleParams} {vals : List Validator}
    {totalPower : SdkInt} (ctx : Ctx) (staking : StakingView sdk)
    (hvals : staking.bondedValidatorsByPower = .ok vals)
    (htotal : staking.lastTotalPower = .ok totalPower)
    (hparams : params.Valid sdk) :
    ∃ w, openWindow sdk ctx staking params = .ok w ∧
      w.vals = vals ∧ w.totalPower = totalPower := by
  rcases hparams.quorumFraction_range with ⟨quorum, hquorum, -⟩
  rcases hparams.outlierThreshold_range with ⟨outlier, houtlier, -⟩
  rcases hparams.outlierSlashRate_range with ⟨outlierRate, houtlierRate, -⟩
  rcases hparams.missThreshold_range with ⟨miss, hmiss, -⟩
  rcases hparams.missSlashRate_range with ⟨missRate, hmissRate, -⟩
  refine ⟨⟨ctx, staking, params, vals, totalPower, quorum, outlier,
    outlierRate, miss, missRate⟩, ?_, rfl, rfl⟩
  exact openWindow_eq_ok_iff.mpr ⟨rfl, rfl, rfl, hvals, htotal, hquorum,
    houtlier, houtlierRate, hmiss, hmissRate⟩

theorem endBlocker_of_not_boundary
    {k : Keeper} {ctx : Ctx} {staking : StakingView k.sdk}
    {store : OracleStore}
    (hwindow : (getParams store).voteWindow ≠ 0)
    (hheight : ctx.blockHeight % (getParams store).voteWindow ≠ 0) :
    endBlocker k ctx staking store = .ok (store, []) := by
  simp only [endBlocker, if_neg hwindow, if_pos hheight]
  rfl

/-- A completed call either was not at a boundary or closed a window. -/
theorem endBlocker_cases
    {k : Keeper} {ctx : Ctx} {staking : StakingView k.sdk}
    {store : OracleStore} {result : OracleStore × List SlashCall}
    (hcall : endBlocker k ctx staking store = .ok result) :
    (ctx.blockHeight % (getParams store).voteWindow ≠ 0 ∧
        result = (store, [])) ∨
      (ctx.blockHeight % (getParams store).voteWindow = 0 ∧
        ∃ w, openWindow k.sdk ctx staking (getParams store) = .ok w ∧
          w.close store = .ok result) := by
  unfold endBlocker at hcall
  by_cases hwindow : (getParams store).voteWindow = 0
  · simp [hwindow] at hcall
  · by_cases hheight : ctx.blockHeight % (getParams store).voteWindow = 0
    · right
      simp only [hwindow, hheight, ne_eq, not_true_eq_false, if_false,
        bind_eq_ok_iff, Exec.ofExcept_eq_ok_iff] at hcall
      exact ⟨hheight, hcall⟩
    · left
      simp only [hwindow, hheight, ne_eq, not_false_eq_true, if_true,
        if_false, pure_eq_ok_iff] at hcall
      exact ⟨hheight, hcall.symm⟩

namespace Window

variable {sdk : Sdk}

/-! ## Counted feeds -/

theorem iterateAllFeeds_congr {left right : OracleStore}
    (hfeeds : ∀ val pair,
      left.get (.feed val pair) = right.get (.feed val pair)) :
    iterateAllFeeds left = iterateAllFeeds right := by
  unfold iterateAllFeeds
  rw [TypedStore.prefixScan_congr]
  intro key hstarts
  rcases (feedKeyPrefix_prefix_iff key).mp hstarts with ⟨val, pair, heq⟩
  subst heq
  exact hfeeds val pair

theorem countedFeeds_congr
    (w : Window sdk) {left right : OracleStore} (pair : String)
    (hfeeds : ∀ val pair,
      left.get (.feed val pair) = right.get (.feed val pair)) :
    w.countedFeeds left pair = w.countedFeeds right pair := by
  unfold countedFeeds
  rw [iterateAllFeeds_congr hfeeds]

theorem mem_of_valByOper
    {vals : List Validator} {oper : String} {v : Validator}
    (hfound : valByOper vals oper = some v) :
    v ∈ vals ∧ v.operatorAddress = oper := by
  have hmem := List.mem_of_find?_eq_some hfound
  have hsome := List.find?_some hfound
  exact ⟨List.mem_reverse.mp hmem, by simpa using hsome⟩

theorem valByOper_eq_some_iff
    {vals : List Validator} {oper : String} {v : Validator}
    (hdistinct : (vals.map Validator.operatorAddress).Nodup) :
    valByOper vals oper = some v ↔ v ∈ vals ∧ v.operatorAddress = oper := by
  constructor
  · exact mem_of_valByOper
  · intro h
    cases hfound : valByOper vals oper with
    | none =>
        have hnone := List.find?_eq_none.mp hfound v
          (List.mem_reverse.mpr h.1)
        simp [h.2] at hnone
    | some other =>
        have hother := mem_of_valByOper hfound
        have hsame : other = v :=
          List.inj_on_of_nodup_map hdistinct hother.1 h.1
            (hother.2.trans h.2.symm)
        rw [hsame]

theorem countedFeed_eq_some_iff
    {w : Window sdk} {pair : String} {val feedPair : Bytes}
    {priceStr : String} {e : WeightedPrice} :
    w.countedFeed pair (val, feedPair, priceStr) = some e ↔
      feedPair = strBytes pair ∧
        sdk.legacyNewDecFromStr priceStr = .ok e.price ∧ 0 < e.price.raw ∧
        e.valoper = sdk.valAddressString val ∧
        w.staking.lastValidatorPower val = .ok e.weight ∧ e.weight ≠ 0 ∧
        ∃ v, valByOper w.vals e.valoper = some v ∧ v.status = .bonded := by
  simp only [countedFeed, Option.bind_eq_bind, Option.bind_eq_some_iff,
    Option.guard_eq_some', toOption_eq_some_iff, Option.pure_def,
    Option.some.injEq, exists_const]
  constructor
  · intro h
    rcases h with ⟨hpair, price, hprice, hpos, v, hv, hbonded, pw, hpower,
      hnonzero, he⟩
    subst he
    exact ⟨hpair, hprice, hpos, rfl, hpower, hnonzero, v, hv, hbonded⟩
  · intro h
    rcases h with ⟨hpair, hprice, hpos, hoper, hpower, hnonzero, v, hv,
      hbonded⟩
    rw [hoper] at hv
    refine ⟨hpair, e.price, hprice, hpos, v, hv, hbonded, e.weight, hpower,
      hnonzero, ?_⟩
    rw [← hoper]

theorem mem_countedFeeds_iff
    {w : Window sdk} {store : OracleStore} {pair : String}
    {e : WeightedPrice} :
    e ∈ w.countedFeeds store pair ↔
      ∃ val feed, store.get (.feed val pair) = some (.feed feed) ∧
        sdk.legacyNewDecFromStr feed.price = .ok e.price ∧ 0 < e.price.raw ∧
        e.valoper = sdk.valAddressString val.bytes ∧
        w.staking.lastValidatorPower val.bytes = .ok e.weight ∧
        e.weight ≠ 0 ∧
        ∃ v, valByOper w.vals e.valoper = some v ∧ v.status = .bonded := by
  obtain ⟨feeds, hscan, -, hmem⟩ := exists_storedFeeds store
  unfold countedFeeds
  rw [hscan, List.mem_filterMap]
  constructor
  · intro h
    obtain ⟨entry, hentry, hcounted⟩ := h
    obtain ⟨⟨val, feed⟩, hfeed, htriple⟩ := List.mem_map.mp hentry
    subst htriple
    obtain ⟨hpair, hrest⟩ := countedFeed_eq_some_iff.mp hcounted
    have hsame : feed.pair = pair := strBytes_injective hpair
    have hstored := (hmem val feed).mp hfeed
    rw [hsame] at hstored
    exact ⟨val, feed, hstored, hrest⟩
  · intro h
    obtain ⟨val, feed, hstored, hrest⟩ := h
    have hadmits := TypedStore.admits_of_get hstored
    have hsame : feed.pair = pair := hadmits
    refine ⟨(val.bytes, strBytes feed.pair, feed.price),
      List.mem_map.mpr ⟨(val, feed), ?_, rfl⟩,
      countedFeed_eq_some_iff.mpr ⟨by rw [hsame], hrest⟩⟩
    rw [hmem, hsame]
    exact hstored

/-- A validator is counted at most once for a pair. -/
theorem countedFeeds_valoper_nodup
    (w : Window sdk) (store : OracleStore) (pair : String) :
    ((w.countedFeeds store pair).map WeightedPrice.valoper).Nodup := by
  obtain ⟨feeds, hscan, hnodup, -⟩ := exists_storedFeeds store
  unfold countedFeeds
  rw [hscan, List.filterMap_map, List.Nodup, List.pairwise_map,
    List.pairwise_filterMap]
  rw [List.Nodup, List.pairwise_map] at hnodup
  apply hnodup.imp
  intro left right hne e he e' he' hsame
  obtain ⟨hpair, -, -, hoper, -⟩ := countedFeed_eq_some_iff.mp he
  obtain ⟨hpair', -, -, hoper', -⟩ := countedFeed_eq_some_iff.mp he'
  rw [hoper, hoper'] at hsame
  apply hne
  exact Prod.ext (sdk.valAddressString_injective hsame)
    (strBytes_injective (hpair.trans hpair'.symm))

theorem countedFeeds_price_pos
    {w : Window sdk} {store : OracleStore} {pair : String} {e : WeightedPrice}
    (hmem : e ∈ w.countedFeeds store pair) : 0 < e.price.raw := by
  rcases List.mem_filterMap.mp hmem with ⟨entry, -, hcounted⟩
  exact (countedFeed_eq_some_iff.mp hcounted).2.2.1

theorem countedFeeds_weight_nonneg
    {w : Window sdk} {store : OracleStore} {pair : String} {e : WeightedPrice}
    (hmem : e ∈ w.countedFeeds store pair) : 0 ≤ e.weightInt := by
  rcases List.mem_filterMap.mp hmem with ⟨entry, -, hcounted⟩
  have hpower := (countedFeed_eq_some_iff.mp hcounted).2.2.2.2.1
  exact w.staking.power_nonneg _ _ hpower

theorem submittedPower_nonneg
    (w : Window sdk) (store : OracleStore) (pair : String) :
    0 ≤ submittedPower (w.countedFeeds store pair) :=
  totalWeight_nonneg fun _ => countedFeeds_weight_nonneg

theorem refMedian_pos
    {w : Window sdk} {store : OracleStore} {pair : String}
    (hne : w.countedFeeds store pair ≠ []) :
    0 < (unweightedMedian
      ((w.countedFeeds store pair).map WeightedPrice.price)).raw := by
  have hprices : (w.countedFeeds store pair).map WeightedPrice.price ≠ [] := by
    simpa using hne
  have hmem := unweightedMedian_mem hprices
  rcases List.mem_map.mp hmem with ⟨e, he, hprice⟩
  rw [← hprice]
  exact countedFeeds_price_pos he

/-! ## One pair -/

/-- A pair is published when its counted submissions are non-empty and reach
the quorum. -/
def Qualifies (w : Window sdk) (store : OracleStore) (pair : String) : Prop :=
  w.countedFeeds store pair ≠ [] ∧
    quorumMet (submittedPower (w.countedFeeds store pair)) w.totalPower.raw
      w.quorumFraction = .ok true

/-- The published median is the price of one counted submission. -/
theorem Qualifies.median_mem
    {w : Window sdk} {store : OracleStore} {pair : String}
    (hqualifies : w.Qualifies store pair) :
    ∃ e ∈ w.countedFeeds store pair,
      weightedMedian (w.countedFeeds store pair) = e.price :=
  weightedMedian_mem hqualifies.1 (fun _ => countedFeeds_weight_nonneg)
    (submittedPower_lt_of_quorumMet hqualifies.2)

theorem aggregatePair_cases
    {w : Window sdk} {s s' : Progress} {pair : String}
    (hpair : w.aggregatePair s pair = .ok s') :
    (¬ w.Qualifies s.store pair ∧ s' = s) ∨
      (w.Qualifies s.store pair ∧
        s'.store =
          w.publish s.store pair (w.countedFeeds s.store pair) ∧
        s'.quorumLive = s.quorumLive ++ [pair] ∧
        w.slashOutliers (w.countedFeeds s.store pair) s.slashes =
          .ok s'.slashes) := by
  unfold aggregatePair at hpair
  by_cases hempty : w.countedFeeds s.store pair = []
  · left
    simp only [hempty, List.isEmpty_nil, if_true, pure_eq_ok_iff] at hpair
    exact ⟨fun h => h.1 hempty, hpair.symm⟩
  · have hnot : (w.countedFeeds s.store pair).isEmpty = false := by
      simpa using hempty
    simp only [hnot, Bool.false_eq_true, if_false, bind_eq_ok_iff] at hpair
    rcases hpair with ⟨met, hmet, hrest⟩
    cases met with
    | false =>
        left
        simp only [Bool.false_eq_true, if_false, pure_eq_ok_iff] at hrest
        refine ⟨?_, hrest.symm⟩
        intro h
        rw [h.2] at hmet
        cases hmet
    | true =>
        right
        simp only [if_true, bind_eq_ok_iff, pure_eq_ok_iff] at hrest
        rcases hrest with ⟨slashes, hslashes, hresult⟩
        subst hresult
        exact ⟨⟨hempty, hmet⟩, rfl, rfl, hslashes⟩

theorem get_publish_of_ne
    (w : Window sdk) (store : OracleStore) (pair : String)
    (weighted : List WeightedPrice) {key : OracleKey}
    (htwap : ∀ pair nanos, key ≠ .twap pair nanos)
    (hprice : key ≠ .aggregatedPrice pair) :
    (w.publish store pair weighted).get key = store.get key := by
  unfold publish
  rw [get_pruneTWAPOlderThan_of_ne _ _ _ htwap,
    get_appendTWAPEntry_of_ne _ _ _ _ _ htwap, get_setAggregatedPrice]
  exact if_neg (Ne.symm hprice)

theorem get_publish_price
    (w : Window sdk) (store : OracleStore) (pair : String)
    (weighted : List WeightedPrice) :
    (w.publish store pair weighted).get (.aggregatedPrice pair) =
      some (.aggregatedPrice (w.publishedPrice pair weighted)) := by
  unfold publish
  rw [get_pruneTWAPOlderThan_of_ne _ _ _ (by simp),
    get_appendTWAPEntry_of_ne _ _ _ _ _ (by simp), get_setAggregatedPrice]
  exact if_pos rfl

/-! ## The aggregation loop -/

/-- What the aggregation loop has done to the store once the pairs of `done`
are behind it. -/
structure Aggregated (w : Window sdk) (start : OracleStore)
    (done : List String) (s : Progress) : Prop where
  published :
    ∀ pair ∈ done, w.Qualifies start pair →
      s.store.get (.aggregatedPrice pair) =
        some (.aggregatedPrice
          (w.publishedPrice pair (w.countedFeeds start pair)))
  kept :
    ∀ pair, ¬ (pair ∈ done ∧ w.Qualifies start pair) →
      s.store.get (.aggregatedPrice pair) =
        start.get (.aggregatedPrice pair)
  frame :
    ∀ key, (∀ pair, key ≠ .aggregatedPrice pair) →
      (∀ pair nanos, key ≠ .twap pair nanos) →
      s.store.get key = start.get key
  live :
    ∀ pair, pair ∈ s.quorumLive ↔ pair ∈ done ∧ w.Qualifies start pair

theorem Aggregated.countedFeeds_eq
    {w : Window sdk} {start : OracleStore} {done : List String} {s : Progress}
    (hdone : w.Aggregated start done s) (pair : String) :
    w.countedFeeds s.store pair = w.countedFeeds start pair :=
  w.countedFeeds_congr pair fun _ _ => hdone.frame _ (by simp) (by simp)

theorem Aggregated.qualifies_iff
    {w : Window sdk} {start : OracleStore} {done : List String} {s : Progress}
    (hdone : w.Aggregated start done s) (pair : String) :
    w.Qualifies s.store pair ↔ w.Qualifies start pair := by
  unfold Qualifies
  rw [hdone.countedFeeds_eq pair]

theorem Aggregated.initial (w : Window sdk) (start : OracleStore)
    (slashes : List SlashCall) :
    w.Aggregated start [] ⟨start, [], slashes⟩ where
  published := by simp
  kept := by simp
  frame := by simp
  live := by simp

theorem Aggregated.skipped
    {w : Window sdk} {start : OracleStore} {done : List String}
    {s : Progress} {pair : String} (hdone : w.Aggregated start done s)
    (hnot : ¬ w.Qualifies start pair) :
    w.Aggregated start (done ++ [pair]) s := by
  have hmem : ∀ p, (p ∈ done ++ [pair] ∧ w.Qualifies start p) ↔
      (p ∈ done ∧ w.Qualifies start p) := by
    intro p
    simp only [List.mem_append, List.mem_singleton]
    constructor
    · intro h
      rcases h with ⟨hin | heq, hp⟩
      · exact ⟨hin, hp⟩
      · subst heq
        exact absurd hp hnot
    · intro h
      exact ⟨Or.inl h.1, h.2⟩
  constructor
  · intro p hp hqual
    exact hdone.published p ((hmem p).mp ⟨hp, hqual⟩).1 hqual
  · intro p hp
    exact hdone.kept p fun h => hp ((hmem p).mpr h)
  · exact hdone.frame
  · intro p
    rw [hdone.live, hmem]

theorem Aggregated.publishedPair
    {w : Window sdk} {start : OracleStore} {done : List String}
    {s s' : Progress} {pair : String} (hdone : w.Aggregated start done s)
    (hqualifies : w.Qualifies start pair)
    (hstore : s'.store =
      w.publish s.store pair (w.countedFeeds start pair))
    (hlive : s'.quorumLive = s.quorumLive ++ [pair]) :
    w.Aggregated start (done ++ [pair]) s' := by
  have hother : ∀ p, p ≠ pair →
      s'.store.get (.aggregatedPrice p) =
        s.store.get (.aggregatedPrice p) := by
    intro p hp
    rw [hstore]
    exact w.get_publish_of_ne _ _ _ (by simp) (by simpa using hp)
  have hself : s'.store.get (.aggregatedPrice pair) =
      some (.aggregatedPrice
        (w.publishedPrice pair (w.countedFeeds start pair))) := by
    rw [hstore]
    exact w.get_publish_price _ _ _
  constructor
  · intro p hp hqual
    by_cases heq : p = pair
    · subst heq
      exact hself
    · rw [hother p heq]
      apply hdone.published p _ hqual
      simpa [heq] using hp
  · intro p hp
    have hne : p ≠ pair := by
      intro heq
      subst heq
      exact hp ⟨by simp, hqualifies⟩
    rw [hother p hne]
    apply hdone.kept
    intro h
    exact hp ⟨by simp [h.1], h.2⟩
  · intro key hprice htwap
    rw [hstore, w.get_publish_of_ne _ _ _ htwap (hprice pair)]
    exact hdone.frame key hprice htwap
  · intro p
    rw [hlive, List.mem_append, List.mem_append, hdone.live,
      List.mem_singleton]
    constructor
    · intro h
      rcases h with h | heq
      · exact ⟨Or.inl h.1, h.2⟩
      · subst heq
        exact ⟨Or.inr rfl, hqualifies⟩
    · intro h
      rcases h with ⟨hin | heq, hp⟩
      · exact Or.inl ⟨hin, hp⟩
      · exact Or.inr heq

theorem Aggregated.aggregatePair
    {w : Window sdk} {start : OracleStore} {done : List String}
    {s s' : Progress} {pair : String}
    (hdone : w.Aggregated start done s)
    (hpair : w.aggregatePair s pair = .ok s') :
    w.Aggregated start (done ++ [pair]) s' := by
  rcases aggregatePair_cases hpair with ⟨hnot, hsame⟩ |
    ⟨hqualifies, hstore, hlive, -⟩
  · subst hsame
    rw [hdone.qualifies_iff] at hnot
    exact hdone.skipped hnot
  · rw [hdone.qualifies_iff] at hqualifies
    rw [hdone.countedFeeds_eq] at hstore
    exact hdone.publishedPair hqualifies hstore hlive

theorem aggregated_of_aggregate
    {w : Window sdk} {store : OracleStore} {s : Progress}
    (hloop : w.aggregate store = .ok s) :
    w.Aggregated store w.params.acceptList s := by
  exact foldlM_induct (P := fun done s => w.Aggregated store done s)
    (fun _ _ _ _ hdone hpair => hdone.aggregatePair hpair)
    (Aggregated.initial w store []) hloop

/-! ## The participation loop -/

theorem countWindow_store_get
    {w : Window sdk} {s s' : Progress} {v : Validator}
    (hcount : w.countWindow s v = .ok s') {key : OracleKey}
    (hkey : ¬ key.IsCounter) :
    s'.store.get key = s.store.get key := by
  unfold countWindow at hcount
  cases hval : sdk.valAddressFromBech32 v.operatorAddress with
  | error reason =>
      simp only [hval, pure_eq_ok_iff] at hcount
      rw [hcount]
  | ok valAddr =>
      have hmissed : ∀ missed : Bool,
          (if missed then ((incTotalWindows s.store valAddr).1,
              getMissCounter (incTotalWindows s.store valAddr).1 valAddr)
            else incMissCounter (incTotalWindows s.store valAddr).1
              valAddr).1.get key = s.store.get key := by
        intro missed
        rw [← get_incTotalWindows_of_ne s.store valAddr hkey]
        cases missed with
        | true => rfl
        | false => exact get_incMissCounter_of_ne _ valAddr hkey
      simp only [hval] at hcount
      split at hcount
      · simp only [bind_eq_ok_iff, pure_eq_ok_iff] at hcount
        rcases hcount with ⟨missRate, -, hresult⟩
        rw [← hresult, get_resetValidatorWindows_of_ne _ valAddr hkey]
        exact hmissed _
      · simp only [pure_eq_ok_iff] at hcount
        rw [← hcount]
        exact hmissed _

theorem countWindows_store_get
    {w : Window sdk} {vals : List Validator} {s s' : Progress}
    (hloop : vals.foldlM w.countWindow s = .ok s') {key : OracleKey}
    (hkey : ¬ key.IsCounter) :
    s'.store.get key = s.store.get key :=
  foldlM_invariant
    (I := fun state => state.store.get key = s.store.get key)
    (fun _ _ _ hstate hcount =>
      (countWindow_store_get hcount hkey).trans hstate)
    rfl hloop

/-! ## Closing a window -/

/-- The effect of a completed boundary call on every key outside the TWAP
history and the counters. -/
structure Closed (w : Window sdk) (store result : OracleStore) : Prop where
  published :
    ∀ pair ∈ w.params.acceptList, w.Qualifies store pair →
      result.get (.aggregatedPrice pair) =
        some (.aggregatedPrice
          (w.publishedPrice pair (w.countedFeeds store pair)))
  kept :
    ∀ pair, ¬ (pair ∈ w.params.acceptList ∧ w.Qualifies store pair) →
      result.get (.aggregatedPrice pair) =
        store.get (.aggregatedPrice pair)
  cleared : ∀ val pair, result.get (.feed val pair) = none
  params_eq : result.get .params = store.get .params
  feederToValoper_eq :
    ∀ feeder, result.get (.feederToValoper feeder) =
      store.get (.feederToValoper feeder)
  valoperToFeeder_eq :
    ∀ val, result.get (.valoperToFeeder val) =
      store.get (.valoperToFeeder val)

theorem closed_of_close
    {w : Window sdk} {store : OracleStore}
    {result : OracleStore × List SlashCall}
    (hclose : w.close store = .ok result) : w.Closed store result.1 := by
  simp only [close, bind_eq_ok_iff, pure_eq_ok_iff] at hclose
  rcases hclose with ⟨aggregated, hloop, settled, hcount, hresult⟩
  have hdone := aggregated_of_aggregate hloop
  have hframe : ∀ key : OracleKey, ¬ key.IsCounter →
      (∀ val pair, key ≠ .feed val pair) →
      result.1.get key = aggregated.store.get key := by
    intro key hcounter hfeed
    rw [← hresult, get_deleteAllFeeds_of_ne _ hfeed]
    exact countWindows_store_get hcount hcounter
  have hother : ∀ key : OracleKey, ¬ key.IsCounter →
      (∀ val pair, key ≠ .feed val pair) →
      (∀ pair, key ≠ .aggregatedPrice pair) →
      (∀ pair nanos, key ≠ .twap pair nanos) →
      result.1.get key = store.get key := by
    intro key hcounter hfeed hprice htwap
    rw [hframe key hcounter hfeed, hdone.frame key hprice htwap]
  constructor
  · intro pair hpair hqualifies
    rw [hframe _ (by simp [OracleKey.IsCounter]) (by simp)]
    exact hdone.published pair hpair hqualifies
  · intro pair hpair
    rw [hframe _ (by simp [OracleKey.IsCounter]) (by simp)]
    exact hdone.kept pair hpair
  · intro val pair
    rw [← hresult]
    exact get_deleteAllFeeds_feed settled.store val pair
  · apply hother <;> simp [OracleKey.IsCounter]
  · intro feeder
    apply hother <;> simp [OracleKey.IsCounter]
  · intro val
    apply hother <;> simp [OracleKey.IsCounter]

end Window

end Oracle
end Vertix

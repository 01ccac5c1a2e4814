import Vertix.FeederMajority
import Vertix.FeederProvenance
import Vertix.OracleParticipation
import Vertix.OracleWindow
import Mathlib.Tactic

/-!
# From the sources to the published price

A price passes through two medians on its way to the chain: the feeder takes
one over its sources, and the chain one over the validators, weighted by their
power.  Each of them stays in a band which its inputs respect in majority.  The
chain's median rounds half of the power down, so its majority has to exceed
half by more than half a unit of power; below that a single validator can set
the price.  The feeder drops quotes that deviate from the first median, so its
majority only counts if it is no wider than the tolerated deviation.  Bands are
taken window by window: prices may move between windows, and each feeder may
have its own narrow band inside the one of the window.
-/

namespace Vertix

namespace Oracle

open OrderStatistics

/-- A majority which exceeds half by more than half a unit keeps the weighted
median in its band. -/
theorem weightedMedian_within_of_margin
    {entries : List WeightedPrice} {low high : ℚ}
    (hweight : ∀ e ∈ entries, 0 ≤ e.weightInt)
    (hfits : totalPower entries < 2 ^ 63)
    (hmargin : totalPower entries + 1 < 2 * powerWithin entries low high) :
    low ≤ priceValue (weightedMedian entries) ∧
      priceValue (weightedMedian entries) ≤ high := by
  have hnonneg : 0 ≤ totalPower entries := totalWeight_nonneg hweight
  have hne : entries ≠ [] := by
    rintro rfl
    simp [weightWithin, totalWeight] at hmargin
  obtain ⟨hbelow, habove⟩ := weightedMedian_sides hne hweight hfits
  constructor
  · by_contra hlow
    -- the band lies above the median
    have hband : powerWithin entries low high ≤
        powerAbove entries (priceValue (weightedMedian entries)) := by
      apply totalWeight_filter_mono hweight
      intro e _ hwithin
      rw [decide_eq_true_eq] at hwithin ⊢
      exact (not_le.mp hlow).trans_le hwithin.1
    omega
  · by_contra hhigh
    have hband : powerWithin entries low high ≤
        powerBelow entries (priceValue (weightedMedian entries)) := by
      apply totalWeight_filter_mono hweight
      intro e _ hwithin
      rw [decide_eq_true_eq] at hwithin ⊢
      exact hwithin.2.trans_lt (not_le.mp hhigh)
    have hless := hbelow (by omega)
    omega

/-- The price stored for a validator in a window is that of a message of the
history. -/
theorem exists_message_of_latestPrice {k : Keeper} {val : Address}
    {pair text : String} {history : List (OracleStore × OracleStep k)}
    (hlatest : latestPrice k val pair history = some text) :
    ∃ store ctx staking msg,
      (store, OracleStep.submitFeed ctx staking msg) ∈ history ∧
      k.sdk.valAddressFromBech32 msg.validator = .ok val ∧
      msg.pair = pair ∧ msg.price = text := by
  induction history with
  | nil => cases hlatest
  | cons entry older ih =>
      have hlater : latestPrice k val pair older = some text →
          ∃ store ctx staking msg,
            (store, OracleStep.submitFeed ctx staking msg) ∈
              entry :: older ∧
            k.sdk.valAddressFromBech32 msg.validator = .ok val ∧
            msg.pair = pair ∧ msg.price = text := by
        intro holder
        obtain ⟨store, ctx, staking, msg, hmem, hmsg⟩ := ih holder
        exact ⟨store, ctx, staking, msg, List.mem_cons_of_mem _ hmem, hmsg⟩
      obtain ⟨store, step⟩ := entry
      cases step with
      | setFeeder staking msg => exact hlater hlatest
      | updateParams msg => exact hlater hlatest
      | submitFeed ctx staking msg =>
          rw [latestPrice] at hlatest
          split_ifs at hlatest with hmsg
          · cases hlatest
            exact ⟨store, ctx, staking, msg, List.mem_cons_self, hmsg.2.1,
              hmsg.2.2, rfl⟩
          · exact hlater hlatest
      | endBlock ctx staking =>
          rw [latestPrice] at hlatest
          split_ifs at hlatest
          exact hlater hlatest

end Oracle

namespace Feeder

open Oracle OrderStatistics Transition

/-- A poll of a feeder beside its price loop. -/
structure Session (sdk : Sdk) where
  priceLoop : PriceLoop
  ticks : ℕ → Tick
  submit : SubmitLoop
  poll : Poll
  times : ℕ → ℕ
  reads : ∀ i, priceLoop.cacheAfter sdk ticks (times i) =
    some (poll.reads i)

/-- At the refreshes from which the poll reads the pair, most quotes lie in the
band, which is positive and no wider than the deviation that the feeder
tolerates. -/
structure Session.SourcesWithin {sdk : Sdk} (s : Session sdk) (pair : String)
    (low high : ℚ) : Prop where
  positive : 0 < low
  narrow : high - low ≤ s.priceLoop.maxDev.toRat * low
  majority : ∀ i m pc, s.priceLoop.LastRefresh (s.times i) pair m pc →
    (s.priceLoop.quotes sdk (s.priceLoop.tickAt s.ticks m)
        (m % s.priceLoop.pairs.length) pc).length <
      2 * quotesWithin (s.priceLoop.quotes sdk
        (s.priceLoop.tickAt s.ticks m) (m % s.priceLoop.pairs.length) pc)
        low high

/-- The text is the price for the pair in a batch of a feeder whose sources
agree on a narrow band inside the given one. -/
def HonestPrice (sdk : Sdk) (pair : String) (low high : ℚ) (text : String) :
    Prop :=
  ∃ s : Session sdk, ∃ feed ∈ s.submit.freshFeeds s.poll, ∃ low' high',
    feed.pair = pair ∧ text = sdk.legacyDecString feed.price ∧
      low ≤ low' ∧ high' ≤ high ∧ s.SourcesWithin pair low' high'

theorem HonestPrice.within {sdk : Sdk} {pair text : String} {low high : ℚ}
    (hhonest : HonestPrice sdk pair low high text) {price : LegacyDec}
    (hprice : sdk.legacyNewDecFromStr text = .ok price) :
    low ≤ priceValue price ∧ priceValue price ≤ high := by
  obtain ⟨s, feed, hfeed, low', high', hpair, htext, hlow, hhigh, hsources⟩ :=
    hhonest
  rw [htext, sdk.legacyDec_roundTrip, Except.ok.injEq] at hprice
  obtain ⟨i, pc, -, hnamed, hfresh⟩ := SubmitLoop.mem_freshFeeds_iff.mp hfeed
  obtain ⟨m, pc', hlast, hmedian, -⟩ :=
    (PriceLoop.fresh_iff_quoted (s.reads i)).mp hfresh
  rw [← hnamed, hpair] at hlast
  obtain ⟨hlower, hupper⟩ := crossSourceMedian_within hsources.positive
    hsources.narrow (hsources.majority i m pc' hlast) hmedian
  rw [← hprice]
  exact ⟨hlow.trans hlower, hupper.trans hhigh⟩

/-- In the current window the honest validators' latest prices for the pair
come from sources in the band. -/
def HonestFeeders (k : Keeper) (honest : Address → Bool) (pair : String)
    (low high : ℚ) (history : OracleHistory k) : Prop :=
  ∀ val text, honest val = true →
    latestPrice k val pair history = some text →
    HonestPrice k.sdk pair low high text

/-- The submissions of the validators in `honest`. -/
def honestPart (k : Keeper) (honest : Address → Bool)
    (entries : List WeightedPrice) : List WeightedPrice :=
  entries.filter fun e =>
    (k.sdk.valAddressFromBech32 e.valoper).toOption.any honest

/-- The honest validators hold more than half of the submitted power, by more
than half a unit. -/
def HonestMajority (k : Keeper) (honest : Address → Bool)
    (entries : List WeightedPrice) : Prop :=
  totalPower entries + 1 < 2 * totalPower (honestPart k honest entries)

instance (k : Keeper) (honest : Address → Bool)
    (entries : List WeightedPrice) :
    Decidable (HonestMajority k honest entries) :=
  inferInstanceAs (Decidable (_ < _))

/-- A boundary of the history at which the window `w` publishes the pair;
`older` leads to the store `before` that it reads. -/
structure Publication (k : Keeper) (history : OracleHistory k) (pair : String)
    (older : OracleHistory k) (before : OracleStore) (w : Window k.sdk) :
    Prop where
  closed : ∃ newer staking,
    history = newer ++ (before, OracleStep.endBlock w.ctx staking) :: older ∧
      openWindow k.sdk w.ctx staking (getParams before) = .ok w
  boundary : w.ctx.blockHeight % (getParams before).voteWindow = 0
  accepted : pair ∈ w.params.acceptList
  qualifies : w.Qualifies before pair

theorem Publication.later {k : Keeper} {history older : OracleHistory k}
    {pair : String} {before : OracleStore} {w : Window k.sdk}
    (hpublication : Publication k history pair older before w)
    (entry : OracleStore × OracleStep k) :
    Publication k (entry :: history) pair older before w := by
  obtain ⟨newer, staking, rfl, hopen⟩ := hpublication.closed
  exact ⟨⟨entry :: newer, staking, rfl, hopen⟩, hpublication.boundary,
    hpublication.accepted, hpublication.qualifies⟩

/-- At the publications whose block times are in `times`, honest validators
hold the power, with sources in the band of that block. -/
def HonestPublications (k : Keeper) (honest : Address → Bool) (pair : String)
    (times : Time → Prop) (band : Time → ℚ × ℚ) (history : OracleHistory k) :
    Prop :=
  ∀ older before w, Publication k history pair older before w →
    times w.ctx.blockTime →
    HonestFeeders k honest pair (band w.ctx.blockTime).1
        (band w.ctx.blockTime).2 older ∧
      HonestMajority k honest (w.countedFeeds before pair)

section Window

variable {k : Keeper} {history : OracleHistory k}
  {store : OracleStore} {w : Window k.sdk} {pair : String} {low high : ℚ}
  {honest : Address → Bool}

/-- A counted price is the latest of its validator. -/
theorem exists_latestPrice_of_counted (hreached : Reached k history store)
    {e : WeightedPrice} (he : e ∈ w.countedFeeds store pair) :
    ∃ val text, k.sdk.valAddressFromBech32 e.valoper = .ok val ∧
      latestPrice k val pair history = some text ∧
      k.sdk.legacyNewDecFromStr text = .ok e.price := by
  obtain ⟨val, feed, hfeed, hprice, -, hvaloper, -⟩ :=
    Window.mem_countedFeeds_iff.mp he
  have hstored : storedFeedPrice store val pair = some feed.price :=
    storedFeedPrice_eq_some_iff.mpr ⟨feed, hfeed, rfl⟩
  rw [feedsMatch_of_reached hreached] at hstored
  refine ⟨val, feed.price, ?_, hstored, hprice⟩
  rw [hvaloper, k.sdk.valAddress_roundTrip]

theorem honest_entry_within (hreached : Reached k history store)
    (hfeeders : HonestFeeders k honest pair low high history)
    {e : WeightedPrice} (he : e ∈ honestPart k honest
      (w.countedFeeds store pair)) :
    low ≤ e.value ∧ e.value ≤ high := by
  obtain ⟨hcounted, hin⟩ := List.mem_filter.mp he
  obtain ⟨val, text, hval, hlatest, hprice⟩ :=
    exists_latestPrice_of_counted hreached hcounted
  rw [hval] at hin
  exact (hfeeders val text hin hlatest).within hprice

/-- An honest majority holds the median in the band of its sources. -/
theorem honest_median_within (hreached : Reached k history store)
    (hfeeders : HonestFeeders k honest pair low high history)
    (hqualifies : w.Qualifies store pair)
    (hmajority : HonestMajority k honest (w.countedFeeds store pair)) :
    low ≤ priceValue (weightedMedian (w.countedFeeds store pair)) ∧
      priceValue (weightedMedian (w.countedFeeds store pair)) ≤ high := by
  have hweight : ∀ e ∈ w.countedFeeds store pair, 0 ≤ e.weightInt :=
    fun e he => Window.countedFeeds_weight_nonneg he
  have hband : totalPower (honestPart k honest
        (w.countedFeeds store pair)) ≤
      powerWithin (w.countedFeeds store pair) low high := by
    apply totalWeight_filter_mono hweight
    intro e he hin
    rw [decide_eq_true_eq]
    exact honest_entry_within hreached hfeeders
      (List.mem_filter.mpr ⟨he, hin⟩)
  unfold HonestMajority at hmajority
  exact weightedMedian_within_of_margin hweight
    (submittedPower_lt_of_quorumMet hqualifies.2) (by omega)

theorem Publication.reached (hreached : Reached k history store)
    {older : OracleHistory k} {before : OracleStore}
    (hpublication : Publication k history pair older before w) :
    Reached k older before := by
  obtain ⟨newer, staking, rfl, -⟩ := hpublication.closed
  obtain ⟨ctx, staking', gs, start, hinit, hrun⟩ := hreached
  exact ⟨ctx, staking', gs, start, hinit, hrun.before⟩

/-- So it does at every publication of a run where it holds the power. -/
theorem Publication.median_within (hreached : Reached k history store)
    {times : Time → Prop} {band : Time → ℚ × ℚ}
    (hhonest : HonestPublications k honest pair times band history)
    {older : OracleHistory k} {before : OracleStore}
    (hpublication : Publication k history pair older before w)
    (htime : times w.ctx.blockTime) :
    (band w.ctx.blockTime).1 ≤
        priceValue (weightedMedian (w.countedFeeds before pair)) ∧
      priceValue (weightedMedian (w.countedFeeds before pair)) ≤
        (band w.ctx.blockTime).2 := by
  obtain ⟨hfeeders, hmajority⟩ :=
    hhonest older before w hpublication htime
  exact honest_median_within (hpublication.reached hreached) hfeeders
    hpublication.qualifies hmajority

/-- Suppose that the latest prices of the honest validators in a window come
from feeders which each saw most sources in a narrow band inside
`[low, high]`, and that these validators hold more than half of the submitted
power, by more than half a unit.  Then the price published at the end of the
window lies in `[low, high]`, whatever the others submit. -/
theorem honest_power_sets_price
    {ctx : Ctx} {staking : StakingView k.sdk}
    {result : OracleStore × List SlashCall}
    (hreached : Reached k history store)
    (hboundary : ctx.blockHeight % (getParams store).voteWindow = 0)
    (hcall : endBlocker k ctx staking store = .ok result)
    (hopen : openWindow k.sdk ctx staking (getParams store) = .ok w)
    (hpair : pair ∈ w.params.acceptList)
    (hqualifies : w.Qualifies store pair)
    (hfeeders : HonestFeeders k honest pair low high history)
    (hmajority : HonestMajority k honest (w.countedFeeds store pair)) :
    ∃ median,
      storedPrice result.1 pair =
        some ⟨pair, k.sdk.legacyDecString median, ctx.blockHeight,
          ctx.blockTime⟩ ∧
      low ≤ priceValue median ∧ priceValue median ≤ high := by
  rcases endBlocker_cases hcall with ⟨hinside, -⟩ | ⟨-, w', hopen', hclose⟩
  · exact absurd hboundary hinside
  rw [hopen, Except.ok.injEq] at hopen'
  subst hopen'
  have hpublished :=
    (Window.closed_of_close hclose).published pair hpair hqualifies
  obtain ⟨hctx, -⟩ := openWindow_eq_ok_iff.mp hopen
  refine ⟨_, ?_,
    honest_median_within hreached hfeeders hqualifies hmajority⟩
  rw [storedPrice_eq_some_iff, hpublished, Window.publishedPrice, hctx]

end Window

/-! ## An honest validator against a dishonest one -/

def manySources : PairConfig :=
  ⟨"VTX:USD", [("static", "VTX"), ("binance", "VTXUSD"),
    ("coingecko", "vertix")]⟩

def manySourcesLoop : PriceLoop :=
  ⟨[manySources], [.static [("VTX", legacyOneDec)], .binance, .coinGecko], 1,
    fallbackDeviation⟩

/-- The third source is off by a factor of nine. -/
def manySourcesTicks (_ : ℕ) : Tick :=
  ⟨0, fun _ provider => .ok (if provider = 1 then "1.02" else "9.0")⟩

/-- What the feeder makes of its sources. -/
def agreedPrice : String := "1.010000000000000000"

theorem agreedPrice_honest :
    HonestPrice referenceSdk "VTX:USD" 1 (51 / 50) agreedPrice := by
  have hcheck : (manySourcesLoop.cacheAfter referenceSdk manySourcesTicks
      1).any (fun cache => ((newFeederLoop sampleConfig 10).freshFeeds
        (failingPoll cache)).any fun feed => decide (feed.pair = "VTX:USD" ∧
          agreedPrice = referenceSdk.legacyDecString feed.price)) = true := by
    decide +kernel
  obtain ⟨cache, hcache, hfeeds⟩ := exists_some_of_any hcheck
  obtain ⟨feed, hfeed, hprice⟩ := List.any_eq_true.mp hfeeds
  rw [decide_eq_true_eq] at hprice
  refine ⟨⟨manySourcesLoop, manySourcesTicks, newFeederLoop sampleConfig 10,
    failingPoll cache, fun _ => 1, fun _ => hcache⟩, feed, hfeed, 1, 51 / 50,
    hprice.1, hprice.2, le_rfl, le_rfl, one_pos, ?_, ?_⟩
  · change (51 / 50 : ℚ) - 1 ≤ fallbackDeviation.toRat * 1
    decide +kernel
  · intro i m pc hlast
    have hfirst : m = 0 := Nat.lt_one_iff.mp hlast.before
    subst hfirst
    have hentry : some manySources = some pc := hlast.entry
    cases hentry
    change (manySourcesLoop.quotes referenceSdk (manySourcesTicks 0) 0
        manySources).length < 2 * quotesWithin (manySourcesLoop.quotes
          referenceSdk (manySourcesTicks 0) 0 manySources) 1 (51 / 50)
    decide +kernel

def ledRows (leader other : UInt8) : List StakingRow :=
  [⟨addressOf leader, .bonded, List.replicate 20 (leader + 2), 30⟩,
    ⟨addressOf other, .bonded, List.replicate 20 (other + 2), 10⟩]

theorem ledRows_distinct {leader other : UInt8} (hne : leader ≠ other) :
    ((ledRows leader other).map StakingRow.operator).Nodup := by
  simp [ledRows, addressOf, hne]

theorem ledRows_powers (leader other : UInt8) :
    ∀ row ∈ ledRows leader other, 0 ≤ row.power.toInt := by
  simp [ledRows]

theorem fortyPower_bounded : (40 : ℤ).natAbs < 2 ^ 256 := by norm_num

def fortyPower : SdkInt := ⟨40, fortyPower_bounded⟩

theorem fortyPower_nonneg : 0 ≤ fortyPower.raw := by decide

/-- Two validators, of which the leader has three quarters of the power. -/
def ledBy (leader other : UInt8) (hne : leader ≠ other) :
    StakingView referenceSdk :=
  stakingOfRows referenceSdk (ledRows leader other) fortyPower
    (ledRows_distinct hne) (ledRows_powers leader other) fortyPower_nonneg

theorem leaders_differ : (1 : UInt8) ≠ 2 := by decide

def firstLeads : StakingView referenceSdk := ledBy 1 2 leaders_differ

def firstIsHonest (val : Address) : Bool := val == addressOf 1

/-- The honest validator and one which reports five times the price. -/
def IsRivalFeed (msg : MsgSubmitFeed) : Prop :=
  msg = firstFeed agreedPrice ∨ msg = secondFeed "5.0"

theorem honestFeeders_of_rivals {history : OracleHistory referenceKeeper}
    (hrivals : ∀ before ctx staking msg,
      (before, OracleStep.submitFeed ctx staking msg) ∈ history →
      IsRivalFeed msg) :
    HonestFeeders referenceKeeper firstIsHonest "VTX:USD" 1 (51 / 50)
      history := by
  intro val text hhonest hlatest
  obtain ⟨before, ctx, staking, msg, hmem, hval, -, rfl⟩ :=
    exists_message_of_latestPrice hlatest
  rcases hrivals before ctx staking msg hmem with rfl | rfl
  · exact agreedPrice_honest
  · have hsecond : referenceKeeper.sdk.valAddressFromBech32
        (secondFeed "5.0").validator = .ok (addressOf 2) := by
      decide +kernel
    rw [hsecond, Except.ok.injEq] at hval
    subst hval
    exact absurd hhonest (by decide)

def rivalSteps : List (OracleStep referenceKeeper) :=
  [.submitFeed boundaryCtx firstLeads (firstFeed agreedPrice),
    .submitFeed boundaryCtx firstLeads (secondFeed "5.0")]

theorem honest_leader_sets_price :
    ∃ history store result median,
      Reached referenceKeeper history store ∧
      history.map Prod.snd = rivalSteps.reverse ∧
      endBlocker referenceKeeper boundaryCtx firstLeads store =
        .ok result ∧
      storedPrice result.1 "VTX:USD" =
        some ⟨"VTX:USD", referenceKeeper.sdk.legacyDecString median, 10,
          1700000000000000000⟩ ∧
      1 ≤ priceValue median ∧ priceValue median ≤ 51 / 50 := by
  have hfacts : (initGenesis referenceKeeper boundaryCtx firstLeads
      TypedStore.empty singlePairGenesis).toOption.any (fun start =>
        (replay (oracleStep referenceKeeper) [] start rivalSteps).any
          fun r => decide (boundaryCtx.blockHeight %
              (getParams r.2).voteWindow = 0) &&
            (endBlocker referenceKeeper boundaryCtx firstLeads
              r.2).toOption.any (fun _ => true) &&
            (openWindow referenceKeeper.sdk boundaryCtx firstLeads
              (getParams r.2)).toOption.any fun w =>
                decide ("VTX:USD" ∈ w.params.acceptList ∧
                  w.Qualifies r.2 "VTX:USD" ∧
                  HonestMajority referenceKeeper firstIsHonest
                    (w.countedFeeds r.2 "VTX:USD"))) = true := by
    decide +kernel
  obtain ⟨start, hinit, hreplayed⟩ := exists_ok_of_any hfacts
  obtain ⟨⟨history, store⟩, hreplay, hchecked⟩ := exists_some_of_any hreplayed
  simp only [Bool.and_eq_true, decide_eq_true_eq] at hchecked
  obtain ⟨⟨hboundary, hend⟩, hwindow⟩ := hchecked
  obtain ⟨result, hresult, -⟩ := exists_ok_of_any hend
  obtain ⟨w, hopen, hfacts⟩ := exists_ok_of_any hwindow
  obtain ⟨hpair, hqualifies, hmajority⟩ := of_decide_eq_true hfacts
  have hreached : Reached referenceKeeper history store :=
    ⟨boundaryCtx, firstLeads, singlePairGenesis, start, hinit,
      run_of_replay Run.start hreplay⟩
  have hlabels : history.map Prod.snd = rivalSteps.reverse :=
    labels_of_replay hreplay
  have hrivals : ∀ before ctx staking msg,
      (before, OracleStep.submitFeed ctx staking msg) ∈ history →
      IsRivalFeed msg := by
    intro before ctx staking msg hmem
    have hlabel := label_mem_of_replay hreplay hmem
    simp only [rivalSteps, List.mem_cons, List.not_mem_nil,
      or_false] at hlabel
    rcases hlabel with hlabel | hlabel <;> cases hlabel
    · exact .inl rfl
    · exact .inr rfl
  obtain ⟨median, hprice, hwithin⟩ := honest_power_sets_price hreached
    hboundary hresult hopen hpair hqualifies
    (honestFeeders_of_rivals hrivals) hmajority
  exact ⟨history, store, result, median, hreached, hlabels, hresult, hprice,
    hwithin⟩

end Feeder

end Vertix

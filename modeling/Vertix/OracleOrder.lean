import Vertix.OracleSlashing
import Vertix.OracleWindow
import Mathlib.Tactic

/-!
# The order of submissions in a window

Two sequences of submissions which agree on the order of the messages for each
validator and pair leave the same outcome at the next boundary.  The stored
feeds may differ in the heights at which they arrived, so the two runs are
related by what a boundary call reads: the scanned prices, and every key
outside the feeds.  No step of the oracle reads more of a feed than its price.
-/

namespace Vertix
namespace Oracle

open Transition

/-! ## What a boundary call reads -/

/-- The stores agree outside the feeds, and a scan of the feeds yields the same
prices. -/
structure SameWindow (left right : OracleStore) : Prop where
  feeds : iterateAllFeeds left = iterateAllFeeds right
  other : ∀ key : OracleKey, (∀ val pair, key ≠ .feed val pair) →
    left.get key = right.get key

def OracleValue.feedPrice : OracleValue → Option String
  | .feed f => some f.price
  | _ => none

/-- The callback of a scan reads no more than the price of a feed. -/
def scannedFeed (entry : Bytes × Option String) :
    Option (Bytes × Bytes × String) :=
  match parseFeedKey entry.1, entry.2 with
  | .ok (val, pair), some price => some (val, pair, price)
  | _, _ => none

theorem iterateAllFeeds_eq_scanned (store : OracleStore) :
    iterateAllFeeds store =
      ((store.prefixScan feedKeyPrefix).map
        (Prod.map id OracleValue.feedPrice)).filterMap scannedFeed := by
  unfold iterateAllFeeds
  rw [List.filterMap_map]
  congr 1
  funext entry
  rcases entry with ⟨raw, value⟩
  cases hparsed : parseFeedKey raw with
  | error error => simp [scannedFeed, hparsed]
  | ok place =>
      cases value <;> simp [scannedFeed, hparsed, OracleValue.feedPrice]

theorem map_feedPrice_get (store : OracleStore) (val : Address)
    (pair : String) :
    (store.get (.feed val pair)).map OracleValue.feedPrice =
      (storedFeedPrice store val pair).map some := by
  cases hget : store.get (.feed val pair) with
  | none => simp [storedFeedPrice, hget]
  | some value =>
      have hadmits := TypedStore.admits_of_get hget
      cases value with
      | feed feed => simp [storedFeedPrice, hget, OracleValue.feedPrice]
      | _ => exact absurd hadmits id

/-- A scan of the feeds is determined by the stored prices. -/
theorem iterateAllFeeds_of_prices {left right : OracleStore}
    (hprices : ∀ val pair,
      storedFeedPrice left val pair = storedFeedPrice right val pair) :
    iterateAllFeeds left = iterateAllFeeds right := by
  rw [iterateAllFeeds_eq_scanned, iterateAllFeeds_eq_scanned,
    TypedStore.prefixScan_map_congr]
  intro key hstarts
  rcases (feedKeyPrefix_prefix_iff key).mp hstarts with ⟨val, pair, rfl⟩
  rw [map_feedPrice_get, map_feedPrice_get, hprices]

namespace SameWindow

variable {left right : OracleStore}

/-- Changes outside the feeds which leave the same lookups keep the
relation. -/
theorem of_frame {left' right' : OracleStore}
    (hsame : SameWindow left right)
    (hleft : ∀ val pair,
      left'.get (.feed val pair) = left.get (.feed val pair))
    (hright : ∀ val pair,
      right'.get (.feed val pair) = right.get (.feed val pair))
    (hother : ∀ key : OracleKey, (∀ val pair, key ≠ .feed val pair) →
      left'.get key = right'.get key) :
    SameWindow left' right' := by
  refine ⟨?_, hother⟩
  rw [Window.iterateAllFeeds_congr hleft, hsame.feeds,
    Window.iterateAllFeeds_congr fun val pair => (hright val pair).symm]

theorem set (hsame : SameWindow left right) {key : OracleKey}
    {value : OracleValue} (hadmits : key.Admits value)
    (hkey : ∀ val pair, key ≠ .feed val pair) :
    SameWindow (left.set key value hadmits) (right.set key value hadmits) := by
  apply hsame.of_frame
  · intro val pair
    exact TypedStore.get_set_of_ne left hadmits (hkey val pair)
  · intro val pair
    exact TypedStore.get_set_of_ne right hadmits (hkey val pair)
  · intro other hother
    rw [TypedStore.get_set, TypedStore.get_set, hsame.other other hother]

theorem delete (hsame : SameWindow left right) {key : OracleKey}
    (hkey : ∀ val pair, key ≠ .feed val pair) :
    SameWindow (left.delete key) (right.delete key) := by
  apply hsame.of_frame
  · intro val pair
    rw [TypedStore.get_delete, if_neg (hkey val pair)]
  · intro val pair
    rw [TypedStore.get_delete, if_neg (hkey val pair)]
  · intro other hother
    rw [TypedStore.get_delete, TypedStore.get_delete,
      hsame.other other hother]

theorem pruneTWAPOlderThan (hsame : SameWindow left right) (pair : String)
    (cutoff : Time) :
    SameWindow (pruneTWAPOlderThan left pair cutoff)
      (pruneTWAPOlderThan right pair cutoff) := by
  have hscan : left.prefixScan (twapPrefix pair) =
      right.prefixScan (twapPrefix pair) := by
    apply TypedStore.prefixScan_congr
    intro key hstarts
    rcases twapPrefix_prefix_imp hstarts with ⟨pair', nanos, rfl⟩
    exact hsame.other _ (by simp)
  apply hsame.of_frame
  · intro val pair'
    exact get_pruneTWAPOlderThan_of_ne left pair cutoff (by simp)
  · intro val pair'
    exact get_pruneTWAPOlderThan_of_ne right pair cutoff (by simp)
  · intro key hkey
    rw [Oracle.pruneTWAPOlderThan, Oracle.pruneTWAPOlderThan,
      TypedStore.get_deleteAll, TypedStore.get_deleteAll, expiredTWAPKeys,
      expiredTWAPKeys, hscan, hsame.other key hkey]

theorem getTotalWindows (hsame : SameWindow left right) (val : Address) :
    getTotalWindows left val = getTotalWindows right val := by
  simp only [Oracle.getTotalWindows, readCounter,
    hsame.other (.totalWindows val) (by simp)]

theorem getMissCounter (hsame : SameWindow left right) (val : Address) :
    getMissCounter left val = getMissCounter right val := by
  simp only [Oracle.getMissCounter, readCounter,
    hsame.other (.missCounter val) (by simp)]

theorem incTotalWindows (hsame : SameWindow left right) (val : Address) :
    SameWindow (incTotalWindows left val).1 (incTotalWindows right val).1 ∧
      (incTotalWindows left val).2 = (incTotalWindows right val).2 := by
  simp only [Oracle.incTotalWindows, hsame.getTotalWindows val, and_true]
  exact hsame.set _ (by simp)

theorem incMissCounter (hsame : SameWindow left right) (val : Address) :
    SameWindow (incMissCounter left val).1 (incMissCounter right val).1 ∧
      (incMissCounter left val).2 = (incMissCounter right val).2 := by
  simp only [Oracle.incMissCounter, hsame.getMissCounter val, and_true]
  exact hsame.set _ (by simp)

theorem resetValidatorWindows (hsame : SameWindow left right)
    (val : Address) :
    SameWindow (resetValidatorWindows left val)
      (resetValidatorWindows right val) :=
  (hsame.delete (by simp)).delete (by simp)

theorem getParams (hsame : SameWindow left right) :
    getParams left = getParams right :=
  getParams_congr (hsame.other .params (by simp))

/-- Once the feeds are gone nothing is left to tell the stores apart. -/
theorem deleteAllFeeds (hsame : SameWindow left right) :
    deleteAllFeeds left = deleteAllFeeds right := by
  apply TypedStore.ext_get
  intro key
  by_cases hfeed : ∃ val pair, key = .feed val pair
  · rcases hfeed with ⟨val, pair, rfl⟩
    rw [get_deleteAllFeeds_feed, get_deleteAllFeeds_feed]
  · have hkey : ∀ val pair, key ≠ .feed val pair :=
      fun val pair heq => hfeed ⟨val, pair, heq⟩
    rw [get_deleteAllFeeds_of_ne _ hkey, get_deleteAllFeeds_of_ne _ hkey,
      hsame.other key hkey]

end SameWindow

/-! ## The boundary call -/

namespace Window

variable {sdk : Sdk}

structure SameProgress (s t : Progress) : Prop where
  store : SameWindow s.store t.store
  live : s.quorumLive = t.quorumLive
  slashes : s.slashes = t.slashes

theorem countedFeeds_of_same (w : Window sdk) {left right : OracleStore}
    (hsame : SameWindow left right) (pair : String) :
    w.countedFeeds left pair = w.countedFeeds right pair := by
  unfold countedFeeds
  rw [hsame.feeds]

theorem publish_same (w : Window sdk) {left right : OracleStore}
    (hsame : SameWindow left right) (pair : String)
    (weighted : List WeightedPrice) :
    SameWindow (w.publish left pair weighted)
      (w.publish right pair weighted) := by
  unfold publish setAggregatedPrice appendTWAPEntry
  apply SameWindow.pruneTWAPOlderThan
  apply SameWindow.set _ _ (by simp)
  exact hsame.set _ (by simp)

theorem aggregatePair_agree (w : Window sdk) {s t : Progress}
    (hsame : SameProgress s t) (pair : String) :
    Agree SameProgress (w.aggregatePair s pair) (w.aggregatePair t pair) := by
  unfold aggregatePair
  simp only [w.countedFeeds_of_same hsame.store pair, hsame.live,
    hsame.slashes]
  split_ifs
  · exact .ok hsame
  · apply Agree.bind_same
    intro met
    split_ifs
    · apply Agree.bind_same
      intro slashes
      exact .ok ⟨w.publish_same hsame.store pair _, rfl, rfl⟩
    · exact .ok hsame

theorem countWindow_agree (w : Window sdk) {s t : Progress}
    (hsame : SameProgress s t) (v : Validator) :
    Agree SameProgress (w.countWindow s v) (w.countWindow t v) := by
  unfold countWindow
  cases sdk.valAddressFromBech32 v.operatorAddress with
  | error reason => exact .ok hsame
  | ok val =>
      have hpairs : getValidatorSubmittedPairs s.store val =
          getValidatorSubmittedPairs t.store val := by
        unfold getValidatorSubmittedPairs
        rw [hsame.store.feeds]
      have htotal := hsame.store.incTotalWindows val
      have hcounted : ∀ submitted : Bool, SameWindow
          (countMiss s.store val submitted).1
          (countMiss t.store val submitted).1 ∧
            (countMiss s.store val submitted).2 =
              (countMiss t.store val submitted).2 := by
        intro submitted
        cases submitted with
        | true => exact ⟨htotal.1, htotal.1.getMissCounter val⟩
        | false => exact htotal.1.incMissCounter val
      simp only [hpairs, hsame.live, hsame.slashes, htotal.2]
      generalize (t.quorumLive.all fun pair =>
        (getValidatorSubmittedPairs t.store val).contains (strBytes pair)) =
          submitted
      have hone := hcounted submitted
      unfold countMiss at hone
      rw [hone.2]
      by_cases hclose :
          w.params.missWindowSize ≤ (incTotalWindows t.store val).2
      · rw [if_pos hclose, if_pos hclose]
        apply Agree.bind_same
        intro missRate
        exact .ok ⟨hone.1.resetValidatorWindows val, rfl, rfl⟩
      · rw [if_neg hclose, if_neg hclose]
        exact .ok ⟨hone.1, rfl, rfl⟩

/-- A boundary call cannot tell related stores apart. -/
theorem close_eq_of_same (w : Window sdk) {left right : OracleStore}
    (hsame : SameWindow left right) : w.close left = w.close right := by
  apply Agree.eq
  unfold close
  have haggregated : Agree SameProgress (w.aggregate left)
      (w.aggregate right) :=
    foldlM_agree (fun s t pair hst => w.aggregatePair_agree hst pair)
      ⟨hsame, rfl, rfl⟩
  apply haggregated.bind
  intro s t hst
  have hsettled : Agree SameProgress (w.vals.foldlM w.countWindow s)
      (w.vals.foldlM w.countWindow t) :=
    foldlM_agree (fun s t v hst => w.countWindow_agree hst v) hst
  apply hsettled.bind
  intro s t hst
  exact .ok (Prod.ext hst.store.deleteAllFeeds hst.slashes)

end Window

theorem endBlocker_eq_of_same
    {k : Keeper} {ctx : Ctx} {staking : StakingView k.sdk}
    {left right : OracleStore} (hsame : SameWindow left right)
    (hboundary : ctx.blockHeight % (getParams left).voteWindow = 0) :
    endBlocker k ctx staking left = endBlocker k ctx staking right := by
  rw [hsame.getParams] at hboundary
  simp only [endBlocker, hsame.getParams, hboundary, ne_eq,
    not_true_eq_false, if_false, fun w : Window k.sdk =>
      w.close_eq_of_same hsame]

/-! ## Stores with the same prices -/

/-- The stores differ at most in the heights and author texts of their
feeds. -/
structure SamePrices (left right : OracleStore) : Prop where
  prices : ∀ val pair,
    storedFeedPrice left val pair = storedFeedPrice right val pair
  other : ∀ key : OracleKey, (∀ val pair, key ≠ .feed val pair) →
    left.get key = right.get key

namespace SamePrices

variable {left right : OracleStore}

theorem refl (store : OracleStore) : SamePrices store store :=
  ⟨fun _ _ => rfl, fun _ _ => rfl⟩

theorem sameWindow (hsame : SamePrices left right) : SameWindow left right :=
  ⟨iterateAllFeeds_of_prices hsame.prices, hsame.other⟩

theorem getParams (hsame : SamePrices left right) :
    getParams left = getParams right :=
  hsame.sameWindow.getParams

/-- The same values are written under the same keys. -/
theorem of_written (hsame : SamePrices left right)
    {left' right' : OracleStore} (written : OracleKey → Prop)
    [DecidablePred written] (value : OracleKey → Option OracleValue)
    (hleft : ∀ key, left'.get key =
      if written key then value key else left.get key)
    (hright : ∀ key, right'.get key =
      if written key then value key else right.get key) :
    SamePrices left' right' := by
  constructor
  · intro val pair
    unfold storedFeedPrice
    rw [hleft, hright]
    split_ifs
    · rfl
    · exact hsame.prices val pair
  · intro key hkey
    rw [hleft, hright, hsame.other key hkey]

theorem set (hsame : SamePrices left right) {key : OracleKey}
    {value : OracleValue} (hadmits : key.Admits value) :
    SamePrices (left.set key value hadmits) (right.set key value hadmits) :=
  hsame.of_written (fun other => key = other) (fun _ => some value)
    (fun other => TypedStore.get_set left key other value hadmits)
    (fun other => TypedStore.get_set right key other value hadmits)

theorem deletePrefix (hsame : SamePrices left right) (pre : Bytes) :
    SamePrices (left.deletePrefix pre) (right.deletePrefix pre) :=
  hsame.of_written _ (fun _ => none)
    (fun key => TypedStore.get_deletePrefix left pre key)
    (fun key => TypedStore.get_deletePrefix right pre key)

theorem readAddress (hsame : SamePrices left right) {key : OracleKey}
    (hkey : ∀ val pair, key ≠ .feed val pair) :
    readAddress left key = readAddress right key := by
  unfold Oracle.readAddress
  rw [hsame.other key hkey]

theorem setFeeder {k : Keeper} (hsame : SamePrices left right)
    (staking : StakingView k.sdk) (msg : MsgSetFeeder) :
    Agree SamePrices (setFeeder k staking left msg)
      (setFeeder k staking right msg) := by
  unfold Oracle.setFeeder
  refine Agree.bind_same fun _ => Agree.bind_same fun val =>
    Agree.bind_same fun feeder => Agree.bind_same fun _ => ?_
  have hwritten : SamePrices (writeFeederDelegation left val feeder)
      (writeFeederDelegation right val feeder) := (hsame.set _).set _
  have hbound : getValidatorForFeeder left feeder =
      getValidatorForFeeder right feeder := hsame.readAddress (by simp)
  unfold setFeederDelegation
  rw [hbound]
  cases getValidatorForFeeder right feeder with
  | none => exact .ok hwritten
  | some existing =>
      dsimp only
      split_ifs
      · exact .error _
      · exact .ok hwritten

theorem submitFeed {k : Keeper} (hsame : SamePrices left right) (ctx : Ctx)
    (staking : StakingView k.sdk) (msg : MsgSubmitFeed) :
    Agree SamePrices (submitFeed k ctx staking left msg)
      (submitFeed k ctx staking right msg) := by
  have hresolve : ∀ val, resolveAuthorizedFeeder left val =
      resolveAuthorizedFeeder right val := by
    intro val
    unfold resolveAuthorizedFeeder getFeederForValidator
    rw [hsame.readAddress (by simp)]
  unfold Oracle.submitFeed
  simp only [hresolve, hsame.getParams]
  refine Agree.bind_same fun _ => Agree.bind_same fun val =>
    Agree.bind_same fun feeder => Agree.bind_same fun _ =>
    Agree.bind_same fun _ => Agree.bind_same fun _ =>
    Agree.bind_same fun _ => ?_
  exact Agree.bind_same fun _ => .ok (hsame.set _)

theorem updateParams {k : Keeper} (hsame : SamePrices left right)
    (msg : MsgUpdateParams) :
    Agree SamePrices (updateParams k left msg) (updateParams k right msg) := by
  unfold Oracle.updateParams
  simp only [hsame.getParams]
  refine Agree.bind_same fun _ => Agree.bind_same fun _ => ?_
  refine Agree.bind_same fun _ => .ok ?_
  split_ifs
  · exact ((hsame.deletePrefix _).deletePrefix _).set _
  · exact hsame.set _

theorem commit (hsame : SamePrices left right)
    {result result' : Except SdkError OracleStore}
    (hagree : Agree SamePrices result result') :
    SamePrices (commit left result) (commit right result') := by
  cases hagree with
  | error error => exact hsame
  | ok hrelated => exact hrelated

theorem step {k : Keeper} (hsame : SamePrices left right)
    (step : OracleStep k) :
    Option.Rel SamePrices (oracleStep k left step)
      (oracleStep k right step) := by
  cases step with
  | setFeeder staking msg =>
      exact .some (hsame.commit (hsame.setFeeder staking msg))
  | submitFeed ctx staking msg =>
      exact .some (hsame.commit (hsame.submitFeed ctx staking msg))
  | updateParams msg => exact .some (hsame.commit (hsame.updateParams msg))
  | endBlock ctx staking =>
      simp only [oracleStep]
      by_cases hboundary :
          ctx.blockHeight % (Oracle.getParams left).voteWindow = 0
      · rw [endBlocker_eq_of_same hsame.sameWindow hboundary]
        cases endBlocker k ctx staking right with
        | error failure => exact .none
        | ok result => exact .some (refl _)
      · -- inside a window only the parameters are read
        simp only [endBlocker, ← hsame.getParams]
        split_ifs
        · exact .none
        · exact .some hsame

theorem run {k : Keeper} (hsame : SamePrices left right)
    (steps : List (OracleStep k)) :
    Option.Rel SamePrices (steps.foldlM (oracleStep k) left)
      (steps.foldlM (oracleStep k) right) := by
  induction steps generalizing left right with
  | nil => exact .some hsame
  | cons step rest ih =>
      have hfirst := hsame.step step
      rw [List.foldlM_cons, List.foldlM_cons]
      generalize oracleStep k left step = left' at hfirst ⊢
      generalize oracleStep k right step = right' at hfirst ⊢
      cases hfirst with
      | none => exact .none
      | some hrelated => exact ih hrelated

end SamePrices

/-! ## The messages of a window -/

/-- Execute submissions one after the other; a failing one is reverted. -/
def submitAll (k : Keeper) (staking : StakingView k.sdk)
    (store : OracleStore) (msgs : List (Ctx × MsgSubmitFeed)) : OracleStore :=
  msgs.foldl (fun store msg =>
    commit store (submitFeed k msg.1 staking store msg.2)) store

/-- The message is for the given validator and pair. -/
def isFor (k : Keeper) (val : Address) (pair : String)
    (msg : MsgSubmitFeed) : Bool :=
  decide (k.sdk.valAddressFromBech32 msg.validator = .ok val) &&
    decide (msg.pair = pair)

/-- The messages of a sequence for one validator and pair, in their order. -/
def messagesFor (k : Keeper) (val : Address) (pair : String)
    (msgs : List (Ctx × MsgSubmitFeed)) : List MsgSubmitFeed :=
  (msgs.map Prod.snd).filter (isFor k val pair)

/-- The message passes all checks, whatever the block. -/
def Passes (k : Keeper) (staking : StakingView k.sdk) (store : OracleStore)
    (msg : MsgSubmitFeed) : Prop :=
  ∃ ctx store', submitFeed k ctx staking store msg = .ok store'

open Classical in
/-- The price which a sequence of messages for one validator and pair leaves,
from the price stored before. -/
noncomputable def priceAfter (k : Keeper) (staking : StakingView k.sdk)
    (store : OracleStore) (before : Option String)
    (msgs : List MsgSubmitFeed) : Option String :=
  msgs.foldl (fun price msg =>
    if Passes k staking store msg then some msg.price else price) before

/-- A submission reads the parameters and the delegations only. -/
theorem passes_iff_of_same
    {k : Keeper} {staking : StakingView k.sdk} {store base : OracleStore}
    {msg : MsgSubmitFeed}
    (hother : ∀ key : OracleKey, (∀ val pair, key ≠ .feed val pair) →
      store.get key = base.get key) (ctx : Ctx) :
    (∃ store', submitFeed k ctx staking store msg = .ok store') ↔
      Passes k staking base msg := by
  have hparams := getParams_congr (hother .params (by simp))
  have hresolve : ∀ val, resolveAuthorizedFeeder store val =
      resolveAuthorizedFeeder base val := by
    intro val
    unfold resolveAuthorizedFeeder getFeederForValidator readAddress
    rw [hother (.valoperToFeeder val) (by simp)]
  constructor
  · intro hpasses
    obtain ⟨store', hsubmit⟩ := hpasses
    obtain ⟨val, hval, hfeeder, hpair, hprice, haccepted, hbonded, hpower,
      -⟩ := submitFeed_eq_ok_iff.mp hsubmit
    rw [hresolve] at hfeeder
    rw [hparams] at haccepted
    exact ⟨ctx, _, submitFeed_eq_ok_iff.mpr ⟨val, hval, hfeeder, hpair,
      hprice, haccepted, hbonded, hpower, rfl⟩⟩
  · intro hpasses
    obtain ⟨other, store', hsubmit⟩ := hpasses
    obtain ⟨val, hval, hfeeder, hpair, hprice, haccepted, hbonded, hpower,
      -⟩ := submitFeed_eq_ok_iff.mp hsubmit
    rw [← hresolve] at hfeeder
    rw [← hparams] at haccepted
    exact ⟨_, submitFeed_eq_ok_iff.mpr ⟨val, hval, hfeeder, hpair,
      hprice, haccepted, hbonded, hpower, rfl⟩⟩

theorem get_commit_submitFeed_of_ne
    (k : Keeper) (ctx : Ctx) (staking : StakingView k.sdk)
    (store : OracleStore) (msg : MsgSubmitFeed) {key : OracleKey}
    (hkey : ∀ val pair, key ≠ .feed val pair) :
    (commit store (submitFeed k ctx staking store msg)).get key =
      store.get key := by
  cases hsubmit : submitFeed k ctx staking store msg with
  | error error => rfl
  | ok store' =>
      obtain ⟨val, -, -, -, -, -, -, -, rfl⟩ :=
        submitFeed_eq_ok_iff.mp hsubmit
      exact (get_writeFeed _ _ _ _).trans (if_neg (hkey _ _).symm)

open Classical in
theorem storedFeedPrice_commit_submitFeed
    (k : Keeper) (ctx : Ctx) (staking : StakingView k.sdk)
    (store : OracleStore) (msg : MsgSubmitFeed) (val : Address)
    (pair : String) :
    storedFeedPrice (commit store (submitFeed k ctx staking store msg)) val
        pair =
      if isFor k val pair msg = true ∧ Passes k staking store msg then
        some msg.price
      else storedFeedPrice store val pair := by
  rw [← passes_iff_of_same (fun _ _ => rfl) ctx]
  cases hsubmit : submitFeed k ctx staking store msg with
  | error error => simp [commit]
  | ok store' =>
      obtain ⟨author, hauthor, -, -, -, -, -, -, rfl⟩ :=
        submitFeed_eq_ok_iff.mp hsubmit
      simp only [commit, isFor, hauthor, Except.ok.injEq, Bool.and_eq_true,
        decide_eq_true_eq, exists_eq', and_true]
      rw [storedFeedPrice_writeFeed]

theorem get_submitAll_of_ne
    (k : Keeper) (staking : StakingView k.sdk)
    (msgs : List (Ctx × MsgSubmitFeed)) (store : OracleStore)
    {key : OracleKey} (hkey : ∀ val pair, key ≠ .feed val pair) :
    (submitAll k staking store msgs).get key = store.get key := by
  induction msgs generalizing store with
  | nil => rfl
  | cons msg msgs ih =>
      exact (ih _).trans (get_commit_submitFeed_of_ne k _ staking store _ hkey)

/-- Only the messages for a validator and pair decide the price which they
leave, and in their order. -/
theorem storedFeedPrice_submitAll
    {k : Keeper} {staking : StakingView k.sdk} {base : OracleStore}
    (val : Address) (pair : String) (msgs : List (Ctx × MsgSubmitFeed))
    (store : OracleStore)
    (hother : ∀ key : OracleKey, (∀ val pair, key ≠ .feed val pair) →
      store.get key = base.get key) :
    storedFeedPrice (submitAll k staking store msgs) val pair =
      priceAfter k staking base (storedFeedPrice store val pair)
        (messagesFor k val pair msgs) := by
  induction msgs generalizing store with
  | nil => rfl
  | cons msg msgs ih =>
      have hstep := ih (commit store (submitFeed k msg.1 staking store msg.2))
        fun key hkey => (get_commit_submitFeed_of_ne k _ staking store _
          hkey).trans (hother key hkey)
      have hpasses : Passes k staking store msg.2 ↔
          Passes k staking base msg.2 :=
        (passes_iff_of_same (fun _ _ => rfl) msg.1).symm.trans
          (passes_iff_of_same hother msg.1)
      rw [storedFeedPrice_commit_submitFeed] at hstep
      refine hstep.trans ?_
      cases hfor : isFor k val pair msg.2 with
      | true =>
          by_cases hbase : Passes k staking base msg.2
          · simp [messagesFor, priceAfter, hfor, hbase, hpasses.mpr hbase]
          · simp [messagesFor, priceAfter, hfor, hbase, mt hpasses.mp hbase]
      | false => simp [messagesFor, hfor]

theorem sameWindow_submitAll
    {k : Keeper} {staking : StakingView k.sdk} {store : OracleStore}
    {first second : List (Ctx × MsgSubmitFeed)}
    (hsame : ∀ val pair,
      messagesFor k val pair first = messagesFor k val pair second) :
    SameWindow (submitAll k staking store first)
      (submitAll k staking store second) := by
  constructor
  · apply iterateAllFeeds_of_prices
    intro val pair
    rw [storedFeedPrice_submitAll val pair first store fun _ _ => rfl,
      storedFeedPrice_submitAll val pair second store fun _ _ => rfl, hsame]
  · intro key hkey
    rw [get_submitAll_of_ne k staking first store hkey,
      get_submitAll_of_ne k staking second store hkey]

/-- For every oracle state and any two sequences of submissions within one
window which have the same messages in the same order for each validator and
pair, the next boundary call has the same outcome: the same store and the same
slashes, or the same failure.  The blocks in which the messages arrive are
arbitrary. -/
theorem window_outcome_ignores_arrival_order
    {k : Keeper} (staking boundaryStaking : StakingView k.sdk)
    (store : OracleStore) {first second : List (Ctx × MsgSubmitFeed)}
    (hsame : ∀ val pair,
      messagesFor k val pair first = messagesFor k val pair second)
    (ctx : Ctx)
    (hboundary : ctx.blockHeight % (getParams store).voteWindow = 0) :
    endBlocker k ctx boundaryStaking (submitAll k staking store first) =
      endBlocker k ctx boundaryStaking
        (submitAll k staking store second) := by
  apply endBlocker_eq_of_same (sameWindow_submitAll hsame)
  rw [getParams_congr
    (get_submitAll_of_ne k staking first store (by simp))]
  exact hboundary

/-- Two submissions of the first validator and one of the second, which
arrives last or first. -/
theorem crossing_feeds_leave_same_window :
    ∃ store result, initGenesis referenceKeeper boundaryCtx twoValidators
        TypedStore.empty singlePairGenesis = .ok store ∧
      endBlocker referenceKeeper boundaryCtx twoValidators
        (submitAll referenceKeeper twoValidators store
          [(boundaryCtx, firstFeed "1.0"), (boundaryCtx, firstFeed "1.1"),
            (boundaryCtx, secondFeed "1.2")]) = .ok result ∧
      endBlocker referenceKeeper boundaryCtx twoValidators
        (submitAll referenceKeeper twoValidators store
          [(boundaryCtx, secondFeed "1.2"), (boundaryCtx, firstFeed "1.0"),
            (boundaryCtx, firstFeed "1.1")]) = .ok result := by
  have hclosed : (initGenesis referenceKeeper boundaryCtx twoValidators
      TypedStore.empty singlePairGenesis).toOption.any (fun store =>
        decide (boundaryCtx.blockHeight %
          (getParams store).voteWindow = 0) &&
        (endBlocker referenceKeeper boundaryCtx twoValidators
          (submitAll referenceKeeper twoValidators store
            [(boundaryCtx, firstFeed "1.0"), (boundaryCtx, firstFeed "1.1"),
              (boundaryCtx, secondFeed "1.2")])).toOption.any
          fun _ => true) = true := by
    decide +kernel
  obtain ⟨store, hinit, hclosed⟩ := exists_ok_of_any hclosed
  rw [Bool.and_eq_true, decide_eq_true_eq] at hclosed
  obtain ⟨result, hresult, -⟩ := exists_ok_of_any hclosed.2
  have hfirst : ∀ price, referenceKeeper.sdk.valAddressFromBech32
      (firstFeed price).validator = .ok (addressOf 1) := by
    intro price
    change referenceKeeper.sdk.valAddressFromBech32
      (firstFeed "").validator = _
    decide +kernel
  have hsecond : ∀ price, referenceKeeper.sdk.valAddressFromBech32
      (secondFeed price).validator = .ok (addressOf 2) := by
    intro price
    change referenceKeeper.sdk.valAddressFromBech32
      (secondFeed "").validator = _
    decide +kernel
  have hdistinct : addressOf 1 ≠ addressOf 2 := by decide
  have hsame : ∀ val pair, messagesFor referenceKeeper val pair
      [(boundaryCtx, firstFeed "1.0"), (boundaryCtx, firstFeed "1.1"),
        (boundaryCtx, secondFeed "1.2")] =
      messagesFor referenceKeeper val pair
        [(boundaryCtx, secondFeed "1.2"), (boundaryCtx, firstFeed "1.0"),
          (boundaryCtx, firstFeed "1.1")] := by
    intro val pair
    simp only [messagesFor, List.map_cons, List.map_nil, List.filter_cons,
      List.filter_nil, isFor, hfirst, hsecond, Except.ok.injEq]
    by_cases hval : addressOf 2 = val
    · subst hval
      simp [hdistinct]
    · simp [hval]
  have houtcome := window_outcome_ignores_arrival_order twoValidators
    twoValidators store hsame boundaryCtx hclosed.1
  exact ⟨store, result, hinit, hresult, houtcome.symm.trans hresult⟩

end Oracle
end Vertix

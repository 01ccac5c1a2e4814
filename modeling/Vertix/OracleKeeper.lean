import Vertix.TypedStore
import Vertix.OracleKeys
import Mathlib.Tactic

/-!
# The oracle keeper

Store access of `x/oracle`: parameters, feeds, aggregated prices, TWAP
history, window counters and feeder delegations.  Each operation comes with
the one lemma which says what it does to every key of the store.
-/

namespace Vertix
namespace Oracle

inductive OracleValue where
  | feed (feed : OracleFeed)
  | aggregatedPrice (price : AggregatedPrice)
  | twapEntry (entry : TWAPEntry)
  | counter (count : Int64)
  | params (params : OracleParams)
  | address (address : Address)
  deriving DecidableEq

/-- The record kind, and the redundant fields of the record, which a key
family fixes. -/
def OracleKey.Admits : OracleKey → OracleValue → Prop
  | .feed _ pair, .feed f => f.pair = pair
  | .aggregatedPrice pair, .aggregatedPrice ap => ap.pair = pair
  | .twap pair nanos, .twapEntry e =>
      e.pair = pair ∧ unixNano e.blockTime = nanos
  | .missCounter _, .counter _ => True
  | .totalWindows _, .counter _ => True
  | .params, .params _ => True
  | .feederToValoper _, .address _ => True
  | .valoperToFeeder _, .address _ => True
  | _, _ => False

theorem OracleKey.admits_feed (val : Address) (f : OracleFeed) :
    (OracleKey.feed val f.pair).Admits (.feed f) := rfl

theorem OracleKey.admits_aggregatedPrice (ap : AggregatedPrice) :
    (OracleKey.aggregatedPrice ap.pair).Admits (.aggregatedPrice ap) := rfl

theorem OracleKey.admits_twapEntry (e : TWAPEntry) :
    (OracleKey.twap e.pair (unixNano e.blockTime)).Admits (.twapEntry e) :=
  ⟨rfl, rfl⟩

theorem OracleKey.admits_missCounter (val : Address) (count : Int64) :
    (OracleKey.missCounter val).Admits (.counter count) := trivial

theorem OracleKey.admits_totalWindows (val : Address) (count : Int64) :
    (OracleKey.totalWindows val).Admits (.counter count) := trivial

theorem OracleKey.admits_params (p : OracleParams) :
    OracleKey.params.Admits (.params p) := trivial

theorem OracleKey.admits_feederToValoper (feeder val : Address) :
    (OracleKey.feederToValoper feeder).Admits (.address val) := trivial

theorem OracleKey.admits_valoperToFeeder (val feeder : Address) :
    (OracleKey.valoperToFeeder val).Admits (.address feeder) := trivial

def oracleCodec : KeyCodec OracleKey :=
  ⟨OracleKey.encode, OracleKey.encode_injective⟩

abbrev OracleStore := TypedStore oracleCodec OracleKey.Admits

/-! ## Parameters -/

def getParams (store : OracleStore) : OracleParams :=
  match store.get .params with
  | some (.params params) => params
  | _ => defaultParams

def writeParams (store : OracleStore) (params : OracleParams) : OracleStore :=
  store.set .params (.params params) (OracleKey.admits_params params)

def setParams (sdk : Sdk) (store : OracleStore) (params : OracleParams) :
    Except SdkError OracleStore := do
  params.validate sdk
  return writeParams store params

@[simp] theorem getParams_writeParams
    (store : OracleStore) (params : OracleParams) :
    getParams (writeParams store params) = params := by
  simp [getParams, writeParams]

theorem get_writeParams_of_ne
    (store : OracleStore) (params : OracleParams) {key : OracleKey}
    (hkey : key ≠ .params) :
    (writeParams store params).get key = store.get key :=
  TypedStore.get_set_of_ne store _ (Ne.symm hkey)

theorem getParams_congr {store store' : OracleStore}
    (hget : store'.get .params = store.get .params) :
    getParams store' = getParams store := by
  unfold getParams
  rw [hget]

/-! ## Aggregated prices -/

def setAggregatedPrice (store : OracleStore) (ap : AggregatedPrice) :
    OracleStore :=
  store.set (.aggregatedPrice ap.pair) (.aggregatedPrice ap)
    (OracleKey.admits_aggregatedPrice ap)

/-- The record stored for a pair. -/
def storedPrice (store : OracleStore) (pair : String) :
    Option AggregatedPrice :=
  match store.get (.aggregatedPrice pair) with
  | some (.aggregatedPrice ap) => some ap
  | _ => none

/-- `Time.Sub`, which saturates at the ends of the duration range. -/
def timeSub (later earlier : Time) : ℤ :=
  max (-2 ^ 63) (min (2 ^ 63 - 1) (later - earlier))

/-- `time.Duration(seconds) * time.Second`, which wraps. -/
def secondsDuration (seconds : Int64) : Int64 := seconds * 1000000000

theorem secondsDuration_eq_bmod (seconds : Int64) :
    (secondsDuration seconds).toInt =
      (seconds.toInt * 1000000000).bmod (2 ^ 64) := by
  rw [secondsDuration, Int64.toInt_mul]
  rfl

def getAggregatedPrice (ctx : Ctx) (store : OracleStore) (pair : String) :
    Except SdkError AggregatedPrice := do
  let params := getParams store
  rejectIf (¬ params.pairAccepted pair) errPairNotAccepted
  match storedPrice store pair with
  | none => .error errNoPrice
  | some ap => do
      rejectIf
        ((secondsDuration params.maxPriceAge).toInt <
          timeSub ctx.blockTime ap.blockTime)
        errStalePrice
      return ap

def getPrice (sdk : Sdk) (ctx : Ctx) (store : OracleStore) (pair : String) :
    Except SdkError LegacyDec := do
  let ap ← getAggregatedPrice ctx store pair
  plainError (sdk.legacyNewDecFromStr ap.price)

/-- The comparison with the wrapped duration never admits a price which is
too old: a wrapped product is smaller, and the saturated difference is odd
while every product is even. -/
theorem age_le_of_not_stale {maxAge : Int64} (hpos : 0 < maxAge.toInt)
    {now published : ℤ} (horder : published ≤ now)
    (hfresh : timeSub now published ≤ (secondsDuration maxAge).toInt) :
    now - published ≤ maxAge.toInt * 10 ^ 9 := by
  rw [secondsDuration_eq_bmod, Int.bmod_def, timeSub] at hfresh
  split_ifs at hfresh with hsmall <;> omega

theorem getPrice_eq_ok_iff {sdk : Sdk} {ctx : Ctx} {store : OracleStore}
    {pair : String} {price : LegacyDec} :
    getPrice sdk ctx store pair = .ok price ↔
      pair ∈ (getParams store).acceptList ∧
        ∃ ap, storedPrice store pair = some ap ∧
          timeSub ctx.blockTime ap.blockTime ≤
            (secondsDuration (getParams store).maxPriceAge).toInt ∧
          sdk.legacyNewDecFromStr ap.price = .ok price := by
  unfold getPrice getAggregatedPrice
  cases storedPrice store pair with
  | none => simp
  | some ap => simp [OracleParams.pairAccepted, bind_eq_ok_iff]

theorem storedPrice_eq_some_iff
    {store : OracleStore} {pair : String} {ap : AggregatedPrice} :
    storedPrice store pair = some ap ↔
      store.get (.aggregatedPrice pair) = some (.aggregatedPrice ap) := by
  unfold storedPrice
  split
  next stored hget => simp [hget]
  next hother =>
    simp only [reduceCtorEq, false_iff]
    exact hother ap

theorem storedPrice_pair
    {store : OracleStore} {pair : String} {ap : AggregatedPrice}
    (hstored : storedPrice store pair = some ap) : ap.pair = pair := by
  have hadmits :=
    TypedStore.admits_of_get (storedPrice_eq_some_iff.mp hstored)
  exact hadmits

theorem storedPrice_congr {store store' : OracleStore} {pair : String}
    (hget :
      store'.get (.aggregatedPrice pair) = store.get (.aggregatedPrice pair)) :
    storedPrice store' pair = storedPrice store pair := by
  unfold storedPrice
  rw [hget]

theorem get_setAggregatedPrice
    (store : OracleStore) (ap : AggregatedPrice) (key : OracleKey) :
    (setAggregatedPrice store ap).get key =
      if .aggregatedPrice ap.pair = key then some (.aggregatedPrice ap)
      else store.get key :=
  TypedStore.get_set store _ key _ _

/-! ## Feeds -/

def writeFeed (store : OracleStore) (val : Address) (feed : OracleFeed) :
    OracleStore :=
  store.set (.feed val feed.pair) (.feed feed)
    (OracleKey.admits_feed val feed)

def setFeed (sdk : Sdk) (store : OracleStore) (feed : OracleFeed) :
    Except SdkError OracleStore := do
  let val ← plainError (sdk.valAddressFromBech32 feed.validator)
  return writeFeed store val feed

/-- The `(valoper, pair, price)` triples a scan of prefix `0x01` hands to its
callback. -/
def iterateAllFeeds (store : OracleStore) : List (Bytes × Bytes × String) :=
  (store.prefixScan feedKeyPrefix).filterMap fun entry =>
    match parseFeedKey entry.1, entry.2 with
    | .ok (val, pair), .feed feed => some (val, pair, feed.price)
    | _, _ => none

def deleteAllFeeds (store : OracleStore) : OracleStore :=
  store.deletePrefix feedKeyPrefix

/-- The pairs a validator submitted in the current window. -/
def getValidatorSubmittedPairs (store : OracleStore) (val : Address) :
    List Bytes :=
  (iterateAllFeeds store).filterMap fun entry =>
    if entry.1 = val.bytes then some entry.2.1 else none

theorem get_writeFeed
    (store : OracleStore) (val : Address) (feed : OracleFeed)
    (key : OracleKey) :
    (writeFeed store val feed).get key =
      if .feed val feed.pair = key then some (.feed feed)
      else store.get key :=
  TypedStore.get_set store _ key _ _

@[simp] theorem getParams_writeFeed
    (store : OracleStore) (val : Address) (feed : OracleFeed) :
    getParams (writeFeed store val feed) = getParams store :=
  getParams_congr (by simp [get_writeFeed])

theorem feedKeyPrefix_prefix_iff (key : OracleKey) :
    feedKeyPrefix <+: oracleCodec.encode key ↔
      ∃ val pair, key = .feed val pair := by
  cases key <;>
    simp [oracleCodec, OracleKey.encode, feedKeyPrefix, feedKey,
      aggregatedPriceKey, missCounterKey, totalWindowsKey, feederToValoperKey,
      valoperToFeederKey, keyPrefixFeed, keyPrefixAggregatedPrice,
      keyPrefixTWAP, keyPrefixMissCounter, keyPrefixTotalWindows, keyParams,
      keyPrefixFeederToValoper, keyPrefixValoperToFeeder,
      List.cons_prefix_cons]

theorem get_deleteAllFeeds_feed
    (store : OracleStore) (val : Address) (pair : String) :
    (deleteAllFeeds store).get (.feed val pair) = none := by
  rw [deleteAllFeeds, TypedStore.get_deletePrefix, if_pos]
  exact (feedKeyPrefix_prefix_iff _).mpr ⟨val, pair, rfl⟩

theorem get_deleteAllFeeds_of_ne
    (store : OracleStore) {key : OracleKey}
    (hkey : ∀ val pair, key ≠ .feed val pair) :
    (deleteAllFeeds store).get key = store.get key := by
  rw [deleteAllFeeds, TypedStore.get_deletePrefix, if_neg]
  intro hstarts
  rcases (feedKeyPrefix_prefix_iff key).mp hstarts with ⟨val, pair, heq⟩
  exact hkey val pair heq

/-- Every stored feed under its validator, in the order of a scan.  The scan
visits each validator and pair at most once. -/
theorem exists_storedFeeds (store : OracleStore) :
    ∃ feeds : List (Address × OracleFeed),
      iterateAllFeeds store =
          feeds.map (fun entry =>
            (entry.1.bytes, strBytes entry.2.pair, entry.2.price)) ∧
        (feeds.map fun entry => (entry.1, entry.2.pair)).Nodup ∧
        ∀ val feed, (val, feed) ∈ feeds ↔
          store.get (.feed val feed.pair) = some (.feed feed) := by
  obtain ⟨feeds, hscan, hnodup, hmem⟩ := TypedStore.exists_scanned feedKeyPrefix
    (fun entry : Address × OracleFeed => .feed entry.1 entry.2.pair)
    (fun entry => .feed entry.2)
    (by
      intro entry
      exact (feedKeyPrefix_prefix_iff _).mpr ⟨_, _, rfl⟩)
    (by
      intro key stored hstarts hadmits
      obtain ⟨val, pair, hkey⟩ := (feedKeyPrefix_prefix_iff key).mp hstarts
      subst hkey
      cases stored with
      | feed feed =>
          have hpair : feed.pair = pair := hadmits
          exact ⟨(val, feed), by rw [hpair], rfl⟩
      | _ => simp [OracleKey.Admits] at hadmits)
    (by
      intro left right hkey hvalue
      simp only [OracleKey.feed.injEq, OracleValue.feed.injEq] at hkey hvalue
      exact Prod.ext hkey.1 hvalue)
    store
  refine ⟨feeds, ?_, ?_, fun val feed => hmem (val, feed)⟩
  · unfold iterateAllFeeds
    rw [hscan, List.filterMap_map, ← List.filterMap_eq_map']
    congr 1
    funext entry
    simp [oracleCodec, OracleKey.encode, parseFeedKey_feedKey]
  · have hcompose :
        (fun entry : Address × OracleFeed =>
          OracleKey.feed entry.1 entry.2.pair) =
          (fun place : Address × String => OracleKey.feed place.1 place.2) ∘
            fun entry => (entry.1, entry.2.pair) := rfl
    rw [hcompose, ← List.map_map] at hnodup
    exact hnodup.of_map _

/-! ## TWAP history -/

def appendTWAPEntry (sdk : Sdk) (store : OracleStore) (pair : String)
    (price : LegacyDec) (blockTime : Time) : OracleStore :=
  let entry : TWAPEntry := ⟨pair, sdk.legacyDecString price, blockTime⟩
  store.set (.twap pair (unixNano blockTime)) (.twapEntry entry)
    (OracleKey.admits_twapEntry entry)

/-- The leading entries of a pair's history which are older than the cutoff;
the scan stops at the first entry which is not. -/
def expiredTWAPKeys (store : OracleStore) (pair : String) (cutoff : Time) :
    List Bytes :=
  ((store.prefixScan (twapPrefix pair)).takeWhile fun entry =>
    match entry.2 with
    | .twapEntry e => decide (e.blockTime < cutoff)
    | _ => false).map Prod.fst

def pruneTWAPOlderThan (store : OracleStore) (pair : String) (cutoff : Time) :
    OracleStore :=
  store.deleteAll (expiredTWAPKeys store pair cutoff)

theorem get_appendTWAPEntry_of_ne
    (sdk : Sdk) (store : OracleStore) (pair : String) (price : LegacyDec)
    (blockTime : Time) {key : OracleKey}
    (hkey : ∀ pair nanos, key ≠ .twap pair nanos) :
    (appendTWAPEntry sdk store pair price blockTime).get key =
      store.get key :=
  TypedStore.get_set_of_ne store
    (OracleKey.admits_twapEntry ⟨pair, sdk.legacyDecString price, blockTime⟩)
    (Ne.symm (hkey _ _))

theorem twapPrefix_prefix_imp {pair : String} {key : OracleKey}
    (hstarts : twapPrefix pair <+: oracleCodec.encode key) :
    ∃ pair' nanos, key = .twap pair' nanos := by
  cases key <;>
    simp [oracleCodec, OracleKey.encode, twapPrefix, feedKey,
      aggregatedPriceKey, missCounterKey, totalWindowsKey, feederToValoperKey,
      valoperToFeederKey, keyPrefixFeed, keyPrefixAggregatedPrice,
      keyPrefixTWAP, keyPrefixMissCounter, keyPrefixTotalWindows, keyParams,
      keyPrefixFeederToValoper, keyPrefixValoperToFeeder,
      List.cons_prefix_cons] at hstarts ⊢

theorem get_pruneTWAPOlderThan_of_ne
    (store : OracleStore) (pair : String) (cutoff : Time) {key : OracleKey}
    (hkey : ∀ pair nanos, key ≠ .twap pair nanos) :
    (pruneTWAPOlderThan store pair cutoff).get key = store.get key := by
  rw [pruneTWAPOlderThan, TypedStore.get_deleteAll, if_neg]
  intro hmem
  rcases List.mem_map.mp hmem with ⟨entry, hentry, hraw⟩
  have hscan : entry ∈ store.prefixScan (twapPrefix pair) :=
    List.takeWhile_subset _ hentry
  rcases TypedStore.mem_prefixScan_iff.mp
    (show (entry.1, entry.2) ∈ _ from hscan) with ⟨-, -, -, hstarts⟩
  rw [hraw] at hstarts
  rcases twapPrefix_prefix_imp hstarts with ⟨pair', nanos, heq⟩
  exact hkey pair' nanos heq

/-! ## Window counters -/

def readCounter (store : OracleStore) (key : OracleKey) : Int64 :=
  match store.get key with
  | some (.counter count) => count
  | _ => 0

def getMissCounter (store : OracleStore) (val : Address) : Int64 :=
  readCounter store (.missCounter val)

def getTotalWindows (store : OracleStore) (val : Address) : Int64 :=
  readCounter store (.totalWindows val)

def incMissCounter (store : OracleStore) (val : Address) :
    OracleStore × Int64 :=
  let count := getMissCounter store val + 1
  (store.set (.missCounter val) (.counter count)
    (OracleKey.admits_missCounter val count), count)

def incTotalWindows (store : OracleStore) (val : Address) :
    OracleStore × Int64 :=
  let count := getTotalWindows store val + 1
  (store.set (.totalWindows val) (.counter count)
    (OracleKey.admits_totalWindows val count), count)

def resetMissCounters (store : OracleStore) : OracleStore :=
  (store.deletePrefix keyPrefixMissCounter).deletePrefix keyPrefixTotalWindows

def resetValidatorWindows (store : OracleStore) (val : Address) :
    OracleStore :=
  (store.delete (.missCounter val)).delete (.totalWindows val)

/-- The keys of the two counter families. -/
def OracleKey.IsCounter : OracleKey → Prop
  | .missCounter _ => True
  | .totalWindows _ => True
  | _ => False

theorem get_incMissCounter_of_ne
    (store : OracleStore) (val : Address) {key : OracleKey}
    (hkey : ¬ key.IsCounter) :
    (incMissCounter store val).1.get key = store.get key := by
  apply TypedStore.get_set_of_ne store (OracleKey.admits_missCounter val _)
  intro heq
  subst heq
  exact hkey trivial

theorem get_incTotalWindows_of_ne
    (store : OracleStore) (val : Address) {key : OracleKey}
    (hkey : ¬ key.IsCounter) :
    (incTotalWindows store val).1.get key = store.get key := by
  apply TypedStore.get_set_of_ne store (OracleKey.admits_totalWindows val _)
  intro heq
  subst heq
  exact hkey trivial

theorem get_resetValidatorWindows_of_ne
    (store : OracleStore) (val : Address) {key : OracleKey}
    (hkey : ¬ key.IsCounter) :
    (resetValidatorWindows store val).get key = store.get key := by
  rw [resetValidatorWindows, TypedStore.get_delete, TypedStore.get_delete,
    if_neg, if_neg]
  all_goals
    intro heq
    subst heq
    exact hkey trivial

theorem get_resetMissCounters_of_ne
    (store : OracleStore) {key : OracleKey} (hkey : ¬ key.IsCounter) :
    (resetMissCounters store).get key = store.get key := by
  rw [resetMissCounters, TypedStore.get_deletePrefix,
    TypedStore.get_deletePrefix, if_neg, if_neg]
  all_goals
    cases key <;>
      simp [OracleKey.IsCounter, oracleCodec, OracleKey.encode, feedKey,
        aggregatedPriceKey, feederToValoperKey, valoperToFeederKey,
        keyPrefixFeed, keyPrefixAggregatedPrice, keyPrefixTWAP,
        keyPrefixMissCounter, keyPrefixTotalWindows, keyParams,
        keyPrefixFeederToValoper, keyPrefixValoperToFeeder,
        List.cons_prefix_cons] at hkey ⊢

/-! ## Feeder delegations -/

def readAddress (store : OracleStore) (key : OracleKey) : Option Address :=
  match store.get key with
  | some (.address address) => some address
  | _ => none

def getFeederForValidator (store : OracleStore) (val : Address) :
    Option Address :=
  readAddress store (.valoperToFeeder val)

def getValidatorForFeeder (store : OracleStore) (feeder : Address) :
    Option Address :=
  readAddress store (.feederToValoper feeder)

def writeFeederDelegation (store : OracleStore) (val feeder : Address) :
    OracleStore :=
  (store.set (.feederToValoper feeder) (.address val)
    (OracleKey.admits_feederToValoper feeder val)).set
    (.valoperToFeeder val) (.address feeder)
    (OracleKey.admits_valoperToFeeder val feeder)

def setFeederDelegation (store : OracleStore) (val feeder : Address) :
    Except SdkError OracleStore :=
  match getValidatorForFeeder store feeder with
  | some existing =>
      if existing ≠ val then .error errFeederAlreadyBound
      else .ok (writeFeederDelegation store val feeder)
  | none => .ok (writeFeederDelegation store val feeder)

/-- Without a delegation the operator account itself may submit. -/
def resolveAuthorizedFeeder (store : OracleStore) (val : Address) : Address :=
  match getFeederForValidator store val with
  | some feeder => feeder
  | none => val

theorem readAddress_eq_some_iff
    {store : OracleStore} {key : OracleKey} {address : Address} :
    readAddress store key = some address ↔
      store.get key = some (.address address) := by
  unfold readAddress
  split
  next stored hget => simp [hget]
  next hother =>
    simp only [reduceCtorEq, false_iff]
    exact hother address

theorem get_writeFeederDelegation
    (store : OracleStore) (val feeder : Address) (key : OracleKey) :
    (writeFeederDelegation store val feeder).get key =
      if .valoperToFeeder val = key then some (.address feeder)
      else if .feederToValoper feeder = key then some (.address val)
      else store.get key := by
  unfold writeFeederDelegation
  rw [TypedStore.get_set, TypedStore.get_set]

@[simp] theorem getParams_writeFeederDelegation
    (store : OracleStore) (val feeder : Address) :
    getParams (writeFeederDelegation store val feeder) = getParams store :=
  getParams_congr (by simp [get_writeFeederDelegation])

theorem setFeederDelegation_eq_ok_iff
    {store store' : OracleStore} {val feeder : Address} :
    setFeederDelegation store val feeder = .ok store' ↔
      (∀ existing, getValidatorForFeeder store feeder = some existing →
        existing = val) ∧
        writeFeederDelegation store val feeder = store' := by
  unfold setFeederDelegation
  cases hexisting : getValidatorForFeeder store feeder with
  | none => simp
  | some existing =>
      by_cases hsame : existing = val
      · simp [hsame]
      · simp [hsame]

end Oracle
end Vertix

import Vertix.FeederPriceLoop
import Vertix.OracleOrder
import Vertix.OraclePriceInvariant
import Mathlib.Tactic

/-!
# A batch on the chain

The chain executes the messages of a transaction in their order and keeps all
of their writes or none.  Which messages pass depends on nothing that the
messages write, so a batch lands exactly if its validator and feeder are in
order and every one of its pairs is accepted.  It writes one feed for each of
its pairs and nothing else.  If the same batch lands again in its window, no
later step can tell the difference but by the heights of these feeds, which no
step reads.
-/

namespace Vertix.Feeder

open Oracle Transition

/-- The transaction with the messages of a batch. -/
def deliverBatch (k : Keeper) (ctx : Ctx) (staking : StakingView k.sdk)
    (store : OracleStore) (msgs : List MsgSubmitFeed) :
    Except SdkError OracleStore :=
  msgs.foldlM (submitFeed k ctx staking) store

def message (sdk : Sdk) (feeder validator : String) (feed : FeedSubmission) :
    MsgSubmitFeed :=
  ⟨feeder, validator, feed.pair, sdk.legacyDecString feed.price⟩

/-- The price which the batch leaves for a pair: the last one in it. -/
def lastPrice (feeds : List FeedSubmission) (pair : String) :
    Option LegacyDec :=
  (feeds.reverse.find? fun feed => feed.pair = pair).map FeedSubmission.price

theorem lastPrice_concat (feeds : List FeedSubmission) (feed : FeedSubmission)
    (pair : String) :
    lastPrice (feeds ++ [feed]) pair =
      if feed.pair = pair then some feed.price else lastPrice feeds pair := by
  unfold lastPrice
  rw [List.reverse_append, List.reverse_singleton, List.singleton_append,
    List.find?_cons]
  by_cases hpair : feed.pair = pair
  · simp [hpair]
  · simp [hpair]

theorem lastPrice_eq_none_iff {feeds : List FeedSubmission} {pair : String} :
    lastPrice feeds pair = none ↔ ∀ feed ∈ feeds, feed.pair ≠ pair := by
  simp [lastPrice]

/-- The validator may submit, and through this feeder. -/
structure MayFeed (k : Keeper) (staking : StakingView k.sdk)
    (store : OracleStore) (feeder validator : String) (val : Address) :
    Prop where
  validator : k.sdk.valAddressFromBech32 validator = .ok val
  feeder : k.sdk.accAddressFromBech32 feeder =
    .ok (resolveAuthorizedFeeder store val)
  bonded : ∃ v, staking.getValidator val.bytes = .ok v ∧ v.status = .bonded
  powered : ∃ power, staking.lastValidatorPower val.bytes = .ok power ∧
    power ≠ 0

/-- The store after the batch: under each of its pairs the feed with the last
price, and everything else as before. -/
structure Landed (sdk : Sdk) (ctx : Ctx) (store : OracleStore)
    (validator : String) (val : Address) (feeds : List FeedSubmission)
    (store' : OracleStore) : Prop where
  written : ∀ pair price, lastPrice feeds pair = some price →
    store'.get (.feed val pair) = some (.feed
      ⟨validator, pair, sdk.legacyDecString price, ctx.blockHeight⟩)
  other : ∀ key : OracleKey, (∀ feed ∈ feeds, key ≠ .feed val feed.pair) →
    store'.get key = store.get key

section Batch

variable {k : Keeper} {ctx : Ctx} {staking : StakingView k.sdk}
  {store store' : OracleStore} {feeder validator : String} {val : Address}
  {feeds : List FeedSubmission} {msgs : List MsgSubmitFeed}

theorem buildMsgs_eq_ok_iff :
    buildMsgs k.sdk feeder validator feeds = .ok msgs ↔
      (∀ feed ∈ feeds, (message k.sdk feeder validator feed).validateBasic
        k.sdk = .ok ()) ∧
      msgs = feeds.map (message k.sdk feeder validator) := by
  have hone : ∀ feed msg, buildMsg k.sdk feeder validator feed = .ok msg ↔
      (message k.sdk feeder validator feed).validateBasic k.sdk = .ok () ∧
        message k.sdk feeder validator feed = msg := by
    intro feed msg
    simp only [buildMsg, bind_eq_ok_iff, mapError_eq_ok_iff, pure_eq_ok_iff,
      message]
    constructor
    · rintro ⟨⟨⟩, hvalid, rfl⟩
      exact ⟨hvalid, rfl⟩
    · rintro ⟨hvalid, rfl⟩
      exact ⟨(), hvalid, rfl⟩
  rw [buildMsgs, mapM_eq_ok_iff]
  simp only [hone]
  rw [List.forall₂_and_left, ← List.forall₂_map_left_iff,
    List.forall₂_eq_eq_eq, eq_comm (a := msgs)]

theorem passes_message_iff (ctx : Ctx) {feed : FeedSubmission}
    (hvalid : (message k.sdk feeder validator feed).validateBasic k.sdk =
      .ok ()) :
    Passes k staking store (message k.sdk feeder validator feed) ↔
      (∃ val, MayFeed k staking store feeder validator val) ∧
        (getParams store).pairAccepted feed.pair = true := by
  obtain ⟨-, -, hpair, hprice⟩ :=
    MsgSubmitFeed.validateBasic_eq_ok_iff.mp hvalid
  constructor
  · rintro ⟨ctx, store', hsubmit⟩
    obtain ⟨val, hval, hfeeder, -, -, haccepted, hbonded, hpower, -⟩ :=
      submitFeed_eq_ok_iff.mp hsubmit
    exact ⟨⟨val, hval, hfeeder, hbonded, hpower⟩, haccepted⟩
  · rintro ⟨⟨val, hval, hfeeder, hbonded, hpower⟩, haccepted⟩
    exact ⟨ctx, _, submitFeed_eq_ok_iff.mpr ⟨val, hval, hfeeder, hpair,
      hprice, haccepted, hbonded, hpower, rfl⟩⟩

theorem get_submitFeed_of_ne {msg : MsgSubmitFeed} {key : OracleKey}
    (hsubmit : submitFeed k ctx staking store msg = .ok store')
    (hkey : ∀ val pair, key ≠ .feed val pair) :
    store'.get key = store.get key := by
  obtain ⟨author, -, -, -, -, -, -, -, rfl⟩ := submitFeed_eq_ok_iff.mp hsubmit
  exact (get_writeFeed _ _ _ _).trans (if_neg (hkey _ _).symm)

theorem deliverBatch_completes_iff
    (hvalid : ∀ feed ∈ feeds, (message k.sdk feeder validator
      feed).validateBasic k.sdk = .ok ()) :
    (∃ store', deliverBatch k ctx staking store
        (feeds.map (message k.sdk feeder validator)) = .ok store') ↔
      ∀ feed ∈ feeds, (∃ val, MayFeed k staking store feeder validator val) ∧
        (getParams store).pairAccepted feed.pair = true := by
  have hcompletes : ∀ msg ∈ feeds.map (message k.sdk feeder validator),
      ∀ current : OracleStore, (∀ key : OracleKey,
        (∀ val pair, key ≠ .feed val pair) →
          current.get key = store.get key) →
      ((∃ next, submitFeed k ctx staking current msg = .ok next) ↔
        Passes k staking store msg) :=
    fun msg _ current hsame => passes_iff_of_same hsame ctx
  refine (foldlM_completes_iff ?_ hcompletes fun _ _ => rfl).trans ?_
  · intro current msg next hsame hsubmit key hkey
    rw [get_submitFeed_of_ne hsubmit hkey, hsame key hkey]
  · rw [List.forall_mem_map]
    exact forall₂_congr fun feed hfeed =>
      passes_message_iff ctx (hvalid feed hfeed)

theorem landed_of_deliverBatch
    (hval : k.sdk.valAddressFromBech32 validator = .ok val)
    (hdeliver : deliverBatch k ctx staking store
      (feeds.map (message k.sdk feeder validator)) = .ok store') :
    Landed k.sdk ctx store validator val feeds store' := by
  unfold deliverBatch at hdeliver
  rw [List.foldlM_map] at hdeliver
  refine foldlM_induct (P := fun done current =>
    Landed k.sdk ctx store validator val done current) ?_ ?_ hdeliver
  · intro done current feed next hlanded hsubmit
    obtain ⟨author, hauthor, -, -, -, -, -, -, rfl⟩ :=
      submitFeed_eq_ok_iff.mp hsubmit
    obtain rfl : val = author := Except.ok.inj (hval.symm.trans hauthor)
    refine ⟨fun pair price hprice => ?_, fun key hkey => ?_⟩
    · rw [lastPrice_concat] at hprice
      rw [get_writeFeed]
      by_cases hpair : feed.pair = pair
      · subst hpair
        rw [if_pos rfl, Option.some.injEq] at hprice
        simp [message, hprice]
      · rw [if_neg hpair] at hprice
        rw [if_neg (by simpa [message] using hpair)]
        exact hlanded.written pair price hprice
    · rw [List.forall_mem_append, List.forall_mem_singleton] at hkey
      exact (get_writeFeed _ _ _ _).trans
        ((if_neg hkey.2.symm).trans (hlanded.other key hkey.1))
  · exact ⟨fun pair price hprice => by simp [lastPrice] at hprice,
      fun _ _ => rfl⟩

theorem Landed.storedFeedPrice_eq
    (hlanded : Landed k.sdk ctx store validator val feeds store')
    {pair : String} {price : LegacyDec}
    (hprice : lastPrice feeds pair = some price) :
    storedFeedPrice store' val pair = some (k.sdk.legacyDecString price) :=
  storedFeedPrice_eq_some_iff.mpr
    ⟨_, hlanded.written pair price hprice, rfl⟩

/-- Where the prices of the batch are stored already, it changes none. -/
theorem samePrices_of_landed
    (hbefore : ∀ pair price, lastPrice feeds pair = some price →
      storedFeedPrice store val pair = some (k.sdk.legacyDecString price))
    (hlanded : Landed k.sdk ctx store validator val feeds store') :
    SamePrices store' store := by
  refine ⟨fun author pair => ?_, fun key hkey =>
    hlanded.other key fun feed _ => hkey val feed.pair⟩
  by_cases hwritten :
      ∃ feed ∈ feeds, OracleKey.feed author pair = .feed val feed.pair
  · obtain ⟨feed, hfeed, hplace⟩ := hwritten
    cases hplace
    have hsome : lastPrice feeds feed.pair ≠ none :=
      fun hnone => lastPrice_eq_none_iff.mp hnone feed hfeed rfl
    obtain ⟨price, hprice⟩ := Option.ne_none_iff_exists'.mp hsome
    rw [hlanded.storedFeedPrice_eq hprice, hbefore _ price hprice]
  · push Not at hwritten
    exact storedFeedPrice_congr (hlanded.other _ hwritten)

/-- A batch of the feeder lands as a whole: exactly if its validator and
feeder are in order and every one of its pairs is accepted.  Then the chain
holds a feed with the last price of the batch for each of its pairs, and every
other key of the store is as it was. -/
theorem batch_lands_whole (ctx : Ctx) (staking : StakingView k.sdk)
    (store : OracleStore) (hne : feeds ≠ [])
    (hbuild : buildMsgs k.sdk feeder validator feeds = .ok msgs) :
    ((∃ store', deliverBatch k ctx staking store msgs = .ok store') ↔
      (∃ val, MayFeed k staking store feeder validator val) ∧
        ∀ feed ∈ feeds, (getParams store).pairAccepted feed.pair = true) ∧
    ∀ store', deliverBatch k ctx staking store msgs = .ok store' →
      ∃ val, k.sdk.valAddressFromBech32 validator = .ok val ∧
        Landed k.sdk ctx store validator val feeds store' := by
  obtain ⟨hvalid, rfl⟩ := buildMsgs_eq_ok_iff.mp hbuild
  obtain ⟨first, hfirst⟩ := List.exists_mem_of_ne_nil feeds hne
  rw [deliverBatch_completes_iff hvalid]
  refine ⟨⟨fun hall => ⟨(hall first hfirst).1, fun feed hfeed =>
    (hall feed hfeed).2⟩, fun hall feed hfeed => ⟨hall.1, hall.2 feed hfeed⟩⟩,
    fun store' hdeliver => ?_⟩
  obtain ⟨⟨val, hmay⟩, -⟩ :=
    (deliverBatch_completes_iff hvalid).mp ⟨store', hdeliver⟩ first hfirst
  exact ⟨val, hmay.validator, landed_of_deliverBatch hmay.validator hdeliver⟩

/-- One pair is quoted twice. -/
def repeatedFeeds : List FeedSubmission :=
  [⟨"VTX:USD", legacyOneDec⟩, ⟨"BTC:USD", legacyOneDec⟩,
    ⟨"VTX:USD", fallbackDeviation⟩]

def repeatedBatch : List MsgSubmitFeed :=
  repeatedFeeds.map (message referenceKeeper.sdk (firstFeed "").feeder
    (firstFeed "").validator)

theorem buildMsgs_repeatedFeeds :
    buildMsgs referenceKeeper.sdk (firstFeed "").feeder
      (firstFeed "").validator repeatedFeeds = .ok repeatedBatch := by
  rw [buildMsgs_eq_ok_iff]
  refine ⟨?_, rfl⟩
  simp only [repeatedFeeds, List.forall_mem_cons, List.not_mem_nil,
    IsEmpty.forall_iff, implies_true, and_true]
  decide +kernel

theorem repeated_pair_lands :
    ∃ store store', initGenesis referenceKeeper boundaryCtx twoValidators
        TypedStore.empty pricedGenesis = .ok store ∧
      deliverBatch referenceKeeper boundaryCtx twoValidators store
        repeatedBatch = .ok store' ∧
      ∃ val, Landed referenceSdk boundaryCtx store (firstFeed "").validator
          val repeatedFeeds store' ∧
        lastPrice repeatedFeeds "VTX:USD" = some fallbackDeviation ∧
        lastPrice repeatedFeeds "BTC:USD" = some legacyOneDec := by
  have hcheck : (initGenesis referenceKeeper boundaryCtx twoValidators
      TypedStore.empty pricedGenesis).toOption.any (fun store =>
        (deliverBatch referenceKeeper boundaryCtx twoValidators store
          repeatedBatch).toOption.any fun _ => true) = true := by
    decide +kernel
  obtain ⟨store, hinit, hok⟩ := exists_ok_of_any hcheck
  obtain ⟨store', hdeliver, -⟩ := exists_ok_of_any hok
  obtain ⟨val, -, hlanded⟩ := (batch_lands_whole (k := referenceKeeper)
    boundaryCtx twoValidators store (by simp [repeatedFeeds])
    buildMsgs_repeatedFeeds).2 store' hdeliver
  exact ⟨store, store', hinit, hdeliver, val, hlanded, rfl, rfl⟩

/-- The step is in the middle of a window and submits nothing for the
validator. -/
def Spares (val : Address) : OracleStore × OracleStep k → Prop
  | (_, .setFeeder _ _) => True
  | (_, .submitFeed _ _ msg) =>
      k.sdk.valAddressFromBech32 msg.validator ≠ .ok val
  | (_, .updateParams _) => True
  | (store, .endBlock ctx _) =>
      ctx.blockHeight % (getParams store).voteWindow ≠ 0

theorem storedFeedPrice_step_of_spares {step : OracleStep k}
    (hspares : Spares val (store, step))
    (hstep : oracleStep k store step = some store') (pair : String) :
    storedFeedPrice store' val pair = storedFeedPrice store val pair := by
  cases effect_of_step hstep with
  | unchanged => rfl
  | delegated hfree =>
      apply storedFeedPrice_congr
      rw [get_writeFeederDelegation]
      simp
  | @fed _ _ _ author hauthor hprice =>
      have hother : author ≠ val := by
        rintro rfl
        exact hspares hauthor
      rw [storedFeedPrice_writeFeed, if_neg fun hplace => hother hplace.1]
  | reparametrized changed hresult hvalid =>
      exact storedFeedPrice_congr (get_updatedParams_of_ne store changed _
        (by simp) (by simp [OracleKey.IsCounter]))
  | closed hboundary hopen hclosed => exact absurd hboundary hspares

theorem storedFeedPrice_run_of_spares
    {between : List (OracleStore × OracleStep k)}
    (hrun : Run (oracleStep k) store between store')
    (hspares : ∀ entry ∈ between, Spares val entry) (pair : String) :
    storedFeedPrice store' val pair = storedFeedPrice store val pair := by
  induction hrun with
  | start => rfl
  | next _ hstep ih =>
      rw [List.forall_mem_cons] at hspares
      rw [storedFeedPrice_step_of_spares hspares.1 hstep pair,
        ih hspares.2]

/-- A batch lands, and lands again in the same window after any steps of the
oracle which submit nothing for its validator.  Whatever steps follow the
second landing, they fail or complete as they do without it, and the next
boundary call has the same outcome. -/
theorem repeated_batch_keeps_outcome
    {first middle second : OracleStore}
    {between : List (OracleStore × OracleStep k)}
    {ctx' boundary : Ctx} {staking' boundaryStaking : StakingView k.sdk}
    (hbuild : buildMsgs k.sdk feeder validator feeds = .ok msgs)
    (hval : k.sdk.valAddressFromBech32 validator = .ok val)
    (hfirst : deliverBatch k ctx staking store msgs = .ok first)
    (hrun : Run (oracleStep k) first between middle)
    (hspares : ∀ entry ∈ between, Spares val entry)
    (hsecond : deliverBatch k ctx' staking' middle msgs = .ok second)
    (after : List (OracleStep k))
    (hboundary : ∀ last, after.foldlM (oracleStep k) second = some last →
      boundary.blockHeight % (getParams last).voteWindow = 0) :
    (after.foldlM (oracleStep k) second).map
        (endBlocker k boundary boundaryStaking) =
      (after.foldlM (oracleStep k) middle).map
        (endBlocker k boundary boundaryStaking) := by
  obtain ⟨-, rfl⟩ := buildMsgs_eq_ok_iff.mp hbuild
  have hlanded := landed_of_deliverBatch hval hfirst
  have hagain := landed_of_deliverBatch hval hsecond
  have hsame : SamePrices second middle := by
    refine samePrices_of_landed (fun pair price hprice => ?_) hagain
    rw [storedFeedPrice_run_of_spares hrun hspares,
      hlanded.storedFeedPrice_eq hprice]
  have hafter := hsame.run after
  generalize after.foldlM (oracleStep k) second = left at hafter hboundary ⊢
  generalize after.foldlM (oracleStep k) middle = right at hafter ⊢
  cases hafter with
  | none => rfl
  | some hrelated =>
      exact congrArg some
        (endBlocker_eq_of_same hrelated.sameWindow (hboundary _ rfl))

/-- The second validator submits and appoints a feeder between the two
landings. -/
def betweenLandings : List (OracleStep referenceKeeper) :=
  [.submitFeed boundaryCtx twoValidators (secondFeed "1.2"),
    .setFeeder twoValidators
      ⟨(secondFeed "").validator, (firstFeed "").feeder⟩]

/-- That feeder submits before the window ends. -/
def afterLandings : List (OracleStep referenceKeeper) :=
  [.submitFeed boundaryCtx twoValidators
    { secondFeed "1.3" with feeder := (firstFeed "").feeder }]

theorem resubmitted_batch_keeps_outcome :
    ∃ store first between middle second,
      initGenesis referenceKeeper boundaryCtx twoValidators
        TypedStore.empty pricedGenesis = .ok store ∧
      deliverBatch referenceKeeper boundaryCtx twoValidators store
        repeatedBatch = .ok first ∧
      Run (oracleStep referenceKeeper) first between middle ∧
      between.map Prod.snd = betweenLandings.reverse ∧
      deliverBatch referenceKeeper boundaryCtx twoValidators middle
        repeatedBatch = .ok second ∧
      (afterLandings.foldlM (oracleStep referenceKeeper) second).map
          (endBlocker referenceKeeper boundaryCtx twoValidators) =
        (afterLandings.foldlM (oracleStep referenceKeeper) middle).map
          (endBlocker referenceKeeper boundaryCtx twoValidators) := by
  have hval : referenceKeeper.sdk.valAddressFromBech32
      (firstFeed "").validator = .ok (addressOf 1) := by
    decide +kernel
  have hcheck : (initGenesis referenceKeeper boundaryCtx twoValidators
      TypedStore.empty pricedGenesis).toOption.any (fun store =>
        (deliverBatch referenceKeeper boundaryCtx twoValidators store
          repeatedBatch).toOption.any fun first =>
            (replay (oracleStep referenceKeeper) [] first
              betweenLandings).any fun r =>
                (deliverBatch referenceKeeper boundaryCtx twoValidators r.2
                  repeatedBatch).toOption.any fun second =>
                    (afterLandings.foldlM (oracleStep referenceKeeper)
                      second).all fun last =>
                        decide (boundaryCtx.blockHeight %
                          (getParams last).voteWindow = 0)) = true := by
    decide +kernel
  obtain ⟨store, hinit, hok⟩ := exists_ok_of_any hcheck
  obtain ⟨first, hfirst, hok⟩ := exists_ok_of_any hok
  obtain ⟨⟨between, middle⟩, hreplay, hok⟩ := exists_some_of_any hok
  obtain ⟨second, hsecond, hboundary⟩ := exists_ok_of_any hok
  simp only [Option.all_eq_true, decide_eq_true_eq] at hboundary
  have hlabels : between.map Prod.snd = betweenLandings.reverse :=
    labels_of_replay hreplay
  have hspares : ∀ entry ∈ between, Spares (addressOf 1) entry := by
    rintro ⟨before, step⟩ hmem
    have hlabel := label_mem_of_replay hreplay hmem
    simp only [betweenLandings, List.mem_cons, List.not_mem_nil,
      or_false] at hlabel
    rcases hlabel with rfl | rfl
    · change referenceKeeper.sdk.valAddressFromBech32
        (secondFeed "1.2").validator ≠ .ok (addressOf 1)
      decide +kernel
    · trivial
  have hrun := run_of_replay Run.start hreplay
  exact ⟨store, first, between, middle, second, hinit, hfirst, hrun, hlabels,
    hsecond, repeated_batch_keeps_outcome buildMsgs_repeatedFeeds hval hfirst
      hrun hspares hsecond afterLandings hboundary⟩

end Batch

end Vertix.Feeder

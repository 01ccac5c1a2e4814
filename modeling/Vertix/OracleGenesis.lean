import Vertix.OracleMsgServer
import Vertix.TwoWayTable
import Mathlib.Tactic

/-!
# Oracle genesis import and export

`InitGenesis` panics on every error; its result here is the imported store or
the error it panics with.  `ExportGenesis` scans the price and the delegation
prefixes.  The two are characterized by what they read and write, so that a
round trip reduces to membership.
-/

namespace Vertix
namespace Oracle

open TwoWay

def validateGenesisTimes (ctx : Ctx) :
    ℕ → List AggregatedPrice → Except SdkError Unit
  | _, [] => .ok ()
  | i, p :: rest => do
      (validatePriceBlockTime p.blockTime ctx.blockTime).mapError
        fun error => error.wrap ("genesis price[" ++ toString i ++ "]")
      validateGenesisTimes ctx (i + 1) rest

def importFeeder (k : Keeper) (staking : StakingView k.sdk)
    (store : OracleStore) (fd : FeederDelegation) :
    Except SdkError OracleStore := do
  let val ← plainError (k.sdk.valAddressFromBech32 fd.validator)
  let feeder ← plainError (k.sdk.accAddressFromBech32 fd.feeder)
  let _ ← (staking.getValidator val.bytes).mapError fun error =>
    error.wrap ("genesis feeder for " ++ fd.validator ++
      ": validator not found")
  setFeederDelegation store val feeder

def initGenesis (k : Keeper) (ctx : Ctx) (staking : StakingView k.sdk)
    (store : OracleStore) (gs : GenesisState) :
    Except SdkError OracleStore := do
  (gs.validate k.sdk).mapError fun error => error.wrap "invalid genesis state"
  validateGenesisTimes ctx 0 gs.prices
  let store ← setParams k.sdk store gs.params
  gs.feeders.foldlM (importFeeder k staking)
    (gs.prices.foldl setAggregatedPrice store)

def exportedPrices (store : OracleStore) : List AggregatedPrice :=
  (store.prefixScan keyPrefixAggregatedPrice).filterMap fun entry =>
    match entry.2 with
    | .aggregatedPrice ap => some ap
    | _ => none

def exportedFeeders (sdk : Sdk) (store : OracleStore) :
    List FeederDelegation :=
  (store.prefixScan keyPrefixValoperToFeeder).filterMap fun entry =>
    if entry.1.length ≤ keyPrefixValoperToFeeder.length then none
    else
      match entry.2 with
      | .address feeder =>
          some ⟨sdk.valAddressString
              (entry.1.drop keyPrefixValoperToFeeder.length),
            sdk.accAddressString feeder.bytes⟩
      | _ => none

def exportGenesis (k : Keeper) (store : OracleStore) : GenesisState where
  params := getParams store
  prices := (exportedPrices store).insertionSort fun a b => a.pair ≤ b.pair
  feeders := (exportedFeeders k.sdk store).insertionSort
    fun a b => a.validator ≤ b.validator

/-! ## Genesis validation -/

/-- What `GenesisState.Validate` demands of one price. -/
structure ImportablePrice (sdk : Sdk) (params : OracleParams)
    (p : AggregatedPrice) : Prop where
  accepted : p.pair ∈ params.acceptList
  positive : ParsesWithin sdk p.price fun raw => 0 < raw
  timed : p.blockTime ≠ zeroTime

theorem OracleParams.pairAccepted_iff
    {params : OracleParams} {pair : String} :
    params.pairAccepted pair = true ↔ pair ∈ params.acceptList := by
  simp [OracleParams.pairAccepted]

theorem validateGenesisPrices_eq_ok_iff
    {sdk : Sdk} {params : OracleParams} {i : ℕ} {seen : List String}
    {prices : List AggregatedPrice} {u : Unit} :
    validateGenesisPrices sdk params i seen prices = .ok u ↔
      (∀ p ∈ prices, ImportablePrice sdk params p) ∧
        (∀ p ∈ prices, p.pair ∉ seen) ∧
        (prices.map AggregatedPrice.pair).Nodup := by
  induction prices generalizing i seen with
  | nil => simp [validateGenesisPrices]
  | cons p rest ih =>
      cases hprice : sdk.legacyNewDecFromStr p.price with
      | error reason =>
          simp only [validateGenesisPrices, hprice, bind_eq_ok_iff,
            reduceCtorEq, and_false, exists_const, false_iff]
          intro h
          obtain ⟨value, hvalue, -⟩ := (h.1 p (by simp)).positive
          rw [hprice] at hvalue
          cases hvalue
      | ok price =>
          rw [← unseen_cons_iff]
          simp only [validateGenesisPrices, hprice, bind_eq_ok_iff,
            rejectIf_eq_ok_iff, exists_const, not_not, ih,
            OracleParams.pairAccepted_iff, not_le, List.forall_mem_cons]
          constructor
          · rintro ⟨haccepted, hfresh, hpos, htime, hrest, hunseen⟩
            exact ⟨⟨⟨haccepted, ⟨price, hprice, hpos⟩, htime⟩, hrest⟩,
              hfresh, hunseen⟩
          · rintro ⟨⟨hp, hrest⟩, hfresh, hunseen⟩
            rcases hp.positive with ⟨value, hvalue, hpos⟩
            rw [hprice] at hvalue
            cases hvalue
            exact ⟨hp.accepted, hfresh, hpos, hp.timed, hrest, hunseen⟩

theorem validateGenesisFeeders_eq_ok_iff
    {sdk : Sdk} {i : ℕ} {seen : List String}
    {feeders : List FeederDelegation} {u : Unit} :
    validateGenesisFeeders sdk i seen feeders = .ok u ↔
      (∀ fd ∈ feeders,
        (∃ val, sdk.valAddressFromBech32 fd.validator = .ok val) ∧
          ∃ feeder, sdk.accAddressFromBech32 fd.feeder = .ok feeder) ∧
        (∀ fd ∈ feeders, fd.feeder ∉ seen) ∧
        (feeders.map FeederDelegation.feeder).Nodup := by
  induction feeders generalizing i seen with
  | nil => simp [validateGenesisFeeders]
  | cons fd rest ih =>
      cases hval : sdk.valAddressFromBech32 fd.validator with
      | error reason => simp [validateGenesisFeeders, hval]
      | ok val =>
          cases hfeeder : sdk.accAddressFromBech32 fd.feeder with
          | error reason => simp [validateGenesisFeeders, hval, hfeeder]
          | ok feeder =>
              rw [← unseen_cons_iff]
              simp only [validateGenesisFeeders, hval, hfeeder,
                bind_eq_ok_iff, rejectIf_eq_ok_iff, exists_const, ih,
                List.forall_mem_cons, Except.ok.injEq, exists_eq', true_and]
              exact and_left_comm

/-- Everything `GenesisState.Validate` guarantees. -/
structure GenesisState.Valid (sdk : Sdk) (gs : GenesisState) : Prop where
  params : gs.params.Valid sdk
  prices : ∀ p ∈ gs.prices, ImportablePrice sdk gs.params p
  pairs_nodup : (gs.prices.map AggregatedPrice.pair).Nodup
  feeders :
    ∀ fd ∈ gs.feeders,
      (∃ val, sdk.valAddressFromBech32 fd.validator = .ok val) ∧
        ∃ feeder, sdk.accAddressFromBech32 fd.feeder = .ok feeder
  feeders_nodup : (gs.feeders.map FeederDelegation.feeder).Nodup

theorem GenesisState.validate_eq_ok_iff
    {sdk : Sdk} {gs : GenesisState} {u : Unit} :
    gs.validate sdk = .ok u ↔ gs.Valid sdk := by
  simp only [GenesisState.validate, bind_eq_ok_iff, exists_const,
    OracleParams.validate_eq_ok_iff, validateGenesisPrices_eq_ok_iff,
    validateGenesisFeeders_eq_ok_iff, List.not_mem_nil, not_false_eq_true,
    implies_true, true_and]
  constructor
  · intro h
    obtain ⟨hparams, ⟨hprices, hpairs⟩, hfeeders, hnodup⟩ := h
    exact ⟨hparams, hprices, hpairs, hfeeders, hnodup⟩
  · intro h
    exact ⟨h.params, ⟨h.prices, h.pairs_nodup⟩, h.feeders, h.feeders_nodup⟩

theorem validateGenesisTimes_eq_ok_iff
    {ctx : Ctx} {i : ℕ} {prices : List AggregatedPrice} {u : Unit} :
    validateGenesisTimes ctx i prices = .ok u ↔
      ∀ p ∈ prices, p.blockTime ≤ ctx.blockTime := by
  induction prices generalizing i with
  | nil => simp [validateGenesisTimes]
  | cons p rest ih =>
      simp only [validateGenesisTimes, validatePriceBlockTime, bind_eq_ok_iff,
        mapError_eq_ok_iff, rejectIf_eq_ok_iff, exists_const, ih, not_lt,
        List.forall_mem_cons]

theorem importFeeder_eq_ok_iff
    {k : Keeper} {staking : StakingView k.sdk} {store store' : OracleStore}
    {fd : FeederDelegation} :
    importFeeder k staking store fd = .ok store' ↔
      ∃ val feeder,
        k.sdk.valAddressFromBech32 fd.validator = .ok val ∧
        k.sdk.accAddressFromBech32 fd.feeder = .ok feeder ∧
        (∃ v, staking.getValidator val.bytes = .ok v) ∧
        (∀ existing, getValidatorForFeeder store feeder = some existing →
          existing = val) ∧
        writeFeederDelegation store val feeder = store' := by
  simp only [importFeeder, bind_eq_ok_iff, plainError_eq_ok_iff,
    mapError_eq_ok_iff, setFeederDelegation_eq_ok_iff]
  constructor
  · intro h
    obtain ⟨val, hval, feeder, hfeeder, v, hv, hfree, hstore⟩ := h
    exact ⟨val, feeder, hval, hfeeder, ⟨v, hv⟩, hfree, hstore⟩
  · intro h
    obtain ⟨val, feeder, hval, hfeeder, ⟨v, hv⟩, hfree, hstore⟩ := h
    exact ⟨val, hval, feeder, hfeeder, v, hv, hfree, hstore⟩

theorem initGenesis_eq_ok_iff
    {k : Keeper} {ctx : Ctx} {staking : StakingView k.sdk}
    {store store' : OracleStore} {gs : GenesisState} :
    initGenesis k ctx staking store gs = .ok store' ↔
      gs.Valid k.sdk ∧ (∀ p ∈ gs.prices, p.blockTime ≤ ctx.blockTime) ∧
        gs.feeders.foldlM (importFeeder k staking)
          (gs.prices.foldl setAggregatedPrice
            (writeParams store gs.params)) = .ok store' := by
  simp only [initGenesis, bind_eq_ok_iff, mapError_eq_ok_iff, exists_const,
    GenesisState.validate_eq_ok_iff, validateGenesisTimes_eq_ok_iff,
    setParams_eq_ok_iff]
  constructor
  · intro h
    obtain ⟨hvalid, htimes, store'', ⟨-, hstore⟩, hloop⟩ := h
    subst hstore
    exact ⟨hvalid, htimes, hloop⟩
  · intro h
    exact ⟨h.1, h.2.1, _, ⟨h.1.params, rfl⟩, h.2.2⟩

/-! ## Imported prices -/

theorem get_importPrices_of_ne
    (prices : List AggregatedPrice) (store : OracleStore) {key : OracleKey}
    (hkey : ∀ p ∈ prices, key ≠ .aggregatedPrice p.pair) :
    (prices.foldl setAggregatedPrice store).get key = store.get key := by
  induction prices generalizing store with
  | nil => rfl
  | cons p rest ih =>
      rw [List.foldl_cons, ih _ fun q hq => hkey q (by simp [hq]),
        get_setAggregatedPrice, if_neg (Ne.symm (hkey p (by simp)))]

theorem get_importPrices_of_mem
    {prices : List AggregatedPrice} (store : OracleStore)
    {p : AggregatedPrice}
    (hnodup : (prices.map AggregatedPrice.pair).Nodup) (hmem : p ∈ prices) :
    (prices.foldl setAggregatedPrice store).get (.aggregatedPrice p.pair) =
      some (.aggregatedPrice p) := by
  induction prices generalizing store with
  | nil => simp at hmem
  | cons first rest ih =>
      rw [List.map_cons, List.nodup_cons] at hnodup
      rw [List.foldl_cons]
      rcases List.mem_cons.mp hmem with heq | hrest
      · subst heq
        rw [get_importPrices_of_ne, get_setAggregatedPrice, if_pos rfl]
        intro q hq heq
        apply hnodup.1
        rw [OracleKey.aggregatedPrice.injEq] at heq
        rw [heq]
        exact List.mem_map_of_mem hq
      · exact ih _ hnodup.2 hrest

/-- Before the delegations are imported the store has parameters and prices
only. -/
theorem get_importPrices_empty (gs : GenesisState) {key : OracleKey}
    (hparams : key ≠ .params) (hprice : ∀ pair, key ≠ .aggregatedPrice pair) :
    (gs.prices.foldl setAggregatedPrice
      (writeParams TypedStore.empty gs.params)).get key = none := by
  rw [get_importPrices_of_ne _ _ fun p _ => hprice p.pair,
    get_writeParams_of_ne _ _ hparams, TypedStore.get_empty]

/-! ## Imported delegations -/

/-- A validator's feeder is bound back to that validator.  Rotated feeders
stay bound, so the converse does not hold. -/
def DelegationsConsistent (store : OracleStore) : Prop :=
  ∀ val feeder, getFeederForValidator store val = some feeder →
    getValidatorForFeeder store feeder = some val

theorem getFeederForValidator_write
    (store : OracleStore) (val feeder other : Address) :
    getFeederForValidator (writeFeederDelegation store val feeder) other =
      if val = other then some feeder
      else getFeederForValidator store other := by
  unfold getFeederForValidator readAddress
  rw [get_writeFeederDelegation]
  by_cases hval : val = other <;> simp [hval]

theorem getValidatorForFeeder_write
    (store : OracleStore) (val feeder other : Address) :
    getValidatorForFeeder (writeFeederDelegation store val feeder) other =
      if feeder = other then some val
      else getValidatorForFeeder store other := by
  unfold getValidatorForFeeder readAddress
  rw [get_writeFeederDelegation]
  by_cases hfeeder : feeder = other <;> simp [hfeeder]

/-- The two delegation indexes of a store. -/
def feederTable (store : OracleStore) : Table Address Address where
  forward := getFeederForValidator store
  backward := getValidatorForFeeder store

theorem feederTable_write (store : OracleStore) (val feeder : Address) :
    feederTable (writeFeederDelegation store val feeder) =
      (feederTable store).write val feeder := by
  unfold feederTable Table.write
  congr
  · funext other
    exact getFeederForValidator_write store val feeder other
  · funext other
    exact getValidatorForFeeder_write store val feeder other

theorem feederTable_congr {store store' : OracleStore}
    (hval : ∀ val, store'.get (.valoperToFeeder val) =
      store.get (.valoperToFeeder val))
    (hfeeder : ∀ feeder, store'.get (.feederToValoper feeder) =
      store.get (.feederToValoper feeder)) :
    feederTable store' = feederTable store := by
  unfold feederTable getFeederForValidator getValidatorForFeeder readAddress
  simp only [hval, hfeeder]

/-- A delegation write which found its feeder free, or already bound to the
same validator, keeps the delegations consistent. -/
theorem DelegationsConsistent.write
    {store : OracleStore} {val feeder : Address}
    (hconsistent : DelegationsConsistent store)
    (hfree : ∀ existing, getValidatorForFeeder store feeder = some existing →
      existing = val) :
    DelegationsConsistent (writeFeederDelegation store val feeder) := by
  intro other bound hbound
  rw [getFeederForValidator_write] at hbound
  rw [getValidatorForFeeder_write]
  by_cases hval : val = other
  · rw [if_pos hval, Option.some.injEq] at hbound
    rw [if_pos hbound, hval]
  · rw [if_neg hval] at hbound
    have hback := hconsistent other bound hbound
    rw [if_neg]
    · exact hback
    · intro hsame
      rw [← hsame] at hback
      exact hval (hfree other hback).symm

theorem DelegationsConsistent.congr {store store' : OracleStore}
    (hconsistent : DelegationsConsistent store)
    (hsame : feederTable store' = feederTable store) :
    DelegationsConsistent store' := by
  have hfeeder := congrArg Table.forward hsame
  have hval := congrArg Table.backward hsame
  intro val feeder hbound
  exact (congrFun hval feeder).trans
    (hconsistent val feeder ((congrFun hfeeder val).symm.trans hbound))

theorem get_importFeeder_of_ne
    {k : Keeper} {staking : StakingView k.sdk} {store store' : OracleStore}
    {fd : FeederDelegation}
    (himport : importFeeder k staking store fd = .ok store')
    {key : OracleKey}
    (hfeeder : ∀ feeder, key ≠ .feederToValoper feeder)
    (hval : ∀ val, key ≠ .valoperToFeeder val) :
    store'.get key = store.get key := by
  obtain ⟨val, feeder, -, -, -, -, hstore⟩ := importFeeder_eq_ok_iff.mp himport
  rw [← hstore, get_writeFeederDelegation, if_neg (Ne.symm (hval val)),
    if_neg (Ne.symm (hfeeder feeder))]

theorem get_importFeeders_of_ne
    {k : Keeper} {staking : StakingView k.sdk} {store store' : OracleStore}
    {feeders : List FeederDelegation}
    (hloop : feeders.foldlM (importFeeder k staking) store = .ok store')
    {key : OracleKey}
    (hfeeder : ∀ feeder, key ≠ .feederToValoper feeder)
    (hval : ∀ val, key ≠ .valoperToFeeder val) :
    store'.get key = store.get key :=
  foldlM_invariant (I := fun s => s.get key = store.get key)
    (fun _ _ _ hstate himport =>
      (get_importFeeder_of_ne himport hfeeder hval).trans hstate)
    rfl hloop

theorem get_initGenesis_of_ne
    {k : Keeper} {ctx : Ctx} {staking : StakingView k.sdk}
    {gs : GenesisState} {store : OracleStore}
    (hinit : initGenesis k ctx staking TypedStore.empty gs = .ok store)
    {key : OracleKey} (hparams : key ≠ .params)
    (hprice : ∀ pair, key ≠ .aggregatedPrice pair)
    (hfeeder : ∀ feeder, key ≠ .feederToValoper feeder)
    (hval : ∀ val, key ≠ .valoperToFeeder val) : store.get key = none := by
  obtain ⟨-, -, hloop⟩ := initGenesis_eq_ok_iff.mp hinit
  rw [get_importFeeders_of_ne hloop hfeeder hval,
    get_importPrices_empty gs hparams hprice]

/-- Everything an accepted import leaves in the store, outside the
delegations. -/
structure Imported (gs : GenesisState) (store : OracleStore) : Prop where
  params_eq : getParams store = gs.params
  prices : ∀ pair ap, storedPrice store pair = some ap ↔
    ap ∈ gs.prices ∧ ap.pair = pair
  no_feeds : ∀ val pair, store.get (.feed val pair) = none

theorem imported_of_initGenesis
    {k : Keeper} {ctx : Ctx} {staking : StakingView k.sdk}
    {gs : GenesisState} {store : OracleStore}
    (hinit : initGenesis k ctx staking TypedStore.empty gs = .ok store) :
    Imported gs store := by
  obtain ⟨hvalid, -, hloop⟩ := initGenesis_eq_ok_iff.mp hinit
  constructor
  · rw [← getParams_writeParams TypedStore.empty gs.params]
    apply getParams_congr
    rw [get_importFeeders_of_ne hloop (by simp) (by simp),
      get_importPrices_of_ne _ _ (by simp)]
  · intro pair ap
    rw [storedPrice_eq_some_iff,
      get_importFeeders_of_ne hloop (by simp) (by simp)]
    by_cases hpair : ∃ p ∈ gs.prices, p.pair = pair
    · obtain ⟨p, hp, heq⟩ := hpair
      subst heq
      rw [get_importPrices_of_mem _ hvalid.pairs_nodup hp]
      simp only [Option.some.injEq, OracleValue.aggregatedPrice.injEq]
      constructor
      · intro heq
        subst heq
        exact ⟨hp, rfl⟩
      · intro h
        exact List.inj_on_of_nodup_map hvalid.pairs_nodup hp h.1 h.2.symm
    · rw [get_importPrices_of_ne _ _ (by
        intro p hp heq
        rw [OracleKey.aggregatedPrice.injEq] at heq
        exact hpair ⟨p, hp, heq.symm⟩),
        get_writeParams_of_ne _ _ (by simp), TypedStore.get_empty]
      simp only [reduceCtorEq, false_iff]
      intro h
      exact hpair ⟨ap, h.1, h.2⟩
  · intro val pair
    apply get_initGenesis_of_ne hinit <;> simp

def decodeDelegation (sdk : Sdk) (validator feeder : String) :
    Option (Address × Address) :=
  (sdk.valAddressFromBech32 validator).toOption.bind fun val =>
    (sdk.accAddressFromBech32 feeder).toOption.map fun account =>
      (val, account)

theorem decodeDelegation_eq_some {sdk : Sdk} {validator feeder : String}
    {val account : Address}
    (hval : sdk.valAddressFromBech32 validator = .ok val)
    (hfeeder : sdk.accAddressFromBech32 feeder = .ok account) :
    decodeDelegation sdk validator feeder = some (val, account) := by
  simp [decodeDelegation, hval, hfeeder, Except.toOption]

/-- The delegations of a genesis, the last one first. -/
def genesisDelegations (k : Keeper) (gs : GenesisState) :
    List (Address × Address) :=
  (gs.feeders.filterMap fun fd =>
    decodeDelegation k.sdk fd.validator fd.feeder).reverse

theorem recorded_of_initGenesis
    {k : Keeper} {ctx : Ctx} {staking : StakingView k.sdk}
    {gs : GenesisState} {store : OracleStore}
    (hinit : initGenesis k ctx staking TypedStore.empty gs = .ok store) :
    Recorded (feederTable store) (genesisDelegations k gs) := by
  obtain ⟨-, -, hloop⟩ := initGenesis_eq_ok_iff.mp hinit
  refine foldlM_induct (P := fun done state => Recorded (feederTable state)
    (done.filterMap fun fd =>
      decodeDelegation k.sdk fd.validator fd.feeder).reverse) ?_ ?_ hloop
  · intro done state fd state' hdone himport
    obtain ⟨val, feeder, hval, hfeeder, -, hfree, rfl⟩ :=
      importFeeder_eq_ok_iff.mp himport
    rw [feederTable_write, List.filterMap_append, List.filterMap_cons,
      decodeDelegation_eq_some hval hfeeder, List.filterMap_nil,
      List.reverse_append, List.reverse_singleton]
    exact hdone.write hfree
  · constructor
    · intro val
      simp [feederTable, getFeederForValidator, readAddress,
        get_importPrices_empty]
    · intro val feeder
      simp [feederTable, getValidatorForFeeder, readAddress,
        get_importPrices_empty]

theorem delegationsConsistent_of_initGenesis
    {k : Keeper} {ctx : Ctx} {staking : StakingView k.sdk}
    {gs : GenesisState} {store : OracleStore}
    (hinit : initGenesis k ctx staking TypedStore.empty gs = .ok store) :
    DelegationsConsistent store := by
  intro val feeder hbound
  exact (recorded_of_initGenesis hinit).backward_of_forward hbound

/-! ## Exported records -/

theorem aggregatedPricePrefix_prefix_iff (key : OracleKey) :
    keyPrefixAggregatedPrice <+: oracleCodec.encode key ↔
      ∃ pair, key = .aggregatedPrice pair := by
  cases key <;>
    simp [oracleCodec, OracleKey.encode, feedKey, aggregatedPriceKey,
      missCounterKey, totalWindowsKey, feederToValoperKey,
      valoperToFeederKey, keyPrefixFeed, keyPrefixAggregatedPrice,
      keyPrefixTWAP, keyPrefixMissCounter, keyPrefixTotalWindows, keyParams,
      keyPrefixFeederToValoper, keyPrefixValoperToFeeder,
      List.cons_prefix_cons]

theorem valoperToFeederPrefix_prefix_iff (key : OracleKey) :
    keyPrefixValoperToFeeder <+: oracleCodec.encode key ↔
      ∃ val, key = .valoperToFeeder val := by
  cases key <;>
    simp [oracleCodec, OracleKey.encode, feedKey, aggregatedPriceKey,
      missCounterKey, totalWindowsKey, feederToValoperKey,
      valoperToFeederKey, keyPrefixFeed, keyPrefixAggregatedPrice,
      keyPrefixTWAP, keyPrefixMissCounter, keyPrefixTotalWindows, keyParams,
      keyPrefixFeederToValoper, keyPrefixValoperToFeeder,
      List.cons_prefix_cons]

theorem mem_exportedPrices_and_nodup (store : OracleStore) :
    (∀ ap, ap ∈ exportedPrices store ↔ storedPrice store ap.pair = some ap) ∧
      ((exportedPrices store).map AggregatedPrice.pair).Nodup := by
  obtain ⟨prices, hscan, hnodup, hmem⟩ := TypedStore.exists_scanned keyPrefixAggregatedPrice
    (fun ap : AggregatedPrice => .aggregatedPrice ap.pair)
    (fun ap => .aggregatedPrice ap)
    (by
      intro ap
      exact (aggregatedPricePrefix_prefix_iff _).mpr ⟨_, rfl⟩)
    (by
      intro key stored hstarts hadmits
      obtain ⟨pair, hkey⟩ := (aggregatedPricePrefix_prefix_iff key).mp hstarts
      subst hkey
      cases stored with
      | aggregatedPrice ap =>
          have hpair : ap.pair = pair := hadmits
          exact ⟨ap, by rw [hpair], rfl⟩
      | _ => simp [OracleKey.Admits] at hadmits)
    (by
      intro left right _ hvalue
      exact OracleValue.aggregatedPrice.inj hvalue)
    store
  have hexported : exportedPrices store = prices := by
    unfold exportedPrices
    rw [hscan, List.filterMap_map]
    exact List.filterMap_some
  rw [hexported]
  constructor
  · intro ap
    rw [hmem, storedPrice_eq_some_iff]
  · have hcompose :
        (fun ap : AggregatedPrice => OracleKey.aggregatedPrice ap.pair) =
          OracleKey.aggregatedPrice ∘ AggregatedPrice.pair := rfl
    rw [hcompose, ← List.map_map] at hnodup
    exact hnodup.of_map _

/-- The genesis record of one delegation. -/
def delegationRecord (sdk : Sdk) (d : Address × Address) : FeederDelegation :=
  ⟨sdk.valAddressString d.1.bytes, sdk.accAddressString d.2.bytes⟩

theorem delegationRecord_injective (sdk : Sdk) :
    Function.Injective (delegationRecord sdk) := by
  intro left right heq
  simp only [delegationRecord, FeederDelegation.mk.injEq] at heq
  exact Prod.ext (sdk.valAddressString_injective heq.1)
    (sdk.accAddressString_injective heq.2)

theorem exists_exportedFeeders (sdk : Sdk) (store : OracleStore) :
    ∃ ds : List (Address × Address),
      exportedFeeders sdk store = ds.map (delegationRecord sdk) ∧
        (ds.map Prod.fst).Nodup ∧
        ∀ val feeder, (val, feeder) ∈ ds ↔
          getFeederForValidator store val = some feeder := by
  obtain ⟨ds, hscan, hnodup, hmem⟩ := TypedStore.exists_scanned keyPrefixValoperToFeeder
    (fun d : Address × Address => .valoperToFeeder d.1)
    (fun d => .address d.2)
    (by
      intro d
      exact (valoperToFeederPrefix_prefix_iff _).mpr ⟨_, rfl⟩)
    (by
      intro key stored hstarts hadmits
      obtain ⟨val, hkey⟩ := (valoperToFeederPrefix_prefix_iff key).mp hstarts
      subst hkey
      cases stored with
      | address feeder => exact ⟨(val, feeder), rfl, rfl⟩
      | _ => simp [OracleKey.Admits] at hadmits)
    (by
      intro left right hkey hvalue
      exact Prod.ext (OracleKey.valoperToFeeder.inj hkey)
        (OracleValue.address.inj hvalue))
    store
  refine ⟨ds, ?_, ?_, ?_⟩
  · unfold exportedFeeders
    rw [hscan, List.filterMap_map, ← List.filterMap_eq_map']
    congr 1
    funext d
    have hbytes : d.1.bytes ≠ [] := List.length_pos_iff.mp d.1.valid.1
    simp [oracleCodec, OracleKey.encode, delegationRecord, valoperToFeederKey,
      hbytes]
  · have hcompose :
        (fun d : Address × Address => OracleKey.valoperToFeeder d.1) =
          OracleKey.valoperToFeeder ∘ Prod.fst := rfl
    rw [hcompose, ← List.map_map] at hnodup
    exact hnodup.of_map _
  · intro val feeder
    rw [hmem, getFeederForValidator, readAddress_eq_some_iff]

end Oracle
end Vertix

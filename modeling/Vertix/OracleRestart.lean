import Vertix.OraclePriceInvariant
import Mathlib.Tactic

/-!
# Restarting from an exported oracle state

Export and import agree on parameters, prices and delegations.  Import
re-validates the exported records against the current accept list and the
current validator set, and these two checks are the only ones a reachable
state can fail.
-/

namespace Vertix
namespace Oracle

open Transition

/-! ## The exported genesis -/

theorem mem_exportGenesis_prices
    {k : Keeper} {store : OracleStore} {ap : AggregatedPrice} :
    ap ∈ (exportGenesis k store).prices ↔
      storedPrice store ap.pair = some ap := by
  rw [← (mem_exportedPrices_and_nodup store).1 ap]
  exact List.mem_insertionSort _

theorem exportGenesis_pairs_nodup (k : Keeper) (store : OracleStore) :
    ((exportGenesis k store).prices.map AggregatedPrice.pair).Nodup := by
  have hperm : (exportGenesis k store).prices.Perm (exportedPrices store) :=
    List.perm_insertionSort _ _
  exact (hperm.map _).nodup_iff.mpr (mem_exportedPrices_and_nodup store).2

/-- The exported feeders are the stored delegations, one for each
validator. -/
theorem exists_exportGenesis_feeders (k : Keeper) (store : OracleStore) :
    ∃ ds : List (Address × Address),
      (exportGenesis k store).feeders = ds.map (delegationRecord k.sdk) ∧
        (ds.map Prod.fst).Nodup ∧
        ∀ val feeder, (val, feeder) ∈ ds ↔
          getFeederForValidator store val = some feeder := by
  obtain ⟨scanned, hscanned, hnodup, hmem⟩ :=
    exists_exportedFeeders k.sdk store
  have hperm : (exportGenesis k store).feeders.Perm
      (scanned.map (delegationRecord k.sdk)) := by
    rw [← hscanned]
    exact List.perm_insertionSort _ _
  obtain ⟨ds, hds⟩ := exists_map_eq_of_forall_mem (delegationRecord k.sdk)
    (exportGenesis k store).feeders (by
      intro fd hfd
      obtain ⟨d, -, hd⟩ := List.mem_map.mp (hperm.mem_iff.mp hfd)
      exact ⟨d, hd⟩)
  rw [← hds] at hperm
  have hsame : ds.Perm scanned :=
    (List.map_perm_map_iff (delegationRecord_injective k.sdk)).mp hperm
  refine ⟨ds, hds.symm, (hsame.map _).nodup_iff.mpr hnodup, ?_⟩
  intro val feeder
  rw [hsame.mem_iff, hmem]

theorem mem_genesisDelegations_exportGenesis (k : Keeper) (store : OracleStore)
    (val feeder : Address) :
    (val, feeder) ∈ genesisDelegations k (exportGenesis k store) ↔
      getFeederForValidator store val = some feeder := by
  obtain ⟨ds, hds, -, hmem⟩ := exists_exportGenesis_feeders k store
  have hdecoded : genesisDelegations k (exportGenesis k store) =
      ds.reverse := by
    unfold genesisDelegations
    rw [hds, List.filterMap_map]
    congr 1
    conv_rhs => rw [← List.filterMap_some (l := ds)]
    congr 1
    funext d
    exact decodeDelegation_eq_some (k.sdk.valAddress_roundTrip d.1)
      (k.sdk.accAddress_roundTrip d.2)
  rw [hdecoded, List.mem_reverse, hmem]

/-! ## Importing delegations -/

def writeDelegations (store : OracleStore) (ds : List (Address × Address)) :
    OracleStore :=
  ds.foldl (fun s d => writeFeederDelegation s d.1 d.2) store

theorem importFeeders_delegations
    {k : Keeper} {staking : StakingView k.sdk} (store : OracleStore)
    {ds : List (Address × Address)}
    (hknown : ∀ d ∈ ds, ∃ v, staking.getValidator d.1.bytes = .ok v)
    (hdistinct : (ds.map Prod.snd).Nodup)
    (hfree : ∀ d ∈ ds, getValidatorForFeeder store d.2 = none) :
    (ds.map (delegationRecord k.sdk)).foldlM (importFeeder k staking) store =
      .ok (writeDelegations store ds) := by
  induction ds generalizing store with
  | nil => rfl
  | cons d rest ih =>
      rw [List.map_cons, List.nodup_cons] at hdistinct
      have hfirst : importFeeder k staking store (delegationRecord k.sdk d) =
          .ok (writeFeederDelegation store d.1 d.2) := by
        rw [importFeeder_eq_ok_iff]
        refine ⟨d.1, d.2, k.sdk.valAddress_roundTrip d.1,
          k.sdk.accAddress_roundTrip d.2, hknown d (by simp), ?_, rfl⟩
        intro existing hexisting
        rw [hfree d (by simp)] at hexisting
        cases hexisting
      simp only [List.map_cons, List.foldlM_cons, hfirst]
      apply ih
      · intro d' hd'
        exact hknown d' (by simp [hd'])
      · exact hdistinct.2
      · intro d' hd'
        rw [getValidatorForFeeder_write, if_neg]
        · exact hfree d' (by simp [hd'])
        · intro hsame
          apply hdistinct.1
          rw [hsame]
          exact List.mem_map_of_mem hd'

theorem importFeeders_known
    {k : Keeper} {staking : StakingView k.sdk} {store store' : OracleStore}
    {feeders : List FeederDelegation}
    (hloop : feeders.foldlM (importFeeder k staking) store = .ok store') :
    ∀ fd ∈ feeders, ∃ val v,
      k.sdk.valAddressFromBech32 fd.validator = .ok val ∧
        staking.getValidator val.bytes = .ok v := by
  refine foldlM_induct (P := fun done _ => ∀ fd ∈ done, ∃ val v,
    k.sdk.valAddressFromBech32 fd.validator = .ok val ∧
      staking.getValidator val.bytes = .ok v) ?_ (by simp) hloop
  intro done state fd state' hdone himport other hother
  rcases List.mem_append.mp hother with hold | hnew
  · exact hdone other hold
  · rw [List.mem_singleton] at hnew
    subst hnew
    obtain ⟨val, feeder, hval, -, ⟨v, hv⟩, -⟩ :=
      importFeeder_eq_ok_iff.mp himport
    exact ⟨val, v, hval, hv⟩

/-! ## The round trip -/

/-- The imported store answers as the exported one did. -/
structure SameState (store store' : OracleStore) : Prop where
  params : getParams store' = getParams store
  prices : ∀ pair, storedPrice store' pair = storedPrice store pair
  feeders : ∀ val,
    resolveAuthorizedFeeder store' val = resolveAuthorizedFeeder store val

theorem exportGenesis_valid
    {k : Keeper} {store : OracleStore} (hsound : Sound k.sdk store)
    (haccepted : PricedPairsAccepted store) :
    (exportGenesis k store).Valid k.sdk := by
  obtain ⟨ds, hds, hdistinct, hmem⟩ := exists_exportGenesis_feeders k store
  constructor
  · exact hsound.params_valid
  · intro ap hap
    have hstored := mem_exportGenesis_prices.mp hap
    exact ⟨haccepted ap.pair ap hstored,
      hsound.prices_positive ap.pair ap hstored,
      hsound.prices_timed ap.pair ap hstored⟩
  · exact exportGenesis_pairs_nodup k store
  · intro fd hfd
    rw [hds] at hfd
    obtain ⟨d, -, hd⟩ := List.mem_map.mp hfd
    subst hd
    exact ⟨⟨d.1, k.sdk.valAddress_roundTrip d.1⟩,
      ⟨d.2, k.sdk.accAddress_roundTrip d.2⟩⟩
  · rw [hds, List.map_map, List.Nodup, List.pairwise_map]
    rw [List.Nodup, List.pairwise_map] at hdistinct
    apply hdistinct.imp_of_mem
    intro left right hleft hright hne hsame
    have hfeeder : left.2 = right.2 := k.sdk.accAddressString_injective hsame
    have hboundLeft := hsound.delegations left.1 left.2
      ((hmem left.1 left.2).mp hleft)
    have hboundRight := hsound.delegations right.1 right.2
      ((hmem right.1 right.2).mp hright)
    rw [hfeeder, hboundRight, Option.some.injEq] at hboundLeft
    exact hne hboundLeft.symm

/-- The imported indexes have the exported feeders, and are inverse. -/
theorem feederTable_of_restart
    {k : Keeper} {store store' : OracleStore} {ctx : Ctx}
    {staking : StakingView k.sdk}
    (hrestart : initGenesis k ctx staking TypedStore.empty
      (exportGenesis k store) = .ok store') :
    (feederTable store').forward = (feederTable store).forward ∧
      (feederTable store').Inverse := by
  have hexported : ∀ val feeder,
      (val, feeder) ∈ genesisDelegations k (exportGenesis k store) ↔
        (feederTable store).forward val = some feeder :=
    mem_genesisDelegations_exportGenesis k store
  exact (recorded_of_initGenesis hrestart).rebuilt hexported

theorem sameState_of_restart
    {k : Keeper} {store store' : OracleStore} {ctx : Ctx}
    {staking : StakingView k.sdk}
    (hrestart : initGenesis k ctx staking TypedStore.empty
      (exportGenesis k store) = .ok store') :
    SameState store store' := by
  have himported := imported_of_initGenesis hrestart
  constructor
  · exact himported.params_eq
  · intro pair
    apply Option.ext
    intro ap
    rw [himported.prices, mem_exportGenesis_prices]
    constructor
    · intro h
      rw [← h.2]
      exact h.1
    · intro hstored
      have hpair := storedPrice_pair hstored
      rw [hpair]
      exact ⟨hstored, rfl⟩
  · intro val
    have hfeeder : getFeederForValidator store' val =
        getFeederForValidator store val :=
      congrFun (feederTable_of_restart hrestart).1 val
    unfold resolveAuthorizedFeeder
    rw [hfeeder]

theorem exportGenesis_imports
    {k : Keeper} {store : OracleStore} (hsound : Sound k.sdk store)
    (haccepted : PricedPairsAccepted store)
    {ctx : Ctx} {staking : StakingView k.sdk}
    (htimes : ∀ pair ap, storedPrice store pair = some ap →
      ap.blockTime ≤ ctx.blockTime)
    (hknown : ∀ val feeder, getFeederForValidator store val = some feeder →
      ∃ v, staking.getValidator val.bytes = .ok v) :
    ∃ store', initGenesis k ctx staking TypedStore.empty
        (exportGenesis k store) = .ok store' ∧ SameState store store' := by
  obtain ⟨ds, hds, -, hmem⟩ := exists_exportGenesis_feeders k store
  have hvalid := exportGenesis_valid hsound haccepted
  have hfeeders := hvalid.feeders_nodup
  rw [hds, List.map_map] at hfeeders
  have hcompose : FeederDelegation.feeder ∘ delegationRecord k.sdk =
      (fun feeder : Address => k.sdk.accAddressString feeder.bytes) ∘
        Prod.snd := rfl
  rw [hcompose, ← List.map_map] at hfeeders
  let base := (exportGenesis k store).prices.foldl setAggregatedPrice
    (writeParams TypedStore.empty (exportGenesis k store).params)
  have hloop := importFeeders_delegations base
    (fun d hd => hknown d.1 d.2 ((hmem d.1 d.2).mp hd)) (hfeeders.of_map _)
    (by
      intro d _
      unfold getValidatorForFeeder readAddress
      rw [get_importPrices_empty _ (by simp) (by simp)])
  have hinit : initGenesis k ctx staking TypedStore.empty
      (exportGenesis k store) = .ok (writeDelegations base ds) := by
    rw [initGenesis_eq_ok_iff, hds]
    refine ⟨hvalid, ?_, hloop⟩
    intro ap hap
    exact htimes ap.pair ap (mem_exportGenesis_prices.mp hap)
  exact ⟨_, hinit, sameState_of_restart hinit⟩

/-- A reachable state can be exported, validated and imported again exactly
when every stored price is for an accepted pair and every validator with a
delegation is still known to staking. -/
theorem exportGenesis_restarts_iff
    {k : Keeper} {history : List (OracleStore × OracleStep k)}
    {store : OracleStore} (hreached : Reached k history store)
    (ctx : Ctx) (staking : StakingView k.sdk)
    (htimes : ∀ pair ap, storedPrice store pair = some ap →
      ap.blockTime ≤ ctx.blockTime) :
    ((exportGenesis k store).validate k.sdk = .ok () ∧
        ∃ store', initGenesis k ctx staking TypedStore.empty
          (exportGenesis k store) = .ok store' ∧ SameState store store') ↔
      (∀ pair ap, storedPrice store pair = some ap →
        pair ∈ (getParams store).acceptList) ∧
      ∀ val feeder, getFeederForValidator store val = some feeder →
        ∃ v, staking.getValidator val.bytes = .ok v := by
  have hsound := sound_of_reached hreached
  constructor
  · intro h
    obtain ⟨hvalid, store', hinit, -⟩ := h
    have hvalid' := GenesisState.validate_eq_ok_iff.mp hvalid
    constructor
    · intro pair ap hstored
      have hpair := storedPrice_pair hstored
      subst hpair
      exact (hvalid'.prices ap (mem_exportGenesis_prices.mpr hstored)).accepted
    · intro val feeder hbound
      obtain ⟨ds, hds, -, hmem⟩ := exists_exportGenesis_feeders k store
      obtain ⟨-, -, hloop⟩ := initGenesis_eq_ok_iff.mp hinit
      have hrecord : delegationRecord k.sdk (val, feeder) ∈
          (exportGenesis k store).feeders := by
        rw [hds]
        exact List.mem_map_of_mem ((hmem val feeder).mpr hbound)
      obtain ⟨val', v, hval', hv⟩ := importFeeders_known hloop _ hrecord
      have hdecoded : k.sdk.valAddressFromBech32
          (k.sdk.valAddressString val.bytes) = .ok val' := hval'
      rw [k.sdk.valAddress_roundTrip, Except.ok.injEq] at hdecoded
      rw [hdecoded]
      exact ⟨v, hv⟩
  · intro h
    exact ⟨GenesisState.validate_eq_ok_iff.mpr (exportGenesis_valid hsound h.1),
      exportGenesis_imports hsound h.1 htimes h.2⟩

/-- The first validator appoints a feeder, which submits in a window next to
the second validator, and the window closes. -/
def delegatedSteps : List (OracleStep referenceKeeper) :=
  [.setFeeder twoValidators
      ⟨(firstFeed "").validator, (secondFeed "").feeder⟩,
    .submitFeed boundaryCtx twoValidators
      { firstFeed "1.0" with feeder := (secondFeed "").feeder },
    .submitFeed boundaryCtx twoValidators (secondFeed "1.1"),
    .endBlock boundaryCtx twoValidators]

/-- The checks on an exported store that is about to be imported. -/
def importable (store : OracleStore) : Bool :=
  (exportedPrices store).all (fun ap =>
      decide (ap.blockTime ≤ boundaryCtx.blockTime ∧
        ap.pair ∈ (getParams store).acceptList)) &&
    (exportedFeeders referenceKeeper.sdk store).all fun fd =>
      (referenceKeeper.sdk.valAddressFromBech32 fd.validator).toOption.any
        fun val => (twoValidators.getValidator val.bytes).toOption.isSome

theorem prices_of_importable {store : OracleStore}
    (hready : importable store = true) {pair : String} {ap : AggregatedPrice}
    (hstored : storedPrice store pair = some ap) :
    ap.blockTime ≤ boundaryCtx.blockTime ∧
      pair ∈ (getParams store).acceptList := by
  rw [importable, Bool.and_eq_true, List.all_eq_true] at hready
  obtain rfl := storedPrice_pair hstored
  exact of_decide_eq_true (hready.1 ap
    (((mem_exportedPrices_and_nodup store).1 ap).mpr hstored))

theorem known_of_importable {store : OracleStore}
    (hready : importable store = true) {val feeder : Address}
    (hbound : getFeederForValidator store val = some feeder) :
    ∃ v, twoValidators.getValidator val.bytes = .ok v := by
  rw [importable, Bool.and_eq_true, List.all_eq_true,
    List.all_eq_true] at hready
  obtain ⟨ds, hds, -, hmem⟩ := exists_exportedFeeders referenceKeeper.sdk store
  have hknown := hready.2 (delegationRecord referenceKeeper.sdk (val, feeder))
    (by
      rw [hds]
      exact List.mem_map_of_mem ((hmem val feeder).mpr hbound))
  simp only [delegationRecord, referenceKeeper.sdk.valAddress_roundTrip,
    Except.toOption, Option.any_some] at hknown
  obtain ⟨v, hv⟩ := Option.isSome_iff_exists.mp hknown
  exact ⟨v, toOption_eq_some_iff.mp hv⟩

/-- A chain with a delegation, an imported price and one from its own window
restarts. -/
theorem closed_window_restarts :
    ∃ start history store,
      initGenesis referenceKeeper boundaryCtx twoValidators TypedStore.empty
          pricedGenesis = .ok start ∧
        Run (oracleStep referenceKeeper) start history store ∧
        history.map Prod.snd = delegatedSteps.reverse ∧
        (∃ ap, storedPrice store "VTX:USD" = some ap) ∧
        getFeederForValidator store (addressOf 1) = some (addressOf 2) ∧
        (exportGenesis referenceKeeper store).validate referenceKeeper.sdk =
          .ok () ∧
        ∃ store', initGenesis referenceKeeper boundaryCtx twoValidators
            TypedStore.empty (exportGenesis referenceKeeper store) =
              .ok store' ∧ SameState store store' := by
  have hfacts : (replayGenesis referenceKeeper boundaryCtx twoValidators
      pricedGenesis delegatedSteps).any (fun r => importable r.2.2 &&
        ((storedPrice r.2.2 "VTX:USD").isSome &&
          decide (getFeederForValidator r.2.2 (addressOf 1) =
            some (addressOf 2)))) = true := by
    decide +kernel
  obtain ⟨⟨start, history, store⟩, hreplay, hchecked⟩ :=
    exists_some_of_any hfacts
  simp only [Bool.and_eq_true, decide_eq_true_eq] at hchecked
  obtain ⟨hready, hpriced, hbound⟩ := hchecked
  obtain ⟨hinit, hrun⟩ := run_of_replayGenesis hreplay
  obtain ⟨hvalid, himports⟩ := (exportGenesis_restarts_iff
    ⟨_, _, _, _, hinit, hrun⟩ boundaryCtx twoValidators
    fun pair ap hstored => (prices_of_importable hready hstored).1).mpr
      ⟨fun pair ap hstored => (prices_of_importable hready hstored).2,
        fun val feeder => known_of_importable hready⟩
  exact ⟨start, history, store, hinit, hrun, steps_of_replayGenesis hreplay,
    Option.isSome_iff_exists.mp hpriced, hbound, hvalid, himports⟩

/-- After an accepted update drops a priced pair the exported genesis is
rejected. -/
theorem exportGenesis_invalid_after_dropped_pair :
    ∃ start, initGenesis referenceKeeper boundaryCtx twoValidators
        TypedStore.empty pricedGenesis = .ok start ∧
      ∃ store, updateParams referenceKeeper start
          (acceptListUpdate ["VTX:USD"]) = .ok store ∧
        (exportGenesis referenceKeeper store).validate referenceKeeper.sdk ≠
          .ok () := by
  have hrun : (initGenesis referenceKeeper boundaryCtx twoValidators
      TypedStore.empty pricedGenesis).toOption.any (fun start =>
        (updateParams referenceKeeper start
          (acceptListUpdate ["VTX:USD"])).toOption.any fun store =>
            decide ((exportGenesis referenceKeeper store).validate
              referenceKeeper.sdk ≠ .ok ())) = true := by
    decide +kernel
  obtain ⟨start, hinit, hupdate⟩ := exists_ok_of_any hrun
  obtain ⟨store, hstore, hinvalid⟩ := exists_ok_of_any hupdate
  exact ⟨start, hinit, store, hstore, of_decide_eq_true hinvalid⟩

end Oracle
end Vertix

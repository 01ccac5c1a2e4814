import Vertix.OraclePanicSafety
import Mathlib.Tactic

/-!
# The registered price invariant

The crisis invariant `oracle/prices` couples the price table to the accept
list.  Prices are only published for accepted pairs and are never deleted, so
the invariant lasts exactly as long as no accepted parameter update drops a
pair which has a stored price.
-/

namespace Vertix
namespace Oracle

open Transition

def formatInvariant (module name msg : String) : String :=
  module ++ ": " ++ name ++ " invariant\n" ++ msg ++ "\n"

def parsesPositive (sdk : Sdk) (text : String) : Bool :=
  match sdk.legacyNewDecFromStr text with
  | .ok price => decide (0 < price.raw)
  | .error _ => false

/-- The message of the invariant and whether it is broken. -/
def pricesInvariant (sdk : Sdk) (store : OracleStore) : String × Bool :=
  let broken := (exportedPrices store).any fun ap =>
    !(getParams store).acceptList.contains ap.pair ||
      !parsesPositive sdk ap.price
  (formatInvariant moduleName "prices"
    "every stored aggregated price must be accept-listed and strictly positive",
    broken)

theorem parsesPositive_iff {sdk : Sdk} {text : String} :
    parsesPositive sdk text = true ↔
      ParsesWithin sdk text fun raw => 0 < raw := by
  unfold parsesPositive ParsesWithin
  cases sdk.legacyNewDecFromStr text with
  | error reason => simp
  | ok price => simp

/-- Every stored price belongs to an accepted pair. -/
def PricedPairsAccepted (store : OracleStore) : Prop :=
  ∀ pair ap, storedPrice store pair = some ap →
    pair ∈ (getParams store).acceptList

theorem pricesInvariant_unbroken_iff
    {sdk : Sdk} {store : OracleStore} (hsound : Sound sdk store) :
    (pricesInvariant sdk store).2 = false ↔ PricedPairsAccepted store := by
  have hmem := (mem_exportedPrices_and_nodup store).1
  simp only [pricesInvariant, List.any_eq_false, Bool.or_eq_true,
    Bool.not_eq_true', List.contains_eq_mem, decide_eq_false_iff_not,
    not_or, not_not, Bool.not_eq_false, parsesPositive_iff]
  constructor
  · intro h pair ap hstored
    have hpair := storedPrice_pair hstored
    subst hpair
    exact (h ap ((hmem ap).mpr hstored)).1
  · intro h ap hap
    have hstored := (hmem ap).mp hap
    exact ⟨h ap.pair ap hstored, hsound.prices_positive ap.pair ap hstored⟩

/-! ## Steps -/

/-- An update which the handler accepts keeps every pair with a stored
price. -/
def KeepsPricedPairs (k : Keeper) (store : OracleStore) :
    OracleStep k → Prop
  | .updateParams msg =>
      k.authority = msg.authority →
        (∃ authority,
          k.sdk.accAddressFromBech32 msg.authority = .ok authority) →
        msg.params.validate k.sdk = .ok () →
        ∀ pair ap, storedPrice store pair = some ap →
          pair ∈ msg.params.acceptList
  | _ => True

theorem storedPrice_updatedParams
    (store : OracleStore) (changed : Bool) (params : OracleParams)
    (pair : String) :
    storedPrice
      (writeParams (if changed then resetMissCounters store else store) params)
      pair = storedPrice store pair :=
  storedPrice_congr (get_updatedParams_of_ne store changed params (by simp)
    (by simp [OracleKey.IsCounter]))

theorem PricedPairsAccepted.effect
    {k : Keeper} {store store' : OracleStore} {step : OracleStep k}
    (haccepted : PricedPairsAccepted store)
    (hkeeps : KeepsPricedPairs k store step)
    (heffect : Effect k store step store') :
    PricedPairsAccepted store' := by
  intro pair ap hstored
  rcases heffect.getParams_cases with hsame |
    ⟨msg, hstep, hresult, hvalid, hnew⟩
  · rw [hsame]
    rcases heffect.storedPrice_cases pair with hkept |
      ⟨ctx, staking, w, -, -, hopen, hpair, -, -⟩
    · rw [hkept] at hstored
      exact haccepted pair ap hstored
    · rw [← (openWindow_eq_ok_iff.mp hopen).2.2.1]
      exact hpair
  · subst hstep
    obtain ⟨hauthority, hdecoded, -, hstore⟩ :=
      updateParams_eq_ok_iff.mp hresult
    rw [← hstore, storedPrice_updatedParams] at hstored
    rw [hnew]
    exact hkeeps hauthority hdecoded
      (OracleParams.validate_eq_ok_iff.mpr hvalid) pair ap hstored

/-- An accepted update which leaves the invariant intact kept every priced
pair. -/
theorem keepsPricedPairs_of_accepted
    {k : Keeper} {store store' : OracleStore} {step : OracleStep k}
    (hstep : oracleStep k store step = some store')
    (haccepted : PricedPairsAccepted store') :
    KeepsPricedPairs k store step := by
  cases step with
  | updateParams msg =>
      intro hauthority hdecoded hvalid pair ap hstored
      have hresult : updateParams k store msg = .ok (writeParams
          (if (getParams store).acceptListChanged msg.params then
            resetMissCounters store
          else store) msg.params) :=
        updateParams_eq_ok_iff.mpr ⟨hauthority, hdecoded,
          OracleParams.validate_eq_ok_iff.mp hvalid, rfl⟩
      simp only [oracleStep, hresult, commit, Option.some.injEq] at hstep
      subst hstep
      have hpair := haccepted pair ap
        (by rw [storedPrice_updatedParams]; exact hstored)
      rwa [getParams_writeParams] at hpair
  | _ => trivial

/-! ## Runs -/

theorem pricedPairsAccepted_of_initGenesis
    {k : Keeper} {ctx : Ctx} {staking : StakingView k.sdk}
    {gs : GenesisState} {store : OracleStore}
    (hinit : initGenesis k ctx staking TypedStore.empty gs = .ok store) :
    PricedPairsAccepted store := by
  have himported := imported_of_initGenesis hinit
  intro pair ap hstored
  obtain ⟨hmem, hpair⟩ := (himported.prices pair ap).mp hstored
  rw [himported.params_eq, ← hpair]
  exact ((initGenesis_eq_ok_iff.mp hinit).1.prices ap hmem).accepted

/-- Along any run from an accepted genesis the registered invariant holds in
every visited state exactly when every accepted parameter update keeps the
pairs which have a stored price. -/
theorem pricesInvariant_along_run_iff
    {k : Keeper} {ctx : Ctx} {staking : StakingView k.sdk}
    {gs : GenesisState} {start store : OracleStore}
    {history : List (OracleStore × OracleStep k)}
    (hinit : initGenesis k ctx staking TypedStore.empty gs = .ok start)
    (hrun : Run (oracleStep k) start history store) :
    ((pricesInvariant k.sdk store).2 = false ∧
        ∀ entry ∈ history, (pricesInvariant k.sdk entry.1).2 = false) ↔
      ∀ entry ∈ history, KeepsPricedPairs k entry.1 entry.2 := by
  have hreached : ∀ history store, Run (oracleStep k) start history store →
      Sound k.sdk store := fun history store hrun =>
    sound_of_reached ⟨ctx, staking, gs, start, hinit, hrun⟩
  induction hrun with
  | start =>
      have hstart := pricesInvariant_unbroken_iff (sound_of_initGenesis hinit)
      simp only [List.not_mem_nil, false_implies, implies_true, and_true,
        iff_true]
      exact hstart.mpr (pricedPairsAccepted_of_initGenesis hinit)
  | @next history before after step hbefore hstep ih =>
      have hsound := hreached history before hbefore
      have hunbroken := pricesInvariant_unbroken_iff hsound
      have hunbroken' := pricesInvariant_unbroken_iff
        (hreached _ after (Run.next hbefore hstep))
      simp only [List.forall_mem_cons]
      constructor
      · intro h
        obtain ⟨hafter, hcurrent, holder⟩ := h
        refine ⟨?_, ih.mp ⟨hcurrent, holder⟩⟩
        exact keepsPricedPairs_of_accepted hstep (hunbroken'.mp hafter)
      · intro h
        obtain ⟨hkeeps, holder⟩ := h
        obtain ⟨hcurrent, hvisited⟩ := ih.mpr holder
        refine ⟨hunbroken'.mpr ?_, hcurrent, hvisited⟩
        exact (hunbroken.mp hcurrent).effect hkeeps (effect_of_step hstep)

/-! ## Two updates -/

/-- A genesis which prices one of two accepted pairs. -/
def pricedGenesis : GenesisState where
  params := { defaultParams with acceptList := ["VTX:USD", "BTC:USD"] }
  prices := [⟨"BTC:USD", "64000.000000000000000000", 1, 1600000000000000000⟩]
  feeders := []

def acceptListUpdate (pairs : List String) : MsgUpdateParams :=
  ⟨referenceKeeper.authority, { defaultParams with acceptList := pairs }⟩

/-- An update which keeps the priced pair keeps the invariant. -/
theorem pricesInvariant_kept_by_extension :
    ∃ start store,
      initGenesis referenceKeeper boundaryCtx twoValidators TypedStore.empty
        pricedGenesis = .ok start ∧
      updateParams referenceKeeper start
        (acceptListUpdate ["VTX:USD", "BTC:USD", "ETH:USD"]) = .ok store ∧
      (pricesInvariant referenceKeeper.sdk store).2 = false := by
  have hrun : (initGenesis referenceKeeper boundaryCtx twoValidators
      TypedStore.empty pricedGenesis).toOption.any (fun start =>
        (updateParams referenceKeeper start
          (acceptListUpdate ["VTX:USD", "BTC:USD", "ETH:USD"])).toOption.any
            fun _ => true) = true := by
    decide +kernel
  obtain ⟨start, hinit, hupdate⟩ := exists_ok_of_any hrun
  obtain ⟨store, hstore, -⟩ := exists_ok_of_any hupdate
  refine ⟨start, store, hinit, hstore, ?_⟩
  have hstep : oracleStep referenceKeeper start (.updateParams
      (acceptListUpdate ["VTX:USD", "BTC:USD", "ETH:USD"])) = some store := by
    simp [oracleStep, hstore, commit]
  refine ((pricesInvariant_along_run_iff hinit
    (Run.next Run.start hstep)).mpr ?_).1
  simp only [List.mem_singleton, forall_eq, KeepsPricedPairs]
  intro _ _ _ pair ap hstored
  obtain ⟨hmem, hpair⟩ :=
    ((imported_of_initGenesis hinit).prices pair ap).mp hstored
  rw [← hpair, List.mem_singleton.mp hmem]
  simp [acceptListUpdate]

/-- Dropping the priced pair is accepted and breaks the invariant. -/
theorem pricesInvariant_broken_by_dropped_pair :
    ∃ start, initGenesis referenceKeeper boundaryCtx twoValidators
        TypedStore.empty pricedGenesis = .ok start ∧
      ∃ store, updateParams referenceKeeper start
          (acceptListUpdate ["VTX:USD"]) = .ok store ∧
        (pricesInvariant referenceKeeper.sdk store).2 = true := by
  have hrun : (initGenesis referenceKeeper boundaryCtx twoValidators
      TypedStore.empty pricedGenesis).toOption.any (fun start =>
        (updateParams referenceKeeper start
          (acceptListUpdate ["VTX:USD"])).toOption.any fun store =>
            (pricesInvariant referenceKeeper.sdk store).2) = true := by
    decide +kernel
  obtain ⟨start, hinit, hupdate⟩ := exists_ok_of_any hrun
  exact ⟨start, hinit, exists_ok_of_any hupdate⟩

end Oracle
end Vertix

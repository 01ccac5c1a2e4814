import Vertix.Chain
import Vertix.OraclePanicSafety
import Vertix.OracleSlashing
import Vertix.SdkReference
import Mathlib.Tactic

/-!
# Accounting for the base supply

On every run of the composed chain the genesis supply of the base coin is the
current supply, what the fees module burned, and what slashes burned.  The
reconcile invariant leaves the last term out.  It holds as long as no block
slashes at a positive rate, and the first slash of an outlier breaks it.
-/

namespace Vertix
namespace Chain

open Transition
open Rwa (Bank BankOp RwaStore bondDenom coinsOf)
open Oracle (SlashCall)

/-! ## The rwa module leaves the base supply alone -/

/-- No record carries the base denomination.  Registration never writes one;
genesis import does not check. -/
def BaseApart (store : RwaStore) : Prop :=
  ∀ assetID rec, Rwa.getAsset store assetID = some rec →
    rec.denom ≠ bondDenom

theorem BaseApart.accepted
    {k : Keeper} {env : Rwa.Env} {s s' : Rwa.RwaState} {tx : Rwa.RwaTx}
    (hapart : BaseApart s.store) (haccepted : Rwa.Accepted k env s tx s') :
    BaseApart s'.store := by
  apply haccepted.records_induct (P := fun _ rec => rec.denom ≠ bondDenom)
    _ _ hapart
  · intro assetID rec hstep hid
    cases hstep with
    | register => exact Rwa.buildDenom_ne_bondDenom _
  · intro assetID old rec hold hstep
    rw [hstep.frozen.2.1]
    exact hold

theorem base_supply_of_accepted
    {k : Keeper} {env : Rwa.Env} {s s' : Rwa.RwaState} {tx : Rwa.RwaTx}
    (hapart : BaseApart s.store) (haccepted : Rwa.Accepted k env s tx s') :
    s'.bank.supply bondDenom = s.bank.supply bondDenom := by
  cases haccepted with
  | registered hvalid hissuer hfresh hbond hmin hbank =>
      have hlaw := Ledger.execAll_supply hbank bondDenom
      simpa [LedgerOp.burned, LedgerOp.minted] using hlaw
  | attested => rfl
  | minted howned hstatus hnotional hpos hfee hprev htotal hbank =>
      have hdenom := hapart _ _ howned.stored
      have hlaw := Ledger.execAll_supply hbank bondDenom
      simpa [LedgerOp.burned, LedgerOp.minted, hdenom] using hlaw
  | transferred hstored hstatus hsender hrecipient hamount hpos hallowed
      hbank =>
      have hlaw := Ledger.execAll_supply hbank bondDenom
      simpa [LedgerOp.burned, LedgerOp.minted] using hlaw
  | restricted => rfl
  | settled howned hstatus hnotional hfee hbond hbank =>
      have hdenom := hapart _ _ howned.stored
      have hlaw := Ledger.execAll_supply hbank bondDenom
      simpa [LedgerOp.burned, LedgerOp.minted, hdenom] using hlaw
  | slashed hauthority hstored hissuer hstatus hbond hbank =>
      have hlaw := Ledger.execAll_supply hbank bondDenom
      simpa [LedgerOp.burned, LedgerOp.minted] using hlaw
  | reparametrized => rfl
  | sent hopen hallowed hbank =>
      have hlaw := Ledger.execAll_supply hbank bondDenom
      simpa [LedgerOp.burned, LedgerOp.minted] using hlaw
  | paid hallowed hbank =>
      have hlaw := Ledger.execAll_supply hbank bondDenom
      simpa [LedgerOp.burned, LedgerOp.minted] using hlaw

theorem base_supply_of_rwaStep
    {k : Keeper} {s s' : Rwa.RwaState} {label : Rwa.Label}
    (hstep : Rwa.rwaStep k s label = some s') (hapart : BaseApart s.store) :
    BaseApart s'.store ∧
      s'.bank.supply bondDenom = s.bank.supply bondDenom := by
  rcases Rwa.rwaStep_cases hstep with ⟨-, -, hsame⟩ | ⟨-, -, haccepted⟩
  · rw [hsame]
    exact ⟨hapart, rfl⟩
  · exact ⟨hapart.accepted haccepted,
      base_supply_of_accepted hapart haccepted⟩

/-! ## Slashes take from the supply -/

theorem executeSlash_supply_le (k : Keeper) (slashing : Slashing)
    (earlier : List SlashCall) (bank : Bank) (call : SlashCall) :
    (executeSlash k slashing earlier bank call).supply bondDenom ≤
      bank.supply bondDenom := by
  unfold executeSlash
  cases hexec : bank.exec (.burn (bondedPool k)
      (coinsOf bondDenom (slashing.burned earlier call))) with
  | none => exact le_rfl
  | some bank' =>
      have hlaw := Ledger.exec_supply hexec bondDenom
      simp only [LedgerOp.minted, Nat.add_zero] at hlaw
      rw [Option.getD_some]
      omega

theorem executeSlashes_supply_le (k : Keeper) (slashing : Slashing)
    (earlier : List SlashCall) (bank : Bank) (calls : List SlashCall) :
    (executeSlashes k slashing earlier bank calls).supply bondDenom ≤
      bank.supply bondDenom := by
  induction calls generalizing earlier bank with
  | nil => exact le_rfl
  | cons call rest ih =>
      exact (ih _ _).trans (executeSlash_supply_le k slashing earlier bank call)

theorem executeSlashes_supply_of_zero_rates
    (k : Keeper) (slashing : Slashing) (earlier : List SlashCall)
    (bank : Bank) {calls : List SlashCall}
    (hzero : ∀ call ∈ calls, call.rate.raw = 0) :
    (executeSlashes k slashing earlier bank calls).supply bondDenom =
      bank.supply bondDenom := by
  induction calls generalizing earlier bank with
  | nil => rfl
  | cons call rest ih =>
      rw [executeSlashes, ih _ _ fun other hother => hzero other (by simp [hother])]
      unfold executeSlash
      rw [slashing.burned_zero_rate earlier call (hzero call (by simp))]
      cases hexec : bank.exec (.burn (bondedPool k) (coinsOf bondDenom 0)) with
      | none => rfl
      | some bank' =>
          have hlaw := Ledger.exec_supply hexec bondDenom
          simpa [LedgerOp.minted, LedgerOp.burned] using hlaw

/-- The base coins burned by the slashes of a step. -/
def slashBurned (k : Keeper) (entry : ChainState × ChainStep k) : ℕ :=
  match entry.2 with
  | .endBlock ctx staking slashing _ =>
      match Oracle.endBlocker k ctx staking entry.1.oracle with
      | .ok result =>
          entry.1.bank.supply bondDenom -
            (executeSlashes k slashing [] entry.1.bank result.2).supply
              bondDenom
      | .error _ => 0
  | _ => 0

/-! ## One step -/

/-- The base coins which are still there or on the books. -/
def booked (s : ChainState) : ℤ :=
  s.bank.supply bondDenom + (Fees.getCumulativeBurned s.fees).raw

theorem updateParams_frame
    (k : Keeper) (store : Fees.FeesStore) (msg : Fees.MsgUpdateParams) :
    Fees.getGenesisSupply (commitFees store (Fees.updateParams k store msg)) =
        Fees.getGenesisSupply store ∧
      Fees.getCumulativeBurned
          (commitFees store (Fees.updateParams k store msg)) =
        Fees.getCumulativeBurned store := by
  cases hupdate : Fees.updateParams k store msg with
  | error error => exact ⟨rfl, rfl⟩
  | ok store' =>
      simp only [Fees.updateParams, Fees.setParams, bind_eq_ok_iff,
        pure_eq_ok_iff] at hupdate
      rcases hupdate with ⟨-, -, -, -, -, -, rfl⟩
      exact ⟨rfl, rfl⟩

theorem endBlock_cases
    {k : Keeper} {ctx : Ctx} {staking : StakingView k.sdk}
    {slashing : Slashing} {accepts : BankOp → Bool} {s s' : ChainState}
    (hblock : endBlock k ctx staking slashing accepts s = .ok s') :
    ∃ result, Oracle.endBlocker k ctx staking s.oracle = .ok result ∧
      s'.rwa = s.rwa ∧
      Fees.Burned k ⟨s.fees, executeSlashes k slashing [] s.bank result.2⟩
        (feesStateOf s') := by
  simp only [endBlock, bind_eq_ok_iff, pure_eq_ok_iff] at hblock
  rcases hblock with ⟨result, hresult, fees, hfees, rfl⟩
  exact ⟨result, hresult, rfl, Fees.burned_of_endBlocker hfees⟩

/-- One step keeps the genesis supply, and the slashes of a block are the only
coins it loses track of. -/
theorem chainStep_booked
    {k : Keeper} {s s' : ChainState} {step : ChainStep k}
    (hstep : chainStep k s step = some s') (hapart : BaseApart s.rwa) :
    BaseApart s'.rwa ∧
      Fees.getGenesisSupply s'.fees = Fees.getGenesisSupply s.fees ∧
      booked s' + slashBurned k (s, step) = booked s := by
  cases step with
  | rwa ctx accepts tx =>
      simp only [chainStep, Option.some.injEq] at hstep
      have hrwa : Rwa.rwaStep k (rwaStateOf s) (envAt k s ctx accepts, tx) =
          some (Rwa.commit (rwaStateOf s)
            (Rwa.deliver k (envAt k s ctx accepts) (rwaStateOf s) tx)) := rfl
      rcases base_supply_of_rwaStep hrwa hapart with ⟨hapart', hsupply⟩
      subst hstep
      refine ⟨hapart', rfl, ?_⟩
      simp only [booked, slashBurned, hsupply, Nat.cast_zero, add_zero]
      rfl
  | setFeeder staking msg =>
      simp only [chainStep, Option.some.injEq] at hstep
      subst hstep
      exact ⟨hapart, rfl, by simp [slashBurned, booked]⟩
  | submitFeed ctx staking msg =>
      simp only [chainStep, Option.some.injEq] at hstep
      subst hstep
      exact ⟨hapart, rfl, by simp [slashBurned, booked]⟩
  | updateOracleParams msg =>
      simp only [chainStep, Option.some.injEq] at hstep
      subst hstep
      exact ⟨hapart, rfl, by simp [slashBurned, booked]⟩
  | updateFeesParams msg =>
      simp only [chainStep, Option.some.injEq] at hstep
      subst hstep
      rcases updateParams_frame k s.fees msg with ⟨hgenesis, hburned⟩
      exact ⟨hapart, hgenesis, by simp [slashBurned, booked, hburned]⟩
  | endBlock ctx staking slashing accepts =>
      rw [chainStep, toOption_eq_some_iff] at hstep
      rcases endBlock_cases hstep with ⟨result, hresult, hrwa, hburned⟩
      rcases hburned.supply with ⟨hgenesis, hsupply⟩
      have hle := executeSlashes_supply_le k slashing [] s.bank result.2
      refine ⟨by rw [hrwa]; exact hapart, hgenesis, ?_⟩
      have hsupply' : (s'.bank.supply bondDenom : ℤ) +
          (Fees.getCumulativeBurned s'.fees).raw =
            (executeSlashes k slashing [] s.bank result.2).supply bondDenom +
              (Fees.getCumulativeBurned s.fees).raw := hsupply
      simp only [slashBurned, hresult, booked]
      omega

/-! ## All runs -/

def totalSlashBurned (k : Keeper) (history : ChainHistory k) : ℕ :=
  (history.map (slashBurned k)).sum

theorem reconciled_of_initGenesis
    {k : Keeper} {bank : Bank} {gs : Fees.GenesisState}
    {store : Fees.FeesStore}
    (hinit : Fees.initGenesis k Fees.FeesStore.empty bank gs = .ok store) :
    Fees.Reconciled ⟨store, bank⟩ := by
  simp only [Fees.initGenesis, Fees.setParams, bind_eq_ok_iff,
    Exec.ofExcept_eq_ok_iff, pure_eq_ok_iff, mapError_eq_ok_iff,
    Fees.bankAmount_eq_ok_iff] at hinit
  rcases hinit with ⟨-, -, store', ⟨-, -, rfl⟩, supply, hsupply, rfl⟩
  simp [Fees.Reconciled, Fees.getGenesisSupply, Fees.setGenesisSupply,
    Fees.getCumulativeBurned, Fees.FeesStore.empty, hsupply, SdkInt.zero]

/-- The start of a chain without records in the base denomination. -/
theorem started_of_initChain
    {k : Keeper} {ctx : Ctx} {staking : StakingView k.sdk}
    {gs : ChainGenesis} {start : ChainState}
    (hinit : initChain k ctx staking gs = .ok start)
    (hdenoms : ∀ a ∈ gs.rwa.assets, a.denom ≠ bondDenom) :
    BaseApart start.rwa ∧ Fees.Reconciled (feesStateOf start) := by
  simp only [initChain, bind_eq_ok_iff, Exec.ofExcept_eq_ok_iff,
    pure_eq_ok_iff] at hinit
  rcases hinit with ⟨oracle, -, rwa, hrwa, fees, hfees, rfl⟩
  rcases Rwa.imported_of_initGenesis hrwa with ⟨hvalid, himported⟩
  refine ⟨?_, reconciled_of_initGenesis hfees⟩
  intro assetID rec hget
  exact hdenoms rec
    ((himported.assets_iff hvalid.assets_nodup assetID rec).mp hget).1

/-- The supply law of the chain: every base coin of genesis is in circulation,
in the burn record, or was burned by a slash. -/
theorem genesis_supply_accounted
    {k : Keeper} {ctx : Ctx} {staking : StakingView k.sdk}
    {gs : ChainGenesis} {start s : ChainState} {history : ChainHistory k}
    (hinit : initChain k ctx staking gs = .ok start)
    (hdenoms : ∀ a ∈ gs.rwa.assets, a.denom ≠ bondDenom)
    (hrun : Run (chainStep k) start history s) :
    (Fees.getGenesisSupply s.fees).raw =
      booked s + totalSlashBurned k history := by
  rcases started_of_initChain hinit hdenoms with ⟨hapart, hreconciled⟩
  have hall := Run.induct_conditional
    (P := fun history s => BaseApart s.rwa ∧
      (Fees.getGenesisSupply s.fees).raw =
        booked s + totalSlashBurned k history)
    (C := fun _ _ => True) ⟨hapart, ?_⟩ ?_ hrun (fun _ _ => trivial)
  · exact hall.2
  · have hstart : (Fees.getGenesisSupply start.fees).raw -
        start.bank.supply bondDenom =
          (Fees.getCumulativeBurned start.fees).raw := hreconciled
    simp only [booked, totalSlashBurned, List.map_nil, List.sum_nil]
    omega
  · rintro history state label state' - ⟨hstate, hsupply⟩ - hstep
    rcases chainStep_booked hstep hstate with ⟨hstate', hgenesis, hbooked⟩
    refine ⟨hstate', ?_⟩
    simp only [totalSlashBurned, List.map_cons, List.sum_cons] at hsupply ⊢
    rw [hgenesis, hsupply, ← hbooked]
    push_cast
    omega

/-- The reconcile equation is off by exactly the coins which slashes
burned. -/
theorem reconciled_iff_no_slash_burned
    {k : Keeper} {ctx : Ctx} {staking : StakingView k.sdk}
    {gs : ChainGenesis} {start s : ChainState} {history : ChainHistory k}
    (hinit : initChain k ctx staking gs = .ok start)
    (hdenoms : ∀ a ∈ gs.rwa.assets, a.denom ≠ bondDenom)
    (hrun : Run (chainStep k) start history s) :
    Fees.Reconciled (feesStateOf s) ↔ totalSlashBurned k history = 0 := by
  have hlaw := genesis_supply_accounted hinit hdenoms hrun
  have hequation : Fees.Reconciled (feesStateOf s) ↔
      (Fees.getGenesisSupply s.fees).raw - s.bank.supply bondDenom =
        (Fees.getCumulativeBurned s.fees).raw := Iff.rfl
  rw [hequation]
  simp only [booked] at hlaw
  omega

/-- A step which gives no reason for a slash at a positive rate. -/
def QuietStep (k : Keeper) (s : ChainState) : ChainStep k → Prop
  | .endBlock ctx staking _ _ => Oracle.QuietBlock k ctx staking s.oracle
  | _ => True

def ChainStep.isEndBlock {k : Keeper} : ChainStep k → Bool
  | .endBlock _ _ _ _ => true
  | _ => false

theorem quietStep_of_tx {k : Keeper} {s : ChainState} {step : ChainStep k}
    (htx : step.isEndBlock = false) : QuietStep k s step := by
  cases step with
  | endBlock => cases htx
  | _ => trivial

theorem QuietStep.slashBurned_eq_zero
    {k : Keeper} {s : ChainState} {step : ChainStep k}
    (hquiet : QuietStep k s step) : slashBurned k (s, step) = 0 := by
  cases step with
  | endBlock ctx staking slashing accepts =>
      simp only [slashBurned]
      cases hresult : Oracle.endBlocker k ctx staking s.oracle with
      | error failure => rfl
      | ok result =>
          simp only
          rw [executeSlashes_supply_of_zero_rates k slashing [] s.bank
            (Oracle.QuietBlock.zero_rates hquiet hresult), Nat.sub_self]
  | _ => rfl

/-- On every run from an accepted genesis whose records stay clear of the base
denomination and whose blocks give no reason for a slash, the reconcile
equation holds in the state reached. -/
theorem reconcile_holds_without_slashes
    {k : Keeper} {ctx : Ctx} {staking : StakingView k.sdk}
    {gs : ChainGenesis} {start s : ChainState} {history : ChainHistory k}
    (hinit : initChain k ctx staking gs = .ok start)
    (hdenoms : ∀ a ∈ gs.rwa.assets, a.denom ≠ bondDenom)
    (hrun : Run (chainStep k) start history s)
    (hquiet : ∀ entry ∈ history, QuietStep k entry.1 entry.2) :
    Fees.Reconciled (feesStateOf s) := by
  apply (reconciled_iff_no_slash_burned hinit hdenoms hrun).mpr
  apply List.sum_eq_zero
  intro burned hburned
  rcases List.mem_map.mp hburned with ⟨entry, hentry, rfl⟩
  exact (hquiet entry hentry).slashBurned_eq_zero

/-! ## Two validators -/

/-- Staking burns the slashed fraction of the tokens behind the power, one
million for each unit. -/
def fractionSlashing : Slashing where
  burned _ call := (call.power.toInt * 10 ^ 6 * call.rate.raw / 10 ^ 18).toNat
  burned_zero_rate := by
    intro earlier call hzero
    simp [hzero]

/-- The stake of two validators and the coins of one account. -/
def stakedBank : Bank where
  balance account denom :=
    if denom = bondDenom then
      if account = bondedPool referenceKeeper then 20000000
      else if account = addressOf 1 then 1000 else 0
    else 0
  supply denom := if denom = bondDenom then 20001000 else 0

def stakedGenesis : ChainGenesis :=
  ⟨Oracle.singlePairGenesis, Rwa.defaultGenesis, Fees.defaultGenesis,
    stakedBank⟩

/-- A fee of one hundred coins and two feeds. -/
def feedTxs (first second : String) : List (ChainStep referenceKeeper) :=
  [.rwa Oracle.boundaryCtx (fun _ => true)
      (.payFee (addressOf 1) [("uvtx", 100)]),
    .submitFeed Oracle.boundaryCtx twoValidators (Oracle.firstFeed first),
    .submitFeed Oracle.boundaryCtx twoValidators (Oracle.secondFeed second)]

/-- The end of a block which closes a vote window. -/
def closeWindow : ChainStep referenceKeeper :=
  .endBlock Oracle.boundaryCtx twoValidators fractionSlashing (fun _ => true)

def runStaked (steps : List (ChainStep referenceKeeper)) :
    Option (ChainState × ChainHistory referenceKeeper × ChainState) :=
  (initChain referenceKeeper Oracle.boundaryCtx twoValidators
    stakedGenesis).toOption.bind fun start =>
      (replay (chainStep referenceKeeper) [] start steps).map
        fun run => (start, run)

theorem run_of_runStaked {steps : List (ChainStep referenceKeeper)}
    {start s : ChainState} {history : ChainHistory referenceKeeper}
    (hrun : runStaked steps = some (start, history, s)) :
    initChain referenceKeeper Oracle.boundaryCtx twoValidators
        stakedGenesis = .ok start ∧
      Run (chainStep referenceKeeper) start history s := by
  simp only [runStaked, Option.bind_eq_some_iff, Option.map_eq_some_iff,
    toOption_eq_some_iff, Prod.mk.injEq] at hrun
  rcases hrun with ⟨store, hinit, run, hreplay, rfl, rfl, rfl⟩
  exact ⟨hinit, run_of_replay Run.start hreplay⟩

/-- Two validators agree, the window closes, and the burned share of the fee
accounts for the whole change of the supply. -/
theorem agreeing_feeds_reconcile :
    ∃ start history s,
      initChain referenceKeeper Oracle.boundaryCtx twoValidators
          stakedGenesis = .ok start ∧
        Run (chainStep referenceKeeper) start history s ∧
        s.bank.supply "uvtx" = 20000960 ∧
        Fees.Reconciled (feesStateOf s) := by
  have hfacts : (runStaked (feedTxs "1.0" "1.0")).any (fun r =>
      r.2.1.all (fun entry => !entry.2.isEndBlock) &&
        (Oracle.openWindow referenceKeeper.sdk Oracle.boundaryCtx
          twoValidators (Oracle.getParams r.2.2.oracle)).toOption.any
            (fun w => decide (w.SlashFree r.2.2.oracle)) &&
        (chainStep referenceKeeper r.2.2 closeWindow).any (fun s =>
          s.bank.supply "uvtx" == 20000960)) = true := by
    decide +kernel
  rcases exists_some_of_any hfacts with ⟨⟨start, history, s⟩, hrun, hchecked⟩
  simp only [Bool.and_eq_true] at hchecked
  rcases hchecked with ⟨⟨htxs, hwindow⟩, hclosed⟩
  rcases exists_ok_of_any hwindow with ⟨w, hopen, hfree⟩
  rcases exists_some_of_any hclosed with ⟨s', hstep, hsupply⟩
  rcases run_of_runStaked hrun with ⟨hinit, hreached⟩
  refine ⟨start, _, s', hinit, Run.next hreached hstep, by simpa using hsupply,
    reconcile_holds_without_slashes hinit ?_ (Run.next hreached hstep) ?_⟩
  · simp [stakedGenesis, Rwa.defaultGenesis]
  · simp only [List.forall_mem_cons]
    constructor
    · intro _ w' hopen'
      have hsame : w = w' := Except.ok.inj (hopen.symm.trans hopen')
      rw [← hsame]
      exact of_decide_eq_true hfree
    · intro entry hentry
      rw [List.all_eq_true] at htxs
      exact quietStep_of_tx (by simpa using htxs entry hentry)

/-- The second feed is twenty percent away from the median.  Its validator is
slashed, and the coins burned for it are in no book. -/
theorem outlier_slash_breaks_reconcile :
    ∃ start history s,
      initChain referenceKeeper Oracle.boundaryCtx twoValidators
          stakedGenesis = .ok start ∧
        Run (chainStep referenceKeeper) start history s ∧
        (Fees.getGenesisSupply s.fees).raw = 20001000 ∧
        s.bank.supply "uvtx" = 19900960 ∧
        (Fees.getCumulativeBurned s.fees).raw = 40 ∧
        ¬ Fees.Reconciled (feesStateOf s) := by
  have hfacts : (runStaked (feedTxs "1.0" "1.2" ++ [closeWindow])).any
      (fun r => decide ((Fees.getGenesisSupply r.2.2.fees).raw = 20001000) &&
        r.2.2.bank.supply "uvtx" == 19900960 &&
        decide ((Fees.getCumulativeBurned r.2.2.fees).raw = 40)) = true := by
    decide +kernel
  rcases exists_some_of_any hfacts with ⟨⟨start, history, s⟩, hrun, hchecked⟩
  simp only [Bool.and_eq_true, beq_iff_eq, decide_eq_true_eq] at hchecked
  rcases hchecked with ⟨⟨hgenesis, hsupply⟩, hburned⟩
  rcases run_of_runStaked hrun with ⟨hinit, hreached⟩
  refine ⟨start, history, s, hinit, hreached, hgenesis, hsupply, hburned, ?_⟩
  intro hreconciled
  have hequation : (Fees.getGenesisSupply s.fees).raw -
      s.bank.supply "uvtx" = (Fees.getCumulativeBurned s.fees).raw :=
    hreconciled
  rw [hgenesis, hsupply, hburned] at hequation
  norm_num at hequation

end Chain
end Vertix

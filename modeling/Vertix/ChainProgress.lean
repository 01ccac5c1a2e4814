import Vertix.ChainAttestation
import Vertix.ChainFeesAccount
import Vertix.FeesSplit
import Vertix.RwaFeeSweep
import Mathlib.Tactic

/-!
# The block hooks never fail

A block is lost for good when a hook at its start or its end fails, so a step
without result stops the chain.  At the start `x/distribution` sends the
contents of the fee collector to its own account, and the transfer
restrictions of the rwa module may reject that.  At the end the oracle divides
the distance of a price from the median by the median, which may leave the
range of the decimals, and the fees module adds to its burn record.  While the
transactions respect the restrictions of units in the fee collector, every
submitted price is below `2 ^ 255` units of the last decimal place, and the
base supply is below `2 ^ 255`, all three hooks complete in every state that
the chain reaches.  The hooks of the other modules are not modelled.
-/

namespace Vertix

/-- The staking getters answer, with powers far below the integer range. -/
structure StakingView.Bounded {sdk : Sdk} (staking : StakingView sdk) :
    Prop where
  validators : ∃ vals, staking.bondedValidatorsByPower = .ok vals ∧
    staking.bondedPower vals < 2 ^ 60
  total : ∃ totalPower, staking.lastTotalPower = .ok totalPower ∧
    totalPower.raw < 2 ^ 60

namespace Oracle

/-- The text is no price, or a price below `2 ^ 255` units. -/
def TamePrice (sdk : Sdk) (text : String) : Prop :=
  ∀ price, sdk.legacyNewDecFromStr text = .ok price → price.raw < 2 ^ 255

def FeedsTame (sdk : Sdk) (store : OracleStore) : Prop :=
  ∀ val pair feed, store.get (.feed val pair) = some (.feed feed) →
    TamePrice sdk feed.price

theorem representableDeviation_of_lt {price ref : LegacyDec}
    (hprice : 0 < price.raw) (href : 0 < ref.raw)
    (hpriceLt : price.raw < 2 ^ 255) (hrefLt : ref.raw < 2 ^ 255) :
    RepresentableDeviation price ref := by
  have hdistance : (price.raw - ref.raw).natAbs ≤ 2 ^ 255 := by omega
  have hunit : 1 ≤ ref.raw.natAbs := by omega
  calc 2 * (price.raw - ref.raw).natAbs * 10 ^ 18
      ≤ 2 * 2 ^ 255 * 10 ^ 18 := by gcongr
    _ < 1 * (2 * (2 ^ 256 * 10 ^ 18) - 1) := by norm_num
    _ ≤ ref.raw.natAbs * (2 * (2 ^ 256 * 10 ^ 18) - 1) := by gcongr

theorem countedFeeds_tame {sdk : Sdk} {w : Window sdk} {store : OracleStore}
    (htame : FeedsTame sdk store) {pair : String} {f : WeightedPrice}
    (hf : f ∈ w.countedFeeds store pair) :
    0 < f.price.raw ∧ f.price.raw < 2 ^ 255 := by
  obtain ⟨val, feed, hget, hparsed, hpos, -⟩ :=
    Window.mem_countedFeeds_iff.mp hf
  exact ⟨hpos, htame val pair feed hget f.price hparsed⟩

/-- The reference median is one of the counted prices, so no deviation of the
window overflows. -/
theorem Window.pairCompletes_of_tame {sdk : Sdk} {w : Window sdk}
    {store : OracleStore} (htame : FeedsTame sdk store) (pair : String) :
    w.PairCompletes store pair := by
  intro _ f hf
  have hne : (w.countedFeeds store pair).map WeightedPrice.price ≠ [] := by
    simp [List.ne_nil_of_mem hf]
  obtain ⟨g, hg, hmedian⟩ := List.mem_map.mp (unweightedMedian_mem hne)
  obtain ⟨hpos, hlt⟩ := countedFeeds_tame htame hf
  obtain ⟨hgpos, hglt⟩ := countedFeeds_tame htame hg
  rw [← hmedian]
  exact representableDeviation_of_lt hpos hgpos hlt hglt

theorem exists_endBlocker_of_tame
    {k : Keeper} {staking : StakingView k.sdk} {store : OracleStore}
    (hparams : (getParams store).Valid k.sdk)
    (htame : FeedsTame k.sdk store) (hstaking : staking.Bounded) (ctx : Ctx) :
    ∃ result, endBlocker k ctx staking store = .ok result := by
  obtain ⟨vals, hvals, hbonded⟩ := hstaking.validators
  obtain ⟨totalPower, htotal, hbound⟩ := hstaking.total
  have hwindow : (getParams store).voteWindow ≠ 0 := by
    intro hzero
    have hpos := hparams.voteWindow_pos
    rw [hzero] at hpos
    exact absurd hpos (by decide)
  by_cases hheight : ctx.blockHeight % (getParams store).voteWindow = 0
  · obtain ⟨w, hopen, hwvals, hwtotal⟩ :=
      exists_openWindow ctx staking hvals htotal hparams
    obtain ⟨-, hstakingEq, hwparams, -⟩ := openWindow_eq_ok_iff.mp hopen
    have hcall : endBlocker k ctx staking store = w.close store := by
      simp [endBlocker, hwindow, hheight, hopen, Exec.ofExcept, bind,
        Except.bind]
    rw [hcall]
    refine (Window.close_completes_iff ?_ ?_ ?_ ?_ store).mpr
      fun pair _ => Window.pairCompletes_of_tame htame pair
    · rw [hwparams]
      exact hparams.missWindowSize_pos
    · rw [hstakingEq, hwvals]
      exact hbonded
    · rw [hwtotal]
      exact staking.totalPower_nonneg _ htotal
    · rw [hwtotal]
      exact hbound
  · exact ⟨_, endBlocker_of_not_boundary hwindow hheight⟩

theorem FeedsTame.step
    {k : Keeper} {store store' : OracleStore} {step : OracleStep k}
    (htame : FeedsTame k.sdk store)
    (hprice : ∀ ctx staking msg, step = .submitFeed ctx staking msg →
      TamePrice k.sdk msg.price)
    (hstep : oracleStep k store step = some store') :
    FeedsTame k.sdk store' := by
  intro val pair feed hget
  cases effect_of_step hstep with
  | unchanged => exact htame val pair feed hget
  | delegated =>
      rw [get_writeFeederDelegation] at hget
      exact htame val pair feed (by simpa using hget)
  | fed hval hpositive =>
      rw [get_writeFeed] at hget
      split_ifs at hget
      · cases hget
        exact hprice _ _ _ rfl
      · exact htame val pair feed hget
  | reparametrized changed =>
      rw [get_updatedParams_of_ne store changed _ (by simp)
        (by simp [OracleKey.IsCounter])] at hget
      exact htame val pair feed hget
  | closed hboundary hopen hclosed =>
      rw [hclosed.cleared] at hget
      cases hget

end Oracle

namespace Fees

open Rwa (RwaStore feeCollector)

/-- A burn that the bank refuses is skipped, so only the burn record can stop
the split. -/
theorem exists_burnFees
    {k : Keeper} {env : Rwa.Env} {rwa : RwaStore} {s : FeesState}
    {amount : SdkInt} (hamount : 0 ≤ amount.raw)
    (hfits : ((getCumulativeBurned s.store).raw + amount.raw).natAbs <
      2 ^ 256) :
    ∃ s', burnFees k env rwa s amount = .ok s' := by
  have hcoins : Rwa.newCoins feeDenom amount =
      .ok (Rwa.coinsOf feeDenom amount.raw.toNat) :=
    Rwa.newCoins_eq_ok_iff.mpr ⟨hamount, rfl⟩
  obtain ⟨total, -, hrecord⟩ := addCumulativeBurned_eq_ok hfits
  simp only [burnFees, hcoins, bind, Except.bind]
  split
  · exact ⟨_, rfl⟩
  · split
    · exact ⟨_, rfl⟩
    · rw [hrecord]
      exact ⟨_, rfl⟩

theorem exists_endBlocker
    {k : Keeper} (env : Rwa.Env) (rwa : RwaStore) {s : FeesState}
    {holders : Finset Address} (hparams : (getParams s.store).Valid k.sdk)
    (hheld : s.bank.HeldBy feeDenom holders)
    (hburned : 0 ≤ (getCumulativeBurned s.store).raw)
    (hsmall : s.bank.supply feeDenom + (getCumulativeBurned s.store).raw <
      2 ^ 255) :
    ∃ s', endBlocker k env rwa s = .ok s' := by
  obtain ⟨burn, distr, hburn, -, hburnPos, hdistrPos, hsum⟩ := hparams.ratios
  have hone : legacyOneDec.raw = 10 ^ 18 := rfl
  have hcollected : s.bank.balance (feeCollector k) feeDenom ≤
      s.bank.supply feeDenom := hheld.balance_le _
  have hshare : s.bank.balance (feeCollector k) feeDenom *
      burn.raw.toNat / 10 ^ 18 ≤ s.bank.balance (feeCollector k) feeDenom := by
    apply Nat.div_le_of_le_mul
    rw [Nat.mul_comm]
    exact Nat.mul_le_mul_right _ (by omega)
  obtain ⟨share, hshareEq⟩ : ∃ share, share =
      s.bank.balance (feeCollector k) feeDenom * burn.raw.toNat / 10 ^ 18 :=
    ⟨_, rfl⟩
  rw [← hshareEq] at hshare
  have hbounded : (share : ℤ).natAbs < 2 ^ 256 := by omega
  rw [endBlocker_eq ⟨share, hbounded⟩ hburn hburnPos (by omega) (by omega)
    (congrArg Nat.cast hshareEq)]
  split_ifs
  · exact ⟨s, rfl⟩
  · have hfits : ((getCumulativeBurned s.store).raw + (share : ℤ)).natAbs <
        2 ^ 256 := by omega
    exact exists_burnFees (Int.natCast_nonneg share) hfits

/-- The split never touches the parameters and never takes back a burn. -/
theorem Burned.kept {k : Keeper} {s s' : FeesState}
    (hburned : Burned k s s') :
    getParams s'.store = getParams s.store ∧
      (getCumulativeBurned s.store).raw ≤
        (getCumulativeBurned s'.store).raw := by
  cases hburned with
  | nothing => exact ⟨rfl, le_rfl⟩
  | moved => exact ⟨rfl, le_rfl⟩
  | @burned amount total bank hamount htotal hbank =>
      refine ⟨rfl, ?_⟩
      change _ ≤ total.raw
      omega

end Fees

namespace Chain

open Transition
open Rwa (Bank BankOp Holds KeepsSweep Sweepable bondDenom buildDenom coinsOf
  distributionAccount feeCollector sweepAllowed_iff)
open Fees (feeDenom)
open Oracle (SlashCall)

/-- What the environment owes to the chain: prices in range, and staking
getters that answer. -/
def ChainStep.Tame {k : Keeper} : ChainStep k → Prop
  | .submitFeed _ _ msg => Oracle.TamePrice k.sdk msg.price
  | .endBlock _ staking _ _ => staking.Bounded
  | _ => True

/-- The books from which the next block can be computed. -/
structure Running (k : Keeper) (s : ChainState) : Prop where
  oracle_sound : Oracle.Sound k.sdk s.oracle
  feeds_tame : Oracle.FeedsTame k.sdk s.oracle
  fees_valid : (Fees.getParams s.fees).Valid k.sdk
  apart : BaseApart s.rwa
  held : ∃ holders, s.bank.HeldBy feeDenom holders
  burned_nonneg : 0 ≤ (Fees.getCumulativeBurned s.fees).raw
  capped : booked s < 2 ^ 255

section steps

variable {k : Keeper} {s s' : ChainState} {step : ChainStep k}

/-- The EndBlockers complete. -/
theorem Running.exists_endBlock (hrunning : Running k s)
    {staking : StakingView k.sdk} (hstaking : staking.Bounded) (ctx : Ctx)
    (slashing : Slashing) (accepts : BankOp → Bool) :
    ∃ s', endBlock k ctx staking slashing accepts s = .ok s' := by
  obtain ⟨result, hresult⟩ := Oracle.exists_endBlocker_of_tame
    hrunning.oracle_sound.params_valid hrunning.feeds_tame hstaking ctx
  obtain ⟨holders, hheld⟩ := hrunning.held
  obtain ⟨holders', hslashed⟩ :=
    (executeSlashes_feesAccount k slashing [] s.bank result.2).2 holders hheld
  have hsupply := executeSlashes_supply_le k slashing [] s.bank result.2
  have hcapped := hrunning.capped
  obtain ⟨fees, hfees⟩ := Fees.exists_endBlocker
    (s := ⟨s.fees, executeSlashes k slashing [] s.bank result.2⟩)
    (envAt k s ctx accepts) s.rwa hrunning.fees_valid hslashed
    hrunning.burned_nonneg (by
      simp only [booked, bondDenom, feeDenom] at hcapped hsupply ⊢
      omega)
  refine ⟨⟨result.1, s.rwa, fees.store, fees.bank⟩, ?_⟩
  simp [endBlock, hresult, hfees, bind, pure, Except.bind, Except.pure]

theorem Running.oracle_step (hrunning : Running k s) (htame : step.Tame)
    (hstep : chainStep k s step = some s') :
    Oracle.Sound k.sdk s'.oracle ∧ Oracle.FeedsTame k.sdk s'.oracle := by
  rcases chainStep_cases hstep with ⟨ctx, accepts, tx, -, hsame, -⟩ |
    ⟨part, hpart, -, hmoved⟩ | ⟨hsame, -⟩
  · rw [hsame]
    exact ⟨hrunning.oracle_sound, hrunning.feeds_tame⟩
  · refine ⟨hrunning.oracle_sound.effect (Oracle.effect_of_step hmoved),
      hrunning.feeds_tame.step ?_ hmoved⟩
    rintro ctx staking msg rfl
    cases step <;> simp_all [ChainStep.oraclePart, ChainStep.Tame]
  · rw [hsame]
    exact ⟨hrunning.oracle_sound, hrunning.feeds_tame⟩

theorem chainStep_held {holders : Finset Address}
    (hheld : s.bank.HeldBy feeDenom holders)
    (hstep : chainStep k s step = some s') :
    ∃ holders', s'.bank.HeldBy feeDenom holders' := by
  cases step with
  | rwa ctx accepts tx =>
      have hrwa : Rwa.rwaStep k (rwaStateOf s) (envAt k s ctx accepts, tx) =
          some (rwaStateOf s') := by
        cases hstep
        rfl
      rcases Rwa.rwaStep_cases hrwa with ⟨-, -, hsame⟩ | ⟨-, -, haccepted⟩
      · have hbank : s'.bank = s.bank := congrArg Rwa.RwaState.bank hsame
        exact ⟨holders, hbank ▸ hheld⟩
      · obtain ⟨ops, hbank⟩ := haccepted.exec_bank
        exact Ledger.execAll_heldBy hbank hheld
  | setFeeder staking msg =>
      cases hstep
      exact ⟨holders, hheld⟩
  | submitFeed ctx staking msg =>
      cases hstep
      exact ⟨holders, hheld⟩
  | updateOracleParams msg =>
      cases hstep
      exact ⟨holders, hheld⟩
  | updateFeesParams msg =>
      cases hstep
      exact ⟨holders, hheld⟩
  | endBlock ctx staking slashing accepts =>
      rw [chainStep, toOption_eq_some_iff] at hstep
      obtain ⟨result, -, -, hburned⟩ := endBlock_cases hstep
      obtain ⟨holders', hslashed⟩ :=
        (executeSlashes_feesAccount k slashing [] s.bank result.2).2 holders
          hheld
      exact heldBy_of_burned hburned hslashed

theorem Running.fees_step (hrunning : Running k s)
    (hstep : chainStep k s step = some s') :
    (Fees.getParams s'.fees).Valid k.sdk ∧
      0 ≤ (Fees.getCumulativeBurned s'.fees).raw := by
  have hvalid := hrunning.fees_valid
  have hnonneg := hrunning.burned_nonneg
  cases step with
  | rwa ctx accepts tx =>
      cases hstep
      exact ⟨hvalid, hnonneg⟩
  | setFeeder staking msg =>
      cases hstep
      exact ⟨hvalid, hnonneg⟩
  | submitFeed ctx staking msg =>
      cases hstep
      exact ⟨hvalid, hnonneg⟩
  | updateOracleParams msg =>
      cases hstep
      exact ⟨hvalid, hnonneg⟩
  | updateFeesParams msg =>
      cases hstep
      obtain ⟨hparams, hburned⟩ := Fees.applyUpdates_kept hvalid [msg]
      exact ⟨hparams, by rw [← hburned] at hnonneg; exact hnonneg⟩
  | endBlock ctx staking slashing accepts =>
      rw [chainStep, toOption_eq_some_iff] at hstep
      obtain ⟨result, -, -, hburned⟩ := endBlock_cases hstep
      obtain ⟨hparams, hgrown⟩ := hburned.kept
      exact ⟨hparams ▸ hvalid, hnonneg.trans hgrown⟩

theorem Running.next (hrunning : Running k s) (htame : step.Tame)
    (hstep : chainStep k s step = some s') : Running k s' := by
  obtain ⟨hsound, hfeeds⟩ := hrunning.oracle_step htame hstep
  obtain ⟨hvalid, hburned⟩ := hrunning.fees_step hstep
  obtain ⟨hapart, -, hbooked⟩ := chainStep_booked hstep hrunning.apart
  obtain ⟨holders, hheld⟩ := hrunning.held
  refine ⟨hsound, hfeeds, hvalid, hapart, chainStep_held hheld hstep, hburned,
    ?_⟩
  have hcapped := hrunning.capped
  omega

end steps

theorem running_of_initChain
    {k : Keeper} {ctx : Ctx} {staking : StakingView k.sdk}
    {gs : ChainGenesis} {start : ChainState} {holders : Finset Address}
    (hinit : initChain k ctx staking gs = .ok start)
    (hdenoms : ∀ a ∈ gs.rwa.assets, a.denom ≠ bondDenom)
    (hheld : gs.bank.HeldBy feeDenom holders)
    (hsmall : gs.bank.supply feeDenom < 2 ^ 255) : Running k start := by
  have hapart := (started_of_initChain hinit hdenoms).1
  simp only [initChain, bind_eq_ok_iff, Exec.ofExcept_eq_ok_iff,
    pure_eq_ok_iff] at hinit
  obtain ⟨oracle, horacle, rwa, -, fees, hfees, rfl⟩ := hinit
  simp only [Fees.initGenesis, Fees.setParams, bind_eq_ok_iff,
    Exec.ofExcept_eq_ok_iff, pure_eq_ok_iff] at hfees
  obtain ⟨-, -, store, ⟨checked, hchecked, rfl⟩, supply, -, rfl⟩ := hfees
  refine ⟨Oracle.sound_of_initGenesis horacle, ?_,
    Fees.FeesParams.validate_eq_ok_iff.mp hchecked, hapart, ⟨holders, hheld⟩,
    le_rfl, ?_⟩
  · intro val pair feed hget
    rw [(Oracle.imported_of_initGenesis horacle).no_feeds] at hget
    cases hget
  · have hunburned : (Fees.getCumulativeBurned (Fees.setGenesisSupply
        { Fees.FeesStore.empty with params := some gs.fees.params }
        supply)).raw = 0 := rfl
    rw [booked, hunburned]
    exact_mod_cast hsmall

/-! ## The start of a block -/

/-- The coins of the fee collector as the bank lists them: coins that it
holds, with their whole balances, and no denomination twice. -/
structure FeeListing (k : Keeper) where
  coins : Bank → CoinList String
  held : ∀ bank, Holds bank (feeCollector k) (coins bank)
  distinct : ∀ bank, ((coins bank).map Prod.fst).Nodup

/-- From the second block on `x/distribution` empties the fee collector; an
error halts the chain. -/
def beginBlock (k : Keeper) (listing : FeeListing k) (ctx : Ctx)
    (accepts : BankOp → Bool) (s : ChainState) : Except SdkError ChainState :=
  if ctx.blockHeight ≤ 1 then .ok s
  else do
    let bank ← Fees.sendCoinsFromModuleToModule k (envAt k s ctx accepts)
      s.rwa s.bank Rwa.feeCollectorName Rwa.distributionName
      (listing.coins s.bank)
    return { s with bank := bank }

inductive BlockStep (k : Keeper) where
  | start (ctx : Ctx) (accepts : BankOp → Bool)
  | inside (step : ChainStep k)

def blockStep (k : Keeper) (listing : FeeListing k) (s : ChainState) :
    BlockStep k → Option ChainState
  | .start ctx accepts => (beginBlock k listing ctx accepts s).toOption
  | .inside step => chainStep k s step

/-- A delivered transaction respects the restrictions of the units in the fee
collector, and the other steps are tame. -/
def BlockStep.Respects {k : Keeper} (s : ChainState) : BlockStep k → Prop
  | .start _ _ => True
  | .inside (.rwa ctx accepts tx) =>
      Rwa.delivered k (rwaStateOf s, (envAt k s ctx accepts, tx)) = true →
        KeepsSweep k (rwaStateOf s) tx
  | .inside step => step.Tame

theorem covers_of_holds {bank : Bank} {account : Address}
    {coins : CoinList String} (hheld : Holds bank account coins)
    (hdistinct : (coins.map Prod.fst).Nodup) :
    bank.Covers account coins := by
  intro denom
  induction coins with
  | nil => exact Nat.zero_le _
  | cons coin rest ih =>
      rw [List.map_cons, List.nodup_cons] at hdistinct
      rw [amountOf_cons]
      by_cases hdenom : coin.1 = denom
      · have hexact := (hheld coin List.mem_cons_self).2
        rw [if_pos hdenom, amountOf_eq_zero_of_notMem (hdenom ▸ hdistinct.1),
          ← hdenom]
        omega
      · rw [if_neg hdenom, Nat.zero_add]
        exact ih (fun other hother =>
          hheld other (List.mem_cons_of_mem _ hother)) hdistinct.2

section Blocks

variable {k : Keeper} {listing : FeeListing k} {s s' : ChainState}

theorem exists_beginBlock (hsweepable : Sweepable k (rwaStateOf s)) (ctx : Ctx)
    {accepts : BankOp → Bool} (haccepts : ∀ op, accepts op = true) :
    ∃ s', beginBlock k listing ctx accepts s = .ok s' := by
  have hheld := listing.held s.bank
  have hrestriction := sweepAllowed_iff.mpr hsweepable _ hheld
  obtain ⟨bank, hexec⟩ := Ledger.exists_exec_send_iff_covers.mpr (show
    s.bank.Covers (feeCollector k) (outputCoins
      [(distributionAccount k, listing.coins s.bank)]) by
    rw [outputCoins_single]
    exact covers_of_holds hheld (listing.distinct s.bank))
  have hsent : Fees.sendCoinsFromModuleToModule k (envAt k s ctx accepts)
      s.rwa s.bank Rwa.feeCollectorName Rwa.distributionName
      (listing.coins s.bank) = .ok bank := by
    refine Rwa.sendCoins_eq_ok_iff.mpr ⟨?_, haccepts _, hexec⟩
    intro output houtput
    obtain rfl := List.mem_singleton.mp houtput
    exact (Rwa.sendRestriction_eq_ok_iff.mp hrestriction).2
  unfold beginBlock
  split_ifs
  · exact ⟨s, rfl⟩
  · exact ⟨{ s with bank := bank }, by rw [hsent]; rfl⟩

/-- The start of a block changes the bank only, by at most one send from the
fee collector to the distribution account. -/
theorem beginBlock_cases {ctx : Ctx} {accepts : BankOp → Bool}
    (hbegin : beginBlock k listing ctx accepts s = .ok s') :
    ∃ bank, s' = { s with bank := bank } ∧ (bank = s.bank ∨
      s.bank.execAll [.send (feeCollector k)
        [(distributionAccount k, listing.coins s.bank)]] = some bank) := by
  unfold beginBlock at hbegin
  split_ifs at hbegin
  · cases hbegin
    exact ⟨s.bank, rfl, .inl rfl⟩
  · simp only [bind_eq_ok_iff, pure_eq_ok_iff] at hbegin
    obtain ⟨bank, hsent, rfl⟩ := hbegin
    exact ⟨bank, rfl,
      .inr (Ledger.execAll_one (Rwa.sendCoins_eq_ok_iff.mp hsent).2.2)⟩

theorem Running.start (hrunning : Running k s) {ctx : Ctx}
    {accepts : BankOp → Bool}
    (hbegin : beginBlock k listing ctx accepts s = .ok s') :
    Running k s' := by
  obtain ⟨bank, rfl, hbank⟩ := beginBlock_cases hbegin
  rcases hbank with rfl | hbank
  · exact hrunning
  · obtain ⟨holders, hheld⟩ := hrunning.held
    have hsupply := Ledger.execAll_supply hbank bondDenom
    have hcapped := hrunning.capped
    refine ⟨hrunning.oracle_sound, hrunning.feeds_tame, hrunning.fees_valid,
      hrunning.apart, Ledger.execAll_heldBy hbank hheld,
      hrunning.burned_nonneg, ?_⟩
    simp only [List.map_cons, List.map_nil, List.sum_cons, List.sum_nil,
      LedgerOp.burned, LedgerOp.minted] at hsupply
    simp only [booked] at hcapped ⊢
    omega

theorem sweepable_beginBlock (hsweepable : Sweepable k (rwaStateOf s))
    {ctx : Ctx} {accepts : BankOp → Bool}
    (hbegin : beginBlock k listing ctx accepts s = .ok s') :
    Sweepable k (rwaStateOf s') := by
  obtain ⟨bank, rfl, hbank⟩ := beginBlock_cases hbegin
  rcases hbank with rfl | hbank
  · exact hsweepable
  · refine hsweepable.of_no_inflow hbank (fun assetID => ?_) fun _ _ h => h
    simp [LedgerOp.inflow, Fees.feeCollector_ne_distributionAccount k]

theorem executeSlashes_balance_le (k : Keeper) (slashing : Slashing)
    (earlier : List SlashCall) (bank : Bank) (calls : List SlashCall)
    (account : Address) (denom : String) :
    (executeSlashes k slashing earlier bank calls).balance account denom ≤
      bank.balance account denom := by
  induction calls generalizing earlier bank with
  | nil => exact le_rfl
  | cons call rest ih =>
      refine (ih _ _).trans ?_
      unfold executeSlash
      cases hexec : bank.exec (.burn (bondedPool k)
          (coinsOf bondDenom (slashing.burned earlier call))) with
      | none => exact le_rfl
      | some bank' =>
          have hlaw := Ledger.exec_balance hexec account denom
          simp only [LedgerOp.inflow] at hlaw
          simp only [Option.getD_some]
          omega

theorem burned_collector_le {f f' : Fees.FeesState}
    (hburned : Fees.Burned k f f') (denom : String) :
    f'.bank.balance (feeCollector k) denom ≤
      f.bank.balance (feeCollector k) denom := by
  have hfees : feeCollector k ≠ Fees.feesAccount k :=
    (feesAccount_ne (by decide) (by decide)).symm
  cases hburned with
  | nothing => exact le_rfl
  | moved hbank =>
      have hle := Ledger.execAll_balance_le hbank (feeCollector k) denom
      simpa [LedgerOp.inflow, hfees] using hle
  | burned hamount htotal hbank =>
      have hle := Ledger.execAll_balance_le hbank (feeCollector k) denom
      simpa [LedgerOp.inflow, hfees] using hle

theorem sweepable_chainStep (hsweepable : Sweepable k (rwaStateOf s))
    {step : ChainStep k} (hrespects : (BlockStep.inside step).Respects s)
    (hstep : chainStep k s step = some s') :
    Sweepable k (rwaStateOf s') := by
  cases step with
  | rwa ctx accepts tx =>
      have hrwa : Rwa.rwaStep k (rwaStateOf s) (envAt k s ctx accepts, tx) =
          some (rwaStateOf s') := by
        cases hstep
        rfl
      exact (Rwa.rwaStep_sweepable_iff hrwa hsweepable).mpr hrespects
  | setFeeder staking msg =>
      cases hstep
      exact hsweepable
  | submitFeed ctx staking msg =>
      cases hstep
      exact hsweepable
  | updateOracleParams msg =>
      cases hstep
      exact hsweepable
  | updateFeesParams msg =>
      cases hstep
      exact hsweepable
  | endBlock ctx staking slashing accepts =>
      rw [chainStep, toOption_eq_some_iff] at hstep
      obtain ⟨result, -, hrwa, hburned⟩ := endBlock_cases hstep
      refine hsweepable.of_le (fun assetID => ?_) fun _ _ heligible => ?_
      · exact (burned_collector_le hburned _).trans
          (executeSlashes_balance_le k slashing [] s.bank result.2 _ _)
      · change Rwa.Eligible s'.rwa _ _
        rw [hrwa]
        exact heligible

/-- The books are in order and the fee collector can be emptied. -/
structure Producing (k : Keeper) (s : ChainState) : Prop where
  running : Running k s
  sweepable : Sweepable k (rwaStateOf s)

theorem BlockStep.Respects.tame {step : ChainStep k}
    (hrespects : (BlockStep.inside step).Respects s) : step.Tame := by
  cases step with
  | rwa => trivial
  | _ => exact hrespects

theorem Producing.next (hproducing : Producing k s) {step : BlockStep k}
    (hrespects : step.Respects s)
    (hstep : blockStep k listing s step = some s') : Producing k s' := by
  cases step with
  | start ctx accepts =>
      rw [blockStep, toOption_eq_some_iff] at hstep
      exact ⟨hproducing.running.start hstep,
        sweepable_beginBlock hproducing.sweepable hstep⟩
  | inside step =>
      exact ⟨hproducing.running.next hrespects.tame hstep,
        sweepable_chainStep hproducing.sweepable hrespects hstep⟩

end Blocks

/-- Take a run of block starts, transactions and block ends from a genesis
whose base coins are accounted for, number less than `2 ^ 255` and are the
denomination of no asset, and whose fee collector can be emptied.  If the
delivered transactions respect the restrictions of units in the fee collector,
the prices are in range and the staking getters answer with powers below
`2 ^ 60`, then the next block start and the next block end complete, whatever
the transactions did. -/
theorem block_hooks_complete
    {k : Keeper} {ctx : Ctx} {staking : StakingView k.sdk}
    {gs : ChainGenesis} {start s : ChainState} {holders : Finset Address}
    {listing : FeeListing k} {history : List (ChainState × BlockStep k)}
    (hinit : initChain k ctx staking gs = .ok start)
    (hdenoms : ∀ a ∈ gs.rwa.assets, a.denom ≠ bondDenom)
    (hheld : gs.bank.HeldBy feeDenom holders)
    (hsmall : gs.bank.supply feeDenom < 2 ^ 255)
    (hsweepable : Sweepable k (rwaStateOf start))
    (hrun : Run (blockStep k listing) start history s)
    (hrespects : ∀ entry ∈ history, entry.2.Respects entry.1) :
    (∀ ctx accepts, (∀ op, accepts op = true) →
      ∃ s', beginBlock k listing ctx accepts s = .ok s') ∧
    ∀ ctx (staking : StakingView k.sdk) slashing accepts, staking.Bounded →
      ∃ s', endBlock k ctx staking slashing accepts s = .ok s' := by
  have hproducing : Producing k s :=
    Run.invariant_of_conditions (C := fun s step => step.Respects s)
      ⟨running_of_initChain hinit hdenoms hheld hsmall, hsweepable⟩
      (fun _ _ _ hproducing hstep => hproducing.next hstep) hrun hrespects
  exact ⟨fun ctx _ haccepts =>
      exists_beginBlock hproducing.sweepable ctx haccepts,
    fun ctx _ slashing accepts hstaking =>
      hproducing.running.exists_endBlock hstaking ctx slashing accepts⟩

theorem tamePrice_of_all {text : String}
    (hall : (referenceSdk.legacyNewDecFromStr text).toOption.all
      (fun price => decide (price.raw < 2 ^ 255)) = true) :
    Oracle.TamePrice referenceSdk text := by
  intro price hparsed
  simpa [hparsed, Except.toOption] using hall

theorem twoValidators_bounded : twoValidators.Bounded :=
  ⟨⟨_, rfl, by decide +kernel⟩, ⟨_, rfl, by decide +kernel⟩⟩

/-- The coins of some denominations. -/
def FeeListing.of (k : Keeper) (denoms : List String)
    (hdistinct : denoms.Nodup) : FeeListing k where
  coins bank := (denoms.filter fun denom =>
    0 < bank.balance (feeCollector k) denom).map fun denom =>
      (denom, bank.balance (feeCollector k) denom)
  held bank := by
    intro coin hcoin
    obtain ⟨denom, hdenom, rfl⟩ := List.mem_map.mp hcoin
    exact ⟨of_decide_eq_true (List.mem_filter.mp hdenom).2, rfl⟩
  distinct bank := by
    simpa [Function.comp_def] using hdistinct.filter _

theorem feeDenom_distinct : [feeDenom].Nodup := List.nodup_singleton _

/-- The smallest price and one of fifty-nine digits are submitted for one
window.  The fee collector is emptied before and after. -/
def distantSteps : List (BlockStep referenceKeeper) :=
  .start Oracle.boundaryCtx (fun _ => true) ::
    (feedTxs "0.000000000000000001"
      "50000000000000000000000000000000000000000000000000000000000" ++
        [closeWindow]).map .inside ++
    [.start Oracle.boundaryCtx fun _ => true]

theorem payFee_respects {s : ChainState} {payer : Address} {amount : ℕ}
    {ctx : Ctx} {accepts : BankOp → Bool} :
    (BlockStep.inside (k := referenceKeeper)
      (.rwa ctx accepts (.payFee payer [("uvtx", amount)]))).Respects s := by
  intro _ assetID _ hpaid
  have hbase : "uvtx" ≠ buildDenom assetID :=
    (Rwa.buildDenom_ne_bondDenom assetID).symm
  simp [hbase] at hpaid

theorem distant_feeds_keep_producing :
    ∃ start history s s' s'',
      initChain referenceKeeper Oracle.boundaryCtx twoValidators
          stakedGenesis = .ok start ∧
        Run (blockStep referenceKeeper
          (FeeListing.of _ [feeDenom] feeDenom_distinct)) start history s ∧
        history.map Prod.snd = distantSteps.reverse ∧
        beginBlock referenceKeeper
          (FeeListing.of _ [feeDenom] feeDenom_distinct) Oracle.boundaryCtx
          (fun _ => true) s = .ok s' ∧
        endBlock referenceKeeper Oracle.boundaryCtx twoValidators
          fractionSlashing (fun _ => true) s = .ok s'' := by
  have hfacts : (initChain referenceKeeper Oracle.boundaryCtx twoValidators
      stakedGenesis).toOption.any (fun start =>
        (replay (blockStep referenceKeeper
          (FeeListing.of _ [feeDenom] feeDenom_distinct)) [] start
          distantSteps).isSome) = true := by
    decide +kernel
  obtain ⟨start, hinit, hreplayed⟩ := exists_ok_of_any hfacts
  obtain ⟨⟨history, s⟩, hreplay⟩ := Option.isSome_iff_exists.mp hreplayed
  have hlabels : history.map Prod.snd = distantSteps.reverse :=
    labels_of_replay hreplay
  have hsweepable : Sweepable referenceKeeper (rwaStateOf start) := by
    intro assetID _ hunits
    have hbase := Rwa.buildDenom_ne_bondDenom assetID
    simp [rwaStateOf, bank_of_initChain hinit, stakedGenesis, stakedBank,
      hbase] at hunits
  have hrespects : ∀ entry ∈ history, entry.2.Respects entry.1 := by
    rintro ⟨before, step⟩ hmem
    have hlabel := label_mem_of_replay hreplay hmem
    simp only [distantSteps, feedTxs, List.cons_append, List.nil_append,
      List.map_cons, List.map_nil, List.mem_cons, List.not_mem_nil,
      or_false] at hlabel
    rcases hlabel with rfl | rfl | rfl | rfl | rfl | rfl
    · trivial
    · exact payFee_respects
    · exact tamePrice_of_all (by decide +kernel)
    · exact tamePrice_of_all (by decide +kernel)
    · exact twoValidators_bounded
    · trivial
  have hrun := run_of_replay Run.start hreplay
  obtain ⟨hbegins, hends⟩ := block_hooks_complete hinit
    (by simp [stakedGenesis, Rwa.defaultGenesis]) stakedBank_heldBy
    (by decide) hsweepable hrun hrespects
  obtain ⟨s', hbegin⟩ := hbegins Oracle.boundaryCtx (fun _ => true)
    fun _ => rfl
  obtain ⟨s'', hend⟩ := hends Oracle.boundaryCtx twoValidators
    fractionSlashing (fun _ => true) twoValidators_bounded
  exact ⟨start, history, s, s', s'', hinit, hrun, hlabels, hbegin, hend⟩

end Chain

end Vertix

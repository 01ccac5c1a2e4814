import Vertix.FeesSplit
import Mathlib.Tactic

/-!
# Bank failures during the burn

The EndBlocker moves the amount which is due from the fee collector to the
module account and burns it there.  Either bank call may fail, and a failure
is only logged.  A refused move leaves everything as it was, but the move is
not undone when the burn is refused after it: the coins then stay in the
module account, out of reach of the next sweep and of the next burn.
-/

namespace Vertix
namespace Fees

open Rwa (Bank RwaStore feeCollector coinsOf)

/-- A share of the base coins in the collector has left the supply and has
been recorded; everything else is as before. -/
structure BurnedExactly (k : Keeper) (s s' : FeesState) (share : ℤ) :
    Prop where
  collector : ∀ denom, (s'.bank.balance (feeCollector k) denom : ℤ) =
    s.bank.balance (feeCollector k) denom -
      if denom = feeDenom then share else 0
  account : ∀ denom, s'.bank.balance (feesAccount k) denom =
    s.bank.balance (feesAccount k) denom
  supply : ∀ denom, (s'.bank.supply denom : ℤ) =
    s.bank.supply denom - if denom = feeDenom then share else 0
  recorded : (getCumulativeBurned s'.store).raw =
    (getCumulativeBurned s.store).raw + share

/-- The floor of the product of the collected base coins and the burn ratio
was burned. -/
def FullBurn (k : Keeper) (s s' : FeesState) : Prop :=
  ∃ ratio : LegacyDec,
    k.sdk.legacyNewDecFromStr (getParams s.store).burnRatio = .ok ratio ∧
      BurnedExactly k s s'
        ⌊(s.bank.balance (feeCollector k) feeDenom : ℚ) * ratio.toRat⌋

def Untouched (k : Keeper) (s s' : FeesState) : Prop :=
  BurnedExactly k s s' 0

/-- Whenever the bank moves the amount which is due, it also burns it. -/
def BurnFollows (k : Keeper) (env : Rwa.Env) (rwa : RwaStore)
    (s : FeesState) : Prop :=
  ∀ amount middle, Due k s amount →
    sendCoinsFromModuleToModule k env rwa s.bank Rwa.feeCollectorName
        moduleName (coinsOf feeDenom amount.raw.toNat) = .ok middle →
      ∃ bank, Rwa.burnCoins k env middle moduleName
        (coinsOf feeDenom amount.raw.toNat) = .ok bank

theorem untouched_self (k : Keeper) (s : FeesState) : Untouched k s s := by
  constructor <;> simp

theorem feesAccount_eq_of_outcome {k : Keeper} {s s' : FeesState}
    (hresult : FullBurn k s s' ∨ Untouched k s s') :
    s'.bank.balance (feesAccount k) feeDenom =
      s.bank.balance (feesAccount k) feeDenom := by
  rcases hresult with ⟨ratio, -, hburned⟩ | hburned
  · exact hburned.account feeDenom
  · exact hburned.account feeDenom

theorem Due.ne_zero {k : Keeper} {s : FeesState} {amount : SdkInt}
    (hdue : Due k s amount) : amount.raw ≠ 0 := by
  obtain ⟨ratio, balance, -, -, -, hne⟩ := hdue
  exact hne

/-- A positive amount which is due is the floor of the product. -/
theorem Due.eq_floor {k : Keeper} {s : FeesState} {amount : SdkInt}
    (hdue : Due k s amount) (hamount : 0 ≤ amount.raw) :
    ∃ ratio : LegacyDec,
      k.sdk.legacyNewDecFromStr (getParams s.store).burnRatio = .ok ratio ∧
        amount.raw =
          ⌊(s.bank.balance (feeCollector k) feeDenom : ℚ) * ratio.toRat⌋ := by
  obtain ⟨ratio, balance, hparsed, hbalance, hproduct, hne⟩ := hdue
  have hshare := (truncatedProduct_eq_some_iff.mp hproduct).2
  have hnonneg : 0 ≤ balance.raw * ratio.raw := by
    by_contra hneg
    have hquotient := Int.tdiv_le_tdiv (show (0 : ℤ) < 10 ^ 18 by norm_num)
      (not_le.mp hneg).le
    rw [Int.zero_tdiv] at hquotient
    omega
  refine ⟨ratio, hparsed, ?_⟩
  rw [floor_of_truncatedProduct hproduct hnonneg, hbalance]
  simp

/-- The move and the burn together take the amount from the collector and from
the supply. -/
theorem burnedExactly_of_burned
    {k : Keeper} {env : Rwa.Env} {rwa : RwaStore} {s : FeesState}
    {middle bank : Bank} {amount total : SdkInt} (hamount : 0 ≤ amount.raw)
    (hsend : sendCoinsFromModuleToModule k env rwa s.bank
      Rwa.feeCollectorName moduleName (coinsOf feeDenom amount.raw.toNat) =
        .ok middle)
    (hburn : Rwa.burnCoins k env middle moduleName
      (coinsOf feeDenom amount.raw.toNat) = .ok bank)
    (htotal : total.raw = (getCumulativeBurned s.store).raw + amount.raw) :
    BurnedExactly k s
      ⟨{ s.store with cumulativeBurned := some total }, bank⟩ amount.raw := by
  constructor
  · intro denom
    have hlaw := burn_balance_feeCollector hsend hburn denom
    simp only [eq_comm (b := feeDenom)]
    split_ifs at hlaw ⊢ <;> omega
  · intro denom
    exact burn_balance_feesAccount hsend hburn denom
  · intro denom
    have hlaw := burn_supply hsend hburn denom
    simp only [eq_comm (b := feeDenom)]
    split_ifs at hlaw ⊢ <;> omega
  · exact htotal

/-- A move without the burn leaves the amount in the module account. -/
theorem feesAccount_lt_of_moved
    {k : Keeper} {env : Rwa.Env} {rwa : RwaStore} {before middle : Bank}
    {amount : SdkInt} (hpos : 0 < amount.raw)
    (hsend : sendCoinsFromModuleToModule k env rwa before
      Rwa.feeCollectorName moduleName (coinsOf feeDenom amount.raw.toNat) =
        .ok middle) :
    before.balance (feesAccount k) feeDenom <
      middle.balance (feesAccount k) feeDenom := by
  have hlaw := Ledger.exec_balance (Rwa.sendCoins_eq_ok_iff.mp hsend).2.2
    (feesAccount k) feeDenom
  have haccount : k.sdk.newModuleAddress moduleName = feesAccount k := rfl
  have hother : feesAccount k ≠
      k.sdk.newModuleAddress Rwa.feeCollectorName :=
    feesAccount_ne_feeCollector k
  simp only [LedgerOp.outflow, LedgerOp.inflow, received_single, if_true,
    haccount, if_neg hother, Rwa.amountOf_coinsOf] at hlaw
  omega

/-- A completed call burns everything or changes nothing exactly if the bank
does not refuse the burn after it has carried out the move. -/
theorem burn_all_or_nothing_iff
    {k : Keeper} {env : Rwa.Env} {rwa : RwaStore} {s s' : FeesState}
    (hcall : endBlocker k env rwa s = .ok s') :
    FullBurn k s s' ∨ Untouched k s s' ↔ BurnFollows k env rwa s := by
  constructor
  · intro hresult amount middle hdue hsend
    by_contra hrefused
    rw [endBlocker_of_due hdue] at hcall
    obtain ⟨hamount, houtcome⟩ := outcome_of_burnFees hcall
    have hpos : 0 < amount.raw := lt_of_le_of_ne hamount hdue.ne_zero.symm
    have hstuck := feesAccount_lt_of_moved hpos hsend
    have hkept := feesAccount_eq_of_outcome hresult
    cases houtcome with
    | notMoved hnot => exact hnot middle hsend
    | @notBurned moved hmoved hnot =>
        rw [hsend, Except.ok.injEq] at hmoved
        subst hmoved
        exact hstuck.ne' hkept
    | @burned moved bank total hmoved hburned htotal =>
        rw [hsend, Except.ok.injEq] at hmoved
        subst hmoved
        exact hrefused ⟨bank, hburned⟩
  · intro hfollows
    rcases endBlocker_eq_ok hcall with rfl | ⟨amount, hdue, hburn⟩
    · exact Or.inr (untouched_self k _)
    · obtain ⟨hamount, houtcome⟩ := outcome_of_burnFees hburn
      cases houtcome with
      | notMoved hnot => exact Or.inr (untouched_self k s)
      | @notBurned middle hsend hnot =>
          obtain ⟨bank, hburned⟩ := hfollows amount middle hdue hsend
          exact absurd hburned (hnot bank)
      | burned hsend hburned htotal =>
          left
          obtain ⟨ratio, hparsed, hfloor⟩ := hdue.eq_floor hamount
          refine ⟨ratio, hparsed, ?_⟩
          rw [← hfloor]
          exact burnedExactly_of_burned hamount hsend hburned htotal

/-- The fee collector holds a hundred base coins. -/
def collectedState : FeesState where
  store := FeesStore.empty
  bank :=
    { balance := fun account denom =>
        if denom = feeDenom ∧ account = feeCollector referenceKeeper then 100
        else 0
      supply := fun denom => if denom = feeDenom then 100 else 0 }

/-- A bank which refuses every burn. -/
def noBurnEnv : Rwa.Env :=
  ⟨firstBlock, fun _ => .error Oracle.errNoPrice, fun op =>
    match op with
    | .burn _ _ => false
    | _ => true⟩

/-- A willing bank burns 40 of the 100 coins. -/
theorem collected_share_burned :
    ∃ s', endBlocker referenceKeeper quietEnv TypedStore.empty
        collectedState = .ok s' ∧
      s'.bank.supply feeDenom = 60 ∧
      (FullBurn referenceKeeper collectedState s' ∨
        Untouched referenceKeeper collectedState s') := by
  have hcall : (endBlocker referenceKeeper quietEnv TypedStore.empty
      collectedState).toOption.any (fun s' =>
        decide (s'.bank.supply feeDenom = 60)) = true := by
    decide +kernel
  have hheld : collectedState.bank.HeldBy feeDenom
      {feeCollector referenceKeeper} := by
    constructor
    · intro account haccount
      rw [Finset.mem_singleton] at haccount
      simp [collectedState, haccount]
    · simp [collectedState]
  obtain ⟨s', hend, hsupply⟩ := exists_ok_of_any hcall
  refine ⟨s', hend, by simpa using hsupply,
    (burn_all_or_nothing_iff hend).mpr ?_⟩
  intro amount middle hdue hsend
  exact exists_burn_of_send (fun op => rfl) hheld
    (Rwa.sendCoins_eq_ok_iff.mp hsend).2.2

/-- The move went through, the burn did not, and the coins are stuck. -/
theorem refused_burn_strands_share :
    ∃ s', endBlocker referenceKeeper noBurnEnv TypedStore.empty
        collectedState = .ok s' ∧
      s'.bank.balance (feesAccount referenceKeeper) feeDenom = 40 ∧
      ¬ (FullBurn referenceKeeper collectedState s' ∨
        Untouched referenceKeeper collectedState s') := by
  have hcall : (endBlocker referenceKeeper noBurnEnv TypedStore.empty
      collectedState).toOption.any (fun s' =>
        decide (s'.bank.balance (feesAccount referenceKeeper) feeDenom =
          40)) = true := by
    decide +kernel
  obtain ⟨s', hend, hbalance⟩ := exists_ok_of_any hcall
  rw [decide_eq_true_eq] at hbalance
  refine ⟨s', hend, hbalance, ?_⟩
  intro hresult
  have hkept := feesAccount_eq_of_outcome hresult
  rw [hbalance] at hkept
  revert hkept
  decide +kernel

end Fees
end Vertix

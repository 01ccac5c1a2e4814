import Vertix.FeesTypes
import Vertix.RwaBank
import Mathlib.Tactic

/-!
# The fees keeper

The store of `x/fees` holds the parameters, the base supply at genesis and the
base coins burned since.  At the end of a block the module takes its share of
the base coins in the fee collector and burns it.  A bank error is logged and
the block proceeds, so a call may stop after either bank operation; the result
`endBlocker_cases` lists how far it can get.
-/

namespace Vertix
namespace Fees

open Rwa (Bank BankOp RwaStore feeCollector coinsOf)

structure FeesStore where
  params : Option FeesParams
  genesisSupply : Option SdkInt
  cumulativeBurned : Option SdkInt

def FeesStore.empty : FeesStore := ⟨none, none, none⟩

structure FeesState where
  store : FeesStore
  bank : Bank

def getParams (store : FeesStore) : FeesParams :=
  store.params.getD defaultParams

def setParams (sdk : Sdk) (store : FeesStore) (p : FeesParams) :
    Except SdkError FeesStore := do
  p.validate sdk
  return { store with params := some p }

def setGenesisSupply (store : FeesStore) (amt : SdkInt) : FeesStore :=
  { store with genesisSupply := some amt }

def getGenesisSupply (store : FeesStore) : SdkInt :=
  store.genesisSupply.getD SdkInt.zero

def getCumulativeBurned (store : FeesStore) : SdkInt :=
  store.cumulativeBurned.getD SdkInt.zero

/-- The sum panics past 256 bits. -/
def addCumulativeBurned (store : FeesStore) (amt : SdkInt) :
    Exec FeesStore := do
  let total ← Exec.ofOption ((getCumulativeBurned store).add? amt)
  return { store with cumulativeBurned := some total }

/-- A balance or supply as the bank returns it; past 256 bits there is no such
`Int`. -/
def bankAmount (amount : ℕ) : Exec SdkInt :=
  Exec.ofOption (FixedPoint.checked amount)

def feesAccount (k : Keeper) : Address := k.sdk.newModuleAddress moduleName

def sendCoinsFromModuleToModule (k : Keeper) (env : Rwa.Env)
    (rwa : RwaStore) (bank : Bank) (senderModule recipientModule : String)
    (coins : CoinList String) : Except SdkError Bank :=
  Rwa.sendCoins k env rwa bank (k.sdk.newModuleAddress senderModule)
    (k.sdk.newModuleAddress recipientModule) coins

/-- The two bank calls of the EndBlocker and the burn record. -/
def burnFees (k : Keeper) (env : Rwa.Env) (rwa : RwaStore) (s : FeesState)
    (burnAmt : SdkInt) : Exec FeesState := do
  let burnCoins ← Rwa.newCoins feeDenom burnAmt
  match sendCoinsFromModuleToModule k env rwa s.bank Rwa.feeCollectorName
      moduleName burnCoins with
  | .error _ => return s
  | .ok bank =>
      match Rwa.burnCoins k env bank moduleName burnCoins with
      | .error _ => return { s with bank := bank }
      | .ok bank => do
          let store ← addCumulativeBurned s.store burnAmt
          return ⟨store, bank⟩

/-- `rwa` is the store which the bank's send restriction consults. -/
def endBlocker (k : Keeper) (env : Rwa.Env) (rwa : RwaStore)
    (s : FeesState) : Exec FeesState := do
  let burnRatio ← Exec.ofExcept
    (plainError (k.sdk.legacyNewDecFromStr (getParams s.store).burnRatio))
  if burnRatio.raw = 0 then return s
  else do
    let balance ← bankAmount (s.bank.balance (feeCollector k) feeDenom)
    if balance.raw = 0 then return s
    else do
      let burnAmt ← Exec.ofOption (truncatedProduct balance burnRatio)
      if burnAmt.raw = 0 then return s
      else burnFees k env rwa s burnAmt

def updateParams (k : Keeper) (store : FeesStore) (msg : MsgUpdateParams) :
    Except SdkError FeesStore := do
  msg.validateBasic k.sdk
  rejectIf (msg.authority ≠ k.authority)
    (errUnauthorized.wrap ("expected " ++ k.authority ++ ", got " ++
      msg.authority))
  setParams k.sdk store msg.params

/-- Import snapshots the base supply of the bank. -/
def initGenesis (k : Keeper) (store : FeesStore) (bank : Bank)
    (gs : GenesisState) : Exec FeesStore := do
  Exec.ofExcept ((gs.validate k.sdk).mapError fun error =>
    { error with text := "invalid genesis state: " ++ error.text })
  let store ← Exec.ofExcept (setParams k.sdk store gs.params)
  let supply ← bankAmount (bank.supply feeDenom)
  return setGenesisSupply store supply

/-- Neither the baseline nor the burn record is exported. -/
def exportGenesis (store : FeesStore) : GenesisState := ⟨getParams store⟩

/-! ## Invariants -/

/-- `sdk.FormatInvariant` -/
def formatInvariant (name text : String) : String :=
  moduleName ++ ": " ++ name ++ " invariant\n" ++ text ++ "\n"

/-- The message and whether the invariant is broken. -/
def reconcileInvariant (s : FeesState) : Exec (String × Bool) := do
  let current ← bankAmount (s.bank.supply feeDenom)
  let missing ← Exec.ofOption ((getGenesisSupply s.store).sub? current)
  return (formatInvariant "reconcile"
      ("genesis uvtx supply minus current supply must equal cumulative " ++
        "burned (21M cap)"),
    decide (missing.raw ≠ (getCumulativeBurned s.store).raw))

def moduleBalanceInvariant (k : Keeper) (s : FeesState) :
    Exec (String × Bool) := do
  let bal ← bankAmount (s.bank.balance (feesAccount k) feeDenom)
  return (formatInvariant "module-balance"
      ("x/fees module account uvtx balance must be zero at the block " ++
        "boundary"),
    decide (bal.raw ≠ 0))

/-- The module account holds no base coins. -/
def ModuleEmpty (k : Keeper) (bank : Bank) : Prop :=
  bank.balance (feesAccount k) feeDenom = 0

/-- The genesis supply is the current supply and what was burned since. -/
def Reconciled (s : FeesState) : Prop :=
  (getGenesisSupply s.store).raw - s.bank.supply feeDenom =
    (getCumulativeBurned s.store).raw

theorem bankAmount_eq_ok_iff {amount : ℕ} {value : SdkInt} :
    bankAmount amount = .ok value ↔ value.raw = amount := by
  rw [bankAmount, Exec.ofOption_eq_ok_iff, FixedPoint.checked_eq_some_iff]

/-- The registered check reports a broken invariant exactly when the supply is
not accounted for. -/
theorem reconcileInvariant_eq_ok_iff
    {s : FeesState} {message : String} {broken : Bool}
    (hcheck : reconcileInvariant s = .ok (message, broken)) :
    broken = false ↔ Reconciled s := by
  simp only [reconcileInvariant, bind_eq_ok_iff, pure_eq_ok_iff,
    bankAmount_eq_ok_iff, Exec.ofOption_eq_ok_iff, FixedPoint.sub?,
    FixedPoint.checked_eq_some_iff, Prod.mk.injEq] at hcheck
  rcases hcheck with ⟨current, hcurrent, missing, hmissing, -, rfl⟩
  rw [decide_eq_false_iff_not, not_not, hmissing, hcurrent]
  rfl

theorem moduleBalanceInvariant_eq_ok_iff
    {k : Keeper} {s : FeesState} {message : String} {broken : Bool}
    (hcheck : moduleBalanceInvariant k s = .ok (message, broken)) :
    broken = false ↔ ModuleEmpty k s.bank := by
  simp only [moduleBalanceInvariant, bind_eq_ok_iff, pure_eq_ok_iff,
    bankAmount_eq_ok_iff, Prod.mk.injEq] at hcheck
  rcases hcheck with ⟨bal, hbal, -, rfl⟩
  rw [decide_eq_false_iff_not, not_not, hbal, ModuleEmpty]
  exact Int.natCast_eq_zero

/-! ## How far a call gets -/

/-- What a completed EndBlocker did: nothing, only the move to the module
account, or the whole burn of one amount. -/
inductive Burned (k : Keeper) (s : FeesState) : FeesState → Prop
  | nothing : Burned k s s
  | moved {amount : SdkInt} {bank : Bank}
      (hbank : s.bank.execAll [.send (feeCollector k)
        [(feesAccount k, coinsOf feeDenom amount.raw.toNat)]] = some bank) :
      Burned k s ⟨s.store, bank⟩
  | burned {amount total : SdkInt} {bank : Bank}
      (hamount : 0 ≤ amount.raw)
      (htotal : total.raw = (getCumulativeBurned s.store).raw + amount.raw)
      (hbank : s.bank.execAll
        [.send (feeCollector k)
            [(feesAccount k, coinsOf feeDenom amount.raw.toNat)],
          .burn (feesAccount k) (coinsOf feeDenom amount.raw.toNat)] =
            some bank) :
      Burned k s ⟨{ s.store with cumulativeBurned := some total }, bank⟩

/-- How far the two bank calls for an amount got. -/
inductive BurnOutcome (k : Keeper) (env : Rwa.Env) (rwa : RwaStore)
    (s : FeesState) (amount : SdkInt) : FeesState → Prop
  | notMoved
      (hsend : ∀ bank, sendCoinsFromModuleToModule k env rwa s.bank
        Rwa.feeCollectorName moduleName (coinsOf feeDenom amount.raw.toNat) ≠
          .ok bank) :
      BurnOutcome k env rwa s amount s
  | notBurned {middle : Bank}
      (hsend : sendCoinsFromModuleToModule k env rwa s.bank
        Rwa.feeCollectorName moduleName (coinsOf feeDenom amount.raw.toNat) =
          .ok middle)
      (hburn : ∀ bank, Rwa.burnCoins k env middle moduleName
        (coinsOf feeDenom amount.raw.toNat) ≠ .ok bank) :
      BurnOutcome k env rwa s amount ⟨s.store, middle⟩
  | burned {middle bank : Bank} {total : SdkInt}
      (hsend : sendCoinsFromModuleToModule k env rwa s.bank
        Rwa.feeCollectorName moduleName (coinsOf feeDenom amount.raw.toNat) =
          .ok middle)
      (hburn : Rwa.burnCoins k env middle moduleName
        (coinsOf feeDenom amount.raw.toNat) = .ok bank)
      (htotal : total.raw = (getCumulativeBurned s.store).raw + amount.raw) :
      BurnOutcome k env rwa s amount
        ⟨{ s.store with cumulativeBurned := some total }, bank⟩

theorem outcome_of_burnFees
    {k : Keeper} {env : Rwa.Env} {rwa : RwaStore} {s s' : FeesState}
    {burnAmt : SdkInt} (hburn : burnFees k env rwa s burnAmt = .ok s') :
    0 ≤ burnAmt.raw ∧ BurnOutcome k env rwa s burnAmt s' := by
  simp only [burnFees, bind_eq_ok_iff, Rwa.newCoins_eq_ok_iff] at hburn
  rcases hburn with ⟨coins, ⟨hamount, rfl⟩, hrest⟩
  refine ⟨hamount, ?_⟩
  cases hsend : sendCoinsFromModuleToModule k env rwa s.bank
      Rwa.feeCollectorName moduleName
      (coinsOf feeDenom burnAmt.raw.toNat) with
  | error error =>
      simp only [hsend, pure_eq_ok_iff] at hrest
      subst hrest
      exact .notMoved (by simp [hsend])
  | ok middle =>
      simp only [hsend] at hrest
      cases hburned : Rwa.burnCoins k env middle moduleName
          (coinsOf feeDenom burnAmt.raw.toNat) with
      | error error =>
          simp only [hburned, pure_eq_ok_iff] at hrest
          subst hrest
          exact .notBurned hsend (by simp [hburned])
      | ok bank =>
          simp only [hburned, addCumulativeBurned, bind_eq_ok_iff,
            pure_eq_ok_iff, Exec.ofOption_eq_ok_iff, FixedPoint.add?,
            FixedPoint.checked_eq_some_iff] at hrest
          rcases hrest with ⟨store, ⟨total, htotal, rfl⟩, rfl⟩
          exact .burned hsend hburned htotal

theorem burned_of_burnFees
    {k : Keeper} {env : Rwa.Env} {rwa : RwaStore} {s s' : FeesState}
    {burnAmt : SdkInt} (hburn : burnFees k env rwa s burnAmt = .ok s') :
    Burned k s s' := by
  obtain ⟨hamount, houtcome⟩ := outcome_of_burnFees hburn
  cases houtcome with
  | notMoved hsend => exact .nothing
  | notBurned hsend hburned =>
      exact .moved (Ledger.execAll_one (Rwa.sendCoins_eq_ok_iff.mp hsend).2.2)
  | burned hsend hburned htotal =>
      exact .burned hamount htotal
        (Ledger.execAll_next (Rwa.sendCoins_eq_ok_iff.mp hsend).2.2
          (Ledger.execAll_one (Rwa.execute_eq_ok_iff.mp hburned).2))

/-- The amount which the EndBlocker goes for: the integer part of the product
of the collected base coins and the burn ratio, unless it is zero. -/
def Due (k : Keeper) (s : FeesState) (amount : SdkInt) : Prop :=
  ∃ (ratio : LegacyDec) (balance : SdkInt),
    k.sdk.legacyNewDecFromStr (getParams s.store).burnRatio = .ok ratio ∧
      balance.raw = s.bank.balance (feeCollector k) feeDenom ∧
      truncatedProduct balance ratio = some amount ∧ amount.raw ≠ 0

/-- A call stops at one of its guards, or it goes for the amount which is
due. -/
theorem endBlocker_eq_ok
    {k : Keeper} {env : Rwa.Env} {rwa : RwaStore} {s s' : FeesState}
    (hcall : endBlocker k env rwa s = .ok s') :
    s' = s ∨ ∃ burnAmt, Due k s burnAmt ∧
      burnFees k env rwa s burnAmt = .ok s' := by
  simp only [endBlocker, bind_eq_ok_iff, Exec.ofExcept_eq_ok_iff,
    plainError_eq_ok_iff] at hcall
  rcases hcall with ⟨burnRatio, hparsed, hrest⟩
  split_ifs at hrest with hratio
  · exact Or.inl (pure_eq_ok_iff.mp hrest).symm
  · simp only [bind_eq_ok_iff, bankAmount_eq_ok_iff] at hrest
    rcases hrest with ⟨balance, hbalance, hrest⟩
    split_ifs at hrest with hempty
    · exact Or.inl (pure_eq_ok_iff.mp hrest).symm
    · simp only [bind_eq_ok_iff, Exec.ofOption_eq_ok_iff] at hrest
      rcases hrest with ⟨burnAmt, hproduct, hrest⟩
      split_ifs at hrest with hdust
      · exact Or.inl (pure_eq_ok_iff.mp hrest).symm
      · exact Or.inr ⟨burnAmt,
          ⟨burnRatio, balance, hparsed, hbalance, hproduct, hdust⟩, hrest⟩

/-- No guard stops a call with an amount due. -/
theorem endBlocker_of_due
    {k : Keeper} {env : Rwa.Env} {rwa : RwaStore} {s : FeesState}
    {amount : SdkInt} (hdue : Due k s amount) :
    endBlocker k env rwa s = burnFees k env rwa s amount := by
  obtain ⟨ratio, balance, hparsed, hbalance, hproduct, hdust⟩ := hdue
  have hshare := (truncatedProduct_eq_some_iff.mp hproduct).2
  have hratio : ratio.raw ≠ 0 := by
    intro hzero
    simp [hshare, hzero] at hdust
  have hempty : balance.raw ≠ 0 := by
    intro hzero
    simp [hshare, hzero] at hdust
  have hread : bankAmount (s.bank.balance (feeCollector k) feeDenom) =
      .ok balance := bankAmount_eq_ok_iff.mpr hbalance
  have hratioRead : Exec.ofExcept (plainError (k.sdk.legacyNewDecFromStr
      (getParams s.store).burnRatio)) = .ok ratio := by
    simpa using hparsed
  have htaken : Exec.ofOption (truncatedProduct balance ratio) =
      .ok amount := by
    rw [hproduct]
    rfl
  simp only [endBlocker, hratioRead, hread, htaken, bind, Except.bind,
    if_neg hratio, if_neg hempty, if_neg hdust]

theorem burned_of_endBlocker
    {k : Keeper} {env : Rwa.Env} {rwa : RwaStore} {s s' : FeesState}
    (hcall : endBlocker k env rwa s = .ok s') : Burned k s s' := by
  rcases endBlocker_eq_ok hcall with rfl | ⟨burnAmt, -, hburn⟩
  · exact .nothing
  · exact burned_of_burnFees hburn

/-! ## A bank which carries out what is covered -/

theorem feesAccount_ne_feeCollector (k : Keeper) :
    feesAccount k ≠ feeCollector k := by
  intro heq
  have hname := k.sdk.newModuleAddress_distinct moduleName (by decide)
    Rwa.feeCollectorName (by decide) heq
  revert hname
  decide

/-- Where the supply covers the balances, what was moved to the module account
can be burned there. -/
theorem exists_burn_of_send
    {k : Keeper} {env : Rwa.Env} {bank middle : Bank} {amount : ℕ}
    {holders : Finset Address} (haccepts : ∀ op, env.accepts op = true)
    (hheld : bank.HeldBy feeDenom holders)
    (hsend : bank.exec (.send (feeCollector k)
      [(feesAccount k, coinsOf feeDenom amount)]) = some middle) :
    ∃ bank', Rwa.burnCoins k env middle moduleName
      (coinsOf feeDenom amount) = .ok bank' := by
  have hreceived : amount ≤ middle.balance (feesAccount k) feeDenom := by
    have hlaw := Ledger.exec_balance hsend (feesAccount k) feeDenom
    simp only [LedgerOp.outflow, LedgerOp.inflow, received_single, if_true,
      if_neg (feesAccount_ne_feeCollector k), Rwa.amountOf_coinsOf] at hlaw
    omega
  have hcovered :=
    (Ledger.exec_heldBy hsend hheld).balance_le (feesAccount k)
  have hexec : ∃ bank', middle.exec (.burn (feesAccount k)
      (coinsOf feeDenom amount)) = some bank' := by
    unfold coinsOf
    split_ifs with hzero
    · exact ⟨middle, rfl⟩
    · exact Ledger.exists_exec_burn_iff.mpr
        ⟨hreceived.trans hcovered, hreceived⟩
  rcases hexec with ⟨bank', hexec⟩
  exact ⟨bank', Rwa.execute_eq_ok_iff.mpr ⟨haccepts _, hexec⟩⟩

/-- What the move brings into the module account, the burn takes out. -/
theorem burn_balance_feesAccount
    {k : Keeper} {env : Rwa.Env} {rwa : RwaStore} {before middle after : Bank}
    {amount : ℕ}
    (hsend : sendCoinsFromModuleToModule k env rwa before Rwa.feeCollectorName
      moduleName (coinsOf feeDenom amount) = .ok middle)
    (hburn : Rwa.burnCoins k env middle moduleName (coinsOf feeDenom amount) =
      .ok after) (denom : String) :
    after.balance (feesAccount k) denom =
      before.balance (feesAccount k) denom := by
  have hin := Ledger.exec_balance (Rwa.sendCoins_eq_ok_iff.mp hsend).2.2
    (feesAccount k) denom
  have hout := Ledger.exec_balance (Rwa.execute_eq_ok_iff.mp hburn).2
    (feesAccount k) denom
  have hself : k.sdk.newModuleAddress moduleName = feesAccount k := rfl
  have hother : feesAccount k ≠
      k.sdk.newModuleAddress Rwa.feeCollectorName :=
    feesAccount_ne_feeCollector k
  simp only [LedgerOp.outflow, LedgerOp.inflow, received_single,
    if_true, hself, if_neg hother, Rwa.amountOf_coinsOf] at hin hout
  omega

theorem burn_balance_feeCollector
    {k : Keeper} {env : Rwa.Env} {rwa : RwaStore} {before middle after : Bank}
    {amount : ℕ}
    (hsend : sendCoinsFromModuleToModule k env rwa before Rwa.feeCollectorName
      moduleName (coinsOf feeDenom amount) = .ok middle)
    (hburn : Rwa.burnCoins k env middle moduleName (coinsOf feeDenom amount) =
      .ok after) (denom : String) :
    after.balance (feeCollector k) denom +
        (if feeDenom = denom then amount else 0) =
      before.balance (feeCollector k) denom := by
  have hout := Ledger.exec_balance (Rwa.sendCoins_eq_ok_iff.mp hsend).2.2
    (feeCollector k) denom
  have hsame := Ledger.exec_balance (Rwa.execute_eq_ok_iff.mp hburn).2
    (feeCollector k) denom
  have hself : k.sdk.newModuleAddress Rwa.feeCollectorName =
      feeCollector k := rfl
  have haccount : k.sdk.newModuleAddress moduleName = feesAccount k := rfl
  have hother : feeCollector k ≠ feesAccount k :=
    (feesAccount_ne_feeCollector k).symm
  simp only [LedgerOp.outflow, LedgerOp.inflow, received_single, if_true,
    outputCoins_single, hself, haccount, if_neg hother, Rwa.amountOf_coinsOf,
    Nat.add_zero] at hout hsame
  rw [hsame]
  exact hout

theorem burn_supply
    {k : Keeper} {env : Rwa.Env} {rwa : RwaStore} {before middle after : Bank}
    {amount : ℕ}
    (hsend : sendCoinsFromModuleToModule k env rwa before Rwa.feeCollectorName
      moduleName (coinsOf feeDenom amount) = .ok middle)
    (hburn : Rwa.burnCoins k env middle moduleName (coinsOf feeDenom amount) =
      .ok after) (denom : String) :
    after.supply denom + (if feeDenom = denom then amount else 0) =
      before.supply denom := by
  have hkept := Ledger.exec_supply (Rwa.sendCoins_eq_ok_iff.mp hsend).2.2 denom
  have hdropped := Ledger.exec_supply (Rwa.execute_eq_ok_iff.mp hburn).2 denom
  simp only [LedgerOp.minted, LedgerOp.burned, Rwa.amountOf_coinsOf]
    at hkept hdropped
  omega

/-- The EndBlocker's own move and burn cancel out. -/
theorem endBlocker_balance_feesAccount
    {k : Keeper} {env : Rwa.Env} {rwa : RwaStore} {s s' : FeesState}
    {holders : Finset Address} (haccepts : ∀ op, env.accepts op = true)
    (hheld : s.bank.HeldBy feeDenom holders)
    (hcall : endBlocker k env rwa s = .ok s') :
    s'.bank.balance (feesAccount k) feeDenom =
      s.bank.balance (feesAccount k) feeDenom := by
  rcases endBlocker_eq_ok hcall with rfl | ⟨burnAmt, -, hburn⟩
  · rfl
  · cases (outcome_of_burnFees hburn).2 with
    | notMoved hsend => rfl
    | notBurned hsend hburned =>
        obtain ⟨bank, hexec⟩ := exists_burn_of_send haccepts hheld
          (Rwa.sendCoins_eq_ok_iff.mp hsend).2.2
        exact absurd hexec (hburned bank)
    | burned hsend hburned htotal =>
        exact burn_balance_feesAccount hsend hburned feeDenom

/-- The call records what it takes from the supply. -/
theorem Burned.supply
    {k : Keeper} {s s' : FeesState} (hburned : Burned k s s') :
    getGenesisSupply s'.store = getGenesisSupply s.store ∧
      (s'.bank.supply feeDenom : ℤ) + (getCumulativeBurned s'.store).raw =
        s.bank.supply feeDenom + (getCumulativeBurned s.store).raw := by
  cases hburned with
  | nothing => exact ⟨rfl, rfl⟩
  | moved hbank =>
      have hlaw := Ledger.execAll_supply hbank feeDenom
      simp only [LedgerOp.burned, LedgerOp.minted, List.map_cons,
        List.map_nil, List.sum_cons, List.sum_nil, Nat.add_zero] at hlaw
      rw [hlaw]
      exact ⟨rfl, rfl⟩
  | @burned amount total bank hamount htotal hbank =>
      have hlaw := Ledger.execAll_supply hbank feeDenom
      simp only [LedgerOp.burned, LedgerOp.minted, List.map_cons,
        List.map_nil, List.sum_cons, List.sum_nil, Nat.add_zero,
        Nat.zero_add, Rwa.amountOf_coinsOf, if_true] at hlaw
      refine ⟨rfl, ?_⟩
      have hnew : (getCumulativeBurned
          { s.store with cumulativeBurned := some total }).raw = total.raw :=
        rfl
      rw [hnew, htotal]
      simp only
      omega

end Fees
end Vertix

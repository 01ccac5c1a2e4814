import Vertix.RwaKeeper
import Mathlib.Tactic

/-!
# The bank as wired by the application

Every send consults the registered send restriction and then moves exactly the
given coins, or fails without effect.  Whatever else may make the bank refuse
an operation (locked coins, disabled denominations, missing permissions) is
left to the environment.
-/

namespace Vertix
namespace Rwa

abbrev Bank := Ledger Address String

abbrev BankOp := LedgerOp Address String

/-- What a transaction finds outside the module: the block, the oracle and the
further conditions of the bank. -/
structure Env where
  ctx : Ctx
  getPrice : String → Except SdkError LegacyDec
  accepts : BankOp → Bool

def errInsufficientFunds : SdkError := ⟨"sdk", 5, "insufficient funds"⟩

def errBankRefused : SdkError := SdkError.plain "bank operation refused"

def errSdkUnauthorized : SdkError := ⟨"sdk", 4, "unauthorized"⟩

def feeCollectorName : String := "fee_collector"

def distributionName : String := "distribution"

def feeCollector (k : Keeper) : Address :=
  k.sdk.newModuleAddress feeCollectorName

def distributionAccount (k : Keeper) : Address :=
  k.sdk.newModuleAddress distributionName

/-- The module accounts which may not receive funds. -/
def blockAccAddrs : List String :=
  [feeCollectorName, distributionName, "bonded_tokens_pool",
    "not_bonded_tokens_pool"]

def blockedAddr (k : Keeper) (addr : Address) : Bool :=
  (blockAccAddrs.map k.sdk.newModuleAddress).contains addr

/-! ## Coins -/

def coinsOf (denom : String) (amount : ℕ) : CoinList String :=
  if amount = 0 then [] else [(denom, amount)]

/-- `sdk.NewCoins(sdk.NewCoin(denom, amount))`, which panics on a negative
amount and drops a zero one. -/
def newCoins (denom : String) (amount : SdkInt) : Exec (CoinList String) :=
  if amount.raw < 0 then Exec.panicked
  else .ok (coinsOf denom amount.raw.toNat)

@[simp] theorem amountOf_coinsOf (denom denom' : String) (amount : ℕ) :
    amountOf (coinsOf denom amount) denom' =
      if denom = denom' then amount else 0 := by
  unfold coinsOf
  by_cases hzero : amount = 0 <;> simp [hzero]

theorem newCoins_eq_ok_iff
    {denom : String} {amount : SdkInt} {coins : CoinList String} :
    newCoins denom amount = .ok coins ↔
      0 ≤ amount.raw ∧ coinsOf denom amount.raw.toNat = coins := by
  unfold newCoins
  split_ifs with hneg
  · simp [hneg]
  · simp [not_lt.mp hneg]

/-! ## Operations -/

def execute (env : Env) (bank : Bank) (op : BankOp) : Except SdkError Bank :=
  if env.accepts op then
    match bank.exec op with
    | some bank' => .ok bank'
    | none => .error errInsufficientFunds
  else .error errBankRefused

def sendCoins (k : Keeper) (env : Env) (store : RwaStore) (bank : Bank)
    (source target : Address) (coins : CoinList String) :
    Except SdkError Bank := do
  let target ← sendRestriction k store source target coins
  execute env bank (.send source [(target, coins)])

def sendCoinsFromAccountToModule (k : Keeper) (env : Env) (store : RwaStore)
    (bank : Bank) (source : Address) (recipientModule : String)
    (coins : CoinList String) : Except SdkError Bank :=
  sendCoins k env store bank source (k.sdk.newModuleAddress recipientModule)
    coins

def sendCoinsFromModuleToAccount (k : Keeper) (env : Env) (store : RwaStore)
    (bank : Bank) (senderModule : String) (recipient : Address)
    (coins : CoinList String) : Except SdkError Bank := do
  rejectIf (blockedAddr k recipient)
    (errSdkUnauthorized.wrap (k.sdk.accAddressString recipient.bytes ++
      " is not allowed to receive funds"))
  sendCoins k env store bank (k.sdk.newModuleAddress senderModule) recipient
    coins

def mintCoins (k : Keeper) (env : Env) (bank : Bank) (moduleName : String)
    (coins : CoinList String) : Except SdkError Bank :=
  execute env bank (.mint (k.sdk.newModuleAddress moduleName) coins)

def burnCoins (k : Keeper) (env : Env) (bank : Bank) (moduleName : String)
    (coins : CoinList String) : Except SdkError Bank :=
  execute env bank (.burn (k.sdk.newModuleAddress moduleName) coins)

def fundCommunityPool (k : Keeper) (env : Env) (store : RwaStore)
    (bank : Bank) (coins : CoinList String) (sender : Address) :
    Except SdkError Bank :=
  sendCoinsFromAccountToModule k env store bank sender distributionName coins

/-- The restriction is applied once for every output. -/
def restrictOutputs (k : Keeper) (store : RwaStore) (source : Address) :
    List (Address × CoinList String) →
      Except SdkError (List (Address × CoinList String))
  | [] => .ok []
  | output :: rest => do
      let target ← sendRestriction k store source output.1 output.2
      let restricted ← restrictOutputs k store source rest
      return (target, output.2) :: restricted

def inputOutputCoins (k : Keeper) (env : Env) (store : RwaStore)
    (bank : Bank) (source : Address)
    (outputs : List (Address × CoinList String)) : Except SdkError Bank := do
  let outputs ← restrictOutputs k store source outputs
  execute env bank (.send source outputs)

/-! ## What an accepted operation did -/

/-- Every output of a send passed the send restriction. -/
def SendAllowed (k : Keeper) (store : RwaStore) (source : Address)
    (outputs : List (Address × CoinList String)) : Prop :=
  ∀ output ∈ outputs, ∀ coin ∈ output.2, ∀ assetID,
    parseRWADenom coin.1 = some assetID →
      checkTransferAllowed k store assetID source output.1 = .ok ()

@[simp] theorem execute_eq_ok_iff
    {env : Env} {bank bank' : Bank} {op : BankOp} :
    execute env bank op = .ok bank' ↔
      env.accepts op = true ∧ bank.exec op = some bank' := by
  unfold execute
  split_ifs with haccepts
  · cases bank.exec op <;> simp [haccepts]
  · simp [haccepts]

theorem sendCoins_eq_ok_iff
    {k : Keeper} {env : Env} {store : RwaStore} {bank bank' : Bank}
    {source target : Address} {coins : CoinList String} :
    sendCoins k env store bank source target coins = .ok bank' ↔
      SendAllowed k store source [(target, coins)] ∧
        env.accepts (.send source [(target, coins)]) = true ∧
        bank.exec (.send source [(target, coins)]) = some bank' := by
  simp only [sendCoins, bind_eq_ok_iff, sendRestriction_eq_ok_iff,
    execute_eq_ok_iff, SendAllowed, List.mem_singleton, forall_eq]
  constructor
  · rintro ⟨target', ⟨rfl, hallowed⟩, hexec⟩
    exact ⟨hallowed, hexec⟩
  · rintro ⟨hallowed, hexec⟩
    exact ⟨target, ⟨rfl, hallowed⟩, hexec⟩

theorem restrictOutputs_eq_ok_iff
    {k : Keeper} {store : RwaStore} {source : Address}
    {outputs result : List (Address × CoinList String)} :
    restrictOutputs k store source outputs = .ok result ↔
      SendAllowed k store source outputs ∧ outputs = result := by
  induction outputs generalizing result with
  | nil => simp [restrictOutputs, SendAllowed]
  | cons output rest ih =>
      simp only [restrictOutputs, bind_eq_ok_iff, pure_eq_ok_iff,
        sendRestriction_eq_ok_iff, ih, SendAllowed, List.forall_mem_cons]
      constructor
      · rintro ⟨target, ⟨rfl, hfirst⟩, restricted, ⟨hrest, rfl⟩, rfl⟩
        exact ⟨⟨hfirst, hrest⟩, rfl⟩
      · rintro ⟨⟨hfirst, hrest⟩, rfl⟩
        exact ⟨_, ⟨rfl, hfirst⟩, rest, ⟨hrest, rfl⟩, rfl⟩

theorem inputOutputCoins_eq_ok_iff
    {k : Keeper} {env : Env} {store : RwaStore} {bank bank' : Bank}
    {source : Address} {outputs : List (Address × CoinList String)} :
    inputOutputCoins k env store bank source outputs = .ok bank' ↔
      SendAllowed k store source outputs ∧
        env.accepts (.send source outputs) = true ∧
        bank.exec (.send source outputs) = some bank' := by
  simp only [inputOutputCoins, bind_eq_ok_iff, restrictOutputs_eq_ok_iff,
    execute_eq_ok_iff]
  constructor
  · rintro ⟨outputs', ⟨hallowed, rfl⟩, hexec⟩
    exact ⟨hallowed, hexec⟩
  · rintro ⟨hallowed, hexec⟩
    exact ⟨outputs, ⟨hallowed, rfl⟩, hexec⟩

theorem sendCoinsFromModuleToAccount_eq_ok_iff
    {k : Keeper} {env : Env} {store : RwaStore} {bank bank' : Bank}
    {senderModule : String} {recipient : Address} {coins : CoinList String} :
    sendCoinsFromModuleToAccount k env store bank senderModule recipient
        coins = .ok bank' ↔
      blockedAddr k recipient = false ∧
        sendCoins k env store bank (k.sdk.newModuleAddress senderModule)
          recipient coins = .ok bank' := by
  simp only [sendCoinsFromModuleToAccount, bind_eq_ok_iff,
    rejectIf_eq_ok_iff, exists_const, Bool.not_eq_true]

/-- An allowed send pays units of an asset only to the module account or to
eligible accounts, unless the module account is the sender. -/
theorem SendAllowed.eligible
    {k : Keeper} {store : RwaStore} {source : Address}
    {outputs : List (Address × CoinList String)}
    (hallowed : SendAllowed k store source outputs)
    (hsource : source ≠ moduleAddress k)
    {output : Address × CoinList String} (houtput : output ∈ outputs)
    {assetID : String} (hid : assetID ≠ "")
    (hamount : 0 < amountOf output.2 (buildDenom assetID))
    (htarget : output.1 ≠ moduleAddress k) :
    Eligible store assetID source ∧ Eligible store assetID output.1 := by
  have hdenom := mem_denoms_of_amountOf_pos hamount
  rcases List.mem_map.mp hdenom with ⟨coin, hcoin, hname⟩
  have hparse : parseRWADenom coin.1 = some assetID :=
    parseRWADenom_eq_some_iff.mpr ⟨hid, hname⟩
  have hcheck := hallowed output houtput coin hcoin assetID hparse
  rcases checkTransferAllowed_eq_ok_iff.mp hcheck with h | h | h
  · exact absurd h hsource
  · exact absurd h htarget
  · exact h

end Rwa
end Vertix

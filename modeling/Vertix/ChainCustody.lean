import Vertix.ChainAttestation
import Vertix.ChainFeesAccount
import Mathlib.Tactic

/-!
# Nobody spends the coins of others

Coins leave an account only through the bank, and every handler debits either
the signer of its message or a module account.  Each message therefore comes
with a bill that can be read off before it is executed: the bond, the fee, the
units or the coins that it names.  Over a run of the whole chain, blocks with
slashes and burned fees included, an account that belongs to no module loses
at most the bills of the messages it signed itself.
-/

namespace Vertix

namespace Rwa

/-! ## The bill of a message -/

/-- The amount that a text names, zero if it names none. -/
def namedAmount (sdk : Sdk) (text : String) : ℕ :=
  ((sdk.newIntFromString text).map fun amount => amount.raw.toNat).getD 0

/-- The fee on a notional amount, zero if it cannot be computed. -/
def namedFee (sdk : Sdk) (rate notional : String) : ℕ :=
  ((do
    let value ← (sdk.legacyNewDecFromStr rate).toOption
    let amount ← sdk.newIntFromString notional
    let fee ← truncatedProduct amount value
    return fee.raw.toNat) : Option ℕ).getD 0

/-- What a transaction takes from its signer when it is accepted. -/
def RwaTx.bill (k : Keeper) (store : RwaStore) (tx : RwaTx) :
    CoinList String :=
  match tx with
  | .registerAsset msg => coinsOf bondDenom (namedAmount k.sdk msg.bond)
  | .mintRWA msg =>
      coinsOf bondDenom
        (namedFee k.sdk (getParams store).mintFeeRate msg.notional)
  | .settleRWA msg =>
      match getAsset store msg.assetId with
      | some rec =>
          coinsOf bondDenom
              (namedFee k.sdk (getParams store).settleFeeRate
                rec.notionalMinted) ++
            coinsOf rec.denom (namedAmount k.sdk rec.notionalMinted)
      | none => []
  | tx =>
      match tx.requestedSend k store with
      | some (_, outputs) => outputCoins outputs
      | none => []

theorem namedAmount_eq {sdk : Sdk} {text : String} {amount : SdkInt}
    (hparsed : sdk.newIntFromString text = some amount) :
    namedAmount sdk text = amount.raw.toNat := by
  rw [namedAmount, hparsed]
  rfl

theorem namedFee_eq {sdk : Sdk} {rate text : String} {notional fee : SdkInt}
    (hnotional : sdk.newIntFromString text = some notional)
    (hfee : FeeOf sdk rate notional fee) :
    namedFee sdk rate text = fee.raw.toNat := by
  obtain ⟨value, hrate, hproduct⟩ := hfee
  simp [namedFee, toOption_eq_some_iff.mpr hrate, hnotional, hproduct]

/-- An accepted transaction takes from an account that belongs to no module
at most its bill, and only if that account signed it. -/
theorem balance_le_of_accepted
    {k : Keeper} {env : Env} {s s' : RwaState} {tx : RwaTx}
    (haccepted : Accepted k env s tx s') {account : Address}
    (hkeyed : account ∉ keylessAccounts k) (denom : String) :
    s.bank.balance account denom ≤ s'.bank.balance account denom +
      if tx.signer k.sdk = .ok account then
        amountOf (tx.bill k s.store) denom
      else 0 := by
  have hmodule : account ≠ moduleAddress k := fun heq =>
    hkeyed (heq ▸ moduleAddress_keyless k)
  cases haccepted with
  | registered hvalid hissuer hfresh hbond hmin hbank =>
      refine (Ledger.balance_le_of_execAll hbank account denom).trans ?_
      simp [RwaTx.bill, RwaTx.signer, hissuer, namedAmount_eq hbond,
        LedgerOp.outflow, outputCoins, eq_comm]
  | attested => exact Nat.le_add_right _ _
  | minted howned hstatus hnotional hpos hfee hprev htotal hbank =>
      refine (Ledger.balance_le_of_execAll hbank account denom).trans ?_
      simp [RwaTx.bill, RwaTx.signer, howned.caller_decodes,
        namedFee_eq hnotional hfee, LedgerOp.outflow, outputCoins, hmodule,
        eq_comm]
  | transferred hstored hstatus hsender hrecipient hamount hpos hallowed
      hbank =>
      refine (Ledger.balance_le_of_execAll hbank account denom).trans ?_
      simp [RwaTx.bill, RwaTx.requestedSend, RwaTx.signer, hstored, hsender,
        hrecipient, hamount, Except.toOption, LedgerOp.outflow, eq_comm]
  | restricted => exact Nat.le_add_right _ _
  | @settled msg issuer rec notional fee bond bank howned hstatus hnotional
      hfee hbond hbank =>
      refine (Ledger.balance_le_of_execAll hbank account denom).trans ?_
      simp only [RwaTx.bill, RwaTx.signer, howned.caller_decodes,
        howned.stored, namedFee_eq hnotional hfee, namedAmount_eq hnotional]
      -- the issuer pays the fee and hands in the units
      by_cases hissuer : account = issuer
      · subst hissuer
        simp [LedgerOp.outflow, outputCoins, hmodule]
      · simp [LedgerOp.outflow, hmodule, hissuer]
  | slashed hauthority hstored hissuer hstatus hbond hbank =>
      refine (Ledger.balance_le_of_execAll hbank account denom).trans ?_
      simp [LedgerOp.outflow, hmodule]
  | reparametrized => exact Nat.le_add_right _ _
  | sent hopen hallowed hbank =>
      refine (Ledger.balance_le_of_execAll hbank account denom).trans ?_
      simp [RwaTx.bill, RwaTx.requestedSend, RwaTx.signer, LedgerOp.outflow,
        eq_comm]
  | paid hallowed hbank =>
      refine (Ledger.balance_le_of_execAll hbank account denom).trans ?_
      simp [RwaTx.bill, RwaTx.requestedSend, RwaTx.signer, LedgerOp.outflow,
        eq_comm]

end Rwa

namespace Chain

open Transition
open Rwa (Bank BankOp RwaTx keylessAccounts bondDenom coinsOf)
open Oracle (SlashCall)

/-- The bill of a step, if the account signed it and it was accepted. -/
def billedTo (k : Keeper) (account : Address) (denom : String)
    (entry : ChainState × ChainStep k) : ℕ :=
  match entry.2 with
  | .rwa ctx accepts tx =>
      if tx.signer k.sdk = .ok account ∧ Rwa.delivered k
          (rwaStateOf entry.1, (envAt k entry.1 ctx accepts, tx)) = true then
        amountOf (tx.bill k entry.1.rwa) denom
      else 0
  | _ => 0

section Steps

variable {k : Keeper} {account : Address}

theorem moduleAddress_ne_of_keyed (hkeyed : account ∉ keylessAccounts k)
    {name : String} (hname : name ∈ moduleAccountNames.filter (· ≠ "gov")) :
    account ≠ k.sdk.newModuleAddress name := fun heq =>
  hkeyed (heq ▸ List.mem_map_of_mem hname)

/-- Slashes burn from the bonded pool. -/
theorem executeSlashes_keyed (hkeyed : account ∉ keylessAccounts k)
    (slashing : Slashing) (earlier : List SlashCall) (bank : Bank)
    (calls : List SlashCall) (denom : String) :
    (executeSlashes k slashing earlier bank calls).balance account denom =
      bank.balance account denom := by
  induction calls generalizing earlier bank with
  | nil => rfl
  | cons call rest ih =>
      rw [executeSlashes, ih]
      unfold executeSlash
      cases hexec : bank.exec (.burn (bondedPool k)
          (coinsOf bondDenom (slashing.burned earlier call))) with
      | none => rfl
      | some bank' =>
          have hpool : account ≠ bondedPool k :=
            moduleAddress_ne_of_keyed hkeyed (by decide)
          have hlaw := Ledger.exec_balance hexec account denom
          simpa [LedgerOp.inflow, LedgerOp.outflow, hpool] using hlaw

theorem burned_keyed (hkeyed : account ∉ keylessAccounts k)
    {s s' : Fees.FeesState} (hburned : Fees.Burned k s s')
    (denom : String) :
    s'.bank.balance account denom = s.bank.balance account denom := by
  have hcollector : account ≠ Rwa.feeCollector k :=
    moduleAddress_ne_of_keyed hkeyed (by decide)
  have hfees : account ≠ Fees.feesAccount k :=
    moduleAddress_ne_of_keyed hkeyed (by decide)
  cases hburned with
  | nothing => rfl
  | moved hbank =>
      have hlaw := Ledger.execAll_balance hbank account denom
      simpa [LedgerOp.inflow, LedgerOp.outflow, received, hcollector,
        hfees] using hlaw
  | burned hamount htotal hbank =>
      have hlaw := Ledger.execAll_balance hbank account denom
      simpa [LedgerOp.inflow, LedgerOp.outflow, received, hcollector,
        hfees] using hlaw

theorem balance_le_of_chainStep (hkeyed : account ∉ keylessAccounts k)
    {s s' : ChainState} {step : ChainStep k}
    (hstep : chainStep k s step = some s') (denom : String) :
    s.bank.balance account denom ≤
      s'.bank.balance account denom +
        billedTo k account denom (s, step) := by
  cases step with
  | rwa ctx accepts tx =>
      simp only [chainStep, Option.some.injEq] at hstep
      have hrwa : Rwa.rwaStep k (rwaStateOf s) (envAt k s ctx accepts, tx) =
          some (Rwa.commit (rwaStateOf s)
            (Rwa.deliver k (envAt k s ctx accepts) (rwaStateOf s) tx)) := rfl
      subst hstep
      rcases Rwa.rwaStep_cases hrwa with ⟨failure, hfailed, hsame⟩ |
        ⟨hdelivered, -, haccepted⟩
      · rw [hsame]
        exact Nat.le_add_right _ _
      · have hloss := Rwa.balance_le_of_accepted haccepted hkeyed denom
        simp only [billedTo, Rwa.delivered_of_ok hdelivered, and_true]
        exact hloss
  | setFeeder staking msg =>
      cases hstep
      exact Nat.le_add_right _ _
  | submitFeed ctx staking msg =>
      cases hstep
      exact Nat.le_add_right _ _
  | updateOracleParams msg =>
      cases hstep
      exact Nat.le_add_right _ _
  | updateFeesParams msg =>
      cases hstep
      exact Nat.le_add_right _ _
  | endBlock ctx staking slashing accepts =>
      rw [chainStep, toOption_eq_some_iff] at hstep
      obtain ⟨result, -, -, hburned⟩ := endBlock_cases hstep
      have hfees := burned_keyed hkeyed hburned denom
      rw [executeSlashes_keyed hkeyed] at hfees
      exact (Nat.le_add_right _ _).trans' hfees.ge

end Steps

/-- Over every run of the chain, an account that belongs to no module loses at
most what the messages it signed itself name: other users, the authority and
the block itself cannot take its coins. -/
theorem coins_leave_by_own_messages
    {k : Keeper} {account : Address} {start s : ChainState}
    {history : ChainHistory k} (hkeyed : account ∉ keylessAccounts k)
    (hrun : Run (chainStep k) start history s) (denom : String) :
    start.bank.balance account denom ≤
      s.bank.balance account denom +
        (history.map (billedTo k account denom)).sum := by
  induction hrun with
  | start => simp
  | @next history before after step hbefore hstep ih =>
      have hlast := balance_le_of_chainStep hkeyed hstep denom
      simp only [List.map_cons, List.sum_cons]
      omega

/-- The issuer pays the bond and a mint fee, and the validators who report
prices in between cost it nothing. -/
theorem issuer_pays_bond_and_fee :
    ∃ start history s,
      initChain referenceKeeper Oracle.boundaryCtx twoValidators
          issuerGenesis = .ok start ∧
        Run (chainStep referenceKeeper) start history s ∧
        s.bank.balance (addressOf 1) bondDenom = 9999999999 ∧
        (history.map (billedTo referenceKeeper (addressOf 1)
          bondDenom)).sum = 10000000001 ∧
        start.bank.balance (addressOf 1) bondDenom ≤
          9999999999 + 10000000001 := by
  have hfacts : ((initChain referenceKeeper Oracle.boundaryCtx twoValidators
      issuerGenesis).toOption.any fun start =>
        (replay (chainStep referenceKeeper) [] start
          (attestSteps ++ [rwaTx (Rwa.mintLand "1000")])).any fun r =>
            decide (addressOf 1 ∉ keylessAccounts referenceKeeper) &&
            decide (r.2.bank.balance (addressOf 1) bondDenom = 9999999999) &&
            decide ((r.1.map (billedTo referenceKeeper (addressOf 1)
              bondDenom)).sum = 10000000001)) = true := by
    decide +kernel
  obtain ⟨start, hinit, hreplayed⟩ := exists_ok_of_any hfacts
  obtain ⟨⟨history, s⟩, hreplay, hchecked⟩ := exists_some_of_any hreplayed
  simp only [Bool.and_eq_true, decide_eq_true_eq] at hchecked
  obtain ⟨⟨hkeyed, hleft⟩, hbilled⟩ := hchecked
  have hrun := run_of_replay Run.start hreplay
  have hbound := coins_leave_by_own_messages hkeyed hrun bondDenom
  rw [hleft, hbilled] at hbound
  exact ⟨start, history, s, hinit, hrun, hleft, hbilled, hbound⟩

end Chain

end Vertix

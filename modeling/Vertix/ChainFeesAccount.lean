import Vertix.ChainSupply
import Vertix.RwaModuleAccount
import Mathlib.Tactic

/-!
# The account of the fees module

The EndBlocker moves its share to the module account and burns it there, so
that its own operations cancel out.  The account is not among the blocked
recipients of the application, however, and nothing ever takes coins out of it
again.  The account is therefore empty at the block boundaries exactly as long
as no transaction has paid base coins into it.
-/

namespace Vertix
namespace Chain

open Transition
open Rwa (Bank BankOp RwaStore RwaTx bondDenom coinsOf)
open Oracle (SlashCall)
open Fees (feesAccount feeDenom)

/-! ## Transactions -/

/-- The coins of a denomination which a requested send pays to an account. -/
def coinsPaid (k : Keeper) (store : RwaStore) (tx : RwaTx)
    (account : Address) (denom : String) : ℕ :=
  match tx.requestedSend k store with
  | some (_, outputs) => received outputs account denom
  | none => 0

theorem feesAccount_keyless (k : Keeper) :
    feesAccount k ∈ Rwa.keylessAccounts k :=
  List.mem_map_of_mem (by decide)

theorem feesAccount_ne {k : Keeper} {name : String}
    (hname : name ∈ moduleAccountNames) (hother : Fees.moduleName ≠ name) :
    feesAccount k ≠ k.sdk.newModuleAddress name := fun heq =>
  hother (k.sdk.newModuleAddress_distinct Fees.moduleName (by decide) name
    hname heq)

/-- The module account signs nothing and no handler pays it, so that only a
send which names it as recipient changes what it holds. -/
theorem accepted_feesAccount_balance
    {k : Keeper} {env : Rwa.Env} {s s' : Rwa.RwaState} {tx : RwaTx}
    (haccepted : Rwa.Accepted k env s tx s')
    (hsignable : tx.signable k = true) (denom : String) :
    s'.bank.balance (feesAccount k) denom =
      s.bank.balance (feesAccount k) denom +
        coinsPaid k s.store tx (feesAccount k) denom := by
  have hmodule : feesAccount k ≠ Rwa.moduleAddress k :=
    feesAccount_ne (by decide) (by decide)
  have hcollector : feesAccount k ≠ Rwa.feeCollector k :=
    feesAccount_ne (by decide) (by decide)
  have hdistribution : feesAccount k ≠ Rwa.distributionAccount k :=
    feesAccount_ne (by decide) (by decide)
  have hsigner : ∀ signer, tx.signer k.sdk = .ok signer →
      feesAccount k ≠ signer :=
    fun _ => Rwa.ne_signer_of_keyless (feesAccount_keyless k) hsignable
  cases haccepted with
  | registered hvalid hissuer hfresh hbond hmin hbank =>
      have hne := hsigner _ hissuer
      have hlaw := Ledger.execAll_balance hbank (feesAccount k) denom
      simpa [coinsPaid, RwaTx.requestedSend, LedgerOp.inflow,
        LedgerOp.outflow, hne, hmodule] using hlaw
  | attested => rfl
  | minted howned hstatus hnotional hpos hfee hprev htotal hbank =>
      have hne := hsigner _ howned.caller_decodes
      have hlaw := Ledger.execAll_balance hbank (feesAccount k) denom
      simpa [coinsPaid, RwaTx.requestedSend, LedgerOp.inflow,
        LedgerOp.outflow, hne, hmodule, hcollector] using hlaw
  | transferred hstored hstatus hsender hrecipient hamount hpos hallowed
      hbank =>
      have hne := hsigner _ hsender
      have hlaw := Ledger.execAll_balance hbank (feesAccount k) denom
      simpa [coinsPaid, RwaTx.requestedSend, hstored, hsender, hrecipient,
        hamount, Except.toOption, LedgerOp.inflow, LedgerOp.outflow,
        hne] using hlaw
  | restricted => rfl
  | settled howned hstatus hnotional hfee hbond hbank =>
      have hne := hsigner _ howned.caller_decodes
      have hlaw := Ledger.execAll_balance hbank (feesAccount k) denom
      simpa [coinsPaid, RwaTx.requestedSend, LedgerOp.inflow,
        LedgerOp.outflow, hne, hmodule, hcollector] using hlaw
  | slashed hauthority hstored hissuer hstatus hbond hbank =>
      have hlaw := Ledger.execAll_balance hbank (feesAccount k) denom
      simpa [coinsPaid, RwaTx.requestedSend, LedgerOp.inflow,
        LedgerOp.outflow, hmodule, hdistribution] using hlaw
  | reparametrized => rfl
  | sent hopen hallowed hbank =>
      have hne := hsigner _ rfl
      have hlaw := Ledger.execAll_balance hbank (feesAccount k) denom
      simpa [coinsPaid, RwaTx.requestedSend, LedgerOp.inflow,
        LedgerOp.outflow, hne] using hlaw
  | paid hallowed hbank =>
      have hne := hsigner _ rfl
      have hlaw := Ledger.execAll_balance hbank (feesAccount k) denom
      simpa [coinsPaid, RwaTx.requestedSend, LedgerOp.inflow,
        LedgerOp.outflow, hne, hcollector] using hlaw

/-- The base coins which a step pays to the module account. -/
def paidToFees (k : Keeper) (entry : ChainState × ChainStep k) : ℕ :=
  match entry.2 with
  | .rwa ctx accepts tx =>
      if Rwa.delivered k
          (rwaStateOf entry.1, (envAt k entry.1 ctx accepts, tx)) then
        coinsPaid k entry.1.rwa tx (feesAccount k) feeDenom
      else 0
  | _ => 0

/-! ## Blocks -/

/-- Slashes burn from the bonded pool. -/
theorem executeSlash_feesAccount (k : Keeper) (slashing : Slashing)
    (earlier : List SlashCall) (bank : Bank) (call : SlashCall) :
    (executeSlash k slashing earlier bank call).balance (feesAccount k)
        feeDenom = bank.balance (feesAccount k) feeDenom ∧
      ∀ holders, bank.HeldBy feeDenom holders →
        ∃ holders', (executeSlash k slashing earlier bank call).HeldBy
          feeDenom holders' := by
  unfold executeSlash
  cases hexec : bank.exec (.burn (bondedPool k)
      (coinsOf bondDenom (slashing.burned earlier call))) with
  | none => exact ⟨rfl, fun holders hheld => ⟨holders, hheld⟩⟩
  | some bank' =>
      have hpool : feesAccount k ≠ bondedPool k :=
        feesAccount_ne (by decide) (by decide)
      have hlaw := Ledger.exec_balance hexec (feesAccount k) feeDenom
      constructor
      · simpa [LedgerOp.inflow, LedgerOp.outflow, hpool] using hlaw
      · intro holders hheld
        exact ⟨_, Ledger.exec_heldBy hexec hheld⟩

theorem executeSlashes_feesAccount (k : Keeper) (slashing : Slashing)
    (earlier : List SlashCall) (bank : Bank) (calls : List SlashCall) :
    (executeSlashes k slashing earlier bank calls).balance (feesAccount k)
        feeDenom = bank.balance (feesAccount k) feeDenom ∧
      ∀ holders, bank.HeldBy feeDenom holders →
        ∃ holders', (executeSlashes k slashing earlier bank calls).HeldBy
          feeDenom holders' := by
  induction calls generalizing earlier bank with
  | nil => exact ⟨rfl, fun holders hheld => ⟨holders, hheld⟩⟩
  | cons call rest ih =>
      obtain ⟨hbalance, hheld⟩ :=
        executeSlash_feesAccount k slashing earlier bank call
      obtain ⟨hbalance', hheld'⟩ := ih (earlier ++ [call])
        (executeSlash k slashing earlier bank call)
      refine ⟨hbalance'.trans hbalance, ?_⟩
      intro holders hstart
      obtain ⟨holders', hmiddle⟩ := hheld holders hstart
      exact hheld' holders' hmiddle

/-- The bank carries out the operations of an EndBlocker which the balances
cover. -/
def ChainStep.Accepting {k : Keeper} : ChainStep k → Prop
  | .endBlock _ _ _ accepts => ∀ op, accepts op = true
  | _ => True

theorem heldBy_of_burned {k : Keeper} {s s' : Fees.FeesState}
    (hburned : Fees.Burned k s s') {holders : Finset Address}
    (hheld : s.bank.HeldBy feeDenom holders) :
    ∃ holders', s'.bank.HeldBy feeDenom holders' := by
  cases hburned with
  | nothing => exact ⟨holders, hheld⟩
  | moved hbank => exact Ledger.execAll_heldBy hbank hheld
  | burned hamount htotal hbank => exact Ledger.execAll_heldBy hbank hheld

/-- One step adds to the module account what it pays to it. -/
theorem chainStep_feesAccount
    {k : Keeper} {s s' : ChainState} {step : ChainStep k}
    {holders : Finset Address} (hstep : chainStep k s step = some s')
    (haccepting : step.Accepting)
    (hheld : s.bank.HeldBy feeDenom holders) :
    (∃ holders', s'.bank.HeldBy feeDenom holders') ∧
      s'.bank.balance (feesAccount k) feeDenom =
        s.bank.balance (feesAccount k) feeDenom + paidToFees k (s, step) := by
  cases step with
  | rwa ctx accepts tx =>
      simp only [chainStep, Option.some.injEq] at hstep
      have hrwa : Rwa.rwaStep k (rwaStateOf s) (envAt k s ctx accepts, tx) =
          some (Rwa.commit (rwaStateOf s)
            (Rwa.deliver k (envAt k s ctx accepts) (rwaStateOf s) tx)) := rfl
      subst hstep
      rcases Rwa.rwaStep_cases hrwa with ⟨failure, hfailed, hsame⟩ |
        ⟨hdelivered, hsignable, haccepted⟩
      · rw [hsame]
        refine ⟨⟨holders, hheld⟩, ?_⟩
        simp only [paidToFees, Rwa.delivered_of_error hfailed,
          Bool.false_eq_true, if_false, Nat.add_zero]
        rfl
      · obtain ⟨ops, hbank⟩ := haccepted.exec_bank
        refine ⟨Ledger.execAll_heldBy hbank hheld, ?_⟩
        simp only [paidToFees, Rwa.delivered_of_ok hdelivered, if_true]
        exact accepted_feesAccount_balance haccepted hsignable feeDenom
  | setFeeder staking msg =>
      simp only [chainStep, Option.some.injEq] at hstep
      subst hstep
      exact ⟨⟨holders, hheld⟩, rfl⟩
  | submitFeed ctx staking msg =>
      simp only [chainStep, Option.some.injEq] at hstep
      subst hstep
      exact ⟨⟨holders, hheld⟩, rfl⟩
  | updateOracleParams msg =>
      simp only [chainStep, Option.some.injEq] at hstep
      subst hstep
      exact ⟨⟨holders, hheld⟩, rfl⟩
  | updateFeesParams msg =>
      simp only [chainStep, Option.some.injEq] at hstep
      subst hstep
      exact ⟨⟨holders, hheld⟩, rfl⟩
  | endBlock ctx staking slashing accepts =>
      rw [chainStep, toOption_eq_some_iff] at hstep
      simp only [endBlock, bind_eq_ok_iff, pure_eq_ok_iff] at hstep
      obtain ⟨result, -, fees, hfees, rfl⟩ := hstep
      obtain ⟨hbalance, hslashed⟩ :=
        executeSlashes_feesAccount k slashing [] s.bank result.2
      obtain ⟨holders', hheld'⟩ := hslashed holders hheld
      refine ⟨heldBy_of_burned (Fees.burned_of_endBlocker hfees) hheld', ?_⟩
      have haccepts : ∀ op, (envAt k s ctx accepts).accepts op = true :=
        haccepting
      have hcancel := Fees.endBlocker_balance_feesAccount haccepts hheld' hfees
      simp only [paidToFees, Nat.add_zero]
      exact hcancel.trans hbalance

/-! ## Runs -/

def totalPaidToFees (k : Keeper) (history : ChainHistory k) : ℕ :=
  (history.map (paidToFees k)).sum

/-- The account holds what it held at the start and everything paid to it
since. -/
theorem feesAccount_balance_of_run
    {k : Keeper} {start s : ChainState} {history : ChainHistory k}
    {holders : Finset Address} (hheld : start.bank.HeldBy feeDenom holders)
    (hrun : Run (chainStep k) start history s)
    (haccepting : ∀ entry ∈ history, entry.2.Accepting) :
    s.bank.balance (feesAccount k) feeDenom =
      start.bank.balance (feesAccount k) feeDenom +
        totalPaidToFees k history := by
  have hall := Run.induct_conditional
    (P := fun history s => (∃ holders, s.bank.HeldBy feeDenom holders) ∧
      s.bank.balance (feesAccount k) feeDenom =
        start.bank.balance (feesAccount k) feeDenom +
          totalPaidToFees k history)
    (C := fun _ step => step.Accepting) ⟨⟨holders, hheld⟩, rfl⟩ ?_ hrun
    haccepting
  · exact hall.2
  · rintro history state step state' - ⟨⟨before, hbefore⟩, hbalance⟩ haccepts
      hstep
    obtain ⟨hheld', hbalance'⟩ :=
      chainStep_feesAccount hstep haccepts hbefore
    refine ⟨hheld', ?_⟩
    rw [hbalance', hbalance]
    simp only [totalPaidToFees, List.map_cons, List.sum_cons]
    omega

/-- The states right after the blocks of a history, newest first. -/
def boundaryStates {k : Keeper} : ChainHistory k → ChainState → List ChainState
  | [], _ => []
  | (before, step) :: older, after =>
      if step.isEndBlock then after :: boundaryStates older before
      else boundaryStates older before

/-- The part of a history up to its last block boundary. -/
def closedPart {k : Keeper} (history : ChainHistory k) : ChainHistory k :=
  history.dropWhile fun entry => !entry.2.isEndBlock

/-- The states at the boundaries are reached by parts of the history which end
with a block. -/
theorem exists_run_of_mem_boundaryStates
    {k : Keeper} {start s b : ChainState} {history : ChainHistory k}
    (hrun : Run (chainStep k) start history s)
    (hboundary : b ∈ boundaryStates history s) :
    ∃ older, Run (chainStep k) start older b ∧ older ≠ [] ∧
      older <:+ closedPart history := by
  induction hrun with
  | start => simp [boundaryStates] at hboundary
  | @next history before after step hrun hstep ih =>
      cases hblock : step.isEndBlock with
      | true =>
          have hclosed : closedPart ((before, step) :: history) =
              (before, step) :: history := by
            simp [closedPart, hblock]
          rw [boundaryStates, if_pos hblock, List.mem_cons] at hboundary
          rw [hclosed]
          rcases hboundary with rfl | hearlier
          · exact ⟨_, Run.next hrun hstep, by simp, List.suffix_rfl⟩
          · obtain ⟨older, hreached, hne, hsuffix⟩ := ih hearlier
            exact ⟨older, hreached, hne, (hsuffix.trans
              (List.dropWhile_suffix _)).trans (List.suffix_cons _ _)⟩
      | false =>
          rw [boundaryStates, hblock, if_neg Bool.false_ne_true] at hboundary
          have hclosed : closedPart ((before, step) :: history) =
              closedPart history := by
            simp [closedPart, hblock]
          rw [hclosed]
          exact ih hboundary

theorem exists_newest_boundary
    {k : Keeper} {start s : ChainState} {history : ChainHistory k}
    (hrun : Run (chainStep k) start history s)
    (hclosed : closedPart history ≠ []) :
    ∃ b ∈ boundaryStates history s,
      Run (chainStep k) start (closedPart history) b := by
  induction hrun with
  | start => simp [closedPart] at hclosed
  | @next history before after step hrun hstep ih =>
      cases hblock : step.isEndBlock with
      | true =>
          have hwhole : closedPart ((before, step) :: history) =
              (before, step) :: history := by
            simp [closedPart, hblock]
          rw [hwhole]
          exact ⟨after, by simp [boundaryStates, hblock],
            Run.next hrun hstep⟩
      | false =>
          have holder : closedPart ((before, step) :: history) =
              closedPart history := by
            simp [closedPart, hblock]
          rw [holder] at hclosed ⊢
          obtain ⟨b, hmem, hreached⟩ := ih hclosed
          exact ⟨b, by simpa [boundaryStates, hblock] using hmem, hreached⟩

/-- The module account is empty after each block exactly if it was empty at
the start and no transaction up to the last block boundary has paid base coins
into it. -/
theorem fees_account_empty_iff
    {k : Keeper} {start s : ChainState} {history : ChainHistory k}
    {holders : Finset Address} (hheld : start.bank.HeldBy feeDenom holders)
    (hrun : Run (chainStep k) start history s)
    (haccepting : ∀ entry ∈ history, entry.2.Accepting) :
    (∀ b ∈ boundaryStates history s, Fees.ModuleEmpty k b.bank) ↔
      (closedPart history ≠ [] → Fees.ModuleEmpty k start.bank) ∧
        ∀ entry ∈ closedPart history, paidToFees k entry = 0 := by
  have hpart : ∀ {older : ChainHistory k} {b : ChainState},
      Run (chainStep k) start older b → older <:+ closedPart history →
      b.bank.balance (feesAccount k) feeDenom =
        start.bank.balance (feesAccount k) feeDenom +
          totalPaidToFees k older := by
    intro older b hreached hsuffix
    have hmem : ∀ entry ∈ older, entry.2.Accepting := fun entry hentry =>
      haccepting entry
        ((hsuffix.trans (List.dropWhile_suffix _)).subset hentry)
    exact feesAccount_balance_of_run hheld hreached hmem
  constructor
  · intro hempty
    by_cases hclosed : closedPart history = []
    · simp [hclosed]
    · obtain ⟨b, hmem, hreached⟩ := exists_newest_boundary hrun hclosed
      have hlaw := hpart hreached List.suffix_rfl
      have hzero : b.bank.balance (feesAccount k) feeDenom = 0 := hempty b hmem
      rw [hzero] at hlaw
      have hpaid : totalPaidToFees k (closedPart history) = 0 := by omega
      refine ⟨fun _ => by unfold Fees.ModuleEmpty; omega, ?_⟩
      intro entry hentry
      exact List.sum_eq_zero_iff.mp hpaid _ (List.mem_map_of_mem hentry)
  · rintro ⟨hstart, hquiet⟩ b hmem
    obtain ⟨older, hreached, hne, hsuffix⟩ :=
      exists_run_of_mem_boundaryStates hrun hmem
    have hlaw := hpart hreached hsuffix
    have hpaid : totalPaidToFees k older = 0 := by
      apply List.sum_eq_zero
      intro paid hpaid
      obtain ⟨entry, hentry, rfl⟩ := List.mem_map.mp hpaid
      exact hquiet entry (hsuffix.subset hentry)
    have hclosed : closedPart history ≠ [] := by
      intro hnone
      rw [hnone, List.suffix_nil] at hsuffix
      exact hne hsuffix
    have hempty : start.bank.balance (feesAccount k) feeDenom = 0 :=
      hstart hclosed
    unfold Fees.ModuleEmpty
    omega

/-! ## Payments into the account -/

theorem bank_of_initChain
    {k : Keeper} {ctx : Ctx} {staking : StakingView k.sdk}
    {gs : ChainGenesis} {start : ChainState}
    (hinit : initChain k ctx staking gs = .ok start) : start.bank = gs.bank := by
  simp only [initChain, bind_eq_ok_iff, pure_eq_ok_iff] at hinit
  obtain ⟨oracle, -, rwa, -, fees, -, rfl⟩ := hinit
  rfl

theorem stakedBank_heldBy :
    stakedBank.HeldBy feeDenom
      {bondedPool referenceKeeper, addressOf 1} := by
  have hpool : addressOf 1 ≠ bondedPool referenceKeeper := by decide +kernel
  constructor
  · intro account haccount
    simp only [Finset.mem_insert, Finset.mem_singleton, not_or] at haccount
    simp [stakedBank, haccount.1, haccount.2]
  · rw [Finset.sum_pair hpool.symm]
    simp [stakedBank, hpool, feeDenom, bondDenom]

/-- A replayed block of accepting transactions ends at a boundary. -/
theorem boundary_of_runStaked {txs : List (ChainStep referenceKeeper)}
    {start s : ChainState} {history : ChainHistory referenceKeeper}
    (hrun : runStaked (txs ++ [closeWindow]) = some (start, history, s))
    (htxs : ∀ step ∈ txs, step.Accepting) :
    (∀ entry ∈ history, entry.2.Accepting) ∧ s ∈ boundaryStates history s := by
  have hlabels : history.map Prod.snd = closeWindow :: txs.reverse := by
    simp only [runStaked, Option.bind_eq_some_iff, Option.map_eq_some_iff,
      Prod.mk.injEq] at hrun
    obtain ⟨start', -, run, hreplay, rfl, rfl, rfl⟩ := hrun
    simpa using labels_of_replay hreplay
  cases history with
  | nil => cases hlabels
  | cons newest older =>
      obtain ⟨hclose, holder⟩ := List.cons.inj hlabels
      constructor
      · intro entry hentry
        have hlabel : entry.2 ∈ closeWindow :: txs.reverse := by
          rw [← hlabels]
          exact List.mem_map_of_mem hentry
        rcases List.mem_cons.mp hlabel with hlast | htx
        · rw [hlast]
          exact fun _ => rfl
        · exact htxs _ (List.mem_reverse.mp htx)
      · have hblock : newest.2.isEndBlock = true := by
          rw [hclose]
          rfl
        simp [boundaryStates, hblock]

/-- A fee is paid and shared out; the module account has passed its share
on. -/
theorem fee_leaves_account_empty :
    ∃ start history s,
      initChain referenceKeeper Oracle.boundaryCtx twoValidators
          stakedGenesis = .ok start ∧
        Run (chainStep referenceKeeper) start history s ∧
        s ∈ boundaryStates history s ∧
        s.bank.supply "uvtx" = 20000960 ∧
        Fees.ModuleEmpty referenceKeeper s.bank := by
  have hfacts : (runStaked (feedTxs "1.0" "1.0" ++ [closeWindow])).any
      (fun r => r.2.1.all (fun entry =>
          decide (paidToFees referenceKeeper entry = 0)) &&
        r.2.2.bank.supply "uvtx" == 20000960) = true := by
    decide +kernel
  have hempty : stakedBank.balance (feesAccount referenceKeeper) feeDenom =
      0 := by
    decide +kernel
  obtain ⟨⟨start, history, s⟩, hrun, hchecked⟩ := exists_some_of_any hfacts
  simp only [Bool.and_eq_true, beq_iff_eq, List.all_eq_true,
    decide_eq_true_eq] at hchecked
  obtain ⟨hinit, hreached⟩ := run_of_runStaked hrun
  have hbank : start.bank = stakedBank := bank_of_initChain hinit
  obtain ⟨haccepting, hboundary⟩ := boundary_of_runStaked hrun (by
    simp [feedTxs, ChainStep.Accepting])
  refine ⟨start, history, s, hinit, hreached, hboundary, hchecked.2, ?_⟩
  apply (fees_account_empty_iff (hbank ▸ stakedBank_heldBy) hreached
    haccepting).mpr _ s hboundary
  constructor
  · intro _
    rw [hbank]
    exact hempty
  · intro entry hentry
    exact hchecked.1 entry ((List.dropWhile_suffix _).subset hentry)

/-- A plain bank send to the module account stays there past the end of the
block. -/
theorem send_to_fees_account_stays :
    ∃ start history s,
      initChain referenceKeeper Oracle.boundaryCtx twoValidators
          stakedGenesis = .ok start ∧
        Fees.ModuleEmpty referenceKeeper start.bank ∧
        Run (chainStep referenceKeeper) start history s ∧
        (∀ entry ∈ history, entry.2.Accepting) ∧
        s ∈ boundaryStates history s ∧
        s.bank.balance (feesAccount referenceKeeper) "uvtx" = 5 ∧
        ¬ Fees.ModuleEmpty referenceKeeper s.bank := by
  have hfacts : (runStaked ([.rwa Oracle.boundaryCtx (fun _ => true)
      (.bankSend (addressOf 1)
        [(feesAccount referenceKeeper, [("uvtx", 5)])])] ++
          [closeWindow])).any (fun r =>
      r.1.bank.balance (feesAccount referenceKeeper) "uvtx" == 0 &&
        r.2.2.bank.balance (feesAccount referenceKeeper) "uvtx" == 5) =
          true := by
    decide +kernel
  obtain ⟨⟨start, history, s⟩, hrun, hchecked⟩ := exists_some_of_any hfacts
  simp only [Bool.and_eq_true, beq_iff_eq] at hchecked
  obtain ⟨hinit, hreached⟩ := run_of_runStaked hrun
  obtain ⟨haccepting, hboundary⟩ := boundary_of_runStaked hrun (by
    simp [ChainStep.Accepting])
  refine ⟨start, history, s, hinit, hchecked.1, hreached, haccepting,
    hboundary, hchecked.2, ?_⟩
  intro hempty
  have hzero : s.bank.balance (feesAccount referenceKeeper) "uvtx" = 0 :=
    hempty
  rw [hchecked.2] at hzero
  cases hzero

end Chain
end Vertix

import Mathlib.Algebra.BigOperators.Group.Finset.Piecewise
import Mathlib.Logic.Function.Basic
import Mathlib.Tactic

/-!
# Multi-denomination coin ledgers

Balances and supplies are natural numbers.  A debit exists only when the
balance covers it.  A ledger changes by three operations: a send with one or
several outputs, a mint and a burn.  Every law below is an equation without
subtraction, so that sequences of operations can be added up by linear
arithmetic.
-/

namespace Vertix

structure Ledger (A D : Type) where
  balance : A → D → ℕ
  supply : D → ℕ

theorem Ledger.ext_balance {A D : Type} {left right : Ledger A D}
    (hbalance : ∀ account denom,
      left.balance account denom = right.balance account denom)
    (hsupply : ∀ denom, left.supply denom = right.supply denom) :
    left = right := by
  cases left
  cases right
  rw [Ledger.mk.injEq]
  exact ⟨funext₂ hbalance, funext hsupply⟩

/-- No account outside the set holds coins of the denomination, and those in
it hold its whole supply. -/
def Ledger.HeldBy {A D : Type} (ledger : Ledger A D) (denom : D)
    (holders : Finset A) : Prop :=
  (∀ account ∉ holders, ledger.balance account denom = 0) ∧
    ∑ account ∈ holders, ledger.balance account denom = ledger.supply denom

theorem Ledger.HeldBy.mono {A D : Type} {ledger : Ledger A D}
    {denom : D} {holders more : Finset A} (hheld : ledger.HeldBy denom holders)
    (hsubset : holders ⊆ more) : ledger.HeldBy denom more := by
  constructor
  · intro account haccount
    exact hheld.1 account fun hmem => haccount (hsubset hmem)
  · rw [← hheld.2]
    symm
    exact Finset.sum_subset hsubset fun account _ => hheld.1 account

theorem Ledger.HeldBy.balance_le {A D : Type} {ledger : Ledger A D}
    {denom : D} {holders : Finset A} (hheld : ledger.HeldBy denom holders)
    (account : A) : ledger.balance account denom ≤ ledger.supply denom := by
  by_cases hmem : account ∈ holders
  · rw [← hheld.2]
    exact Finset.single_le_sum
      (f := fun other => ledger.balance other denom)
      (fun other _ => Nat.zero_le _) hmem
  · rw [hheld.1 account hmem]
    exact Nat.zero_le _

/-- Leaving out accounts without coins keeps the sum. -/
theorem Ledger.HeldBy.sum_filter {A D : Type} {ledger : Ledger A D}
    {denom : D} {holders : Finset A} (hheld : ledger.HeldBy denom holders)
    {keep : A → Prop} [DecidablePred keep]
    (hempty : ∀ account, ¬ keep account →
      ledger.balance account denom = 0) :
    ∑ account ∈ holders.filter keep, ledger.balance account denom =
      ledger.supply denom := by
  rw [← hheld.2, Finset.sum_filter]
  apply Finset.sum_congr rfl
  intro account _
  split_ifs with hkeep
  · rfl
  · exact (hempty account hkeep).symm

abbrev CoinList (D : Type) := List (D × ℕ)

/-- The coins which all outputs of a send take together. -/
def outputCoins {A D : Type} (outputs : List (A × CoinList D)) : CoinList D :=
  outputs.flatMap Prod.snd

@[simp] theorem outputCoins_single {A D : Type} (target : A)
    (coins : CoinList D) : outputCoins [(target, coins)] = coins := by
  simp [outputCoins]

section

variable {A D : Type} [DecidableEq D]

def amountOf : CoinList D → D → ℕ
  | [], _ => 0
  | coin :: rest, denom =>
      (if coin.1 = denom then coin.2 else 0) + amountOf rest denom

@[simp] theorem amountOf_nil (denom : D) : amountOf [] denom = 0 := rfl

@[simp] theorem amountOf_cons
    (coin : D × ℕ) (rest : CoinList D) (denom : D) :
    amountOf (coin :: rest) denom =
      (if coin.1 = denom then coin.2 else 0) + amountOf rest denom := rfl

@[simp] theorem amountOf_append
    (left right : CoinList D) (denom : D) :
    amountOf (left ++ right) denom =
      amountOf left denom + amountOf right denom := by
  induction left with
  | nil => simp
  | cons coin rest ih =>
      rw [List.cons_append, amountOf_cons, amountOf_cons, ih, Nat.add_assoc]

theorem amountOf_eq_zero_of_notMem
    {coins : CoinList D} {denom : D}
    (habsent : denom ∉ coins.map Prod.fst) : amountOf coins denom = 0 := by
  induction coins with
  | nil => rfl
  | cons coin rest ih =>
      simp only [List.map_cons, List.mem_cons, not_or] at habsent
      rw [amountOf_cons, if_neg (Ne.symm habsent.1), ih habsent.2]

theorem mem_denoms_of_amountOf_pos
    {coins : CoinList D} {denom : D} (hpos : 0 < amountOf coins denom) :
    denom ∈ coins.map Prod.fst := by
  by_contra habsent
  rw [amountOf_eq_zero_of_notMem habsent] at hpos
  exact lt_irrefl 0 hpos

theorem amountOf_outputCoins (outputs : List (A × CoinList D)) (denom : D) :
    amountOf (outputCoins outputs) denom =
      (outputs.map fun output => amountOf output.2 denom).sum := by
  induction outputs with
  | nil => rfl
  | cons output rest ih =>
      simp only [outputCoins, List.flatMap_cons, amountOf_append,
        List.map_cons, List.sum_cons] at ih ⊢
      rw [ih]

variable [DecidableEq A]

namespace Ledger

def credit (ledger : Ledger A D) (account : A) (denom : D) (amount : ℕ) :
    Ledger A D :=
  { ledger with
    balance := Function.update ledger.balance account
      (Function.update (ledger.balance account) denom
        (ledger.balance account denom + amount)) }

def debit (ledger : Ledger A D) (account : A) (denom : D) (amount : ℕ) :
    Option (Ledger A D) :=
  if amount ≤ ledger.balance account denom then
    some { ledger with
      balance := Function.update ledger.balance account
        (Function.update (ledger.balance account) denom
          (ledger.balance account denom - amount)) }
  else none

@[simp] theorem credit_supply
    (ledger : Ledger A D) (account : A) (denom : D) (amount : ℕ) :
    (ledger.credit account denom amount).supply = ledger.supply := rfl

theorem credit_balance
    (ledger : Ledger A D) (account other : A) (denom denom' : D)
    (amount : ℕ) :
    (ledger.credit account denom amount).balance other denom' =
      ledger.balance other denom' +
        if other = account ∧ denom = denom' then amount else 0 := by
  by_cases haccount : other = account
  · subst haccount
    by_cases hdenom : denom' = denom
    · subst hdenom
      simp [credit]
    · simp [credit, hdenom, Ne.symm hdenom]
  · simp [credit, haccount]

theorem debit_spec
    {ledger ledger' : Ledger A D} {account : A} {denom : D} {amount : ℕ}
    (hdebit : ledger.debit account denom amount = some ledger') :
    ledger'.supply = ledger.supply ∧
      ∀ other denom',
        ledger'.balance other denom' +
            (if other = account ∧ denom = denom' then amount else 0) =
          ledger.balance other denom' := by
  unfold debit at hdebit
  split_ifs at hdebit with hcovered
  simp only [Option.some.injEq] at hdebit
  subst hdebit
  refine ⟨rfl, ?_⟩
  intro other denom'
  by_cases haccount : other = account
  · subst haccount
    by_cases hdenom : denom' = denom
    · subst hdenom
      simp
      omega
    · simp [hdenom, Ne.symm hdenom]
  · simp [haccount]

def creditAll (ledger : Ledger A D) (account : A) :
    CoinList D → Ledger A D
  | [] => ledger
  | coin :: rest => (ledger.credit account coin.1 coin.2).creditAll account rest

def debitAll (ledger : Ledger A D) (account : A) :
    CoinList D → Option (Ledger A D)
  | [] => some ledger
  | coin :: rest =>
      (ledger.debit account coin.1 coin.2).bind fun ledger' =>
        ledger'.debitAll account rest

@[simp] theorem creditAll_supply
    (ledger : Ledger A D) (account : A) (coins : CoinList D) :
    (ledger.creditAll account coins).supply = ledger.supply := by
  induction coins generalizing ledger with
  | nil => rfl
  | cons coin rest ih => rw [creditAll, ih, credit_supply]

theorem creditAll_balance
    (ledger : Ledger A D) (account other : A) (coins : CoinList D)
    (denom : D) :
    (ledger.creditAll account coins).balance other denom =
      ledger.balance other denom +
        if other = account then amountOf coins denom else 0 := by
  induction coins generalizing ledger with
  | nil => simp [creditAll]
  | cons coin rest ih =>
      rw [creditAll, ih, credit_balance]
      by_cases haccount : other = account
      · simp [haccount]
        omega
      · simp [haccount]

theorem debitAll_spec
    {ledger ledger' : Ledger A D} {account : A} {coins : CoinList D}
    (hdebit : ledger.debitAll account coins = some ledger') :
    ledger'.supply = ledger.supply ∧
      ∀ other denom,
        ledger'.balance other denom +
            (if other = account then amountOf coins denom else 0) =
          ledger.balance other denom := by
  induction coins generalizing ledger with
  | nil =>
      simp only [debitAll, Option.some.injEq] at hdebit
      subst hdebit
      simp
  | cons coin rest ih =>
      simp only [debitAll, Option.bind_eq_some_iff] at hdebit
      obtain ⟨middle, hfirst, hrest⟩ := hdebit
      obtain ⟨hsupply, hbalance⟩ := debit_spec hfirst
      obtain ⟨hsupply', hbalance'⟩ := ih hrest
      refine ⟨hsupply'.trans hsupply, ?_⟩
      intro other denom
      have hleft := hbalance other denom
      have hright := hbalance' other denom
      by_cases haccount : other = account
      · simp only [haccount, true_and, if_true, amountOf_cons] at hleft hright ⊢
        omega
      · simp only [haccount, false_and, if_false] at hleft hright ⊢
        omega

/-- Pay several recipients in turn. -/
def creditOutputs (ledger : Ledger A D) :
    List (A × CoinList D) → Ledger A D
  | [] => ledger
  | output :: rest => (ledger.creditAll output.1 output.2).creditOutputs rest

/-- Create coins in one account. -/
def mint (ledger : Ledger A D) (account : A) (denom : D) (amount : ℕ) :
    Ledger A D :=
  { ledger.credit account denom amount with
    supply := Function.update ledger.supply denom
      (ledger.supply denom + amount) }

theorem mint_balance
    (ledger : Ledger A D) (account other : A) (denom denom' : D)
    (amount : ℕ) :
    (ledger.mint account denom amount).balance other denom' =
      ledger.balance other denom' +
        if other = account ∧ denom = denom' then amount else 0 :=
  credit_balance ledger account other denom denom' amount

theorem mint_supply
    (ledger : Ledger A D) (account : A) (denom denom' : D) (amount : ℕ) :
    (ledger.mint account denom amount).supply denom' =
      ledger.supply denom' + if denom = denom' then amount else 0 := by
  by_cases hdenom : denom' = denom
  · subst hdenom
    simp [mint]
  · simp [mint, hdenom, Ne.symm hdenom]

/-- Destroy coins of one account.  Both its balance and the supply must cover
the amount. -/
def burn (ledger : Ledger A D) (account : A) (denom : D) (amount : ℕ) :
    Option (Ledger A D) :=
  if amount ≤ ledger.supply denom then
    (ledger.debit account denom amount).map fun ledger' =>
      { ledger' with
        supply := Function.update ledger'.supply denom
          (ledger'.supply denom - amount) }
  else none

theorem burn_spec
    {ledger ledger' : Ledger A D} {account : A} {denom : D} {amount : ℕ}
    (hburn : ledger.burn account denom amount = some ledger') :
    (∀ denom',
      ledger'.supply denom' + (if denom = denom' then amount else 0) =
        ledger.supply denom') ∧
      ∀ other denom',
        ledger'.balance other denom' +
            (if other = account ∧ denom = denom' then amount else 0) =
          ledger.balance other denom' := by
  unfold burn at hburn
  split_ifs at hburn with hcovered
  simp only [Option.map_eq_some_iff] at hburn
  obtain ⟨middle, hdebit, rfl⟩ := hburn
  obtain ⟨hsupply, hbalance⟩ := debit_spec hdebit
  refine ⟨?_, hbalance⟩
  intro denom'
  rw [hsupply]
  by_cases hdenom : denom' = denom
  · subst hdenom
    simp
    omega
  · simp [hdenom, Ne.symm hdenom]

def mintAll (ledger : Ledger A D) (account : A) : CoinList D → Ledger A D
  | [] => ledger
  | coin :: rest => (ledger.mint account coin.1 coin.2).mintAll account rest

def burnAll (ledger : Ledger A D) (account : A) :
    CoinList D → Option (Ledger A D)
  | [] => some ledger
  | coin :: rest =>
      (ledger.burn account coin.1 coin.2).bind fun ledger' =>
        ledger'.burnAll account rest

theorem mintAll_supply
    (ledger : Ledger A D) (account : A) (coins : CoinList D) (denom : D) :
    (ledger.mintAll account coins).supply denom =
      ledger.supply denom + amountOf coins denom := by
  induction coins generalizing ledger with
  | nil => rfl
  | cons coin rest ih => rw [mintAll, ih, mint_supply, amountOf_cons,
      Nat.add_assoc]

theorem mintAll_balance
    (ledger : Ledger A D) (account other : A) (coins : CoinList D)
    (denom : D) :
    (ledger.mintAll account coins).balance other denom =
      ledger.balance other denom +
        if other = account then amountOf coins denom else 0 := by
  induction coins generalizing ledger with
  | nil => simp [mintAll]
  | cons coin rest ih =>
      rw [mintAll, ih, mint_balance]
      by_cases haccount : other = account
      · simp [haccount]
        omega
      · simp [haccount]

theorem burnAll_spec
    {ledger ledger' : Ledger A D} {account : A} {coins : CoinList D}
    (hburn : ledger.burnAll account coins = some ledger') :
    (∀ denom,
      ledger'.supply denom + amountOf coins denom = ledger.supply denom) ∧
      ∀ other denom,
        ledger'.balance other denom +
            (if other = account then amountOf coins denom else 0) =
          ledger.balance other denom := by
  induction coins generalizing ledger with
  | nil =>
      simp only [burnAll, Option.some.injEq] at hburn
      subst hburn
      simp
  | cons coin rest ih =>
      simp only [burnAll, Option.bind_eq_some_iff] at hburn
      rcases hburn with ⟨middle, hfirst, hrest⟩
      have hone := burn_spec hfirst
      have hmore := ih hrest
      constructor
      · intro denom
        have hleft := hone.1 denom
        have hright := hmore.1 denom
        rw [amountOf_cons]
        omega
      · intro other denom
        have hleft := hone.2 other denom
        have hright := hmore.2 other denom
        by_cases haccount : other = account
        · simp only [haccount, true_and, if_true, amountOf_cons]
            at hleft hright ⊢
          omega
        · simp only [haccount, false_and, if_false] at hleft hright ⊢
          omega

end Ledger

/-! ## Ledger operations -/

inductive LedgerOp (A D : Type) where
  | send (source : A) (outputs : List (A × CoinList D))
  | mint (account : A) (coins : CoinList D)
  | burn (account : A) (coins : CoinList D)

def received (outputs : List (A × CoinList D)) (account : A) (denom : D) :
    ℕ :=
  (outputs.map fun output =>
    if account = output.1 then amountOf output.2 denom else 0).sum

@[simp] theorem received_single
    (target account : A) (coins : CoinList D) (denom : D) :
    received [(target, coins)] account denom =
      if account = target then amountOf coins denom else 0 := by
  simp [received]

theorem received_eq_zero
    {outputs : List (A × CoinList D)} {account : A} {denom : D}
    (hnone : ∀ output ∈ outputs, account = output.1 →
      amountOf output.2 denom = 0) :
    received outputs account denom = 0 := by
  unfold received
  apply List.sum_eq_zero
  intro amount hamount
  rcases List.mem_map.mp hamount with ⟨output, houtput, rfl⟩
  by_cases haccount : account = output.1
  · rw [if_pos haccount]
    exact hnone output houtput haccount
  · rw [if_neg haccount]

namespace LedgerOp

/-- What an operation adds to a balance. -/
def inflow : LedgerOp A D → A → D → ℕ
  | .send _ outputs, account, denom => received outputs account denom
  | .mint target coins, account, denom =>
      if account = target then amountOf coins denom else 0
  | .burn _ _, _, _ => 0

/-- What an operation takes from a balance. -/
def outflow : LedgerOp A D → A → D → ℕ
  | .send source outputs, account, denom =>
      if account = source then amountOf (outputCoins outputs) denom else 0
  | .mint _ _, _, _ => 0
  | .burn source coins, account, denom =>
      if account = source then amountOf coins denom else 0

def minted : LedgerOp A D → D → ℕ
  | .mint _ coins, denom => amountOf coins denom
  | _, _ => 0

def burned : LedgerOp A D → D → ℕ
  | .burn _ coins, denom => amountOf coins denom
  | _, _ => 0

end LedgerOp

namespace Ledger

def exec (ledger : Ledger A D) : LedgerOp A D → Option (Ledger A D)
  | .send source outputs =>
      (ledger.debitAll source (outputCoins outputs)).map fun ledger' =>
        ledger'.creditOutputs outputs
  | .mint account coins => some (ledger.mintAll account coins)
  | .burn account coins => ledger.burnAll account coins

def execAll (ledger : Ledger A D) : List (LedgerOp A D) → Option (Ledger A D)
  | [] => some ledger
  | op :: rest => (ledger.exec op).bind fun ledger' => ledger'.execAll rest

theorem execAll_one {ledger ledger' : Ledger A D} {op : LedgerOp A D}
    (hexec : ledger.exec op = some ledger') :
    ledger.execAll [op] = some ledger' := by
  simp only [execAll, hexec, Option.bind_some]

theorem execAll_next {ledger middle ledger' : Ledger A D}
    {op : LedgerOp A D} {rest : List (LedgerOp A D)}
    (hexec : ledger.exec op = some middle)
    (hrest : middle.execAll rest = some ledger') :
    ledger.execAll (op :: rest) = some ledger' := by
  simp only [execAll, hexec, Option.bind_some, hrest]

@[simp] theorem creditOutputs_supply
    (ledger : Ledger A D) (outputs : List (A × CoinList D)) :
    (ledger.creditOutputs outputs).supply = ledger.supply := by
  induction outputs generalizing ledger with
  | nil => rfl
  | cons output rest ih => rw [creditOutputs, ih, creditAll_supply]

theorem creditOutputs_balance
    (ledger : Ledger A D) (outputs : List (A × CoinList D))
    (account : A) (denom : D) :
    (ledger.creditOutputs outputs).balance account denom =
      ledger.balance account denom + received outputs account denom := by
  induction outputs generalizing ledger with
  | nil => simp [creditOutputs, received]
  | cons output rest ih =>
      rw [creditOutputs, ih, creditAll_balance]
      simp only [received, List.map_cons, List.sum_cons]
      omega

/-- One coin can be sent by whoever holds enough of it. -/
theorem exists_exec_send_iff {ledger : Ledger A D} {source target : A}
    {denom : D} {amount : ℕ} :
    (∃ ledger',
        ledger.exec (.send source [(target, [(denom, amount)])]) =
          some ledger') ↔
      amount ≤ ledger.balance source denom := by
  by_cases hcovered : amount ≤ ledger.balance source denom
  · simp [exec, debitAll, debit, hcovered]
  · simp [exec, debitAll, debit, hcovered]

/-- One coin can be burned by whoever holds enough of it, as far as the supply
covers it. -/
theorem exists_exec_burn_iff {ledger : Ledger A D} {source : A} {denom : D}
    {amount : ℕ} :
    (∃ ledger', ledger.exec (.burn source [(denom, amount)]) =
        some ledger') ↔
      amount ≤ ledger.supply denom ∧ amount ≤ ledger.balance source denom := by
  by_cases hsupply : amount ≤ ledger.supply denom
  · by_cases hcovered : amount ≤ ledger.balance source denom
    · simp [exec, burnAll, burn, debit, hsupply, hcovered]
    · simp [exec, burnAll, burn, debit, hsupply, hcovered]
  · simp [exec, burnAll, burn, hsupply]

theorem exec_balance
    {ledger ledger' : Ledger A D} {op : LedgerOp A D}
    (hexec : ledger.exec op = some ledger') (account : A) (denom : D) :
    ledger'.balance account denom + op.outflow account denom =
      ledger.balance account denom + op.inflow account denom := by
  cases op with
  | send source outputs =>
      simp only [exec, Option.map_eq_some_iff] at hexec
      rcases hexec with ⟨middle, hdebit, rfl⟩
      have hdebited := (debitAll_spec hdebit).2 account denom
      simp only [LedgerOp.outflow, LedgerOp.inflow]
      rw [creditOutputs_balance]
      omega
  | mint target coins =>
      simp only [exec, Option.some.injEq] at hexec
      subst hexec
      simp only [LedgerOp.outflow, LedgerOp.inflow, Nat.add_zero]
      exact mintAll_balance ledger target account coins denom
  | burn source coins =>
      exact (burnAll_spec hexec).2 account denom

theorem exec_supply
    {ledger ledger' : Ledger A D} {op : LedgerOp A D}
    (hexec : ledger.exec op = some ledger') (denom : D) :
    ledger'.supply denom + op.burned denom =
      ledger.supply denom + op.minted denom := by
  cases op with
  | send source outputs =>
      simp only [exec, Option.map_eq_some_iff] at hexec
      rcases hexec with ⟨middle, hdebit, rfl⟩
      rw [creditOutputs_supply, (debitAll_spec hdebit).1]
      rfl
  | mint target coins =>
      simp only [exec, Option.some.injEq] at hexec
      subst hexec
      exact mintAll_supply ledger target coins denom
  | burn source coins =>
      exact (burnAll_spec hexec).1 denom

/-- The account holds the coins. -/
def Covers (ledger : Ledger A D) (account : A) (coins : CoinList D) : Prop :=
  ∀ denom, amountOf coins denom ≤ ledger.balance account denom

theorem covers_of_debitAll {ledger ledger' : Ledger A D} {account : A}
    {coins : CoinList D}
    (hdebit : ledger.debitAll account coins = some ledger') :
    ledger.Covers account coins := by
  intro denom
  have hdebited := (debitAll_spec hdebit).2 account denom
  rw [if_pos rfl] at hdebited
  omega

theorem exists_debitAll_of_covers {ledger : Ledger A D} {account : A}
    {coins : CoinList D} (hcovers : ledger.Covers account coins) :
    ∃ ledger', ledger.debitAll account coins = some ledger' := by
  induction coins generalizing ledger with
  | nil => exact ⟨ledger, rfl⟩
  | cons coin rest ih =>
      have hfirst : coin.2 ≤ ledger.balance account coin.1 := by
        have hamount := hcovers coin.1
        rw [amountOf, if_pos rfl] at hamount
        omega
      obtain ⟨middle, hdebit⟩ :
          ∃ middle, ledger.debit account coin.1 coin.2 = some middle :=
        ⟨_, if_pos hfirst⟩
      have hrest : middle.Covers account rest := by
        intro denom
        have hamount := hcovers denom
        have hdebited := (debit_spec hdebit).2 account denom
        simp only [amountOf, true_and] at hamount hdebited
        omega
      obtain ⟨ledger', hdebitAll⟩ := ih hrest
      exact ⟨ledger', by rw [debitAll, hdebit, Option.bind_some, hdebitAll]⟩

/-- A send goes through for whoever holds all of its outputs. -/
theorem exists_exec_send_iff_covers {ledger : Ledger A D} {source : A}
    {outputs : List (A × CoinList D)} :
    (∃ ledger', ledger.exec (.send source outputs) = some ledger') ↔
      ledger.Covers source (outputCoins outputs) := by
  constructor
  · rintro ⟨ledger', hexec⟩
    simp only [exec, Option.map_eq_some_iff] at hexec
    obtain ⟨middle, hdebit, -⟩ := hexec
    exact covers_of_debitAll hdebit
  · intro hcovers
    obtain ⟨middle, hdebit⟩ := exists_debitAll_of_covers hcovers
    exact ⟨middle.creditOutputs outputs, by rw [exec, hdebit]; rfl⟩

/-- An operation lowers only the balances it pays from. -/
theorem balance_le_of_exec
    {ledger ledger' : Ledger A D} {op : LedgerOp A D}
    (hexec : ledger.exec op = some ledger') {account : A} {denom : D}
    (hkept : op.outflow account denom = 0) :
    ledger.balance account denom ≤ ledger'.balance account denom := by
  have hbalance := exec_balance hexec account denom
  omega

theorem execAll_balance
    {ledger ledger' : Ledger A D} {ops : List (LedgerOp A D)}
    (hexec : ledger.execAll ops = some ledger') (account : A) (denom : D) :
    ledger'.balance account denom +
        (ops.map fun op => op.outflow account denom).sum =
      ledger.balance account denom +
        (ops.map fun op => op.inflow account denom).sum := by
  induction ops generalizing ledger with
  | nil =>
      simp only [execAll, Option.some.injEq] at hexec
      rw [hexec]
      simp
  | cons op rest ih =>
      simp only [execAll, Option.bind_eq_some_iff] at hexec
      rcases hexec with ⟨middle, hfirst, hrest⟩
      have hone := exec_balance hfirst account denom
      have hmore := ih hrest
      simp only [List.map_cons, List.sum_cons]
      omega

theorem execAll_balance_le
    {ledger ledger' : Ledger A D} {ops : List (LedgerOp A D)}
    (hexec : ledger.execAll ops = some ledger') (account : A) (denom : D) :
    ledger'.balance account denom ≤
      ledger.balance account denom +
        (ops.map fun op => op.inflow account denom).sum := by
  have hbalance := execAll_balance hexec account denom
  omega

/-- No account loses more than flows out of it. -/
theorem balance_le_of_execAll
    {ledger ledger' : Ledger A D} {ops : List (LedgerOp A D)}
    (hexec : ledger.execAll ops = some ledger') (account : A) (denom : D) :
    ledger.balance account denom ≤
      ledger'.balance account denom +
        (ops.map fun op => op.outflow account denom).sum := by
  have hlaw := execAll_balance hexec account denom
  omega

theorem execAll_supply
    {ledger ledger' : Ledger A D} {ops : List (LedgerOp A D)}
    (hexec : ledger.execAll ops = some ledger') (denom : D) :
    ledger'.supply denom + (ops.map fun op => op.burned denom).sum =
      ledger.supply denom + (ops.map fun op => op.minted denom).sum := by
  induction ops generalizing ledger with
  | nil =>
      simp only [execAll, Option.some.injEq] at hexec
      rw [hexec]
      simp
  | cons op rest ih =>
      simp only [execAll, Option.bind_eq_some_iff] at hexec
      rcases hexec with ⟨middle, hfirst, hrest⟩
      have hone := exec_supply hfirst denom
      have hmore := ih hrest
      simp only [List.map_cons, List.sum_cons]
      omega

end Ledger

/-! ## Holders -/

/-- The accounts which an operation may credit or debit. -/
def LedgerOp.touched : LedgerOp A D → Finset A
  | .send source outputs => insert source (outputs.map Prod.fst).toFinset
  | .mint account _ => {account}
  | .burn account _ => {account}

/-- What the recipients of a send receive together is what the send takes. -/
theorem sum_received (outputs : List (A × CoinList D)) (denom : D)
    {accounts : Finset A}
    (htargets : ∀ output ∈ outputs, output.1 ∈ accounts) :
    ∑ account ∈ accounts, received outputs account denom =
      amountOf (outputCoins outputs) denom := by
  induction outputs with
  | nil => simp [received, outputCoins]
  | cons output rest ih =>
      have hrest := ih fun other hother =>
        htargets other (List.mem_cons_of_mem _ hother)
      have hfirst : output.1 ∈ accounts := htargets output (by simp)
      simp only [received, outputCoins, List.map_cons, List.sum_cons,
        List.flatMap_cons, amountOf_append, Finset.sum_add_distrib] at hrest ⊢
      rw [hrest, Finset.sum_ite_eq' accounts output.1, if_pos hfirst]

theorem LedgerOp.sum_flows (op : LedgerOp A D) (denom : D)
    {accounts : Finset A} (htouched : op.touched ⊆ accounts) :
    ∑ account ∈ accounts, op.inflow account denom + op.burned denom =
      ∑ account ∈ accounts, op.outflow account denom + op.minted denom := by
  cases op with
  | send source outputs =>
      simp only [touched, Finset.insert_subset_iff] at htouched
      have htargets : ∀ output ∈ outputs, output.1 ∈ accounts := by
        intro output houtput
        apply htouched.2
        rw [List.mem_toFinset]
        exact List.mem_map_of_mem houtput
      simp only [inflow, outflow, burned, minted, Nat.add_zero]
      rw [sum_received outputs denom htargets,
        Finset.sum_ite_eq' accounts source, if_pos htouched.1]
  | mint target coins =>
      have htarget : target ∈ accounts := htouched (by simp [touched])
      simp only [inflow, outflow, burned, minted, Finset.sum_const_zero]
      rw [Finset.sum_ite_eq' accounts target, if_pos htarget,
        Nat.add_comm]
  | burn source coins =>
      have hsource : source ∈ accounts := htouched (by simp [touched])
      simp only [inflow, outflow, burned, minted, Finset.sum_const_zero]
      rw [Finset.sum_ite_eq' accounts source, if_pos hsource,
        Nat.add_comm]

theorem LedgerOp.inflow_of_notMem {op : LedgerOp A D} {account : A}
    (haccount : account ∉ op.touched) (denom : D) :
    op.inflow account denom = 0 := by
  cases op with
  | send source outputs =>
      simp only [touched, Finset.mem_insert, List.mem_toFinset, not_or]
        at haccount
      apply received_eq_zero
      intro output houtput htarget
      rw [htarget] at haccount
      exact absurd (List.mem_map_of_mem houtput) haccount.2
  | mint target coins =>
      simp only [touched, Finset.mem_singleton] at haccount
      simp [inflow, haccount]
  | burn source coins => rfl

namespace Ledger

/-- An operation moves, creates or destroys coins of the touched accounts
only, so the touched accounts and the holders before it hold the supply after
it. -/
theorem exec_heldBy {ledger ledger' : Ledger A D} {op : LedgerOp A D}
    {denom : D} {holders : Finset A}
    (hexec : ledger.exec op = some ledger')
    (hheld : ledger.HeldBy denom holders) :
    ledger'.HeldBy denom (holders ∪ op.touched) := by
  have hbefore := hheld.mono
    (show holders ⊆ holders ∪ op.touched from Finset.subset_union_left)
  constructor
  · intro account haccount
    have hlaw := exec_balance hexec account denom
    rw [hbefore.1 account haccount, LedgerOp.inflow_of_notMem] at hlaw
    · omega
    · intro hmem
      exact haccount (Finset.mem_union_right _ hmem)
  · have hsum : ∑ account ∈ holders ∪ op.touched,
          (ledger'.balance account denom + op.outflow account denom) =
        ∑ account ∈ holders ∪ op.touched,
          (ledger.balance account denom + op.inflow account denom) :=
      Finset.sum_congr rfl fun account _ => exec_balance hexec account denom
    rw [Finset.sum_add_distrib, Finset.sum_add_distrib, hbefore.2] at hsum
    have hflows := op.sum_flows denom
      (show op.touched ⊆ holders ∪ op.touched from Finset.subset_union_right)
    have hsupply := exec_supply hexec denom
    omega

theorem execAll_heldBy {ledger ledger' : Ledger A D}
    {ops : List (LedgerOp A D)} {denom : D} {holders : Finset A}
    (hexec : ledger.execAll ops = some ledger')
    (hheld : ledger.HeldBy denom holders) :
    ∃ holders', ledger'.HeldBy denom holders' := by
  induction ops generalizing ledger holders with
  | nil =>
      simp only [execAll, Option.some.injEq] at hexec
      rw [← hexec]
      exact ⟨holders, hheld⟩
  | cons op rest ih =>
      simp only [execAll, Option.bind_eq_some_iff] at hexec
      rcases hexec with ⟨middle, hfirst, hrest⟩
      exact ih hrest (exec_heldBy hfirst hheld)

/-! ### Operations which may fail -/

/-- Carry out the operations in order, leaving out those which fail. -/
def attemptAll (ledger : Ledger A D) : List (LedgerOp A D) → Ledger A D
  | [] => ledger
  | op :: rest => ((ledger.exec op).getD ledger).attemptAll rest

/-- What the operations which do not fail add to a balance. -/
def attemptedInflow (ledger : Ledger A D) (account : A) (denom : D) :
    List (LedgerOp A D) → ℕ
  | [] => 0
  | op :: rest =>
      match ledger.exec op with
      | some ledger' =>
          op.inflow account denom + ledger'.attemptedInflow account denom rest
      | none => ledger.attemptedInflow account denom rest

theorem attemptAll_induct {P : Ledger A D → Prop}
    {ops : List (LedgerOp A D)} {ledger : Ledger A D} (hstart : P ledger)
    (hstep : ∀ op ∈ ops, ∀ before after,
      P before → before.exec op = some after → P after) :
    P (ledger.attemptAll ops) := by
  induction ops generalizing ledger with
  | nil => exact hstart
  | cons op rest ih =>
      rw [attemptAll]
      apply ih _ fun other hother => hstep other (by simp [hother])
      cases hexec : ledger.exec op with
      | none => exact hstart
      | some ledger' => exact hstep op (by simp) ledger ledger' hstart hexec

/-- An account from which nothing is taken collects what comes in. -/
theorem attemptAll_balance {ops : List (LedgerOp A D)} {account : A}
    {denom : D} (hkept : ∀ op ∈ ops, op.outflow account denom = 0)
    (ledger : Ledger A D) :
    (ledger.attemptAll ops).balance account denom =
      ledger.balance account denom +
        ledger.attemptedInflow account denom ops := by
  induction ops generalizing ledger with
  | nil => rfl
  | cons op rest ih =>
      have hrest := ih fun other hother => hkept other (by simp [hother])
      rw [attemptAll, attemptedInflow]
      cases hexec : ledger.exec op with
      | none => exact hrest ledger
      | some ledger' =>
          have hlaw := exec_balance hexec account denom
          rw [hkept op (by simp)] at hlaw
          simp only [Option.getD_some]
          rw [hrest ledger']
          omega

theorem attemptAll_supply {ops : List (LedgerOp A D)} {denom : D}
    (hkept : ∀ op ∈ ops, op.minted denom = 0 ∧ op.burned denom = 0)
    (ledger : Ledger A D) :
    (ledger.attemptAll ops).supply denom = ledger.supply denom := by
  apply attemptAll_induct (P := fun l => l.supply denom = ledger.supply denom)
    rfl
  intro op hop before after hbefore hexec
  have hlaw := exec_supply hexec denom
  rw [(hkept op hop).1, (hkept op hop).2] at hlaw
  omega

theorem attemptAll_heldBy {ops : List (LedgerOp A D)} {denom : D}
    {ledger : Ledger A D} {holders : Finset A}
    (hheld : ledger.HeldBy denom holders) :
    ∃ holders', (ledger.attemptAll ops).HeldBy denom holders' := by
  apply attemptAll_induct (P := fun l => ∃ holders, l.HeldBy denom holders)
    ⟨holders, hheld⟩
  rintro op - before after ⟨earlier, hearlier⟩ hexec
  exact ⟨_, exec_heldBy hexec hearlier⟩

/-! ### Moving everything -/

/-- Move all that an account holds, in every denomination. -/
def transferAll (ledger : Ledger A D) (source target : A) : Ledger A D where
  balance account denom :=
    if account = source then 0
    else if account = target then
      ledger.balance target denom + ledger.balance source denom
    else ledger.balance account denom
  supply := ledger.supply

omit [DecidableEq D] in
@[simp] theorem transferAll_balance_source (ledger : Ledger A D)
    (source target : A) (denom : D) :
    (ledger.transferAll source target).balance source denom = 0 :=
  if_pos rfl

omit [DecidableEq D] in
@[simp] theorem transferAll_supply (ledger : Ledger A D)
    (source target : A) :
    (ledger.transferAll source target).supply = ledger.supply := rfl

omit [DecidableEq D] in
theorem transferAll_heldBy {ledger : Ledger A D} {source target : A}
    {denom : D} {holders : Finset A} (hne : source ≠ target)
    (hheld : ledger.HeldBy denom holders) :
    ∃ holders', (ledger.transferAll source target).HeldBy denom holders' := by
  have hbefore := hheld.mono
    (show holders ⊆ holders ∪ {source, target} from Finset.subset_union_left)
  refine ⟨holders ∪ {source, target}, ?_, ?_⟩
  · intro account haccount
    have hzero := hbefore.1 account haccount
    simp only [Finset.mem_union, Finset.mem_insert, Finset.mem_singleton,
      not_or] at haccount
    simp [transferAll, haccount.2.1, haccount.2.2, hzero]
  · have hpointwise : ∀ account,
        (ledger.transferAll source target).balance account denom +
            (if account = source then ledger.balance source denom else 0) =
          ledger.balance account denom +
            (if account = target then ledger.balance source denom else 0) := by
      intro account
      by_cases hsource : account = source
      · simp [transferAll, hsource, hne]
      · by_cases htarget : account = target
        · simp [transferAll, htarget, hne.symm]
        · simp [transferAll, hsource, htarget]
    have hsum := Finset.sum_congr rfl
      fun account (_ : account ∈ holders ∪ {source, target}) =>
        hpointwise account
    rw [Finset.sum_add_distrib, Finset.sum_add_distrib, Finset.sum_ite_eq',
      Finset.sum_ite_eq', if_pos (by simp), if_pos (by simp), hbefore.2] at hsum
    rw [transferAll_supply]
    omega

end Ledger

end

end Vertix

import Vertix.Chain
import Vertix.SdkReference
import Mathlib.Tactic

/-!
# Every fee is split once

A block as the fees module sees it: the distribution module sweeps the fee
collector, the bank carries out the operations of the transactions, governance
may change the ratios, and the EndBlocker burns its share of what the
collector has received.  The share is the exact floor of the product, because
the product of a whole amount and a ratio is not rounded, and what is left is
out of the collector before the next fees come in.  Along every list of blocks
the burn record is therefore the sum of the floors, and the base supply has
dropped by it.
-/

namespace Vertix
namespace Fees

open Transition
open Rwa (Bank BankOp RwaStore feeCollector distributionAccount coinsOf)

/-! ## Blocks -/

/-- The operations of a block leave the base supply alone and take no base
coins from the fee collector, which has no key.  The bank carries out the
covered operations of the EndBlocker. -/
structure FeeBlock (k : Keeper) where
  ops : List BankOp
  msgs : List MsgUpdateParams
  env : Rwa.Env
  rwa : RwaStore
  supply_kept : ∀ op ∈ ops, op.minted feeDenom = 0 ∧ op.burned feeDenom = 0
  collector_kept : ∀ op ∈ ops, op.outflow (feeCollector k) feeDenom = 0
  accepting : ∀ op, env.accepts op = true

/-- The number of finished blocks and the state after the last one. -/
structure SplitState where
  height : ℕ
  fees : FeesState

/-- `x/distribution` empties the fee collector at every height above one. -/
def beginBlock (k : Keeper) (s : SplitState) : Bank :=
  if 1 < s.height + 1 then
    s.fees.bank.transferAll (feeCollector k) (distributionAccount k)
  else s.fees.bank

def applyUpdates (k : Keeper) (store : FeesStore)
    (msgs : List MsgUpdateParams) : FeesStore :=
  msgs.foldl (fun store msg =>
    Chain.commitFees store (updateParams k store msg)) store

/-- The state in which the EndBlocker is called. -/
def beforeEnd (k : Keeper) (s : SplitState) (block : FeeBlock k) : FeesState :=
  ⟨applyUpdates k s.fees.store block.msgs,
    (beginBlock k s).attemptAll block.ops⟩

def blockStep (k : Keeper) (s : SplitState) (block : FeeBlock k) :
    Option SplitState :=
  (endBlocker k block.env block.rwa (beforeEnd k s block)).toOption.map
    fun fees => ⟨s.height + 1, fees⟩

abbrev FeeHistory (k : Keeper) := List (SplitState × FeeBlock k)

/-- The base coins which reach the fee collector during a block. -/
def feeOf (k : Keeper) (entry : SplitState × FeeBlock k) : ℕ :=
  (beginBlock k entry.1).attemptedInflow (feeCollector k) feeDenom entry.2.ops

/-- The burn ratio in force at the end of a block, in units of the last
decimal. -/
def ratioOf (k : Keeper) (entry : SplitState × FeeBlock k) : ℕ :=
  match k.sdk.legacyNewDecFromStr
      (getParams (beforeEnd k entry.1 entry.2).store).burnRatio with
  | .ok ratio => ratio.raw.toNat
  | .error _ => 0

/-- The product of the fee and the ratio, rounded down. -/
def shareOf (k : Keeper) (entry : SplitState × FeeBlock k) : ℕ :=
  feeOf k entry * ratioOf k entry / 10 ^ 18

/-! ## The EndBlocker -/

/-- A share has been burned from the base coins in the collector. -/
structure SplitBy (k : Keeper) (s s' : FeesState) (share : ℕ) : Prop where
  params : s'.store.params = s.store.params
  burned : (getCumulativeBurned s'.store).raw =
    (getCumulativeBurned s.store).raw + share
  supply : s'.bank.supply feeDenom + share = s.bank.supply feeDenom
  left : s'.bank.balance (feeCollector k) feeDenom + share =
    s.bank.balance (feeCollector k) feeDenom
  others : ∀ denom, denom ≠ feeDenom →
    s'.bank.balance (feeCollector k) denom =
      s.bank.balance (feeCollector k) denom
  held : ∃ holders, s'.bank.HeldBy feeDenom holders

theorem SplitBy.zero {k : Keeper} {s : FeesState} {holders : Finset Address}
    (hheld : s.bank.HeldBy feeDenom holders) : SplitBy k s s 0 :=
  ⟨rfl, by simp, rfl, rfl, fun _ _ => rfl, ⟨holders, hheld⟩⟩

/-- The product of an amount and a ratio is not rounded before its integer
part is taken. -/
theorem truncatedProduct_eq {value share : SdkInt} {rate : LegacyDec}
    {amount : ℕ} (hvalue : value.raw = amount) (hrate : 0 ≤ rate.raw)
    (hone : rate.raw ≤ 10 ^ 18) (hsmall : amount < 2 ^ 255)
    (hshare : share.raw = (amount * rate.raw.toNat / 10 ^ 18 : ℕ)) :
    truncatedProduct value rate = some share := by
  have hproduct : value.raw * rate.raw =
      ((amount * rate.raw.toNat : ℕ) : ℤ) := by
    rw [hvalue, Nat.cast_mul, Int.toNat_of_nonneg hrate]
  rw [truncatedProduct_eq_some_iff, hproduct, Int.natAbs_natCast]
  constructor
  · have hrange : rate.raw.toNat ≤ 10 ^ 18 := by omega
    calc amount * rate.raw.toNat ≤ 2 ^ 255 * 10 ^ 18 :=
          Nat.mul_le_mul hsmall.le hrange
      _ < 2 ^ 256 * 10 ^ 18 := by norm_num
  · rw [hshare]
    norm_cast

theorem addCumulativeBurned_eq_ok {store : FeesStore} {amount : SdkInt}
    (hfits : ((getCumulativeBurned store).raw + amount.raw).natAbs < 2 ^ 256) :
    ∃ total : SdkInt, total.raw = (getCumulativeBurned store).raw + amount.raw ∧
      addCumulativeBurned store amount =
        .ok { store with cumulativeBurned := some total } := by
  refine ⟨⟨_, hfits⟩, rfl, ?_⟩
  simp only [addCumulativeBurned, bind_eq_ok_iff, Exec.ofOption_eq_ok_iff,
    pure_eq_ok_iff, FixedPoint.add?, FixedPoint.checked_eq_some_iff]
  exact ⟨⟨_, hfits⟩, rfl, rfl⟩

/-- A covered amount is moved, burned and recorded. -/
theorem burnFees_splits
    {k : Keeper} {env : Rwa.Env} (rwa : RwaStore) {s : FeesState}
    (amount : SdkInt) {holders : Finset Address}
    (haccepts : ∀ op, env.accepts op = true)
    (hheld : s.bank.HeldBy feeDenom holders) (hpos : 0 < amount.raw)
    (hcovered : amount.raw ≤ s.bank.balance (feeCollector k) feeDenom)
    (hfits : ((getCumulativeBurned s.store).raw + amount.raw).natAbs <
      2 ^ 256) :
    ∃ s', burnFees k env rwa s amount = .ok s' ∧
      SplitBy k s s' amount.raw.toNat := by
  have hne : amount.raw.toNat ≠ 0 := by omega
  have hcoins : coinsOf feeDenom amount.raw.toNat =
      [(feeDenom, amount.raw.toNat)] := if_neg hne
  have hallowed : Rwa.SendAllowed k rwa (feeCollector k)
      [(feesAccount k, coinsOf feeDenom amount.raw.toNat)] := by
    have hbase : Rwa.parseRWADenom feeDenom = none := by decide
    simp [Rwa.SendAllowed, hcoins, hbase]
  obtain ⟨middle, hmoved⟩ : ∃ middle, s.bank.exec (.send (feeCollector k)
      [(feesAccount k, coinsOf feeDenom amount.raw.toNat)]) = some middle := by
    rw [hcoins, Ledger.exists_exec_send_iff]
    omega
  obtain ⟨bank, hburned⟩ := exists_burn_of_send haccepts hheld hmoved
  have hexec := (Rwa.execute_eq_ok_iff.mp hburned).2
  have hsend : sendCoinsFromModuleToModule k env rwa s.bank
      Rwa.feeCollectorName moduleName
      (coinsOf feeDenom amount.raw.toNat) = .ok middle :=
    Rwa.sendCoins_eq_ok_iff.mpr ⟨hallowed, haccepts _, hmoved⟩
  obtain ⟨total, htotal, hrecord⟩ := addCumulativeBurned_eq_ok hfits
  have hnewCoins : Rwa.newCoins feeDenom amount =
      .ok (coinsOf feeDenom amount.raw.toNat) :=
    Rwa.newCoins_eq_ok_iff.mpr ⟨hpos.le, rfl⟩
  refine ⟨⟨{ s.store with cumulativeBurned := some total }, bank⟩, ?_, ?_⟩
  · simp only [burnFees, hnewCoins, hsend, hburned, hrecord, bind,
      Except.bind, pure, Except.pure]
  · have hleft := burn_balance_feeCollector hsend hburned
    constructor
    · rfl
    · change total.raw = _
      rw [htotal, Int.toNat_of_nonneg hpos.le]
    · simpa using burn_supply hsend hburned feeDenom
    · simpa using hleft feeDenom
    · intro denom hdenom
      simpa [hdenom.symm] using hleft denom
    · exact ⟨_, Ledger.exec_heldBy hexec (Ledger.exec_heldBy hmoved hheld)⟩

/-- The guards of the EndBlocker return early only where the floor of the
product is zero. -/
theorem endBlocker_eq
    {k : Keeper} {env : Rwa.Env} {rwa : RwaStore} {s : FeesState}
    {ratio : LegacyDec} (share : SdkInt)
    (hratio : k.sdk.legacyNewDecFromStr (getParams s.store).burnRatio =
      .ok ratio)
    (hnonneg : 0 ≤ ratio.raw) (hone : ratio.raw ≤ 10 ^ 18)
    (hsmall : s.bank.balance (feeCollector k) feeDenom < 2 ^ 255)
    (hshare : share.raw = (s.bank.balance (feeCollector k) feeDenom *
      ratio.raw.toNat / 10 ^ 18 : ℕ)) :
    endBlocker k env rwa s =
      if share.raw = 0 then .ok s else burnFees k env rwa s share := by
  have hparsed : Exec.ofExcept (plainError (k.sdk.legacyNewDecFromStr
      (getParams s.store).burnRatio)) = .ok ratio := by
    simpa using hratio
  have hbounded :
      (s.bank.balance (feeCollector k) feeDenom : ℤ).natAbs < 2 ^ 256 := by
    omega
  have hbalance : bankAmount (s.bank.balance (feeCollector k) feeDenom) =
      .ok ⟨_, hbounded⟩ := bankAmount_eq_ok_iff.mpr rfl
  have hproduct : Exec.ofOption (truncatedProduct ⟨_, hbounded⟩ ratio) =
      .ok share := by
    rw [truncatedProduct_eq rfl hnonneg hone hsmall hshare]
    rfl
  have hzeroRatio : ratio.raw = 0 → share.raw = 0 := by
    intro hzero
    rw [hshare, hzero]
    simp
  have hzeroFee : (s.bank.balance (feeCollector k) feeDenom : ℤ) = 0 →
      share.raw = 0 := by
    intro hzero
    rw [hshare, Int.natCast_eq_zero.mp hzero]
    simp
  simp only [endBlocker, hparsed, hbalance, hproduct, bind, Except.bind]
  by_cases hratioZero : ratio.raw = 0
  · rw [if_pos hratioZero, if_pos (hzeroRatio hratioZero)]
    rfl
  · rw [if_neg hratioZero]
    by_cases hfeeZero : (s.bank.balance (feeCollector k) feeDenom : ℤ) = 0
    · rw [if_pos hfeeZero, if_pos (hzeroFee hfeeZero)]
      rfl
    · rw [if_neg hfeeZero]
      rfl

/-- The EndBlocker burns the floor of the product of the collected base coins
and the ratio. -/
theorem endBlocker_splits
    {k : Keeper} {env : Rwa.Env} (rwa : RwaStore) {s : FeesState}
    {ratio : LegacyDec} {holders : Finset Address}
    (haccepts : ∀ op, env.accepts op = true)
    (hheld : s.bank.HeldBy feeDenom holders)
    (hratio : k.sdk.legacyNewDecFromStr (getParams s.store).burnRatio =
      .ok ratio)
    (hnonneg : 0 ≤ ratio.raw) (hone : ratio.raw ≤ 10 ^ 18)
    (hburned : 0 ≤ (getCumulativeBurned s.store).raw)
    (hsmall : (getCumulativeBurned s.store).raw + s.bank.supply feeDenom <
      2 ^ 255) :
    ∃ s', endBlocker k env rwa s = .ok s' ∧
      SplitBy k s s' (s.bank.balance (feeCollector k) feeDenom *
        ratio.raw.toNat / 10 ^ 18) := by
  have hle : s.bank.balance (feeCollector k) feeDenom ≤
      s.bank.supply feeDenom := hheld.balance_le _
  have hshareLe : s.bank.balance (feeCollector k) feeDenom *
      ratio.raw.toNat / 10 ^ 18 ≤
        s.bank.balance (feeCollector k) feeDenom := by
    apply Nat.div_le_of_le_mul
    rw [Nat.mul_comm]
    exact Nat.mul_le_mul_right _ (by omega)
  obtain ⟨amount, hamount⟩ : ∃ amount, amount =
      s.bank.balance (feeCollector k) feeDenom * ratio.raw.toNat / 10 ^ 18 :=
    ⟨_, rfl⟩
  rw [← hamount] at hshareLe ⊢
  have hbounded : (amount : ℤ).natAbs < 2 ^ 256 := by omega
  rw [endBlocker_eq ⟨amount, hbounded⟩ hratio hnonneg hone
    (by omega) (congrArg Nat.cast hamount)]
  by_cases hzero : (amount : ℤ) = 0
  · refine ⟨s, if_pos hzero, ?_⟩
    rw [Int.natCast_eq_zero.mp hzero]
    exact SplitBy.zero hheld
  · have hcovered : (amount : ℤ) ≤
        s.bank.balance (feeCollector k) feeDenom := by exact_mod_cast hshareLe
    have hfits : ((getCumulativeBurned s.store).raw + (amount : ℤ)).natAbs <
        2 ^ 256 := by omega
    have hpos : (0 : ℤ) < amount := by omega
    have hsplit := burnFees_splits rwa ⟨amount, hbounded⟩ haccepts hheld hpos
      hcovered hfits
    rw [if_neg hzero]
    simpa using hsplit

/-! ## One block -/

theorem feeCollector_ne_distributionAccount (k : Keeper) :
    feeCollector k ≠ distributionAccount k := by
  intro heq
  have hname := k.sdk.newModuleAddress_distinct Rwa.feeCollectorName
    (by decide) Rwa.distributionName (by decide) heq
  revert hname
  decide

/-- An update validates what it writes and leaves the burn record alone. -/
theorem applyUpdates_kept {k : Keeper} {store : FeesStore}
    (hvalid : (getParams store).Valid k.sdk) (msgs : List MsgUpdateParams) :
    (getParams (applyUpdates k store msgs)).Valid k.sdk ∧
      getCumulativeBurned (applyUpdates k store msgs) =
        getCumulativeBurned store := by
  induction msgs generalizing store with
  | nil => exact ⟨hvalid, rfl⟩
  | cons msg rest ih =>
      have hone : (getParams (Chain.commitFees store
            (updateParams k store msg))).Valid k.sdk ∧
          getCumulativeBurned (Chain.commitFees store
            (updateParams k store msg)) = getCumulativeBurned store := by
        cases hupdate : updateParams k store msg with
        | error error => exact ⟨hvalid, rfl⟩
        | ok store' =>
            simp only [updateParams, setParams, bind_eq_ok_iff,
              pure_eq_ok_iff] at hupdate
            obtain ⟨-, -, -, -, checked, hchecked, rfl⟩ := hupdate
            exact ⟨FeesParams.validate_eq_ok_iff.mp hchecked, rfl⟩
      obtain ⟨hparams, hburned⟩ := ih hone.1
      exact ⟨hparams, hburned.trans hone.2⟩

/-- What a run of blocks has done to the books: the burn record is the sum of
the shares, and the supply has dropped by it. -/
structure Accounted (k : Keeper) (supply : ℕ) (history : FeeHistory k)
    (s : SplitState) : Prop where
  params_valid : (getParams s.fees.store).Valid k.sdk
  held : ∃ holders, s.fees.bank.HeldBy feeDenom holders
  /-- No block has come before the first one to sweep the collector. -/
  fresh : s.height = 0 → s.fees.bank.balance (feeCollector k) feeDenom = 0
  burned : (getCumulativeBurned s.fees.store).raw =
    ((history.map (shareOf k)).sum : ℕ)
  dropped : s.fees.bank.supply feeDenom + (history.map (shareOf k)).sum =
    supply

/-- A block has shared out what reached the collector: the share is gone, the
rest is left for the next sweep, and no other coin of the collector was
touched. -/
def SplitOnce (k : Keeper) (entry : SplitState × FeeBlock k) : Prop :=
  ∃ s', blockStep k entry.1 entry.2 = some s' ∧
    s'.fees.bank.balance (feeCollector k) feeDenom =
      feeOf k entry - shareOf k entry ∧
    ∀ denom, denom ≠ feeDenom →
      s'.fees.bank.balance (feeCollector k) denom =
        (beforeEnd k entry.1 entry.2).bank.balance (feeCollector k) denom

/-- When the EndBlocker is called, the collector holds the fees of the block
and nothing from before. -/
theorem Accounted.collected {k : Keeper} {supply : ℕ}
    {history : FeeHistory k} {s : SplitState}
    (haccounted : Accounted k supply history s) (block : FeeBlock k) :
    (beforeEnd k s block).bank.balance (feeCollector k) feeDenom =
      feeOf k (s, block) := by
  have hswept : (beginBlock k s).balance (feeCollector k) feeDenom = 0 := by
    unfold beginBlock
    split_ifs with hheight
    · exact Ledger.transferAll_balance_source _ _ _ _
    · exact haccounted.fresh (by omega)
  have hlaw := Ledger.attemptAll_balance block.collector_kept (beginBlock k s)
  rw [hswept, Nat.zero_add] at hlaw
  exact hlaw

theorem Accounted.beforeEnd_bank {k : Keeper} {supply : ℕ}
    {history : FeeHistory k} {s : SplitState}
    (haccounted : Accounted k supply history s) (block : FeeBlock k) :
    (∃ holders, (beforeEnd k s block).bank.HeldBy feeDenom holders) ∧
      (beforeEnd k s block).bank.supply feeDenom =
        s.fees.bank.supply feeDenom := by
  obtain ⟨holders, hheld⟩ := haccounted.held
  have hswept : (∃ holders, (beginBlock k s).HeldBy feeDenom holders) ∧
      (beginBlock k s).supply feeDenom = s.fees.bank.supply feeDenom := by
    unfold beginBlock
    split_ifs with hheight
    · exact ⟨Ledger.transferAll_heldBy
        (feeCollector_ne_distributionAccount k) hheld, rfl⟩
    · exact ⟨⟨holders, hheld⟩, rfl⟩
  obtain ⟨⟨holders', hheld'⟩, hsupply⟩ := hswept
  exact ⟨Ledger.attemptAll_heldBy hheld',
    (Ledger.attemptAll_supply block.supply_kept _).trans hsupply⟩

/-- Every block goes through, splits its fees and keeps the books. -/
theorem Accounted.blockStep {k : Keeper} {supply : ℕ}
    {history : FeeHistory k} {s : SplitState} (hsmall : supply < 2 ^ 255)
    (haccounted : Accounted k supply history s) (block : FeeBlock k) :
    ∃ s', Fees.blockStep k s block = some s' ∧
      Accounted k supply ((s, block) :: history) s' ∧
      SplitOnce k (s, block) := by
  obtain ⟨hvalid, hrecord⟩ :=
    applyUpdates_kept haccounted.params_valid block.msgs
  obtain ⟨burn, distr, hburn, -, hburnPos, hdistrPos, hsum⟩ := hvalid.ratios
  obtain ⟨⟨holders, hheld⟩, hsupply⟩ := haccounted.beforeEnd_bank block
  have hfee := haccounted.collected block
  have hdropped := haccounted.dropped
  have hrecord' : (getCumulativeBurned (beforeEnd k s block).store).raw =
      ((history.map (shareOf k)).sum : ℕ) := by
    rw [← haccounted.burned]
    exact congrArg FixedPoint.raw hrecord
  have hone : legacyOneDec.raw = 10 ^ 18 := rfl
  obtain ⟨fees, hend, hsplit⟩ := endBlocker_splits block.rwa block.accepting
    hheld hburn hburnPos (by omega) (by omega) (by omega)
  have hshare : (beforeEnd k s block).bank.balance (feeCollector k) feeDenom *
      burn.raw.toNat / 10 ^ 18 = shareOf k (s, block) := by
    have hratio : ratioOf k (s, block) = burn.raw.toNat := by
      rw [ratioOf]
      simp only
      rw [show k.sdk.legacyNewDecFromStr
        (getParams (beforeEnd k s block).store).burnRatio = .ok burn from hburn]
    rw [hfee, shareOf, hratio]
  rw [hshare] at hsplit
  have hstep : Fees.blockStep k s block = some ⟨s.height + 1, fees⟩ := by
    rw [Fees.blockStep, hend]
    rfl
  have hparams : (getParams fees.store).Valid k.sdk := by
    rw [getParams, hsplit.params]
    exact hvalid
  refine ⟨_, hstep, ⟨hparams, hsplit.held, by simp, ?_, ?_⟩,
    ⟨_, hstep, ?_, hsplit.others⟩⟩
  · rw [List.map_cons, List.sum_cons, Nat.cast_add, ← hrecord']
    exact hsplit.burned.trans (add_comm _ _)
  · have hleft := hsplit.supply
    rw [List.map_cons, List.sum_cons]
    simp only
    omega
  · have hleft := hsplit.left
    simp only
    omega

/-! ## Runs of blocks -/

/-- On every list of blocks from an imported genesis, every block goes
through; the burn record is the sum of the floors, the supply has dropped by
it, and each block left the rest of its fees in the collector. -/
theorem every_fee_split_once
    {k : Keeper} {gs : GenesisState} {bank : Bank} {store : FeesStore}
    {holders : Finset Address}
    (hinit : initGenesis k FeesStore.empty bank gs = .ok store)
    (hheld : bank.HeldBy feeDenom holders)
    (hempty : bank.balance (feeCollector k) feeDenom = 0)
    (hsmall : bank.supply feeDenom < 2 ^ 255) (blocks : List (FeeBlock k)) :
    ∃ history s,
      replay (blockStep k) [] ⟨0, ⟨store, bank⟩⟩ blocks = some (history, s) ∧
        (getCumulativeBurned s.fees.store).raw =
          ((history.map (shareOf k)).sum : ℕ) ∧
        s.fees.bank.supply feeDenom + (history.map (shareOf k)).sum =
          bank.supply feeDenom ∧
        ∀ entry ∈ history, SplitOnce k entry := by
  have hstart : Accounted k (bank.supply feeDenom) []
      ⟨0, ⟨store, bank⟩⟩ := by
    simp only [initGenesis, setParams, bind_eq_ok_iff,
      Exec.ofExcept_eq_ok_iff, pure_eq_ok_iff, mapError_eq_ok_iff] at hinit
    obtain ⟨-, -, store', ⟨checked, hchecked, rfl⟩, supply, -, rfl⟩ := hinit
    exact ⟨FeesParams.validate_eq_ok_iff.mp hchecked, ⟨holders, hheld⟩,
      fun _ => hempty, rfl, rfl⟩
  obtain ⟨history, s, hreplay, haccounted, hsplit⟩ := exists_replay
    (P := fun history s => Accounted k (bank.supply feeDenom) history s ∧
      ∀ entry ∈ history, SplitOnce k entry)
    (fun history s block hpast => by
      obtain ⟨s', hstep, haccounted, hsplit⟩ :=
        hpast.1.blockStep hsmall block
      exact ⟨s', hstep, haccounted,
        List.forall_mem_cons.mpr ⟨hsplit, hpast.2⟩⟩)
    blocks ⟨hstart, by simp⟩
  exact ⟨history, s, hreplay, haccounted.burned, haccounted.dropped, hsplit⟩

/-- One account holds the whole supply. -/
def payerBank : Bank where
  balance account denom :=
    if denom = feeDenom ∧ account = addressOf 1 then 1000 else 0
  supply denom := if denom = feeDenom then 1000 else 0

theorem payerBank_heldBy : payerBank.HeldBy feeDenom {addressOf 1} := by
  constructor
  · intro account haccount
    rw [Finset.mem_singleton] at haccount
    simp [payerBank, haccount]
  · simp [payerBank]

theorem addressOf_ne_feeCollector :
    feeCollector referenceKeeper ≠ addressOf 1 := by
  decide +kernel

/-- The account pays a fee. -/
def feePayment (amount : ℕ) : BankOp :=
  .send (addressOf 1) [(feeCollector referenceKeeper, [("uvtx", amount)])]

theorem feePayment_supply_kept (amount : ℕ) :
    ∀ op ∈ [feePayment amount],
      op.minted feeDenom = 0 ∧ op.burned feeDenom = 0 := by
  simp [feePayment, LedgerOp.minted, LedgerOp.burned]

theorem feePayment_collector_kept (amount : ℕ) :
    ∀ op ∈ [feePayment amount],
      op.outflow (feeCollector referenceKeeper) feeDenom = 0 := by
  simp [feePayment, LedgerOp.outflow, addressOf_ne_feeCollector]

theorem firstBlock_timestamp : zeroTime < (1700000000000000000 : Time) ∧
    (1700000000000000000 : Time) < 253402300800 * 10 ^ 9 := by
  decide

def firstBlock : Ctx := ⟨1, 1700000000000000000, firstBlock_timestamp⟩

def quietEnv : Rwa.Env :=
  ⟨firstBlock, fun _ => .error Oracle.errNoPrice, fun _ => true⟩

/-- A block in which the account pays a fee and governance decides on the
given updates. -/
def payBlock (amount : ℕ) (msgs : List MsgUpdateParams) :
    FeeBlock referenceKeeper where
  ops := [feePayment amount]
  msgs := msgs
  env := quietEnv
  rwa := TypedStore.empty
  supply_kept := feePayment_supply_kept amount
  collector_kept := feePayment_collector_kept amount
  accepting := fun _ => rfl

/-- A fee of 101 at the default ratio and, after governance has raised it to
one half, a fee of 7. -/
theorem two_fees_split :
    ∃ history s,
      (initGenesis referenceKeeper FeesStore.empty payerBank
        defaultGenesis).toOption.bind (fun store =>
          replay (blockStep referenceKeeper) [] ⟨0, ⟨store, payerBank⟩⟩
            [payBlock 101 [],
              payBlock 7 [⟨referenceKeeper.authority, ⟨"0.5", "0.5"⟩⟩]]) =
          some (history, s) ∧
        (history.map (shareOf referenceKeeper)).sum = 43 ∧
        (getCumulativeBurned s.fees.store).raw = 43 ∧
        s.fees.bank.supply "uvtx" + 43 = 1000 ∧
        ∀ entry ∈ history, SplitOnce referenceKeeper entry := by
  have hgenesis : (initGenesis referenceKeeper FeesStore.empty payerBank
      defaultGenesis).toOption.any (fun store =>
        (replay (blockStep referenceKeeper) [] ⟨0, ⟨store, payerBank⟩⟩
          [payBlock 101 [],
            payBlock 7 [⟨referenceKeeper.authority, ⟨"0.5", "0.5"⟩⟩]]).any
          fun run => (run.1.map (shareOf referenceKeeper)).sum == 43) =
        true := by
    decide +kernel
  obtain ⟨store, hinit, hrun⟩ := exists_ok_of_any hgenesis
  have hcollector : payerBank.balance (feeCollector referenceKeeper)
      feeDenom = 0 := by
    simp [payerBank, addressOf_ne_feeCollector]
  have hsupply : payerBank.supply feeDenom = 1000 := rfl
  obtain ⟨history, s, hreplay, hburned, hdropped, hsplit⟩ :=
    every_fee_split_once hinit payerBank_heldBy hcollector
      (by rw [hsupply]; norm_num)
      [payBlock 101 [],
        payBlock 7 [⟨referenceKeeper.authority, ⟨"0.5", "0.5"⟩⟩]]
  rw [hreplay] at hrun
  have hshares : (history.map (shareOf referenceKeeper)).sum = 43 := by
    simpa using hrun
  rw [hshares] at hburned hdropped
  refine ⟨history, s, ?_, hshares, hburned, hdropped, hsplit⟩
  rw [hinit]
  exact hreplay

end Fees
end Vertix

import Vertix.RwaEscrow
import Vertix.RwaSupply
import Vertix.RwaTransferPaths
import Mathlib.Tactic

/-!
# When a transaction goes through

The effect of an accepted transaction is described by `Accepted`.  Here the
question is which transactions are accepted at all.  `Enabled` lists, message
by message, what the sender has to bring: the right status of the record, the
right role and the coins they pay themselves.  What the module pays is not
among the conditions.  In every reachable state the escrow account holds every
open bond, and the supply of an active asset is its minted notional, so the
module can always return a bond, forfeit it and burn the redeemed units.
-/

namespace Vertix
namespace Rwa

open Transition

/-- The bank has no objection of its own. -/
def Env.Open (env : Env) : Prop := ∀ op, env.accepts op = true

/-- What a signed transaction needs in order to be accepted. -/
inductive Enabled (k : Keeper) (env : Env) (s : RwaState) : RwaTx → Prop
  | register {msg : MsgRegisterAsset} {issuer : Address} {bond : SdkInt}
      (hvalid : msg.Valid k.sdk)
      (hissuer : k.sdk.accAddressFromBech32 msg.issuer = .ok issuer)
      (hfresh : getAsset s.store msg.assetId = none)
      (hbond : k.sdk.newIntFromString msg.bond = some bond)
      (hmin : IntWithin k.sdk (getParams s.store).minIssuerBond
        fun raw => raw ≤ bond.raw)
      (hfunds : bond.raw ≤ s.bank.balance issuer bondDenom) :
      Enabled k env s (.registerAsset msg)
  | attest {msg : MsgAttestAsset} {issuer : Address} {rec : AssetRecord}
      {price : LegacyDec}
      (howned : Owned k s.store msg.assetId msg.issuer issuer rec)
      (hstatus : rec.status = .draft)
      (hprice : env.getPrice rec.oraclePair = .ok price) :
      Enabled k env s (.attestAsset msg)
  | mint {msg : MsgMintRWA} {issuer : Address} {rec : AssetRecord}
      {notional fee prev total : SdkInt}
      (howned : Owned k s.store msg.assetId msg.issuer issuer rec)
      (hstatus : rec.status = .attested ∨ rec.status = .active)
      (hnotional : k.sdk.newIntFromString msg.notional = some notional)
      (hpos : 0 < notional.raw)
      (hfee : FeeOf k.sdk (getParams s.store).mintFeeRate notional fee)
      (hprev : k.sdk.newIntFromString rec.notionalMinted = some prev)
      (htotal : total.raw = prev.raw + notional.raw)
      (hfunds : fee.raw ≤ s.bank.balance issuer bondDenom) :
      Enabled k env s (.mintRWA msg)
  | transfer {msg : MsgTransferRWA} {sender recipient : Address}
      {rec : AssetRecord} {amount : SdkInt}
      (hstored : getAsset s.store msg.assetId = some rec)
      (hstatus : rec.status = .active)
      (hsender : k.sdk.accAddressFromBech32 msg.sender = .ok sender)
      (hrecipient : k.sdk.accAddressFromBech32 msg.recipient = .ok recipient)
      (hamount : k.sdk.newIntFromString msg.amount = some amount)
      (hpos : 0 < amount.raw)
      (hparties : recipient = moduleAddress k ∨
        Eligible s.store msg.assetId sender ∧
          Eligible s.store msg.assetId recipient)
      (hfunds : amount.raw ≤
        s.bank.balance sender (buildDenom msg.assetId)) :
      Enabled k env s (.transferRWA msg)
  | restrict {msg : MsgUpdateRestrictions} {issuer : Address}
      {rec : AssetRecord}
      (hvalid : msg.validateBasic k.sdk = .ok ())
      (howned : Owned k s.store msg.assetId msg.issuer issuer rec)
      (hstatus : rec.status ≠ .settled) :
      Enabled k env s (.updateRestrictions msg)
  | settle {msg : MsgSettleRWA} {issuer : Address} {rec : AssetRecord}
      {notional fee : SdkInt}
      (howned : Owned k s.store msg.assetId msg.issuer issuer rec)
      (hstatus : rec.status = .active)
      (hnotional : k.sdk.newIntFromString rec.notionalMinted = some notional)
      (hfee : FeeOf k.sdk (getParams s.store).settleFeeRate notional fee)
      (hfunds : fee.raw ≤ s.bank.balance issuer bondDenom)
      (hunits : notional.raw ≤
        s.bank.balance issuer (buildDenom msg.assetId)) :
      Enabled k env s (.settleRWA msg)
  | slash {msg : MsgSlashBond} {rec : AssetRecord}
      (hauthority : k.authority = msg.authority)
      (hstored : getAsset s.store msg.assetId = some rec)
      (hstatus : rec.status = .active) :
      Enabled k env s (.slashBond msg)
  | reparametrize {msg : MsgUpdateParams}
      (hauthority : k.authority = msg.authority)
      (hvalid : msg.params.Valid k.sdk) :
      Enabled k env s (.updateParams msg)
  | send {source : Address} {outputs : List (Address × CoinList String)}
      (hopen : ∀ output ∈ outputs, blockedAddr k output.1 = false)
      (hallowed : SendAllowed k s.store source outputs)
      (hfunds : s.bank.Covers source (outputCoins outputs)) :
      Enabled k env s (.bankSend source outputs)
  | pay {payer : Address} {coins : CoinList String}
      (hallowed : SendAllowed k s.store payer [(feeCollector k, coins)])
      (hfunds : s.bank.Covers payer coins) :
      Enabled k env s (.payFee payer coins)

/-! ## Sends the restriction lets pass -/

theorem sendAllowed_to_module (k : Keeper) (store : RwaStore)
    (source : Address) (coins : CoinList String) :
    SendAllowed k store source [(moduleAddress k, coins)] := by
  intro output houtput coin hcoin assetID hparse
  rw [List.mem_singleton.mp houtput]
  exact checkTransferAllowed_eq_ok_iff.mpr (Or.inr (Or.inl rfl))

theorem sendAllowed_from_module (k : Keeper) (store : RwaStore)
    (outputs : List (Address × CoinList String)) :
    SendAllowed k store (moduleAddress k) outputs := by
  intro output houtput coin hcoin assetID hparse
  exact checkTransferAllowed_eq_ok_iff.mpr (Or.inl rfl)

theorem mem_coinsOf {denom : String} {amount : ℕ} {coin : String × ℕ}
    (hcoin : coin ∈ coinsOf denom amount) : coin.1 = denom := by
  unfold coinsOf at hcoin
  split_ifs at hcoin with hzero
  · cases hcoin
  · rw [List.mem_singleton.mp hcoin]

/-- Base coins carry no restriction. -/
theorem sendAllowed_bondDenom (k : Keeper) (store : RwaStore)
    (source target : Address) (amount : ℕ) :
    SendAllowed k store source [(target, coinsOf bondDenom amount)] := by
  intro output houtput coin hcoin assetID hparse
  rw [List.mem_singleton.mp houtput] at hcoin
  have hdenom := eq_buildDenom_of_parseRWADenom hparse
  rw [mem_coinsOf hcoin] at hdenom
  exact absurd hdenom (bondDenom_ne_buildDenom assetID)

theorem blockedAddr_eq_false {k : Keeper} {account : Address}
    (haccount : account ∉ keylessAccounts k) :
    blockedAddr k account = false := by
  rw [blockedAddr, List.contains_eq_mem, decide_eq_false_iff_not]
  intro hblocked
  have hnames : ∀ name ∈ blockAccAddrs,
      name ∈ moduleAccountNames.filter (· ≠ "gov") := by decide
  obtain ⟨name, hname, rfl⟩ := List.mem_map.mp hblocked
  exact haccount (List.mem_map.mpr ⟨name, hnames name hname, rfl⟩)

/-! ## Coins of one denomination -/

section Coins

variable {bank bank' : Bank} {source target : Address} {denom : String}
  {amount : ℕ}

theorem covers_coinsOf :
    bank.Covers source (coinsOf denom amount) ↔
      amount ≤ bank.balance source denom := by
  simp only [Ledger.Covers, amountOf_coinsOf]
  constructor
  · intro hcovers
    simpa using hcovers denom
  · intro hamount other
    split_ifs with hdenom
    · exact hdenom ▸ hamount
    · exact Nat.zero_le _

theorem exists_send_coinsOf_iff :
    (∃ bank', bank.exec (.send source [(target, coinsOf denom amount)]) =
        some bank') ↔
      amount ≤ bank.balance source denom := by
  rw [Ledger.exists_exec_send_iff_covers, outputCoins, List.flatMap_singleton,
    covers_coinsOf]

theorem exists_burn_coinsOf (hsupply : amount ≤ bank.supply denom)
    (hheld : amount ≤ bank.balance source denom) :
    ∃ bank', bank.exec (.burn source (coinsOf denom amount)) =
      some bank' := by
  unfold coinsOf
  split_ifs with hzero
  · exact ⟨bank, rfl⟩
  · exact Ledger.exists_exec_burn_iff.mpr ⟨hsupply, hheld⟩

/-- A payment in one denomination leaves the sender's other coins alone. -/
theorem balance_le_of_send
    (hsend : bank.exec (.send source [(target, coinsOf denom amount)]) =
      some bank')
    {account : Address} {other : String}
    (hother : account = source → other ≠ denom) :
    bank.balance account other ≤ bank'.balance account other := by
  refine Ledger.balance_le_of_exec hsend ?_
  rw [LedgerOp.outflow, outputCoins, List.flatMap_singleton,
    amountOf_coinsOf]
  split_ifs with hsource hdenom
  · exact absurd hdenom.symm (hother hsource)
  · rfl
  · rfl

theorem balance_of_send_of_ne
    (hsend : bank.exec (.send source [(target, coinsOf denom amount)]) =
      some bank')
    (account : Address) {other : String} (hother : other ≠ denom) :
    bank'.balance account other = bank.balance account other := by
  have hbalance := Ledger.exec_balance hsend account other
  simpa [LedgerOp.outflow, LedgerOp.inflow, received, outputCoins,
    hother.symm] using hbalance

theorem balance_target_of_send
    (hsend : bank.exec (.send source [(target, coinsOf denom amount)]) =
      some bank') (hne : target ≠ source) :
    amount ≤ bank'.balance target denom := by
  have hbalance := Ledger.exec_balance hsend target denom
  simp only [LedgerOp.outflow, LedgerOp.inflow, received, if_neg hne,
    List.map_cons, List.map_nil, List.sum_cons, List.sum_nil,
    amountOf_coinsOf, if_true] at hbalance
  omega

theorem supply_of_send
    (hsend : bank.exec (.send source [(target, coinsOf denom amount)]) =
      some bank') (other : String) :
    bank'.supply other = bank.supply other :=
  Ledger.exec_supply hsend other

end Coins

/-! ## The payments of the handlers -/

section Payments

variable {k : Keeper} {env : Env} {s : RwaState} {bank : Bank}

theorem lockBond_eq_ok (hopen : env.Open) {issuer : Address}
    {amount : SdkInt} (hamount : 0 ≤ amount.raw)
    (hsend : s.bank.exec (.send issuer
      [(moduleAddress k, coinsOf bondDenom amount.raw.toNat)]) = some bank) :
    lockBond k env s issuer amount = .ok bank := by
  simp only [lockBond, bind_eq_ok_iff, newCoins_eq_ok_iff,
    Exec.ofExcept_eq_ok_iff, sendCoinsFromAccountToModule,
    sendCoins_eq_ok_iff]
  exact ⟨_, ⟨hamount, rfl⟩, sendAllowed_bondDenom k s.store issuer _ _,
    hopen _, hsend⟩

theorem collectFee_eq_ok (hopen : env.Open) {payer : Address} {fee : SdkInt}
    (hsend : s.bank.exec (.send payer
      [(feeCollector k, coinsOf bondDenom fee.raw.toNat)]) = some bank) :
    collectFee k env s payer fee = .ok bank := by
  unfold collectFee
  split_ifs with hnone
  · rw [coinsOf_of_nonpos bondDenom hnone, exec_send_nothing,
      Option.some.injEq] at hsend
    rw [hsend]
  · simp only [bind_eq_ok_iff, newCoins_eq_ok_iff, Exec.ofExcept_eq_ok_iff,
      sendCoinsFromAccountToModule, sendCoins_eq_ok_iff]
    exact ⟨_, ⟨(not_le.mp hnone).le, rfl⟩,
      sendAllowed_bondDenom k s.store payer _ _, hopen _, hsend⟩

theorem returnBond_eq_ok (hopen : env.Open) {issuer : Address} {bond : SdkInt}
    (hissuer : issuer ∉ keylessAccounts k)
    (hsend : s.bank.exec (.send (moduleAddress k)
      [(issuer, coinsOf bondDenom bond.raw.toNat)]) = some bank) :
    returnBond k env s issuer bond = .ok bank := by
  unfold returnBond
  split_ifs with hnone
  · rw [coinsOf_of_nonpos bondDenom hnone, exec_send_nothing,
      Option.some.injEq] at hsend
    rw [hsend]
  · simp only [releaseBond, bind_eq_ok_iff, newCoins_eq_ok_iff,
      Exec.ofExcept_eq_ok_iff, sendCoinsFromModuleToAccount_eq_ok_iff,
      sendCoins_eq_ok_iff]
    exact ⟨_, ⟨(not_le.mp hnone).le, rfl⟩, blockedAddr_eq_false hissuer,
      sendAllowed_from_module k s.store _, hopen _, hsend⟩

theorem forfeitBond_eq_ok (hopen : env.Open) {bond : SdkInt}
    (hsend : s.bank.exec (.send (moduleAddress k)
      [(distributionAccount k, coinsOf bondDenom bond.raw.toNat)]) =
        some bank) :
    forfeitBond k env s bond = .ok bank := by
  unfold forfeitBond
  split_ifs with hnone
  · rw [coinsOf_of_nonpos bondDenom hnone, exec_send_nothing,
      Option.some.injEq] at hsend
    rw [hsend]
  · simp only [slashBondToCommunityPool, fundCommunityPool, bind_eq_ok_iff,
      newCoins_eq_ok_iff, Exec.ofExcept_eq_ok_iff,
      sendCoinsFromAccountToModule, sendCoins_eq_ok_iff]
    exact ⟨_, ⟨(not_le.mp hnone).le, rfl⟩,
      sendAllowed_from_module k s.store _, hopen _, hsend⟩

theorem redeem_eq_ok (hopen : env.Open) {issuer : Address} {notional : SdkInt}
    {denom : String} {middle : Bank}
    (hsend : s.bank.exec (.send issuer
      [(moduleAddress k, coinsOf denom notional.raw.toNat)]) = some middle)
    (hburn : middle.exec (.burn (moduleAddress k)
      (coinsOf denom notional.raw.toNat)) = some bank) :
    redeem k env s issuer notional (coinsOf denom notional.raw.toNat) =
      .ok bank := by
  unfold redeem
  split_ifs with hnone
  · rw [coinsOf_of_nonpos denom hnone] at hsend hburn
    cases hsend
    cases hburn
    rfl
  · simp only [bind_eq_ok_iff, sendCoinsFromAccountToModule,
      sendCoins_eq_ok_iff, burnCoins, execute_eq_ok_iff]
    exact ⟨middle, ⟨sendAllowed_to_module k s.store issuer _, hopen _, hsend⟩,
      hopen _, hburn⟩

end Payments

/-! ## What the module holds in a reachable state -/

/-- The records are sound, the module account holds every open bond and the
supply of an active asset is what its record says was minted. -/
structure Reserved (k : Keeper) (s : RwaState) : Prop where
  sound : RecordsSound k.sdk s.store
  escrow : escrowed k.sdk s.store ≤
    s.bank.balance (moduleAddress k) bondDenom
  supply : ∀ assetID rec, getAsset s.store assetID = some rec →
    rec.status = .active →
    IntWithin k.sdk rec.notionalMinted fun raw =>
      (s.bank.supply (buildDenom assetID) : ℤ) = raw

theorem reserved_of_run
    {k : Keeper} {start s : RwaState} {history : History}
    (hempty : ∀ assetID, getAsset start.store assetID = none)
    (hnone : ∀ assetID, start.bank.supply (buildDenom assetID) = 0)
    (hrun : Run (rwaStep k) start history s) : Reserved k s := by
  obtain ⟨hsound, hassets⟩ := assetSupply_of_run hempty hnone hrun
  refine ⟨hsound, ?_, fun assetID => (hassets assetID).active⟩
  refine (Run.invariant
    (I := fun s => RecordsSound k.sdk s.store ∧
      escrowed k.sdk s.store ≤ s.bank.balance (moduleAddress k) bondDenom)
    ⟨recordsSound_of_empty hempty, ?_⟩ ?_ hrun).2
  · rw [escrowed_of_empty hempty]
    exact Nat.zero_le _
  · rintro state label state' ⟨hstate, hheld⟩ hstep
    have hescrow := rwaStep_escrow hstep hstate.canonical
    exact ⟨hstate.step hstep, by omega⟩

theorem bond_le_escrowed {sdk : Sdk} {store : RwaStore} {assetID : String}
    {rec : AssetRecord} {bond : SdkInt}
    (hstored : getAsset store assetID = some rec)
    (hstatus : rec.status ≠ .settled)
    (hbond : sdk.newIntFromString rec.bond = some bond) :
    bond.raw.toNat ≤ escrowed sdk store := by
  have hmem : rec ∈ iterateAssets store := by
    rw [mem_iterateAssets, getAsset_assetId hstored]
    exact hstored
  have hshare : escrowOf sdk rec ≤ escrowed sdk store :=
    List.le_sum_of_mem (List.mem_map_of_mem hmem)
  rwa [escrowOf, if_neg hstatus, amountIn_eq hbond] at hshare

/-- The module account can pay out the bond of an open asset. -/
theorem Reserved.bond_covered {k : Keeper} {s : RwaState}
    (hreserved : Reserved k s) {assetID : String} {rec : AssetRecord}
    {bond : SdkInt} (hstored : getAsset s.store assetID = some rec)
    (hstatus : rec.status = .active)
    (hbond : k.sdk.newIntFromString rec.bond = some bond) :
    bond.raw.toNat ≤ s.bank.balance (moduleAddress k) bondDenom := by
  refine le_trans (bond_le_escrowed hstored ?_ hbond) hreserved.escrow
  rw [hstatus]
  exact AssetStatus.noConfusion

section Settlement

variable {k : Keeper} {bank : Bank} {issuer : Address} {units : String}
  {fee notional bond : ℕ}

/-- The four payments of a settlement go through one after the other.  The
first two are the issuer's; the module burns what it has just received and pays
the bond from coins that none of the earlier payments touched. -/
theorem exists_settlement_payments
    (hmodule : moduleAddress k ≠ issuer) (hunits : units ≠ bondDenom)
    (hfunds : fee ≤ bank.balance issuer bondDenom)
    (hheld : notional ≤ bank.balance issuer units)
    (hsupply : notional ≤ bank.supply units)
    (hbond : bond ≤ bank.balance (moduleAddress k) bondDenom) :
    ∃ bank₁ bank₂ bank₃ bank₄,
      bank.exec (.send issuer [(feeCollector k, coinsOf bondDenom fee)]) =
          some bank₁ ∧
        bank₁.exec (.send issuer
          [(moduleAddress k, coinsOf units notional)]) = some bank₂ ∧
        bank₂.exec (.burn (moduleAddress k) (coinsOf units notional)) =
          some bank₃ ∧
        bank₃.exec (.send (moduleAddress k)
          [(issuer, coinsOf bondDenom bond)]) = some bank₄ := by
  obtain ⟨bank₁, hpaid⟩ := exists_send_coinsOf_iff.mpr hfunds
  have hheld₁ := hheld.trans
    (balance_le_of_send hpaid fun _ => hunits)
  obtain ⟨bank₂, hredeemed⟩ := exists_send_coinsOf_iff.mpr hheld₁
  have hsupply₂ : notional ≤ bank₂.supply units := by
    rw [supply_of_send hredeemed, supply_of_send hpaid]
    exact hsupply
  obtain ⟨bank₃, hburned⟩ := exists_burn_coinsOf hsupply₂
    (balance_target_of_send hredeemed hmodule)
  have hkept : LedgerOp.outflow
      (.burn (moduleAddress k) (coinsOf units notional))
      (moduleAddress k) bondDenom = 0 := by
    rw [LedgerOp.outflow, if_pos rfl, amountOf_coinsOf, if_neg hunits]
  have hbond₃ : bond ≤ bank₃.balance (moduleAddress k) bondDenom :=
    calc bond ≤ bank.balance (moduleAddress k) bondDenom := hbond
      _ ≤ bank₁.balance (moduleAddress k) bondDenom :=
        balance_le_of_send hpaid fun hsame => absurd hsame hmodule
      _ ≤ bank₂.balance (moduleAddress k) bondDenom :=
        balance_le_of_send hredeemed fun hsame => absurd hsame hmodule
      _ ≤ bank₃.balance (moduleAddress k) bondDenom :=
        Ledger.balance_le_of_exec hburned hkept
  obtain ⟨bank₄, hreturned⟩ := exists_send_coinsOf_iff.mpr hbond₃
  exact ⟨bank₁, bank₂, bank₃, bank₄, hpaid, hredeemed, hburned, hreturned⟩

end Settlement

/-! ## Enabled transactions are accepted -/

theorem exists_decodesTo {sdk : Sdk} {entries : List String}
    (hvalid : validateRestrictionEntries sdk entries = .ok ()) :
    ∃ addrs, DecodesTo sdk entries addrs := by
  induction entries with
  | nil => exact ⟨[], List.Forall₂.nil⟩
  | cons entry rest ih =>
      rw [validateRestrictionEntries] at hvalid
      cases hentry : sdk.accAddressFromBech32 entry with
      | error reason =>
          rw [hentry] at hvalid
          cases hvalid
      | ok addr =>
          rw [hentry] at hvalid
          obtain ⟨addrs, hrest⟩ := ih hvalid
          exact ⟨addr :: addrs, List.Forall₂.cons hentry hrest⟩

/-- The basic checks of a restriction update already decode every entry. -/
theorem exists_memberChanges {sdk : Sdk} {msg : MsgUpdateRestrictions}
    (hvalid : msg.validateBasic sdk = .ok ()) :
    ∃ changes : MemberChanges, changes.DecodedFrom sdk msg := by
  simp only [MsgUpdateRestrictions.validateBasic, validateRestrictionGroup,
    bind_eq_ok_iff, rejectIf_eq_ok_iff, exists_const] at hvalid
  obtain ⟨_, -, _, ⟨-, haddAllow⟩, _, ⟨-, hdelAllow⟩, _, ⟨-, haddDeny⟩, -,
    hdelDeny⟩ := hvalid
  obtain ⟨addAllow, haddAllow⟩ := exists_decodesTo haddAllow
  obtain ⟨delAllow, hdelAllow⟩ := exists_decodesTo hdelAllow
  obtain ⟨addDeny, haddDeny⟩ := exists_decodesTo haddDeny
  obtain ⟨delDeny, hdelDeny⟩ := exists_decodesTo hdelDeny
  exact ⟨⟨addAllow, delAllow, addDeny, delDeny⟩,
    haddAllow, hdelAllow, haddDeny, hdelDeny⟩

section Handlers

variable {k : Keeper} {env : Env} {s : RwaState}

theorem registerAsset_succeeds (hopen : env.Open)
    {msg : MsgRegisterAsset} {issuer : Address} {bond : SdkInt}
    (hvalid : msg.Valid k.sdk)
    (hissuer : k.sdk.accAddressFromBech32 msg.issuer = .ok issuer)
    (hfresh : getAsset s.store msg.assetId = none)
    (hbond : k.sdk.newIntFromString msg.bond = some bond)
    (hmin : IntWithin k.sdk (getParams s.store).minIssuerBond
      fun raw => raw ≤ bond.raw)
    (hfunds : bond.raw ≤ s.bank.balance issuer bondDenom) :
    ∃ s', registerAsset k env s msg = .ok s' := by
  obtain ⟨minBond, hparsed, hcovered⟩ := hmin
  obtain ⟨bank, hsend⟩ :
      ∃ bank, s.bank.exec (.send issuer
        [(moduleAddress k, coinsOf bondDenom bond.raw.toNat)]) = some bank :=
    exists_send_coinsOf_iff.mpr (Int.toNat_le.mpr hfunds)
  have hlocked : lockBond k env s issuer bond = .ok bank :=
    lockBond_eq_ok hopen (hvalid.bond_pos.of_parsed hbond).le hsend
  simp only [registerAsset, bind_eq_ok_iff, Exec.ofExcept_eq_ok_iff,
    Exec.ofOption_eq_ok_iff, reject_eq_ok_iff, exists_const,
    MsgRegisterAsset.validateBasic_eq_ok_iff, elim_eq_ok_iff,
    plainError_eq_ok_iff, pure_eq_ok_iff, setAsset_eq_ok_iff, ne_eq, not_not,
    not_lt]
  exact ⟨_, hvalid, hfresh, bond, hbond, minBond, hparsed, hcovered, issuer,
    hissuer, bank, hlocked, _, ⟨issuer, hissuer, rfl⟩, rfl⟩

/-- The basic checks of the messages that name an existing asset. -/
theorem Owned.valid_party {assetID caller field : String} {issuer : Address}
    {rec : AssetRecord} (howned : Owned k s.store assetID caller issuer rec)
    (hsound : RecordsSound k.sdk s.store) :
    validateParty k.sdk field caller assetID = .ok () := by
  rw [validateParty_eq_ok_iff, ← howned.assetId]
  exact ⟨⟨issuer, howned.caller_decodes⟩,
    (hsound assetID rec howned.stored).slug⟩

theorem attestAsset_succeeds {msg : MsgAttestAsset} {issuer : Address}
    {rec : AssetRecord} {price : LegacyDec}
    (hsound : RecordsSound k.sdk s.store)
    (howned : Owned k s.store msg.assetId msg.issuer issuer rec)
    (hstatus : rec.status = .draft)
    (hprice : env.getPrice rec.oraclePair = .ok price) :
    ∃ s', attestAsset k env s msg = .ok s' := by
  simp only [attestAsset, bind_eq_ok_iff, Exec.ofExcept_eq_ok_iff,
    reject_eq_ok_iff, exists_const, requireIssuer_eq_ok_iff,
    mapError_eq_ok_iff, pure_eq_ok_iff, setAsset_eq_ok_iff, ne_eq, not_not]
  exact ⟨_, (), howned.valid_party hsound, rec,
    ⟨howned.stored, howned.signed⟩, hstatus, price, hprice, _,
    ⟨issuer, howned.decoded, rfl⟩, rfl⟩

theorem mintRWA_succeeds (hopen : env.Open) {msg : MsgMintRWA}
    {issuer : Address} {rec : AssetRecord} {notional fee prev total : SdkInt}
    (hsound : RecordsSound k.sdk s.store)
    (hissuer : issuer ∉ keylessAccounts k)
    (howned : Owned k s.store msg.assetId msg.issuer issuer rec)
    (hstatus : rec.status = .attested ∨ rec.status = .active)
    (hnotional : k.sdk.newIntFromString msg.notional = some notional)
    (hpos : 0 < notional.raw)
    (hfee : FeeOf k.sdk (getParams s.store).mintFeeRate notional fee)
    (hprev : k.sdk.newIntFromString rec.notionalMinted = some prev)
    (htotal : total.raw = prev.raw + notional.raw)
    (hfunds : fee.raw ≤ s.bank.balance issuer bondDenom) :
    ∃ s', mintRWA k env s msg = .ok s' := by
  obtain ⟨rate, hrate, hproduct⟩ := hfee
  obtain ⟨bank₁, hpaid⟩ :
      ∃ bank, s.bank.exec (.send issuer
        [(feeCollector k, coinsOf bondDenom fee.raw.toNat)]) = some bank :=
    exists_send_coinsOf_iff.mpr (Int.toNat_le.mpr hfunds)
  obtain ⟨bank₂, hminted⟩ : ∃ bank, bank₁.exec (.mint (moduleAddress k)
      (coinsOf rec.denom notional.raw.toNat)) = some bank := ⟨_, rfl⟩
  have hheld : notional.raw.toNat ≤
      bank₂.balance (moduleAddress k) rec.denom := by
    have hbalance := Ledger.exec_balance hminted (moduleAddress k) rec.denom
    simp only [LedgerOp.outflow, LedgerOp.inflow, amountOf_coinsOf, if_true]
      at hbalance
    omega
  obtain ⟨bank₃, hhanded⟩ :
      ∃ bank, bank₂.exec (.send (moduleAddress k)
        [(issuer, coinsOf rec.denom notional.raw.toNat)]) = some bank :=
    exists_send_coinsOf_iff.mpr hheld
  have hvalid : msg.validateBasic k.sdk = .ok () := by
    simp only [MsgMintRWA.validateBasic, bind_eq_ok_iff, mapError_eq_ok_iff,
      validatePositiveInt_eq_ok_iff]
    exact ⟨(), howned.valid_party hsound, notional, hnotional, hpos⟩
  simp only [mintRWA, computeFee, mintCoins, bind_eq_ok_iff,
    Exec.ofExcept_eq_ok_iff, Exec.ofOption_eq_ok_iff, reject_eq_ok_iff,
    exists_const, requireIssuer_eq_ok_iff, positiveInt_eq_ok_iff,
    plainError_eq_ok_iff, newCoins_eq_ok_iff, execute_eq_ok_iff,
    sendCoinsFromModuleToAccount_eq_ok_iff, sendCoins_eq_ok_iff,
    pure_eq_ok_iff, setAsset_eq_ok_iff, FixedPoint.add?,
    FixedPoint.checked_eq_some_iff, ne_eq]
  refine ⟨_, (), hvalid, rec, ⟨howned.stored, howned.signed⟩, ?_, notional,
    ⟨hnotional, hpos⟩, rate, hrate, issuer, howned.caller_decodes, fee,
    hproduct, bank₁, collectFee_eq_ok hopen hpaid, _, ⟨hpos.le, rfl⟩, bank₂,
    ⟨hopen _, hminted⟩, bank₃, ⟨blockedAddr_eq_false hissuer,
      sendAllowed_from_module k s.store _, hopen _, hhanded⟩, prev, hprev,
    total, htotal, _, ⟨issuer, howned.decoded, rfl⟩, rfl⟩
  rintro ⟨hattested, hactive⟩
  exact hstatus.elim hattested hactive

theorem updateRestrictions_succeeds {msg : MsgUpdateRestrictions}
    {issuer : Address} {rec : AssetRecord}
    (hvalid : msg.validateBasic k.sdk = .ok ())
    (howned : Owned k s.store msg.assetId msg.issuer issuer rec)
    (hstatus : rec.status ≠ .settled) :
    ∃ s', updateRestrictions k s msg = .ok s' := by
  obtain ⟨changes, hdecoded⟩ := exists_memberChanges hvalid
  exact ⟨_, updateRestrictions_eq_ok_iff.mpr
    ⟨hvalid, issuer, rec, changes, howned, hstatus, hdecoded, rfl⟩⟩

theorem settleRWA_succeeds (hopen : env.Open) (hreserved : Reserved k s)
    {msg : MsgSettleRWA} {issuer : Address} {rec : AssetRecord}
    {notional fee : SdkInt} (hissuer : issuer ∉ keylessAccounts k)
    (howned : Owned k s.store msg.assetId msg.issuer issuer rec)
    (hstatus : rec.status = .active)
    (hnotional : k.sdk.newIntFromString rec.notionalMinted = some notional)
    (hfee : FeeOf k.sdk (getParams s.store).settleFeeRate notional fee)
    (hfunds : fee.raw ≤ s.bank.balance issuer bondDenom)
    (hunits : notional.raw ≤
      s.bank.balance issuer (buildDenom msg.assetId)) :
    ∃ s', settleRWA k env s msg = .ok s' := by
  have hrecord := hreserved.sound msg.assetId rec howned.stored
  have hdenom := hreserved.sound.denom_eq howned
  have hsupply := (hreserved.supply _ _ howned.stored hstatus).of_parsed
    hnotional
  obtain ⟨bond, hbond, -⟩ := hrecord.bond_nonneg
  obtain ⟨rate, hrate, hproduct⟩ := hfee
  have hmodule : moduleAddress k ≠ issuer := by
    rintro rfl
    exact hissuer (moduleAddress_keyless k)
  obtain ⟨bank₁, bank₂, bank₃, bank₄, hpaid, hredeemed, hburned, hreturned⟩ :=
    exists_settlement_payments hmodule
      (buildDenom_ne_bondDenom msg.assetId) (Int.toNat_le.mpr hfunds)
      (Int.toNat_le.mpr hunits) (Int.toNat_le.mpr hsupply.ge)
      (hreserved.bond_covered howned.stored hstatus hbond)
  simp only [settleRWA, computeFee, bind_eq_ok_iff, Exec.ofExcept_eq_ok_iff,
    Exec.ofOption_eq_ok_iff, reject_eq_ok_iff, exists_const,
    requireIssuer_eq_ok_iff, plainError_eq_ok_iff, newCoins_eq_ok_iff,
    pure_eq_ok_iff, setAsset_eq_ok_iff, ne_eq, not_not]
  rw [← hdenom] at hredeemed hburned
  exact ⟨_, (), howned.valid_party hreserved.sound, rec,
    ⟨howned.stored, howned.signed⟩, hstatus, issuer, howned.caller_decodes,
    notional, hnotional, rate, hrate, fee, hproduct, bank₁,
    collectFee_eq_ok hopen hpaid, _,
    ⟨hrecord.notional_nonneg.of_parsed hnotional, rfl⟩, bank₃,
    redeem_eq_ok hopen hredeemed hburned, bond, hbond, bank₄,
    returnBond_eq_ok hopen hissuer hreturned, _,
    ⟨issuer, howned.decoded, rfl⟩, rfl⟩

theorem slashBond_succeeds (hopen : env.Open) (hreserved : Reserved k s)
    {msg : MsgSlashBond} {rec : AssetRecord} {authority : Address}
    (hsigner : k.sdk.accAddressFromBech32 msg.authority = .ok authority)
    (hauthority : k.authority = msg.authority)
    (hstored : getAsset s.store msg.assetId = some rec)
    (hstatus : rec.status = .active) :
    ∃ s', slashBond k env s msg = .ok s' := by
  have hrecord := hreserved.sound msg.assetId rec hstored
  obtain ⟨bond, hbond, -⟩ := hrecord.bond_nonneg
  obtain ⟨issuer, hissuer⟩ := hrecord.issuer_decodes
  obtain ⟨bank, hforfeited⟩ :
      ∃ bank, s.bank.exec (.send (moduleAddress k)
        [(distributionAccount k, coinsOf bondDenom bond.raw.toNat)]) =
          some bank :=
    exists_send_coinsOf_iff.mpr
      (hreserved.bond_covered hstored hstatus hbond)
  have hvalid : msg.validateBasic k.sdk = .ok () := by
    rw [MsgSlashBond.validateBasic, validateParty_eq_ok_iff,
      ← getAsset_assetId hstored]
    exact ⟨⟨authority, hsigner⟩, hrecord.slug⟩
  simp only [slashBond, bind_eq_ok_iff, Exec.ofExcept_eq_ok_iff,
    Exec.ofOption_eq_ok_iff, reject_eq_ok_iff, exists_const, elim_eq_ok_iff,
    pure_eq_ok_iff, setAsset_eq_ok_iff, ne_eq, not_not]
  exact ⟨_, hauthority, (), hvalid, rec, hstored, hstatus, bond, hbond, bank,
    forfeitBond_eq_ok hopen hforfeited, _, ⟨issuer, hissuer, rfl⟩, rfl⟩

theorem updateParams_succeeds {msg : MsgUpdateParams} {authority : Address}
    (hsigner : k.sdk.accAddressFromBech32 msg.authority = .ok authority)
    (hauthority : k.authority = msg.authority)
    (hvalid : msg.params.Valid k.sdk) :
    ∃ s', updateParams k s msg = .ok s' := by
  simp only [updateParams, MsgUpdateParams.validateBasic, bind_eq_ok_iff,
    Exec.ofExcept_eq_ok_iff, reject_eq_ok_iff, exists_const,
    addressField_eq_ok_iff, RWAParams.validate_eq_ok_iff,
    setParams_eq_ok_iff, pure_eq_ok_iff, ne_eq, not_not]
  exact ⟨_, hauthority, ⟨authority, hsigner, hvalid⟩, _, ⟨hvalid, rfl⟩, rfl⟩

end Handlers

theorem exists_signer {k : Keeper} {tx : RwaTx}
    (hsignable : tx.signable k = true) :
    ∃ signer, tx.signer k.sdk = .ok signer := by
  unfold RwaTx.signable at hsignable
  cases hsigner : tx.signer k.sdk with
  | error reason =>
      rw [hsigner] at hsignable
      cases hsignable
  | ok signer => exact ⟨signer, rfl⟩

theorem handle_of_enabled
    {k : Keeper} {env : Env} {s : RwaState} {tx : RwaTx}
    (hopen : env.Open) (hreserved : Reserved k s)
    (hsignable : tx.signable k = true) (henabled : Enabled k env s tx) :
    ∃ s', handle k env s tx = .ok s' := by
  cases henabled with
  | register hvalid hissuer hfresh hbond hmin hfunds =>
      exact registerAsset_succeeds hopen hvalid hissuer hfresh hbond hmin
        hfunds
  | attest howned hstatus hprice =>
      exact attestAsset_succeeds hreserved.sound howned hstatus hprice
  | mint howned hstatus hnotional hpos hfee hprev htotal hfunds =>
      exact mintRWA_succeeds hopen hreserved.sound
        (signer_not_keyless hsignable howned.caller_decodes) howned hstatus
        hnotional hpos hfee hprev htotal hfunds
  | @transfer msg sender recipient rec amount hstored hstatus hsender
      hrecipient hamount hpos hparties hfunds =>
      have hsigned := signer_not_keyless hsignable hsender
      have hunits : 0 < amount.raw.toNat := by omega
      have hallowed : checkTransferAllowed k s.store msg.assetId sender
          recipient = .ok () :=
        checkTransferAllowed_eq_ok_iff.mpr (Or.inr hparties)
      obtain ⟨bank, hmove⟩ := (exists_unitsMove_iff hunits).mpr
        ⟨hsigned, hallowed, hopen _, Int.toNat_le.mpr hfunds⟩
      have hdelivered := (deliver_transferRWA_eq_ok_iff
        hreserved.sound.canonical hstored hstatus hsender hrecipient hamount
        hpos).mpr ⟨bank, hmove, rfl⟩
      have hsigner : RwaTx.signer k.sdk (.transferRWA msg) = .ok sender :=
        hsender
      exact ⟨_, ((deliver_eq_ok_iff hsigner).mp hdelivered).2⟩
  | restrict hvalid howned hstatus =>
      exact updateRestrictions_succeeds hvalid howned hstatus
  | settle howned hstatus hnotional hfee hfunds hunits =>
      exact settleRWA_succeeds hopen hreserved
        (signer_not_keyless hsignable howned.caller_decodes) howned hstatus
        hnotional hfee hfunds hunits
  | slash hauthority hstored hstatus =>
      obtain ⟨authority, hsigner⟩ := exists_signer hsignable
      exact slashBond_succeeds hopen hreserved hsigner hauthority hstored
        hstatus
  | reparametrize hauthority hvalid =>
      obtain ⟨authority, hsigner⟩ := exists_signer hsignable
      exact updateParams_succeeds hsigner hauthority hvalid
  | send hopen' hallowed hfunds =>
      obtain ⟨bank, hsend⟩ := Ledger.exists_exec_send_iff_covers.mpr hfunds
      simp only [handle, bankSend, bind_eq_ok_iff, Exec.ofExcept_eq_ok_iff,
        reject_eq_ok_iff, exists_const, inputOutputCoins_eq_ok_iff,
        pure_eq_ok_iff, not_exists, not_and, Bool.not_eq_true]
      exact ⟨_, hopen', bank, ⟨hallowed, hopen _, hsend⟩, rfl⟩
  | @pay payer coins hallowed hfunds =>
      obtain ⟨bank, hsend⟩ : ∃ bank, s.bank.exec
          (.send payer [(feeCollector k, coins)]) = some bank := by
        rw [Ledger.exists_exec_send_iff_covers, outputCoins,
          List.flatMap_singleton]
        exact hfunds
      simp only [handle, payFee, bind_eq_ok_iff, Exec.ofExcept_eq_ok_iff,
        sendCoinsFromAccountToModule, sendCoins_eq_ok_iff, pure_eq_ok_iff]
      exact ⟨_, bank, ⟨hallowed, hopen _, hsend⟩, rfl⟩

/-! ## Accepted transactions were enabled -/

theorem le_balance_of_send {bank bank' : Bank} {source target : Address}
    {denom : String} {amount : ℤ}
    (hsend : bank.exec (.send source
      [(target, coinsOf denom amount.toNat)]) = some bank') :
    amount ≤ bank.balance source denom :=
  Int.toNat_le.mp (exists_send_coinsOf_iff.mp ⟨bank', hsend⟩)

theorem enabled_of_handle
    {k : Keeper} {env : Env} {s s' : RwaState} {tx : RwaTx}
    (hsound : RecordsSound k.sdk s.store) (hsignable : tx.signable k = true)
    (hhandle : handle k env s tx = .ok s') : Enabled k env s tx := by
  cases accepted_of_handle hhandle with
  | registered hvalid hissuer hfresh hbond hmin hbank =>
      simp only [Ledger.execAll, Option.bind_eq_some_iff] at hbank
      obtain ⟨bank, hlocked, -⟩ := hbank
      exact .register hvalid hissuer hfresh hbond hmin
        (le_balance_of_send hlocked)
  | attested howned hstatus hprice => exact .attest howned hstatus hprice
  | minted howned hstatus hnotional hpos hfee hprev htotal hbank =>
      simp only [Ledger.execAll, Option.bind_eq_some_iff] at hbank
      obtain ⟨bank, hpaid, -⟩ := hbank
      exact .mint howned hstatus hnotional hpos hfee hprev htotal
        (le_balance_of_send hpaid)
  | @transferred msg sender recipient rec amount bank hstored hstatus hsender
      hrecipient hamount hpos hallowed hbank =>
      simp only [Ledger.execAll, Option.bind_eq_some_iff] at hbank
      obtain ⟨bank', hmoved, -⟩ := hbank
      have hunits : 0 < amount.raw.toNat := by omega
      rw [(hsound.canonical msg.assetId rec hstored).2] at hallowed hmoved
      rw [sendAllowed_units_iff (hsound.canonical.id_ne_empty hstored) hunits,
        checkTransferAllowed_eq_ok_iff] at hallowed
      have hsender' : sender ≠ moduleAddress k :=
        (ne_signer_of_keyless (moduleAddress_keyless k) hsignable
          hsender).symm
      exact .transfer hstored hstatus hsender hrecipient hamount hpos
        (hallowed.resolve_left hsender') (le_balance_of_send hmoved)
  | restricted howned hslug hstatus haddAllow hdelAllow haddDeny hdelDeny =>
      have hvalid := (updateRestrictions_eq_ok_iff.mp hhandle).1
      exact .restrict hvalid howned hstatus
  | @settled msg issuer rec notional fee bond bank howned hstatus hnotional
      hfee hbond hbank =>
      simp only [Ledger.execAll, Option.bind_eq_some_iff] at hbank
      obtain ⟨bank₁, hpaid, bank₂, hredeemed, -⟩ := hbank
      rw [hsound.denom_eq howned] at hredeemed
      have hkept : bank₁.balance issuer (buildDenom msg.assetId) =
          s.bank.balance issuer (buildDenom msg.assetId) :=
        balance_of_send_of_ne hpaid issuer
          (buildDenom_ne_bondDenom msg.assetId)
      refine .settle howned hstatus hnotional hfee (le_balance_of_send hpaid)
        ?_
      rw [← hkept]
      exact le_balance_of_send hredeemed
  | slashed hauthority hstored hissuer hstatus hbond hbank =>
      exact .slash hauthority hstored hstatus
  | reparametrized hauthority hvalid => exact .reparametrize hauthority hvalid
  | sent hopen hallowed hbank =>
      simp only [Ledger.execAll, Option.bind_eq_some_iff] at hbank
      obtain ⟨bank, hsend, -⟩ := hbank
      exact .send hopen hallowed
        (Ledger.exists_exec_send_iff_covers.mp ⟨bank, hsend⟩)
  | paid hallowed hbank =>
      simp only [Ledger.execAll, Option.bind_eq_some_iff] at hbank
      obtain ⟨bank, hsend, -⟩ := hbank
      have hcovers := Ledger.exists_exec_send_iff_covers.mp ⟨bank, hsend⟩
      rw [outputCoins, List.flatMap_singleton] at hcovers
      exact .pay hallowed hcovers

theorem Reserved.exists_deliver_iff
    {k : Keeper} {env : Env} {s : RwaState} {tx : RwaTx}
    (hreserved : Reserved k s) (hopen : env.Open) :
    (∃ s', deliver k env s tx = .ok s') ↔
      tx.signable k = true ∧ Enabled k env s tx := by
  simp only [deliver, bind_eq_ok_iff, reject_eq_ok_iff, exists_const,
    Bool.not_eq_false]
  constructor
  · rintro ⟨s', hsignable, hhandle⟩
    exact ⟨hsignable, enabled_of_handle hreserved.sound hsignable hhandle⟩
  · rintro ⟨hsignable, henabled⟩
    obtain ⟨s', hhandle⟩ :=
      handle_of_enabled hopen hreserved hsignable henabled
    exact ⟨s', hsignable, hhandle⟩

/-- In every reachable state a signed transaction is accepted exactly when it
is enabled.  In particular the authority can forfeit the bond of every active
asset, and an issuer who holds the fee and all minted units can always settle:
the module never lacks the coins it has to pay out. -/
theorem deliver_succeeds_iff
    {k : Keeper} {env : Env} {start s : RwaState} {history : History}
    {tx : RwaTx}
    (hempty : ∀ assetID, getAsset start.store assetID = none)
    (hnone : ∀ assetID, start.bank.supply (buildDenom assetID) = 0)
    (hrun : Run (rwaStep k) start history s) (hopen : env.Open) :
    (∃ s', deliver k env s tx = .ok s') ↔
      tx.signable k = true ∧ Enabled k env s tx :=
  (reserved_of_run hempty hnone hrun).exists_deliver_iff hopen

/-- The issuer of the minted land, who still holds its units, can settle. -/
theorem settleLand_enabled :
    ∃ history s s',
      Run (rwaStep referenceKeeper) fundedState history s ∧
        Enabled referenceKeeper openEnv s settleLand ∧
        deliver referenceKeeper openEnv s settleLand = .ok s' := by
  have hfacts : (runLand [registerLand, attestLand, mintLand "1500"]).any
      (fun r => (deliver referenceKeeper openEnv r.2
        settleLand).toOption.any fun _ => true) = true := by
    decide +kernel
  obtain ⟨⟨history, s⟩, hrun, hsettles⟩ := exists_some_of_any hfacts
  obtain ⟨s', hsettled, -⟩ := exists_ok_of_any hsettles
  have hreached := run_of_runLand hrun
  have hnone : ∀ assetID, fundedState.bank.supply (buildDenom assetID) = 0 :=
    fun assetID => by simp [fundedState]
  exact ⟨history, s, s', hreached,
    ((deliver_succeeds_iff fundedState_empty hnone hreached
      (fun _ => rfl)).mp ⟨s', hsettled⟩).2, hsettled⟩

end Rwa
end Vertix

import Vertix.RwaBank
import Mathlib.Tactic

/-!
# Rwa messages

The message handlers of `x/rwa` over the module's store and the bank.  A
handler fails with an error or panics; in both cases the transaction is
reverted.  `Accepted` lists what a successful handler did, one constructor for
each message.
-/

namespace Vertix
namespace Rwa

structure RwaState where
  store : RwaStore
  bank : Bank

/-! ## Bonds and fees -/

def lockBond (k : Keeper) (env : Env) (s : RwaState) (issuer : Address)
    (amount : SdkInt) : Exec Bank := do
  let coins ← newCoins bondDenom amount
  Exec.ofExcept (sendCoinsFromAccountToModule k env s.store s.bank issuer
    moduleName coins)

def releaseBond (k : Keeper) (env : Env) (s : RwaState) (issuer : Address)
    (amount : SdkInt) : Exec Bank := do
  let coins ← newCoins bondDenom amount
  Exec.ofExcept (sendCoinsFromModuleToAccount k env s.store s.bank moduleName
    issuer coins)

def slashBondToCommunityPool (k : Keeper) (env : Env) (s : RwaState)
    (amount : SdkInt) : Exec Bank := do
  let coins ← newCoins bondDenom amount
  Exec.ofExcept (fundCommunityPool k env s.store s.bank coins
    (moduleAddress k))

/-- `floor(notional * rate)`; the zero fee is returned as the product has
it. -/
def computeFee (notional : SdkInt) (rate : LegacyDec) : Exec SdkInt :=
  Exec.ofOption (truncatedProduct notional rate)

def collectFee (k : Keeper) (env : Env) (s : RwaState) (payer : Address)
    (fee : SdkInt) : Exec Bank :=
  if fee.raw ≤ 0 then .ok s.bank
  else do
    let coins ← newCoins bondDenom fee
    Exec.ofExcept (sendCoinsFromAccountToModule k env s.store s.bank payer
      feeCollectorName coins)

/-! ## Handlers -/

def reject (bad : Prop) [Decidable bad] (error : SdkError) : Exec Unit :=
  Exec.ofExcept (rejectIf bad error)

def draftRecord (sdk : Sdk) (ctx : Ctx) (msg : MsgRegisterAsset)
    (bond : SdkInt) : AssetRecord where
  assetId := msg.assetId
  issuer := msg.issuer
  name := msg.name
  description := msg.description
  status := .draft
  oraclePair := msg.oraclePair
  denom := buildDenom msg.assetId
  bond := sdk.intString bond
  notionalMinted := sdk.intString SdkInt.zero
  allowAll := true
  attestedPrice := ""
  attestedAt := zeroTime
  createdAt := ctx.blockTime
  settledAt := zeroTime

def registerAsset (k : Keeper) (env : Env) (s : RwaState)
    (msg : MsgRegisterAsset) : Exec RwaState := do
  Exec.ofExcept (msg.validateBasic k.sdk)
  reject (getAsset s.store msg.assetId ≠ none)
    (errAssetExists.wrap msg.assetId)
  let bond ← Exec.ofExcept
    ((k.sdk.newIntFromString msg.bond).elim
      (.error (errInvalidAmount.wrap "bond")) .ok)
  -- comparing with an unparsed minimum would dereference nil
  let minBond ← Exec.ofOption
    (k.sdk.newIntFromString (getParams s.store).minIssuerBond)
  reject (bond.raw < minBond.raw)
    (errBondTooLow.wrap ("bond " ++ k.sdk.intString bond ++ " < min " ++
      k.sdk.intString minBond))
  let issuer ← Exec.ofExcept
    (plainError (k.sdk.accAddressFromBech32 msg.issuer))
  let bank ← lockBond k env s issuer bond
  let store ← Exec.ofExcept
    (setAsset k.sdk s.store (draftRecord k.sdk env.ctx msg bond))
  return ⟨store, bank⟩

def requireIssuer (store : RwaStore) (assetID caller : String) :
    Except SdkError AssetRecord :=
  match getAsset store assetID with
  | none => .error (errAssetNotFound.wrap assetID)
  | some rec => do
      rejectIf (rec.issuer ≠ caller)
        (errUnauthorized.wrap ("caller " ++ caller ++ " is not issuer " ++
          rec.issuer))
      return rec

def attestedRecord (sdk : Sdk) (ctx : Ctx) (rec : AssetRecord)
    (price : LegacyDec) : AssetRecord :=
  { rec with
    status := .attested
    attestedPrice := sdk.legacyDecString price
    attestedAt := ctx.blockTime }

def attestAsset (k : Keeper) (env : Env) (s : RwaState)
    (msg : MsgAttestAsset) : Exec RwaState := do
  Exec.ofExcept (msg.validateBasic k.sdk)
  let rec ← Exec.ofExcept (requireIssuer s.store msg.assetId msg.issuer)
  reject (rec.status ≠ .draft)
    (errInvalidStatus.wrap ("attest requires DRAFT, got " ++
      rec.status.string))
  let price ← Exec.ofExcept ((env.getPrice rec.oraclePair).mapError
    fun error => errAttestationFailed.wrap ("pair " ++ rec.oraclePair ++
      ": " ++ error.text))
  let store ← Exec.ofExcept
    (setAsset k.sdk s.store (attestedRecord k.sdk env.ctx rec price))
  return { s with store := store }

def mintedRecord (sdk : Sdk) (rec : AssetRecord) (total : SdkInt) :
    AssetRecord :=
  { rec with
    notionalMinted := sdk.intString total
    status := .active }

/-- A positive integer field of a message. -/
def positiveInt (sdk : Sdk) (text : String) (error : SdkError) :
    Except SdkError SdkInt :=
  match sdk.newIntFromString text with
  | none => .error (error.wrap text)
  | some value => do
      rejectIf (value.raw ≤ 0) (error.wrap text)
      return value

def mintRWA (k : Keeper) (env : Env) (s : RwaState) (msg : MsgMintRWA) :
    Exec RwaState := do
  Exec.ofExcept (msg.validateBasic k.sdk)
  let rec ← Exec.ofExcept (requireIssuer s.store msg.assetId msg.issuer)
  reject (rec.status ≠ .attested ∧ rec.status ≠ .active)
    (errInvalidStatus.wrap ("mint requires ATTESTED or ACTIVE, got " ++
      rec.status.string))
  let notional ← Exec.ofExcept
    (positiveInt k.sdk msg.notional errInvalidNotional)
  let rate ← Exec.ofExcept
    (plainError (k.sdk.legacyNewDecFromStr (getParams s.store).mintFeeRate))
  let issuer ← Exec.ofExcept
    (plainError (k.sdk.accAddressFromBech32 msg.issuer))
  let fee ← computeFee notional rate
  let bank ← collectFee k env s issuer fee
  let coins ← newCoins rec.denom notional
  let bank ← Exec.ofExcept (mintCoins k env bank moduleName coins)
  let bank ← Exec.ofExcept (sendCoinsFromModuleToAccount k env s.store bank
    moduleName issuer coins)
  let prev ← Exec.ofOption (k.sdk.newIntFromString rec.notionalMinted)
  let total ← Exec.ofOption (FixedPoint.add? prev notional)
  let store ← Exec.ofExcept
    (setAsset k.sdk s.store (mintedRecord k.sdk rec total))
  return ⟨store, bank⟩

def transferRWA (k : Keeper) (env : Env) (s : RwaState)
    (msg : MsgTransferRWA) : Exec RwaState := do
  Exec.ofExcept (msg.validateBasic k.sdk)
  let rec ← Exec.ofExcept ((getAsset s.store msg.assetId).elim
    (.error (errAssetNotFound.wrap msg.assetId)) .ok)
  reject (rec.status ≠ .active)
    (errInvalidStatus.wrap ("transfer requires ACTIVE, got " ++
      rec.status.string))
  let sender ← Exec.ofExcept
    (plainError (k.sdk.accAddressFromBech32 msg.sender))
  let recipient ← Exec.ofExcept
    (plainError (k.sdk.accAddressFromBech32 msg.recipient))
  Exec.ofExcept
    (checkTransferAllowed k s.store msg.assetId sender recipient)
  let amount ← Exec.ofExcept (positiveInt k.sdk msg.amount errInvalidAmount)
  let coins ← newCoins rec.denom amount
  let bank ← Exec.ofExcept
    (sendCoins k env s.store s.bank sender recipient coins)
  return { s with bank := bank }

/-- The `apply` closure of `UpdateRestrictions`. -/
def applyMembers (sdk : Sdk)
    (change : RwaStore → String → Address → RwaStore) (assetID : String)
    (store : RwaStore) (entries : List String) : Except SdkError RwaStore :=
  entries.foldlM (fun store entry => do
    let addr ← plainError (sdk.accAddressFromBech32 entry)
    return change store assetID addr) store

def restrictedRecord (rec : AssetRecord) (allowAll : Bool) : AssetRecord :=
  { rec with allowAll := allowAll }

def updateRestrictions (k : Keeper) (s : RwaState)
    (msg : MsgUpdateRestrictions) : Exec RwaState := do
  Exec.ofExcept (msg.validateBasic k.sdk)
  let rec ← Exec.ofExcept (requireIssuer s.store msg.assetId msg.issuer)
  reject (rec.status = .settled)
    (errInvalidStatus.wrap "cannot update restrictions on a settled asset")
  let store ← Exec.ofExcept
    (applyMembers k.sdk addAllowlist msg.assetId s.store msg.addAllow)
  let store ← Exec.ofExcept
    (applyMembers k.sdk delAllowlist msg.assetId store msg.delAllow)
  let store ← Exec.ofExcept
    (applyMembers k.sdk addDenylist msg.assetId store msg.addDeny)
  let store ← Exec.ofExcept
    (applyMembers k.sdk delDenylist msg.assetId store msg.delDeny)
  let store ← Exec.ofExcept
    (setAsset k.sdk store (restrictedRecord rec msg.allowAll))
  return { s with store := store }

def settledRecord (ctx : Ctx) (rec : AssetRecord) : AssetRecord :=
  { rec with
    status := .settled
    settledAt := ctx.blockTime }

/-- Collect the minted units from the issuer and burn them. -/
def redeem (k : Keeper) (env : Env) (s : RwaState) (issuer : Address)
    (notionalMinted : SdkInt) (coins : CoinList String) :
    Except SdkError Bank :=
  if notionalMinted.raw ≤ 0 then .ok s.bank
  else do
    let bank ← sendCoinsFromAccountToModule k env s.store s.bank issuer
      moduleName coins
    burnCoins k env bank moduleName coins

def returnBond (k : Keeper) (env : Env) (s : RwaState) (issuer : Address)
    (bond : SdkInt) : Exec Bank :=
  if bond.raw ≤ 0 then .ok s.bank else releaseBond k env s issuer bond

def settleRWA (k : Keeper) (env : Env) (s : RwaState) (msg : MsgSettleRWA) :
    Exec RwaState := do
  Exec.ofExcept (msg.validateBasic k.sdk)
  let rec ← Exec.ofExcept (requireIssuer s.store msg.assetId msg.issuer)
  reject (rec.status ≠ .active)
    (errInvalidStatus.wrap ("settle requires ACTIVE, got " ++
      rec.status.string))
  let issuer ← Exec.ofExcept
    (plainError (k.sdk.accAddressFromBech32 msg.issuer))
  let notionalMinted ← Exec.ofOption
    (k.sdk.newIntFromString rec.notionalMinted)
  let rate ← Exec.ofExcept
    (plainError (k.sdk.legacyNewDecFromStr (getParams s.store).settleFeeRate))
  let fee ← computeFee notionalMinted rate
  let bank ← collectFee k env s issuer fee
  let coins ← newCoins rec.denom notionalMinted
  let bank ← Exec.ofExcept
    (redeem k env { s with bank := bank } issuer notionalMinted coins)
  let bond ← Exec.ofOption (k.sdk.newIntFromString rec.bond)
  let bank ← returnBond k env { s with bank := bank } issuer bond
  let store ← Exec.ofExcept
    (setAsset k.sdk s.store (settledRecord env.ctx rec))
  return ⟨store, bank⟩

def slashedRecord (sdk : Sdk) (ctx : Ctx) (rec : AssetRecord) : AssetRecord :=
  { settledRecord ctx rec with bond := sdk.intString SdkInt.zero }

def forfeitBond (k : Keeper) (env : Env) (s : RwaState) (bond : SdkInt) :
    Exec Bank :=
  if bond.raw ≤ 0 then .ok s.bank else slashBondToCommunityPool k env s bond

def slashBond (k : Keeper) (env : Env) (s : RwaState) (msg : MsgSlashBond) :
    Exec RwaState := do
  reject (k.authority ≠ msg.authority)
    (errUnauthorized.wrap ("expected gov authority " ++ k.authority ++
      ", got " ++ msg.authority))
  Exec.ofExcept (msg.validateBasic k.sdk)
  let rec ← Exec.ofExcept ((getAsset s.store msg.assetId).elim
    (.error (errAssetNotFound.wrap msg.assetId)) .ok)
  reject (rec.status ≠ .active)
    (errInvalidStatus.wrap ("slash requires ACTIVE, got " ++
      rec.status.string))
  let bond ← Exec.ofOption (k.sdk.newIntFromString rec.bond)
  let bank ← forfeitBond k env s bond
  let store ← Exec.ofExcept
    (setAsset k.sdk s.store (slashedRecord k.sdk env.ctx rec))
  return ⟨store, bank⟩

def updateParams (k : Keeper) (s : RwaState) (msg : MsgUpdateParams) :
    Exec RwaState := do
  reject (k.authority ≠ msg.authority)
    (errInvalidSigner.wrap ("expected " ++ k.authority ++ ", got " ++
      msg.authority))
  Exec.ofExcept (msg.validateBasic k.sdk)
  let store ← Exec.ofExcept (setParams k.sdk s.store msg.params)
  return { s with store := store }

/-! ## Transactions -/

/-- The transactions which touch the module or the bank.  `bankSend` with one
output is `MsgSend`, with several `MsgMultiSend`; `payFee` is the deduction
made by the ante handler. -/
inductive RwaTx where
  | registerAsset (msg : MsgRegisterAsset)
  | attestAsset (msg : MsgAttestAsset)
  | mintRWA (msg : MsgMintRWA)
  | transferRWA (msg : MsgTransferRWA)
  | updateRestrictions (msg : MsgUpdateRestrictions)
  | settleRWA (msg : MsgSettleRWA)
  | slashBond (msg : MsgSlashBond)
  | updateParams (msg : MsgUpdateParams)
  | bankSend (source : Address) (outputs : List (Address × CoinList String))
  | payFee (payer : Address) (coins : CoinList String)

def bankSend (k : Keeper) (env : Env) (s : RwaState) (source : Address)
    (outputs : List (Address × CoinList String)) : Exec RwaState := do
  reject (∃ output ∈ outputs, blockedAddr k output.1 = true)
    (errSdkUnauthorized.wrap "recipient is not allowed to receive funds")
  let bank ← Exec.ofExcept
    (inputOutputCoins k env s.store s.bank source outputs)
  return { s with bank := bank }

def payFee (k : Keeper) (env : Env) (s : RwaState) (payer : Address)
    (coins : CoinList String) : Exec RwaState := do
  let bank ← Exec.ofExcept (sendCoinsFromAccountToModule k env s.store s.bank
    payer feeCollectorName coins)
  return { s with bank := bank }

def handle (k : Keeper) (env : Env) (s : RwaState) : RwaTx → Exec RwaState
  | .registerAsset msg => registerAsset k env s msg
  | .attestAsset msg => attestAsset k env s msg
  | .mintRWA msg => mintRWA k env s msg
  | .transferRWA msg => transferRWA k env s msg
  | .updateRestrictions msg => updateRestrictions k s msg
  | .settleRWA msg => settleRWA k env s msg
  | .slashBond msg => slashBond k env s msg
  | .updateParams msg => updateParams k s msg
  | .bankSend source outputs => bankSend k env s source outputs
  | .payFee payer coins => payFee k env s payer coins

/-! ## What the bank steps of a handler did -/

@[simp] theorem reject_eq_ok_iff
    {bad : Prop} [Decidable bad] {error : SdkError} {u : Unit} :
    reject bad error = .ok u ↔ ¬ bad := by
  simp [reject]

theorem exec_send_nothing (bank : Bank) (source target : Address) :
    bank.exec (.send source [(target, [])]) = some bank := rfl

theorem coinsOf_of_nonpos (denom : String) {amount : ℤ} (hamount : amount ≤ 0) :
    coinsOf denom amount.toNat = [] := by
  rw [Int.toNat_of_nonpos hamount]
  rfl

theorem lockBond_exec
    {k : Keeper} {env : Env} {s : RwaState} {issuer : Address}
    {amount : SdkInt} {bank : Bank}
    (hlock : lockBond k env s issuer amount = .ok bank) :
    s.bank.exec (.send issuer
      [(moduleAddress k, coinsOf bondDenom amount.raw.toNat)]) =
        some bank := by
  simp only [lockBond, bind_eq_ok_iff, newCoins_eq_ok_iff,
    Exec.ofExcept_eq_ok_iff, sendCoinsFromAccountToModule,
    sendCoins_eq_ok_iff] at hlock
  rcases hlock with ⟨coins, ⟨-, rfl⟩, -, -, hexec⟩
  exact hexec

theorem collectFee_exec
    {k : Keeper} {env : Env} {s : RwaState} {payer : Address}
    {fee : SdkInt} {bank : Bank}
    (hcollect : collectFee k env s payer fee = .ok bank) :
    s.bank.exec (.send payer
      [(feeCollector k, coinsOf bondDenom fee.raw.toNat)]) = some bank := by
  unfold collectFee at hcollect
  split_ifs at hcollect with hnone
  · cases hcollect
    rw [coinsOf_of_nonpos bondDenom hnone]
    exact exec_send_nothing s.bank payer (feeCollector k)
  · simp only [bind_eq_ok_iff, newCoins_eq_ok_iff, Exec.ofExcept_eq_ok_iff,
      sendCoinsFromAccountToModule, sendCoins_eq_ok_iff] at hcollect
    rcases hcollect with ⟨coins, ⟨-, rfl⟩, -, -, hexec⟩
    exact hexec

theorem returnBond_exec
    {k : Keeper} {env : Env} {s : RwaState} {issuer : Address}
    {bond : SdkInt} {bank : Bank}
    (hreturn : returnBond k env s issuer bond = .ok bank) :
    s.bank.exec (.send (moduleAddress k)
      [(issuer, coinsOf bondDenom bond.raw.toNat)]) = some bank := by
  unfold returnBond at hreturn
  split_ifs at hreturn with hnone
  · cases hreturn
    rw [coinsOf_of_nonpos bondDenom hnone]
    exact exec_send_nothing s.bank (moduleAddress k) issuer
  · simp only [releaseBond, bind_eq_ok_iff, newCoins_eq_ok_iff,
      Exec.ofExcept_eq_ok_iff, sendCoinsFromModuleToAccount_eq_ok_iff,
      sendCoins_eq_ok_iff] at hreturn
    rcases hreturn with ⟨coins, ⟨-, rfl⟩, -, -, -, hexec⟩
    exact hexec

theorem forfeitBond_exec
    {k : Keeper} {env : Env} {s : RwaState} {bond : SdkInt} {bank : Bank}
    (hforfeit : forfeitBond k env s bond = .ok bank) :
    s.bank.exec (.send (moduleAddress k)
      [(distributionAccount k, coinsOf bondDenom bond.raw.toNat)]) =
        some bank := by
  unfold forfeitBond at hforfeit
  split_ifs at hforfeit with hnone
  · cases hforfeit
    rw [coinsOf_of_nonpos bondDenom hnone]
    exact exec_send_nothing s.bank (moduleAddress k) (distributionAccount k)
  · simp only [slashBondToCommunityPool, fundCommunityPool, bind_eq_ok_iff,
      newCoins_eq_ok_iff, Exec.ofExcept_eq_ok_iff,
      sendCoinsFromAccountToModule, sendCoins_eq_ok_iff] at hforfeit
    rcases hforfeit with ⟨coins, ⟨-, rfl⟩, -, -, hexec⟩
    exact hexec

theorem redeem_exec
    {k : Keeper} {env : Env} {s : RwaState} {issuer : Address}
    {notional : SdkInt} {denom : String} {bank : Bank}
    (hredeem : redeem k env s issuer notional
      (coinsOf denom notional.raw.toNat) = .ok bank) :
    s.bank.execAll
      [.send issuer [(moduleAddress k, coinsOf denom notional.raw.toNat)],
        .burn (moduleAddress k) (coinsOf denom notional.raw.toNat)] =
      some bank := by
  unfold redeem at hredeem
  split_ifs at hredeem with hnone
  · cases hredeem
    rw [coinsOf_of_nonpos denom hnone]
    rfl
  · simp only [bind_eq_ok_iff, sendCoinsFromAccountToModule,
      sendCoins_eq_ok_iff, burnCoins, execute_eq_ok_iff] at hredeem
    rcases hredeem with ⟨middle, ⟨-, -, hsend⟩, -, hburn⟩
    have hsend' : s.bank.exec (.send issuer
        [(moduleAddress k, coinsOf denom notional.raw.toNat)]) =
          some middle := hsend
    simp only [Ledger.execAll, hsend', Option.bind_some]
    rw [Option.bind_eq_some_iff]
    exact ⟨bank, hburn, rfl⟩

/-! ## What the store steps of a handler did -/

/-- The record of an asset together with the decoded address of its issuer,
who signed the message. -/
structure Owned (k : Keeper) (store : RwaStore) (assetID caller : String)
    (issuer : Address) (rec : AssetRecord) : Prop where
  stored : getAsset store assetID = some rec
  signed : rec.issuer = caller
  decoded : k.sdk.accAddressFromBech32 rec.issuer = .ok issuer

theorem Owned.caller_decodes {k : Keeper} {store : RwaStore}
    {assetID caller : String} {issuer : Address} {rec : AssetRecord}
    (howned : Owned k store assetID caller issuer rec) :
    k.sdk.accAddressFromBech32 caller = .ok issuer := by
  rw [← howned.signed]
  exact howned.decoded

theorem requireIssuer_eq_ok_iff
    {store : RwaStore} {assetID caller : String} {rec : AssetRecord} :
    requireIssuer store assetID caller = .ok rec ↔
      getAsset store assetID = some rec ∧ rec.issuer = caller := by
  unfold requireIssuer
  cases getAsset store assetID with
  | none => simp
  | some stored =>
      simp only [bind_eq_ok_iff, rejectIf_eq_ok_iff, not_not, exists_const,
        pure_eq_ok_iff, Option.some.injEq, ne_eq]
      constructor
      · rintro ⟨hcaller, rfl⟩
        exact ⟨rfl, hcaller⟩
      · rintro ⟨rfl, hcaller⟩
        exact ⟨hcaller, rfl⟩

@[simp] theorem elim_eq_ok_iff {α : Type} {found : Option α}
    {error : SdkError} {value : α} :
    found.elim (.error error) .ok = (.ok value : Except SdkError α) ↔
      found = some value := by
  cases found <;> simp

theorem positiveInt_eq_ok_iff
    {sdk : Sdk} {text : String} {error : SdkError} {value : SdkInt} :
    positiveInt sdk text error = .ok value ↔
      sdk.newIntFromString text = some value ∧ 0 < value.raw := by
  unfold positiveInt
  cases sdk.newIntFromString text with
  | none => simp
  | some parsed =>
      simp only [bind_eq_ok_iff, rejectIf_eq_ok_iff, not_le, exists_const,
        pure_eq_ok_iff, Option.some.injEq]
      constructor
      · rintro ⟨hpos, rfl⟩
        exact ⟨rfl, hpos⟩
      · rintro ⟨rfl, hpos⟩
        exact ⟨hpos, rfl⟩

/-- The decoded entries of `MsgUpdateRestrictions`. -/
structure MemberChanges where
  addAllow : List Address
  delAllow : List Address
  addDeny : List Address
  delDeny : List Address

def DecodesTo (sdk : Sdk) (entries : List String) (addrs : List Address) :
    Prop :=
  List.Forall₂ (fun entry addr => sdk.accAddressFromBech32 entry = .ok addr)
    entries addrs

def MemberChanges.apply (changes : MemberChanges) (store : RwaStore)
    (assetID : String) : RwaStore :=
  let store := changes.addAllow.foldl (addAllowlist · assetID) store
  let store := changes.delAllow.foldl (delAllowlist · assetID) store
  let store := changes.addDeny.foldl (addDenylist · assetID) store
  changes.delDeny.foldl (delDenylist · assetID) store

theorem applyMembers_eq_ok_iff
    {sdk : Sdk} {change : RwaStore → String → Address → RwaStore}
    {assetID : String} {store store' : RwaStore} {entries : List String} :
    applyMembers sdk change assetID store entries = .ok store' ↔
      ∃ addrs, DecodesTo sdk entries addrs ∧
        addrs.foldl (change · assetID) store = store' := by
  induction entries generalizing store with
  | nil => simp [applyMembers, DecodesTo]
  | cons entry rest ih =>
      simp only [applyMembers, DecodesTo, List.foldlM_cons, bind_eq_ok_iff,
        plainError_eq_ok_iff, pure_eq_ok_iff, List.forall₂_cons_left_iff]
        at ih ⊢
      constructor
      · rintro ⟨middle, ⟨addr, haddr, rfl⟩, hrest⟩
        rcases ih.mp hrest with ⟨addrs, hdecodes, hstore⟩
        exact ⟨addr :: addrs, ⟨addr, addrs, haddr, hdecodes, rfl⟩, hstore⟩
      · rintro ⟨addrs, ⟨addr, rest', haddr, hdecodes, rfl⟩, hstore⟩
        exact ⟨_, ⟨addr, haddr, rfl⟩, ih.mpr ⟨rest', hdecodes, hstore⟩⟩

end Rwa
end Vertix

import Vertix.SdkInterface
import Mathlib.Tactic

/-!
# Types of the rwa module

Records, parameters, messages and genesis of `x/rwa` with their stateless
validation.
-/

namespace Vertix
namespace Rwa

/-! ## Registered errors -/

def moduleName : String := "rwa"

/-- The denomination in which issuer bonds are escrowed. -/
def bondDenom : String := "uvtx"

def rwaDenomPrefix : String := "rwa/"

def errInvalidSigner : SdkError := ⟨moduleName, 2, "invalid signer"⟩
def errUnauthorized : SdkError := ⟨moduleName, 3, "unauthorized"⟩
def errAssetExists : SdkError := ⟨moduleName, 4, "asset_id already exists"⟩
def errAssetNotFound : SdkError := ⟨moduleName, 5, "asset not found"⟩
def errInvalidStatus : SdkError :=
  ⟨moduleName, 6, "invalid asset status for this transition"⟩
def errBondTooLow : SdkError :=
  ⟨moduleName, 7, "bond is below min_issuer_bond"⟩
def errAttestationFailed : SdkError :=
  ⟨moduleName, 8, "oracle attestation failed (no or stale price)"⟩
def errInvalidNotional : SdkError :=
  ⟨moduleName, 9, "notional must be a positive integer"⟩
def errTransferRestricted : SdkError :=
  ⟨moduleName, 10, "transfer not allowed by asset restrictions"⟩
def errInvalidAssetID : SdkError :=
  ⟨moduleName, 11, "invalid asset_id (must match slug format)"⟩
def errInvalidParams : SdkError := ⟨moduleName, 12, "invalid params"⟩
def errInvalidAmount : SdkError := ⟨moduleName, 13, "invalid amount"⟩

/-! ## Records -/

inductive AssetStatus where
  | unspecified
  | draft
  | attested
  | active
  | settled
  deriving DecidableEq, Repr

def AssetStatus.string : AssetStatus → String
  | .unspecified => "ASSET_STATUS_UNSPECIFIED"
  | .draft => "ASSET_STATUS_DRAFT"
  | .attested => "ASSET_STATUS_ATTESTED"
  | .active => "ASSET_STATUS_ACTIVE"
  | .settled => "ASSET_STATUS_SETTLED"

structure AssetRecord where
  assetId : String
  issuer : String
  name : String
  description : String
  status : AssetStatus
  oraclePair : String
  denom : String
  bond : String
  notionalMinted : String
  allowAll : Bool
  attestedPrice : String
  attestedAt : Time
  createdAt : Time
  settledAt : Time
  deriving DecidableEq

structure RWAParams where
  minIssuerBond : String
  mintFeeRate : String
  settleFeeRate : String
  deriving DecidableEq

/-! ## Parameters -/

def defaultParams : RWAParams where
  minIssuerBond := "10000000000"
  mintFeeRate := "0.001000000000000000"
  settleFeeRate := "0.001000000000000000"

def validateFeeRate (sdk : Sdk) (text name : String) : Except SdkError Unit :=
  match sdk.legacyNewDecFromStr text with
  | .error reason => .error (errInvalidParams.wrap (name ++ ": " ++ reason))
  | .ok rate =>
      rejectIf (rate.raw < 0 ∨ legacyOneDec.raw ≤ rate.raw)
        (errInvalidParams.wrap (name ++ " must be in [0, 1)"))

def RWAParams.validate (sdk : Sdk) (p : RWAParams) : Except SdkError Unit :=
  match sdk.newIntFromString p.minIssuerBond with
  | none =>
      .error (errInvalidParams.wrap ("min_issuer_bond: not an integer: " ++
        p.minIssuerBond.quote))
  | some bond => do
      rejectIf (bond.raw < 0)
        (errInvalidParams.wrap "min_issuer_bond must be >= 0")
      validateFeeRate sdk p.mintFeeRate "mint_fee_rate"
      validateFeeRate sdk p.settleFeeRate "settle_fee_rate"

/-- A text that parses to an integer in the range which a check admits. -/
def IntWithin (sdk : Sdk) (text : String) (inside : ℤ → Prop) : Prop :=
  ∃ value, sdk.newIntFromString text = some value ∧ inside value.raw

/-- Everything `RWAParams.Validate` guarantees. -/
structure RWAParams.Valid (sdk : Sdk) (p : RWAParams) : Prop where
  minIssuerBond_nonneg : IntWithin sdk p.minIssuerBond fun raw => 0 ≤ raw
  mintFeeRate_range :
    ParsesWithin sdk p.mintFeeRate
      fun raw => 0 ≤ raw ∧ raw < legacyOneDec.raw
  settleFeeRate_range :
    ParsesWithin sdk p.settleFeeRate
      fun raw => 0 ≤ raw ∧ raw < legacyOneDec.raw

theorem validateFeeRate_eq_ok_iff
    {sdk : Sdk} {text name : String} {u : Unit} :
    validateFeeRate sdk text name = .ok u ↔
      ParsesWithin sdk text
        fun raw => 0 ≤ raw ∧ raw < legacyOneDec.raw := by
  unfold validateFeeRate ParsesWithin
  cases sdk.legacyNewDecFromStr text with
  | error reason => simp
  | ok rate => simp

theorem RWAParams.validate_eq_ok_iff
    {sdk : Sdk} {p : RWAParams} {u : Unit} :
    p.validate sdk = .ok u ↔ p.Valid sdk := by
  unfold RWAParams.validate
  cases hbond : sdk.newIntFromString p.minIssuerBond with
  | none =>
      simp only [reduceCtorEq, false_iff]
      intro hvalid
      rcases hvalid.minIssuerBond_nonneg with ⟨bond, hparsed, -⟩
      rw [hbond] at hparsed
      cases hparsed
  | some bond =>
      simp only [bind_eq_ok_iff, rejectIf_eq_ok_iff, exists_const,
        validateFeeRate_eq_ok_iff, not_lt]
      constructor
      · intro h
        exact ⟨⟨bond, hbond, h.1⟩, h.2.1, h.2.2⟩
      · intro h
        rcases h.minIssuerBond_nonneg with ⟨bond', hparsed, hnonneg⟩
        rw [hbond] at hparsed
        cases hparsed
        exact ⟨hnonneg, h.mintFeeRate_range, h.settleFeeRate_range⟩

/-! ## Field checks -/

def slugHead (c : Char) : Bool := c.isLower || c.isDigit

def slugChar (c : Char) : Bool := slugHead c || c == '-'

/-- `^[a-z0-9][a-z0-9-]{2,42}$` -/
def slugRegexMatch (id : String) : Bool :=
  match id.toList with
  | [] => false
  | first :: rest =>
      slugHead first && rest.all slugChar &&
        (decide (2 ≤ rest.length) && decide (rest.length ≤ 42))

def validateAssetID (id : String) : Except SdkError Unit :=
  rejectIf (¬ slugRegexMatch id) (errInvalidAssetID.wrap id.quote)

def validatePositiveInt (sdk : Sdk) (text name : String) :
    Except SdkError Unit :=
  match sdk.newIntFromString text with
  | none =>
      .error (errInvalidAmount.wrap (name ++ ": not an integer: " ++
        text.quote))
  | some value =>
      rejectIf (value.raw ≤ 0)
        (errInvalidAmount.wrap (name ++ " must be positive"))

@[simp] theorem validateAssetID_eq_ok_iff {id : String} {u : Unit} :
    validateAssetID id = .ok u ↔ slugRegexMatch id = true := by
  simp [validateAssetID]

@[simp] theorem validatePositiveInt_eq_ok_iff
    {sdk : Sdk} {text name : String} {u : Unit} :
    validatePositiveInt sdk text name = .ok u ↔
      IntWithin sdk text fun raw => 0 < raw := by
  unfold validatePositiveInt IntWithin
  cases sdk.newIntFromString text with
  | none => simp
  | some value => simp

/-- A slug is short enough for the one-byte length of the membership keys. -/
theorem slug_length_le {id : String} (hslug : slugRegexMatch id = true) :
    (strBytes id).length ≤ 255 := by
  have hchars : id.toList.length ≤ 43 := by
    unfold slugRegexMatch at hslug
    cases hlist : id.toList with
    | nil => simp
    | cons first rest =>
        simp only [hlist, Bool.and_eq_true, decide_eq_true_eq] at hslug
        simp only [List.length_cons]
        omega
  have hbytes := strBytes_length_le id
  omega

/-! ## Messages -/

structure MsgRegisterAsset where
  issuer : String
  assetId : String
  name : String
  description : String
  oraclePair : String
  bond : String

structure MsgAttestAsset where
  issuer : String
  assetId : String

structure MsgMintRWA where
  issuer : String
  assetId : String
  notional : String

structure MsgTransferRWA where
  sender : String
  recipient : String
  assetId : String
  amount : String

structure MsgSettleRWA where
  issuer : String
  assetId : String

structure MsgUpdateRestrictions where
  issuer : String
  assetId : String
  allowAll : Bool
  addAllow : List String
  delAllow : List String
  addDeny : List String
  delDeny : List String

structure MsgSlashBond where
  authority : String
  assetId : String
  reason : String

structure MsgUpdateParams where
  authority : String
  params : RWAParams

def maxRestrictionBatch : ℕ := 100

def MsgRegisterAsset.validateBasic (sdk : Sdk) (msg : MsgRegisterAsset) :
    Except SdkError Unit := do
  let _ ← addressField "issuer" (sdk.accAddressFromBech32 msg.issuer)
  validateAssetID msg.assetId
  rejectIf (msg.name = "") (errInvalidParams.wrap "name must not be empty")
  rejectIf (¬ pairRegexMatch msg.oraclePair)
    (errInvalidParams.wrap ("oracle_pair " ++ msg.oraclePair.quote ++
      " is not BASE:QUOTE"))
  validatePositiveInt sdk msg.bond "bond"

/-- The check shared by the messages which carry an account and an asset. -/
def validateParty (sdk : Sdk) (field account assetId : String) :
    Except SdkError Unit := do
  let _ ← addressField field (sdk.accAddressFromBech32 account)
  validateAssetID assetId

def MsgAttestAsset.validateBasic (sdk : Sdk) (msg : MsgAttestAsset) :
    Except SdkError Unit :=
  validateParty sdk "issuer" msg.issuer msg.assetId

def MsgMintRWA.validateBasic (sdk : Sdk) (msg : MsgMintRWA) :
    Except SdkError Unit := do
  validateParty sdk "issuer" msg.issuer msg.assetId
  (validatePositiveInt sdk msg.notional "notional").mapError fun error =>
    errInvalidNotional.wrap error.text

def MsgTransferRWA.validateBasic (sdk : Sdk) (msg : MsgTransferRWA) :
    Except SdkError Unit := do
  let _ ← addressField "sender" (sdk.accAddressFromBech32 msg.sender)
  let _ ← addressField "recipient" (sdk.accAddressFromBech32 msg.recipient)
  validateAssetID msg.assetId
  validatePositiveInt sdk msg.amount "amount"

def MsgSettleRWA.validateBasic (sdk : Sdk) (msg : MsgSettleRWA) :
    Except SdkError Unit :=
  validateParty sdk "issuer" msg.issuer msg.assetId

def validateRestrictionEntries (sdk : Sdk) :
    List String → Except SdkError Unit
  | [] => .ok ()
  | entry :: rest =>
      match sdk.accAddressFromBech32 entry with
      | .error reason =>
          .error (errInvalidAddress.wrap ("restriction entry " ++
            entry.quote ++ ": " ++ reason))
      | .ok _ => validateRestrictionEntries sdk rest

def validateRestrictionGroup (sdk : Sdk) (group : List String) :
    Except SdkError Unit := do
  rejectIf (maxRestrictionBatch < group.length)
    (errInvalidParams.wrap ("restriction batch exceeds " ++
      toString maxRestrictionBatch ++ " entries"))
  validateRestrictionEntries sdk group

def MsgUpdateRestrictions.validateBasic (sdk : Sdk)
    (msg : MsgUpdateRestrictions) : Except SdkError Unit := do
  validateParty sdk "issuer" msg.issuer msg.assetId
  validateRestrictionGroup sdk msg.addAllow
  validateRestrictionGroup sdk msg.delAllow
  validateRestrictionGroup sdk msg.addDeny
  validateRestrictionGroup sdk msg.delDeny

def MsgSlashBond.validateBasic (sdk : Sdk) (msg : MsgSlashBond) :
    Except SdkError Unit :=
  validateParty sdk "authority" msg.authority msg.assetId

def MsgUpdateParams.validateBasic (sdk : Sdk) (msg : MsgUpdateParams) :
    Except SdkError Unit := do
  let _ ← addressField "authority" (sdk.accAddressFromBech32 msg.authority)
  msg.params.validate sdk

/-! ## What validated messages satisfy -/

@[simp] theorem validateParty_eq_ok_iff
    {sdk : Sdk} {field account assetId : String} {u : Unit} :
    validateParty sdk field account assetId = .ok u ↔
      (∃ address, sdk.accAddressFromBech32 account = .ok address) ∧
        slugRegexMatch assetId = true := by
  simp [validateParty]

/-- Everything `MsgRegisterAsset.ValidateBasic` guarantees. -/
structure MsgRegisterAsset.Valid (sdk : Sdk) (msg : MsgRegisterAsset) :
    Prop where
  issuer : ∃ issuer, sdk.accAddressFromBech32 msg.issuer = .ok issuer
  slug : slugRegexMatch msg.assetId = true
  named : msg.name ≠ ""
  pair : pairRegexMatch msg.oraclePair = true
  bond_pos : IntWithin sdk msg.bond fun raw => 0 < raw

theorem MsgRegisterAsset.validateBasic_eq_ok_iff
    {sdk : Sdk} {msg : MsgRegisterAsset} {u : Unit} :
    msg.validateBasic sdk = .ok u ↔ msg.Valid sdk := by
  simp only [MsgRegisterAsset.validateBasic, bind_eq_ok_iff,
    addressField_eq_ok_iff, rejectIf_eq_ok_iff, exists_const,
    validateAssetID_eq_ok_iff, validatePositiveInt_eq_ok_iff, not_not]
  constructor
  · intro h
    rcases h with ⟨issuer, hissuer, hslug, hname, hpair, hbond⟩
    exact ⟨⟨issuer, hissuer⟩, hslug, hname, hpair, hbond⟩
  · intro h
    rcases h.issuer with ⟨issuer, hissuer⟩
    exact ⟨issuer, hissuer, h.slug, h.named, h.pair, h.bond_pos⟩

/-! ## Genesis -/

structure Restriction where
  assetId : String
  address : String
  isDeny : Bool
  deriving DecidableEq

structure GenesisState where
  params : RWAParams
  assets : List AssetRecord
  restrictions : List Restriction
  deriving DecidableEq

def defaultGenesis : GenesisState := ⟨defaultParams, [], []⟩

/-- `fmt.Errorf("genesis asset[%d]: %w", i, err)` -/
def placedError (error : SdkError) (place : String) : SdkError :=
  { error with text := place ++ error.text }

def validateGenesisAssets (sdk : Sdk) (minBond : SdkInt) :
    ℕ → List String → List AssetRecord → Except SdkError Unit
  | _, _, [] => .ok ()
  | i, seen, a :: rest => do
      let place := "genesis asset[" ++ toString i ++ "]: "
      (validateAssetID a.assetId).mapError fun error =>
        placedError error place
      rejectIf (a.assetId ∈ seen)
        (SdkError.plain (place ++ "duplicate asset_id " ++ a.assetId.quote))
      match sdk.accAddressFromBech32 a.issuer with
      | .error reason =>
          .error (SdkError.plain (place ++ "invalid issuer: " ++ reason))
      | .ok _ => do
          rejectIf (a.status = .unspecified)
            (SdkError.plain (place ++ "invalid status " ++ a.status.string))
          rejectIf (¬ pairRegexMatch a.oraclePair)
            (SdkError.plain (place ++ "oracle_pair " ++ a.oraclePair.quote ++
              " is not BASE:QUOTE"))
          match sdk.newIntFromString a.bond with
          | none =>
              .error (SdkError.plain (place ++ "invalid bond " ++
                a.bond.quote))
          | some bond => do
              rejectIf ((a.status = .attested ∨ a.status = .active) ∧
                  bond.raw < minBond.raw)
                (SdkError.plain (place ++ "bond " ++ sdk.intString bond ++
                  " < min_issuer_bond " ++ sdk.intString minBond))
              rejectIf ((sdk.newIntFromString a.notionalMinted).isNone)
                (SdkError.plain (place ++ "invalid notional_minted " ++
                  a.notionalMinted.quote))
              validateGenesisAssets sdk minBond (i + 1) (a.assetId :: seen)
                rest

def validateGenesisRestrictions (sdk : Sdk) (seen : List String) :
    ℕ → List Restriction → Except SdkError Unit
  | _, [] => .ok ()
  | i, r :: rest => do
      let place := "genesis restriction[" ++ toString i ++ "]: "
      rejectIf (r.assetId ∉ seen)
        (SdkError.plain (place ++ "unknown asset_id " ++ r.assetId.quote))
      match sdk.accAddressFromBech32 r.address with
      | .error reason =>
          .error (SdkError.plain (place ++ "invalid address: " ++ reason))
      | .ok _ => validateGenesisRestrictions sdk seen (i + 1) rest

def GenesisState.validate (sdk : Sdk) (gs : GenesisState) :
    Except SdkError Unit := do
  gs.params.validate sdk
  -- the parse succeeds once the parameters are valid
  let minBond :=
    (sdk.newIntFromString gs.params.minIssuerBond).getD SdkInt.zero
  validateGenesisAssets sdk minBond 0 [] gs.assets
  validateGenesisRestrictions sdk (gs.assets.map AssetRecord.assetId) 0
    gs.restrictions

end Rwa
end Vertix

import Vertix.SdkInterface
import Mathlib.Tactic

/-!
# Types of the oracle module

Records, parameters, messages and genesis of `x/oracle` with their stateless
validation.
-/

namespace Vertix
namespace Oracle

/-! ## Registered errors -/

def moduleName : String := "oracle"

def errInvalidSigner : SdkError := ⟨moduleName, 2, "invalid signer"⟩
def errInvalidPrice : SdkError :=
  ⟨moduleName, 4, "invalid price: must be positive"⟩
def errPairNotAccepted : SdkError := ⟨moduleName, 5, "pair not in accept_list"⟩
def errNoPrice : SdkError := ⟨moduleName, 6, "no aggregated price for pair"⟩
def errStalePrice : SdkError := ⟨moduleName, 7, "aggregated price is stale"⟩
def errNoTWAPData : SdkError := ⟨moduleName, 8, "no TWAP data in window"⟩
def errNotBondedValidator : SdkError :=
  ⟨moduleName, 9, "validator is not bonded"⟩
def errFeederNotAuthorized : SdkError :=
  ⟨moduleName, 10, "feeder not authorized for validator"⟩
def errFeederAlreadyBound : SdkError :=
  ⟨moduleName, 11, "feeder already bound to another validator"⟩
def errInvalidParams : SdkError := ⟨moduleName, 12, "invalid params"⟩
def errInvalidPairFormat : SdkError := ⟨moduleName, 13, "invalid pair format"⟩

/-! ## Records -/

structure OracleFeed where
  validator : String
  pair : String
  price : String
  blockHeight : Int64
  deriving DecidableEq

structure AggregatedPrice where
  pair : String
  price : String
  blockHeight : Int64
  blockTime : Time
  deriving DecidableEq

structure TWAPEntry where
  pair : String
  price : String
  blockTime : Time
  deriving DecidableEq

structure OracleParams where
  voteWindow : Int64
  missThreshold : String
  missSlashRate : String
  outlierSlashRate : String
  outlierThreshold : String
  missWindowSize : Int64
  quorumFraction : String
  maxPriceAge : Int64
  acceptList : List String
  deriving DecidableEq

/-! ## Parameters -/

def defaultParams : OracleParams where
  voteWindow := 10
  missThreshold := "0.05"
  missSlashRate := "0.005"
  outlierSlashRate := "0.01"
  outlierThreshold := "0.05"
  missWindowSize := 500
  quorumFraction := "0.667"
  maxPriceAge := 300
  acceptList := ["VTX:USD", "BTC:USD", "ETH:USD", "ATOM:USD", "USDC:USD"]

def validateDecOpenClosed (sdk : Sdk) (text name : String) :
    Except SdkError Unit :=
  match sdk.legacyNewDecFromStr text with
  | .error reason => .error (errInvalidParams.wrap (name ++ ": " ++ reason))
  | .ok value =>
      rejectIf (value.raw ≤ 0 ∨ legacyOneDec.raw < value.raw)
        (errInvalidParams.wrap (name ++ " must be in (0, 1]"))

/-- The double-sign ceiling `0.05`. -/
def slashCeiling : LegacyDec := ⟨5 * 10 ^ 16, by decide⟩

def validateSlashRate (sdk : Sdk) (text name : String) :
    Except SdkError Unit :=
  match sdk.legacyNewDecFromStr text with
  | .error reason => .error (errInvalidParams.wrap (name ++ ": " ++ reason))
  | .ok value =>
      rejectIf (value.raw < 0 ∨ slashCeiling.raw ≤ value.raw)
        (errInvalidParams.wrap (name ++ " must be in [0, 0.05)"))

def validateAcceptList : List String → List String → Except SdkError Unit
  | _, [] => .ok ()
  | seen, pair :: rest => do
      rejectIf (¬ pairRegexMatch pair)
        (errInvalidPairFormat.wrap ("pair " ++ pair.quote))
      rejectIf (pair ∈ seen)
        (errInvalidParams.wrap ("duplicate pair " ++ pair.quote))
      validateAcceptList (pair :: seen) rest

def OracleParams.validate (sdk : Sdk) (p : OracleParams) :
    Except SdkError Unit := do
  rejectIf (p.voteWindow ≤ 0)
    (errInvalidParams.wrap "vote_window must be > 0")
  rejectIf (p.missWindowSize ≤ 0)
    (errInvalidParams.wrap "miss_window_size must be > 0")
  rejectIf (p.maxPriceAge ≤ 0)
    (errInvalidParams.wrap "max_price_age must be > 0")
  validateDecOpenClosed sdk p.missThreshold "miss_threshold"
  validateDecOpenClosed sdk p.outlierThreshold "outlier_threshold"
  validateDecOpenClosed sdk p.quorumFraction "quorum_fraction"
  validateSlashRate sdk p.missSlashRate "miss_slash_rate"
  validateSlashRate sdk p.outlierSlashRate "outlier_slash_rate"
  rejectIf (p.acceptList = [])
    (errInvalidParams.wrap "accept_list must be non-empty")
  validateAcceptList [] p.acceptList

def OracleParams.acceptListChanged (p other : OracleParams) : Bool :=
  p.acceptList != other.acceptList

def OracleParams.pairAccepted (p : OracleParams) (pair : String) : Bool :=
  p.acceptList.contains pair

/-! ## What validated parameters satisfy -/

theorem validateDecOpenClosed_eq_ok_iff
    {sdk : Sdk} {text name : String} {u : Unit} :
    validateDecOpenClosed sdk text name = .ok u ↔
      ParsesWithin sdk text fun raw => 0 < raw ∧ raw ≤ legacyOneDec.raw := by
  unfold validateDecOpenClosed ParsesWithin
  cases sdk.legacyNewDecFromStr text with
  | error reason => simp
  | ok value => simp

theorem validateSlashRate_eq_ok_iff
    {sdk : Sdk} {text name : String} {u : Unit} :
    validateSlashRate sdk text name = .ok u ↔
      ParsesWithin sdk text fun raw => 0 ≤ raw ∧ raw < slashCeiling.raw := by
  unfold validateSlashRate ParsesWithin
  cases sdk.legacyNewDecFromStr text with
  | error reason => simp
  | ok value => simp

theorem validateAcceptList_eq_ok_iff
    {seen pairs : List String} {u : Unit} :
    validateAcceptList seen pairs = .ok u ↔
      (∀ pair ∈ pairs, pairRegexMatch pair = true) ∧
        (∀ pair ∈ pairs, pair ∉ seen) ∧ pairs.Nodup := by
  induction pairs generalizing seen with
  | nil => simp [validateAcceptList]
  | cons pair rest ih =>
      simp only [validateAcceptList, bind_eq_ok_iff, rejectIf_eq_ok_iff, ih,
        exists_const, not_not, List.mem_cons, not_or, List.nodup_cons,
        forall_eq_or_imp]
      constructor
      · rintro ⟨hformat, hfresh, hformats, hseen, hnodup⟩
        refine ⟨⟨hformat, hformats⟩, ⟨hfresh, fun p hp => (hseen p hp).2⟩, ?_,
          hnodup⟩
        exact fun hmem => (hseen pair hmem).1 rfl
      · rintro ⟨⟨hformat, hformats⟩, ⟨hfresh, hseen⟩, hnotmem, hnodup⟩
        refine ⟨hformat, hfresh, hformats, fun p hp => ⟨?_, hseen p hp⟩,
          hnodup⟩
        rintro rfl
        exact hnotmem hp

/-- Everything `OracleParams.Validate` guarantees. -/
structure OracleParams.Valid (sdk : Sdk) (p : OracleParams) : Prop where
  voteWindow_pos : 0 < p.voteWindow.toInt
  missWindowSize_pos : 0 < p.missWindowSize.toInt
  maxPriceAge_pos : 0 < p.maxPriceAge.toInt
  missThreshold_range :
    ParsesWithin sdk p.missThreshold
      fun raw => 0 < raw ∧ raw ≤ legacyOneDec.raw
  outlierThreshold_range :
    ParsesWithin sdk p.outlierThreshold
      fun raw => 0 < raw ∧ raw ≤ legacyOneDec.raw
  quorumFraction_range :
    ParsesWithin sdk p.quorumFraction
      fun raw => 0 < raw ∧ raw ≤ legacyOneDec.raw
  missSlashRate_range :
    ParsesWithin sdk p.missSlashRate
      fun raw => 0 ≤ raw ∧ raw < slashCeiling.raw
  outlierSlashRate_range :
    ParsesWithin sdk p.outlierSlashRate
      fun raw => 0 ≤ raw ∧ raw < slashCeiling.raw
  acceptList_nonempty : p.acceptList ≠ []
  acceptList_format : ∀ pair ∈ p.acceptList, pairRegexMatch pair = true
  acceptList_nodup : p.acceptList.Nodup

theorem OracleParams.validate_eq_ok_iff
    {sdk : Sdk} {p : OracleParams} {u : Unit} :
    p.validate sdk = .ok u ↔ p.Valid sdk := by
  have hpos : ∀ value : Int64, ¬ value ≤ 0 ↔ 0 < value.toInt := by
    intro value
    rw [Int64.le_iff_toInt_le, not_le, Int64.toInt_zero]
  simp only [OracleParams.validate, bind_eq_ok_iff, rejectIf_eq_ok_iff,
    exists_const, hpos, validateDecOpenClosed_eq_ok_iff,
    validateSlashRate_eq_ok_iff, validateAcceptList_eq_ok_iff]
  constructor
  · rintro ⟨hvote, hsize, hage, hmiss, hout, hquorum, hmissRate, houtRate,
      hnonempty, hformat, -, hnodup⟩
    exact ⟨hvote, hsize, hage, hmiss, hout, hquorum, hmissRate, houtRate,
      hnonempty, hformat, hnodup⟩
  · intro h
    exact ⟨h.voteWindow_pos, h.missWindowSize_pos, h.maxPriceAge_pos,
      h.missThreshold_range, h.outlierThreshold_range, h.quorumFraction_range,
      h.missSlashRate_range, h.outlierSlashRate_range, h.acceptList_nonempty,
      h.acceptList_format, by simp, h.acceptList_nodup⟩

/-! ## Messages -/

structure MsgSetFeeder where
  validator : String
  feeder : String

structure MsgSubmitFeed where
  feeder : String
  validator : String
  pair : String
  price : String

structure MsgUpdateParams where
  authority : String
  params : OracleParams

def MsgSetFeeder.validateBasic (sdk : Sdk) (msg : MsgSetFeeder) :
    Except SdkError Unit := do
  let _ ← addressField "validator" (sdk.valAddressFromBech32 msg.validator)
  let _ ← addressField "feeder" (sdk.accAddressFromBech32 msg.feeder)
  return ()

def MsgSubmitFeed.validateBasic (sdk : Sdk) (msg : MsgSubmitFeed) :
    Except SdkError Unit := do
  let _ ← addressField "feeder" (sdk.accAddressFromBech32 msg.feeder)
  let _ ← addressField "validator" (sdk.valAddressFromBech32 msg.validator)
  rejectIf (msg.pair = "") (errInvalidPairFormat.wrap "pair is empty")
  match sdk.legacyNewDecFromStr msg.price with
  | .error reason => .error (errInvalidPrice.wrap ("parse: " ++ reason))
  | .ok price =>
      rejectIf (price.raw ≤ 0)
        (errInvalidPrice.wrap "price must be positive")

def MsgUpdateParams.validateBasic (sdk : Sdk) (msg : MsgUpdateParams) :
    Except SdkError Unit := do
  let _ ← addressField "authority" (sdk.accAddressFromBech32 msg.authority)
  msg.params.validate sdk

/-! ## Genesis -/

structure FeederDelegation where
  validator : String
  feeder : String
  deriving DecidableEq

structure GenesisState where
  params : OracleParams
  prices : List AggregatedPrice
  feeders : List FeederDelegation
  deriving DecidableEq

def defaultGenesis : GenesisState := ⟨defaultParams, [], []⟩

def validateGenesisPrices (sdk : Sdk) (params : OracleParams) :
    ℕ → List String → List AggregatedPrice → Except SdkError Unit
  | _, _, [] => .ok ()
  | i, seen, p :: rest => do
      let place := "genesis price[" ++ toString i ++ "]: "
      rejectIf (¬ params.pairAccepted p.pair)
        (SdkError.plain (place ++ "pair " ++ p.pair.quote ++ " not in accept_list"))
      rejectIf (p.pair ∈ seen)
        (SdkError.plain (place ++ "duplicate pair " ++ p.pair.quote))
      match sdk.legacyNewDecFromStr p.price with
      | .error reason =>
          .error (SdkError.plain (place ++ "invalid price: " ++ reason))
      | .ok price => do
          rejectIf (price.raw ≤ 0)
            (SdkError.plain (place ++ "price must be positive"))
          rejectIf (p.blockTime = zeroTime)
            (SdkError.plain (place ++ "block_time must be set"))
          validateGenesisPrices sdk params (i + 1) (p.pair :: seen) rest

def validateGenesisFeeders (sdk : Sdk) :
    ℕ → List String → List FeederDelegation → Except SdkError Unit
  | _, _, [] => .ok ()
  | i, seen, fd :: rest => do
      let place := "genesis feeder[" ++ toString i ++ "]: "
      match sdk.valAddressFromBech32 fd.validator with
      | .error reason =>
          .error (SdkError.plain (place ++ "invalid validator: " ++ reason))
      | .ok _ =>
          match sdk.accAddressFromBech32 fd.feeder with
          | .error reason =>
              .error (SdkError.plain (place ++ "invalid feeder: " ++ reason))
          | .ok _ => do
              rejectIf (fd.feeder ∈ seen)
                (SdkError.plain (place ++ "duplicate feeder " ++ fd.feeder.quote))
              validateGenesisFeeders sdk (i + 1) (fd.feeder :: seen) rest

def GenesisState.validate (sdk : Sdk) (gs : GenesisState) :
    Except SdkError Unit := do
  gs.params.validate sdk
  validateGenesisPrices sdk gs.params 0 [] gs.prices
  validateGenesisFeeders sdk 0 [] gs.feeders

def validatePriceBlockTime (blockTime chainTime : Time) :
    Except SdkError Unit :=
  rejectIf (chainTime < blockTime)
    (SdkError.plain ("aggregated price block_time " ++ toString blockTime ++
      " is in the future (chain time " ++ toString chainTime ++ ")"))

end Oracle
end Vertix

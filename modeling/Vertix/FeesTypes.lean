import Vertix.SdkInterface
import Mathlib.Tactic

/-!
# Types of the fees module

Parameters, genesis and the parameter message of `x/fees` with their checks.
Both ratios lie in the unit interval and add up to one.
-/

namespace Vertix
namespace Fees

def moduleName : String := "fees"

/-- The native token of which the module burns a share. -/
def feeDenom : String := "uvtx"

def errUnauthorized : SdkError := ⟨moduleName, 2, "unauthorized"⟩
def errInvalidParams : SdkError := ⟨moduleName, 3, "invalid params"⟩
def errInvalidRatioSum : SdkError :=
  ⟨moduleName, 4, "burn_ratio + distribution_ratio must equal 1"⟩

structure FeesParams where
  burnRatio : String
  distributionRatio : String
  deriving DecidableEq

def defaultParams : FeesParams where
  burnRatio := "0.400000000000000000"
  distributionRatio := "0.600000000000000000"

def parseRatio (sdk : Sdk) (text name : String) : Except SdkError LegacyDec :=
  match sdk.legacyNewDecFromStr text with
  | .ok ratio => .ok ratio
  | .error reason => .error (errInvalidParams.wrap (name ++ ": " ++ reason))

def rejectRatio (ratio : LegacyDec) (name : String) : Except SdkError Unit :=
  rejectIf (ratio.raw < 0 ∨ legacyOneDec.raw < ratio.raw)
    (errInvalidParams.wrap (name ++ " must be in [0, 1]"))

def FeesParams.validate (sdk : Sdk) (p : FeesParams) :
    Except SdkError Unit := do
  let burn ← parseRatio sdk p.burnRatio "burn_ratio"
  let distr ← parseRatio sdk p.distributionRatio "distribution_ratio"
  rejectRatio burn "burn_ratio"
  rejectRatio distr "distribution_ratio"
  -- two ratios of at most one cannot overflow
  rejectIf (burn.raw + distr.raw ≠ legacyOneDec.raw) errInvalidRatioSum

/-- Everything `FeesParams.Validate` guarantees. -/
structure FeesParams.Valid (sdk : Sdk) (p : FeesParams) : Prop where
  ratios : ∃ burn distr, sdk.legacyNewDecFromStr p.burnRatio = .ok burn ∧
    sdk.legacyNewDecFromStr p.distributionRatio = .ok distr ∧
    0 ≤ burn.raw ∧ 0 ≤ distr.raw ∧ burn.raw + distr.raw = legacyOneDec.raw

theorem parseRatio_eq_ok_iff
    {sdk : Sdk} {text name : String} {ratio : LegacyDec} :
    parseRatio sdk text name = .ok ratio ↔
      sdk.legacyNewDecFromStr text = .ok ratio := by
  unfold parseRatio
  cases sdk.legacyNewDecFromStr text <;> simp

theorem FeesParams.validate_eq_ok_iff
    {sdk : Sdk} {p : FeesParams} {u : Unit} :
    p.validate sdk = .ok u ↔ p.Valid sdk := by
  simp only [FeesParams.validate, bind_eq_ok_iff, parseRatio_eq_ok_iff,
    rejectRatio, rejectIf_eq_ok_iff, exists_const, not_or, not_lt, not_not]
  constructor
  · rintro ⟨burn, hburn, distr, hdistr, hburnRange, hdistrRange, hsum⟩
    exact ⟨burn, distr, hburn, hdistr, hburnRange.1, hdistrRange.1, hsum⟩
  · rintro ⟨burn, distr, hburn, hdistr, hburnPos, hdistrPos, hsum⟩
    exact ⟨burn, hburn, distr, hdistr, ⟨hburnPos, by omega⟩,
      ⟨hdistrPos, by omega⟩, hsum⟩

structure GenesisState where
  params : FeesParams
  deriving DecidableEq

def defaultGenesis : GenesisState := ⟨defaultParams⟩

def GenesisState.validate (sdk : Sdk) (gs : GenesisState) :
    Except SdkError Unit :=
  gs.params.validate sdk

structure MsgUpdateParams where
  authority : String
  params : FeesParams

def MsgUpdateParams.validateBasic (sdk : Sdk) (msg : MsgUpdateParams) :
    Except SdkError Unit := do
  let _ ← addressField "authority" (sdk.accAddressFromBech32 msg.authority)
  msg.params.validate sdk

end Fees
end Vertix

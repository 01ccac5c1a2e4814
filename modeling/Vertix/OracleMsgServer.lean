import Vertix.OracleEndBlock
import Mathlib.Tactic

/-!
# Oracle messages

The message handlers of `x/oracle`.  For each handler one theorem says exactly
when it succeeds and which store it leaves.
-/

namespace Vertix
namespace Oracle

def bondedValidator {sdk : Sdk} (staking : StakingView sdk) (val : Address) :
    Except SdkError Unit := do
  let v ← staking.getValidator val.bytes
  rejectIf (v.status ≠ .bonded) errNotBondedValidator

def setFeeder (k : Keeper) (staking : StakingView k.sdk)
    (store : OracleStore) (msg : MsgSetFeeder) :
    Except SdkError OracleStore := do
  msg.validateBasic k.sdk
  let val ← addressField "validator" (k.sdk.valAddressFromBech32 msg.validator)
  let feeder ← addressField "feeder" (k.sdk.accAddressFromBech32 msg.feeder)
  bondedValidator staking val
  setFeederDelegation store val feeder

/-- A failing power lookup and a zero power are reported alike. -/
def powerfulValidator {sdk : Sdk} (staking : StakingView sdk)
    (val : Address) : Except SdkError Unit :=
  match staking.lastValidatorPower val.bytes with
  | .ok power => rejectIf (power = 0) errNotBondedValidator
  | .error _ => .error errNotBondedValidator

def submitFeed (k : Keeper) (ctx : Ctx) (staking : StakingView k.sdk)
    (store : OracleStore) (msg : MsgSubmitFeed) :
    Except SdkError OracleStore := do
  msg.validateBasic k.sdk
  let val ← addressField "validator" (k.sdk.valAddressFromBech32 msg.validator)
  let feeder ← addressField "feeder" (k.sdk.accAddressFromBech32 msg.feeder)
  rejectIf (resolveAuthorizedFeeder store val ≠ feeder) errFeederNotAuthorized
  rejectIf (¬ (getParams store).pairAccepted msg.pair) errPairNotAccepted
  bondedValidator staking val
  powerfulValidator staking val
  setFeed k.sdk store
    ⟨msg.validator, msg.pair, msg.price, ctx.blockHeight⟩

def updateParams (k : Keeper) (store : OracleStore) (msg : MsgUpdateParams) :
    Except SdkError OracleStore := do
  rejectIf (k.authority ≠ msg.authority)
    (errInvalidSigner.wrap ("invalid authority; expected " ++ k.authority ++
      ", got " ++ msg.authority))
  msg.validateBasic k.sdk
  let store :=
    if (getParams store).acceptListChanged msg.params then
      resetMissCounters store
    else store
  setParams k.sdk store msg.params

/-! ## What a successful message did -/

theorem bondedValidator_eq_ok_iff
    {sdk : Sdk} {staking : StakingView sdk} {val : Address} {u : Unit} :
    bondedValidator staking val = .ok u ↔
      ∃ v, staking.getValidator val.bytes = .ok v ∧ v.status = .bonded := by
  simp [bondedValidator]

theorem powerfulValidator_eq_ok_iff
    {sdk : Sdk} {staking : StakingView sdk} {val : Address} {u : Unit} :
    powerfulValidator staking val = .ok u ↔
      ∃ power, staking.lastValidatorPower val.bytes = .ok power ∧
        power ≠ 0 := by
  unfold powerfulValidator
  cases staking.lastValidatorPower val.bytes with
  | error err => simp
  | ok power => simp

theorem setFeeder_eq_ok_iff
    {k : Keeper} {staking : StakingView k.sdk} {store store' : OracleStore}
    {msg : MsgSetFeeder} :
    setFeeder k staking store msg = .ok store' ↔
      ∃ val feeder,
        k.sdk.valAddressFromBech32 msg.validator = .ok val ∧
        k.sdk.accAddressFromBech32 msg.feeder = .ok feeder ∧
        (∃ v, staking.getValidator val.bytes = .ok v ∧
          v.status = .bonded) ∧
        (∀ existing, getValidatorForFeeder store feeder = some existing →
          existing = val) ∧
        writeFeederDelegation store val feeder = store' := by
  simp only [setFeeder, MsgSetFeeder.validateBasic, bind_eq_ok_iff,
    pure_eq_ok_iff, addressField_eq_ok_iff, bondedValidator_eq_ok_iff,
    setFeederDelegation_eq_ok_iff, exists_const, and_true]
  constructor
  · intro h
    obtain ⟨-, val, hval, feeder, hfeeder, hrest⟩ := h
    exact ⟨val, feeder, hval, hfeeder, hrest⟩
  · intro h
    obtain ⟨val, feeder, hval, hfeeder, hrest⟩ := h
    exact ⟨⟨val, hval, feeder, hfeeder⟩, val, hval, feeder, hfeeder, hrest⟩

theorem MsgSubmitFeed.validateBasic_eq_ok_iff
    {sdk : Sdk} {msg : MsgSubmitFeed} {u : Unit} :
    msg.validateBasic sdk = .ok u ↔
      (∃ feeder, sdk.accAddressFromBech32 msg.feeder = .ok feeder) ∧
        (∃ val, sdk.valAddressFromBech32 msg.validator = .ok val) ∧
        msg.pair ≠ "" ∧
        ParsesWithin sdk msg.price fun raw => 0 < raw := by
  unfold MsgSubmitFeed.validateBasic ParsesWithin
  cases hprice : sdk.legacyNewDecFromStr msg.price with
  | error reason => simp
  | ok price => simp

theorem setFeed_eq_ok_iff
    {sdk : Sdk} {store store' : OracleStore} {feed : OracleFeed} :
    setFeed sdk store feed = .ok store' ↔
      ∃ val, sdk.valAddressFromBech32 feed.validator = .ok val ∧
        writeFeed store val feed = store' := by
  simp only [setFeed, bind_eq_ok_iff, plainError_eq_ok_iff, pure_eq_ok_iff]

theorem submitFeed_eq_ok_iff
    {k : Keeper} {ctx : Ctx} {staking : StakingView k.sdk}
    {store store' : OracleStore} {msg : MsgSubmitFeed} :
    submitFeed k ctx staking store msg = .ok store' ↔
      ∃ val,
        k.sdk.valAddressFromBech32 msg.validator = .ok val ∧
        k.sdk.accAddressFromBech32 msg.feeder =
          .ok (resolveAuthorizedFeeder store val) ∧
        msg.pair ≠ "" ∧
        (ParsesWithin k.sdk msg.price fun raw => 0 < raw) ∧
        (getParams store).pairAccepted msg.pair = true ∧
        (∃ v, staking.getValidator val.bytes = .ok v ∧
          v.status = .bonded) ∧
        (∃ power, staking.lastValidatorPower val.bytes = .ok power ∧
          power ≠ 0) ∧
        writeFeed store val
          ⟨msg.validator, msg.pair, msg.price, ctx.blockHeight⟩ = store' := by
  simp only [submitFeed, bind_eq_ok_iff, rejectIf_eq_ok_iff,
    MsgSubmitFeed.validateBasic_eq_ok_iff, addressField_eq_ok_iff,
    bondedValidator_eq_ok_iff, powerfulValidator_eq_ok_iff, setFeed_eq_ok_iff,
    exists_const, ne_eq, not_not]
  constructor
  · intro h
    obtain ⟨⟨-, -, hpair, hprice⟩, val, hval, feeder, hfeeder, hauthorized,
      haccepted, hbonded, hpower, val', hval', hstore⟩ := h
    rw [hval] at hval'
    cases hval'
    rw [← hauthorized] at hfeeder
    exact ⟨val, hval, hfeeder, hpair, hprice, haccepted, hbonded, hpower,
      hstore⟩
  · intro h
    obtain ⟨val, hval, hfeeder, hpair, hprice, haccepted, hbonded, hpower,
      hstore⟩ := h
    exact ⟨⟨⟨_, hfeeder⟩, ⟨val, hval⟩, hpair, hprice⟩, val, hval, _, hfeeder,
      rfl, haccepted, hbonded, hpower, val, hval, hstore⟩

theorem setParams_eq_ok_iff
    {sdk : Sdk} {store store' : OracleStore} {params : OracleParams} :
    setParams sdk store params = .ok store' ↔
      params.Valid sdk ∧ writeParams store params = store' := by
  simp only [setParams, bind_eq_ok_iff, pure_eq_ok_iff,
    OracleParams.validate_eq_ok_iff, exists_const]

theorem updateParams_eq_ok_iff
    {k : Keeper} {store store' : OracleStore} {msg : MsgUpdateParams} :
    updateParams k store msg = .ok store' ↔
      k.authority = msg.authority ∧
        (∃ authority,
          k.sdk.accAddressFromBech32 msg.authority = .ok authority) ∧
        msg.params.Valid k.sdk ∧
        writeParams
          (if (getParams store).acceptListChanged msg.params then
            resetMissCounters store
          else store) msg.params = store' := by
  simp only [updateParams, MsgUpdateParams.validateBasic, bind_eq_ok_iff,
    rejectIf_eq_ok_iff, addressField_eq_ok_iff,
    OracleParams.validate_eq_ok_iff, setParams_eq_ok_iff, exists_const,
    ne_eq, not_not]
  constructor
  · intro h
    obtain ⟨hauthority, ⟨authority, hdecoded, -⟩, hvalid, hstore⟩ := h
    exact ⟨hauthority, ⟨authority, hdecoded⟩, hvalid, hstore⟩
  · intro h
    obtain ⟨hauthority, ⟨authority, hdecoded⟩, hvalid, hstore⟩ := h
    exact ⟨hauthority, ⟨authority, hdecoded, hvalid⟩, hvalid, hstore⟩

/-- Updating the parameters touches the parameters and the counters only. -/
theorem get_updatedParams_of_ne
    (store : OracleStore) (changed : Bool) (params : OracleParams)
    {key : OracleKey} (hparams : key ≠ .params) (hcounter : ¬ key.IsCounter) :
    (writeParams (if changed then resetMissCounters store else store)
      params).get key = store.get key := by
  rw [get_writeParams_of_ne _ _ hparams]
  cases changed with
  | false => rfl
  | true => exact get_resetMissCounters_of_ne store hcounter

end Oracle
end Vertix

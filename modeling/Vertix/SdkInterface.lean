import Vertix.OrderedStore
import Vertix.FixedPointDecimal
import Vertix.ExceptLoop
import Mathlib.Tactic

/-!
# The chain SDK as the modules see it

The three modules are written against a chain SDK whose source is not part of
the repository.  What they use of it is collected here: registered errors and
panics, bounded decimals and integers, bech32 addresses, block contexts and
the staking view.  The textual codecs are parameters with their documented
round-trip laws.
-/

namespace Vertix

/-! ## Errors and panics -/

/-- A registered module error together with the text wrapped around it. -/
structure SdkError where
  codespace : String
  code : ℕ
  text : String
  deriving DecidableEq, Repr

def SdkError.wrap (error : SdkError) (text : String) : SdkError :=
  { error with text := text ++ ": " ++ error.text }

def SdkError.plain (text : String) : SdkError := ⟨"undefined", 1, text⟩

def errInvalidAddress : SdkError := ⟨"sdk", 7, "invalid address"⟩

/-- A call either returns an error value or panics. -/
inductive Failure where
  | error (error : SdkError)
  | panicked
  deriving DecidableEq, Repr

abbrev Exec (α : Type) := Except Failure α

def Exec.fail {α : Type} (error : SdkError) : Exec α :=
  Except.error (Failure.error error)

def Exec.panicked {α : Type} : Exec α := Except.error Failure.panicked

/-- An error of a text codec, which carries no registered code. -/
def plainError {α : Type} : Except String α → Except SdkError α
  | .ok value => .ok value
  | .error reason => .error (SdkError.plain reason)

@[simp] theorem plainError_eq_ok_iff {α : Type}
    {parsed : Except String α} {value : α} :
    plainError parsed = .ok value ↔ parsed = .ok value := by
  cases parsed <;> simp [plainError]

@[simp] theorem mapError_eq_ok_iff {ε δ α : Type}
    {first : Except ε α} {f : ε → δ} {value : α} :
    first.mapError f = .ok value ↔ first = .ok value := by
  cases first <;> simp [Except.mapError]

/-- Propagate an error value as `if err != nil { return err }` does. -/
def Exec.ofExcept {α : Type} : Except SdkError α → Exec α
  | .ok value => .ok value
  | .error error => Exec.fail error

/-- A partial operation of the SDK whose undefined case is a panic. -/
def Exec.ofOption {α : Type} : Option α → Exec α
  | some value => .ok value
  | none => Exec.panicked

/-- The gRPC codes which the modules' queries use. -/
inductive StatusCode where
  | invalidArgument
  | notFound
  | failedPrecondition
  | internal
  deriving DecidableEq

/-- What a query returns instead of a response. -/
inductive QueryFailure where
  | status (code : StatusCode) (message : String)
  | error (error : SdkError)
  | panicked
  deriving DecidableEq

def invalidRequest : QueryFailure := .status .invalidArgument "invalid request"

@[simp] theorem Exec.ofExcept_eq_ok_iff {α : Type}
    {first : Except SdkError α} {value : α} :
    Exec.ofExcept first = Except.ok value ↔ first = Except.ok value := by
  cases first <;> simp [Exec.ofExcept, Exec.fail]

@[simp] theorem Exec.ofOption_eq_ok_iff {α : Type}
    {first : Option α} {value : α} :
    Exec.ofOption first = Except.ok value ↔ first = some value := by
  cases first <;> simp [Exec.ofOption, Exec.panicked]

@[simp] theorem Exec.fail_ne_ok {α : Type} {error : SdkError} {value : α} :
    ¬ (Exec.fail error : Exec α) = Except.ok value := by
  simp [Exec.fail]

@[simp] theorem Exec.panicked_ne_ok {α : Type} {value : α} :
    ¬ (Exec.panicked : Exec α) = Except.ok value := by
  simp [Exec.panicked]

def Exec.isPanic {α : Type} : Exec α → Bool
  | .error .panicked => true
  | _ => false

theorem Exec.eq_panicked_of_isPanic {α : Type} {call : Exec α}
    (hpanic : call.isPanic = true) : call = Exec.panicked := by
  unfold Exec.isPanic at hpanic
  split at hpanic
  next => rfl
  next => cases hpanic

/-- Code which only propagates error values panics where its continuation
does. -/
theorem Exec.ofExcept_bind_eq_panicked_iff {α β : Type}
    {first : Except SdkError α} {next : α → Exec β} :
    (Exec.ofExcept first >>= next) = Exec.panicked ↔
      ∃ value, first = .ok value ∧ next value = Exec.panicked := by
  cases first with
  | error error =>
      simp [Exec.ofExcept, Exec.fail, Exec.panicked, bind, Except.bind]
  | ok value => simp [Exec.ofExcept, bind, Except.bind]

/-! ## Numbers -/

/-- `math.LegacyDec`: eighteen decimals, with a value below `2 ^ 256`. -/
abbrev LegacyDec := FixedPoint (10 ^ 18) (2 ^ 256 * 10 ^ 18)

/-- `math.Int`: an integer of at most 256 bits. -/
abbrev SdkInt := FixedPoint 1 (2 ^ 256)

def legacyOneDec : LegacyDec := ⟨10 ^ 18, by decide⟩

def legacyZeroDec : LegacyDec := ⟨0, by decide⟩

def SdkInt.zero : SdkInt := ⟨0, by decide⟩

theorem int64_toInt_natAbs_le (value : Int64) :
    value.toInt.natAbs ≤ 2 ^ 63 := by
  have hlow := value.le_toInt
  have hhigh := value.toInt_lt
  omega

def legacyNewDec (value : Int64) : LegacyDec :=
  ⟨value.toInt * 10 ^ 18, by
    have hvalue := int64_toInt_natAbs_le value
    rw [Int.natAbs_mul]
    calc
      value.toInt.natAbs * (10 ^ 18 : ℤ).natAbs ≤ 2 ^ 63 * 10 ^ 18 :=
        Nat.mul_le_mul hvalue (le_of_eq (by norm_num))
      _ < 2 ^ 256 * 10 ^ 18 := by norm_num⟩

/-- `LegacyNewDecFromInt(value).Mul(rate).TruncateInt()`.  The conversion is
unchecked; the product and its integer part panic past their widths. -/
def truncatedProduct (value : SdkInt) (rate : LegacyDec) : Option SdkInt := do
  let product : LegacyDec ← FixedPoint.checked
    (roundHalfEvenInt (value.raw * 10 ^ 18 * rate.raw) (10 ^ 18))
  FixedPoint.checked product.truncate

/-- The product of an integer and a rate is exact; only its integer part is
rounded. -/
theorem truncatedProduct_eq_some_iff
    {value share : SdkInt} {rate : LegacyDec} :
    truncatedProduct value rate = some share ↔
      (value.raw * rate.raw).natAbs < 2 ^ 256 * 10 ^ 18 ∧
        share.raw = (value.raw * rate.raw).tdiv (10 ^ 18) := by
  have hexact : roundHalfEvenInt (value.raw * 10 ^ 18 * rate.raw) (10 ^ 18) =
      value.raw * rate.raw := by
    have hproduct : value.raw * 10 ^ 18 * rate.raw =
        value.raw * rate.raw * ((10 ^ 18 : ℕ) : ℤ) := by
      push_cast
      ring
    rw [hproduct, roundHalfEvenInt_mul _ (by norm_num)]
  simp only [truncatedProduct, hexact, Option.bind_eq_bind,
    Option.bind_eq_some_iff]
  constructor
  · rintro ⟨product, hproduct, hshare⟩
    have hraw := FixedPoint.checked_eq_some_iff.mp hproduct
    have hpart := FixedPoint.checked_eq_some_iff.mp hshare
    rw [FixedPoint.truncate, hraw] at hpart
    exact ⟨hraw ▸ product.bounded, hpart⟩
  · rintro ⟨hbound, hshare⟩
    exact ⟨⟨_, hbound⟩, FixedPoint.checked_eq_some_iff.mpr rfl,
      FixedPoint.checked_eq_some_iff.mpr hshare⟩

theorem floor_of_truncatedProduct {value share : SdkInt} {rate : LegacyDec}
    (hproduct : truncatedProduct value rate = some share)
    (hnonneg : 0 ≤ value.raw * rate.raw) :
    share.raw = ⌊(value.raw : ℚ) * rate.toRat⌋ := by
  have hquotient : (value.raw : ℚ) * rate.toRat =
      ((value.raw * rate.raw : ℤ) : ℚ) / ((10 ^ 18 : ℕ) : ℚ) := by
    rw [FixedPoint.toRat]
    push_cast
    ring
  rw [(truncatedProduct_eq_some_iff.mp hproduct).2, hquotient,
    Rat.floor_intCast_div_natCast, Int.tdiv_eq_ediv_of_nonneg hnonneg]
  norm_num

/-- `Int.Int64`, which panics outside the int64 range. -/
def toInt64 (value : ℤ) : Option Int64 :=
  if -2 ^ 63 ≤ value ∧ value < 2 ^ 63 then some (Int64.ofInt value) else none

theorem toInt64_eq_some_iff {value : ℤ} {result : Int64} :
    toInt64 value = some result ↔ result.toInt = value := by
  unfold toInt64
  split_ifs with hrange
  · have hround : (Int64.ofInt value).toInt = value :=
      Int64.toInt_ofInt_of_le hrange.1 hrange.2
    rw [Option.some.injEq]
    constructor
    · rintro rfl
      exact hround
    · intro hresult
      rw [← hresult, Int64.ofInt_toInt]
  · simp only [false_iff]
    rintro rfl
    exact hrange ⟨result.le_toInt, result.toInt_lt⟩

/-! ## Addresses and texts -/

/-- An address which passed the SDK's format check. -/
structure Address where
  bytes : Bytes
  valid : 0 < bytes.length ∧ bytes.length ≤ 255
  deriving DecidableEq

@[ext] theorem Address.ext_bytes {a b : Address} (hbytes : a.bytes = b.bytes) :
    a = b := by
  cases a
  cases b
  simp_all

/-- The separator `/`. -/
def slash : UInt8 := 0x2f

/-- `address.MustLengthPrefix` on an address of at most 255 bytes. -/
def lengthPrefix (address : Address) : Bytes :=
  UInt8.ofNat address.bytes.length :: address.bytes

theorem lengthPrefix_append_inj
    {a b : Address} {left right : Bytes}
    (heq : lengthPrefix a ++ left = lengthPrefix b ++ right) :
    a = b ∧ left = right := by
  simp only [lengthPrefix, List.cons_append, List.cons.injEq] at heq
  have hlength : a.bytes.length = b.bytes.length := by
    have hbyte := congrArg UInt8.toNat heq.1
    have ha := a.valid.2
    have hb := b.valid.2
    simp only [UInt8.toNat_ofNat'] at hbyte
    omega
  have hparts := List.append_inj heq.2 hlength
  exact ⟨Address.ext_bytes hparts.1, hparts.2⟩

/-- The byte string of a text, as a Go conversion yields it. -/
def strBytes (text : String) : Bytes := text.toByteArray.data.toList

@[simp] theorem strBytes_append (left right : String) :
    strBytes (left ++ right) = strBytes left ++ strBytes right := by
  simp [strBytes]

theorem strBytes_injective : Function.Injective strBytes := by
  intro left right hbytes
  apply String.toByteArray_inj.mp
  apply ByteArray.ext
  exact Array.toList_inj.mp hbytes

theorem utf8Encode_size_le (chars : List Char) :
    chars.utf8Encode.size ≤ chars.length * 4 := by
  induction chars with
  | nil => simp
  | cons c rest ih =>
      have hsize := Char.utf8Size_le_four c
      rw [List.utf8Encode_cons, ByteArray.size_append,
        List.utf8Encode_singleton, List.size_toByteArray,
        String.length_utf8EncodeChar, List.length_cons]
      omega

theorem strBytes_length_le (text : String) :
    (strBytes text).length ≤ text.toList.length * 4 := by
  have hsize := utf8Encode_size_le text.toList
  rw [← String.toByteArray_ofList, String.ofList_toList] at hsize
  exact hsize

/-- The names of the module accounts wired by the application. -/
def moduleAccountNames : List String :=
  ["fee_collector", "distribution", "bonded_tokens_pool",
    "not_bonded_tokens_pool", "gov", "transfer", "feeibc",
    "interchainaccounts", "fees", "rwa"]

/-- The textual codecs and derived addresses of the SDK. -/
structure Sdk where
  accAddressFromBech32 : String → Except String Address
  accAddressString : Bytes → String
  valAddressFromBech32 : String → Except String Address
  valAddressString : Bytes → String
  legacyNewDecFromStr : String → Except String LegacyDec
  legacyDecString : LegacyDec → String
  newIntFromString : String → Option SdkInt
  intString : SdkInt → String
  newModuleAddress : String → Address
  accAddress_roundTrip :
    ∀ address : Address,
      accAddressFromBech32 (accAddressString address.bytes) = .ok address
  valAddress_roundTrip :
    ∀ address : Address,
      valAddressFromBech32 (valAddressString address.bytes) = .ok address
  legacyDec_roundTrip :
    ∀ value, legacyNewDecFromStr (legacyDecString value) = .ok value
  int_roundTrip :
    ∀ value, newIntFromString (intString value) = some value
  newModuleAddress_distinct :
    ∀ left ∈ moduleAccountNames, ∀ right ∈ moduleAccountNames,
      newModuleAddress left = newModuleAddress right → left = right

theorem Sdk.valAddressString_injective (sdk : Sdk) {a b : Address}
    (hstring : sdk.valAddressString a.bytes = sdk.valAddressString b.bytes) :
    a = b := by
  have hleft := sdk.valAddress_roundTrip a
  rw [hstring, sdk.valAddress_roundTrip b] at hleft
  exact (Except.ok.inj hleft).symm

theorem Sdk.accAddressString_injective (sdk : Sdk) {a b : Address}
    (hstring : sdk.accAddressString a.bytes = sdk.accAddressString b.bytes) :
    a = b := by
  have hleft := sdk.accAddress_roundTrip a
  rw [hstring, sdk.accAddress_roundTrip b] at hleft
  exact (Except.ok.inj hleft).symm

/-! ## Checks shared by the modules -/

def pairChar (c : Char) : Bool := c.isUpper || c.isDigit

/-- `^[A-Z0-9]+:[A-Z0-9]+$` -/
def pairRegexMatch (pair : String) : Bool :=
  match pair.toList.span pairChar with
  | (base, ':' :: quote) =>
      !base.isEmpty && !quote.isEmpty && quote.all pairChar
  | _ => false

/-- A text that parses to a decimal in the half-open or closed range which a
parameter check admits. -/
def ParsesWithin (sdk : Sdk) (text : String) (inside : ℤ → Prop) : Prop :=
  ∃ value, sdk.legacyNewDecFromStr text = .ok value ∧ inside value.raw

/-- Parse an address field, reporting the field on failure. -/
def addressField (field : String) (parsed : Except String Address) :
    Except SdkError Address :=
  match parsed with
  | .ok address => .ok address
  | .error reason => .error (errInvalidAddress.wrap (field ++ ": " ++ reason))

@[simp] theorem addressField_eq_ok_iff
    {field : String} {parsed : Except String Address} {address : Address} :
    addressField field parsed = .ok address ↔ parsed = .ok address := by
  cases parsed <;> simp [addressField]

/-! ## Block context and staking -/

/-- Nanoseconds since the Unix epoch. -/
abbrev Time := ℤ

/-- The zero value of Go's `time.Time`, 1 January of year 1. -/
def zeroTime : Time := -62135596800 * 10 ^ 9

def hour : ℤ := 3600 * 10 ^ 9

/-- A block header.  Its time is set and is a protobuf timestamp, before the
year 10000, so every record which stores it can be marshalled. -/
structure Ctx where
  blockHeight : Int64
  blockTime : Time
  timestamp : zeroTime < blockTime ∧ blockTime < 253402300800 * 10 ^ 9

inductive BondStatus where
  | unbonded
  | unbonding
  | bonded
  deriving DecidableEq, Repr

/-- The part of a staking validator the oracle reads.  `consAddr` is absent
when `GetConsAddr` fails. -/
structure Validator where
  operatorAddress : String
  status : BondStatus
  consAddr : Option Bytes
  deriving DecidableEq

/-- One block's answers of the staking keeper. -/
structure StakingView (sdk : Sdk) where
  bondedValidatorsByPower : Except SdkError (List Validator)
  getValidator : Bytes → Except SdkError Validator
  lastValidatorPower : Bytes → Except SdkError Int64
  lastTotalPower : Except SdkError SdkInt
  operators_distinct :
    ∀ vals, bondedValidatorsByPower = .ok vals →
      (vals.map Validator.operatorAddress).Nodup
  operator_canonical :
    ∀ vals, bondedValidatorsByPower = .ok vals → ∀ v ∈ vals,
      ∃ address : Address,
        v.operatorAddress = sdk.valAddressString address.bytes
  power_nonneg :
    ∀ address power, lastValidatorPower address = .ok power →
      0 ≤ power.toInt
  totalPower_nonneg :
    ∀ total, lastTotalPower = .ok total → 0 ≤ total.raw

/-- The last power of the validator with the given operator text. -/
def StakingView.operatorPower {sdk : Sdk} (staking : StakingView sdk)
    (oper : String) : ℤ :=
  match sdk.valAddressFromBech32 oper with
  | .error _ => 0
  | .ok address =>
      match staking.lastValidatorPower address.bytes with
      | .error _ => 0
      | .ok power => power.toInt

theorem StakingView.operatorPower_nonneg {sdk : Sdk}
    (staking : StakingView sdk) (oper : String) :
    0 ≤ staking.operatorPower oper := by
  unfold operatorPower
  cases haddress : sdk.valAddressFromBech32 oper with
  | error reason => simp
  | ok address =>
      cases hpower : staking.lastValidatorPower address.bytes with
      | error error => simp [hpower]
      | ok power =>
          simp only [hpower]
          exact staking.power_nonneg _ _ hpower

/-- The sum of the last powers of a list of validators. -/
def StakingView.bondedPower {sdk : Sdk} (staking : StakingView sdk)
    (vals : List Validator) : ℤ :=
  ((vals.map Validator.operatorAddress).map staking.operatorPower).sum

/-- The keeper fields shared by the modules. -/
structure Keeper where
  sdk : Sdk
  authority : String

end Vertix

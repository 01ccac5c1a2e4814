import Vertix.Bech32
import Vertix.DecimalText
import Vertix.SdkInterface
import Mathlib.Tactic

/-!
# A concrete SDK

The codecs of the chain SDK with the account prefix of the application.  It
shows that the laws assumed of the SDK are satisfiable and lets the modules be
evaluated on concrete inputs.
-/

namespace Vertix

/-- The first twenty bytes of the SHA-256 digest of each module account
name. -/
def moduleAddressBytes : String → Bytes
  | "fee_collector" =>
      [0xf1, 0x82, 0x96, 0x76, 0xdb, 0x57, 0x76, 0x82, 0xe9,
        0x44, 0xfc, 0x34, 0x93, 0xd4, 0x51, 0xb6, 0x7f, 0xf3,
        0xe2, 0x9f]
  | "distribution" =>
      [0x93, 0x35, 0x48, 0x45, 0x03, 0x02, 0x74, 0xcd, 0x4b,
        0xf1, 0x68, 0x6a, 0xbd, 0x60, 0xab, 0x28, 0xec, 0x52,
        0xe1, 0xa7]
  | "bonded_tokens_pool" =>
      [0x4f, 0xea, 0x76, 0x42, 0x7b, 0x83, 0x45, 0x86, 0x1e,
        0x80, 0xa3, 0x54, 0x0a, 0x8a, 0x9d, 0x93, 0x6f, 0xd3,
        0x93, 0x91]
  | "not_bonded_tokens_pool" =>
      [0x59, 0x11, 0xb8, 0x44, 0xd7, 0xbc, 0x22, 0x46, 0x54,
        0xfe, 0x0d, 0xcd, 0x16, 0xba, 0xbd, 0x2d, 0x25, 0x3f,
        0x2f, 0xdf]
  | "gov" =>
      [0x7b, 0x5f, 0xe2, 0x2b, 0x54, 0x46, 0xf7, 0xc6, 0x2e,
        0xa2, 0x7b, 0x8b, 0xd7, 0x1c, 0xef, 0x94, 0xe0, 0x3f,
        0x3d, 0xf2]
  | "transfer" =>
      [0x27, 0xf5, 0x76, 0xca, 0xfb, 0xb2, 0x63, 0xed, 0x44,
        0xbe, 0x8b, 0xd0, 0x94, 0xf6, 0x61, 0x14, 0xda, 0x26,
        0x87, 0x77]
  | "feeibc" =>
      [0xf6, 0x87, 0x82, 0x26, 0x74, 0xb1, 0x5a, 0xf7, 0x60,
        0xd9, 0xfc, 0x6d, 0xb7, 0x30, 0xd7, 0x7d, 0xc9, 0x13,
        0x61, 0xd9]
  | "interchainaccounts" =>
      [0x67, 0xd7, 0x74, 0x74, 0xca, 0x8e, 0x3a, 0x58, 0x12,
        0xde, 0x32, 0x3a, 0x28, 0xd7, 0xc6, 0xda, 0x6b, 0x3e,
        0x4f, 0x29]
  | "fees" =>
      [0x9c, 0xa9, 0x38, 0x31, 0xc6, 0xf3, 0x16, 0x95, 0xb1,
        0xd7, 0x81, 0xde, 0x37, 0xe7, 0xc3, 0x5f, 0x8c, 0x6f,
        0xbd, 0xd4]
  | "rwa" =>
      [0x6f, 0x3d, 0x86, 0x05, 0x25, 0xda, 0x2b, 0x9a, 0x16,
        0x9d, 0x94, 0x60, 0x37, 0x31, 0xe7, 0x92, 0xbe, 0x07,
        0x9d, 0x8f]
  | _ => List.replicate 20 0

theorem moduleAddressBytes_length (name : String) :
    (moduleAddressBytes name).length = 20 := by
  unfold moduleAddressBytes
  split <;> rfl

def decodeAddress (hrp text : String) : Except String Address :=
  match Bech32.decode hrp.toList text.toList with
  | none => .error "decoding bech32 failed"
  | some bytes =>
      if hvalid : 0 < bytes.length ∧ bytes.length ≤ 255 then
        .ok ⟨bytes, hvalid⟩
      else .error "address length is out of range"

def encodeAddress (hrp : String) (bytes : Bytes) : String :=
  String.ofList (Bech32.encode hrp.toList bytes)

theorem decodeAddress_encodeAddress (hrp : String) (address : Address) :
    decodeAddress hrp (encodeAddress hrp address.bytes) = .ok address := by
  unfold decodeAddress encodeAddress
  rw [String.toList_ofList, Bech32.decode_encode]
  simp only [address.valid, and_self, dif_pos]

def parseLegacyDec (text : String) : Except String LegacyDec :=
  match DecimalText.readDecimal 18 text.toList with
  | none => .error "failed to set decimal string with base 10"
  | some raw =>
      match (FixedPoint.checked raw : Option LegacyDec) with
      | some value => .ok value
      | none => .error "decimal out of range"

theorem parseLegacyDec_decimalText (value : LegacyDec) :
    parseLegacyDec (String.ofList (DecimalText.decimalText 18 value.raw)) =
      .ok value := by
  have hwidth : value.raw.natAbs / 10 ^ 18 < 10 ^ DecimalText.maxWidth := by
    have hbound := value.bounded
    have hdiv : value.raw.natAbs / 10 ^ 18 ≤ value.raw.natAbs :=
      Nat.div_le_self _ _
    have hwide : 2 ^ 256 * 10 ^ 18 ≤ 10 ^ DecimalText.maxWidth := by decide
    omega
  have hchecked : (FixedPoint.checked value.raw : Option LegacyDec) =
      some value := FixedPoint.checked_eq_some_iff.mpr rfl
  unfold parseLegacyDec
  rw [String.toList_ofList,
    DecimalText.readDecimal_decimalText (by omega) hwidth]
  simp only [hchecked]

def parseInt (text : String) : Option SdkInt :=
  match DecimalText.readInt text.toList with
  | none => none
  | some raw => FixedPoint.checked raw

theorem parseInt_intText (value : SdkInt) :
    parseInt (String.ofList (DecimalText.intText value.raw)) = some value := by
  have hwidth : value.raw.natAbs < 10 ^ DecimalText.maxWidth := by
    have hbound := value.bounded
    have hwide : 2 ^ 256 ≤ 10 ^ DecimalText.maxWidth := by decide
    omega
  unfold parseInt
  rw [String.toList_ofList, DecimalText.readInt_intText hwidth]
  exact FixedPoint.checked_eq_some_iff.mpr rfl

def referenceSdk : Sdk where
  accAddressFromBech32 := decodeAddress "vtx"
  accAddressString := encodeAddress "vtx"
  valAddressFromBech32 := decodeAddress "vtxvaloper"
  valAddressString := encodeAddress "vtxvaloper"
  legacyNewDecFromStr := parseLegacyDec
  legacyDecString value :=
    String.ofList (DecimalText.decimalText 18 value.raw)
  newIntFromString := parseInt
  intString value := String.ofList (DecimalText.intText value.raw)
  newModuleAddress name :=
    ⟨moduleAddressBytes name, by rw [moduleAddressBytes_length]; omega⟩
  accAddress_roundTrip := decodeAddress_encodeAddress "vtx"
  valAddress_roundTrip := decodeAddress_encodeAddress "vtxvaloper"
  legacyDec_roundTrip := parseLegacyDec_decimalText
  int_roundTrip := parseInt_intText
  newModuleAddress_distinct := by decide

example :
    referenceSdk.accAddressString (referenceSdk.newModuleAddress "gov").bytes =
      "vtx10d07y265gmmuvt4z0w9aw880jnsr700jcnzz8d" := by
  decide +kernel

/-- The keeper of the application, whose authority is the governance
account. -/
def referenceKeeper : Keeper where
  sdk := referenceSdk
  authority := "vtx10d07y265gmmuvt4z0w9aw880jnsr700jcnzz8d"

/-! ## Staking views from tables -/

structure StakingRow where
  operator : Address
  status : BondStatus
  consAddr : Bytes
  power : Int64

def StakingRow.validator (sdk : Sdk) (row : StakingRow) : Validator :=
  ⟨sdk.valAddressString row.operator.bytes, row.status, some row.consAddr⟩

/-- The answers of a staking keeper whose validators are listed by descending
power. -/
def stakingOfRows (sdk : Sdk) (rows : List StakingRow) (total : SdkInt)
    (hdistinct : (rows.map StakingRow.operator).Nodup)
    (hpowers : ∀ row ∈ rows, 0 ≤ row.power.toInt) (htotal : 0 ≤ total.raw) :
    StakingView sdk where
  bondedValidatorsByPower :=
    .ok ((rows.filter fun row => row.status = .bonded).map
      (StakingRow.validator sdk))
  getValidator bytes :=
    match rows.find? fun row => row.operator.bytes = bytes with
    | some row => .ok (row.validator sdk)
    | none => .error ⟨"staking", 3, "validator does not exist"⟩
  lastValidatorPower bytes :=
    match rows.find? fun row => row.operator.bytes = bytes with
    | some row => .ok row.power
    | none => .ok 0
  lastTotalPower := .ok total
  operators_distinct := by
    intro vals hvals
    cases hvals
    have hcompose :
        Validator.operatorAddress ∘ StakingRow.validator sdk =
          (fun address : Address => sdk.valAddressString address.bytes) ∘
            StakingRow.operator := rfl
    rw [List.map_map, hcompose, ← List.map_map]
    apply List.Nodup.map
    · intro left right heq
      exact sdk.valAddressString_injective heq
    · exact hdistinct.sublist (List.filter_sublist.map _)
  operator_canonical := by
    intro vals hvals v hv
    cases hvals
    obtain ⟨row, -, hrow⟩ := List.mem_map.mp hv
    exact ⟨row.operator, by rw [← hrow]; rfl⟩
  power_nonneg := by
    intro bytes power hpower
    cases hfind : rows.find? fun row => row.operator.bytes = bytes with
    | none =>
        simp only [hfind, Except.ok.injEq] at hpower
        rw [← hpower]
        decide
    | some row =>
        simp only [hfind, Except.ok.injEq] at hpower
        rw [← hpower]
        exact hpowers row (List.mem_of_find?_eq_some hfind)
  totalPower_nonneg := by
    intro total' htotal'
    cases htotal'
    exact htotal

/-- A twenty-byte address filled with one byte. -/
def addressOf (byte : UInt8) : Address := ⟨List.replicate 20 byte, by simp⟩

/-- Two bonded validators of equal power. -/
def twoValidators : StakingView referenceSdk :=
  stakingOfRows referenceSdk
    [⟨addressOf 1, .bonded, List.replicate 20 3, 10⟩,
      ⟨addressOf 2, .bonded, List.replicate 20 4, 10⟩]
    ⟨20, by decide⟩ (by decide) (by decide) (by decide)

end Vertix

import Vertix.OracleTypes
import Mathlib.Tactic

/-!
# Store keys of the oracle module

All oracle state lives in one byte-keyed store.  The key builders below follow
the source; `OracleKey` names the eight families and its encoding is
injective, so a write under one key never disturbs another.
-/

namespace Vertix
namespace Oracle

def keyPrefixFeed : Bytes := [0x01]
def keyPrefixAggregatedPrice : Bytes := [0x02]
def keyPrefixTWAP : Bytes := [0x03]
def keyPrefixMissCounter : Bytes := [0x04]
def keyPrefixTotalWindows : Bytes := [0x05]
def keyParams : Bytes := [0x06]
def keyPrefixFeederToValoper : Bytes := [0x07]
def keyPrefixValoperToFeeder : Bytes := [0x08]

def feedKey (val : Address) (pair : String) : Bytes :=
  keyPrefixFeed ++ lengthPrefix val ++ slash :: strBytes pair

def parseFeedKey (key : Bytes) : Except SdkError (Bytes × Bytes) :=
  if key.length < keyPrefixFeed.length + 2 ∨ key.head? ≠ some 0x01 then
    .error (SdkError.plain "invalid feed key")
  else
    match key.drop keyPrefixFeed.length with
    | [] => .error (SdkError.plain "invalid feed key: missing validator")
    | addrLen :: rest =>
        if rest.length < addrLen.toNat then
          .error (SdkError.plain "invalid feed key: truncated validator")
        else
          match rest.drop addrLen.toNat with
          | [] => .error (SdkError.plain "invalid feed key: missing pair")
          | separator :: pair =>
              if separator ≠ slash then
                .error (SdkError.plain "invalid feed key: missing pair")
              else .ok (rest.take addrLen.toNat, pair)

def aggregatedPriceKey (pair : String) : Bytes :=
  keyPrefixAggregatedPrice ++ strBytes pair

/-- `uint64(ts.UnixNano())` -/
def unixNano (time : Time) : UInt64 := UInt64.ofNat (time % 2 ^ 64).toNat

def twapPrefix (pair : String) : Bytes :=
  keyPrefixTWAP ++ strBytes pair ++ [slash]

def twapKey (pair : String) (time : Time) : Bytes :=
  keyPrefixTWAP ++ strBytes pair ++ slash :: bigEndian 8 (unixNano time).toNat

def feedKeyPrefix : Bytes := keyPrefixFeed

def missCounterKey (val : Address) : Bytes := keyPrefixMissCounter ++ val.bytes

def totalWindowsKey (val : Address) : Bytes :=
  keyPrefixTotalWindows ++ val.bytes

def feederToValoperKey (feeder : Address) : Bytes :=
  keyPrefixFeederToValoper ++ feeder.bytes

def valoperToFeederKey (val : Address) : Bytes :=
  keyPrefixValoperToFeeder ++ val.bytes

/-! ## Key families -/

inductive OracleKey where
  | feed (val : Address) (pair : String)
  | aggregatedPrice (pair : String)
  | twap (pair : String) (nanos : UInt64)
  | missCounter (val : Address)
  | totalWindows (val : Address)
  | params
  | feederToValoper (feeder : Address)
  | valoperToFeeder (val : Address)
  deriving DecidableEq

def OracleKey.encode : OracleKey → Bytes
  | .feed val pair => feedKey val pair
  | .aggregatedPrice pair => aggregatedPriceKey pair
  | .twap pair nanos =>
      keyPrefixTWAP ++ strBytes pair ++ slash :: bigEndian 8 nanos.toNat
  | .missCounter val => missCounterKey val
  | .totalWindows val => totalWindowsKey val
  | .params => keyParams
  | .feederToValoper feeder => feederToValoperKey feeder
  | .valoperToFeeder val => valoperToFeederKey val

theorem OracleKey.encode_twap (pair : String) (time : Time) :
    (OracleKey.twap pair (unixNano time)).encode = twapKey pair time :=
  rfl

theorem feedKey_injective
    {val val' : Address} {pair pair' : String}
    (hkey : feedKey val pair = feedKey val' pair') :
    val = val' ∧ pair = pair' := by
  simp only [feedKey, keyPrefixFeed, List.cons_append, List.nil_append,
    List.cons.injEq, true_and] at hkey
  have hparts := lengthPrefix_append_inj hkey
  simp only [List.cons.injEq, true_and] at hparts
  exact ⟨hparts.1, strBytes_injective hparts.2⟩

/-- The pair and the timestamp of a TWAP key can be read back because the
timestamp has a fixed width, whatever bytes it contains. -/
theorem twapKey_injective
    {pair pair' : String} {nanos nanos' : UInt64}
    (hkey :
      (OracleKey.twap pair nanos).encode =
        (OracleKey.twap pair' nanos').encode) :
    pair = pair' ∧ nanos = nanos' := by
  simp only [OracleKey.encode] at hkey
  have hlength :
      (slash :: bigEndian 8 nanos.toNat).length =
        (slash :: bigEndian 8 nanos'.toNat).length := by
    simp
  have hparts := List.append_inj' hkey hlength
  have hpair : strBytes pair = strBytes pair' :=
    List.append_cancel_left hparts.1
  have hnanos : nanos.toNat % 256 ^ 8 = nanos'.toNat % 256 ^ 8 := by
    apply mod_eq_of_bigEndian_eq
    exact (List.cons.inj hparts.2).2
  refine ⟨strBytes_injective hpair, ?_⟩
  apply UInt64.toNat_inj.mp
  have hlt := nanos.toNat_lt
  have hlt' := nanos'.toNat_lt
  norm_num at hnanos
  omega

theorem OracleKey.encode_injective : Function.Injective OracleKey.encode := by
  intro left right hkey
  cases left <;> cases right
  case feed.feed val pair val' pair' =>
    have hparts := feedKey_injective hkey
    rw [hparts.1, hparts.2]
  case twap.twap pair nanos pair' nanos' =>
    have hparts := twapKey_injective hkey
    rw [hparts.1, hparts.2]
  case aggregatedPrice.aggregatedPrice pair pair' =>
    have hpair : strBytes pair = strBytes pair' :=
      List.append_cancel_left hkey
    rw [strBytes_injective hpair]
  case params.params => rfl
  case missCounter.missCounter val val' =>
    have hval : val.bytes = val'.bytes := List.append_cancel_left hkey
    rw [Address.ext_bytes hval]
  case totalWindows.totalWindows val val' =>
    have hval : val.bytes = val'.bytes := List.append_cancel_left hkey
    rw [Address.ext_bytes hval]
  case feederToValoper.feederToValoper feeder feeder' =>
    have hfeeder : feeder.bytes = feeder'.bytes :=
      List.append_cancel_left hkey
    rw [Address.ext_bytes hfeeder]
  case valoperToFeeder.valoperToFeeder val val' =>
    have hval : val.bytes = val'.bytes := List.append_cancel_left hkey
    rw [Address.ext_bytes hval]
  all_goals
    exfalso
    have hhead := congrArg List.head? hkey
    simp [OracleKey.encode, feedKey, aggregatedPriceKey, missCounterKey,
      totalWindowsKey, feederToValoperKey, valoperToFeederKey, keyPrefixFeed,
      keyPrefixAggregatedPrice, keyPrefixTWAP, keyPrefixMissCounter,
      keyPrefixTotalWindows, keyParams, keyPrefixFeederToValoper,
      keyPrefixValoperToFeeder] at hhead

theorem parseFeedKey_feedKey (val : Address) (pair : String) :
    parseFeedKey (feedKey val pair) = .ok (val.bytes, strBytes pair) := by
  have hlength : (UInt8.ofNat val.bytes.length).toNat = val.bytes.length := by
    have hvalid := val.valid.2
    simp only [UInt8.toNat_ofNat']
    omega
  have hpos := val.valid.1
  simp [parseFeedKey, feedKey, keyPrefixFeed, lengthPrefix, hlength]
  omega

end Oracle
end Vertix

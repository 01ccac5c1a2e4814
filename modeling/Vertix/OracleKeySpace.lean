import Vertix.OracleTwap
import Mathlib.Tactic

/-!
# The key space of the oracle module

A Go string is a byte string, whether or not it is valid UTF-8, so the builders
are given here for pairs of arbitrary bytes; on texts they are the builders of
the keeper.  The one-byte prefixes tell the families apart, a length-prefixed
address ends where its length says, and a timestamp has a fixed width, so that
separators inside a pair or an address do no harm.  Only the prefix scan of a
TWAP history depends on the pattern of accepted pairs.
-/

namespace Vertix
namespace Oracle

/-! ## The builders -/

def feedKeyOf (val : Address) (pair : Bytes) : Bytes :=
  keyPrefixFeed ++ lengthPrefix val ++ slash :: pair

def aggregatedPriceKeyOf (pair : Bytes) : Bytes :=
  keyPrefixAggregatedPrice ++ pair

def twapKeyOf (pair : Bytes) (time : Time) : Bytes :=
  keyPrefixTWAP ++ pair ++ slash :: bigEndian 8 (unixNano time).toNat

theorem feedKey_eq (val : Address) (pair : String) :
    feedKey val pair = feedKeyOf val (strBytes pair) := rfl

theorem aggregatedPriceKey_eq (pair : String) :
    aggregatedPriceKey pair = aggregatedPriceKeyOf (strBytes pair) := rfl

theorem twapKey_eq (pair : String) (time : Time) :
    twapKey pair time = twapKeyOf (strBytes pair) time := rfl

/-- A time whose nanoseconds since 1970 fit an int64; for any other time Go
leaves `UnixNano` undefined. -/
structure UnixTime where
  nanos : Time
  fits : -2 ^ 63 ≤ nanos ∧ nanos < 2 ^ 63

theorem UnixTime.ext_nanos {left right : UnixTime}
    (hnanos : left.nanos = right.nanos) : left = right := by
  cases left
  cases right
  simpa using hnanos

/-- A builder and its arguments. -/
inductive BuiltKey where
  | feed (val : Address) (pair : Bytes)
  | aggregatedPrice (pair : Bytes)
  | twap (pair : Bytes) (time : UnixTime)
  | missCounter (val : Address)
  | totalWindows (val : Address)
  | params
  | feederToValoper (feeder : Address)
  | valoperToFeeder (val : Address)

def BuiltKey.build : BuiltKey → Bytes
  | .feed val pair => feedKeyOf val pair
  | .aggregatedPrice pair => aggregatedPriceKeyOf pair
  | .twap pair time => twapKeyOf pair time.nanos
  | .missCounter val => missCounterKey val
  | .totalWindows val => totalWindowsKey val
  | .params => keyParams
  | .feederToValoper feeder => feederToValoperKey feeder
  | .valoperToFeeder val => valoperToFeederKey val

/-! ## Reading a feed key -/

theorem parseFeedKey_feedKeyOf (val : Address) (pair : Bytes) :
    parseFeedKey (feedKeyOf val pair) = .ok (val.bytes, pair) := by
  have hlength : (UInt8.ofNat val.bytes.length).toNat = val.bytes.length := by
    have hvalid := val.valid.2
    simp only [UInt8.toNat_ofNat']
    omega
  have hpos := val.valid.1
  simp [parseFeedKey, feedKeyOf, keyPrefixFeed, lengthPrefix, hlength]
  omega

/-- An accepted key is the prefix, the length of the address, the address, the
separator and the pair. -/
theorem parts_of_parseFeedKey {key addr pair : Bytes}
    (hparsed : parseFeedKey key = .ok (addr, pair)) :
    ∃ addrLen : UInt8, addr.length = addrLen.toNat ∧
      key = 0x01 :: addrLen :: (addr ++ slash :: pair) := by
  unfold parseFeedKey at hparsed
  split_ifs at hparsed with hinvalid
  rw [not_or, not_not] at hinvalid
  obtain ⟨tail, rfl⟩ := List.head?_eq_some_iff.mp hinvalid.2
  simp only [keyPrefixFeed, List.length_cons, List.length_nil, Nat.zero_add,
    List.drop_succ_cons, List.drop_zero] at hparsed
  cases tail with
  | nil => simp at hparsed
  | cons addrLen rest =>
      simp only at hparsed
      split_ifs at hparsed with htruncated
      split at hparsed
      next hdrop => cases hparsed
      next separator rest' hdrop =>
        split_ifs at hparsed with hseparator
        rw [not_not] at hseparator
        rw [Except.ok.injEq, Prod.mk.injEq] at hparsed
        obtain ⟨rfl, rfl⟩ := hparsed
        refine ⟨addrLen, List.length_take_of_le (not_lt.mp htruncated), ?_⟩
        rw [← hseparator, ← hdrop, List.take_append_drop]

theorem feedKeyOf_of_parseFeedKey {key addr pair : Bytes}
    (hparsed : parseFeedKey key = .ok (addr, pair)) (hne : addr ≠ []) :
    ∃ val : Address, val.bytes = addr ∧ key = feedKeyOf val pair := by
  obtain ⟨addrLen, hlength, rfl⟩ := parts_of_parseFeedKey hparsed
  have hbyte := addrLen.toNat_lt
  have hpos := List.length_pos_iff.mpr hne
  refine ⟨⟨addr, hpos, by omega⟩, rfl, ?_⟩
  simp [feedKeyOf, keyPrefixFeed, lengthPrefix, hlength]

/-! ## Distinct keys -/

theorem feedKeyOf_injective {val val' : Address} {pair pair' : Bytes}
    (hkey : feedKeyOf val pair = feedKeyOf val' pair') :
    val = val' ∧ pair = pair' := by
  have hparsed := parseFeedKey_feedKeyOf val pair
  rw [hkey, parseFeedKey_feedKeyOf, Except.ok.injEq, Prod.mk.injEq] at hparsed
  exact ⟨(Address.ext_bytes hparsed.1).symm, hparsed.2.symm⟩

theorem twapKeyOf_eq_iff {pair pair' : Bytes} {time time' : Time} :
    twapKeyOf pair time = twapKeyOf pair' time' ↔
      pair = pair' ∧ unixNano time = unixNano time' := by
  constructor
  · intro hkey
    have hparts := List.append_inj' hkey (by simp)
    refine ⟨List.append_cancel_left hparts.1, ?_⟩
    have hnanos := mod_eq_of_bigEndian_eq (List.cons.inj hparts.2).2
    have hlt := (unixNano time).toNat_lt
    have hlt' := (unixNano time').toNat_lt
    apply UInt64.toNat_inj.mp
    norm_num at hnanos
    omega
  · rintro ⟨rfl, hnanos⟩
    rw [twapKeyOf, hnanos, twapKeyOf]

theorem BuiltKey.build_injective : Function.Injective BuiltKey.build := by
  intro left right hkey
  cases left <;> cases right
  case feed.feed val pair val' pair' =>
    have hparts := feedKeyOf_injective hkey
    rw [hparts.1, hparts.2]
  case twap.twap pair time pair' time' =>
    have hparts := twapKeyOf_eq_iff.mp hkey
    have htime := unixNano_injOn time.fits time'.fits hparts.2
    rw [hparts.1, UnixTime.ext_nanos htime]
  case aggregatedPrice.aggregatedPrice pair pair' =>
    rw [show pair = pair' from List.append_cancel_left hkey]
  case params.params => rfl
  case missCounter.missCounter val val' =>
    rw [Address.ext_bytes (List.append_cancel_left hkey)]
  case totalWindows.totalWindows val val' =>
    rw [Address.ext_bytes (List.append_cancel_left hkey)]
  case feederToValoper.feederToValoper feeder feeder' =>
    rw [Address.ext_bytes (List.append_cancel_left hkey)]
  case valoperToFeeder.valoperToFeeder val val' =>
    rw [Address.ext_bytes (List.append_cancel_left hkey)]
  all_goals
    exfalso
    have hhead := congrArg List.head? hkey
    simp [BuiltKey.build, feedKeyOf, aggregatedPriceKeyOf, twapKeyOf,
      missCounterKey, totalWindowsKey, feederToValoperKey, valoperToFeederKey,
      keyPrefixFeed, keyPrefixAggregatedPrice, keyPrefixTWAP,
      keyPrefixMissCounter, keyPrefixTotalWindows, keyParams,
      keyPrefixFeederToValoper, keyPrefixValoperToFeeder] at hhead

/-! ## Scans and order -/

theorem inRange_twapPrefix_iff {pair other : String}
    (hpair : pairRegexMatch pair = true)
    (hother : pairRegexMatch other = true) (time : Time) :
    inRange (twapPrefix pair) (prefixEndBytes (twapPrefix pair))
      (twapKey other time) = true ↔ pair = other := by
  rw [inRange_prefixEndBytes_iff]
  constructor
  · intro hstarts
    exact (twapPrefix_own hpair hother hstarts).symm
  · rintro rfl
    exact ⟨bigEndian 8 (unixNano time).toNat, by simp [twapPrefix, twapKey]⟩

theorem twapKeyOf_lt_iff (pair : Bytes) {time time' : ℤ}
    (hlow : 0 ≤ time) (hhigh : time < 2 ^ 63)
    (hlow' : 0 ≤ time') (hhigh' : time' < 2 ^ 63) :
    twapKeyOf pair time < twapKeyOf pair time' ↔ time < time' := by
  have happend : ∀ t : Time, twapKeyOf pair t =
      (keyPrefixTWAP ++ pair ++ [slash]) ++ bigEndian 8 (unixNano t).toNat :=
    fun t => by simp [twapKeyOf]
  rw [happend, happend, nanos_lt_iff _ hlow hhigh hlow' hhigh']

/-- Feed keys are read back and only feed keys are read; no two builders or
arguments share a key; the scan of a TWAP history meets the keys of its own
pair alone; and a history is stored in the order of time. -/
theorem oracle_key_space :
    (∀ val pair,
      parseFeedKey (feedKeyOf val pair) = .ok (val.bytes, pair)) ∧
    (∀ key addr pair, parseFeedKey key = .ok (addr, pair) → addr ≠ [] →
      ∃ val : Address, val.bytes = addr ∧ key = feedKeyOf val pair) ∧
    Function.Injective BuiltKey.build ∧
    (∀ pair pair' time time', twapKeyOf pair time = twapKeyOf pair' time' ↔
      pair = pair' ∧ unixNano time = unixNano time') ∧
    (∀ pair other, pairRegexMatch pair = true →
      pairRegexMatch other = true → ∀ time,
        (inRange (twapPrefix pair) (prefixEndBytes (twapPrefix pair))
          (twapKey other time) = true ↔ pair = other)) ∧
    (∀ pair, ∀ time time' : UnixTime, 0 ≤ time.nanos → 0 ≤ time'.nanos →
      (twapKeyOf pair time.nanos < twapKeyOf pair time'.nanos ↔
        time.nanos < time'.nanos)) := by
  refine ⟨parseFeedKey_feedKeyOf, ?_, BuiltKey.build_injective, ?_, ?_, ?_⟩
  · intro key addr pair hparsed hne
    exact feedKeyOf_of_parseFeedKey hparsed hne
  · intro pair pair' time time'
    exact twapKeyOf_eq_iff
  · intro pair other hpair hother time
    exact inRange_twapPrefix_iff hpair hother time
  · intro pair time time' hlow hlow'
    exact twapKeyOf_lt_iff pair hlow time.fits.2 hlow' time'.fits.2

/-- The history of one pair is outside the scan of a pair whose name starts
with it, and the other way round. -/
theorem usd_and_usdc_apart :
    inRange (twapPrefix "VTX:USD") (prefixEndBytes (twapPrefix "VTX:USD"))
        (twapKey "VTX:USDC" 1700000000000000000) ≠ true ∧
      inRange (twapPrefix "VTX:USDC") (prefixEndBytes (twapPrefix "VTX:USDC"))
        (twapKey "VTX:USD" 1700000000000000000) ≠ true := by
  have hscan := oracle_key_space.2.2.2.2.1
  have hshort : pairRegexMatch "VTX:USD" = true := by decide
  have hlong : pairRegexMatch "VTX:USDC" = true := by decide
  constructor
  · intro hrange
    exact absurd ((hscan _ _ hshort hlong _).mp hrange) (by decide)
  · intro hrange
    exact absurd ((hscan _ _ hlong hshort _).mp hrange) (by decide)

end Oracle
end Vertix

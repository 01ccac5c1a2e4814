import Vertix.OracleRun
import Mathlib.Data.List.TakeWhile
import Mathlib.Tactic

/-!
# Time-weighted average prices

`Keeper.GetTWAP` walks the history of a pair backwards, keeps the entries of
the requested window together with the last one at or before its start, and
weights each kept price by the time to its successor.  The keys of the
history sort by time, and in every reachable store the prefix of an accepted
pair meets no key of another pair, so that the walk sees the history of the
pair alone and cuts it in three: entries hidden behind a later one, the kept
entries, and entries of the future.
-/

namespace Vertix
namespace Oracle

open Transition

/-! ## The query -/

/-- The records under the pair's prefix, in key order. -/
def twapHistory (store : OracleStore) (pair : String) : List TWAPEntry :=
  (store.prefixScan (twapPrefix pair)).filterMap fun entry =>
    match entry.2 with
    | .twapEntry e => some e
    | _ => none

/-- The loop of the reverse iteration: entries after `now` are skipped, and
the first entry at or before the start of the window is the last one kept. -/
def collectEntries (now windowStart : Time) : List TWAPEntry → List TWAPEntry
  | [] => []
  | e :: older =>
      if now < e.blockTime then collectEntries now windowStart older
      else if e.blockTime ≤ windowStart then [e]
      else e :: collectEntries now windowStart older

def keptEntries (now windowStart : Time) (history : List TWAPEntry) :
    List TWAPEntry :=
  (collectEntries now windowStart history.reverse).reverse

/-- The end of the interval which an entry is weighted by. -/
def intervalEnd (now : Time) : List TWAPEntry → Time
  | [] => now
  | next :: _ => next.blockTime

def accumulate (sdk : Sdk) (now : Time) :
    LegacyDec → LegacyDec → List TWAPEntry → Exec (LegacyDec × LegacyDec)
  | weightedSum, totalWeight, [] => return (weightedSum, totalWeight)
  | weightedSum, totalWeight, e :: rest => do
      let price ← Exec.ofExcept (plainError (sdk.legacyNewDecFromStr e.price))
      let w := legacyNewDec
        (Int64.ofInt (timeSub (intervalEnd now rest) e.blockTime))
      let product ← Exec.ofOption (price.mul? w)
      let weightedSum ← Exec.ofOption (weightedSum.add? product)
      let totalWeight ← Exec.ofOption (totalWeight.add? w)
      accumulate sdk now weightedSum totalWeight rest

/-- `GetTWAP` with a given start of the window. -/
def getTWAPFrom (sdk : Sdk) (ctx : Ctx) (store : OracleStore) (pair : String)
    (windowStart : Time) : Exec LegacyDec := do
  let params := getParams store
  Exec.ofExcept (rejectIf (¬ params.pairAccepted pair) errPairNotAccepted)
  let now := ctx.blockTime
  let entries := keptEntries now windowStart (twapHistory store pair)
  match entries.getLast? with
  | none => Exec.fail errNoTWAPData
  | some last => do
      Exec.ofExcept (rejectIf
        ((secondsDuration params.maxPriceAge).toInt <
          timeSub now last.blockTime) errStalePrice)
      if entries.length = 1 then
        Exec.ofExcept (plainError (sdk.legacyNewDecFromStr last.price))
      else do
        let (weightedSum, totalWeight) ←
          accumulate sdk now legacyZeroDec legacyZeroDec entries
        if totalWeight.raw = 0 then Exec.fail errNoTWAPData
        else Exec.ofOption (weightedSum.quo? totalWeight)

def getTWAP (sdk : Sdk) (ctx : Ctx) (store : OracleStore) (pair : String)
    (window : Int64) : Exec LegacyDec :=
  getTWAPFrom sdk ctx store pair (ctx.blockTime + (-window).toInt)

/-! ## Keys of one pair -/

/-- The separator byte only encodes the separator. -/
theorem slash_mem_utf8EncodeChar {c : Char}
    (hmem : slash ∈ String.utf8EncodeChar c) : c = '/' := by
  have hbyte : ∀ n : ℕ, slash = UInt8.ofNat n → n % 256 = 47 := by
    intro n heq
    have hnat := congrArg UInt8.toNat heq
    rw [UInt8.toNat_ofNat'] at hnat
    exact hnat.symm
  have hval : c.val.toNat = 47 := by
    unfold String.utf8EncodeChar at hmem
    simp only at hmem
    split_ifs at hmem with hone htwo hthree <;>
      simp only [List.mem_cons, List.not_mem_nil, or_false] at hmem
    · have hcode := hbyte _ hmem
      omega
    · rcases hmem with h | h <;> have hcode := hbyte _ h <;> omega
    · rcases hmem with h | h | h <;> have hcode := hbyte _ h <;> omega
    · rcases hmem with h | h | h | h <;> have hcode := hbyte _ h <;> omega
  apply Char.ext
  apply UInt32.toNat_inj.mp
  rw [hval]
  rfl

theorem slash_mem_strBytes {text : String} (hmem : slash ∈ strBytes text) :
    '/' ∈ text.toList := by
  have hencode : ∀ chars : List Char,
      slash ∈ chars.utf8Encode.data.toList → '/' ∈ chars := by
    intro chars
    induction chars with
    | nil => simp
    | cons c rest ih =>
        intro hbytes
        rw [List.utf8Encode_cons] at hbytes
        simp only [ByteArray.data_append, Array.toList_append,
          List.mem_append] at hbytes
        rcases hbytes with hfirst | hrest
        · have hchar : slash ∈ String.utf8EncodeChar c := by
            simpa [List.utf8Encode] using hfirst
          rw [slash_mem_utf8EncodeChar hchar]
          simp
        · exact List.mem_cons_of_mem c (ih hrest)
  apply hencode
  rw [← String.toByteArray_ofList, String.ofList_toList]
  exact hmem

theorem slash_not_mem_of_pairRegexMatch {pair : String}
    (hpair : pairRegexMatch pair = true) : slash ∉ strBytes pair := by
  intro hmem
  have hslash := slash_mem_strBytes hmem
  unfold pairRegexMatch at hpair
  rw [List.span_eq_takeWhile_dropWhile] at hpair
  split at hpair
  next base quote hspan =>
    simp only [Bool.and_eq_true, List.all_eq_true] at hpair
    obtain ⟨htake, hdrop⟩ := Prod.mk.inj hspan
    have hchars : pair.toList = base ++ ':' :: quote := by
      rw [← htake, ← hdrop, List.takeWhile_append_dropWhile]
    have hbase : ∀ c ∈ base, pairChar c = true := by
      rw [← htake]
      exact fun c hc => List.mem_takeWhile_imp hc
    rw [hchars, List.mem_append, List.mem_cons] at hslash
    rcases hslash with h | h | h
    · exact absurd (hbase _ h) (by decide)
    · exact absurd h (by decide)
    · exact absurd (hpair.2 _ h) (by decide)
  next => cases hpair

/-- A separator ends the text before it at its first occurrence. -/
theorem eq_of_same_start {left right more : Bytes}
    (hleft : slash ∉ left) (hright : slash ∉ right)
    (hstarts : left ++ [slash] <+: right ++ slash :: more) : right = left := by
  induction left generalizing right with
  | nil =>
      cases right with
      | nil => rfl
      | cons byte right =>
          simp only [List.nil_append, List.cons_append,
            List.cons_prefix_cons] at hstarts
          exact absurd (by simp [hstarts.1]) hright
  | cons byte left ih =>
      cases right with
      | nil =>
          simp only [List.nil_append, List.cons_append,
            List.cons_prefix_cons] at hstarts
          exact absurd (by simp [hstarts.1]) hleft
      | cons byte' right =>
          simp only [List.cons_append, List.cons_prefix_cons] at hstarts
          simp only [List.mem_cons, not_or] at hleft hright
          rw [ih hleft.2 hright.2 hstarts.2, hstarts.1]

/-- The prefix of a well-formed pair meets no key of another one. -/
theorem twapPrefix_own {pair other : String} {nanos : UInt64}
    (hpair : pairRegexMatch pair = true) (hother : pairRegexMatch other = true)
    (hstarts : twapPrefix pair <+: (OracleKey.twap other nanos).encode) :
    other = pair := by
  have hparts : strBytes pair ++ [slash] <+:
      strBytes other ++ slash :: bigEndian 8 nanos.toNat := by
    simpa [twapPrefix, OracleKey.encode, keyPrefixTWAP,
      List.cons_prefix_cons] using hstarts
  exact strBytes_injective (eq_of_same_start
    (slash_not_mem_of_pairRegexMatch hpair)
    (slash_not_mem_of_pairRegexMatch hother) hparts)

/-- Only the pair's own entries lie under its prefix.  Accepted pairs contain
no separator, so that no pair's prefix reaches into the keys of another. -/
def OwnHistory (store : OracleStore) (pair : String) : Prop :=
  ∀ pair' nanos, twapPrefix pair <+: (OracleKey.twap pair' nanos).encode →
    store.get (.twap pair' nanos) ≠ none → pair' = pair

def TwapPairsFormatted (store : OracleStore) : Prop :=
  ∀ pair nanos, store.get (.twap pair nanos) ≠ none →
    pairRegexMatch pair = true

theorem TwapPairsFormatted.ownHistory {store : OracleStore} {pair : String}
    (hformat : TwapPairsFormatted store) (hpair : pairRegexMatch pair = true) :
    OwnHistory store pair :=
  fun pair' nanos hstarts hstored =>
    twapPrefix_own hpair (hformat pair' nanos hstored) hstarts

theorem TwapPairsFormatted.congr {store store' : OracleStore}
    (hformat : TwapPairsFormatted store)
    (hget : ∀ pair nanos,
      store'.get (.twap pair nanos) = store.get (.twap pair nanos)) :
    TwapPairsFormatted store' := by
  intro pair nanos hstored
  rw [hget] at hstored
  exact hformat pair nanos hstored

theorem TwapPairsFormatted.append {sdk : Sdk} {store : OracleStore}
    {pair : String} (hformat : TwapPairsFormatted store)
    (hpair : pairRegexMatch pair = true) (price : LegacyDec)
    (blockTime : Time) :
    TwapPairsFormatted (appendTWAPEntry sdk store pair price blockTime) := by
  intro other nanos hstored
  rw [appendTWAPEntry, TypedStore.get_set] at hstored
  split_ifs at hstored with hkey
  · cases hkey
    exact hpair
  · exact hformat other nanos hstored

theorem TwapPairsFormatted.prune {store : OracleStore}
    (hformat : TwapPairsFormatted store) (pair : String) (cutoff : Time) :
    TwapPairsFormatted (pruneTWAPOlderThan store pair cutoff) := by
  intro other nanos hstored
  rw [pruneTWAPOlderThan, TypedStore.get_deleteAll] at hstored
  split_ifs at hstored with hdeleted
  · exact absurd rfl hstored
  · exact hformat other nanos hstored

theorem TwapPairsFormatted.publish {sdk : Sdk} {w : Window sdk}
    {store : OracleStore} {pair : String} (hformat : TwapPairsFormatted store)
    (hpair : pairRegexMatch pair = true) (weighted : List WeightedPrice) :
    TwapPairsFormatted (w.publish store pair weighted) := by
  unfold Window.publish
  apply TwapPairsFormatted.prune
  apply TwapPairsFormatted.append _ hpair
  apply hformat.congr
  intro p nanos
  rw [get_setAggregatedPrice, if_neg (by simp)]

theorem TwapPairsFormatted.close {sdk : Sdk} {w : Window sdk}
    {store : OracleStore} {result : OracleStore × List SlashCall}
    (hformat : TwapPairsFormatted store)
    (haccepted : ∀ pair ∈ w.params.acceptList, pairRegexMatch pair = true)
    (hclose : w.close store = .ok result) : TwapPairsFormatted result.1 := by
  simp only [Window.close, bind_eq_ok_iff, pure_eq_ok_iff] at hclose
  obtain ⟨aggregated, hloop, settled, hcount, hresult⟩ := hclose
  -- the loop only publishes pairs of the accept list
  have hdone : TwapPairsFormatted aggregated.store := by
    have hpairs := foldlM_induct
      (P := fun done s => (∀ pair ∈ done, pairRegexMatch pair = true) →
        TwapPairsFormatted s.store)
      (fun done s pair s' hdone hpair hall => by
        have hearlier := hdone fun p hp => hall p (by simp [hp])
        rcases Window.aggregatePair_cases hpair with ⟨-, hsame⟩ |
          ⟨-, hstore, -, -⟩
        · rw [hsame]
          exact hearlier
        · rw [hstore]
          exact hearlier.publish (hall pair (by simp)) _)
      (fun _ => hformat) hloop
    exact hpairs haccepted
  apply hdone.congr
  intro pair nanos
  rw [← hresult, get_deleteAllFeeds_of_ne _ (by simp),
    Window.countWindows_store_get hcount (by simp [OracleKey.IsCounter])]

/-- Only the EndBlocker touches the history. -/
theorem Effect.get_twap {k : Keeper} {store store' : OracleStore}
    {step : OracleStep k} (heffect : Effect k store step store')
    (hmessage : ∀ ctx staking, step ≠ .endBlock ctx staking)
    (pair : String) (nanos : UInt64) :
    store'.get (.twap pair nanos) = store.get (.twap pair nanos) := by
  cases heffect with
  | unchanged => rfl
  | delegated => simp [get_writeFeederDelegation]
  | fed => simp [get_writeFeed]
  | reparametrized changed =>
      exact get_updatedParams_of_ne store changed _ (by simp)
        (by simp [OracleKey.IsCounter])
  | closed => exact absurd rfl (hmessage _ _)

theorem TwapPairsFormatted.step {k : Keeper} {store store' : OracleStore}
    {step : OracleStep k} (hsound : Sound k.sdk store)
    (hformat : TwapPairsFormatted store)
    (hstep : oracleStep k store step = some store') :
    TwapPairsFormatted store' := by
  by_cases hend : ∃ ctx staking, step = .endBlock ctx staking
  · obtain ⟨ctx, staking, rfl⟩ := hend
    rcases endBlock_step_cases hstep with ⟨-, hsame⟩ |
      ⟨-, w, slashes, hopen, hclose⟩
    · rw [hsame]
      exact hformat
    · apply hformat.close _ hclose
      rw [(openWindow_eq_ok_iff.mp hopen).2.2.1]
      exact hsound.params_valid.acceptList_format
  · apply hformat.congr
    apply (effect_of_step hstep).get_twap
    exact fun ctx staking heq => hend ⟨ctx, staking, heq⟩

theorem get_twap_initGenesis {k : Keeper} {ctx : Ctx}
    {staking : StakingView k.sdk} {gs : GenesisState} {start : OracleStore}
    (hinit : initGenesis k ctx staking TypedStore.empty gs = .ok start)
    (pair : String) (nanos : UInt64) :
    start.get (.twap pair nanos) = none :=
  get_initGenesis_of_ne hinit (by simp) (by simp) (by simp) (by simp)

theorem twapPairsFormatted_of_reached
    {k : Keeper} {history : List (OracleStore × OracleStep k)}
    {store : OracleStore} (hreached : Reached k history store) :
    TwapPairsFormatted store := by
  obtain ⟨ctx, staking, gs, start, hinit, hrun⟩ := hreached
  have hboth : Sound k.sdk store ∧ TwapPairsFormatted store := by
    apply Run.invariant (I := fun store =>
      Sound k.sdk store ∧ TwapPairsFormatted store) _ _ hrun
    · refine ⟨sound_of_initGenesis hinit, ?_⟩
      intro pair nanos hstored
      exact absurd (get_twap_initGenesis hinit pair nanos) hstored
    · intro store step store' hinvariant hstep
      exact ⟨hinvariant.1.effect (effect_of_step hstep),
        hinvariant.2.step hinvariant.1 hstep⟩
  exact hboth.2

/-- In a reachable store every accepted pair has its history to itself. -/
theorem ownHistory_of_reached
    {k : Keeper} {history : List (OracleStore × OracleStep k)}
    {store : OracleStore} (hreached : Reached k history store)
    {pair : String} (hpair : pair ∈ (getParams store).acceptList) :
    OwnHistory store pair :=
  (twapPairsFormatted_of_reached hreached).ownHistory
    ((sound_of_reached hreached).params_valid.acceptList_format pair hpair)

/-! ## The stored history -/

/-- The entries are within the range in which a timestamp is its own key. -/
def TimesInRange (history : List TWAPEntry) : Prop :=
  ∀ e ∈ history, 0 ≤ e.blockTime ∧ e.blockTime < 2 ^ 63

theorem unixNano_toNat {time : ℤ} (hlow : 0 ≤ time) (hhigh : time < 2 ^ 63) :
    (unixNano time).toNat = time.toNat := by
  rw [unixNano, UInt64.toNat_ofNat', Int.emod_eq_of_lt hlow (by omega),
    Nat.mod_eq_of_lt (by omega)]

theorem unixNano_injOn {time time' : ℤ}
    (hfits : -2 ^ 63 ≤ time ∧ time < 2 ^ 63)
    (hfits' : -2 ^ 63 ≤ time' ∧ time' < 2 ^ 63)
    (hnanos : unixNano time = unixNano time') : time = time' := by
  have hnat := congrArg UInt64.toNat hnanos
  rw [unixNano, unixNano, UInt64.toNat_ofNat', UInt64.toNat_ofNat'] at hnat
  omega

theorem twapKey_eq_append (pair : String) (time : Time) :
    twapKey pair time =
      twapPrefix pair ++ bigEndian 8 (unixNano time).toNat := by
  simp [twapKey, twapPrefix]

/-- Behind the same bytes, timestamps are ordered as the times are. -/
theorem nanos_lt_iff (shared : Bytes) {time time' : ℤ}
    (hlow : 0 ≤ time) (hhigh : time < 2 ^ 63)
    (hlow' : 0 ≤ time') (hhigh' : time' < 2 ^ 63) :
    shared ++ bigEndian 8 (unixNano time).toNat <
        shared ++ bigEndian 8 (unixNano time').toNat ↔ time < time' := by
  have happend : StrictMono fun bytes : Bytes => shared ++ bytes :=
    fun _ _ hlt => List.append_left_lt hlt
  rw [happend.lt_iff_lt, bigEndian_lt_iff, unixNano_toNat hlow hhigh,
    unixNano_toNat hlow' hhigh', Nat.mod_eq_of_lt (by omega),
    Nat.mod_eq_of_lt (by omega)]
  omega

theorem mem_twapHistory_iff {store : OracleStore} {pair : String}
    {e : TWAPEntry} :
    e ∈ twapHistory store pair ↔
      ∃ raw, (raw, OracleValue.twapEntry e) ∈
        store.prefixScan (twapPrefix pair) := by
  rw [twapHistory, List.mem_filterMap]
  constructor
  · rintro ⟨⟨raw, value⟩, hscan, hentry⟩
    split at hentry
    next entry hvalue =>
      cases hentry
      cases hvalue
      exact ⟨raw, hscan⟩
    next => cases hentry
  · rintro ⟨raw, hscan⟩
    exact ⟨_, hscan, rfl⟩

/-- Under the pair's prefix an entry is stored at its own time. -/
theorem OwnHistory.raw_eq {store : OracleStore} {pair : String}
    (hown : OwnHistory store pair) {raw : Bytes} {e : TWAPEntry}
    (hscan : (raw, OracleValue.twapEntry e) ∈
      store.prefixScan (twapPrefix pair)) :
    raw = twapKey pair e.blockTime := by
  obtain ⟨key, hencode, hget, hstarts⟩ := TypedStore.mem_prefixScan_iff.mp hscan
  rw [← hencode] at hstarts
  obtain ⟨pair', nanos, rfl⟩ := twapPrefix_prefix_imp hstarts
  obtain ⟨-, hnanos⟩ := TypedStore.admits_of_get hget
  have hpair : pair' = pair := hown pair' nanos hstarts (by simp [hget])
  rw [← hencode, hpair, ← hnanos]
  rfl

/-- Of two entries in range, the one with the smaller key is the older one. -/
theorem OwnHistory.time_lt {store : OracleStore} {pair : String}
    (hown : OwnHistory store pair)
    (htimes : TimesInRange (twapHistory store pair))
    {raw raw' : Bytes} {e e' : TWAPEntry}
    (hscan : (raw, OracleValue.twapEntry e) ∈
      store.prefixScan (twapPrefix pair))
    (hscan' : (raw', OracleValue.twapEntry e') ∈
      store.prefixScan (twapPrefix pair))
    (hlt : raw < raw') : e.blockTime < e'.blockTime := by
  have hrange := htimes e (mem_twapHistory_iff.mpr ⟨raw, hscan⟩)
  have hrange' := htimes e' (mem_twapHistory_iff.mpr ⟨raw', hscan'⟩)
  rw [hown.raw_eq hscan, hown.raw_eq hscan', twapKey_eq_append,
    twapKey_eq_append] at hlt
  exact (nanos_lt_iff _ hrange.1 hrange.2 hrange'.1 hrange'.2).mp hlt

/-- The history is read in the order of time. -/
theorem twapHistory_ascending {store : OracleStore} {pair : String}
    (hown : OwnHistory store pair)
    (htimes : TimesInRange (twapHistory store pair)) :
    (twapHistory store pair).Pairwise
      fun a b => a.blockTime < b.blockTime := by
  rw [twapHistory, List.pairwise_filterMap]
  apply (store.prefixScan_sorted (twapPrefix pair)).imp_of_mem
  rintro ⟨raw, value⟩ ⟨raw', value'⟩ hscan hscan' hlt e he e' he'
  split at he
  next entry hvalue =>
    split at he'
    next entry' hvalue' =>
      cases he
      cases he'
      cases hvalue
      cases hvalue'
      exact hown.time_lt htimes hscan hscan' hlt
    next => cases he'
  next => cases he

/-! ## The kept entries -/

theorem keptEntries_concat (now windowStart : Time)
    (history : List TWAPEntry) (e : TWAPEntry) :
    keptEntries now windowStart (history ++ [e]) =
      if now < e.blockTime then keptEntries now windowStart history
      else if e.blockTime ≤ windowStart then [e]
      else keptEntries now windowStart history ++ [e] := by
  unfold keptEntries
  rw [List.reverse_append, List.reverse_singleton, List.singleton_append,
    collectEntries]
  split_ifs <;> simp

/-- A history is cut into entries hidden behind a later one, the kept
entries, and entries of the future. -/
structure Kept (now windowStart : Time)
    (history older kept future : List TWAPEntry) : Prop where
  parts : history = older ++ kept ++ future
  reached : ∀ e ∈ kept, e.blockTime ≤ now
  inside : ∀ e ∈ kept.tail, windowStart < e.blockTime
  hidden : older ≠ [] → ∃ first ∈ kept.head?, first.blockTime ≤ windowStart
  unreached : ∀ e ∈ future, now < e.blockTime

theorem exists_kept (now windowStart : Time) {history : List TWAPEntry}
    (hascending : history.Pairwise fun a b => a.blockTime < b.blockTime) :
    ∃ older future, Kept now windowStart history older
      (keptEntries now windowStart history) future := by
  induction history using List.reverseRecOn with
  | nil => exact ⟨[], [], by constructor <;> simp [keptEntries, collectEntries]⟩
  | append_singleton history e ih =>
      obtain ⟨hearlier, -, hbefore⟩ := List.pairwise_append.mp hascending
      obtain ⟨older, future, hkept⟩ := ih hearlier
      rw [keptEntries_concat]
      split_ifs with hfuture hleading
      · refine ⟨older, future ++ [e], ?_, hkept.reached, hkept.inside,
          hkept.hidden, ?_⟩
        · rw [← List.append_assoc, ← hkept.parts]
        · intro other hother
          rcases List.mem_append.mp hother with h | h
          · exact hkept.unreached other h
          · rw [List.mem_singleton.mp h]
            exact hfuture
      · exact ⟨history, [], by simp, by simpa using hfuture, by simp,
          fun _ => ⟨e, by simp, hleading⟩, by simp⟩
      · -- every earlier entry is reached, so that there is no future part
        have hnone : future = [] := by
          apply List.eq_nil_iff_forall_not_mem.mpr
          intro other hother
          have hmem : other ∈ history := by
            rw [hkept.parts]
            simp [hother]
          have hlt := hbefore other hmem e (by simp)
          have hafter := hkept.unreached other hother
          exact hfuture (hafter.trans hlt)
        refine ⟨older, [], ?_, ?_, ?_, ?_, by simp⟩
        · rw [List.append_nil, ← List.append_assoc]
          have hparts := hkept.parts
          rw [hnone, List.append_nil] at hparts
          rw [← hparts]
        · intro other hother
          rcases List.mem_append.mp hother with h | h
          · exact hkept.reached other h
          · rw [List.mem_singleton.mp h]
            exact not_lt.mp hfuture
        · intro other hother
          cases hentries : keptEntries now windowStart history with
          | nil => simp [hentries] at hother
          | cons first rest =>
              rw [hentries, List.cons_append, List.tail_cons] at hother
              rcases List.mem_append.mp hother with h | h
              · exact hkept.inside other (by simpa [hentries] using h)
              · rw [List.mem_singleton.mp h]
                exact not_le.mp hleading
        · intro hne
          obtain ⟨first, hfirst, hle⟩ := hkept.hidden hne
          exact ⟨first, by simp_all, hle⟩

end Oracle
end Vertix

import Vertix.OracleTwap
import Vertix.OraclePanicSafety
import Mathlib.Tactic

/-!
# The stored TWAP history

A boundary call appends one entry to the history of every pair which it
aggregates and prunes the entries which are more than a day old.  The prune
walks the prefix of the pair in key order and stops at the first entry which
is recent enough.  In a run whose block times increase, every stored entry is
from an earlier boundary, the keys of a pair sort by time, and no other pair
has keys under the prefix, so that the early exit loses nothing and the call
leaves exactly the entries of the last day.
-/

namespace Vertix
namespace Oracle

open Transition

/-- Where the predicate never comes back, an early exit loses nothing. -/
theorem takeWhile_eq_filter_of_pairwise {α : Type} {p : α → Bool}
    {items : List α}
    (hdown : items.Pairwise fun a b => p b = true → p a = true) :
    items.takeWhile p = items.filter p := by
  induction items with
  | nil => rfl
  | cons a rest ih =>
      obtain ⟨hfirst, hrest⟩ := List.pairwise_cons.mp hdown
      by_cases ha : p a = true
      · rw [List.takeWhile_cons_of_pos ha, List.filter_cons_of_pos ha, ih hrest]
      · have hnone : rest.filter p = [] := by
          rw [List.filter_eq_nil_iff]
          intro b hb hpb
          exact ha (hfirst b hb hpb)
        rw [List.takeWhile_cons_of_neg ha, List.filter_cons_of_neg ha, hnone]

/-! ## Entries of a pair -/

/-- The entry is stored for the pair. -/
def HasEntry (store : OracleStore) (pair : String) (e : TWAPEntry) : Prop :=
  store.get (.twap pair (unixNano e.blockTime)) = some (.twapEntry e)

theorem OwnHistory.mem_twapHistory_iff {store : OracleStore} {pair : String}
    (hown : OwnHistory store pair) {e : TWAPEntry} :
    e ∈ twapHistory store pair ↔ HasEntry store pair e := by
  rw [Oracle.mem_twapHistory_iff]
  constructor
  · rintro ⟨raw, hscan⟩
    have hraw := hown.raw_eq hscan
    obtain ⟨key, hencode, hget, -⟩ := TypedStore.mem_prefixScan_iff.mp hscan
    have hkey : key = .twap pair (unixNano e.blockTime) := by
      apply oracleCodec.injective
      rw [hencode, hraw]
      rfl
    rw [HasEntry, ← hkey]
    exact hget
  · intro hentry
    refine ⟨_, TypedStore.mem_prefixScan_iff.mpr ⟨_, rfl, hentry, ?_⟩⟩
    change twapPrefix pair <+: twapKey pair e.blockTime
    rw [twapKey_eq_append]
    exact List.prefix_append _ _

/-- Everything under the prefix of a pair is an entry. -/
theorem exists_entry_of_scan {store : OracleStore} {pair : String}
    {raw : Bytes} {value : OracleValue}
    (hscan : (raw, value) ∈ store.prefixScan (twapPrefix pair)) :
    ∃ e, value = .twapEntry e := by
  obtain ⟨key, hencode, hget, hstarts⟩ :=
    TypedStore.mem_prefixScan_iff.mp hscan
  rw [← hencode] at hstarts
  obtain ⟨pair', nanos, rfl⟩ := twapPrefix_prefix_imp hstarts
  have hadmits := TypedStore.admits_of_get hget
  cases value with
  | twapEntry e => exact ⟨e, rfl⟩
  | _ => exact absurd hadmits (by simp [OracleKey.Admits])

/-! ## The prune -/

/-- The early exit comes after the last expired entry, and no entry of another
pair is met before it. -/
theorem mem_expiredTWAPKeys_iff {store : OracleStore} {pair : String}
    (hown : OwnHistory store pair)
    (htimes : TimesInRange (twapHistory store pair)) (cutoff : Time)
    {raw : Bytes} :
    raw ∈ expiredTWAPKeys store pair cutoff ↔
      ∃ e, HasEntry store pair e ∧ e.blockTime < cutoff ∧
        raw = twapKey pair e.blockTime := by
  unfold expiredTWAPKeys
  rw [takeWhile_eq_filter_of_pairwise]
  · simp only [List.mem_map, List.mem_filter, Prod.exists]
    constructor
    · rintro ⟨raw', value, ⟨hscan, hexpired⟩, rfl⟩
      obtain ⟨e, rfl⟩ := exists_entry_of_scan hscan
      refine ⟨e, hown.mem_twapHistory_iff.mp
        (mem_twapHistory_iff.mpr ⟨_, hscan⟩), ?_, hown.raw_eq hscan⟩
      simpa using hexpired
    · rintro ⟨e, hentry, hexpired, rfl⟩
      obtain ⟨raw, hscan⟩ :=
        mem_twapHistory_iff.mp (hown.mem_twapHistory_iff.mpr hentry)
      have hraw := hown.raw_eq hscan
      subst hraw
      exact ⟨_, _, ⟨hscan, by simpa using hexpired⟩, rfl⟩
  · apply (store.prefixScan_sorted (twapPrefix pair)).imp_of_mem
    rintro ⟨raw, value⟩ ⟨raw', value'⟩ hscan hscan' hlt hexpired
    obtain ⟨e, rfl⟩ := exists_entry_of_scan hscan
    obtain ⟨e', rfl⟩ := exists_entry_of_scan hscan'
    have horder := hown.time_lt htimes hscan hscan' hlt
    simp only [decide_eq_true_eq] at hexpired ⊢
    exact horder.trans hexpired

theorem hasEntry_prune_iff {store : OracleStore} {pair : String}
    (hown : OwnHistory store pair)
    (htimes : TimesInRange (twapHistory store pair)) (cutoff : Time)
    {other : String} {e : TWAPEntry} :
    HasEntry (pruneTWAPOlderThan store pair cutoff) other e ↔
      HasEntry store other e ∧ (other = pair → cutoff ≤ e.blockTime) := by
  unfold HasEntry pruneTWAPOlderThan
  rw [TypedStore.get_deleteAll]
  have hkey : oracleCodec.encode (.twap other (unixNano e.blockTime)) =
      twapKey other e.blockTime := rfl
  rw [hkey]
  constructor
  · intro hget
    split_ifs at hget with hdeleted
    refine ⟨hget, ?_⟩
    rintro rfl
    by_contra hexpired
    exact hdeleted ((mem_expiredTWAPKeys_iff hown htimes cutoff).mpr
      ⟨e, hget, not_le.mp hexpired, rfl⟩)
  · rintro ⟨hget, hrecent⟩
    rw [if_neg, hget]
    intro hdeleted
    obtain ⟨e', hentry', hexpired, hsame⟩ :=
      (mem_expiredTWAPKeys_iff hown htimes cutoff).mp hdeleted
    obtain ⟨rfl, hnanos⟩ := twapKey_injective hsame
    rw [HasEntry, ← hnanos, hget, Option.some.injEq,
      OracleValue.twapEntry.injEq] at hentry'
    subst hentry'
    exact not_le.mpr hexpired (hrecent rfl)

theorem hasEntry_append_iff {sdk : Sdk} {store : OracleStore}
    {pair other : String} {price : LegacyDec} {blockTime : Time}
    {e : TWAPEntry} :
    HasEntry (appendTWAPEntry sdk store pair price blockTime) other e ↔
      other = pair ∧ e = ⟨pair, sdk.legacyDecString price, blockTime⟩ ∨
        ¬ (other = pair ∧ unixNano e.blockTime = unixNano blockTime) ∧
          HasEntry store other e := by
  unfold HasEntry appendTWAPEntry
  rw [TypedStore.get_set]
  by_cases hkey : other = pair ∧ unixNano e.blockTime = unixNano blockTime
  · rw [if_pos (by rw [hkey.1, hkey.2])]
    simp [hkey, eq_comm]
  · have hne : ¬ OracleKey.twap pair (unixNano blockTime) =
        .twap other (unixNano e.blockTime) := by
      rw [OracleKey.twap.injEq]
      exact fun h => hkey ⟨h.1.symm, h.2.symm⟩
    rw [if_neg hne]
    constructor
    · exact fun hentry => Or.inr ⟨hkey, hentry⟩
    · rintro (⟨hpair, rfl⟩ | ⟨-, hentry⟩)
      · exact absurd ⟨hpair, rfl⟩ hkey
      · exact hentry

/-- The append and the prune of one pair: an entry of the same time is
replaced, the expired entries of the pair are dropped, and the other pairs are
left alone. -/
theorem hasEntry_record_iff {sdk : Sdk} {store : OracleStore}
    {pair other : String} {price : LegacyDec} {now cutoff : Time}
    {e : TWAPEntry} (hformat : TwapPairsFormatted store)
    (hpair : pairRegexMatch pair = true) (hnow : 0 ≤ now ∧ now < 2 ^ 63)
    (hcutoff : cutoff ≤ now)
    (hpast : ∀ e, HasEntry store pair e →
      0 ≤ e.blockTime ∧ e.blockTime ≤ now) :
    HasEntry (pruneTWAPOlderThan (appendTWAPEntry sdk store pair price now)
        pair cutoff) other e ↔
      other = pair ∧ (e = ⟨pair, sdk.legacyDecString price, now⟩ ∨
          HasEntry store pair e ∧ cutoff ≤ e.blockTime ∧ e.blockTime < now) ∨
        other ≠ pair ∧ HasEntry store other e := by
  have hown : OwnHistory (appendTWAPEntry sdk store pair price now) pair :=
    (hformat.append hpair price now).ownHistory hpair
  have hrange : ∀ e, HasEntry store pair e →
      0 ≤ e.blockTime ∧ e.blockTime < 2 ^ 63 := by
    intro e hold
    obtain ⟨hlow, hle⟩ := hpast e hold
    exact ⟨hlow, lt_of_le_of_lt hle hnow.2⟩
  have htimes : TimesInRange
      (twapHistory (appendTWAPEntry sdk store pair price now) pair) := by
    intro e he
    rw [hown.mem_twapHistory_iff, hasEntry_append_iff] at he
    rcases he with ⟨-, rfl⟩ | ⟨-, hold⟩
    · exact hnow
    · exact hrange e hold
  rw [hasEntry_prune_iff hown htimes, hasEntry_append_iff]
  by_cases hother : other = pair
  · subst hother
    have hbefore : HasEntry store other e →
        (unixNano e.blockTime ≠ unixNano now ↔ e.blockTime < now) := by
      intro hold
      obtain ⟨hlow, hhigh⟩ := hrange e hold
      constructor
      · intro hnanos
        apply lt_of_le_of_ne (hpast e hold).2
        exact fun hsame => hnanos (congrArg unixNano hsame)
      · intro hlt hnanos
        apply hlt.ne
        exact unixNano_injOn ⟨by linarith, hhigh⟩ ⟨by linarith, hnow.2⟩ hnanos
    simp only [true_and, true_imp_iff, ne_eq, not_true_eq_false, false_and,
      or_false]
    constructor
    · rintro ⟨rfl | ⟨hnanos, hold⟩, hrecent⟩
      · exact Or.inl rfl
      · exact Or.inr ⟨hold, hrecent, (hbefore hold).mp hnanos⟩
    · rintro (rfl | ⟨hold, hrecent, hlt⟩)
      · exact ⟨Or.inl rfl, hcutoff⟩
      · exact ⟨Or.inr ⟨(hbefore hold).mpr hlt, hold⟩, hrecent⟩
  · simp [hother]

namespace Window

variable {sdk : Sdk}

/-- The entry which a boundary call appends for a pair. -/
def newEntry (w : Window sdk) (store : OracleStore) (pair : String) :
    TWAPEntry :=
  ⟨pair, sdk.legacyDecString (weightedMedian (w.countedFeeds store pair)),
    w.ctx.blockTime⟩

/-- The time before which an entry has expired. -/
def twapCutoff (w : Window sdk) : Time := w.ctx.blockTime - 24 * hour

theorem hasEntry_publish_iff
    {w : Window sdk} {store : OracleStore} {pair other : String}
    {weighted : List WeightedPrice} {e : TWAPEntry}
    (hformat : TwapPairsFormatted store) (hpair : pairRegexMatch pair = true)
    (hnow : 0 ≤ w.ctx.blockTime ∧ w.ctx.blockTime < 2 ^ 63)
    (hpast : ∀ e, HasEntry store pair e →
      0 ≤ e.blockTime ∧ e.blockTime ≤ w.ctx.blockTime) :
    HasEntry (w.publish store pair weighted) other e ↔
      other = pair ∧ (e = ⟨pair, sdk.legacyDecString (weightedMedian weighted),
          w.ctx.blockTime⟩ ∨ HasEntry store pair e ∧
            w.twapCutoff ≤ e.blockTime ∧ e.blockTime < w.ctx.blockTime) ∨
        other ≠ pair ∧ HasEntry store other e := by
  have hpriced : ∀ other e,
      HasEntry (setAggregatedPrice store (w.publishedPrice pair weighted))
        other e ↔ HasEntry store other e := by
    intro other e
    rw [HasEntry, get_setAggregatedPrice, if_neg (by simp), HasEntry]
  have hcutoff : w.twapCutoff ≤ w.ctx.blockTime := by
    unfold twapCutoff hour
    linarith
  change HasEntry (pruneTWAPOlderThan (appendTWAPEntry sdk
    (setAggregatedPrice store (w.publishedPrice pair weighted)) pair
    (weightedMedian weighted) w.ctx.blockTime) pair w.twapCutoff) other e ↔ _
  rw [hasEntry_record_iff _ hpair hnow hcutoff, hpriced, hpriced]
  · intro e hold
    exact hpast e ((hpriced pair e).mp hold)
  · apply hformat.congr
    intro p nanos
    rw [get_setAggregatedPrice, if_neg (by simp)]

/-! ## The aggregation loop -/

/-- What the loop has done to the histories once the pairs of `done` are
behind it. -/
structure Recorded (w : Window sdk) (start : OracleStore)
    (done : List String) (s : Progress) : Prop where
  formatted : TwapPairsFormatted s.store
  appended :
    ∀ pair ∈ done, w.Qualifies start pair → ∀ e,
      HasEntry s.store pair e ↔ e = w.newEntry start pair ∨
        HasEntry start pair e ∧ w.twapCutoff ≤ e.blockTime
  kept :
    ∀ pair, ¬ (pair ∈ done ∧ w.Qualifies start pair) → ∀ e,
      HasEntry s.store pair e ↔ HasEntry start pair e

/-- All entries are from before the call. -/
def Past (w : Window sdk) (store : OracleStore) : Prop :=
  ∀ pair e, HasEntry store pair e →
    0 ≤ e.blockTime ∧ e.blockTime < w.ctx.blockTime

section Recorded

variable {w : Window sdk} {start : OracleStore} {done : List String}
  {s : Progress} {pair : String} {e : TWAPEntry}

/-- The entries of a pair so far, whether or not it came up before. -/
theorem Recorded.hasEntry_iff (hdone : w.Recorded start done s)
    (hqualifies : w.Qualifies start pair) :
    HasEntry s.store pair e ↔
      HasEntry start pair e ∧ (pair ∈ done → w.twapCutoff ≤ e.blockTime) ∨
        pair ∈ done ∧ e = w.newEntry start pair := by
  by_cases hp : pair ∈ done
  · rw [hdone.appended pair hp hqualifies]
    tauto
  · rw [hdone.kept pair fun h => hp h.1]
    tauto

theorem Recorded.not_after (hdone : w.Recorded start done s)
    (hnow : 0 ≤ w.ctx.blockTime) (hpast : w.Past start)
    (hqualifies : w.Qualifies start pair) (hentry : HasEntry s.store pair e) :
    0 ≤ e.blockTime ∧ e.blockTime ≤ w.ctx.blockTime := by
  rcases (hdone.hasEntry_iff hqualifies).mp hentry with ⟨hold, -⟩ | ⟨-, rfl⟩
  · exact ⟨(hpast pair e hold).1, (hpast pair e hold).2.le⟩
  · exact ⟨hnow, le_rfl⟩

/-- What was appended for the pair in an earlier round is appended again. -/
theorem Recorded.published_iff (hdone : w.Recorded start done s)
    (hpast : w.Past start) (hqualifies : w.Qualifies start pair) :
    (e = w.newEntry start pair ∨ HasEntry s.store pair e ∧
        w.twapCutoff ≤ e.blockTime ∧ e.blockTime < w.ctx.blockTime) ↔
      e = w.newEntry start pair ∨
        HasEntry start pair e ∧ w.twapCutoff ≤ e.blockTime := by
  rw [hdone.hasEntry_iff hqualifies]
  constructor
  · rintro (hnew | ⟨⟨hold, -⟩ | ⟨-, hnew⟩, hrecent, -⟩)
    · exact Or.inl hnew
    · exact Or.inr ⟨hold, hrecent⟩
    · exact Or.inl hnew
  · rintro (hnew | ⟨hold, hrecent⟩)
    · exact Or.inl hnew
    · exact Or.inr ⟨Or.inl ⟨hold, fun _ => hrecent⟩, hrecent,
        (hpast pair e hold).2⟩

end Recorded

theorem Recorded.aggregatePair
    {w : Window sdk} {start : OracleStore} {done : List String}
    {s s' : Progress} {pair : String}
    (hnow : 0 ≤ w.ctx.blockTime ∧ w.ctx.blockTime < 2 ^ 63)
    (hpast : w.Past start) (hformat : pairRegexMatch pair = true)
    (haggregated : w.Aggregated start done s)
    (hdone : w.Recorded start done s)
    (hpair : w.aggregatePair s pair = .ok s') :
    w.Recorded start (done ++ [pair]) s' := by
  have hmem : ∀ p, p ∈ done ++ [pair] ↔ p ∈ done ∨ p = pair := by simp
  rcases aggregatePair_cases hpair with ⟨hnot, hsame⟩ |
    ⟨hqualifies, hstore, -, -⟩
  · subst hsame
    rw [haggregated.qualifies_iff] at hnot
    refine ⟨hdone.formatted, ?_, ?_⟩
    · intro p hp hqual
      rcases (hmem p).mp hp with hp | rfl
      · exact hdone.appended p hp hqual
      · exact absurd hqual hnot
    · intro p hp
      exact hdone.kept p fun h => hp ⟨(hmem p).mpr (Or.inl h.1), h.2⟩
  · rw [haggregated.qualifies_iff] at hqualifies
    rw [haggregated.countedFeeds_eq] at hstore
    have hpublish : ∀ p e, HasEntry s'.store p e ↔
        p = pair ∧ (e = w.newEntry start pair ∨
            HasEntry start pair e ∧ w.twapCutoff ≤ e.blockTime) ∨
          p ≠ pair ∧ HasEntry s.store p e := by
      intro p e
      rw [hstore, ← hdone.published_iff hpast hqualifies]
      exact hasEntry_publish_iff hdone.formatted hformat hnow
        fun e he => hdone.not_after hnow.1 hpast hqualifies he
    have hothers : ∀ p, p ≠ pair → ∀ e,
        HasEntry s'.store p e ↔ HasEntry s.store p e := by
      intro p hp e
      rw [hpublish]
      simp [hp]
    constructor
    · rw [hstore]
      exact hdone.formatted.publish hformat _
    · intro p hp hqual e
      by_cases hsame : p = pair
      · subst hsame
        rw [hpublish]
        simp
      · rw [hothers p hsame e]
        exact hdone.appended p (((hmem p).mp hp).resolve_right hsame) hqual e
    · intro p hp e
      have hne : p ≠ pair := by
        rintro rfl
        exact hp ⟨(hmem p).mpr (Or.inr rfl), hqualifies⟩
      rw [hothers p hne e]
      exact hdone.kept p (fun h => hp ⟨(hmem p).mpr (Or.inl h.1), h.2⟩) e

/-- A call has left to every pair which it aggregated the new entry and the
entries of the last day, and to every other pair what it had. -/
structure Maintained (w : Window sdk) (store store' : OracleStore) :
    Prop where
  aggregated :
    ∀ pair ∈ w.params.acceptList, w.Qualifies store pair → ∀ e,
      HasEntry store' pair e ↔ e = w.newEntry store pair ∨
        HasEntry store pair e ∧ w.ctx.blockTime - 24 * hour ≤ e.blockTime ∧
          e.blockTime < w.ctx.blockTime
  others :
    ∀ pair, ¬ (pair ∈ w.params.acceptList ∧ w.Qualifies store pair) → ∀ e,
      HasEntry store' pair e ↔ HasEntry store pair e

theorem maintained_of_close
    {w : Window sdk} {store : OracleStore}
    {result : OracleStore × List SlashCall}
    (hnow : 0 ≤ w.ctx.blockTime ∧ w.ctx.blockTime < 2 ^ 63)
    (hformat : TwapPairsFormatted store) (hpast : w.Past store)
    (haccepted : ∀ pair ∈ w.params.acceptList, pairRegexMatch pair = true)
    (hclose : w.close store = .ok result) : w.Maintained store result.1 := by
  simp only [close, bind_eq_ok_iff, pure_eq_ok_iff] at hclose
  obtain ⟨loop, hloop, settled, hcount, rfl⟩ := hclose
  have hloops := foldlM_induct
    (P := fun done s => (∀ pair ∈ done, pairRegexMatch pair = true) →
      w.Aggregated store done s ∧ w.Recorded store done s)
    (fun done s pair s' hdone hpair hall => by
      obtain ⟨haggregated, hrecorded⟩ := hdone fun p hp => hall p (by simp [hp])
      exact ⟨haggregated.aggregatePair hpair,
        hrecorded.aggregatePair hnow hpast (hall pair (by simp)) haggregated
          hpair⟩)
    (fun _ => ⟨Aggregated.initial w store [], hformat, by simp, by simp⟩) hloop
  have hrecorded := (hloops haccepted).2
  have hlast : ∀ pair e, HasEntry (deleteAllFeeds settled.store) pair e ↔
      HasEntry loop.store pair e := by
    intro pair e
    rw [HasEntry, get_deleteAllFeeds_of_ne _ (by simp),
      countWindows_store_get hcount (by simp [OracleKey.IsCounter]), HasEntry]
  constructor
  · intro pair hpair hqualifies e
    rw [hlast, hrecorded.appended pair hpair hqualifies e]
    constructor
    · rintro (hnew | ⟨hold, hrecent⟩)
      · exact Or.inl hnew
      · exact Or.inr ⟨hold, hrecent, (hpast pair e hold).2⟩
    · rintro (hnew | ⟨hold, hrecent, -⟩)
      · exact Or.inl hnew
      · exact Or.inr ⟨hold, hrecent⟩
  · intro pair hpair e
    rw [hlast]
    exact hrecorded.kept pair hpair e

/-- An entry is from the call or from before. -/
theorem Maintained.time_cases {w : Window sdk} {store store' : OracleStore}
    (hmaintained : w.Maintained store store') {pair : String} {e : TWAPEntry}
    (hentry : HasEntry store' pair e) :
    e.blockTime = w.ctx.blockTime ∨ HasEntry store pair e := by
  by_cases hpair : pair ∈ w.params.acceptList ∧ w.Qualifies store pair
  · rw [hmaintained.aggregated pair hpair.1 hpair.2] at hentry
    rcases hentry with rfl | ⟨hold, -⟩
    · exact Or.inl rfl
    · exact Or.inr hold
  · rw [hmaintained.others pair hpair] at hentry
    exact Or.inr hentry

end Window

/-! ## Runs -/

/-- The times of the EndBlocker calls, newest first. -/
def blockTimes {k : Keeper} (history : List (OracleStore × OracleStep k)) :
    List Time :=
  history.filterMap fun entry =>
    match entry.2 with
    | .endBlock ctx _ => some ctx.blockTime
    | _ => none

/-- Block times increase strictly and are non-negative int64 nanoseconds. -/
structure ClockAdvances (times : List Time) : Prop where
  increasing : times.Pairwise fun later earlier => earlier < later
  inRange : ∀ time ∈ times, 0 ≤ time ∧ time < 2 ^ 63

theorem ClockAdvances.past {time : Time} {times : List Time}
    (hclock : ClockAdvances (time :: times)) :
    ClockAdvances times ∧ ∀ earlier ∈ times, 0 ≤ earlier ∧ earlier < time := by
  obtain ⟨hfirst, hrest⟩ := List.pairwise_cons.mp hclock.increasing
  have hinRange := fun t ht => hclock.inRange t (List.mem_cons_of_mem time ht)
  exact ⟨⟨hrest, hinRange⟩, fun t ht => ⟨(hinRange t ht).1, hfirst t ht⟩⟩

theorem blockTimes_message {k : Keeper} {store : OracleStore}
    {step : OracleStep k} (history : List (OracleStore × OracleStep k))
    (hmessage : ∀ ctx staking, step ≠ .endBlock ctx staking) :
    blockTimes ((store, step) :: history) = blockTimes history := by
  cases step with
  | endBlock ctx staking => exact absurd rfl (hmessage ctx staking)
  | _ => rfl

/-- A boundary call after all earlier ones maintains the histories. -/
theorem maintained_of_step
    {k : Keeper} {ctx : Ctx} {staking : StakingView k.sdk}
    {store store' : OracleStore} {times : List Time}
    (hsound : Sound k.sdk store) (hformat : TwapPairsFormatted store)
    (hstamped : ∀ pair e, HasEntry store pair e → e.blockTime ∈ times)
    (hclock : ClockAdvances (ctx.blockTime :: times))
    (hboundary : ctx.blockHeight % (getParams store).voteWindow = 0)
    (hstep : oracleStep k store (.endBlock ctx staking) = some store') :
    ∃ w, openWindow k.sdk ctx staking (getParams store) = .ok w ∧
      w.Closed store store' ∧ w.Maintained store store' := by
  rcases endBlock_step_cases hstep with ⟨hinside, -⟩ |
    ⟨-, w, slashes, hopen, hclose⟩
  · exact absurd hboundary hinside
  · obtain ⟨hctx, -, hparams, -⟩ := openWindow_eq_ok_iff.mp hopen
    have hpast : w.Past store := by
      intro pair e hentry
      rw [hctx]
      exact hclock.past.2 _ (hstamped pair e hentry)
    refine ⟨w, hopen, Window.closed_of_close hclose,
      Window.maintained_of_close ?_ hformat hpast ?_ hclose⟩
    · rw [hctx]
      exact hclock.inRange _ (by simp)
    · rw [hparams]
      exact hsound.params_valid.acceptList_format

/-- Every entry was appended by an EndBlocker call of the run. -/
theorem entry_time_of_reached
    {k : Keeper} {history : List (OracleStore × OracleStep k)}
    {store : OracleStore} (hreached : Reached k history store)
    (hclock : ClockAdvances (blockTimes history)) (pair : String)
    (e : TWAPEntry) (hentry : HasEntry store pair e) :
    e.blockTime ∈ blockTimes history := by
  obtain ⟨ctx, staking, gs, start, hinit, hrun⟩ := hreached
  induction hrun generalizing pair e with
  | start =>
      rw [HasEntry, get_twap_initGenesis hinit] at hentry
      cases hentry
  | @next history store store' step hrun hstep ih =>
      have hreached : Reached k history store :=
        ⟨ctx, staking, gs, start, hinit, hrun⟩
      by_cases hend : ∃ ctx staking, step = .endBlock ctx staking
      · obtain ⟨ctx', staking', rfl⟩ := hend
        change ClockAdvances (ctx'.blockTime :: blockTimes history) at hclock
        change e.blockTime ∈ ctx'.blockTime :: blockTimes history
        have hstamped := ih hclock.past.1
        by_cases hboundary :
            ctx'.blockHeight % (getParams store).voteWindow = 0
        · obtain ⟨w, hopen, -, hmaintained⟩ := maintained_of_step
            (sound_of_reached hreached)
            (twapPairsFormatted_of_reached hreached) hstamped hclock hboundary
            hstep
          rcases hmaintained.time_cases hentry with hnew | hold
          · rw [hnew, (openWindow_eq_ok_iff.mp hopen).1]
            simp
          · exact List.mem_cons_of_mem _ (hstamped pair e hold)
        · rcases endBlock_step_cases hstep with ⟨-, hsame⟩ | ⟨hzero, -⟩
          · rw [hsame] at hentry
            exact List.mem_cons_of_mem _ (hstamped pair e hentry)
          · exact absurd hzero hboundary
      · have hmessage : ∀ ctx staking, step ≠ .endBlock ctx staking :=
          fun ctx staking heq => hend ⟨ctx, staking, heq⟩
        rw [blockTimes_message history hmessage] at hclock ⊢
        rw [HasEntry, (effect_of_step hstep).get_twap hmessage] at hentry
        exact ih hclock pair e hentry

/-- In a run whose block times increase, a boundary call leaves to every pair
which it aggregates one entry with the published price and the entries of the
last day, and to every other pair its history. -/
theorem twap_history_maintained
    {k : Keeper} {history : List (OracleStore × OracleStep k)}
    {ctx : Ctx} {staking : StakingView k.sdk} {store store' : OracleStore}
    (hreached : Reached k history store)
    (hclock : ClockAdvances
      (blockTimes ((store, .endBlock ctx staking) :: history)))
    (hboundary : ctx.blockHeight % (getParams store).voteWindow = 0)
    (hstep : oracleStep k store (.endBlock ctx staking) = some store') :
    ∃ w, openWindow k.sdk ctx staking (getParams store) = .ok w ∧
      (∀ pair ∈ (getParams store).acceptList, w.Qualifies store pair →
        ∃ published, storedPrice store' pair = some published ∧
          published.price =
            k.sdk.legacyDecString (weightedMedian (w.countedFeeds store pair)) ∧
          ∀ e, HasEntry store' pair e ↔
            e = ⟨pair, published.price, ctx.blockTime⟩ ∨
              HasEntry store pair e ∧
                ctx.blockTime - 24 * hour ≤ e.blockTime ∧
                e.blockTime < ctx.blockTime) ∧
      ∀ pair, ¬ (pair ∈ (getParams store).acceptList ∧
          w.Qualifies store pair) →
        ∀ e, HasEntry store' pair e ↔ HasEntry store pair e := by
  change ClockAdvances (ctx.blockTime :: blockTimes history) at hclock
  obtain ⟨w, hopen, hclosed, hmaintained⟩ := maintained_of_step
    (sound_of_reached hreached) (twapPairsFormatted_of_reached hreached)
    (entry_time_of_reached hreached hclock.past.1) hclock hboundary hstep
  obtain ⟨hctx, -, hparams, -⟩ := openWindow_eq_ok_iff.mp hopen
  refine ⟨w, hopen, ?_, ?_⟩
  · intro pair hpair hqualifies
    rw [← hparams] at hpair
    refine ⟨w.publishedPrice pair (w.countedFeeds store pair),
      storedPrice_eq_some_iff.mpr (hclosed.published pair hpair hqualifies),
      rfl, ?_⟩
    rw [← hctx]
    exact hmaintained.aggregated pair hpair hqualifies
  · rw [← hparams]
    exact hmaintained.others

/-- Thirty hours after the first boundary. -/
def dayAfter : Ctx := ⟨20, 1700108000000000000, by decide⟩

/-- A window which publishes a price, and the submissions of the next one. -/
def twoWindows : List (OracleStep referenceKeeper) :=
  [.submitFeed boundaryCtx twoValidators (firstFeed "1.0"),
    .submitFeed boundaryCtx twoValidators (secondFeed "1.2"),
    .endBlock boundaryCtx twoValidators,
    .submitFeed dayAfter twoValidators (firstFeed "2.0"),
    .submitFeed dayAfter twoValidators (secondFeed "2.2")]

/-- The second boundary call drops the entry of the first one. -/
theorem expired_entry_pruned :
    ∃ start history store store' published,
      replayGenesis referenceKeeper boundaryCtx twoValidators
          singlePairGenesis twoWindows = some (start, history, store) ∧
        oracleStep referenceKeeper store (.endBlock dayAfter twoValidators) =
          some store' ∧
        storedPrice store' "VTX:USD" = some published ∧
        ∀ e, HasEntry store' "VTX:USD" e ↔
          e = ⟨"VTX:USD", published.price, dayAfter.blockTime⟩ := by
  have hrun : (replayGenesis referenceKeeper boundaryCtx twoValidators
      singlePairGenesis twoWindows).any (fun run =>
        decide (blockTimes run.2.1 = [boundaryCtx.blockTime]) &&
          decide ("VTX:USD" ∈ (getParams run.2.2).acceptList ∧
            dayAfter.blockHeight % (getParams run.2.2).voteWindow = 0) &&
          (oracleStep referenceKeeper run.2.2
            (.endBlock dayAfter twoValidators)).isSome &&
          (openWindow referenceSdk dayAfter twoValidators
            (getParams run.2.2)).toOption.any fun w =>
              decide (w.countedFeeds run.2.2 "VTX:USD" ≠ [] ∧
                (quorumMet (Window.submittedPower
                    (w.countedFeeds run.2.2 "VTX:USD")) w.totalPower.raw
                  w.quorumFraction).toOption = some true)) = true := by
    decide +kernel
  obtain ⟨⟨start, history, store⟩, hreplay, hchecks⟩ := exists_some_of_any hrun
  simp only [Bool.and_eq_true, decide_eq_true_eq] at hchecks
  obtain ⟨⟨⟨htimes, haccepted, hboundary⟩, hsome⟩, hwindow⟩ := hchecks
  obtain ⟨store', hstep⟩ := Option.isSome_iff_exists.mp hsome
  obtain ⟨w', hopen', hquorum⟩ := exists_ok_of_any hwindow
  simp only [decide_eq_true_eq, toOption_eq_some_iff] at hquorum
  obtain ⟨hinit, hsteps⟩ := run_of_replayGenesis hreplay
  have hreached : Reached referenceKeeper history store :=
    ⟨_, _, _, _, hinit, hsteps⟩
  have hclock : ClockAdvances (blockTimes
      ((store, .endBlock dayAfter twoValidators) :: history)) := by
    change ClockAdvances (dayAfter.blockTime :: blockTimes history)
    rw [htimes]
    constructor <;> simp [dayAfter, boundaryCtx]
  obtain ⟨w, hopen, hpublished, -⟩ :=
    twap_history_maintained hreached hclock hboundary hstep
  have hsame : w' = w := Except.ok.inj (hopen'.symm.trans hopen)
  subst hsame
  obtain ⟨published, hstored, -, hentries⟩ :=
    hpublished "VTX:USD" haccepted hquorum
  refine ⟨start, history, store, store', published, hreplay, hstep, hstored, ?_⟩
  intro e
  rw [hentries]
  constructor
  · rintro (hnew | ⟨hold, hrecent, -⟩)
    · exact hnew
    · -- the only earlier entry is from the first boundary
      have hfirst := entry_time_of_reached hreached hclock.past.1 _ e hold
      rw [htimes, List.mem_singleton] at hfirst
      rw [hfirst] at hrecent
      exact absurd hrecent (by decide)
  · exact Or.inl

end Oracle
end Vertix

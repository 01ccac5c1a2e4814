import Vertix.FeederPriceLoop
import Mathlib.Tactic

/-!
# Where the prices of a batch come from

The price loop and the submit loop share nothing but the cache.  What a poll
finds fresh in it is decided by the last refresh of the pair before the read:
the refresh has to have found a median, and may not be older than
`max_quote_age`.  A later refresh which failed hides an earlier median, and so
does a later one of another entry of the list with the same pair.
-/

namespace Vertix.Feeder

namespace PriceLoop

variable {sdk : Sdk} {pl : PriceLoop} {ticks : ℕ → Tick} {pair : String}

/-- The entry of the list of pairs which the write `n` of the loop is for. -/
def entryAt (pl : PriceLoop) (n : ℕ) : Option PairConfig :=
  pl.pairs[n % pl.pairs.length]?

def tickAt (pl : PriceLoop) (ticks : ℕ → Tick) (n : ℕ) : Tick :=
  ticks (n / pl.pairs.length)

def medianAt (sdk : Sdk) (pl : PriceLoop) (ticks : ℕ → Tick) (n : ℕ)
    (pc : PairConfig) : Exec LegacyDec :=
  crossSourceMedian
    (pl.quotes sdk (pl.tickAt ticks n) (n % pl.pairs.length) pc)
    pl.maxDev pl.minProviders

def IsFor (pl : PriceLoop) (n : ℕ) (pair : String) : Prop :=
  ∃ pc, pl.entryAt n = some pc ∧ pc.pair = pair

/-- The write `m` is the last one for the pair among the first `n`. -/
structure LastRefresh (pl : PriceLoop) (n : ℕ) (pair : String) (m : ℕ)
    (pc : PairConfig) : Prop where
  before : m < n
  entry : pl.entryAt m = some pc
  named : pc.pair = pair
  last : ∀ later, m < later → later < n → ¬ pl.IsFor later pair

/-- What the write `m` leaves in the cache for its pair. -/
def Wrote (sdk : Sdk) (pl : PriceLoop) (ticks : ℕ → Tick) (m : ℕ)
    (pc : PairConfig) (entry : CacheEntry) : Prop :=
  (∃ price, pl.medianAt sdk ticks m pc = .ok price ∧
      entry = ⟨price, (pl.tickAt ticks m).now, true⟩) ∨
    (∃ err, pl.medianAt sdk ticks m pc = .error (.error err)) ∧
      entry.healthy = false

theorem cacheAfter_succ_cases {n : ℕ} {cache : Cache}
    (hcache : pl.cacheAfter sdk ticks (n + 1) = some cache) :
    ∃ before, pl.cacheAfter sdk ticks n = some before ∧
      ((pl.entryAt n = none ∧ cache = before) ∨
        ∃ pc entry, pl.entryAt n = some pc ∧ pl.Wrote sdk ticks n pc entry ∧
          cache = Function.update before pc.pair (some entry)) := by
  rw [cacheAfter, Option.bind_eq_some_iff] at hcache
  obtain ⟨before, hbefore, hwrite⟩ := hcache
  refine ⟨before, hbefore, ?_⟩
  cases hentry : pl.entryAt n with
  | none =>
      rw [entryAt] at hentry
      rw [hentry] at hwrite
      cases hwrite
      exact Or.inl ⟨rfl, rfl⟩
  | some pc =>
      rw [entryAt] at hentry
      rw [hentry] at hwrite
      right
      simp only [refresh] at hwrite
      cases hmedian : pl.medianAt sdk ticks n pc with
      | ok price =>
          rw [medianAt, tickAt] at hmedian
          rw [hmedian] at hwrite
          cases hwrite
          exact ⟨pc, _, rfl, Or.inl ⟨price, hmedian, rfl⟩, rfl⟩
      | error failure =>
          rw [medianAt, tickAt] at hmedian
          rw [hmedian] at hwrite
          cases failure with
          | error err =>
              cases hwrite
              exact ⟨pc, _, rfl, Or.inr ⟨⟨err, hmedian⟩, rfl⟩, rfl⟩
          | panicked => cases hwrite

/-- The cache holds for every pair what the last refresh of the pair wrote. -/
theorem cacheAfter_lookup {n : ℕ} {cache : Cache}
    (hcache : pl.cacheAfter sdk ticks n = some cache) (pair : String) :
    (cache pair = none ∧ ∀ m < n, ¬ pl.IsFor m pair) ∨
      ∃ m pc entry, pl.LastRefresh n pair m pc ∧
        pl.Wrote sdk ticks m pc entry ∧ cache pair = some entry := by
  induction n generalizing cache with
  | zero =>
      cases hcache
      exact Or.inl ⟨rfl, fun m hm => absurd hm (Nat.not_lt_zero m)⟩
  | succ n ih =>
      obtain ⟨before, hbefore, hwrite⟩ := cacheAfter_succ_cases hcache
      -- whether the new write is for the pair decides which write is the last
      by_cases hfor : pl.IsFor n pair
      · obtain ⟨pc, hpc, hpair⟩ := hfor
        rcases hwrite with ⟨hnone, -⟩ | ⟨pc', entry, hpc', hwrote, rfl⟩
        · rw [hpc] at hnone
          cases hnone
        · rw [hpc] at hpc'
          cases hpc'
          refine Or.inr ⟨n, pc, entry, ⟨Nat.lt_succ_self n, hpc, hpair, ?_⟩,
            hwrote, ?_⟩
          · intro later hafter hbound
            omega
          · rw [hpair, Function.update_self]
      · have hkept : cache pair = before pair := by
          rcases hwrite with ⟨-, rfl⟩ | ⟨pc, entry, hpc, -, rfl⟩
          · rfl
          · apply Function.update_of_ne
            rintro rfl
            exact hfor ⟨pc, hpc, rfl⟩
        rw [hkept]
        have hall : ∀ m, m < n + 1 → m < n ∨ m = n := by omega
        rcases ih hbefore with ⟨hnone, hunwritten⟩ | ⟨m, pc, entry, hlast, hrest⟩
        · refine Or.inl ⟨hnone, fun m hm => ?_⟩
          rcases hall m hm with hlt | rfl
          · exact hunwritten m hlt
          · exact hfor
        · refine Or.inr ⟨m, pc, entry, ⟨Nat.lt_succ_of_lt hlast.before,
            hlast.entry, hlast.named, fun later hafter hbound => ?_⟩, hrest⟩
          rcases hall later hbound with hlt | rfl
          · exact hlast.last later hafter hlt
          · exact hfor

theorem LastRefresh.unique {n m m' : ℕ} {pc pc' : PairConfig}
    (hlast : pl.LastRefresh n pair m pc)
    (hlast' : pl.LastRefresh n pair m' pc') : m = m' ∧ pc = pc' := by
  have hle : m' ≤ m := by
    by_contra hlt
    exact hlast.last m' (not_le.mp hlt) hlast'.before
      ⟨pc', hlast'.entry, hlast'.named⟩
  have hge : m ≤ m' := by
    by_contra hlt
    exact hlast'.last m (not_le.mp hlt) hlast.before
      ⟨pc, hlast.entry, hlast.named⟩
  obtain rfl := le_antisymm hge hle
  have hentry := hlast.entry
  rw [hlast'.entry, Option.some.injEq] at hentry
  exact ⟨rfl, hentry.symm⟩

/-- The last refresh of the pair found `price`, recently enough. -/
def Quoted (sdk : Sdk) (pl : PriceLoop) (ticks : ℕ → Tick) (n : ℕ)
    (pair : String) (maxAge : Int64) (now : Time) (price : LegacyDec) :
    Prop :=
  ∃ m pc, pl.LastRefresh n pair m pc ∧ pl.medianAt sdk ticks m pc = .ok price ∧
    Oracle.timeSub now (pl.tickAt ticks m).now ≤ maxAge.toInt

theorem fresh_iff_quoted {n : ℕ} {cache : Cache} {maxAge : Int64} {now : Time}
    {price : LegacyDec}
    (hcache : pl.cacheAfter sdk ticks n = some cache) :
    cache.fresh pair maxAge now = some price ↔
      pl.Quoted sdk ticks n pair maxAge now price := by
  rcases cacheAfter_lookup hcache pair with
    ⟨hnone, hunwritten⟩ | ⟨m, pc, entry, hlast, hwrote, hentry⟩
  · constructor
    · intro hfresh
      simp [Cache.fresh, hnone] at hfresh
    · rintro ⟨m, pc, hlast, -⟩
      exact absurd ⟨pc, hlast.entry, hlast.named⟩ (hunwritten m hlast.before)
  · have hquoted : pl.Quoted sdk ticks n pair maxAge now price ↔
        pl.medianAt sdk ticks m pc = .ok price ∧
          Oracle.timeSub now (pl.tickAt ticks m).now ≤ maxAge.toInt := by
      constructor
      · rintro ⟨m', pc', hlast', hrest⟩
        obtain ⟨rfl, rfl⟩ := hlast.unique hlast'
        exact hrest
      · exact fun hrest => ⟨m, pc, hlast, hrest⟩
    rw [hquoted]
    rcases hwrote with ⟨found, hmedian, rfl⟩ | ⟨⟨err, hmedian⟩, hfailed⟩
    · simp [Cache.fresh, hentry, hmedian, and_comm]
    · simp [Cache.fresh, hentry, hmedian, hfailed]

end PriceLoop

/-- A poll which runs beside the price loop submits exactly those of its pairs
whose last refresh before the read found a median within `max_quote_age`, each
with that median. -/
theorem batch_holds_latest_medians
    {sdk : Sdk} {pl : PriceLoop} {ticks : ℕ → Tick} {sl : SubmitLoop}
    {poll : Poll} {times : ℕ → ℕ}
    (hreads : ∀ i, pl.cacheAfter sdk ticks (times i) = some (poll.reads i))
    (feed : FeedSubmission) :
    feed ∈ sl.freshFeeds poll ↔
      ∃ i pc, sl.pairs[i]? = some pc ∧ feed.pair = pc.pair ∧
        pl.Quoted sdk ticks (times i) pc.pair sl.maxQuoteAge poll.now
          feed.price := by
  rw [SubmitLoop.mem_freshFeeds_iff]
  simp only [PriceLoop.fresh_iff_quoted (hreads _)]

/-- The second of the two pairs is submitted with the median of its only
refresh. -/
theorem second_pair_quoted :
    ∃ cache feed,
      twoPairLoop.cacheAfter referenceSdk (twoQuotes "65000.1") 2 =
        some cache ∧
      feed ∈ (newFeederLoop twoPairConfig 10).freshFeeds
        (failingPoll cache) ∧
      twoPairLoop.Quoted referenceSdk (twoQuotes "65000.1") 2 "BTC:USD"
        60000000000 0 feed.price := by
  have hcheck : (twoPairLoop.cacheAfter referenceSdk
      (twoQuotes "65000.1") 2).any (fun cache =>
        ((newFeederLoop twoPairConfig 10).freshFeeds
          (failingPoll cache)).any fun feed =>
            decide (feed.pair = "BTC:USD")) = true := by
    decide +kernel
  obtain ⟨cache, hcache, hfeeds⟩ := exists_some_of_any hcheck
  obtain ⟨feed, hfeed, hpair⟩ := List.any_eq_true.mp hfeeds
  have hreads : ∀ i, twoPairLoop.cacheAfter referenceSdk
      (twoQuotes "65000.1") ((fun _ => 2) i) =
        some ((failingPoll cache).reads i) := fun _ => hcache
  obtain ⟨i, pc, -, hnamed, hquoted⟩ :=
    (batch_holds_latest_medians hreads feed).mp hfeed
  rw [← hnamed, of_decide_eq_true hpair] at hquoted
  exact ⟨cache, feed, hcache, hfeed, hquoted⟩

end Vertix.Feeder

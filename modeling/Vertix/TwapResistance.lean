import Vertix.OracleTwapHistory
import Vertix.OracleTwapRange
import Vertix.PublishedPrice
import Mathlib.Tactic

/-!
# What a captured boundary can do to the TWAP

Every entry of the price history was published at one boundary block.  Where
honest validators held the power at that block, the entry lies in the band of
their sources; at a captured block it can be any price that was submitted in
the window.  The TWAP weighs entries by the time they hold, so an attacker
moves it by no more than the share of the time that the captured entries cover.
-/

namespace Vertix
namespace Oracle

open Transition
open Feeder (HonestMajority HonestPublications Publication agreedPrice
  exists_latestPrice_of_counted firstIsHonest firstLeads
  honestFeeders_of_rivals ledBy leaders_differ)

/-- The time during which entries of captured blocks hold. -/
def capturedTime (captured : Time → Bool) (now : Time) :
    List TWAPEntry → ℤ
  | [] => 0
  | e :: rest =>
      (if captured e.blockTime then intervalEnd now rest - e.blockTime
        else 0) + capturedTime captured now rest

/-- The part of the average that captured entries make up.  A single entry is
not weighed. -/
def capturedShare (captured : Time → Bool) (now : Time) :
    List TWAPEntry → ℚ
  | [] => 0
  | [e] => if captured e.blockTime then 1 else 0
  | leading :: rest =>
      (capturedTime captured now (leading :: rest) : ℚ) /
        ((now : ℚ) - leading.blockTime)

/-! ## Where an entry comes from -/

/-- The entry was published for the pair at a boundary of the history. -/
def PublishedEntry (k : Keeper) (history : OracleHistory k) (pair : String)
    (e : TWAPEntry) : Prop :=
  ∃ older before w, Publication k history pair older before w ∧
    e = w.newEntry before pair

theorem PublishedEntry.mono {k : Keeper} {history : OracleHistory k}
    {pair : String} {e : TWAPEntry}
    (hpublished : PublishedEntry k history pair e)
    (entry : OracleStore × OracleStep k) :
    PublishedEntry k (entry :: history) pair e := by
  obtain ⟨older, before, w, hpublication, hentry⟩ := hpublished
  exact ⟨older, before, w, hpublication.later entry, hentry⟩

theorem publishedEntry_of_reached
    {k : Keeper} {history : OracleHistory k} {store : OracleStore}
    (hreached : Reached k history store)
    (hclock : ClockAdvances (blockTimes history)) {pair : String}
    {e : TWAPEntry} (hentry : HasEntry store pair e) :
    PublishedEntry k history pair e := by
  obtain ⟨ctx, staking, gs, start, hinit, hrun⟩ := hreached
  induction hrun with
  | start =>
      rw [HasEntry, get_twap_initGenesis hinit] at hentry
      cases hentry
  | @next history store store' step hrun hstep ih =>
      have hreached : Reached k history store :=
        ⟨ctx, staking, gs, start, hinit, hrun⟩
      by_cases hend : ∃ ctx staking, step = .endBlock ctx staking
      · obtain ⟨ctx', staking', rfl⟩ := hend
        change ClockAdvances (ctx'.blockTime :: blockTimes history) at hclock
        have holder : HasEntry store pair e → PublishedEntry k
            ((store, .endBlock ctx' staking') :: history) pair e :=
          fun hold => (ih hclock.past.1 hold).mono _
        by_cases hboundary :
            ctx'.blockHeight % (getParams store).voteWindow = 0
        · obtain ⟨w, hopen, -, hmaintained⟩ := maintained_of_step
            (sound_of_reached hreached)
            (twapPairsFormatted_of_reached hreached)
            (entry_time_of_reached hreached hclock.past.1) hclock hboundary
            hstep
          by_cases haggregated :
              pair ∈ w.params.acceptList ∧ w.Qualifies store pair
          · rcases (hmaintained.aggregated pair haggregated.1 haggregated.2
              e).mp hentry with hnew | ⟨hold, -⟩
            · obtain rfl := (openWindow_eq_ok_iff.mp hopen).1
              exact ⟨history, store, w, ⟨⟨[], staking', rfl, hopen⟩, hboundary,
                haggregated.1, haggregated.2⟩, hnew⟩
            · exact holder hold
          · exact holder ((hmaintained.others pair haggregated e).mp hentry)
        · rcases endBlock_step_cases hstep with ⟨-, hsame⟩ | ⟨hzero, -⟩
          · rw [hsame] at hentry
            exact holder hentry
          · exact absurd hzero hboundary
      · have hmessage : ∀ ctx staking, step ≠ .endBlock ctx staking :=
          fun ctx staking heq => hend ⟨ctx, staking, heq⟩
        rw [blockTimes_message history hmessage] at hclock
        rw [HasEntry, (effect_of_step hstep).get_twap hmessage] at hentry
        exact (ih hclock hentry).mono _

/-! ## Honest and captured entries -/

/-- In the current window no latest price for the pair exceeds the ceiling. -/
def SubmittedBelow (k : Keeper) (pair : String) (ceiling : ℚ)
    (history : OracleHistory k) : Prop :=
  ∀ val text price, latestPrice k val pair history = some text →
    k.sdk.legacyNewDecFromStr text = .ok price → priceValue price ≤ ceiling

/-- So it was at the publications whose block times are in `times`. -/
def PublicationsBelow (k : Keeper) (pair : String) (times : Time → Prop)
    (ceiling : ℚ) (history : OracleHistory k) : Prop :=
  ∀ older before w, Publication k history pair older before w →
    times w.ctx.blockTime → SubmittedBelow k pair ceiling older

section Entries

variable {k : Keeper} {history : OracleHistory k} {store : OracleStore}
  {pair : String} {honest : Address → Bool} {times : Time → Prop}
  {low high ceiling : ℚ} {e : TWAPEntry}

theorem entryPrice_newEntry {w : Window k.sdk} {before : OracleStore} :
    entryPrice k.sdk (w.newEntry before pair) =
      priceValue (weightedMedian (w.countedFeeds before pair)) := by
  rw [entryPrice, Window.newEntry, k.sdk.legacyDec_roundTrip]
  rfl

theorem entryPrice_of_honest (hreached : Reached k history store)
    (hhonest : HonestPublications k honest pair times (fun _ => (low, high))
      history)
    (hpublished : PublishedEntry k history pair e)
    (htime : times e.blockTime) :
    low ≤ entryPrice k.sdk e ∧ entryPrice k.sdk e ≤ high := by
  obtain ⟨older, before, w, hpublication, rfl⟩ := hpublished
  rw [entryPrice_newEntry]
  exact hpublication.median_within hreached hhonest htime

/-- Whoever captured the boundary published a price that was submitted. -/
theorem entryPrice_of_submitted (hreached : Reached k history store)
    (hbelow : PublicationsBelow k pair times ceiling history)
    (hpublished : PublishedEntry k history pair e)
    (htime : times e.blockTime) :
    0 ≤ entryPrice k.sdk e ∧ entryPrice k.sdk e ≤ ceiling := by
  obtain ⟨older, before, w, hpublication, rfl⟩ := hpublished
  obtain ⟨counted, hcounted, hmedian⟩ := hpublication.qualifies.median_mem
  obtain ⟨val, text, -, hlatest, hprice⟩ := exists_latestPrice_of_counted
    (hpublication.reached hreached) hcounted
  rw [entryPrice_newEntry, hmedian]
  constructor
  · have hpos := Window.countedFeeds_price_pos hcounted
    exact div_nonneg (by exact_mod_cast hpos.le) (by norm_num)
  · exact hbelow older before w hpublication htime val text counted.price
      hlatest hprice

end Entries

/-! ## The average -/

theorem timeWhere_eq_capturedTime (sdk : Sdk) (captured : Time → Bool)
    (now : Time) (entries : List TWAPEntry) :
    StepFunction.timeWhere
        (fun point => captured ⌊point.1⌋) (entries.map (pricePoint sdk))
        (now : ℚ) = capturedTime captured now entries := by
  induction entries with
  | nil => rfl
  | cons e rest ih =>
      have hnext : StepFunction.nextTime (rest.map (pricePoint sdk))
          (now : ℚ) = (intervalEnd now rest : ℚ) := by
        cases rest <;> rfl
      simp only [List.map_cons, StepFunction.timeWhere, ih, hnext,
        capturedTime, pricePoint, Int.floor_intCast]
      split_ifs <;> push_cast <;> rfl

/-- The exact average of several entries, between honest and captured
prices. -/
theorem average_within {sdk : Sdk} {now : Time} {leading : TWAPEntry}
    {rest : List TWAPEntry} {captured : Time → Bool} {low high ceiling : ℚ}
    (hrest : rest ≠ []) (hbefore : leading.blockTime < now)
    (hascending : (leading :: rest).Pairwise
      fun a b => a.blockTime < b.blockTime)
    (hreached : ∀ e ∈ leading :: rest, e.blockTime ≤ now)
    (hfree : ∀ e ∈ leading :: rest, captured e.blockTime = false →
      low ≤ entryPrice sdk e ∧ entryPrice sdk e ≤ high)
    (hcaptured : ∀ e ∈ leading :: rest, captured e.blockTime = true →
      0 ≤ entryPrice sdk e ∧ entryPrice sdk e ≤ ceiling) :
    low * (1 - capturedShare captured now (leading :: rest)) ≤
        StepFunction.area ((leading :: rest).map (pricePoint sdk)) (now : ℚ) /
          ((now : ℚ) - leading.blockTime) ∧
      StepFunction.area ((leading :: rest).map (pricePoint sdk)) (now : ℚ) /
          ((now : ℚ) - leading.blockTime) ≤
        high * (1 - capturedShare captured now (leading :: rest)) +
          ceiling * capturedShare captured now (leading :: rest) := by
  have hpoints : ((leading :: rest).map (pricePoint sdk)).Pairwise
      fun a b => a.1 < b.1 := by
    rw [List.pairwise_map]
    exact hascending.imp fun hlt => Int.cast_lt.mpr hlt
  have hstop : ∀ point ∈ (leading :: rest).map (pricePoint sdk),
      point.1 ≤ (now : ℚ) := by
    rw [List.forall_mem_map]
    exact fun e he => Int.cast_le.mpr (hreached e he)
  have hothers : ∀ point ∈ (leading :: rest).map (pricePoint sdk),
      (fun point : ℚ × ℚ => captured ⌊point.1⌋) point = false →
      low ≤ point.2 ∧ point.2 ≤ high := by
    rw [List.forall_mem_map]
    intro e he hpoint
    exact hfree e he (by simpa [pricePoint] using hpoint)
  have hmarked : ∀ point ∈ (leading :: rest).map (pricePoint sdk),
      (fun point : ℚ × ℚ => captured ⌊point.1⌋) point = true →
      0 ≤ point.2 ∧ point.2 ≤ ceiling := by
    rw [List.forall_mem_map]
    intro e he hpoint
    exact hcaptured e he (by simpa [pricePoint] using hpoint)
  obtain ⟨hlower, hupper⟩ :=
    StepFunction.area_mem_Icc_of_marked hpoints hstop hothers hmarked
  rw [timeWhere_eq_capturedTime] at hlower hupper
  have hnext : StepFunction.nextTime ((leading :: rest).map (pricePoint sdk))
      (now : ℚ) = leading.blockTime := rfl
  rw [hnext] at hlower hupper
  have hsince : (0 : ℚ) < (now : ℚ) - leading.blockTime :=
    sub_pos.mpr (Int.cast_lt.mpr hbefore)
  have hshare : capturedShare captured now (leading :: rest) =
      (capturedTime captured now (leading :: rest) : ℚ) /
        ((now : ℚ) - leading.blockTime) := by
    obtain ⟨next, more, rfl⟩ := List.exists_cons_of_ne_nil hrest
    rfl
  rw [hshare, le_div_iff₀ hsince, div_le_iff₀ hsince]
  field_simp
  constructor <;> linarith

/-! ## The query -/

section Query

variable {k : Keeper} {history : OracleHistory k} {store : OracleStore}
  {pair : String} {ctx : Ctx} {window : Int64} {result : LegacyDec}

theorem accepted_of_getTWAP
    (hget : getTWAP k.sdk ctx store pair window = .ok result) :
    pair ∈ (getParams store).acceptList := by
  simp only [getTWAP, getTWAPFrom, bind_eq_ok_iff, Exec.ofExcept_eq_ok_iff,
    rejectIf_eq_ok_iff, exists_const, not_not] at hget
  exact OracleParams.pairAccepted_iff.mp hget.1

theorem timesInRange_of_reached (hreached : Reached k history store)
    (hclock : ClockAdvances (blockTimes history))
    (hown : OwnHistory store pair) :
    TimesInRange (twapHistory store pair) := by
  intro e he
  exact hclock.inRange _ (entry_time_of_reached hreached hclock pair e
    (hown.mem_twapHistory_iff.mp he))

/-- A query that collects several entries rounds their exact average. -/
theorem average_of_getTWAP (hown : OwnHistory store pair)
    (htimes : TimesInRange (twapHistory store pair))
    (hget : getTWAP k.sdk ctx store pair window = .ok result)
    {kept : List TWAPEntry}
    (hkept : keptEntries ctx.blockTime (ctx.blockTime + (-window).toInt)
      (twapHistory store pair) = kept) :
    (∀ e ∈ kept, e ∈ twapHistory store pair) ∧
      ((∃ only, kept = [only] ∧
          k.sdk.legacyNewDecFromStr only.price = .ok result) ∨
        ∃ leading rest, kept = leading :: rest ∧ rest ≠ [] ∧
          leading.blockTime < ctx.blockTime ∧
          kept.Pairwise (fun a b => a.blockTime < b.blockTime) ∧
          (∀ e ∈ kept, e.blockTime ≤ ctx.blockTime) ∧
          result.raw = roundQuotient (10 ^ 18)
            (StepFunction.area (kept.map (pricePoint k.sdk))
                (ctx.blockTime : ℚ) /
              ((ctx.blockTime : ℚ) - leading.blockTime))) := by
  have hhistory := twapHistory_ascending hown htimes
  obtain ⟨older, future, hparts⟩ := exists_kept ctx.blockTime
    (ctx.blockTime + (-window).toInt) hhistory
  obtain ⟨last, hlast, hfresh, hresult⟩ := getTWAP_eq_ok hget
  rw [hkept] at hparts hlast hresult
  have hsublist : kept.Sublist (twapHistory store pair) := by
    rw [hparts.parts]
    exact (List.sublist_append_right _ _).trans (List.sublist_append_left _ _)
  refine ⟨fun e he => hsublist.subset he, ?_⟩
  rcases hresult with ⟨hone, hparsed⟩ |
    ⟨hmany, weightedSum, totalWeight, hloop, -, hquo⟩
  · exact .inl ⟨last, hone, hparsed⟩
  · have hlong : 2 ≤ kept.length := by
      have hne : kept.length ≠ 0 := by
        intro hzero
        rw [List.length_eq_zero_iff.mp hzero] at hlast
        cases hlast
      omega
    have hascending := hhistory.sublist hsublist
    have hreached := hparts.reached
    obtain ⟨leading, second, rest, rfl⟩ := exists_cons_cons hlong
    have hbefore : leading.blockTime < ctx.blockTime :=
      lt_of_lt_of_le ((List.pairwise_cons.mp hascending).1 second (by simp))
        (hreached second (by simp))
    exact .inr ⟨leading, second :: rest, rfl, by simp, hbefore, hascending,
      hreached, loop_result_eq hascending
        (fun e he => htimes e (hsublist.subset he)) hreached hbefore hlast
        hfresh hloop hquo⟩

end Query

/-- The entries which a query averages. -/
def averagedEntries (ctx : Ctx) (store : OracleStore) (pair : String)
    (window : Int64) : List TWAPEntry :=
  keptEntries ctx.blockTime (ctx.blockTime + (-window).toInt)
    (twapHistory store pair)

/-- Some averaged entry was published at the time. -/
def Averaged (ctx : Ctx) (store : OracleStore) (pair : String)
    (window : Int64) (time : Time) : Prop :=
  ∃ e ∈ averagedEntries ctx store pair window, e.blockTime = time

/-- In a run of the oracle whose block times advance, take the blocks whose
entries a query averages.  At those that are not captured, honest validators
hold the power and their sources lie in `[low, high]`; at the captured ones
the `ceiling` bounds the latest submitted prices of the window.  The TWAP then
leaves the band by at most what the captured entries amount to in their share
of the time, and one unit of rounding. -/
theorem twap_resists_capture
    {k : Keeper} {history : OracleHistory k} {store : OracleStore}
    {pair : String} {honest : Address → Bool} {captured : Time → Bool}
    {low high ceiling : ℚ} {ctx : Ctx} {window : Int64} {result : LegacyDec}
    (hreached : Reached k history store)
    (hclock : ClockAdvances (blockTimes history))
    (hhonest : HonestPublications k honest pair
      (fun time => Averaged ctx store pair window time ∧
        captured time = false) (fun _ => (low, high)) history)
    (hbelow : PublicationsBelow k pair
      (fun time => Averaged ctx store pair window time ∧
        captured time = true) ceiling history)
    (hget : getTWAP k.sdk ctx store pair window = .ok result) :
    let share := capturedShare captured ctx.blockTime
      (averagedEntries ctx store pair window)
    low * (1 - share) - 1 / 10 ^ 18 ≤ priceValue result ∧
      priceValue result ≤
        high * (1 - share) + ceiling * share + 1 / 10 ^ 18 := by
  intro share
  have hown := ownHistory_of_reached hreached (accepted_of_getTWAP hget)
  have htimes := timesInRange_of_reached hreached hclock hown
  obtain ⟨kept, hkept⟩ : ∃ kept,
      averagedEntries ctx store pair window = kept := ⟨_, rfl⟩
  obtain ⟨hsubset, hresult⟩ := average_of_getTWAP hown htimes hget hkept
  have hpublished : ∀ e ∈ kept, PublishedEntry k history pair e := fun e he =>
    publishedEntry_of_reached hreached hclock
      (hown.mem_twapHistory_iff.mp (hsubset e he))
  have haveraged : ∀ e ∈ kept, Averaged ctx store pair window e.blockTime :=
    fun e he => ⟨e, hkept.symm ▸ he, rfl⟩
  have hfree : ∀ e ∈ kept, captured e.blockTime = false →
      low ≤ entryPrice k.sdk e ∧ entryPrice k.sdk e ≤ high :=
    fun e he hcaptured => entryPrice_of_honest hreached hhonest
      (hpublished e he) ⟨haveraged e he, hcaptured⟩
  have hsubmitted : ∀ e ∈ kept, captured e.blockTime = true →
      0 ≤ entryPrice k.sdk e ∧ entryPrice k.sdk e ≤ ceiling :=
    fun e he hcaptured => entryPrice_of_submitted hreached hbelow
      (hpublished e he) ⟨haveraged e he, hcaptured⟩
  have hshare : share = capturedShare captured ctx.blockTime kept := by
    rw [← hkept]
  rw [hshare]
  rcases hresult with ⟨only, rfl, hparsed⟩ |
    ⟨leading, rest, rfl, hrest, hbefore, hascending, hbounded, hraw⟩
  · have hprice : priceValue result = entryPrice k.sdk only :=
      (toRat_of_parsed hparsed).symm
    rw [hprice]
    cases hcaptured : captured only.blockTime with
    | false =>
        obtain ⟨hlower, hupper⟩ := hfree only (by simp) hcaptured
        simp only [capturedShare, hcaptured, Bool.false_eq_true, if_false]
        constructor <;> linarith
    | true =>
        obtain ⟨hlower, hupper⟩ := hsubmitted only (by simp) hcaptured
        simp only [capturedShare, hcaptured, if_true]
        constructor <;> linarith
  · obtain ⟨hlower, hupper⟩ := average_within hrest hbefore hascending
      hbounded hfree hsubmitted
    have hrounded := abs_roundQuotient_sub_lt
      (show 0 < 10 ^ 18 by norm_num)
      (StepFunction.area ((leading :: rest).map (pricePoint k.sdk))
        (ctx.blockTime : ℚ) / ((ctx.blockTime : ℚ) - leading.blockTime))
    rw [← hraw, abs_lt] at hrounded
    have hvalue : priceValue result =
        (result.raw : ℚ) / ((10 ^ 18 : ℕ) : ℚ) := rfl
    rw [hvalue]
    push_cast at hrounded ⊢
    constructor <;> linarith

/-! ## One captured window out of two -/

def secondLeads : StakingView referenceSdk := ledBy 2 1 leaders_differ.symm

theorem captureCtx_timestamp : zeroTime < 1700000600000000000 ∧
    (1700000600000000000 : Time) < 253402300800 * 10 ^ 9 := by
  decide

def captureCtx : Ctx := ⟨20, 1700000600000000000, captureCtx_timestamp⟩

theorem minuteLater_timestamp : zeroTime < 1700000660000000000 ∧
    (1700000660000000000 : Time) < 253402300800 * 10 ^ 9 := by
  decide

def minuteLater : Ctx := ⟨21, 1700000660000000000, minuteLater_timestamp⟩

/-- The second validator reports five times the price, and leads from the
second window on. -/
def captureSteps : List (OracleStep referenceKeeper) :=
  [.submitFeed boundaryCtx firstLeads (firstFeed agreedPrice),
    .submitFeed boundaryCtx firstLeads (secondFeed "5.0"),
    .endBlock boundaryCtx firstLeads,
    .submitFeed captureCtx secondLeads (firstFeed agreedPrice),
    .submitFeed captureCtx secondLeads (secondFeed "5.0"),
    .endBlock captureCtx secondLeads]

def capturedAt (time : Time) : Bool := time == captureCtx.blockTime

theorem captureSteps_message
    {history : OracleHistory referenceKeeper} {start store : OracleStore}
    (hreplay : replay (oracleStep referenceKeeper) [] start captureSteps =
      some (history, store))
    {before : OracleStore} {ctx : Ctx} {staking : StakingView referenceSdk}
    {msg : MsgSubmitFeed}
    (hmem : (before, OracleStep.submitFeed ctx staking msg) ∈ history) :
    Feeder.IsRivalFeed msg := by
  have hlabel := label_mem_of_replay hreplay hmem
  simp only [captureSteps, List.mem_cons, reduceCtorEq, List.not_mem_nil,
    false_or, or_false] at hlabel
  rcases hlabel with hlabel | hlabel | hlabel | hlabel <;> cases hlabel
  · exact .inl rfl
  · exact .inr rfl
  · exact .inl rfl
  · exact .inr rfl

theorem submittedBelow_of_rivals {history : OracleHistory referenceKeeper}
    (hrivals : ∀ before ctx staking msg,
      (before, OracleStep.submitFeed ctx staking msg) ∈ history →
      Feeder.IsRivalFeed msg) :
    SubmittedBelow referenceKeeper "VTX:USD" 5 history := by
  intro val text price hlatest hprice
  obtain ⟨before, ctx, staking, msg, hmem, -, -, rfl⟩ :=
    exists_message_of_latestPrice hlatest
  have hlimit : ∀ text ∈ [agreedPrice, "5.0"],
      (referenceKeeper.sdk.legacyNewDecFromStr text).toOption.all
        (fun value => decide (priceValue value ≤ 5)) = true := by
    decide +kernel
  have htext : msg.price ∈ [agreedPrice, "5.0"] := by
    rcases hrivals before ctx staking msg hmem with rfl | rfl <;> decide
  have hvalue := hlimit _ htext
  rw [toOption_eq_some_iff.mpr hprice] at hvalue
  simpa using hvalue

theorem captured_window_moves_twap :
    ∃ history store result,
      Reached referenceKeeper history store ∧
      history.map Prod.snd = captureSteps.reverse ∧
      getTWAP referenceSdk minuteLater store "VTX:USD" 3600000000000 =
        .ok result ∧
      result.raw = 1372727272727272727 ∧
      10 / 11 - 1 / 10 ^ 18 ≤ priceValue result ∧
      priceValue result ≤ 76 / 55 + 1 / 10 ^ 18 := by
  have hfacts : (initGenesis referenceKeeper boundaryCtx firstLeads
      TypedStore.empty singlePairGenesis).toOption.any (fun start =>
        (replay (oracleStep referenceKeeper) [] start captureSteps).any
          fun r => decide (blockTimes r.1 =
              [captureCtx.blockTime, boundaryCtx.blockTime]) &&
            (r.1.all fun entry => (openWindow referenceSdk boundaryCtx
              firstLeads (getParams entry.1)).toOption.all fun w =>
                decide (w.Qualifies entry.1 "VTX:USD" →
                  HonestMajority referenceKeeper firstIsHonest
                    (w.countedFeeds entry.1 "VTX:USD"))) &&
            decide (capturedShare capturedAt minuteLater.blockTime
              (averagedEntries minuteLater r.2 "VTX:USD" 3600000000000) =
                1 / 11) &&
            (getTWAP referenceSdk minuteLater r.2 "VTX:USD"
              3600000000000).toOption.any fun result =>
                decide (result.raw = 1372727272727272727)) = true := by
    decide +kernel
  obtain ⟨start, hinit, hreplayed⟩ := exists_ok_of_any hfacts
  obtain ⟨⟨history, store⟩, hreplay, hchecked⟩ := exists_some_of_any hreplayed
  simp only [Bool.and_eq_true, decide_eq_true_eq, List.all_eq_true,
    Option.all_eq_true, toOption_eq_some_iff] at hchecked
  obtain ⟨⟨⟨htimes, hmajority⟩, hshare⟩, hquery⟩ := hchecked
  obtain ⟨result, hget, hraw⟩ := exists_ok_of_any hquery
  have hreached : Reached referenceKeeper history store :=
    ⟨boundaryCtx, firstLeads, singlePairGenesis, start, hinit,
      run_of_replay Run.start hreplay⟩
  have hlabels : history.map Prod.snd = captureSteps.reverse :=
    labels_of_replay hreplay
  have hclock : ClockAdvances (blockTimes history) := by
    rw [htimes]
    exact ⟨by decide, by decide⟩
  have hrivals : ∀ {older before w}, Publication referenceKeeper history
      "VTX:USD" older before w → ∀ before ctx staking msg,
        (before, OracleStep.submitFeed ctx staking msg) ∈ older →
        Feeder.IsRivalFeed msg := by
    intro older _ w hpublication before ctx staking msg hmem
    obtain ⟨newer, staking', hsplit, -⟩ := hpublication.closed
    apply captureSteps_message hreplay
    rw [hsplit]
    exact List.mem_append_right newer (List.mem_cons_of_mem _ hmem)
  have hhonest : HonestPublications referenceKeeper firstIsHonest "VTX:USD"
      (fun time => Averaged minuteLater store "VTX:USD" 3600000000000 time ∧
        capturedAt time = false) (fun _ => (1, 51 / 50)) history := by
    intro older before w hpublication htime
    refine ⟨honestFeeders_of_rivals (hrivals hpublication), ?_⟩
    obtain ⟨newer, staking, hsplit, hopen⟩ := hpublication.closed
    have hmem : (before, OracleStep.endBlock w.ctx staking) ∈ history := by
      rw [hsplit]
      exact List.mem_append_right newer List.mem_cons_self
    have hlabel := label_mem_of_replay hreplay hmem
    simp only [captureSteps, List.mem_cons, reduceCtorEq, List.not_mem_nil,
      false_or, or_false] at hlabel
    rcases hlabel with hlabel | hlabel <;>
      obtain ⟨hctx, rfl⟩ := OracleStep.endBlock.inj hlabel
    · rw [hctx] at hopen
      exact hmajority _ hmem w hopen hpublication.qualifies
    · rw [hctx] at htime
      exact absurd htime.2 (by decide)
  have hbounds := twap_resists_capture hreached hclock hhonest
    (fun _ _ _ hpublication _ =>
      submittedBelow_of_rivals (hrivals hpublication)) hget
  simp only [hshare] at hbounds
  refine ⟨history, store, result, hreached, hlabels, hget, by simpa using hraw,
    ?_, ?_⟩
  · linarith [hbounds.1]
  · linarith [hbounds.2]

end Oracle
end Vertix

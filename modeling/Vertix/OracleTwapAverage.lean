import Vertix.OracleTwap
import Vertix.OraclePanicSafety
import Vertix.StepFunction
import Mathlib.Tactic

/-!
# The average over the requested window

The weights of `Keeper.GetTWAP` are exact, so that its result is the rounded
average of the kept entries over all the time since the first of them.  The
first kept entry is not cut at the start of the window: its share before the
start pulls the average away from the integral of the price over the window,
towards the price of that entry.
-/

namespace Vertix
namespace Oracle

/-! ## The average over the window -/

def entryPrice (sdk : Sdk) (e : TWAPEntry) : ℚ :=
  match sdk.legacyNewDecFromStr e.price with
  | .ok price => price.toRat
  | .error _ => 0

def pricePoint (sdk : Sdk) (e : TWAPEntry) : ℚ × ℚ :=
  ((e.blockTime : ℚ), entryPrice sdk e)

/-- Price of the latest entry at or before a time. -/
noncomputable def priceAt (sdk : Sdk) (history : List TWAPEntry) : ℝ → ℝ :=
  StepFunction.valueAt
    ((history.map (pricePoint sdk)).map StepFunction.realPoint)

/-- The start of the averaged interval: that of the window, or the first
entry at or before `now` if it is later. -/
def averageStart (now : Time) (window : ℤ) (history : List TWAPEntry) : Time :=
  match history.find? fun e => e.blockTime ≤ now with
  | some first => max (now - window) first.blockTime
  | none => now - window

/-- The price integrated over the interval and divided by its length, or the
latest price when the interval is empty. -/
noncomputable def windowAverage (sdk : Sdk) (now : Time) (window : ℤ)
    (history : List TWAPEntry) : ℝ :=
  let start := averageStart now window history
  if start = now then priceAt sdk history (now : ℝ)
  else (∫ t in (start : ℝ)..(now : ℝ), priceAt sdk history t) /
    ((now : ℝ) - (start : ℝ))

/-- The entry in force at a time. -/
def prevailing (time : Time) (history : List TWAPEntry) : Option TWAPEntry :=
  (history.filter fun e => e.blockTime ≤ time).getLast?

/-- The exact average: the entry in force at the start counts from the start
on, the later ones from their own times. -/
def exactAverage (sdk : Sdk) (now : Time) (window : ℤ)
    (history : List TWAPEntry) : ℚ :=
  let start := averageStart now window history
  match prevailing start history with
  | none => 0
  | some leading =>
      if start = now then entryPrice sdk leading
      else
        StepFunction.area (((start : ℚ), entryPrice sdk leading) ::
          (history.filter fun e => start < e.blockTime ∧ e.blockTime ≤ now).map
            (pricePoint sdk)) (now : ℚ) / ((now : ℚ) - start)

/-- The share of the time since an entry which passed before the start. -/
def leadShare (now start : Time) (leading : TWAPEntry) : ℚ :=
  ((start : ℚ) - leading.blockTime) / ((now : ℚ) - leading.blockTime)

/-- The history around an averaged interval. -/
structure Cut (now start : Time) (history older : List TWAPEntry)
    (leading : TWAPEntry) (rest future : List TWAPEntry) : Prop where
  parts : history = older ++ (leading :: rest) ++ future
  ascending : history.Pairwise fun a b => a.blockTime < b.blockTime
  leading_reached : leading.blockTime ≤ start
  start_le : start ≤ now
  inside : ∀ e ∈ rest, start < e.blockTime ∧ e.blockTime ≤ now
  unreached : ∀ e ∈ future, now < e.blockTime

theorem Kept.averageStart_eq {now windowStart : Time} {window : ℤ}
    {history older rest future : List TWAPEntry} {leading : TWAPEntry}
    (hkept : Kept now windowStart history older (leading :: rest) future)
    (hascending : history.Pairwise fun a b => a.blockTime < b.blockTime)
    (hwindow : windowStart = now - window) :
    averageStart now window history = max windowStart leading.blockTime := by
  have hreached := hkept.reached leading (by simp)
  unfold averageStart
  cases older with
  | nil =>
      rw [hkept.parts]
      simp [hreached, hwindow]
  | cons first older =>
      obtain ⟨e, he, hle⟩ := hkept.hidden (by simp)
      rw [List.head?_cons, Option.mem_some_iff] at he
      subst he
      rw [hkept.parts, List.cons_append, List.cons_append] at hascending ⊢
      have hlt := (List.pairwise_cons.mp hascending).1 leading (by simp)
      have hfirst : first.blockTime ≤ now := (hlt.trans_le hreached).le
      rw [List.find?_cons_of_pos (by simpa using hfirst)]
      simp only [← hwindow]
      rw [max_eq_left hle, max_eq_left (hlt.le.trans hle)]

theorem Kept.cut {now windowStart : Time} {window : ℤ}
    {history older rest future : List TWAPEntry} {leading : TWAPEntry}
    (hkept : Kept now windowStart history older (leading :: rest) future)
    (hascending : history.Pairwise fun a b => a.blockTime < b.blockTime)
    (hwindow : windowStart = now - window) (hpos : 0 < window) :
    Cut now (averageStart now window history) history older leading rest
      future := by
  have hstart := hkept.averageStart_eq hascending hwindow
  have hreached := hkept.reached leading (by simp)
  refine ⟨hkept.parts, hascending, ?_, ?_, ?_, hkept.unreached⟩
  · rw [hstart]
    exact le_max_right _ _
  · rw [hstart]
    have hbefore : windowStart ≤ now := by
      rw [hwindow]
      exact sub_le_self now hpos.le
    exact max_le hbefore hreached
  · intro e he
    have horder := hascending
    rw [hkept.parts, List.append_assoc, List.pairwise_append] at horder
    have hlt := (List.pairwise_cons.mp horder.2.1).1 e (by simp [he])
    rw [hstart]
    exact ⟨max_lt (hkept.inside e he) hlt, hkept.reached e (by simp [he])⟩

namespace Cut

variable {sdk : Sdk} {now start : Time} {window : ℤ}
variable {history older rest future : List TWAPEntry} {leading : TWAPEntry}

theorem older_lt (hcut : Cut now start history older leading rest future) :
    ∀ e ∈ older, e.blockTime < leading.blockTime := by
  intro e he
  have horder := hcut.ascending
  rw [hcut.parts, List.append_assoc, List.pairwise_append] at horder
  exact horder.2.2 e he leading (by simp)

theorem rest_ascending
    (hcut : Cut now start history older leading rest future) :
    rest.Pairwise fun a b => a.blockTime < b.blockTime := by
  have horder := hcut.ascending
  rw [hcut.parts, List.append_assoc, List.pairwise_append,
    List.cons_append, List.pairwise_cons, List.pairwise_append] at horder
  exact horder.2.1.2.1

theorem prevailing_eq
    (hcut : Cut now start history older leading rest future) :
    prevailing start history = some leading := by
  have hafter : ∀ e ∈ rest ++ future, ¬ e.blockTime ≤ start := by
    intro e he
    rcases List.mem_append.mp he with h | h
    · exact not_le.mpr (hcut.inside e h).1
    · exact not_le.mpr (hcut.start_le.trans_lt (hcut.unreached e h))
  have hnone : (rest ++ future).filter (fun e => e.blockTime ≤ start) = [] := by
    rw [List.filter_eq_nil_iff]
    simpa using hafter
  unfold prevailing
  rw [hcut.parts, List.append_assoc, List.cons_append, List.filter_append,
    List.filter_cons_of_pos (by simpa using hcut.leading_reached), hnone]
  simp

theorem filter_inside
    (hcut : Cut now start history older leading rest future) :
    (history.filter fun e => start < e.blockTime ∧ e.blockTime ≤ now) =
      rest := by
  have holder : older.filter
      (fun e => start < e.blockTime ∧ e.blockTime ≤ now) = [] := by
    rw [List.filter_eq_nil_iff]
    intro e he hinside
    have hlt := (hcut.older_lt e he).trans_le hcut.leading_reached
    have hgt : start < e.blockTime := (of_decide_eq_true hinside).1
    exact lt_asymm hlt hgt
  have hrest : rest.filter
      (fun e => start < e.blockTime ∧ e.blockTime ≤ now) = rest := by
    rw [List.filter_eq_self]
    intro e he
    simpa using hcut.inside e he
  have hfuture : future.filter
      (fun e => start < e.blockTime ∧ e.blockTime ≤ now) = [] := by
    rw [List.filter_eq_nil_iff]
    intro e he hinside
    have hle : e.blockTime ≤ now := (of_decide_eq_true hinside).2
    exact not_le.mpr (hcut.unreached e he) hle
  have hleading : ¬ (start < leading.blockTime ∧ leading.blockTime ≤ now) :=
    fun h => not_le.mpr h.1 hcut.leading_reached
  rw [hcut.parts, List.filter_append, List.filter_append, holder, hfuture,
    List.filter_cons_of_neg (by simpa using hleading), hrest]
  simp

/-- From the start to `now` the price is read off the leading entry, moved up
to the start, and the entries after it. -/
theorem priceAt_eq (hcut : Cut now start history older leading rest future)
    {t : ℝ} (hlow : (start : ℝ) ≤ t) (hhigh : t ≤ (now : ℝ)) :
    priceAt sdk history t =
      StepFunction.valueAt (((start : ℝ), ((entryPrice sdk leading : ℚ) : ℝ)) ::
        (rest.map (pricePoint sdk)).map StepFunction.realPoint) t := by
  have hreached : (leading.blockTime : ℝ) ≤ (start : ℝ) := by
    exact_mod_cast hcut.leading_reached
  have hpoint : (StepFunction.realPoint (pricePoint sdk leading)).1 ≤
      (start : ℝ) := by
    simpa [StepFunction.realPoint, pricePoint] using hreached
  have hunreached : ∀ point ∈
      (future.map (pricePoint sdk)).map StepFunction.realPoint,
      t < point.1 := by
    intro point hmem
    rw [List.map_map, List.mem_map] at hmem
    obtain ⟨e, he, rfl⟩ := hmem
    have hafter : (now : ℝ) < (e.blockTime : ℝ) := by
      exact_mod_cast hcut.unreached e he
    simpa [StepFunction.realPoint, pricePoint] using hhigh.trans_lt hafter
  unfold priceAt
  rw [hcut.parts]
  simp only [List.map_append, List.map_cons]
  rw [StepFunction.valueAt_append_of_lt _ hunreached,
    StepFunction.valueAt_append_of_le _ _ (hpoint.trans hlow),
    ← StepFunction.valueAt_start _ hpoint hlow]
  rfl

theorem ascending_points (sdk : Sdk)
    (hcut : Cut now start history older leading rest future) :
    StepFunction.Ascending
      (((start : ℝ), ((entryPrice sdk leading : ℚ) : ℝ)) ::
        (rest.map (pricePoint sdk)).map StepFunction.realPoint) (now : ℝ) := by
  rw [List.map_map]
  constructor
  · rw [List.pairwise_cons, List.pairwise_map]
    constructor
    · intro point hmem
      obtain ⟨e, he, rfl⟩ := List.mem_map.mp hmem
      have hlt : (start : ℝ) < (e.blockTime : ℝ) := by
        exact_mod_cast (hcut.inside e he).1
      simpa [StepFunction.realPoint, pricePoint] using hlt
    · apply hcut.rest_ascending.imp
      intro a b hlt
      have hcast : (a.blockTime : ℝ) < (b.blockTime : ℝ) := by
        exact_mod_cast hlt
      simpa [StepFunction.realPoint, pricePoint] using hcast
  · intro point hmem
    rcases List.mem_cons.mp hmem with rfl | hmem
    · exact Int.cast_le.mpr hcut.start_le
    · obtain ⟨e, he, rfl⟩ := List.mem_map.mp hmem
      have hle : (e.blockTime : ℝ) ≤ (now : ℝ) := by
        exact_mod_cast (hcut.inside e he).2
      simpa [StepFunction.realPoint, pricePoint] using hle

/-- The integral over the interval is the area of the cut points. -/
theorem integral_priceAt
    (hcut : Cut now start history older leading rest future) :
    ∫ t in (start : ℝ)..(now : ℝ), priceAt sdk history t =
      ((StepFunction.area (((start : ℚ), entryPrice sdk leading) ::
        rest.map (pricePoint sdk)) (now : ℚ) : ℚ) : ℝ) := by
  have hle : (start : ℝ) ≤ (now : ℝ) := by exact_mod_cast hcut.start_le
  have hcongr : Set.EqOn (priceAt sdk history)
      (StepFunction.valueAt
        (((start : ℝ), ((entryPrice sdk leading : ℚ) : ℝ)) ::
          (rest.map (pricePoint sdk)).map StepFunction.realPoint))
      (Set.uIcc (start : ℝ) (now : ℝ)) := by
    intro t ht
    rw [Set.uIcc_of_le hle] at ht
    exact hcut.priceAt_eq ht.1 ht.2
  have hintegral :=
    (StepFunction.integral_valueAt (hcut.ascending_points sdk)).2
  rw [intervalIntegral.integral_congr hcongr, hintegral,
    StepFunction.cast_area]
  simp [StepFunction.realPoint]

end Cut

theorem Cut.exactAverage_of_single {sdk : Sdk} {now : Time} {window : ℤ}
    {history older future : List TWAPEntry} {leading : TWAPEntry}
    (hcut : Cut now (averageStart now window history) history older leading []
      future) :
    exactAverage sdk now window history = entryPrice sdk leading := by
  unfold exactAverage
  simp only [hcut.prevailing_eq, hcut.filter_inside]
  split_ifs with hempty
  · rfl
  · have hlength :
        (now : ℚ) - ((averageStart now window history : ℤ) : ℚ) ≠ 0 := by
      rw [sub_ne_zero]
      exact_mod_cast Ne.symm hempty
    simp only [List.map_nil, StepFunction.area, StepFunction.nextTime,
      add_zero]
    rw [mul_div_assoc, div_self hlength, mul_one]

/-- The average over all the time since the leading entry is the average over
the interval, moved towards the leading price by the share of that time which
lies before the start. -/
theorem Cut.area_div_eq {sdk : Sdk} {now : Time} {window : ℤ}
    {history older rest future : List TWAPEntry} {leading : TWAPEntry}
    (hcut : Cut now (averageStart now window history) history older leading
      rest future)
    (hlong : averageStart now window history < now) :
    StepFunction.area ((leading :: rest).map (pricePoint sdk)) (now : ℚ) /
        ((now : ℚ) - leading.blockTime) =
      exactAverage sdk now window history +
        (entryPrice sdk leading - exactAverage sdk now window history) *
          leadShare now (averageStart now window history) leading := by
  have hlong' : ((averageStart now window history : ℤ) : ℚ) < (now : ℚ) := by
    exact_mod_cast hlong
  have hreached : (leading.blockTime : ℚ) ≤
      ((averageStart now window history : ℤ) : ℚ) := by
    exact_mod_cast hcut.leading_reached
  have hlength :
      (now : ℚ) - ((averageStart now window history : ℤ) : ℚ) ≠ 0 := by
    linarith
  have hsince : (now : ℚ) - leading.blockTime ≠ 0 := by linarith
  have harea : StepFunction.area
      ((((averageStart now window history : ℤ) : ℚ), entryPrice sdk leading) ::
        rest.map (pricePoint sdk)) (now : ℚ) =
      StepFunction.area ((leading :: rest).map (pricePoint sdk)) (now : ℚ) -
        entryPrice sdk leading * (((averageStart now window history : ℤ) : ℚ) -
          leading.blockTime) :=
    StepFunction.area_start (pricePoint sdk leading)
      (rest.map (pricePoint sdk)) _ _
  have hexact : exactAverage sdk now window history *
      ((now : ℚ) - ((averageStart now window history : ℤ) : ℚ)) =
        StepFunction.area
          ((((averageStart now window history : ℤ) : ℚ),
            entryPrice sdk leading) :: rest.map (pricePoint sdk)) (now : ℚ) := by
    unfold exactAverage
    simp only [hcut.prevailing_eq, hcut.filter_inside, if_neg hlong.ne]
    exact div_mul_cancel₀ _ hlength
  have hshare : leadShare now (averageStart now window history) leading *
      ((now : ℚ) - leading.blockTime) =
        ((averageStart now window history : ℤ) : ℚ) - leading.blockTime :=
    div_mul_cancel₀ _ hsince
  rw [div_eq_iff hsince, add_mul, mul_assoc, hshare]
  linear_combination -hexact - harea

/-- The exact average is the integral average. -/
theorem Cut.cast_exactAverage {sdk : Sdk} {now : Time} {window : ℤ}
    {history older rest future : List TWAPEntry} {leading : TWAPEntry}
    (hcut : Cut now (averageStart now window history) history older leading
      rest future) :
    ((exactAverage sdk now window history : ℚ) : ℝ) =
      windowAverage sdk now window history := by
  unfold exactAverage windowAverage
  simp only [hcut.prevailing_eq, hcut.filter_inside]
  split_ifs with hempty
  · have hnone : rest = [] := by
      apply List.eq_nil_iff_forall_not_mem.mpr
      intro e he
      have hinside := hcut.inside e he
      rw [hempty] at hinside
      exact not_le.mpr hinside.1 hinside.2
    have hnow : ((averageStart now window history : ℤ) : ℝ) = (now : ℝ) := by
      exact_mod_cast hempty
    rw [hcut.priceAt_eq hnow.le le_rfl, hnone,
      StepFunction.valueAt_of_reached hnow.le (by simp)]
  · rw [hcut.integral_priceAt]
    push_cast
    rfl

/-! ## What the loop adds up -/

/-- The duration to the successor of each entry fits a `time.Duration`. -/
def DurationsFit (now : Time) : List TWAPEntry → Prop
  | [] => True
  | e :: rest =>
      (0 ≤ intervalEnd now rest - e.blockTime ∧
        intervalEnd now rest - e.blockTime < 2 ^ 63) ∧
      DurationsFit now rest

theorem durationsFit {now : Time} {entries : List TWAPEntry}
    (hascending : entries.Pairwise fun a b => a.blockTime < b.blockTime)
    (hrange : TimesInRange entries) (hreached : ∀ e ∈ entries, e.blockTime ≤ now)
    (hlast : ∀ last ∈ entries.getLast?, now - last.blockTime < 2 ^ 63) :
    DurationsFit now entries := by
  induction entries with
  | nil => trivial
  | cons e rest ih =>
      obtain ⟨hfirst, hrest⟩ := List.pairwise_cons.mp hascending
      have htail : DurationsFit now rest := by
        apply ih hrest (fun other h => hrange other (by simp [h]))
          (fun other h => hreached other (by simp [h]))
        intro last hmem
        apply hlast last
        cases rest with
        | nil => simp at hmem
        | cons next more => simpa using hmem
      refine ⟨?_, htail⟩
      cases rest with
      | nil =>
          exact ⟨sub_nonneg.mpr (hreached e (by simp)), hlast e (by simp)⟩
      | cons next more =>
          have hlt : e.blockTime < next.blockTime := hfirst next (by simp)
          have hnext := hrange next (by simp)
          have he := hrange e (by simp)
          simp only [intervalEnd]
          constructor <;> linarith

theorem entryPrice_of_parsed {sdk : Sdk} {e : TWAPEntry} {price : LegacyDec}
    (hparsed : sdk.legacyNewDecFromStr e.price = .ok price) :
    entryPrice sdk e = (price.raw : ℚ) / 10 ^ 18 := by
  rw [entryPrice, hparsed]
  norm_num [FixedPoint.toRat]

/-- The weight of an entry is its whole number of nanoseconds. -/
theorem weight_raw {now : Time} {e : TWAPEntry} {rest : List TWAPEntry}
    (hfit : DurationsFit now (e :: rest)) :
    (legacyNewDec
      (Int64.ofInt (timeSub (intervalEnd now rest) e.blockTime))).raw =
        (intervalEnd now rest - e.blockTime) * 10 ^ 18 := by
  have hsub : timeSub (intervalEnd now rest) e.blockTime =
      intervalEnd now rest - e.blockTime := by
    have hlow := hfit.1.1
    have hhigh := hfit.1.2
    rw [timeSub, min_eq_right (by linarith), max_eq_right (by linarith)]
  have hround : (Int64.ofInt (intervalEnd now rest - e.blockTime)).toInt =
      intervalEnd now rest - e.blockTime :=
    Int64.toInt_ofInt_of_le (by linarith [hfit.1.1]) hfit.1.2
  simp only [legacyNewDec, hsub, hround]

/-- The weighted sum grows by the area under the entries, exactly, and the
total weight by the time they cover. -/
theorem accumulate_eq {sdk : Sdk} {now : Time} {entries : List TWAPEntry}
    {weightedSum totalWeight weightedSum' totalWeight' : LegacyDec}
    (hfit : DurationsFit now entries)
    (hloop : accumulate sdk now weightedSum totalWeight entries =
      .ok (weightedSum', totalWeight')) :
    (weightedSum'.raw : ℚ) = weightedSum.raw + 10 ^ 18 *
        StepFunction.area (entries.map (pricePoint sdk)) (now : ℚ) ∧
      (totalWeight'.raw : ℚ) = totalWeight.raw +
        10 ^ 18 * ((now : ℚ) - intervalEnd now entries) := by
  induction entries generalizing weightedSum totalWeight with
  | nil =>
      simp only [accumulate, pure_eq_ok_iff, Prod.mk.injEq] at hloop
      rw [hloop.1, hloop.2]
      simp [StepFunction.area, intervalEnd]
  | cons e rest ih =>
      have hweight := weight_raw hfit
      simp only [accumulate, bind_eq_ok_iff, Exec.ofExcept_eq_ok_iff,
        plainError_eq_ok_iff, Exec.ofOption_eq_ok_iff] at hloop
      obtain ⟨price, hparsed, product, hproduct, weightedSum₁, hsum,
        totalWeight₁, htotal, hloop⟩ := hloop
      -- a whole weight makes the rounded product exact
      have hexact : product.raw =
          price.raw * (intervalEnd now rest - e.blockTime) := by
        rw [FixedPoint.mul?, FixedPoint.checked_eq_some_iff, hweight,
          ← mul_assoc] at hproduct
        rw [hproduct]
        exact roundHalfEvenInt_mul _ (by norm_num)
      rw [FixedPoint.add?, FixedPoint.checked_eq_some_iff, hexact] at hsum
      rw [FixedPoint.add?, FixedPoint.checked_eq_some_iff, hweight] at htotal
      have hnext : ((intervalEnd now rest : ℤ) : ℚ) =
          StepFunction.nextTime (rest.map (pricePoint sdk)) (now : ℚ) := by
        cases rest <;> rfl
      obtain ⟨hsum', htotal'⟩ := ih hfit.2 hloop
      constructor
      · rw [hsum', hsum, List.map_cons, StepFunction.area, ← hnext]
        simp only [pricePoint, entryPrice_of_parsed hparsed]
        push_cast
        ring
      · rw [htotal', htotal]
        simp only [intervalEnd]
        push_cast
        ring

theorem getTWAP_eq_ok {sdk : Sdk} {ctx : Ctx} {store : OracleStore}
    {pair : String} {window : Int64} {result : LegacyDec}
    (hget : getTWAP sdk ctx store pair window = .ok result) :
    let kept := keptEntries ctx.blockTime (ctx.blockTime + (-window).toInt)
      (twapHistory store pair)
    ∃ last, kept.getLast? = some last ∧
      timeSub ctx.blockTime last.blockTime ≤
        (secondsDuration (getParams store).maxPriceAge).toInt ∧
      (kept = [last] ∧ sdk.legacyNewDecFromStr last.price = .ok result ∨
        kept.length ≠ 1 ∧ ∃ weightedSum totalWeight,
          accumulate sdk ctx.blockTime legacyZeroDec legacyZeroDec kept =
              .ok (weightedSum, totalWeight) ∧
            totalWeight.raw ≠ 0 ∧
            weightedSum.quo? totalWeight = some result) := by
  intro kept
  simp only [getTWAP, getTWAPFrom, bind_eq_ok_iff, Exec.ofExcept_eq_ok_iff,
    rejectIf_eq_ok_iff, exists_const] at hget
  obtain ⟨-, hget⟩ := hget
  cases hlast : kept.getLast? with
  | none =>
      rw [hlast] at hget
      simp at hget
  | some last =>
      simp only [kept] at hlast
      rw [hlast] at hget
      simp only [bind_eq_ok_iff, Exec.ofExcept_eq_ok_iff,
        rejectIf_eq_ok_iff, exists_const, not_lt] at hget
      obtain ⟨hfresh, hget⟩ := hget
      refine ⟨last, rfl, hfresh, ?_⟩
      split_ifs at hget with hone
      · obtain ⟨only, honly⟩ := List.length_eq_one_iff.mp hone
        rw [honly] at hlast
        simp only [List.getLast?_singleton, Option.some.injEq] at hlast
        rw [← hlast]
        refine Or.inl ⟨honly, ?_⟩
        simpa [hlast] using hget
      · obtain ⟨⟨weightedSum, totalWeight⟩, hloop, hget⟩ :=
          bind_eq_ok_iff.mp hget
        split_ifs at hget with hzero
        · simp at hget
        · exact Or.inr ⟨hone, weightedSum, totalWeight, hloop, hzero,
            by simpa using hget⟩

/-- A price which passed the age check is at most a duration old: a saturated
difference is odd, and the limit is even. -/
theorem age_lt_of_not_stale {maxAge : Int64} {now published : ℤ}
    (hfresh : timeSub now published ≤ (secondsDuration maxAge).toInt) :
    now - published < 2 ^ 63 := by
  rw [secondsDuration_eq_bmod, Int.bmod_def, timeSub] at hfresh
  split_ifs at hfresh with hsmall <;> omega

/-! ## The result against the window average -/

/-- A decimal is a number rounded as `Quo` rounds. -/
def RoundsTo (result : LegacyDec) (number : ℚ) : Prop :=
  result.raw = roundQuotient (10 ^ 18) number

/-- A completed query has cut the history around the averaged interval. -/
theorem exists_cut_of_getTWAP {sdk : Sdk} {ctx : Ctx} {store : OracleStore}
    {pair : String} {window : Int64} {result : LegacyDec}
    (hwindow : 0 < window.toInt) (hown : OwnHistory store pair)
    (htimes : TimesInRange (twapHistory store pair))
    (hget : getTWAP sdk ctx store pair window = .ok result) :
    ∃ older leading rest future,
      keptEntries ctx.blockTime (ctx.blockTime + (-window).toInt)
          (twapHistory store pair) = leading :: rest ∧
        Cut ctx.blockTime
          (averageStart ctx.blockTime window.toInt (twapHistory store pair))
          (twapHistory store pair) older leading rest future := by
  have hascending := twapHistory_ascending hown htimes
  have hnegated : (-window).toInt = -window.toInt := by
    have hlow := window.le_toInt
    have hhigh := window.toInt_lt
    rw [Int64.toInt_neg, Int.bmod_def]
    split_ifs <;> omega
  have hwindowStart :
      ctx.blockTime + (-window).toInt = ctx.blockTime - window.toInt := by
    rw [hnegated, sub_eq_add_neg]
  obtain ⟨last, hlast, -⟩ := getTWAP_eq_ok hget
  obtain ⟨older, future, hkept⟩ := exists_kept ctx.blockTime
    (ctx.blockTime + (-window).toInt) hascending
  cases hentries : keptEntries ctx.blockTime
      (ctx.blockTime + (-window).toInt) (twapHistory store pair) with
  | nil =>
      rw [hentries] at hlast
      simp at hlast
  | cons leading rest =>
      rw [hentries] at hkept
      exact ⟨older, leading, rest, future, rfl,
        hkept.cut hascending hwindowStart hwindow⟩

/-- The quotient of the loop is the rounded average of the kept entries over
all the time since the first of them. -/
theorem loop_result_eq {sdk : Sdk} {now : Time} {maxAge : Int64}
    {rest : List TWAPEntry} {leading last : TWAPEntry}
    {weightedSum totalWeight result : LegacyDec}
    (hascending : (leading :: rest).Pairwise
      fun a b => a.blockTime < b.blockTime)
    (htimes : TimesInRange (leading :: rest))
    (hreached : ∀ e ∈ leading :: rest, e.blockTime ≤ now)
    (hbefore : leading.blockTime < now)
    (hlast : (leading :: rest).getLast? = some last)
    (hfresh : timeSub now last.blockTime ≤ (secondsDuration maxAge).toInt)
    (hloop : accumulate sdk now legacyZeroDec legacyZeroDec (leading :: rest) =
      .ok (weightedSum, totalWeight))
    (hquo : weightedSum.quo? totalWeight = some result) :
    result.raw = roundQuotient (10 ^ 18)
      (StepFunction.area ((leading :: rest).map (pricePoint sdk)) (now : ℚ) /
        ((now : ℚ) - leading.blockTime)) := by
  have hfit : DurationsFit now (leading :: rest) := by
    apply durationsFit hascending htimes hreached
    intro other hother
    rw [hlast, Option.mem_some_iff] at hother
    rw [← hother]
    exact age_lt_of_not_stale hfresh
  obtain ⟨hsum, htotal⟩ := accumulate_eq hfit hloop
  simp only [legacyZeroDec, Int.cast_zero, zero_add, intervalEnd] at hsum htotal
  have hsince : (0 : ℚ) < (now : ℚ) - leading.blockTime := by
    rw [sub_pos]
    exact_mod_cast hbefore
  have hpos : 0 < totalWeight.raw := by
    have hcast : (0 : ℚ) < (totalWeight.raw : ℚ) := by
      rw [htotal]
      positivity
    exact_mod_cast hcast
  rw [FixedPoint.raw_of_quo? hpos hquo, hsum, htotal,
    mul_div_mul_left _ _ (by norm_num)]

theorem Cut.result_eq {sdk : Sdk} {now start : Time} {maxAge : Int64}
    {history older rest future : List TWAPEntry} {leading last : TWAPEntry}
    {weightedSum totalWeight result : LegacyDec}
    (hcut : Cut now start history older leading rest future)
    (hlong : start < now) (htimes : TimesInRange history)
    (hlast : (leading :: rest).getLast? = some last)
    (hfresh : timeSub now last.blockTime ≤ (secondsDuration maxAge).toInt)
    (hloop : accumulate sdk now legacyZeroDec legacyZeroDec (leading :: rest) =
      .ok (weightedSum, totalWeight))
    (hquo : weightedSum.quo? totalWeight = some result) :
    result.raw = roundQuotient (10 ^ 18)
      (StepFunction.area ((leading :: rest).map (pricePoint sdk)) (now : ℚ) /
        ((now : ℚ) - leading.blockTime)) := by
  have hbefore : leading.blockTime < now :=
    hcut.leading_reached.trans_lt hlong
  have hsublist : (leading :: rest).Sublist history := by
    rw [hcut.parts, List.append_assoc]
    exact (List.sublist_append_left _ _).trans (List.sublist_append_right _ _)
  have hreached : ∀ e ∈ leading :: rest, e.blockTime ≤ now := by
    intro e he
    rcases List.mem_cons.mp he with rfl | he
    · exact hbefore.le
    · exact (hcut.inside e he).2
  exact loop_result_eq (hcut.ascending.sublist hsublist)
    (fun e he => htimes e (hsublist.subset he)) hreached hbefore hlast hfresh
    hloop hquo

/-- A completed query returns the rounded average over the window exactly if
the rounding hides the share of the leading entry before the start. -/
theorem getTWAP_is_window_average_iff {sdk : Sdk} {ctx : Ctx}
    {store : OracleStore} {pair : String} {window : Int64}
    {result : LegacyDec} (hwindow : 0 < window.toInt)
    (hown : OwnHistory store pair)
    (htimes : TimesInRange (twapHistory store pair))
    (hget : getTWAP sdk ctx store pair window = .ok result) :
    let history := twapHistory store pair
    let start := averageStart ctx.blockTime window.toInt history
    ∃ (average : ℚ) (leading : TWAPEntry),
      (average : ℝ) =
          windowAverage sdk ctx.blockTime window.toInt history ∧
        prevailing start history = some leading ∧
        (RoundsTo result average ↔
          roundQuotient (10 ^ 18) (average +
              (entryPrice sdk leading - average) *
                leadShare ctx.blockTime start leading) =
            roundQuotient (10 ^ 18) average) := by
  intro history start
  obtain ⟨older, leading, rest, future, hentries, hcut⟩ :=
    exists_cut_of_getTWAP hwindow hown htimes hget
  obtain ⟨last, hlast, hfresh, hresult⟩ := getTWAP_eq_ok hget
  rw [hentries] at hlast hresult
  refine ⟨exactAverage sdk ctx.blockTime window.toInt history, leading,
    hcut.cast_exactAverage, hcut.prevailing_eq, ?_⟩
  rcases hresult with ⟨hone, hparsed⟩ |
    ⟨hmany, weightedSum, totalWeight, hloop, -, hquo⟩
  · obtain ⟨rfl, rfl⟩ := List.cons.inj hone
    have hprice : entryPrice sdk leading = result.toRat := by
      rw [entryPrice, hparsed]
    have hrounds : RoundsTo result result.toRat :=
      (FixedPoint.roundQuotient_toRat (by norm_num) result).symm
    rw [hcut.exactAverage_of_single, hprice]
    simp [hrounds]
  · have hlong : start < ctx.blockTime := by
      obtain ⟨next, hnext⟩ := List.exists_mem_of_ne_nil rest (by
        rintro rfl
        exact hmany rfl)
      have hinside := hcut.inside next hnext
      exact hinside.1.trans_le hinside.2
    rw [RoundsTo, hcut.result_eq hlong htimes hlast hfresh hloop hquo,
      hcut.area_div_eq hlong]

/-- One price ten minutes ago and twice that price one minute ago. -/
def risenStore : OracleStore :=
  let first := appendTWAPEntry referenceSdk TypedStore.empty "VTX:USD"
    (legacyNewDec 1) (boundaryCtx.blockTime - 600 * 10 ^ 9)
  appendTWAPEntry referenceSdk first "VTX:USD" (legacyNewDec 2)
    (boundaryCtx.blockTime - 60 * 10 ^ 9)

theorem risenStore_ownHistory : OwnHistory risenStore "VTX:USD" := by
  have hformat : pairRegexMatch "VTX:USD" = true := by decide
  have hempty : TwapPairsFormatted TypedStore.empty :=
    fun pair nanos hstored => absurd (TypedStore.get_empty _) hstored
  exact ((hempty.append hformat _ _).append hformat _ _).ownHistory hformat

theorem risenStore_times :
    TimesInRange (twapHistory risenStore "VTX:USD") := by
  unfold TimesInRange
  decide +kernel

/-- A window which starts at the first entry has nothing to cut. -/
theorem risenStore_ten_minutes :
    ∃ result average leading,
      getTWAP referenceSdk boundaryCtx risenStore "VTX:USD" 600000000000 =
          .ok result ∧
        ((average : ℚ) : ℝ) = windowAverage referenceSdk
          boundaryCtx.blockTime (600000000000 : Int64).toInt
          (twapHistory risenStore "VTX:USD") ∧
        prevailing (averageStart boundaryCtx.blockTime
            (600000000000 : Int64).toInt (twapHistory risenStore "VTX:USD"))
          (twapHistory risenStore "VTX:USD") = some leading ∧
        (RoundsTo result average ↔
          roundQuotient (10 ^ 18) (average +
              (entryPrice referenceSdk leading - average) *
                leadShare boundaryCtx.blockTime
                  (averageStart boundaryCtx.blockTime
                    (600000000000 : Int64).toInt
                    (twapHistory risenStore "VTX:USD")) leading) =
            roundQuotient (10 ^ 18) average) ∧
        RoundsTo result average := by
  have hquery : (getTWAP referenceSdk boundaryCtx risenStore "VTX:USD"
      600000000000).toOption.any (fun _ => true) = true := by
    decide +kernel
  obtain ⟨result, hget, -⟩ := exists_ok_of_any hquery
  obtain ⟨average, leading, haverage, hleading, hiff⟩ :=
    getTWAP_is_window_average_iff (by decide) risenStore_ownHistory
      risenStore_times hget
  have hshare : (prevailing (averageStart boundaryCtx.blockTime
        (600000000000 : Int64).toInt (twapHistory risenStore "VTX:USD"))
      (twapHistory risenStore "VTX:USD")).all (fun leading =>
        decide (leadShare boundaryCtx.blockTime
          (averageStart boundaryCtx.blockTime (600000000000 : Int64).toInt
            (twapHistory risenStore "VTX:USD")) leading = 0)) = true := by
    decide +kernel
  rw [hleading, Option.all_some, decide_eq_true_eq] at hshare
  refine ⟨result, average, leading, hget, haverage, hleading, hiff, ?_⟩
  rw [hiff, hshare, mul_zero, add_zero]

/-- Over the last two minutes the price was 1 for one minute and 2 for one
minute, but the query counts the first price for nine minutes. -/
theorem leading_entry_not_cut :
    ∃ result,
      getTWAP referenceSdk boundaryCtx risenStore "VTX:USD" 120000000000 =
          .ok result ∧
        result.raw = 1100000000000000000 ∧
        windowAverage referenceSdk boundaryCtx.blockTime
            (120000000000 : Int64).toInt
            (twapHistory risenStore "VTX:USD") = ((3 / 2 : ℚ) : ℝ) ∧
        ¬ RoundsTo result (3 / 2) := by
  have hquery : (getTWAP referenceSdk boundaryCtx risenStore "VTX:USD"
      120000000000).toOption.any
        (fun result => result.raw = 1100000000000000000) = true := by
    decide +kernel
  have hexact : exactAverage referenceSdk boundaryCtx.blockTime
      (120000000000 : Int64).toInt (twapHistory risenStore "VTX:USD") =
        3 / 2 := by
    decide +kernel
  have hrounded : roundQuotient (10 ^ 18) (3 / 2) = 1500000000000000000 := by
    decide +kernel
  obtain ⟨result, hget, hraw⟩ := exists_ok_of_any hquery
  obtain ⟨older, leading, rest, future, -, hcut⟩ := exists_cut_of_getTWAP
    (by decide) risenStore_ownHistory risenStore_times hget
  have hresult : result.raw = 1100000000000000000 := of_decide_eq_true hraw
  refine ⟨result, hget, hresult, ?_, ?_⟩
  · rw [← hcut.cast_exactAverage, hexact]
  · rw [RoundsTo, hrounded, hresult]
    decide

end Oracle
end Vertix

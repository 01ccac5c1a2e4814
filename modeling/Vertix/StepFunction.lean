import Mathlib.MeasureTheory.Integral.IntervalIntegral.Basic
import Mathlib.Tactic

/-!
# Piecewise constant functions of time

A list of points in ascending time order describes a function which takes the
value of each point from its time until the next point.  The recursive sum of
value times duration is the integral of that function, over the whole list or
from a later start inside the duration of the first point.
-/

namespace Vertix
namespace StepFunction

/-! ## Areas -/

section Area

variable {K : Type} [Field K]

/-- The time at which a value stops to hold. -/
def nextTime : List (K × K) → K → K
  | [], stop => stop
  | point :: _, _ => point.1

/-- Value times duration, added up until the stop. -/
def area : List (K × K) → K → K
  | [], _ => 0
  | point :: rest, stop =>
      point.2 * (nextTime rest stop - point.1) + area rest stop

/-- A later start takes its share off the first value. -/
theorem area_start (point : K × K) (rest : List (K × K)) (start stop : K) :
    area ((start, point.2) :: rest) stop =
      area (point :: rest) stop - point.2 * (start - point.1) := by
  simp only [area]
  ring

/-- The time during which marked points hold. -/
def timeWhere (marked : K × K → Bool) : List (K × K) → K → K
  | [], _ => 0
  | point :: rest, stop =>
      (if marked point then nextTime rest stop - point.1 else 0) +
        timeWhere marked rest stop

theorem timeWhere_none (points : List (K × K)) (stop : K) :
    timeWhere (fun _ => false) points stop = 0 := by
  induction points with
  | nil => rfl
  | cons point rest ih => simp [timeWhere, ih]

theorem le_nextTime {T : Type} [LinearOrder T] {point : T × T}
    {rest : List (T × T)} {stop : T}
    (hascending : (point :: rest).Pairwise fun a b => a.1 < b.1)
    (hstop : ∀ p ∈ point :: rest, p.1 ≤ stop) :
    point.1 ≤ nextTime rest stop := by
  cases rest with
  | nil => exact hstop point (by simp)
  | cons next more =>
      exact ((List.pairwise_cons.mp hascending).1 next (by simp)).le

section Order

variable [LinearOrder K] [IsStrictOrderedRing K]

/-- The marked points contribute with their own bounds, in proportion to the
time they hold. -/
theorem area_mem_Icc_of_marked
    {points : List (K × K)} {stop low high floor ceiling : K}
    {marked : K × K → Bool}
    (hascending : points.Pairwise fun a b => a.1 < b.1)
    (hstop : ∀ point ∈ points, point.1 ≤ stop)
    (hothers : ∀ point ∈ points, marked point = false →
      low ≤ point.2 ∧ point.2 ≤ high)
    (hmarked : ∀ point ∈ points, marked point = true →
      floor ≤ point.2 ∧ point.2 ≤ ceiling) :
    low * (stop - nextTime points stop - timeWhere marked points stop) +
          floor * timeWhere marked points stop ≤ area points stop ∧
      area points stop ≤
        high * (stop - nextTime points stop - timeWhere marked points stop) +
          ceiling * timeWhere marked points stop := by
  induction points with
  | nil => simp [area, nextTime, timeWhere]
  | cons point rest ih =>
      obtain ⟨htailLow, htailHigh⟩ := ih (List.pairwise_cons.mp hascending).2
        (fun p hp => hstop p (by simp [hp]))
        (fun p hp => hothers p (by simp [hp]))
        (fun p hp => hmarked p (by simp [hp]))
      have hstep : 0 ≤ nextTime rest stop - point.1 :=
        sub_nonneg.mpr (le_nextTime hascending hstop)
      have hfirst : nextTime (point :: rest) stop = point.1 := rfl
      rw [area, timeWhere, hfirst]
      cases hpoint : marked point with
      | false =>
          obtain ⟨hlow, hhigh⟩ := hothers point (by simp) hpoint
          have hbelow := mul_le_mul_of_nonneg_right hlow hstep
          have habove := mul_le_mul_of_nonneg_right hhigh hstep
          simp only [Bool.false_eq_true, if_false]
          constructor <;> linarith
      | true =>
          obtain ⟨hlow, hhigh⟩ := hmarked point (by simp) hpoint
          have hbelow := mul_le_mul_of_nonneg_right hlow hstep
          have habove := mul_le_mul_of_nonneg_right hhigh hstep
          simp only [if_true]
          constructor <;> linarith

/-- Values between two bounds have their area between those of the bounds. -/
theorem area_mem_Icc
    {points : List (K × K)} {stop low high : K}
    (hascending : points.Pairwise fun a b => a.1 < b.1)
    (hstop : ∀ point ∈ points, point.1 ≤ stop)
    (hvalues : ∀ point ∈ points, low ≤ point.2 ∧ point.2 ≤ high) :
    low * (stop - nextTime points stop) ≤ area points stop ∧
      area points stop ≤ high * (stop - nextTime points stop) := by
  have hnone : ∀ point ∈ points, (fun _ : K × K => false) point = true →
      low ≤ point.2 ∧ point.2 ≤ high := by
    simp
  have hbounds := area_mem_Icc_of_marked hascending hstop
    (fun point hpoint _ => hvalues point hpoint) hnone
  simpa [timeWhere_none] using hbounds

end Order

end Area

/-- The time and the value of a point as real numbers. -/
def realPoint (point : ℚ × ℚ) : ℝ × ℝ := ((point.1 : ℝ), (point.2 : ℝ))

theorem cast_area (points : List (ℚ × ℚ)) (stop : ℚ) :
    ((area points stop : ℚ) : ℝ) = area (points.map realPoint) (stop : ℝ) := by
  induction points with
  | nil => simp [area]
  | cons point rest ih =>
      have hnext : ((nextTime rest stop : ℚ) : ℝ) =
          nextTime (rest.map realPoint) (stop : ℝ) := by
        cases rest <;> rfl
      simp only [area, List.map_cons]
      push_cast
      rw [ih, hnext]
      rfl

/-! ## The function and its integral -/

noncomputable section

/-- The value of the latest point at or before a time. -/
def valueAt (points : List (ℝ × ℝ)) (t : ℝ) : ℝ :=
  ((points.filter fun point => point.1 ≤ t).getLast?.map Prod.snd).getD 0

/-- Points before one which has been reached do not matter. -/
theorem valueAt_append_of_le
    (before : List (ℝ × ℝ)) {point : ℝ × ℝ} (rest : List (ℝ × ℝ)) {t : ℝ}
    (hreached : point.1 ≤ t) :
    valueAt (before ++ point :: rest) t = valueAt (point :: rest) t := by
  have hkept : (point :: rest).filter (fun other => other.1 ≤ t) =
      point :: rest.filter (fun other => other.1 ≤ t) :=
    List.filter_cons_of_pos (by simpa using hreached)
  unfold valueAt
  rw [List.filter_append, hkept, List.getLast?_append_cons]

/-- Points which have not been reached do not matter. -/
theorem valueAt_append_of_lt
    (points : List (ℝ × ℝ)) {later : List (ℝ × ℝ)} {t : ℝ}
    (hlater : ∀ point ∈ later, t < point.1) :
    valueAt (points ++ later) t = valueAt points t := by
  have hnone : later.filter (fun point => point.1 ≤ t) = [] := by
    rw [List.filter_eq_nil_iff]
    intro point hpoint
    simpa using hlater point hpoint
  unfold valueAt
  rw [List.filter_append, hnone, List.append_nil]

theorem valueAt_of_reached
    {point : ℝ × ℝ} {later : List (ℝ × ℝ)} {t : ℝ} (hreached : point.1 ≤ t)
    (hlater : ∀ other ∈ later, t < other.1) :
    valueAt (point :: later) t = point.2 := by
  have hsplit := valueAt_append_of_lt [point] hlater
  rw [List.singleton_append] at hsplit
  rw [hsplit, valueAt, List.filter_cons_of_pos (by simpa using hreached)]
  rfl

/-- The time of a point which has been reached can be moved up. -/
theorem valueAt_start
    {point : ℝ × ℝ} (rest : List (ℝ × ℝ)) {start t : ℝ}
    (hpoint : point.1 ≤ start) (hstart : start ≤ t) :
    valueAt ((start, point.2) :: rest) t = valueAt (point :: rest) t := by
  unfold valueAt
  rw [List.filter_cons_of_pos (by simpa using hstart),
    List.filter_cons_of_pos (by simpa using hpoint.trans hstart)]
  cases hlater : rest.filter fun other => other.1 ≤ t with
  | nil => rfl
  | cons other more => simp

/-- The points come one after the other, the last one at or before the
stop. -/
def Ascending (points : List (ℝ × ℝ)) (stop : ℝ) : Prop :=
  points.Pairwise (fun a b => a.1 < b.1) ∧ ∀ point ∈ points, point.1 ≤ stop

theorem Ascending.tail {point : ℝ × ℝ} {rest : List (ℝ × ℝ)} {stop : ℝ}
    (hascending : Ascending (point :: rest) stop) : Ascending rest stop :=
  ⟨(List.pairwise_cons.mp hascending.1).2,
    fun other hother => hascending.2 other (by simp [hother])⟩

/-- The area of the points is the integral of the function from the first
point to the stop. -/
theorem integral_valueAt
    {point : ℝ × ℝ} {rest : List (ℝ × ℝ)} {stop : ℝ}
    (hascending : Ascending (point :: rest) stop) :
    IntervalIntegrable (valueAt (point :: rest)) MeasureTheory.volume
        point.1 stop ∧
      ∫ t in point.1..stop, valueAt (point :: rest) t =
        area (point :: rest) stop := by
  induction rest generalizing point with
  | nil =>
      have hle : point.1 ≤ stop := hascending.2 point (by simp)
      have hconst : Set.EqOn (valueAt [point]) (fun _ => point.2)
          (Set.uIcc point.1 stop) := by
        intro t ht
        rw [Set.uIcc_of_le hle] at ht
        exact valueAt_of_reached ht.1 (by simp)
      constructor
      · exact (intervalIntegrable_congr (hconst.mono
          Set.uIoc_subset_uIcc)).mpr intervalIntegrable_const
      · rw [intervalIntegral.integral_congr hconst,
          intervalIntegral.integral_const, smul_eq_mul, area, area, nextTime]
        ring
  | cons next more ih =>
      have hfirst := (List.pairwise_cons.mp hascending.1).1
      have hlt : point.1 < next.1 := hfirst next (by simp)
      have hnext := hascending.tail
      have hstop : next.1 ≤ stop := hnext.2 next (by simp)
      rcases ih hnext with ⟨hintegrable, hintegral⟩
      -- before the next point the value is that of the first point
      have hconst : Set.EqOn (valueAt (point :: next :: more))
          (fun _ => point.2) (Set.uIoo point.1 next.1) := by
        intro t ht
        rw [Set.uIoo_of_le hlt.le] at ht
        apply valueAt_of_reached ht.1.le
        intro other hother
        rcases List.mem_cons.mp hother with rfl | hmore
        · exact ht.2
        · have hordered := (List.pairwise_cons.mp hnext.1).1 other hmore
          exact ht.2.trans hordered
      have hlater : Set.EqOn (valueAt (point :: next :: more))
          (valueAt (next :: more)) (Set.uIcc next.1 stop) := by
        intro t ht
        rw [Set.uIcc_of_le hstop] at ht
        exact valueAt_append_of_le [point] more ht.1
      have hleft : IntervalIntegrable (valueAt (point :: next :: more))
          MeasureTheory.volume point.1 next.1 :=
        (intervalIntegrable_congr_uIoo hconst).mpr intervalIntegrable_const
      have hright : IntervalIntegrable (valueAt (point :: next :: more))
          MeasureTheory.volume next.1 stop :=
        (intervalIntegrable_congr (hlater.mono
          Set.uIoc_subset_uIcc)).mpr hintegrable
      refine ⟨hleft.trans hright, ?_⟩
      rw [← intervalIntegral.integral_add_adjacent_intervals hleft hright,
        intervalIntegral.integral_congr_uIoo hconst,
        intervalIntegral.integral_congr hlater, hintegral,
        intervalIntegral.integral_const]
      simp only [smul_eq_mul, area, nextTime]
      ring

end

end StepFunction
end Vertix

import Mathlib.Algebra.Order.Ring.Int
import Mathlib.Tactic

/-!
# Bounded fixed-point decimals

A number is an integer multiple of `1 / scale` whose scaled value stays below
a bound in absolute value.  Products and quotients are rounded half to even;
an operation whose scaled result reaches the bound has no result.
-/

namespace Vertix

/-- Division by `scale` rounded to the nearest integer, ties to even. -/
def roundHalfEven (n scale : ℕ) : ℕ :=
  if 2 * (n % scale) < scale then n / scale
  else if scale < 2 * (n % scale) then n / scale + 1
  else if n / scale % 2 = 0 then n / scale
  else n / scale + 1

def roundHalfEvenInt (n : ℤ) (scale : ℕ) : ℤ :=
  if n < 0 then -(roundHalfEven n.natAbs scale : ℤ)
  else roundHalfEven n.natAbs scale

theorem natAbs_roundHalfEvenInt (n : ℤ) (scale : ℕ) :
    (roundHalfEvenInt n scale).natAbs = roundHalfEven n.natAbs scale := by
  unfold roundHalfEvenInt
  split_ifs <;> simp

/-- Against an even threshold the rounding is decided by the midpoint just
below it, which itself rounds up. -/
theorem roundHalfEven_lt_iff
    {n scale threshold : ℕ} (hscale : 0 < scale)
    (heven : threshold % 2 = 0) (hpos : 0 < threshold) :
    roundHalfEven n scale < threshold ↔
      2 * n < scale * (2 * threshold - 1) := by
  have hdiv : scale * (n / scale) + n % scale = n := Nat.div_add_mod n scale
  have hmod : n % scale < scale := Nat.mod_lt n hscale
  obtain ⟨gap, hgap⟩ : ∃ gap, threshold = gap + 1 := ⟨threshold - 1, by omega⟩
  have hbound :
      scale * (2 * threshold - 1) = 2 * (scale * gap) + scale := by
    rw [hgap, show 2 * (gap + 1) - 1 = 2 * gap + 1 by omega]
    ring
  rw [hbound]
  rcases lt_trichotomy (n / scale) gap with hlt | heq | hgt
  · have hprod : scale * (n / scale) + scale ≤ scale * gap := by
      calc
        scale * (n / scale) + scale = scale * (n / scale + 1) := by ring
        _ ≤ scale * gap := Nat.mul_le_mul_left scale hlt
    have hround : roundHalfEven n scale ≤ n / scale + 1 := by
      unfold roundHalfEven
      split_ifs <;> omega
    constructor
    · intro _
      omega
    · intro _
      omega
  · have hodd : ¬ n / scale % 2 = 0 := by omega
    rw [heq] at hdiv hodd
    unfold roundHalfEven
    rw [heq]
    constructor
    · intro hround
      split_ifs at hround <;> omega
    · intro hmid
      rw [if_pos (by omega)]
      omega
  · have hprod : scale * gap + scale ≤ scale * (n / scale) := by
      calc
        scale * gap + scale = scale * (gap + 1) := by ring
        _ ≤ scale * (n / scale) := Nat.mul_le_mul_left scale hgt
    have hround : n / scale ≤ roundHalfEven n scale := by
      unfold roundHalfEven
      split_ifs <;> omega
    constructor
    · intro hlow
      omega
    · intro hmid
      omega

theorem roundHalfEven_mul (n : ℕ) {scale : ℕ} (hscale : 0 < scale) :
    roundHalfEven (n * scale) scale = n := by
  unfold roundHalfEven
  rw [Nat.mul_mod_left, Nat.mul_div_cancel n hscale, if_pos (by omega)]

theorem roundHalfEvenInt_mul (n : ℤ) {scale : ℕ} (hscale : 0 < scale) :
    roundHalfEvenInt (n * scale) scale = n := by
  have hround : roundHalfEven (n * scale).natAbs scale = n.natAbs := by
    rw [Int.natAbs_mul, Int.natAbs_natCast]
    exact roundHalfEven_mul n.natAbs hscale
  have hpos : (0 : ℤ) < scale := by exact_mod_cast hscale
  have hsign : n * scale < 0 ↔ n < 0 := by
    constructor
    · intro hneg
      by_contra hnonneg
      have hprod := mul_nonneg (not_lt.mp hnonneg) hpos.le
      omega
    · intro hneg
      exact mul_neg_of_neg_of_pos hneg hpos
  unfold roundHalfEvenInt
  rw [hround]
  simp only [hsign]
  split_ifs with hneg <;> omega

theorem roundHalfEvenInt_neg (n : ℤ) (scale : ℕ) :
    roundHalfEvenInt (-n) scale = -roundHalfEvenInt n scale := by
  unfold roundHalfEvenInt
  rw [Int.natAbs_neg]
  rcases lt_trichotomy n 0 with hneg | rfl | hpos
  · rw [if_neg (by omega), if_pos hneg, neg_neg]
  · simp [roundHalfEven]
  · rw [if_pos (by omega), if_neg (by omega)]

/-! ### Rounding does not step over a multiple of the scale -/

theorem roundHalfEven_le_of_le_mul
    {n scale limit : ℕ} (hscale : 0 < scale) (hle : n ≤ limit * scale) :
    roundHalfEven n scale ≤ limit := by
  have hmod : n % scale < scale := Nat.mod_lt n hscale
  have hquotient : n / scale ≤ limit := by
    rw [← Nat.mul_div_cancel limit hscale]
    exact Nat.div_le_div_right hle
  have hround : roundHalfEven n scale ≤ n / scale + 1 := by
    unfold roundHalfEven
    split_ifs <;> omega
  rcases hquotient.lt_or_eq with hlt | heq
  · omega
  · -- at the limit there is no remainder left to round up
    have hdiv : scale * (n / scale) + n % scale = n := Nat.div_add_mod n scale
    rw [heq, Nat.mul_comm] at hdiv
    have hzero : n % scale = 0 := by omega
    unfold roundHalfEven
    rw [hzero, if_pos (by omega)]
    exact hquotient

theorem le_roundHalfEven_of_mul_le
    {n scale limit : ℕ} (hscale : 0 < scale) (hle : limit * scale ≤ n) :
    limit ≤ roundHalfEven n scale := by
  have hquotient : limit ≤ n / scale := (Nat.le_div_iff_mul_le hscale).mpr hle
  unfold roundHalfEven
  split_ifs <;> omega

theorem roundHalfEvenInt_le_of_le_mul
    {n limit : ℤ} {scale : ℕ} (hscale : 0 < scale) (hle : n ≤ limit * scale) :
    roundHalfEvenInt n scale ≤ limit := by
  have hpos : (0 : ℤ) < scale := by exact_mod_cast hscale
  unfold roundHalfEvenInt
  split_ifs with hneg
  · rcases le_or_gt 0 limit with hlimit | hlimit
    · omega
    · have hsize : limit.natAbs * scale ≤ n.natAbs := by
        zify
        rw [abs_of_neg hlimit, abs_of_neg hneg]
        linarith
      have hround := le_roundHalfEven_of_mul_le hscale hsize
      omega
  · have hlimit : 0 ≤ limit := by
      by_contra hlimit
      have hprod := mul_neg_of_neg_of_pos (not_le.mp hlimit) hpos
      omega
    have hsize : n.natAbs ≤ limit.natAbs * scale := by
      zify
      rw [abs_of_nonneg hlimit, abs_of_nonneg (not_lt.mp hneg)]
      exact hle
    have hround := roundHalfEven_le_of_le_mul hscale hsize
    omega

theorem le_roundHalfEvenInt_of_mul_le
    {n limit : ℤ} {scale : ℕ} (hscale : 0 < scale) (hle : limit * scale ≤ n) :
    limit ≤ roundHalfEvenInt n scale := by
  have hneg : roundHalfEvenInt (-n) scale ≤ -limit :=
    roundHalfEvenInt_le_of_le_mul hscale (by linarith)
  rw [roundHalfEvenInt_neg] at hneg
  exact neg_le_neg_iff.mp hneg

/-- The integer part of a rational number. -/
def truncateRat (q : ℚ) : ℤ := q.num.tdiv q.den

theorem truncateRat_div (n : ℤ) {d : ℤ} (hd : 0 < d) :
    truncateRat ((n : ℚ) / d) = n.tdiv d := by
  have hden : (0 : ℤ) < ((n : ℚ) / d).den := by
    exact_mod_cast ((n : ℚ) / d).den_pos
  have hcross : ((n : ℚ) / d).num * d = n * ((n : ℚ) / d).den := by
    have hvalue : (((n : ℚ) / d).num : ℚ) / ((n : ℚ) / d).den = (n : ℚ) / d :=
      Rat.num_div_den _
    have hd' : (d : ℚ) ≠ 0 := by exact_mod_cast hd.ne'
    have hden' : (((n : ℚ) / d).den : ℚ) ≠ 0 := by
      exact_mod_cast hden.ne'
    rw [div_eq_div_iff hden' hd'] at hvalue
    exact_mod_cast hvalue
  calc truncateRat ((n : ℚ) / d)
      = (((n : ℚ) / d).num * d).tdiv (((n : ℚ) / d).den * d) :=
        (Int.mul_tdiv_mul_of_pos_left _ _ hd).symm
    _ = (n * ((n : ℚ) / d).den).tdiv (d * ((n : ℚ) / d).den) := by
        rw [hcross, Int.mul_comm d]
    _ = n.tdiv d := Int.mul_tdiv_mul_of_pos_left _ _ hden

theorem truncateRat_neg (q : ℚ) : truncateRat (-q) = -truncateRat q := by
  unfold truncateRat
  rw [Rat.neg_num, Rat.neg_den, Int.neg_tdiv]

theorem truncateRat_le {q : ℚ} {limit : ℤ} (hle : q ≤ limit) :
    truncateRat q ≤ limit := by
  have hden : (0 : ℤ) < q.den := by exact_mod_cast q.den_pos
  have hnum : q.num ≤ limit * q.den := by
    have hcast : (q.num : ℚ) ≤ limit * q.den := by
      rw [← Rat.mul_den_eq_num]
      exact mul_le_mul_of_nonneg_right hle (by positivity)
    exact_mod_cast hcast
  calc q.num.tdiv q.den ≤ (limit * q.den).tdiv q.den :=
        Int.tdiv_le_tdiv hden hnum
    _ = limit := Int.mul_tdiv_cancel _ hden.ne'

theorem le_truncateRat {q : ℚ} {limit : ℤ} (hle : (limit : ℚ) ≤ q) :
    limit ≤ truncateRat q := by
  have hneg : truncateRat (-q) ≤ -limit := by
    apply truncateRat_le
    push_cast
    linarith
  rw [truncateRat_neg] at hneg
  exact neg_le_neg_iff.mp hneg

/-- A quotient as it is rounded: truncated at twice the working precision,
then rounded half to even. -/
def roundQuotient (scale : ℕ) (q : ℚ) : ℤ :=
  roundHalfEvenInt (truncateRat (q * (scale : ℚ) ^ 2)) scale

/-- Rounding a quotient does not step over a representable number. -/
theorem roundQuotient_le {scale : ℕ} (hscale : 0 < scale) {q : ℚ} {limit : ℤ}
    (hle : q ≤ (limit : ℚ) / scale) : roundQuotient scale q ≤ limit := by
  have hpos : (0 : ℚ) < scale := by exact_mod_cast hscale
  apply roundHalfEvenInt_le_of_le_mul hscale
  apply truncateRat_le
  push_cast
  rw [le_div_iff₀ hpos] at hle
  nlinarith

theorem le_roundQuotient {scale : ℕ} (hscale : 0 < scale) {q : ℚ} {limit : ℤ}
    (hle : (limit : ℚ) / scale ≤ q) : limit ≤ roundQuotient scale q := by
  have hpos : (0 : ℚ) < scale := by exact_mod_cast hscale
  apply le_roundHalfEvenInt_of_mul_le hscale
  apply le_truncateRat
  push_cast
  rw [div_le_iff₀ hpos] at hle
  nlinarith

/-- Rounding a quotient moves it by less than one unit. -/
theorem abs_roundQuotient_sub_lt {scale : ℕ} (hscale : 0 < scale) (q : ℚ) :
    |(roundQuotient scale q : ℚ) / scale - q| < 1 / scale := by
  have hpos : (0 : ℚ) < scale := by exact_mod_cast hscale
  have hup : roundQuotient scale q ≤ ⌈q * scale⌉ := by
    apply roundQuotient_le hscale
    rw [le_div_iff₀ hpos]
    exact Int.le_ceil _
  have hdown : ⌊q * scale⌋ ≤ roundQuotient scale q := by
    apply le_roundQuotient hscale
    rw [div_le_iff₀ hpos]
    exact Int.floor_le _
  have hceil : ((roundQuotient scale q : ℤ) : ℚ) < q * scale + 1 :=
    (Int.cast_le.mpr hup).trans_lt (Int.ceil_lt_add_one _)
  have hfloor : q * scale - 1 < ((roundQuotient scale q : ℤ) : ℚ) :=
    (Int.sub_one_lt_floor _).trans_le (Int.cast_le.mpr hdown)
  have hsplit : (roundQuotient scale q : ℚ) / scale - q =
      ((roundQuotient scale q : ℚ) - q * scale) / scale := by
    field_simp
  rw [hsplit, abs_div, abs_of_pos hpos, div_lt_div_iff_of_pos_right hpos,
    abs_lt]
  constructor <;> linarith

structure FixedPoint (scale bound : ℕ) where
  raw : ℤ
  bounded : raw.natAbs < bound
  deriving DecidableEq

namespace FixedPoint

variable {scale bound : ℕ}

@[ext] theorem ext_raw {a b : FixedPoint scale bound}
    (hraw : a.raw = b.raw) : a = b := by
  cases a
  cases b
  simp_all

/-- Accept a scaled value which stays below the bound. -/
def checked (raw : ℤ) : Option (FixedPoint scale bound) :=
  if hbound : raw.natAbs < bound then some ⟨raw, hbound⟩ else none

theorem checked_eq_some_iff {raw : ℤ} {a : FixedPoint scale bound} :
    checked raw = some a ↔ a.raw = raw := by
  unfold checked
  split_ifs with hbound
  · rw [Option.some.injEq]
    constructor
    · rintro rfl
      rfl
    · intro hraw
      exact ext_raw hraw.symm
  · simp only [false_iff]
    rintro rfl
    exact hbound a.bounded

theorem checked_isSome_iff {raw : ℤ} :
    (checked raw : Option (FixedPoint scale bound)).isSome ↔
      raw.natAbs < bound := by
  unfold checked
  split_ifs with hbound <;> simp [hbound]

def add? (a b : FixedPoint scale bound) : Option (FixedPoint scale bound) :=
  checked (a.raw + b.raw)

def sub? (a b : FixedPoint scale bound) : Option (FixedPoint scale bound) :=
  checked (a.raw - b.raw)

def mul? (a b : FixedPoint scale bound) : Option (FixedPoint scale bound) :=
  checked (roundHalfEvenInt (a.raw * b.raw) scale)

/-- The quotient is first truncated at twice the working precision and then
rounded; division by zero has no result. -/
def quo? (a b : FixedPoint scale bound) : Option (FixedPoint scale bound) :=
  if b.raw = 0 then none
  else checked (roundHalfEvenInt ((a.raw * (scale : ℤ) ^ 2).tdiv b.raw) scale)

/-- Division by an integer, truncated towards zero. -/
def quoInt (a : FixedPoint scale bound) (n : ℕ) : FixedPoint scale bound :=
  ⟨a.raw.tdiv n, (Int.natAbs_tdiv_le_natAbs a.raw n).trans_lt a.bounded⟩

def abs (a : FixedPoint scale bound) : FixedPoint scale bound :=
  ⟨a.raw.natAbs, by rw [Int.natAbs_natCast]; exact a.bounded⟩

/-- The integer part, truncated towards zero. -/
def truncate (a : FixedPoint scale bound) : ℤ := a.raw.tdiv scale

/-- The number itself. -/
def toRat (a : FixedPoint scale bound) : ℚ := (a.raw : ℚ) / (scale : ℚ)

theorem toRat_le_toRat_iff (hscale : 0 < scale) {a b : FixedPoint scale bound} :
    a.toRat ≤ b.toRat ↔ a.raw ≤ b.raw := by
  have hpos : (0 : ℚ) < scale := by exact_mod_cast hscale
  rw [toRat, toRat, div_le_div_iff_of_pos_right hpos, Int.cast_le]

/-- The difference of two non-negative numbers never reaches the bound. -/
theorem sub?_of_nonneg
    {a b : FixedPoint scale bound} (ha : 0 ≤ a.raw) (hb : 0 ≤ b.raw) :
    ∃ d, a.sub? b = some d ∧ d.raw = a.raw - b.raw := by
  have hbound : (a.raw - b.raw).natAbs < bound := by
    have hleft := a.bounded
    have hright := b.bounded
    omega
  exact ⟨⟨a.raw - b.raw, hbound⟩, by simp [sub?, checked, hbound], rfl⟩

/-- A product with a factor between zero and one never reaches the bound. -/
theorem mul?_of_le_one
    {a b : FixedPoint scale bound} (hscale : 0 < scale)
    (hb : 0 ≤ b.raw) (hone : b.raw ≤ scale) :
    ∃ p, a.mul? b = some p := by
  have hround : (roundHalfEvenInt (a.raw * b.raw) scale).natAbs < bound := by
    rw [natAbs_roundHalfEvenInt, Int.natAbs_mul]
    refine lt_of_le_of_lt (roundHalfEven_le_of_le_mul hscale ?_) a.bounded
    exact Nat.mul_le_mul_left _ (by omega)
  exact ⟨⟨_, hround⟩, by simp [mul?, checked, hround]⟩

/-- A quotient stays below an even bound exactly when the exact ratio does so
with a margin of half a unit. -/
theorem quo?_isSome_iff
    {a b : FixedPoint scale bound} (hb : b.raw ≠ 0)
    (hscale : 0 < scale) (hscaleEven : scale % 2 = 0)
    (hbound : 0 < bound) (hboundEven : bound % 2 = 0) :
    (a.quo? b).isSome ↔
      2 * a.raw.natAbs * scale < b.raw.natAbs * (2 * bound - 1) := by
  have hdenominator : 0 < b.raw.natAbs := Int.natAbs_pos.mpr hb
  obtain ⟨half, hhalf⟩ : ∃ half, scale = 2 * half := ⟨scale / 2, by omega⟩
  have habs :
      ((a.raw * (scale : ℤ) ^ 2).tdiv b.raw).natAbs =
        a.raw.natAbs * scale ^ 2 / b.raw.natAbs := by
    rw [Int.natAbs_tdiv, Int.natAbs_mul, Int.natAbs_pow, Int.natAbs_natCast]
    rfl
  rw [quo?, if_neg hb, checked_isSome_iff, natAbs_roundHalfEvenInt, habs,
    roundHalfEven_lt_iff hscale hboundEven hbound]
  have hhalfPos : 0 < half := by omega
  have hmid :
      2 * (a.raw.natAbs * scale ^ 2 / b.raw.natAbs) <
          scale * (2 * bound - 1) ↔
        a.raw.natAbs * scale ^ 2 / b.raw.natAbs <
          half * (2 * bound - 1) := by
    have hdouble :
        scale * (2 * bound - 1) = 2 * (half * (2 * bound - 1)) := by
      rw [hhalf]
      ring
    omega
  rw [hmid, Nat.div_lt_iff_lt_mul hdenominator]
  have hleft : ∀ n : ℕ, n * scale ^ 2 = half * (2 * n * scale) := by
    intro n
    rw [hhalf]
    ring
  have hright :
      half * (2 * bound - 1) * b.raw.natAbs =
        half * (b.raw.natAbs * (2 * bound - 1)) := by
    ring
  rw [hleft, hright]
  exact Nat.mul_lt_mul_left hhalfPos

theorem raw_of_quo?
    {a b q : FixedPoint scale bound} (hb : 0 < b.raw)
    (hquo : a.quo? b = some q) :
    q.raw = roundQuotient scale ((a.raw : ℚ) / b.raw) := by
  rw [quo?, if_neg hb.ne', checked_eq_some_iff] at hquo
  have hscaled : (a.raw : ℚ) / b.raw * (scale : ℚ) ^ 2 =
      ((a.raw * (scale : ℤ) ^ 2 : ℤ) : ℚ) / b.raw := by
    push_cast
    ring
  rw [hquo, roundQuotient, hscaled, truncateRat_div _ hb]

theorem roundQuotient_toRat (hscale : 0 < scale) (a : FixedPoint scale bound) :
    roundQuotient scale a.toRat = a.raw :=
  le_antisymm (roundQuotient_le hscale le_rfl) (le_roundQuotient hscale le_rfl)

/-- A quotient whose exact value is at most a representable limit is rounded
to at most that limit. -/
theorem quo?_raw_le
    {a b q : FixedPoint scale bound} {limit : ℤ} (hscale : 0 < scale)
    (hb : 0 < b.raw) (hle : a.raw * scale ≤ limit * b.raw)
    (hquo : a.quo? b = some q) : q.raw ≤ limit := by
  have hpos : (0 : ℚ) < scale := by exact_mod_cast hscale
  have hbpos : (0 : ℚ) < b.raw := by exact_mod_cast hb
  rw [raw_of_quo? hb hquo]
  apply roundQuotient_le hscale
  rw [div_le_div_iff₀ hbpos hpos]
  exact_mod_cast hle

end FixedPoint

end Vertix

import Vertix.OracleTwapAverage
import Mathlib.Tactic

/-!
# A TWAP stays among the prices it was made from

The weights of the kept entries are durations, so none is negative and the
exact average lies between the lowest and the highest kept price.  Both are
representable, and rounding does not step over a representable number.  Two
kept entries are at different times, so that their weights do not add up to
zero.
-/

namespace Vertix
namespace Oracle

/-! ## Weights -/

/-- A later end gives a positive weight, also where the duration saturates. -/
theorem weight_pos {later earlier : ℤ} (hlt : earlier < later) :
    0 < (legacyNewDec (Int64.ofInt (timeSub later earlier))).raw := by
  have hrange : 0 < timeSub later earlier ∧ timeSub later earlier < 2 ^ 63 := by
    unfold timeSub
    omega
  have hround : (Int64.ofInt (timeSub later earlier)).toInt =
      timeSub later earlier :=
    Int64.toInt_ofInt_of_le (by omega) hrange.2
  simp only [legacyNewDec, hround]
  omega

theorem weight_nonneg {later earlier : ℤ} (hle : earlier ≤ later) :
    0 ≤ (legacyNewDec (Int64.ofInt (timeSub later earlier))).raw := by
  rcases hle.lt_or_eq with hlt | rfl
  · exact (weight_pos hlt).le
  · simp [timeSub, legacyNewDec]

theorem accumulate_cons {sdk : Sdk} {now : Time} {e : TWAPEntry}
    {rest : List TWAPEntry}
    {weightedSum totalWeight weightedSum' totalWeight' : LegacyDec}
    (hloop : accumulate sdk now weightedSum totalWeight (e :: rest) =
      .ok (weightedSum', totalWeight')) :
    (∃ price, sdk.legacyNewDecFromStr e.price = .ok price) ∧
      ∃ weightedSum₁ totalWeight₁ : LegacyDec,
        totalWeight₁.raw = totalWeight.raw + (legacyNewDec
          (Int64.ofInt (timeSub (intervalEnd now rest) e.blockTime))).raw ∧
        accumulate sdk now weightedSum₁ totalWeight₁ rest =
          .ok (weightedSum', totalWeight') := by
  simp only [accumulate, bind_eq_ok_iff, Exec.ofExcept_eq_ok_iff,
    plainError_eq_ok_iff, Exec.ofOption_eq_ok_iff] at hloop
  obtain ⟨price, hparsed, product, -, weightedSum₁, -, totalWeight₁, htotal,
    hloop⟩ := hloop
  rw [FixedPoint.add?, FixedPoint.checked_eq_some_iff] at htotal
  exact ⟨⟨price, hparsed⟩, weightedSum₁, totalWeight₁, htotal, hloop⟩

theorem parsed_of_accumulate {sdk : Sdk} {now : Time}
    {entries : List TWAPEntry}
    {weightedSum totalWeight weightedSum' totalWeight' : LegacyDec}
    (hloop : accumulate sdk now weightedSum totalWeight entries =
      .ok (weightedSum', totalWeight')) :
    ∀ e ∈ entries, ∃ price, sdk.legacyNewDecFromStr e.price = .ok price := by
  induction entries generalizing weightedSum totalWeight with
  | nil => simp
  | cons e rest ih =>
      obtain ⟨hparsed, weightedSum₁, totalWeight₁, -, hrest⟩ :=
        accumulate_cons hloop
      exact List.forall_mem_cons.mpr ⟨hparsed, ih hrest⟩

theorem le_total_of_accumulate {sdk : Sdk} {now : Time}
    {entries : List TWAPEntry}
    {weightedSum totalWeight weightedSum' totalWeight' : LegacyDec}
    (hascending : entries.Pairwise fun a b => a.blockTime < b.blockTime)
    (hreached : ∀ e ∈ entries, e.blockTime ≤ now)
    (hloop : accumulate sdk now weightedSum totalWeight entries =
      .ok (weightedSum', totalWeight')) :
    totalWeight.raw ≤ totalWeight'.raw := by
  induction entries generalizing weightedSum totalWeight with
  | nil =>
      simp only [accumulate, pure_eq_ok_iff, Prod.mk.injEq] at hloop
      rw [hloop.2]
  | cons e rest ih =>
      obtain ⟨-, weightedSum₁, totalWeight₁, htotal, hrest⟩ :=
        accumulate_cons hloop
      obtain ⟨hfirst, hlater⟩ := List.pairwise_cons.mp hascending
      have hend : e.blockTime ≤ intervalEnd now rest := by
        cases rest with
        | nil => exact hreached e (by simp)
        | cons next more => exact (hfirst next (by simp)).le
      have hweight := weight_nonneg hend
      have hmore := ih hlater (fun e he => hreached e (by simp [he])) hrest
      omega

theorem exists_cons_cons {entries : List TWAPEntry}
    (hmany : 2 ≤ entries.length) :
    ∃ first second rest, entries = first :: second :: rest := by
  cases entries with
  | nil => simp at hmany
  | cons first tail =>
      cases tail with
      | nil => simp at hmany
      | cons second rest => exact ⟨first, second, rest, rfl⟩

/-- The weights of two entries do not add up to zero. -/
theorem total_pos_of_accumulate {sdk : Sdk} {now : Time}
    {entries : List TWAPEntry} {weightedSum totalWeight : LegacyDec}
    (hascending : entries.Pairwise fun a b => a.blockTime < b.blockTime)
    (hreached : ∀ e ∈ entries, e.blockTime ≤ now)
    (hmany : 2 ≤ entries.length)
    (hloop : accumulate sdk now legacyZeroDec legacyZeroDec entries =
      .ok (weightedSum, totalWeight)) :
    0 < totalWeight.raw := by
  obtain ⟨first, second, rest, rfl⟩ := exists_cons_cons hmany
  obtain ⟨-, weightedSum₁, totalWeight₁, htotal, hrest⟩ :=
    accumulate_cons hloop
  obtain ⟨hfirst, hlater⟩ := List.pairwise_cons.mp hascending
  have hmore := le_total_of_accumulate hlater
    (fun e he => hreached e (List.mem_cons_of_mem _ he)) hrest
  have hweight := weight_pos (hfirst second (by simp))
  have hzero : legacyZeroDec.raw = 0 := rfl
  simp only [intervalEnd] at htotal
  omega

/-! ## The result -/

/-- The lowest and the highest price of some entries, and a number between. -/
def AmongPrices (sdk : Sdk) (entries : List TWAPEntry) (number : ℚ) : Prop :=
  ∃ lowest ∈ entries, ∃ highest ∈ entries,
    (∀ e ∈ entries, entryPrice sdk lowest ≤ entryPrice sdk e ∧
      entryPrice sdk e ≤ entryPrice sdk highest) ∧
    entryPrice sdk lowest ≤ number ∧ number ≤ entryPrice sdk highest

theorem exists_extremes (sdk : Sdk) {entries : List TWAPEntry}
    (hne : entries ≠ []) :
    ∃ lowest ∈ entries, ∃ highest ∈ entries,
      ∀ e ∈ entries, entryPrice sdk lowest ≤ entryPrice sdk e ∧
        entryPrice sdk e ≤ entryPrice sdk highest := by
  have hnonempty : entries.toFinset.Nonempty := by
    rw [List.toFinset_nonempty_iff]
    exact hne
  obtain ⟨lowest, hlowest, hleast⟩ :=
    entries.toFinset.exists_min_image (entryPrice sdk) hnonempty
  obtain ⟨highest, hhighest, hgreatest⟩ :=
    entries.toFinset.exists_max_image (entryPrice sdk) hnonempty
  simp only [List.mem_toFinset] at hlowest hleast hhighest hgreatest
  exact ⟨lowest, hlowest, highest, hhighest,
    fun e he => ⟨hleast e he, hgreatest e he⟩⟩

theorem toRat_of_parsed {sdk : Sdk} {e : TWAPEntry} {price : LegacyDec}
    (hparsed : sdk.legacyNewDecFromStr e.price = .ok price) :
    entryPrice sdk e = price.toRat := by
  rw [entryPrice, hparsed]

/-- The rounded average of at least two entries is among their prices. -/
theorem amongPrices_of_average {sdk : Sdk} {now : Time}
    {leading : TWAPEntry} {rest : List TWAPEntry} {result : LegacyDec}
    (hascending : (leading :: rest).Pairwise
      fun a b => a.blockTime < b.blockTime)
    (hreached : ∀ e ∈ leading :: rest, e.blockTime ≤ now)
    (hbefore : leading.blockTime < now)
    (hparsed : ∀ e ∈ leading :: rest,
      ∃ price, sdk.legacyNewDecFromStr e.price = .ok price)
    (hresult : result.raw = roundQuotient (10 ^ 18)
      (StepFunction.area ((leading :: rest).map (pricePoint sdk)) (now : ℚ) /
        ((now : ℚ) - leading.blockTime))) :
    AmongPrices sdk (leading :: rest) result.toRat := by
  obtain ⟨lowest, hlowest, highest, hhighest, hextremes⟩ :=
    exists_extremes sdk (List.cons_ne_nil leading rest)
  refine ⟨lowest, hlowest, highest, hhighest, hextremes, ?_⟩
  have hpoints : ((leading :: rest).map (pricePoint sdk)).Pairwise
      fun a b => a.1 < b.1 := by
    rw [List.pairwise_map]
    apply hascending.imp
    intro a b hlt
    exact Int.cast_lt.mpr hlt
  have hstop : ∀ point ∈ (leading :: rest).map (pricePoint sdk),
      point.1 ≤ (now : ℚ) := by
    intro point hpoint
    obtain ⟨e, he, rfl⟩ := List.mem_map.mp hpoint
    exact Int.cast_le.mpr (hreached e he)
  have hvalues : ∀ point ∈ (leading :: rest).map (pricePoint sdk),
      entryPrice sdk lowest ≤ point.2 ∧
        point.2 ≤ entryPrice sdk highest := by
    intro point hpoint
    obtain ⟨e, he, rfl⟩ := List.mem_map.mp hpoint
    exact hextremes e he
  obtain ⟨hlow, hhigh⟩ := StepFunction.area_mem_Icc hpoints hstop hvalues
  have hsince : (0 : ℚ) < (now : ℚ) - leading.blockTime := by
    rw [sub_pos]
    exact_mod_cast hbefore
  simp only [List.map_cons, StepFunction.nextTime, pricePoint] at hlow hhigh
  obtain ⟨low, hlowParsed⟩ := hparsed lowest hlowest
  obtain ⟨high, hhighParsed⟩ := hparsed highest hhighest
  rw [toRat_of_parsed hlowParsed] at hlow ⊢
  rw [toRat_of_parsed hhighParsed] at hhigh ⊢
  rw [FixedPoint.toRat_le_toRat_iff (by norm_num),
    FixedPoint.toRat_le_toRat_iff (by norm_num), hresult]
  constructor
  · apply le_roundQuotient (by norm_num)
    exact (le_div_iff₀ hsince).mpr hlow
  · apply roundQuotient_le (by norm_num)
    exact (div_le_iff₀ hsince).mpr hhigh

/-- A completed query returns a price between the lowest and the highest price
it collected, and with two entries the total weight is not zero. -/
theorem getTWAP_among_collected
    {sdk : Sdk} {ctx : Ctx} {store : OracleStore} {pair : String}
    {window : Int64} (hown : OwnHistory store pair)
    (htimes : TimesInRange (twapHistory store pair)) :
    let kept := keptEntries ctx.blockTime (ctx.blockTime + (-window).toInt)
      (twapHistory store pair)
    (∀ result, getTWAP sdk ctx store pair window = .ok result →
      AmongPrices sdk kept result.toRat) ∧
    (2 ≤ kept.length → ∀ weightedSum totalWeight,
      accumulate sdk ctx.blockTime legacyZeroDec legacyZeroDec kept =
        .ok (weightedSum, totalWeight) → totalWeight.raw ≠ 0) := by
  intro kept
  have hhistory := twapHistory_ascending hown htimes
  obtain ⟨older, future, hkept⟩ := exists_kept ctx.blockTime
    (ctx.blockTime + (-window).toInt) hhistory
  have hsublist : kept.Sublist (twapHistory store pair) := by
    rw [hkept.parts]
    exact (List.sublist_append_right _ _).trans (List.sublist_append_left _ _)
  have hascending : kept.Pairwise fun a b => a.blockTime < b.blockTime :=
    hhistory.sublist hsublist
  have hrange : TimesInRange kept := fun e he => htimes e (hsublist.subset he)
  constructor
  · intro result hget
    obtain ⟨last, hlast, hfresh, hresult⟩ := getTWAP_eq_ok hget
    rcases hresult with ⟨hone, hparsed⟩ |
      ⟨hmany, weightedSum, totalWeight, hloop, -, hquo⟩
    · have hkeptOne : kept = [last] := hone
      rw [hkeptOne]
      have hprice := toRat_of_parsed hparsed
      exact ⟨last, by simp, last, by simp, by simp, hprice.le, hprice.ge⟩
    · change kept.getLast? = some last at hlast
      change kept.length ≠ 1 at hmany
      change accumulate sdk ctx.blockTime legacyZeroDec legacyZeroDec kept =
        .ok (weightedSum, totalWeight) at hloop
      have hreached : ∀ e ∈ kept, e.blockTime ≤ ctx.blockTime := hkept.reached
      have hnonempty : kept.length ≠ 0 := by
        intro hzero
        rw [List.length_eq_zero_iff.mp hzero] at hlast
        cases hlast
      obtain ⟨leading, second, rest, hentries⟩ :=
        exists_cons_cons (show 2 ≤ kept.length by omega)
      rw [hentries] at hascending hrange hreached hlast hloop ⊢
      have hbefore : leading.blockTime < ctx.blockTime :=
        lt_of_lt_of_le ((List.pairwise_cons.mp hascending).1 second (by simp))
          (hreached second (by simp))
      exact amongPrices_of_average hascending hreached hbefore
        (parsed_of_accumulate hloop)
        (loop_result_eq hascending hrange hreached hbefore hlast hfresh hloop
          hquo)
  · intro hmany weightedSum totalWeight hloop
    exact (total_pos_of_accumulate hascending hkept.reached hmany hloop).ne'

/-- Of the prices 1 and 2 the query makes 1.1. -/
theorem risenStore_among_prices :
    ∃ result,
      getTWAP referenceSdk boundaryCtx risenStore "VTX:USD" 120000000000 =
          .ok result ∧
        result.raw = 1100000000000000000 ∧
        AmongPrices referenceSdk
          (keptEntries boundaryCtx.blockTime
            (boundaryCtx.blockTime + (-120000000000 : Int64).toInt)
            (twapHistory risenStore "VTX:USD")) result.toRat := by
  have hquery : (getTWAP referenceSdk boundaryCtx risenStore "VTX:USD"
      120000000000).toOption.any (fun result =>
        decide (result.raw = 1100000000000000000)) = true := by
    decide +kernel
  obtain ⟨result, hget, hraw⟩ := exists_ok_of_any hquery
  exact ⟨result, hget, by simpa using hraw,
    (getTWAP_among_collected risenStore_ownHistory risenStore_times).1 result
      hget⟩

end Oracle
end Vertix

import Vertix.OracleTwapHistory
import Vertix.OracleTwapAverage
import Mathlib.Tactic

/-!
# Prices and windows in seconds

The oldest admissible price and the window of a TWAP query are given in
seconds, and both are multiplied into an int64 number of nanoseconds.  Up to
9223372036 seconds, a little over 292 years, the product is exact.  Past that
it wraps, and since neither the parameters nor the query bound their seconds
from above, a longer setting is read as another one: as a shorter age, as a
negative one, or as a window which starts in the future.
-/

namespace Vertix
namespace Oracle

/-! ## The queries -/

/-- `errors.Is` -/
def isError (err target : SdkError) : Bool :=
  err.codespace = target.codespace ∧ err.code = target.code

def oracleQueryGRPCError : Failure → QueryFailure
  | .panicked => .panicked
  | .error err =>
      if isError err errNoPrice ∨ isError err errNoTWAPData then
        .status .notFound err.text
      else if isError err errStalePrice then
        .status .failedPrecondition err.text
      else .error err

structure QueryPriceRequest where
  pair : String

structure QueryTwapRequest where
  pair : String
  windowSeconds : UInt64

def price (ctx : Ctx) (store : OracleStore) (req : Option QueryPriceRequest) :
    Except QueryFailure AggregatedPrice :=
  match req with
  | none => .error invalidRequest
  | some req =>
      if req.pair = "" then .error invalidRequest
      else (Exec.ofExcept (getAggregatedPrice ctx store req.pair)).mapError
        oracleQueryGRPCError

/-- `time.Duration(req.WindowSeconds) * time.Second` -/
def windowDuration (windowSeconds : UInt64) : Int64 :=
  secondsDuration windowSeconds.toInt64

def twap (sdk : Sdk) (ctx : Ctx) (store : OracleStore)
    (req : Option QueryTwapRequest) : Except QueryFailure LegacyDec :=
  match req with
  | none => .error invalidRequest
  | some req =>
      if req.pair = "" ∨ req.windowSeconds = 0 then .error invalidRequest
      else (getTWAP sdk ctx store req.pair
        (windowDuration req.windowSeconds)).mapError oracleQueryGRPCError

/-! ## The start of a window -/

/-- `now.Add(-window)` -/
def windowStart (ctx : Ctx) (window : Int64) : Time :=
  ctx.blockTime + (-window).toInt

/-- An accepted query looks back to the start of its window. -/
theorem twap_eq {sdk : Sdk} {ctx : Ctx} {store : OracleStore}
    {req : QueryTwapRequest} (hpair : req.pair ≠ "")
    (hwindow : req.windowSeconds ≠ 0) :
    twap sdk ctx store (some req) =
      (getTWAPFrom sdk ctx store req.pair
        (windowStart ctx (windowDuration req.windowSeconds))).mapError
          oracleQueryGRPCError := by
  simp only [twap, hpair, hwindow, or_self, if_false]
  rfl

/-! ## Exact durations -/

/-- The number of whole seconds in an int64 of nanoseconds. -/
def maxSeconds : ℤ := 9223372036

theorem secondsDuration_toInt {seconds : Int64} (hlow : 0 ≤ seconds.toInt)
    (hhigh : seconds.toInt ≤ maxSeconds) :
    (secondsDuration seconds).toInt = seconds.toInt * 10 ^ 9 := by
  unfold maxSeconds at hhigh
  rw [secondsDuration_eq_bmod, Int.bmod_def]
  split_ifs <;> omega

/-- The age check is exact up to the largest exact duration. -/
theorem stale_iff {maxAge : Int64} (hlow : 0 ≤ maxAge.toInt)
    (hhigh : maxAge.toInt ≤ maxSeconds) {now published : ℤ}
    (horder : published ≤ now) :
    (secondsDuration maxAge).toInt < timeSub now published ↔
      maxAge.toInt * 10 ^ 9 < now - published := by
  rw [secondsDuration_toInt hlow hhigh, timeSub]
  unfold maxSeconds at hhigh
  omega

/-- Past it, an age which saturates is always too high. -/
theorem stale_of_saturated (maxAge : Int64) :
    (secondsDuration maxAge).toInt < timeSub (2 ^ 63 - 1) 0 := by
  rw [secondsDuration_eq_bmod, Int.bmod_def, timeSub]
  split_ifs <;> omega

theorem uint64_toInt64_toInt {n : UInt64} (hsmall : n.toNat < 2 ^ 63) :
    n.toInt64.toInt = n.toNat := by
  change n.toBitVec.toInt = n.toBitVec.toNat
  apply BitVec.toInt_eq_toNat_of_lt
  change 2 * n.toNat < 2 ^ 64
  omega

theorem windowStart_eq_iff (ctx : Ctx) (seconds : UInt64) :
    windowStart ctx (windowDuration seconds) =
        ctx.blockTime - seconds.toNat * 10 ^ 9 ↔
      (seconds.toNat : ℤ) ≤ maxSeconds := by
  have hlow := (-windowDuration seconds).le_toInt
  constructor
  · intro hstart
    have hnegated : (-windowDuration seconds).toInt =
        -((seconds.toNat : ℤ) * 10 ^ 9) := by
      unfold windowStart at hstart
      linarith
    unfold maxSeconds
    omega
  · intro hshort
    have hlimit := hshort
    unfold maxSeconds at hlimit
    have hseconds : seconds.toInt64.toInt = seconds.toNat :=
      uint64_toInt64_toInt (by omega)
    have hduration : (windowDuration seconds).toInt =
        seconds.toNat * 10 ^ 9 := by
      rw [windowDuration, secondsDuration_toInt (by omega) (by omega),
        hseconds]
    have hnegated : (-windowDuration seconds).toInt =
        -((seconds.toNat : ℤ) * 10 ^ 9) := by
      rw [Int64.toInt_neg, hduration, Int.bmod_def]
      split_ifs <;> omega
    rw [windowStart, hnegated, sub_eq_add_neg]

/-! ## The stale-price error -/

theorem plain_ne_errStalePrice (reason : String) :
    SdkError.plain reason ≠ errStalePrice := by
  simp [SdkError.plain, errStalePrice, moduleName]

theorem parse_ne_errStalePrice {α : Type} (parsed : Except String α) :
    Exec.ofExcept (plainError parsed) ≠ Exec.fail errStalePrice := by
  cases parsed with
  | ok value => simp [plainError, Exec.ofExcept, Exec.fail]
  | error reason =>
      intro hfail
      simp only [plainError, Exec.ofExcept, Exec.fail, Except.error.injEq,
        Failure.error.injEq] at hfail
      exact plain_ne_errStalePrice reason hfail

theorem ofOption_ne_fail {α : Type} (value : Option α) (error : SdkError) :
    Exec.ofOption value ≠ Exec.fail error := by
  cases value <;> simp [Exec.ofOption, Exec.fail, Exec.panicked]

theorem accumulate_ne_errStalePrice (sdk : Sdk) (now : Time)
    (weightedSum totalWeight : LegacyDec) (entries : List TWAPEntry) :
    accumulate sdk now weightedSum totalWeight entries ≠
      Exec.fail errStalePrice := by
  induction entries generalizing weightedSum totalWeight with
  | nil => simp [accumulate, Exec.fail, pure, Except.pure]
  | cons e rest ih =>
      intro hfail
      simp only [accumulate, Exec.fail, bind_eq_error_iff] at hfail
      rcases hfail with hparse | ⟨price, -, hproduct | ⟨product, -, hsum |
        ⟨sum, -, htotal | ⟨total, -, hrest⟩⟩⟩⟩
      · exact parse_ne_errStalePrice _ hparse
      · exact ofOption_ne_fail _ _ hproduct
      · exact ofOption_ne_fail _ _ hsum
      · exact ofOption_ne_fail _ _ htotal
      · exact ih sum total hrest

theorem getAggregatedPrice_stale_iff {ctx : Ctx} {store : OracleStore}
    {pair : String} {ap : AggregatedPrice}
    (haccepted : pair ∈ (getParams store).acceptList)
    (hstored : storedPrice store pair = some ap) :
    getAggregatedPrice ctx store pair = .error errStalePrice ↔
      (secondsDuration (getParams store).maxPriceAge).toInt <
        timeSub ctx.blockTime ap.blockTime := by
  have hpass : rejectIf (¬ (getParams store).pairAccepted pair)
      errPairNotAccepted = .ok () := by
    simp [OracleParams.pairAccepted, haccepted]
  simp only [getAggregatedPrice, hpass, hstored, bind, Except.bind]
  unfold rejectIf
  split_ifs with hstale <;> simp [hstale, pure, Except.pure]

theorem getTWAP_stale_iff {sdk : Sdk} {ctx : Ctx} {store : OracleStore}
    {pair : String} {window : Int64} {last : TWAPEntry}
    (haccepted : pair ∈ (getParams store).acceptList)
    (hlast : (keptEntries ctx.blockTime (ctx.blockTime + (-window).toInt)
      (twapHistory store pair)).getLast? = some last) :
    getTWAP sdk ctx store pair window = Exec.fail errStalePrice ↔
      (secondsDuration (getParams store).maxPriceAge).toInt <
        timeSub ctx.blockTime last.blockTime := by
  have hpass : Exec.ofExcept (rejectIf (¬ (getParams store).pairAccepted pair)
      errPairNotAccepted) = .ok () := by
    simp [OracleParams.pairAccepted, haccepted]
  have hunit : Exec.ofExcept (.ok () : Except SdkError Unit) = .ok () := rfl
  simp only [getTWAP, getTWAPFrom, hpass, hlast, bind, Except.bind]
  unfold rejectIf
  by_cases hstale : (secondsDuration (getParams store).maxPriceAge).toInt <
      timeSub ctx.blockTime last.blockTime
  · simp [hstale, Exec.ofExcept, Exec.fail]
  · simp only [hstale, if_false, iff_false, hunit]
    split_ifs with hone
    · exact parse_ne_errStalePrice _
    · cases hloop : accumulate sdk ctx.blockTime legacyZeroDec legacyZeroDec
          (keptEntries ctx.blockTime (ctx.blockTime + (-window).toInt)
            (twapHistory store pair)) with
      | error failure =>
          have hother := accumulate_ne_errStalePrice sdk ctx.blockTime
            legacyZeroDec legacyZeroDec
            (keptEntries ctx.blockTime (ctx.blockTime + (-window).toInt)
              (twapHistory store pair))
          rw [hloop] at hother
          simpa [Exec.fail] using hother
      | ok sums =>
          simp only
          split_ifs with hzero
          · simp [Exec.fail, errNoTWAPData, errStalePrice]
          · exact ofOption_ne_fail _ _

/-- The last entry at or before the block time is always kept. -/
theorem getLast?_keptEntries {now windowStart : Time}
    {history : List TWAPEntry} {last : TWAPEntry}
    (hlast : history.getLast? = some last) (hreached : last.blockTime ≤ now) :
    (keptEntries now windowStart history).getLast? = some last := by
  obtain ⟨earlier, rfl⟩ := List.getLast?_eq_some_iff.mp hlast
  rw [keptEntries_concat, if_neg (not_lt.mpr hreached)]
  split_ifs <;> simp

/-- In a history in range the last entry is the latest one. -/
theorem getLast?_twapHistory {store : OracleStore} {pair : String}
    (hown : OwnHistory store pair)
    (htimes : TimesInRange (twapHistory store pair)) {latest : TWAPEntry}
    (hmem : latest ∈ twapHistory store pair)
    (hlatest : ∀ e ∈ twapHistory store pair,
      e.blockTime ≤ latest.blockTime) :
    (twapHistory store pair).getLast? = some latest := by
  have hascending := twapHistory_ascending hown htimes
  obtain ⟨before, after, hparts⟩ := List.append_of_mem hmem
  cases after with
  | nil => rw [hparts]; simp
  | cons next more =>
      rw [hparts] at hascending hlatest
      have hlt := (List.pairwise_cons.mp
        (List.pairwise_append.mp hascending).2.1).1 next (by simp)
      exact absurd (hlatest next (by simp)) (not_le.mpr hlt)

/-! ## Settings in seconds -/

/-- Both getters call a value stale exactly if its age is above the setting.
The entry which `getTWAP` looks at is the last of the history, and this is
the latest one. -/
structure AgeInSeconds (sdk : Sdk) (params : OracleParams) : Prop where
  price :
    ∀ ctx store pair ap, getParams store = params →
      pair ∈ params.acceptList → storedPrice store pair = some ap →
      ap.blockTime ≤ ctx.blockTime →
      (getAggregatedPrice ctx store pair = .error errStalePrice ↔
        params.maxPriceAge.toInt * 10 ^ 9 < ctx.blockTime - ap.blockTime)
  twap :
    ∀ ctx store pair last window, getParams store = params →
      pair ∈ params.acceptList →
      (twapHistory store pair).getLast? = some last →
      last.blockTime ≤ ctx.blockTime →
      (getTWAP sdk ctx store pair window = Exec.fail errStalePrice ↔
        params.maxPriceAge.toInt * 10 ^ 9 < ctx.blockTime - last.blockTime)
  latest :
    ∀ store pair, OwnHistory store pair →
      TimesInRange (twapHistory store pair) →
      ∀ latest ∈ twapHistory store pair,
        (∀ e ∈ twapHistory store pair, e.blockTime ≤ latest.blockTime) →
        (twapHistory store pair).getLast? = some latest

/-- Every query for the window starts it the given number of seconds back. -/
structure WindowInSeconds (sdk : Sdk) (windowSeconds : UInt64) : Prop where
  used :
    ∀ ctx store pair, pair ≠ "" →
      twap sdk ctx store (some ⟨pair, windowSeconds⟩) =
        (getTWAPFrom sdk ctx store pair
          (windowStart ctx (windowDuration windowSeconds))).mapError
            oracleQueryGRPCError
  start :
    ∀ ctx, windowStart ctx (windowDuration windowSeconds) =
      ctx.blockTime - windowSeconds.toNat * 10 ^ 9

theorem ageInSeconds_of_le {sdk : Sdk} {params : OracleParams}
    (hvalid : params.Valid sdk)
    (hshort : params.maxPriceAge.toInt ≤ maxSeconds) :
    AgeInSeconds sdk params := by
  have hpos := hvalid.maxPriceAge_pos.le
  constructor
  · intro ctx store pair ap hparams hpair hstored horder
    subst hparams
    rw [getAggregatedPrice_stale_iff hpair hstored,
      stale_iff hpos hshort horder]
  · intro ctx store pair last window hparams hpair hlast horder
    subst hparams
    rw [getTWAP_stale_iff hpair (getLast?_keptEntries hlast horder),
      stale_iff hpos hshort horder]
  · intro store pair hown htimes latest hmem hlatest
    exact getLast?_twapHistory hown htimes hmem hlatest

theorem lastNano_timestamp : zeroTime < (2 ^ 63 - 1 : Time) ∧
    (2 ^ 63 - 1 : Time) < 253402300800 * 10 ^ 9 := by
  decide

/-- The last nanosecond of an int64, in the year 2262. -/
def lastNano : Ctx := ⟨10, 2 ^ 63 - 1, lastNano_timestamp⟩

/-- The given settings, and a price of the first nanosecond. -/
def agedStore (params : OracleParams) (pair : String) : OracleStore :=
  setAggregatedPrice (writeParams TypedStore.empty params)
    ⟨pair, "1.000000000000000000", 1, 0⟩

theorem getParams_agedStore (params : OracleParams) (pair : String) :
    getParams (agedStore params pair) = params := by
  rw [agedStore, ← getParams_writeParams TypedStore.empty params]
  apply getParams_congr
  exact TypedStore.get_set_of_ne _ _ (by simp)

theorem storedPrice_agedStore (params : OracleParams) (pair : String) :
    storedPrice (agedStore params pair) pair =
      some ⟨pair, "1.000000000000000000", 1, 0⟩ := by
  rw [storedPrice_eq_some_iff]
  simp [agedStore, setAggregatedPrice]

theorem le_of_ageInSeconds {sdk : Sdk} {params : OracleParams}
    (hvalid : params.Valid sdk) (hage : AgeInSeconds sdk params) :
    params.maxPriceAge.toInt ≤ maxSeconds := by
  obtain ⟨pair, hpair⟩ := List.exists_mem_of_ne_nil _ hvalid.acceptList_nonempty
  have hparams := getParams_agedStore params pair
  have hstored := storedPrice_agedStore params pair
  have hstale : getAggregatedPrice lastNano (agedStore params pair) pair =
      .error errStalePrice := by
    rw [getAggregatedPrice_stale_iff (by rwa [hparams]) hstored]
    exact stale_of_saturated _
  have horder : (0 : ℤ) ≤ lastNano.blockTime := by decide
  have hexceeded := (hage.price lastNano _ pair _ hparams hpair hstored
    horder).mp hstale
  change params.maxPriceAge.toInt * 10 ^ 9 < (2 ^ 63 - 1 - 0 : ℤ) at hexceeded
  unfold maxSeconds
  omega

/-- The settings mean what they say exactly up to the number of whole seconds
in an int64 of nanoseconds. -/
theorem seconds_exact_iff {sdk : Sdk} {params : OracleParams}
    {windowSeconds : UInt64} (hvalid : params.Valid sdk)
    (hwindow : windowSeconds ≠ 0) :
    AgeInSeconds sdk params ∧ WindowInSeconds sdk windowSeconds ↔
      params.maxPriceAge.toInt ≤ maxSeconds ∧
        (windowSeconds.toNat : ℤ) ≤ maxSeconds := by
  constructor
  · intro hexact
    exact ⟨le_of_ageInSeconds hvalid hexact.1,
      (windowStart_eq_iff lastNano windowSeconds).mp
        (hexact.2.start lastNano)⟩
  · intro hshort
    refine ⟨ageInSeconds_of_le hvalid hshort.1, ?_, ?_⟩
    · intro ctx store pair hpair
      exact twap_eq hpair hwindow
    · intro ctx
      exact (windowStart_eq_iff ctx windowSeconds).mpr hshort.2

/-- The default age of five minutes and a window of one hour are exact. -/
theorem default_seconds_exact :
    AgeInSeconds referenceSdk defaultParams ∧
      WindowInSeconds referenceSdk 3600 :=
  (seconds_exact_iff
    (OracleParams.validate_eq_ok_iff.mp (by decide +kernel :
      defaultParams.validate referenceSdk = .ok ())) (by decide)).mpr
    ⟨by decide, by decide⟩

def tenBillionParams : OracleParams :=
  { defaultParams with maxPriceAge := 10000000000 }

/-- A price of the current block. -/
def freshStore : OracleStore :=
  setAggregatedPrice (writeParams TypedStore.empty tenBillionParams)
    ⟨"VTX:USD", "1.000000000000000000", 10, boundaryCtx.blockTime⟩

/-- An age of ten billion seconds is accepted and read as a negative one,
under which a price of this very block is stale.  A window of as many seconds
starts in the future. -/
theorem ten_billion_seconds_wrap :
    tenBillionParams.validate referenceSdk = .ok () ∧
      (getParams freshStore = tenBillionParams ∧
        storedPrice freshStore "VTX:USD" =
          some ⟨"VTX:USD", "1.000000000000000000", 10, boundaryCtx.blockTime⟩ ∧
        getAggregatedPrice boundaryCtx freshStore "VTX:USD" =
          .error errStalePrice) ∧
      boundaryCtx.blockTime <
        windowStart boundaryCtx (windowDuration 10000000000) := by
  refine ⟨by decide +kernel, ⟨?_, ?_, ?_⟩, by decide +kernel⟩
  · decide +kernel
  · decide +kernel
  · decide +kernel

end Oracle
end Vertix

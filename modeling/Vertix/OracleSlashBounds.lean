import Vertix.OracleSlashTotals
import Mathlib.Tactic

/-!
# How much a validator can be slashed over a run

Two bounds on the slashes of a whole run.  A validator which reports every
published pair, together with a majority of the reports inside the outlier
band, is never slashed.  Any other validator loses the miss penalty at most
once in every span of `miss_window_size` windows in which it was bonded, since
an evaluation uses up the windows it is based on.
-/

namespace Vertix
namespace Oracle

open Transition

theorem mem_of_mem_sinceReset {k : Keeper} {val : Address}
    {history : OracleHistory k} {entry : OracleStore × OracleStep k}
    (hmem : entry ∈ sinceReset k val history) : entry ∈ history := by
  induction history with
  | nil => exact hmem
  | cons head older ih =>
      rw [sinceReset] at hmem
      split_ifs at hmem with hreset
      · cases hmem
      · rcases List.mem_cons.mp hmem with rfl | holder
        · exact List.mem_cons_self
        · exact List.mem_cons_of_mem head (ih holder)

/-- A boundary block has opened its window. -/
theorem exists_boundary_of_windowClosed {k : Keeper}
    {entry : OracleStore × OracleStep k} {w : Window k.sdk}
    (hclosed : windowClosed k entry = some w) :
    ∃ ctx staking, entry.2 = .endBlock ctx staking ∧
      ctx.blockHeight % (getParams entry.1).voteWindow = 0 ∧
      openWindow k.sdk ctx staking (getParams entry.1) = .ok w := by
  unfold windowClosed at hclosed
  split at hclosed
  · rename_i ctx staking hstep
    split_ifs at hclosed with hboundary
    exact ⟨ctx, staking, hstep, hboundary, toOption_eq_some_iff.mp hclosed⟩
  · cases hclosed

/-! ## The faithful validator -/

/-- The validator reported every published pair, and its counted prices lie
with a majority of the reports in a band narrower than the outlier threshold
allows. -/
structure Window.Faithful {sdk : Sdk} (w : Window sdk) (store : OracleStore)
    (val : Address) : Prop where
  reported : ∀ pair ∈ w.livePairs store, store.get (.feed val pair) ≠ none
  agreed : ∀ pair ∈ w.livePairs store, ∀ f ∈ w.countedFeeds store pair,
    sdk.valAddressFromBech32 f.valoper = .ok val →
    ∃ low high : ℚ, 0 < low ∧
      high - low ≤ w.outlierThreshold.toRat * low ∧
      w.Majority store pair low high ∧ low ≤ f.value ∧ f.value ≤ high

/-- The validator was faithful in every window it was bonded in. -/
def FaithfulThrough (k : Keeper) (val : Address) (history : OracleHistory k) :
    Prop :=
  ∀ entry ∈ history, ∀ w, windowClosed k entry = some w →
    bondedAt k val entry = true → w.Faithful entry.1 val

section Faithful

variable {k : Keeper} {val : Address} {history : OracleHistory k}
  {entry : OracleStore × OracleStep k} {w : Window k.sdk}

theorem Window.Faithful.submittedAll {store : OracleStore}
    (hfaithful : w.Faithful store val) :
    Window.submittedAll store val (w.livePairs store) = true :=
  Window.submittedAll_iff.mpr hfaithful.reported

theorem FaithfulThrough.missedAt (hfaithful : FaithfulThrough k val history)
    (hentry : entry ∈ history) : missedAt k val entry = false := by
  by_contra hmissed
  rw [Bool.not_eq_false] at hmissed
  have hbonded : bondedAt k val entry = true := by
    rw [Oracle.missedAt, Bool.and_eq_true] at hmissed
    exact hmissed.1
  obtain ⟨w, hclosed, -⟩ := exists_some_of_any hbonded
  have hskipped := (missedAt_boundary_iff hclosed hbonded).mp hmissed
  have hreported :=
    (hfaithful entry hentry w hclosed hbonded).submittedAll
  rw [hreported] at hskipped
  cases hskipped

theorem FaithfulThrough.windowsMissed
    (hfaithful : FaithfulThrough k val history) :
    windowsMissed k val history = 0 := by
  rw [Oracle.windowsMissed, List.countP_eq_zero]
  intro entry hentry
  rw [hfaithful.missedAt (mem_of_mem_sinceReset hentry)]
  exact Bool.false_ne_true

/-- With no missed window the miss rate is zero, below any valid threshold. -/
theorem not_missesTooOften_of_faithful
    {ctx : Ctx} {staking : StakingView k.sdk} {store : OracleStore}
    {v : Validator}
    (hmatch : CountersMatch k val history store)
    (hvalid : (getParams store).Valid k.sdk)
    (hopen : openWindow k.sdk ctx staking (getParams store) = .ok w)
    (hmissed : windowsMissed k val history = 0)
    (hfaithful : w.Faithful store val)
    (hval : k.sdk.valAddressFromBech32 v.operatorAddress = .ok val) :
    ¬ w.MissesTooOften store (w.livePairs store) v := by
  rintro ⟨val', missRate, hval', -, hquo, hover⟩
  obtain rfl : val = val' := Except.ok.inj (hval.symm.trans hval')
  have hclosing := hmatch.closingMiss (w.livePairs store)
  rw [hfaithful.submittedAll, if_pos rfl, hmissed] at hclosing
  have htotal := hmatch.closingTotal
  obtain ⟨threshold, hparsed, hpos, -⟩ := hvalid.missThreshold_range
  obtain ⟨-, -, -, -, -, -, -, -, hthreshold, -⟩ :=
    openWindow_eq_ok_iff.mp hopen
  rw [hparsed] at hthreshold
  obtain rfl := Except.ok.inj hthreshold
  have hrate : missRate.raw ≤ 0 := by
    refine FixedPoint.quo?_raw_le (by norm_num) ?_ ?_ hquo
    · simp only [legacyNewDec, htotal]
      positivity
    · simp [legacyNewDec, hclosing]
  omega

theorem outlierPairs_of_faithful {store : OracleStore} {v : Validator}
    (hfaithful : w.Faithful store val)
    (hval : k.sdk.valAddressFromBech32 v.operatorAddress = .ok val) :
    w.outlierPairs store v = [] := by
  rw [Window.outlierPairs, List.filter_eq_nil_iff]
  intro pair hpair hout
  rw [decide_eq_true_eq] at hout
  obtain ⟨f, hf, hoper, hout⟩ := hout
  rw [← hoper] at hval
  obtain ⟨low, high, hlow, hnarrow, hmajority, hprice⟩ :=
    hfaithful.agreed pair hpair f hf hval
  exact Window.not_outlying_of_majority hlow hnarrow hmajority hprice hout

end Faithful

/-- Over a whole run, a validator which reports every published pair with a
majority of the reports is never slashed, whatever the others do and however
the parameters change. -/
theorem faithful_validator_never_slashed
    {k : Keeper} {history : OracleHistory k} {store : OracleStore}
    {val : Address} (hreached : Reached k history store)
    (hfaithful : FaithfulThrough k val history) :
    ∀ before ctx staking result,
      (before, OracleStep.endBlock ctx staking) ∈ history →
      endBlocker k ctx staking before = .ok result →
      ∀ vals, staking.bondedValidatorsByPower = .ok vals →
      ∀ v ∈ vals, k.sdk.valAddressFromBech32 v.operatorAddress = .ok val →
        Window.OwnConsAddr vals v → slashedFraction result.2 v = 0 := by
  intro before ctx staking result hentry hcall vals hvals v hv hval hown
  obtain ⟨newer, older, hsplit, hbefore⟩ := hreached.exists_before hentry
  have hpast : FaithfulThrough k val older := fun entry hmem =>
    hfaithful entry (hsplit ▸ List.mem_append_right newer
      (List.mem_cons_of_mem _ hmem))
  rcases endBlocker_cases hcall with ⟨-, rfl⟩ | ⟨hboundary, w, hopen, hclose⟩
  · rfl
  · have hclosed := windowClosed_boundary hboundary hopen
    have hwvals : w.vals = vals := by
      obtain ⟨-, -, -, hbondedVals, -⟩ := openWindow_eq_ok_iff.mp hopen
      exact Except.ok.inj (hbondedVals.symm.trans hvals)
    rw [← hwvals] at hv hown
    have hbonded := (bondedAt_boundary_iff hclosed).mpr ⟨v, hv, hval⟩
    have hwindow := hfaithful _ hentry w hclosed hbonded
    rw [Window.slashedFraction_of_close
        (Window.distinct_of_openWindow hopen) hclose hv hown,
      Window.dueFraction, outlierPairs_of_faithful hwindow hval]
    have hmisses := not_missesTooOften_of_faithful
      (countersMatch_of_reached hbefore val)
      (sound_of_reached hbefore).params_valid hopen hpast.windowsMissed
      hwindow hval
    simp [hmisses]

/-- Two validators agree on a price for a window, and neither is slashed. -/
theorem agreeing_validator_not_slashed :
    ∃ history store before result,
      Reached referenceKeeper history store ∧
        FaithfulThrough referenceKeeper (addressOf 2) history ∧
        (before, OracleStep.endBlock boundaryCtx twoValidators) ∈ history ∧
        endBlocker referenceKeeper boundaryCtx twoValidators before =
          .ok result ∧
        slashedFraction result.2 secondValidator = 0 := by
  have hfacts : (replayGenesis referenceKeeper boundaryCtx twoValidators
      singlePairGenesis
      [.submitFeed boundaryCtx twoValidators (firstFeed "1.0"),
        .submitFeed boundaryCtx twoValidators (secondFeed "1.0")]).any
          (fun r =>
            (r.2.1.all fun entry =>
              (windowClosed referenceKeeper entry).isNone) &&
            (endBlocker referenceKeeper boundaryCtx twoValidators
              r.2.2).toOption.any (fun _ => true) &&
            (windowClosed referenceKeeper
              (r.2.2, .endBlock boundaryCtx twoValidators)).all fun w =>
                decide (0 ≤ w.outlierThreshold.toRat) &&
                (w.livePairs r.2.2).all fun pair =>
                  (r.2.2.get (.feed (addressOf 2) pair)).isSome &&
                  decide (w.Majority r.2.2 pair 1 1) &&
                  (w.countedFeeds r.2.2 pair).all fun f =>
                    decide (f.value = 1)) = true := by
    decide +kernel
  rcases exists_some_of_any hfacts with ⟨⟨start, older, before⟩, hreplay,
    hchecked⟩
  simp only [Bool.and_eq_true, decide_eq_true_eq, List.all_eq_true,
    Option.all_eq_true, Option.isNone_iff_eq_none] at hchecked
  obtain ⟨⟨hquiet, hcompletes⟩, hagreed⟩ := hchecked
  obtain ⟨result, hcall, -⟩ := exists_ok_of_any hcompletes
  rcases run_of_replayGenesis hreplay with ⟨hinit, hrun⟩
  have hstep : oracleStep referenceKeeper before
      (.endBlock boundaryCtx twoValidators) = some result.1 := by
    simp [oracleStep, hcall]
  have hreached : Reached referenceKeeper
      ((before, .endBlock boundaryCtx twoValidators) :: older) result.1 :=
    ⟨_, _, _, _, hinit, hrun.next hstep⟩
  have hfaithful : FaithfulThrough referenceKeeper (addressOf 2)
      ((before, .endBlock boundaryCtx twoValidators) :: older) := by
    intro entry hentry w hclosed hbonded
    rcases List.mem_cons.mp hentry with rfl | holder
    · obtain ⟨hthreshold, hpairs⟩ := hagreed w hclosed
      refine ⟨?_, ?_⟩
      · intro pair hpair
        exact Option.isSome_iff_ne_none.mp (hpairs pair hpair).1.1
      · intro pair hpair f hf hval
        have hvalue := (hpairs pair hpair).2 f hf
        exact ⟨1, 1, by norm_num, by simpa using hthreshold,
          (hpairs pair hpair).1.2, hvalue.ge, hvalue.le⟩
    · rw [hquiet entry holder] at hclosed
      cases hclosed
  obtain ⟨vals, hvals, hmem, hown⟩ := secondValidator_bonded
  exact ⟨_, _, before, result, hreached, hfaithful, List.mem_cons_self, hcall,
    faithful_validator_never_slashed hreached hfaithful before boundaryCtx
      twoValidators result List.mem_cons_self hcall vals hvals
      secondValidator hmem (by decide +kernel) hown⟩

/-! ## The validator that misses -/

/-- The step slashed the validator for missing too many windows. -/
def missSlashedAt (k : Keeper) (val : Address)
    (entry : OracleStore × OracleStep k) : Bool :=
  (windowClosed k entry).any fun w => w.vals.any fun v =>
    decide (k.sdk.valAddressFromBech32 v.operatorAddress = .ok val) &&
      !(w.missSlash entry.1 (w.livePairs entry.1) v).isEmpty

section Misses

variable {k : Keeper} {val : Address} {history : OracleHistory k}
  {entry : OracleStore × OracleStep k}

theorem exists_missSlash_of_missSlashedAt
    (hslashed : missSlashedAt k val entry = true) :
    ∃ w, windowClosed k entry = some w ∧ ∃ v ∈ w.vals,
      k.sdk.valAddressFromBech32 v.operatorAddress = .ok val ∧
        w.missSlash entry.1 (w.livePairs entry.1) v ≠ [] := by
  obtain ⟨w, hclosed, hany⟩ := exists_some_of_any hslashed
  obtain ⟨v, hv, hchecked⟩ := List.any_eq_true.mp hany
  rw [Bool.and_eq_true, decide_eq_true_eq, Bool.not_eq_true',
    List.isEmpty_eq_false_iff] at hchecked
  exact ⟨w, hclosed, v, hv, hchecked⟩

/-- A miss penalty is given only when the validator is evaluated. -/
theorem evaluatedAt_of_missSlashedAt
    (hmatch : CountersMatch k val history entry.1)
    (hslashed : missSlashedAt k val entry = true) :
    evaluatedAt k val (sinceReset k val history) entry = true := by
  obtain ⟨w, hclosed, v, hv, hval, hslash⟩ :=
    exists_missSlash_of_missSlashedAt hslashed
  have hbonded := (bondedAt_boundary_iff hclosed).mpr ⟨v, hv, hval⟩
  obtain ⟨val', -, hval', hsize, -⟩ :=
    ((Window.missSlash_ne_nil_iff hval).mp hslash).1
  obtain rfl : val = val' := Except.ok.inj (hval.symm.trans hval')
  obtain ⟨ctx, staking, -, -, hopen⟩ := exists_boundary_of_windowClosed hclosed
  obtain ⟨-, -, hparams, -⟩ := openWindow_eq_ok_iff.mp hopen
  rw [hparams] at hsize
  exact (evaluatedAt_iff hmatch hbonded).mpr hsize

/-- A validator is evaluated after as many windows as the parameters ask for,
and starts again with none. -/
theorem windowsCounted_of_evaluatedAt {w : Window k.sdk}
    (hclosed : windowClosed k entry = some w)
    (hevaluated : evaluatedAt k val (sinceReset k val history) entry = true) :
    bondedAt k val entry = true ∧
      w.params.missWindowSize.toInt ≤ windowsCounted k val history + 1 ∧
      windowsCounted k val (entry :: history) = 0 := by
  have hreset : sinceReset k val (entry :: history) = [] := by
    rw [sinceReset, hevaluated, Bool.or_true, if_pos rfl]
  rw [evaluatedAt, Bool.and_eq_true, decide_eq_true_eq] at hevaluated
  obtain ⟨hbonded, hsize⟩ := hevaluated
  obtain ⟨ctx, staking, -, -, hopen⟩ := exists_boundary_of_windowClosed hclosed
  obtain ⟨-, -, hparams, -⟩ := openWindow_eq_ok_iff.mp hopen
  rw [List.countP_cons_of_pos hbonded, ← hparams] at hsize
  refine ⟨hbonded, by exact_mod_cast hsize, ?_⟩
  rw [windowsCounted, hreset, List.countP_nil]

theorem windowsCounted_cons_le (k : Keeper) (val : Address)
    (history : OracleHistory k) (entry : OracleStore × OracleStep k) :
    windowsCounted k val (entry :: history) ≤
      windowsCounted k val history +
        if bondedAt k val entry = true then 1 else 0 := by
  rw [windowsCounted, sinceReset]
  split_ifs with hreset <;> simp_all [windowsCounted]

/-- The windows counted since the last reset are the credit from which the next
penalty is paid. -/
theorem missSlashes_step {m : ℕ}
    (hmatch : CountersMatch k val history entry.1)
    (hsize : ∀ w, windowClosed k entry = some w →
      (m : ℤ) ≤ w.params.missWindowSize.toInt)
    (hpaid : m * history.countP (missSlashedAt k val) +
      windowsCounted k val history ≤ history.countP (bondedAt k val)) :
    m * (entry :: history).countP (missSlashedAt k val) +
        windowsCounted k val (entry :: history) ≤
      (entry :: history).countP (bondedAt k val) := by
  by_cases hslashed : missSlashedAt k val entry = true
  · obtain ⟨w, hclosed, -⟩ := exists_missSlash_of_missSlashedAt hslashed
    obtain ⟨hbonded, hcredit, hspent⟩ := windowsCounted_of_evaluatedAt hclosed
      (evaluatedAt_of_missSlashedAt hmatch hslashed)
    have hcost := hsize w hclosed
    rw [List.countP_cons_of_pos hslashed, List.countP_cons_of_pos hbonded,
      hspent, Nat.mul_add]
    omega
  · have hcounted := windowsCounted_cons_le k val history entry
    rw [List.countP_cons_of_neg hslashed, List.countP_cons]
    omega

end Misses

/-- A validator loses the miss penalty at most once for every `m` windows in
which it was bonded, if no window of the run was evaluated over fewer. -/
theorem miss_slashes_rate_limited
    {k : Keeper} {history : OracleHistory k} {store : OracleStore}
    (hreached : Reached k history store) (val : Address) {m : ℕ}
    (hsize : ∀ entry ∈ history, ∀ w, windowClosed k entry = some w →
      (m : ℤ) ≤ w.params.missWindowSize.toInt) :
    m * history.countP (missSlashedAt k val) ≤
      history.countP (bondedAt k val) := by
  obtain ⟨ctx, staking, gs, start, hinit, hrun⟩ := hreached
  have hpaid : m * history.countP (missSlashedAt k val) +
      windowsCounted k val history ≤ history.countP (bondedAt k val) := by
    refine hrun.induct_conditional
      (P := fun history _ => m * history.countP (missSlashedAt k val) +
        windowsCounted k val history ≤ history.countP (bondedAt k val))
      (C := fun store step => ∀ w, windowClosed k (store, step) = some w →
        (m : ℤ) ≤ w.params.missWindowSize.toInt) ?_ ?_ hsize
    · simp [windowsCounted, sinceReset]
    · intro history before step after hbefore hpaid hsize hstep
      have hmatch := countersMatch_of_reached
        ⟨ctx, staking, gs, start, hinit, hbefore⟩ val
      exact missSlashes_step hmatch hsize hpaid
  omega

/-- A run in which the second validator never reports. -/
def silentSecond : List (OracleStep referenceKeeper) :=
  [.submitFeed boundaryCtx twoValidators (firstFeed "1.0"),
    .endBlock boundaryCtx twoValidators,
    .submitFeed boundaryCtx twoValidators (firstFeed "1.0"),
    .endBlock boundaryCtx twoValidators]

/-- Two missed windows of two cost one penalty. -/
theorem silent_validator_slashed_once :
    ∃ history store,
      Reached referenceKeeper history store ∧
        history.countP (missSlashedAt referenceKeeper (addressOf 2)) = 1 ∧
        history.countP (bondedAt referenceKeeper (addressOf 2)) = 2 ∧
        2 * history.countP (missSlashedAt referenceKeeper (addressOf 2)) ≤
          history.countP (bondedAt referenceKeeper (addressOf 2)) := by
  have hfacts : (replayGenesis referenceKeeper boundaryCtx twoValidators
      ⟨{ defaultParams with
          acceptList := ["VTX:USD"], missWindowSize := 2,
          quorumFraction := "0.5" }, [], []⟩ silentSecond).any (fun r =>
        decide (r.2.1.countP (missSlashedAt referenceKeeper (addressOf 2)) = 1) &&
        decide (r.2.1.countP (bondedAt referenceKeeper (addressOf 2)) = 2) &&
        r.2.1.all fun entry => (windowClosed referenceKeeper entry).all fun w =>
          decide ((2 : ℤ) ≤ w.params.missWindowSize.toInt)) = true := by
    decide +kernel
  rcases exists_some_of_any hfacts with ⟨⟨start, history, store⟩, hreplay,
    hchecked⟩
  simp only [Bool.and_eq_true, decide_eq_true_eq, List.all_eq_true,
    Option.all_eq_true] at hchecked
  obtain ⟨⟨hslashed, hbonded⟩, hsize⟩ := hchecked
  rcases run_of_replayGenesis hreplay with ⟨hinit, hrun⟩
  have hreached : Reached referenceKeeper history store :=
    ⟨_, _, _, _, hinit, hrun⟩
  exact ⟨history, store, hreached, hslashed, hbonded,
    miss_slashes_rate_limited hreached (addressOf 2) hsize⟩

end Oracle
end Vertix

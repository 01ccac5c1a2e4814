import Vertix.OracleMajority
import Mathlib.Tactic

/-!
# How much one boundary call slashes

Every slash rate is below the double-sign ceiling, but the outlier rate is
applied once for each published pair and the miss rate on top.  The fractions
passed for one validator add up to a sum which is read off the store before
the call; only this sum can be compared with the ceiling.
-/

namespace Vertix
namespace Oracle

/-- The scaled sum of the fractions which the calls pass for a validator. -/
def slashedFraction (calls : List SlashCall) (v : Validator) : ℤ :=
  ((calls.filter fun call => some call.consAddr = v.consAddr).map
    fun call => call.rate.raw).sum

theorem slashedFraction_append (left right : List SlashCall) (v : Validator) :
    slashedFraction (left ++ right) v =
      slashedFraction left v + slashedFraction right v := by
  simp [slashedFraction]

theorem slashedFraction_flatMap {α : Type} (items : List α)
    (calls : α → List SlashCall) (v : Validator) :
    slashedFraction (items.flatMap calls) v =
      (items.map fun item => slashedFraction (calls item) v).sum := by
  induction items with
  | nil => rfl
  | cons item rest ih =>
      rw [List.flatMap_cons, slashedFraction_append, ih, List.map_cons,
        List.sum_cons]

/-- Among items with distinct keys at most one has the given key. -/
theorem sum_indicator_of_nodup {α β : Type} [DecidableEq β] {key : α → β}
    {items : List α} (hnodup : (items.map key).Nodup) (target : β)
    (holds : α → Prop) [DecidablePred holds] (rate : ℤ) :
    (items.map fun item =>
        if key item = target ∧ holds item then rate else 0).sum =
      if ∃ item ∈ items, key item = target ∧ holds item then rate else 0 := by
  induction items with
  | nil => simp
  | cons item rest ih =>
      rw [List.map_cons, List.nodup_cons] at hnodup
      rw [List.map_cons, List.sum_cons, ih hnodup.2]
      by_cases hitem : key item = target ∧ holds item
      · have hrest : ¬ ∃ other ∈ rest, key other = target ∧ holds other := by
          rintro ⟨other, hother, hkey, -⟩
          apply hnodup.1
          rw [hitem.1, ← hkey]
          exact List.mem_map_of_mem hother
        rw [if_pos hitem, if_neg hrest, if_pos ⟨item, by simp, hitem⟩,
          add_zero]
      · rw [if_neg hitem, zero_add]
        have hsame : (∃ other ∈ item :: rest,
            key other = target ∧ holds other) ↔
              ∃ other ∈ rest, key other = target ∧ holds other := by
          simp [hitem]
        simp only [hsame]

theorem sum_indicator {α : Type} (items : List α) (holds : α → Prop)
    [DecidablePred holds] (rate : ℤ) :
    (items.map fun item => if holds item then rate else 0).sum =
      (items.filter fun item => holds item).length * rate := by
  induction items with
  | nil => simp
  | cons item rest ih =>
      rw [List.map_cons, List.sum_cons, ih]
      by_cases hitem : holds item
      · rw [if_pos hitem, List.filter_cons_of_pos (by simpa using hitem),
          List.length_cons]
        push_cast
        ring
      · rw [if_neg hitem, List.filter_cons_of_neg (by simpa using hitem),
          zero_add]

namespace Window

variable {sdk : Sdk}

/-- The published pairs for which the validator is an outlier. -/
def outlierPairs (w : Window sdk) (store : OracleStore) (v : Validator) :
    List String :=
  (w.livePairs store).filter fun pair =>
    ∃ f ∈ w.countedFeeds store pair,
      f.valoper = v.operatorAddress ∧ w.Outlying store pair f

/-- The scaled sum of the fractions due from a validator: the outlier rate for
each pair, and the miss rate if it misses too often and has power. -/
def dueFraction (w : Window sdk) (store : OracleStore) (v : Validator) : ℤ :=
  if v.consAddr = none then 0
  else (w.outlierPairs store v).length * w.outlierSlashRate.raw +
    if w.MissesTooOften store (w.livePairs store) v ∧
        w.staking.operatorPower v.operatorAddress ≠ 0 then
      w.missSlashRate.raw
    else 0

theorem slashedFraction_slashValidator
    (w : Window sdk) (u v : Validator) (rate : LegacyDec) :
    slashedFraction (w.slashValidator u rate) v =
      if u.consAddr ≠ none ∧ u.consAddr = v.consAddr ∧
          w.staking.operatorPower u.operatorAddress ≠ 0 then rate.raw
      else 0 := by
  unfold slashValidator StakingView.operatorPower
  cases hcons : u.consAddr with
  | none => simp [slashedFraction]
  | some consAddr =>
      cases hval : sdk.valAddressFromBech32 u.operatorAddress with
      | error reason => simp [slashedFraction]
      | ok val =>
          cases hpower : w.staking.lastValidatorPower val.bytes with
          | error reason => simp [slashedFraction, hpower]
          | ok power =>
              by_cases hzero : power = 0
              · simp [slashedFraction, hpower, hzero]
              · have hnonzero : power.toInt ≠ 0 := by
                  intro h
                  exact hzero (Int64.toInt_inj.mp h)
                by_cases hsame : some consAddr = v.consAddr
                · simp [slashedFraction, hpower, hzero, hnonzero, ← hsame]
                · simp [slashedFraction, hpower, hzero, hsame]

/-- The validator is the only one of the list with its consensus address. -/
def OwnConsAddr (vals : List Validator) (v : Validator) : Prop :=
  v.consAddr ≠ none → ∀ u ∈ vals, u.consAddr = v.consAddr → u = v

theorem operatorPower_ne_zero_of_counted
    {w : Window sdk} {store : OracleStore} {pair : String} {f : WeightedPrice}
    (hf : f ∈ w.countedFeeds store pair) :
    w.staking.operatorPower f.valoper ≠ 0 := by
  rcases mem_countedFeeds_iff.mp hf with
    ⟨val, feed, -, -, -, hoper, hpower, hnonzero, -⟩
  unfold StakingView.operatorPower
  rw [hoper, sdk.valAddress_roundTrip]
  simp only [hpower]
  intro h
  exact hnonzero (Int64.toInt_inj.mp h)

theorem slashedFraction_outlierSlash
    {w : Window sdk} {store : OracleStore} {pair : String} {f : WeightedPrice}
    {v : Validator} (hdistinct : Distinct sdk w.vals) (hv : v ∈ w.vals)
    (hcons : v.consAddr ≠ none) (hown : OwnConsAddr w.vals v)
    (hf : f ∈ w.countedFeeds store pair) :
    slashedFraction (w.outlierSlash store pair f) v =
      if f.valoper = v.operatorAddress ∧ w.Outlying store pair f then
        w.outlierSlashRate.raw
      else 0 := by
  rcases mem_countedFeeds_iff.mp hf with ⟨-, -, -, -, -, -, -, -, u, hu, -⟩
  have hoper := (mem_of_valByOper hu).2
  have hsame : u.consAddr = v.consAddr ↔ f.valoper = v.operatorAddress := by
    constructor
    · intro heq
      rw [← hoper, hown hcons u (mem_of_valByOper hu).1 heq]
    · intro heq
      rw [List.inj_on_of_nodup_map hdistinct.nodup (mem_of_valByOper hu).1 hv
        (hoper.trans heq)]
  unfold outlierSlash
  by_cases hout : w.Outlying store pair f
  · rw [if_pos hout, slashOperator, hu]
    simp only [slashedFraction_slashValidator, hoper, hsame]
    by_cases hit : f.valoper = v.operatorAddress
    · rw [if_pos ⟨by rw [hsame.mpr hit]; exact hcons, hit,
        operatorPower_ne_zero_of_counted hf⟩, if_pos ⟨hit, hout⟩]
    · rw [if_neg (fun h => hit h.2.1), if_neg (fun h => hit h.1)]
  · rw [if_neg hout, if_neg (fun h => hout h.2)]
    rfl

theorem slashedFraction_outlierSlashes
    {w : Window sdk} {store : OracleStore} {pair : String} {v : Validator}
    (hdistinct : Distinct sdk w.vals) (hv : v ∈ w.vals)
    (hcons : v.consAddr ≠ none) (hown : OwnConsAddr w.vals v) :
    slashedFraction (w.outlierSlashes store pair) v =
      if ∃ f ∈ w.countedFeeds store pair,
          f.valoper = v.operatorAddress ∧ w.Outlying store pair f then
        w.outlierSlashRate.raw
      else 0 := by
  rw [outlierSlashes, slashedFraction_flatMap,
    List.map_congr_left fun f hf =>
      slashedFraction_outlierSlash hdistinct hv hcons hown hf]
  exact sum_indicator_of_nodup (countedFeeds_valoper_nodup w store pair) _ _ _

theorem slashedFraction_missSlash
    {w : Window sdk} {store : OracleStore} {u v : Validator}
    (hdistinct : Distinct sdk w.vals) (hu : u ∈ w.vals) (hv : v ∈ w.vals)
    (hcons : v.consAddr ≠ none) (hown : OwnConsAddr w.vals v) :
    slashedFraction (w.missSlash store (w.livePairs store) u) v =
      if u.operatorAddress = v.operatorAddress ∧
          (w.MissesTooOften store (w.livePairs store) u ∧
            w.staking.operatorPower u.operatorAddress ≠ 0) then
        w.missSlashRate.raw
      else 0 := by
  have hsame : u.consAddr = v.consAddr ↔
      u.operatorAddress = v.operatorAddress := by
    constructor
    · intro heq
      rw [hown hcons u hu heq]
    · intro heq
      rw [List.inj_on_of_nodup_map hdistinct.nodup hu hv heq]
  unfold missSlash
  by_cases hmiss : w.MissesTooOften store (w.livePairs store) u
  · rw [if_pos hmiss, slashedFraction_slashValidator]
    by_cases hit : u.operatorAddress = v.operatorAddress
    · have hknown : u.consAddr ≠ none := by
        rw [hsame.mpr hit]
        exact hcons
      simp [hknown, hsame, hit, hmiss]
    · rw [if_neg (fun h => hit (hsame.mp h.2.1)), if_neg (fun h => hit h.1)]
  · rw [if_neg hmiss, if_neg (fun h => hmiss h.2.1)]
    rfl

/-- A boundary call passes exactly the fractions which are due. -/
theorem slashedFraction_of_close
    {w : Window sdk} {store : OracleStore}
    {result : OracleStore × List SlashCall} {v : Validator}
    (hdistinct : Distinct sdk w.vals) (hclose : w.close store = .ok result)
    (hv : v ∈ w.vals) (hown : OwnConsAddr w.vals v) :
    slashedFraction result.2 v = w.dueFraction store v := by
  unfold dueFraction
  by_cases hcons : v.consAddr = none
  · rw [if_pos hcons, slashedFraction, hcons]
    simp
  · rw [if_neg hcons, slashes_of_close hdistinct hclose,
      slashedFraction_append, slashedFraction_flatMap,
      slashedFraction_flatMap,
      List.map_congr_left fun pair _ =>
        slashedFraction_outlierSlashes hdistinct hv hcons hown,
      List.map_congr_left fun u hu =>
        slashedFraction_missSlash hdistinct hu hv hcons hown,
      sum_indicator, sum_indicator_of_nodup hdistinct.nodup]
    congr 1
    have hthis : (∃ u ∈ w.vals, u.operatorAddress = v.operatorAddress ∧
        (w.MissesTooOften store (w.livePairs store) u ∧
          w.staking.operatorPower u.operatorAddress ≠ 0)) ↔
        w.MissesTooOften store (w.livePairs store) v ∧
          w.staking.operatorPower v.operatorAddress ≠ 0 := by
      constructor
      · rintro ⟨u, hu, hoper, hmiss⟩
        rw [List.inj_on_of_nodup_map hdistinct.nodup hu hv hoper] at hmiss
        exact hmiss
      · intro hmiss
        exact ⟨v, hv, rfl, hmiss⟩
    simp only [hthis]

end Window

/-- The fraction due from a validator at a call, which is nothing away from a
boundary. -/
def dueFraction (k : Keeper) (ctx : Ctx) (staking : StakingView k.sdk)
    (store : OracleStore) (v : Validator) : ℤ :=
  if ctx.blockHeight % (getParams store).voteWindow = 0 then
    (openWindow k.sdk ctx staking (getParams store)).toOption.elim 0
      fun w => w.dueFraction store v
  else 0

theorem slashedFraction_of_endBlocker
    {k : Keeper} {ctx : Ctx} {staking : StakingView k.sdk}
    {store : OracleStore} {result : OracleStore × List SlashCall}
    {vals : List Validator} {v : Validator}
    (hcall : endBlocker k ctx staking store = .ok result)
    (hvals : staking.bondedValidatorsByPower = .ok vals) (hv : v ∈ vals)
    (hown : Window.OwnConsAddr vals v) :
    slashedFraction result.2 v = dueFraction k ctx staking store v := by
  unfold dueFraction
  rcases endBlocker_cases hcall with ⟨hinside, rfl⟩ |
    ⟨hboundary, w, hopen, hclose⟩
  · rw [if_neg hinside]
    rfl
  · have hsame : w.vals = vals := by
      have hread := (openWindow_eq_ok_iff.mp hopen).2.2.2.1
      rw [hvals, Except.ok.injEq] at hread
      exact hread.symm
    rw [← hsame] at hv hown
    rw [if_pos hboundary, hopen, Window.slashedFraction_of_close
      (Window.distinct_of_openWindow hopen) hclose hv hown]
    rfl

/-- The fractions passed for a bonded validator during one call stay below the
ceiling exactly when the outlier rate times the number of published pairs for
which it is an outlier, with the miss rate if that applies, does. -/
theorem slashing_below_ceiling_iff
    {k : Keeper} {ctx : Ctx} {staking : StakingView k.sdk}
    {store : OracleStore} {result : OracleStore × List SlashCall}
    {vals : List Validator} {v : Validator}
    (hcall : endBlocker k ctx staking store = .ok result)
    (hvals : staking.bondedValidatorsByPower = .ok vals) (hv : v ∈ vals)
    (hown : Window.OwnConsAddr vals v) :
    slashedFraction result.2 v < slashCeiling.raw ↔
      dueFraction k ctx staking store v < slashCeiling.raw := by
  rw [slashedFraction_of_endBlocker hcall hvals hv hown]

/-! ## Two validators, two pairs -/

def secondValidator : Validator :=
  ⟨referenceSdk.valAddressString (addressOf 2).bytes, .bonded,
    some (List.replicate 20 4)⟩

/-- The bonded validators of the example and their consensus addresses. -/
theorem secondValidator_bonded :
    ∃ vals, twoValidators.bondedValidatorsByPower = .ok vals ∧
      secondValidator ∈ vals ∧ Window.OwnConsAddr vals secondValidator := by
  refine ⟨_, rfl, ?_, ?_⟩
  · decide +kernel
  · intro _
    decide +kernel

/-- One outlier slash at the default rate of one percent. -/
theorem one_outlier_below_ceiling :
    ∃ result,
      endBlocker referenceKeeper boundaryCtx twoValidators nearPrices =
          .ok result ∧
        slashedFraction result.2 secondValidator < slashCeiling.raw := by
  rcases endBlocker_completes_on_near_prices with ⟨result, hcall⟩
  rcases secondValidator_bonded with ⟨vals, hvals, hv, hown⟩
  refine ⟨result, hcall, ?_⟩
  apply (slashing_below_ceiling_iff hcall hvals hv hown).mpr
  decide +kernel

/-- Both rates are accepted by `OracleParams.Validate`. -/
def twoPairGenesis : GenesisState :=
  ⟨{ defaultParams with
      acceptList := ["VTX:USD", "BTC:USD"], outlierSlashRate := "0.03" },
    [], []⟩

/-- Both pairs are reported by both validators, and the second one is off by a
fifth twice. -/
def twoPairFeeds : List (OracleStep referenceKeeper) :=
  [.submitFeed boundaryCtx twoValidators (firstFeed "1.0"),
    .submitFeed boundaryCtx twoValidators (secondFeed "1.2"),
    .submitFeed boundaryCtx twoValidators
      { firstFeed "1.0" with pair := "BTC:USD" },
    .submitFeed boundaryCtx twoValidators
      { secondFeed "1.2" with pair := "BTC:USD" }]

/-- A rate of three percent is applied once for each of two pairs, six percent
in one call. -/
theorem two_outliers_exceed_ceiling :
    ∃ history store result,
      Reached referenceKeeper history store ∧
        (getParams store).outlierSlashRate = "0.03" ∧
        endBlocker referenceKeeper boundaryCtx twoValidators store =
          .ok result ∧
        slashedFraction result.2 secondValidator = 6 * 10 ^ 16 ∧
        ¬ slashedFraction result.2 secondValidator < slashCeiling.raw := by
  have hfacts : (replayGenesis referenceKeeper boundaryCtx twoValidators
      twoPairGenesis twoPairFeeds).any (fun r =>
        (getParams r.2.2).outlierSlashRate == "0.03" &&
        (endBlocker referenceKeeper boundaryCtx twoValidators
          r.2.2).toOption.any (fun result =>
            slashedFraction result.2 secondValidator == 6 * 10 ^ 16)) =
              true := by
    decide +kernel
  rcases exists_some_of_any hfacts with ⟨⟨start, history, store⟩, hreplay,
    hchecked⟩
  simp only [Bool.and_eq_true, beq_iff_eq] at hchecked
  rcases hchecked with ⟨hrate, hclosed⟩
  rcases exists_ok_of_any hclosed with ⟨result, hcall, hfraction⟩
  rw [beq_iff_eq] at hfraction
  rcases run_of_replayGenesis hreplay with ⟨hinit, hrun⟩
  refine ⟨history, store, result, ⟨_, _, _, _, hinit, hrun⟩, hrate, hcall,
    hfraction, ?_⟩
  rw [hfraction]
  decide

end Oracle
end Vertix

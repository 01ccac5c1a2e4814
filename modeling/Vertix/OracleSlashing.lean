import Vertix.OracleEndBlock
import Mathlib.Tactic

/-!
# Slashes of a boundary call

A completed boundary call slashes for two reasons only: a counted submission
far from the unweighted median of a published pair, and a closed participation
window with too many misses.  Both reasons are read off the store before the
call.
-/

namespace Vertix
namespace Oracle
namespace Window

variable {sdk : Sdk}

instance decidableQualifies (w : Window sdk) (store : OracleStore)
    (pair : String) : Decidable (w.Qualifies store pair) := by
  unfold Qualifies
  infer_instance

/-! ## Reasons to slash -/

/-- A submission deviates from the unweighted median of its pair by more than
the threshold. -/
def Outlying (w : Window sdk) (store : OracleStore) (pair : String)
    (f : WeightedPrice) : Prop :=
  ∃ dev, deviation f.price
      (unweightedMedian ((w.countedFeeds store pair).map
        WeightedPrice.price)) = .ok dev ∧
    w.outlierThreshold.raw < dev.raw

instance decidableOutlying (w : Window sdk) (store : OracleStore)
    (pair : String) (f : WeightedPrice) : Decidable (w.Outlying store pair f) :=
  decidable_of_iff
    ((deviation f.price
      (unweightedMedian ((w.countedFeeds store pair).map
        WeightedPrice.price))).toOption.any
          (fun dev => decide (w.outlierThreshold.raw < dev.raw)) = true)
    (by simp [Outlying, Option.any_eq_true, toOption_eq_some_iff])

/-- What the aggregation loop slashes for one submission. -/
def outlierSlash (w : Window sdk) (store : OracleStore) (pair : String)
    (f : WeightedPrice) : List SlashCall :=
  if w.Outlying store pair f then
    w.slashOperator f.valoper w.outlierSlashRate
  else []

def outlierSlashes (w : Window sdk) (store : OracleStore) (pair : String) :
    List SlashCall :=
  (w.countedFeeds store pair).flatMap (w.outlierSlash store pair)

/-- The pairs which the call publishes. -/
def livePairs (w : Window sdk) (store : OracleStore) : List String :=
  w.params.acceptList.filter fun pair => w.Qualifies store pair

def submittedAll (store : OracleStore) (val : Address)
    (pairs : List String) : Bool :=
  pairs.all fun pair =>
    (getValidatorSubmittedPairs store val).contains (strBytes pair)

/-- The miss counter after a window in which the given pairs were live. -/
def closingMiss (store : OracleStore) (val : Address)
    (live : List String) : Int64 :=
  if submittedAll store val live then getMissCounter store val
  else getMissCounter store val + 1

def closingTotal (store : OracleStore) (val : Address) : Int64 :=
  getTotalWindows store val + 1

/-- The validator completes its windows with too high a miss rate. -/
def MissesTooOften (w : Window sdk) (store : OracleStore)
    (live : List String) (v : Validator) : Prop :=
  ∃ val missRate, sdk.valAddressFromBech32 v.operatorAddress = .ok val ∧
    w.params.missWindowSize ≤ closingTotal store val ∧
    (legacyNewDec (closingMiss store val live)).quo?
      (legacyNewDec (closingTotal store val)) = some missRate ∧
    w.missThreshold.raw < missRate.raw

instance decidableMissesTooOften (w : Window sdk) (store : OracleStore)
    (live : List String) (v : Validator) :
    Decidable (w.MissesTooOften store live v) :=
  decidable_of_iff
    ((sdk.valAddressFromBech32 v.operatorAddress).toOption.any (fun val =>
      decide (w.params.missWindowSize ≤ closingTotal store val) &&
        ((legacyNewDec (closingMiss store val live)).quo?
          (legacyNewDec (closingTotal store val))).any (fun missRate =>
            decide (w.missThreshold.raw < missRate.raw))) = true)
    (by simp [MissesTooOften, Option.any_eq_true, toOption_eq_some_iff])

/-- What the participation loop slashes for one validator. -/
def missSlash (w : Window sdk) (store : OracleStore) (live : List String)
    (v : Validator) : List SlashCall :=
  if w.MissesTooOften store live v then w.slashValidator v w.missSlashRate
  else []

/-! ## Outliers -/

theorem rate_of_mem_slashValidator
    {w : Window sdk} {v : Validator} {rate : LegacyDec} {call : SlashCall}
    (hcall : call ∈ w.slashValidator v rate) : call.rate = rate := by
  unfold slashValidator at hcall
  split at hcall
  next => simp at hcall
  next consAddr =>
    split at hcall
    next => simp at hcall
    next valAddr =>
      split at hcall
      next => simp at hcall
      next power =>
        split_ifs at hcall
        · simp at hcall
        · rw [List.mem_singleton] at hcall
          rw [hcall]

theorem rate_of_mem_slashOperator
    {w : Window sdk} {oper : String} {rate : LegacyDec} {call : SlashCall}
    (hcall : call ∈ w.slashOperator oper rate) : call.rate = rate := by
  unfold slashOperator at hcall
  split at hcall
  next => exact rate_of_mem_slashValidator hcall
  next => simp at hcall

theorem slashOutlier_eq
    {w : Window sdk} {store : OracleStore} {pair : String} {f : WeightedPrice}
    {slashes slashes' : List SlashCall}
    (hslash : w.slashOutlier
      (unweightedMedian ((w.countedFeeds store pair).map
        WeightedPrice.price)) slashes f = .ok slashes') :
    slashes' = slashes ++ w.outlierSlash store pair f := by
  simp only [slashOutlier, bind_eq_ok_iff] at hslash
  rcases hslash with ⟨dev, hdev, hresult⟩
  have hout : w.Outlying store pair f ↔
      w.outlierThreshold.raw < dev.raw := by
    constructor
    · rintro ⟨dev', hdev', hover⟩
      rw [hdev, Except.ok.injEq] at hdev'
      rw [hdev']
      exact hover
    · intro hover
      exact ⟨dev, hdev, hover⟩
  unfold outlierSlash
  by_cases hover : w.outlierThreshold.raw < dev.raw
  · rw [if_pos (hout.mpr hover)]
    rw [if_pos hover, pure_eq_ok_iff] at hresult
    exact hresult.symm
  · rw [if_neg (fun h => hover (hout.mp h)), List.append_nil]
    rw [if_neg hover, pure_eq_ok_iff] at hresult
    exact hresult.symm

/-- The slashes of one published pair. -/
theorem slashOutliers_eq
    {w : Window sdk} {store : OracleStore} {pair : String}
    {slashes slashes' : List SlashCall}
    (hne : w.countedFeeds store pair ≠ [])
    (hslash : w.slashOutliers (w.countedFeeds store pair) slashes =
      .ok slashes') :
    slashes' = slashes ++ w.outlierSlashes store pair := by
  have href := refMedian_pos hne
  unfold slashOutliers at hslash
  simp only [if_pos href] at hslash
  refine foldlM_induct
    (P := fun done slashes' =>
      slashes' = slashes ++ done.flatMap (w.outlierSlash store pair))
    ?_ (by simp) hslash
  intro done state f state' hdone hone
  rw [slashOutlier_eq hone, hdone, List.flatMap_append,
    List.flatMap_singleton, List.append_assoc]

theorem outlierSlashes_congr
    {w : Window sdk} {store store' : OracleStore} {pair : String}
    (hfeeds : w.countedFeeds store' pair = w.countedFeeds store pair) :
    w.outlierSlashes store' pair = w.outlierSlashes store pair := by
  have hout : ∀ f, w.Outlying store' pair f ↔ w.Outlying store pair f := by
    intro f
    unfold Outlying
    rw [hfeeds]
  have hone : w.outlierSlash store' pair = w.outlierSlash store pair := by
    funext f
    simp only [outlierSlash, hout]
  rw [outlierSlashes, outlierSlashes, hfeeds, hone]

/-- The slashes of the aggregation loop, in order. -/
theorem aggregate_slashes
    {w : Window sdk} {store : OracleStore} {s : Progress}
    (hloop : w.aggregate store = .ok s) :
    s.slashes = (w.livePairs store).flatMap (w.outlierSlashes store) := by
  have hall := foldlM_induct
    (P := fun done s => w.Aggregated store done s ∧
      s.slashes = (done.filter fun pair => w.Qualifies store pair).flatMap
        (w.outlierSlashes store))
    ?_ ⟨Aggregated.initial w store [], by simp⟩ hloop
  · exact hall.2
  · rintro done state pair state' ⟨hdone, hslashes⟩ hpair
    refine ⟨hdone.aggregatePair hpair, ?_⟩
    rw [List.filter_append, List.flatMap_append, ← hslashes]
    rcases aggregatePair_cases hpair with ⟨hnot, hsame⟩ |
      ⟨hqualifies, -, -, hslash⟩
    · rw [hdone.qualifies_iff] at hnot
      rw [hsame, List.filter_cons_of_neg (by simpa using hnot)]
      simp
    · have hfeeds := hdone.countedFeeds_eq pair
      rw [slashOutliers_eq hqualifies.1 hslash, outlierSlashes_congr hfeeds]
      rw [hdone.qualifies_iff] at hqualifies
      rw [List.filter_cons_of_pos (by simpa using hqualifies)]
      simp

/-- Every slash of the aggregation loop has a reason. -/
theorem mem_aggregate_slashes
    {w : Window sdk} {store : OracleStore} {s : Progress}
    (hloop : w.aggregate store = .ok s) :
    ∀ call ∈ s.slashes, call.rate = w.outlierSlashRate ∧
      ∃ pair ∈ w.params.acceptList, w.Qualifies store pair ∧
        ∃ f ∈ w.countedFeeds store pair, w.Outlying store pair f := by
  intro call hcall
  rw [aggregate_slashes hloop, List.mem_flatMap] at hcall
  rcases hcall with ⟨pair, hpair, hcall⟩
  rcases List.mem_flatMap.mp hcall with ⟨f, hf, hslash⟩
  rw [livePairs, List.mem_filter, decide_eq_true_eq] at hpair
  unfold outlierSlash at hslash
  split_ifs at hslash with hout
  · exact ⟨rate_of_mem_slashOperator hslash, pair, hpair.1, hpair.2, f, hf,
      hout⟩
  · simp at hslash

/-! ## Misses -/

theorem getMissCounter_incTotalWindows (store : OracleStore)
    (val : Address) :
    getMissCounter (incTotalWindows store val).1 val =
      getMissCounter store val := by
  unfold getMissCounter readCounter incTotalWindows
  rw [TypedStore.get_set_of_ne _ _ (by simp)]

/-- The counters of a validator and the value its miss counter takes. -/
def countMiss (store : OracleStore) (val : Address) (submitted : Bool) :
    OracleStore × Int64 :=
  if submitted then ((incTotalWindows store val).1,
      getMissCounter (incTotalWindows store val).1 val)
  else incMissCounter (incTotalWindows store val).1 val

theorem countMiss_value (store : OracleStore) (val : Address)
    (live : List String) :
    (countMiss store val (submittedAll store val live)).2 =
      closingMiss store val live := by
  unfold countMiss closingMiss
  cases submittedAll store val live with
  | true => exact getMissCounter_incTotalWindows store val
  | false =>
      simp only [Bool.false_eq_true, if_false, incMissCounter,
        getMissCounter_incTotalWindows]

theorem countMiss_get_of_ne (store : OracleStore) (val : Address)
    (submitted : Bool) {key : OracleKey} (hmiss : key ≠ .missCounter val)
    (htotal : key ≠ .totalWindows val) :
    (countMiss store val submitted).1.get key = store.get key := by
  have hinc : (incTotalWindows store val).1.get key = store.get key :=
    TypedStore.get_set_of_ne _ (OracleKey.admits_totalWindows val _)
      (Ne.symm htotal)
  cases submitted with
  | true => exact hinc
  | false =>
      rw [← hinc]
      exact TypedStore.get_set_of_ne _ (OracleKey.admits_missCounter val _)
        (Ne.symm hmiss)

theorem missesTooOften_iff
    {w : Window sdk} {store : OracleStore} {live : List String}
    {v : Validator} {val : Address} {missRate : LegacyDec}
    (hval : sdk.valAddressFromBech32 v.operatorAddress = .ok val)
    (hclosing : w.params.missWindowSize ≤ closingTotal store val)
    (hquo : (legacyNewDec (closingMiss store val live)).quo?
      (legacyNewDec (closingTotal store val)) = some missRate) :
    w.MissesTooOften store live v ↔ w.missThreshold.raw < missRate.raw := by
  constructor
  · rintro ⟨val', missRate', hval', -, hquo', hover⟩
    rw [hval, Except.ok.injEq] at hval'
    subst hval'
    rw [hquo, Option.some.injEq] at hquo'
    rw [hquo']
    exact hover
  · intro hover
    exact ⟨val, missRate, hval, hclosing, hquo, hover⟩

theorem not_missesTooOften_of_open
    {w : Window sdk} {store : OracleStore} {live : List String}
    {v : Validator} {val : Address}
    (hval : sdk.valAddressFromBech32 v.operatorAddress = .ok val)
    (hopen : ¬ w.params.missWindowSize ≤ closingTotal store val) :
    ¬ w.MissesTooOften store live v := by
  rintro ⟨val', -, hval', hclosing, -⟩
  rw [hval, Except.ok.injEq] at hval'
  subst hval'
  exact hopen hclosing

theorem countMiss_counters (store : OracleStore) (val : Address)
    (live : List String) :
    getTotalWindows (countMiss store val (submittedAll store val live)).1
        val = closingTotal store val ∧
      getMissCounter (countMiss store val (submittedAll store val live)).1
        val = closingMiss store val live := by
  unfold countMiss closingMiss closingTotal
  cases submittedAll store val live with
  | true =>
      refine ⟨?_, getMissCounter_incTotalWindows store val⟩
      simp [incTotalWindows, getTotalWindows, readCounter]
  | false =>
      constructor
      · simp only [Bool.false_eq_true, if_false, incMissCounter,
          getTotalWindows, readCounter]
        rw [TypedStore.get_set_of_ne _ _ (by simp)]
        simp [incTotalWindows, getTotalWindows, readCounter]
      · rw [← getMissCounter_incTotalWindows store val]
        simp [incMissCounter, getMissCounter, readCounter]

theorem counters_resetValidatorWindows (store : OracleStore)
    (val : Address) :
    getTotalWindows (resetValidatorWindows store val) val = 0 ∧
      getMissCounter (resetValidatorWindows store val) val = 0 := by
  simp [getTotalWindows, getMissCounter, readCounter, resetValidatorWindows,
    TypedStore.get_delete]

/-- What the participation loop does for one validator. -/
structure CountedOne (w : Window sdk) (s s' : Progress) (v : Validator)
    (val : Address) : Prop where
  live : s'.quorumLive = s.quorumLive
  frame : ∀ key : OracleKey, key ≠ .missCounter val →
    key ≠ .totalWindows val → s'.store.get key = s.store.get key
  total : getTotalWindows s'.store val =
    if w.params.missWindowSize ≤ closingTotal s.store val then 0
    else closingTotal s.store val
  miss : getMissCounter s'.store val =
    if w.params.missWindowSize ≤ closingTotal s.store val then 0
    else closingMiss s.store val s.quorumLive
  slashes : s'.slashes = s.slashes ++ w.missSlash s.store s.quorumLive v

theorem countWindow_cases
    {w : Window sdk} {s s' : Progress} {v : Validator}
    (hcount : w.countWindow s v = .ok s') :
    ((∃ reason, sdk.valAddressFromBech32 v.operatorAddress = .error reason) ∧
        s' = s) ∨
      ∃ val, sdk.valAddressFromBech32 v.operatorAddress = .ok val ∧
        w.CountedOne s s' v val := by
  unfold countWindow at hcount
  cases hval : sdk.valAddressFromBech32 v.operatorAddress with
  | error reason =>
      simp only [hval, pure_eq_ok_iff] at hcount
      exact Or.inl ⟨⟨reason, rfl⟩, hcount.symm⟩
  | ok val =>
      right
      refine ⟨val, rfl, ?_⟩
      simp only [hval] at hcount
      have hvalue := countMiss_value s.store val s.quorumLive
      have hcounters := countMiss_counters s.store val s.quorumLive
      have hframe : ∀ key : OracleKey, key ≠ .missCounter val →
          key ≠ .totalWindows val → (countMiss s.store val
            (submittedAll s.store val s.quorumLive)).1.get key =
              s.store.get key :=
        fun key hmiss htotal => countMiss_get_of_ne _ _ _ hmiss htotal
      unfold countMiss submittedAll at hvalue hcounters hframe
      split at hcount
      next hclosing =>
        have hsize : w.params.missWindowSize ≤ closingTotal s.store val :=
          hclosing
        simp only [bind_eq_ok_iff, pure_eq_ok_iff,
          Exec.ofOption_eq_ok_iff] at hcount
        rcases hcount with ⟨missRate, hquo, hresult⟩
        rw [hvalue] at hquo
        subst hresult
        have hreset := counters_resetValidatorWindows
        refine ⟨rfl, ?_, ?_, ?_, ?_⟩
        · intro key hmiss htotal
          rw [resetValidatorWindows, TypedStore.get_delete,
            TypedStore.get_delete, if_neg (Ne.symm htotal),
            if_neg (Ne.symm hmiss)]
          exact hframe key hmiss htotal
        · rw [if_pos hsize]
          exact (hreset _ val).1
        · rw [if_pos hsize]
          exact (hreset _ val).2
        · have hover : w.MissesTooOften s.store s.quorumLive v ↔
              w.missThreshold.raw < missRate.raw :=
            missesTooOften_iff hval hsize hquo
          simp only [missSlash, hover]
      next hclosing =>
        have hsize : ¬ w.params.missWindowSize ≤ closingTotal s.store val :=
          hclosing
        rw [pure_eq_ok_iff] at hcount
        subst hcount
        refine ⟨rfl, hframe, ?_, ?_, ?_⟩
        · rw [if_neg hsize]
          exact hcounters.1
        · rw [if_neg hsize]
          exact hcounters.2
        · rw [missSlash, if_neg (not_missesTooOften_of_open hval hsize),
            List.append_nil]

theorem submittedAll_congr
    {store store' : OracleStore} {live live' : List String} (val : Address)
    (hfeeds : ∀ val pair,
      store'.get (.feed val pair) = store.get (.feed val pair))
    (hlive : ∀ pair, pair ∈ live' ↔ pair ∈ live) :
    submittedAll store' val live' = submittedAll store val live := by
  have hpairs : getValidatorSubmittedPairs store' val =
      getValidatorSubmittedPairs store val := by
    unfold getValidatorSubmittedPairs
    rw [iterateAllFeeds_congr hfeeds]
  unfold submittedAll
  rw [hpairs, Bool.eq_iff_iff, List.all_eq_true, List.all_eq_true]
  simp only [hlive]

/-- The two counters of a validator are the same in both stores. -/
def SameCounters (store store' : OracleStore) (val : Address) : Prop :=
  store'.get (.missCounter val) = store.get (.missCounter val) ∧
    store'.get (.totalWindows val) = store.get (.totalWindows val)

theorem closingTotal_congr {store store' : OracleStore} {val : Address}
    (hcounters : SameCounters store store' val) :
    closingTotal store' val = closingTotal store val := by
  simp only [closingTotal, getTotalWindows, readCounter, hcounters.2]

theorem closingMiss_congr
    {store store' : OracleStore} {live live' : List String} {val : Address}
    (hcounters : SameCounters store store' val)
    (hfeeds : ∀ val pair,
      store'.get (.feed val pair) = store.get (.feed val pair))
    (hlive : ∀ pair, pair ∈ live' ↔ pair ∈ live) :
    closingMiss store' val live' = closingMiss store val live := by
  simp only [closingMiss, submittedAll_congr val hfeeds hlive,
    getMissCounter, readCounter, hcounters.1]

theorem missesTooOften_congr
    {w : Window sdk} {store store' : OracleStore} {live live' : List String}
    {v : Validator}
    (hcounters : ∀ val, sdk.valAddressFromBech32 v.operatorAddress = .ok val →
      SameCounters store store' val)
    (hfeeds : ∀ val pair,
      store'.get (.feed val pair) = store.get (.feed val pair))
    (hlive : ∀ pair, pair ∈ live' ↔ pair ∈ live) :
    w.MissesTooOften store' live' v ↔ w.MissesTooOften store live v := by
  unfold MissesTooOften
  refine exists_congr fun val => exists_congr fun missRate => ?_
  refine and_congr_right fun hval => ?_
  rw [closingTotal_congr (hcounters val hval),
    closingMiss_congr (hcounters val hval) hfeeds hlive]

theorem missSlash_congr
    {w : Window sdk} {store store' : OracleStore} {live live' : List String}
    {v : Validator}
    (hcounters : ∀ val, sdk.valAddressFromBech32 v.operatorAddress = .ok val →
      SameCounters store store' val)
    (hfeeds : ∀ val pair,
      store'.get (.feed val pair) = store.get (.feed val pair))
    (hlive : ∀ pair, pair ∈ live' ↔ pair ∈ live) :
    w.missSlash store' live' v = w.missSlash store live v := by
  simp only [missSlash, missesTooOften_congr hcounters hfeeds hlive]

/-- Validators with one address have one operator text. -/
theorem operator_eq_of_decoded {u v : Validator} {val : Address}
    (hu : ∃ address : Address,
      u.operatorAddress = sdk.valAddressString address.bytes)
    (hv : ∃ address : Address,
      v.operatorAddress = sdk.valAddressString address.bytes)
    (hudecoded : sdk.valAddressFromBech32 u.operatorAddress = .ok val)
    (hvdecoded : sdk.valAddressFromBech32 v.operatorAddress = .ok val) :
    u.operatorAddress = v.operatorAddress := by
  rcases hu with ⟨a, ha⟩
  rcases hv with ⟨b, hb⟩
  rw [ha, sdk.valAddress_roundTrip, Except.ok.injEq] at hudecoded
  rw [hb, sdk.valAddress_roundTrip, Except.ok.injEq] at hvdecoded
  rw [ha, hb, hudecoded, hvdecoded]

/-- The participation loop after the validators of `done`. -/
structure Counted (w : Window sdk) (start : Progress)
    (done : List Validator) (s : Progress) : Prop where
  live : s.quorumLive = start.quorumLive
  feeds : ∀ val pair, s.store.get (.feed val pair) =
    start.store.get (.feed val pair)
  counters : ∀ val,
    (∀ v ∈ done, sdk.valAddressFromBech32 v.operatorAddress ≠ .ok val) →
    s.store.get (.missCounter val) = start.store.get (.missCounter val) ∧
      s.store.get (.totalWindows val) = start.store.get (.totalWindows val)
  slashes : (done.map Validator.operatorAddress).Nodup →
    (∀ v ∈ done, ∃ address : Address,
      v.operatorAddress = sdk.valAddressString address.bytes) →
    ∀ call ∈ s.slashes, call ∈ start.slashes ∨
      (call.rate = w.missSlashRate ∧
        ∃ v ∈ done, w.MissesTooOften start.store start.quorumLive v)

theorem Counted.next
    {w : Window sdk} {start s s' : Progress} {done : List Validator}
    {v : Validator} (hdone : w.Counted start done s)
    (hcount : w.countWindow s v = .ok s') :
    w.Counted start (done ++ [v]) s' := by
  have holder : (∀ call ∈ s.slashes, call ∈ start.slashes ∨
      (call.rate = w.missSlashRate ∧
        ∃ v ∈ done, w.MissesTooOften start.store start.quorumLive v)) →
      ∀ call ∈ s.slashes, call ∈ start.slashes ∨
        (call.rate = w.missSlashRate ∧ ∃ u ∈ done ++ [v],
          w.MissesTooOften start.store start.quorumLive u) := by
    intro hslashes call hcall
    rcases hslashes call hcall with hstart | ⟨hrate, u, hu, hmisses⟩
    · exact Or.inl hstart
    · exact Or.inr ⟨hrate, u, by simp [hu], hmisses⟩
  have hsplit : ((done ++ [v]).map Validator.operatorAddress).Nodup →
      (done.map Validator.operatorAddress).Nodup ∧
        ∀ u ∈ done, u.operatorAddress ≠ v.operatorAddress := by
    intro hnodup
    rw [List.map_append, List.nodup_append] at hnodup
    exact ⟨hnodup.1, fun u hu =>
      hnodup.2.2 _ (List.mem_map_of_mem hu) _ (by simp)⟩
  rcases countWindow_cases hcount with ⟨-, rfl⟩ | ⟨val, hval, hone⟩
  · refine ⟨hdone.live, hdone.feeds, ?_, ?_⟩
    · exact fun val hother =>
        hdone.counters val fun u hu => hother u (by simp [hu])
    · exact fun hnodup hcanonical => holder (hdone.slashes (hsplit hnodup).1
        fun u hu => hcanonical u (by simp [hu]))
  · have hframe := hone.frame
    refine ⟨hone.live.trans hdone.live, ?_, ?_, ?_⟩
    · intro other pair
      rw [hframe _ (by simp) (by simp)]
      exact hdone.feeds other pair
    · intro other hother
      have hne : val ≠ other := by
        rintro rfl
        exact hother v (by simp) hval
      rw [hframe _ (by simpa using hne.symm) (by simp),
        hframe _ (by simp) (by simpa using hne.symm)]
      exact hdone.counters other fun u hu => hother u (by simp [hu])
    · intro hnodup hcanonical
      have hslashes := holder (hdone.slashes (hsplit hnodup).1
        fun u hu => hcanonical u (by simp [hu]))
      -- earlier validators have other addresses, hence other counters
      have hothers : ∀ u ∈ done,
          sdk.valAddressFromBech32 u.operatorAddress ≠ .ok val := by
        intro u hu hdecoded
        exact (hsplit hnodup).2 u hu (operator_eq_of_decoded
          (hcanonical u (by simp [hu])) (hcanonical v (by simp))
          hdecoded hval)
      have hmisses : w.MissesTooOften s.store s.quorumLive v ↔
          w.MissesTooOften start.store start.quorumLive v := by
        refine missesTooOften_congr ?_ hdone.feeds (by simp [hdone.live])
        intro val' hval'
        rw [hval, Except.ok.injEq] at hval'
        rw [← hval']
        exact hdone.counters val hothers
      intro call hcall
      rw [hone.slashes, List.mem_append, missSlash] at hcall
      rcases hcall with hold | hnew
      · exact hslashes call hold
      · split_ifs at hnew with hoften
        · exact Or.inr ⟨rate_of_mem_slashValidator hnew, v, by simp,
            hmisses.mp hoften⟩
        · cases hnew

/-! ## All slashes -/

/-- Every slash of a completed boundary call has one of the two reasons. -/
theorem mem_close_slashes
    {w : Window sdk} {store : OracleStore}
    {result : OracleStore × List SlashCall}
    (hdistinct : (w.vals.map Validator.operatorAddress).Nodup)
    (hcanonical : ∀ v ∈ w.vals, ∃ address : Address,
      v.operatorAddress = sdk.valAddressString address.bytes)
    (hclose : w.close store = .ok result) :
    ∀ call ∈ result.2,
      (call.rate = w.outlierSlashRate ∧
        ∃ pair ∈ w.params.acceptList, w.Qualifies store pair ∧
          ∃ f ∈ w.countedFeeds store pair, w.Outlying store pair f) ∨
      (call.rate = w.missSlashRate ∧
        ∃ v ∈ w.vals, w.MissesTooOften store (w.livePairs store) v) := by
  simp only [close, bind_eq_ok_iff, pure_eq_ok_iff] at hclose
  rcases hclose with ⟨aggregated, hloop, settled, hcount, rfl⟩
  have haggregated := aggregated_of_aggregate hloop
  have hcounted := foldlM_induct
    (P := fun done s => w.Counted aggregated done s)
    (fun _ _ _ _ hdone hstep => hdone.next hstep)
    ⟨rfl, fun _ _ => rfl, fun _ _ => ⟨rfl, rfl⟩,
      fun _ _ call hcall => Or.inl hcall⟩ hcount
  intro call hcall
  rcases hcounted.slashes hdistinct hcanonical call hcall with hold |
    ⟨hrate, v, hv, hmisses⟩
  · exact Or.inl (mem_aggregate_slashes hloop call hold)
  · refine Or.inr ⟨hrate, v, hv, (missesTooOften_congr ?_ ?_ ?_).mp hmisses⟩
    · exact fun val _ => ⟨haggregated.frame _ (by simp) (by simp),
        haggregated.frame _ (by simp) (by simp)⟩
    · exact fun val pair => haggregated.frame _ (by simp) (by simp)
    · intro pair
      rw [haggregated.live]
      simp [livePairs]

/-- No reason for a slash at a positive rate. -/
def SlashFree (w : Window sdk) (store : OracleStore) : Prop :=
  (w.outlierSlashRate.raw = 0 ∨
    ∀ pair ∈ w.params.acceptList, w.Qualifies store pair →
      ∀ f ∈ w.countedFeeds store pair, ¬ w.Outlying store pair f) ∧
  (w.missSlashRate.raw = 0 ∨
    ∀ v ∈ w.vals, ¬ w.MissesTooOften store (w.livePairs store) v)

instance decidableSlashFree (w : Window sdk) (store : OracleStore) :
    Decidable (w.SlashFree store) := by
  unfold SlashFree
  infer_instance

end Window

/-- A block is free of slashes if it does not close a window, or the window
gives no reason for one. -/
def QuietBlock (k : Keeper) (ctx : Ctx) (staking : StakingView k.sdk)
    (store : OracleStore) : Prop :=
  ctx.blockHeight % (getParams store).voteWindow = 0 →
    ∀ w, openWindow k.sdk ctx staking (getParams store) = .ok w →
      w.SlashFree store

theorem QuietBlock.zero_rates
    {k : Keeper} {ctx : Ctx} {staking : StakingView k.sdk}
    {store : OracleStore} {result : OracleStore × List SlashCall}
    (hquiet : QuietBlock k ctx staking store)
    (hcall : endBlocker k ctx staking store = .ok result) :
    ∀ call ∈ result.2, call.rate.raw = 0 := by
  rcases endBlocker_cases hcall with ⟨-, rfl⟩ | ⟨hboundary, w, hopen, hclose⟩
  · simp
  · intro call hmem
    rcases hquiet hboundary w hopen with ⟨houtliers, hmissed⟩
    rcases openWindow_eq_ok_iff.mp hopen with
      ⟨-, -, -, hvals, -⟩
    rcases Window.mem_close_slashes
      (staking.operators_distinct w.vals hvals)
      (staking.operator_canonical w.vals hvals) hclose call hmem with
      ⟨hrate, pair, hpair, hqualifies, f, hf, hout⟩ | ⟨hrate, v, hv, hmisses⟩
    · rw [hrate]
      rcases houtliers with hzero | hnone
      · exact hzero
      · exact absurd hout (hnone pair hpair hqualifies f hf)
    · rw [hrate]
      rcases hmissed with hzero | hnone
      · exact hzero
      · exact absurd hmisses (hnone v hv)

end Oracle
end Vertix

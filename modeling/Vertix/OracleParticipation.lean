import Vertix.OraclePanicSafety
import Vertix.OracleSlashing
import Mathlib.Tactic

/-!
# Participation counters and the window history

The store keeps two integers for each validator.  They count the boundaries at
which the validator was bonded, and those of them at which it had no feed for a
pair with quorum, since the last reset.  A reset is an update of the accept
list or the evaluation of the validator.  The history which gives the counters
their meaning is stored nowhere; it is read off the run here.
-/

namespace Vertix
namespace Oracle

open Transition

namespace Window

variable {sdk : Sdk}

/-! ## The participation loop -/

/-- The counters which a boundary leaves to a bonded validator. -/
def closedTotal (w : Window sdk) (store : OracleStore) (val : Address) :
    Int64 :=
  if w.params.missWindowSize ≤ closingTotal store val then 0
  else closingTotal store val

def closedMiss (w : Window sdk) (store : OracleStore) (val : Address)
    (live : List String) : Int64 :=
  if w.params.missWindowSize ≤ closingTotal store val then 0
  else closingMiss store val live

/-- The validators of a list have distinct operators, which are the texts of
addresses. -/
structure Distinct (sdk : Sdk) (vals : List Validator) : Prop where
  nodup : (vals.map Validator.operatorAddress).Nodup
  canonical : ∀ v ∈ vals, ∃ address : Address,
    v.operatorAddress = sdk.valAddressString address.bytes

theorem Distinct.init {done : List Validator} {v : Validator}
    (hdistinct : Distinct sdk (done ++ [v])) :
    Distinct sdk done ∧ ∀ val,
      sdk.valAddressFromBech32 v.operatorAddress = .ok val →
      ∀ u ∈ done, sdk.valAddressFromBech32 u.operatorAddress ≠ .ok val := by
  have hnodup := hdistinct.nodup
  rw [List.map_append, List.nodup_append] at hnodup
  refine ⟨⟨hnodup.1, fun u hu => hdistinct.canonical u (by simp [hu])⟩, ?_⟩
  intro val hval u hu hdecoded
  exact hnodup.2.2 _ (List.mem_map_of_mem hu) _ (by simp)
    (operator_eq_of_decoded (hdistinct.canonical u (by simp [hu]))
      (hdistinct.canonical v (by simp)) hdecoded hval)

/-- The exact outcome of the participation loop after the validators of
`done`. -/
structure Tallied (w : Window sdk) (start : Progress)
    (done : List Validator) (s : Progress) : Prop where
  total : ∀ v ∈ done, ∀ val,
    sdk.valAddressFromBech32 v.operatorAddress = .ok val →
    getTotalWindows s.store val = w.closedTotal start.store val
  miss : ∀ v ∈ done, ∀ val,
    sdk.valAddressFromBech32 v.operatorAddress = .ok val →
    getMissCounter s.store val =
      w.closedMiss start.store val start.quorumLive
  slashes : s.slashes =
    start.slashes ++ done.flatMap (w.missSlash start.store start.quorumLive)

theorem getTotalWindows_congr {store store' : OracleStore} {val : Address}
    (hcounters : SameCounters store store' val) :
    getTotalWindows store' val = getTotalWindows store val := by
  simp only [getTotalWindows, readCounter, hcounters.2]

theorem getMissCounter_congr {store store' : OracleStore} {val : Address}
    (hcounters : SameCounters store store' val) :
    getMissCounter store' val = getMissCounter store val := by
  simp only [getMissCounter, readCounter, hcounters.1]

theorem CountedOne.sameCounters
    {w : Window sdk} {s s' : Progress} {v : Validator} {val other : Address}
    (hone : w.CountedOne s s' v val) (hne : other ≠ val) :
    SameCounters s.store s'.store other :=
  ⟨hone.frame _ (by simpa using hne) (by simp),
    hone.frame _ (by simp) (by simpa using hne)⟩

theorem missSlash_of_error
    {w : Window sdk} {store : OracleStore} {live : List String}
    {v : Validator} {reason : String}
    (herror : sdk.valAddressFromBech32 v.operatorAddress = .error reason) :
    w.missSlash store live v = [] := by
  apply if_neg
  rintro ⟨val, -, hval, -⟩
  rw [herror] at hval
  cases hval

theorem Tallied.next
    {w : Window sdk} {start s s' : Progress} {done : List Validator}
    {v : Validator} (hdistinct : Distinct sdk (done ++ [v]))
    (hcounted : w.Counted start done s) (htallied : w.Tallied start done s)
    (hcount : w.countWindow s v = .ok s') :
    w.Tallied start (done ++ [v]) s' := by
  have hsame : ∀ u ∈ done ++ [v], u ∈ done ∨ u = v := by
    simp
  rcases countWindow_cases hcount with ⟨⟨reason, herror⟩, rfl⟩ |
    ⟨val, hval, hone⟩
  · have hdecoded : ∀ u ∈ done ++ [v], ∀ val,
        sdk.valAddressFromBech32 u.operatorAddress = .ok val → u ∈ done := by
      intro u hu val hval
      rcases hsame u hu with hdone | rfl
      · exact hdone
      · rw [herror] at hval
        cases hval
    refine ⟨?_, ?_, ?_⟩
    · intro u hu val hval
      exact htallied.total u (hdecoded u hu val hval) val hval
    · intro u hu val hval
      exact htallied.miss u (hdecoded u hu val hval) val hval
    · rw [htallied.slashes, List.flatMap_append, List.flatMap_singleton,
        missSlash_of_error herror, List.append_nil]
  · have hothers := hdistinct.init.2 val hval
    have hcounters : SameCounters start.store s.store val :=
      hcounted.counters val hothers
    have hlive : ∀ pair, pair ∈ s.quorumLive ↔ pair ∈ start.quorumLive := by
      simp [hcounted.live]
    have hne : ∀ u ∈ done, ∀ other,
        sdk.valAddressFromBech32 u.operatorAddress = .ok other →
        other ≠ val := by
      rintro u hu other hother rfl
      exact hothers u hu hother
    refine ⟨?_, ?_, ?_⟩
    · intro u hu other hother
      rcases hsame u hu with hdone | rfl
      · rw [getTotalWindows_congr
          (hone.sameCounters (hne u hdone other hother))]
        exact htallied.total u hdone other hother
      · rw [hval, Except.ok.injEq] at hother
        subst hother
        rw [hone.total, closingTotal_congr hcounters, closedTotal]
    · intro u hu other hother
      rcases hsame u hu with hdone | rfl
      · rw [getMissCounter_congr
          (hone.sameCounters (hne u hdone other hother))]
        exact htallied.miss u hdone other hother
      · rw [hval, Except.ok.injEq] at hother
        subst hother
        rw [hone.miss, closingTotal_congr hcounters,
          closingMiss_congr hcounters hcounted.feeds hlive, closedMiss]
    · have hslash : w.missSlash s.store s.quorumLive v =
          w.missSlash start.store start.quorumLive v := by
        refine missSlash_congr ?_ hcounted.feeds hlive
        intro val' hval'
        rw [hval, Except.ok.injEq] at hval'
        rw [← hval']
        exact hcounters
      rw [hone.slashes, htallied.slashes, hslash, List.flatMap_append,
        List.flatMap_singleton, List.append_assoc]

/-- The counters and the slashes which a completed boundary call leaves. -/
structure ClosedCounters (w : Window sdk) (store : OracleStore)
    (result : OracleStore × List SlashCall) : Prop where
  total : ∀ v ∈ w.vals, ∀ val,
    sdk.valAddressFromBech32 v.operatorAddress = .ok val →
    getTotalWindows result.1 val = w.closedTotal store val
  miss : ∀ v ∈ w.vals, ∀ val,
    sdk.valAddressFromBech32 v.operatorAddress = .ok val →
    getMissCounter result.1 val =
      w.closedMiss store val (w.livePairs store)
  absent : ∀ val,
    (∀ v ∈ w.vals, sdk.valAddressFromBech32 v.operatorAddress ≠ .ok val) →
    SameCounters store result.1 val
  slashes : ∃ aggregated, w.aggregate store = .ok aggregated ∧
    result.2 = aggregated.slashes ++
      w.vals.flatMap (w.missSlash store (w.livePairs store))

theorem closedCounters_of_close
    {w : Window sdk} {store : OracleStore}
    {result : OracleStore × List SlashCall}
    (hdistinct : Distinct sdk w.vals) (hclose : w.close store = .ok result) :
    w.ClosedCounters store result := by
  simp only [close, bind_eq_ok_iff, pure_eq_ok_iff] at hclose
  rcases hclose with ⟨aggregated, hloop, settled, hcount, rfl⟩
  have haggregated := aggregated_of_aggregate hloop
  have hlive : ∀ pair, pair ∈ aggregated.quorumLive ↔
      pair ∈ w.livePairs store := by
    intro pair
    rw [haggregated.live]
    simp [livePairs]
  have hfeeds : ∀ val pair, aggregated.store.get (.feed val pair) =
      store.get (.feed val pair) :=
    fun val pair => haggregated.frame _ (by simp) (by simp)
  have hstart : ∀ val, SameCounters store aggregated.store val :=
    fun val => ⟨haggregated.frame _ (by simp) (by simp),
      haggregated.frame _ (by simp) (by simp)⟩
  have hdeleted : ∀ val, SameCounters settled.store
      (deleteAllFeeds settled.store) val :=
    fun val => ⟨get_deleteAllFeeds_of_ne _ (by simp),
      get_deleteAllFeeds_of_ne _ (by simp)⟩
  have hall := foldlM_induct
    (P := fun done s => w.Counted aggregated done s ∧
      (Distinct sdk done → w.Tallied aggregated done s))
    (fun done s v s' hdone hstep => ⟨hdone.1.next hstep,
      fun hdistinct => (hdone.2 hdistinct.init.1).next hdistinct hdone.1
        hstep⟩)
    ⟨⟨rfl, fun _ _ => rfl, fun _ _ => ⟨rfl, rfl⟩,
      fun _ _ call hcall => Or.inl hcall⟩,
      fun _ => ⟨by simp, by simp, by simp⟩⟩ hcount
  have htallied := hall.2 hdistinct
  constructor
  · intro v hv val hval
    rw [getTotalWindows_congr (hdeleted val), htallied.total v hv val hval,
      closedTotal, closedTotal, closingTotal_congr (hstart val)]
  · intro v hv val hval
    rw [getMissCounter_congr (hdeleted val), htallied.miss v hv val hval,
      closedMiss, closedMiss, closingTotal_congr (hstart val),
      closingMiss_congr (hstart val) hfeeds hlive]
  · intro val hother
    have hsettled := hall.1.counters val hother
    exact ⟨((hdeleted val).1.trans hsettled.1).trans (hstart val).1,
      ((hdeleted val).2.trans hsettled.2).trans (hstart val).2⟩
  · have hslashes : w.vals.flatMap
        (w.missSlash aggregated.store aggregated.quorumLive) =
          w.vals.flatMap (w.missSlash store (w.livePairs store)) :=
      List.flatMap_congr fun v _ =>
        missSlash_congr (fun val _ => hstart val) hfeeds hlive
    rw [← hslashes]
    exact ⟨aggregated, hloop, htallied.slashes⟩

/-- A validator has submitted for all pairs when it has a stored feed for
each of them. -/
theorem submittedAll_iff {store : OracleStore} {val : Address}
    {pairs : List String} :
    submittedAll store val pairs = true ↔
      ∀ pair ∈ pairs, store.get (.feed val pair) ≠ none := by
  rcases exists_storedFeeds store with ⟨feeds, hscan, -, hmem⟩
  have hcontains : ∀ pair,
      (getValidatorSubmittedPairs store val).contains (strBytes pair) =
        true ↔ store.get (.feed val pair) ≠ none := by
    intro pair
    rw [List.contains_iff_mem, getValidatorSubmittedPairs, hscan,
      List.mem_filterMap]
    constructor
    · rintro ⟨entry, hentry, hsome⟩
      rcases List.mem_map.mp hentry with ⟨⟨other, feed⟩, hfeed, rfl⟩
      split_ifs at hsome with hbytes
      have hother : other = val := Address.ext_bytes hbytes
      have hpair : feed.pair = pair :=
        strBytes_injective (Option.some.inj hsome)
      rw [← hother, ← hpair, (hmem other feed).mp hfeed]
      simp
    · intro hstored
      rcases Option.ne_none_iff_exists'.mp hstored with ⟨value, hget⟩
      have hadmits := TypedStore.admits_of_get hget
      cases value with
      | feed feed =>
          have hpair : feed.pair = pair := hadmits
          rw [← hpair] at hget ⊢
          exact ⟨_, List.mem_map_of_mem ((hmem val feed).mpr hget), by simp⟩
      | _ => exact absurd hadmits id
  simp only [submittedAll, List.all_eq_true, hcontains]

end Window

theorem toInt_add_one {count : Int64} (hbound : count.toInt < 2 ^ 63 - 1) :
    (count + 1).toInt = count.toInt + 1 := by
  have hlow := count.le_toInt
  rw [Int64.toInt_add, show (1 : Int64).toInt = 1 from rfl, Int.bmod_def]
  split_ifs <;> omega

/-! ## Counting a history -/

abbrev OracleHistory (k : Keeper) := List (OracleStore × OracleStep k)

/-- The window which an entry of a history closed. -/
def windowClosed (k : Keeper) (entry : OracleStore × OracleStep k) :
    Option (Window k.sdk) :=
  match entry.2 with
  | .endBlock ctx staking =>
      if ctx.blockHeight % (getParams entry.1).voteWindow = 0 then
        (openWindow k.sdk ctx staking (getParams entry.1)).toOption
      else none
  | _ => none

/-- The entry is a boundary at which the validator was bonded. -/
def bondedAt (k : Keeper) (val : Address)
    (entry : OracleStore × OracleStep k) : Bool :=
  (windowClosed k entry).any fun w => w.vals.any fun v =>
    decide (k.sdk.valAddressFromBech32 v.operatorAddress = .ok val)

/-- Moreover, some pair with quorum had no stored feed of the validator. -/
def missedAt (k : Keeper) (val : Address)
    (entry : OracleStore × OracleStep k) : Bool :=
  bondedAt k val entry && (windowClosed k entry).any fun w =>
    (w.livePairs entry.1).any fun pair =>
      (entry.1.get (.feed val pair)).isNone

/-- The entry is a successful update which changed the accept list. -/
def pairsChanged (k : Keeper) (entry : OracleStore × OracleStep k) : Bool :=
  match entry.2 with
  | .updateParams msg => (updateParams k entry.1 msg).isOk &&
      (getParams entry.1).acceptListChanged msg.params
  | _ => false

/-- After the given entries since its last reset, the boundary evaluates the
validator. -/
def evaluatedAt (k : Keeper) (val : Address) (spell : OracleHistory k)
    (entry : OracleStore × OracleStep k) : Bool :=
  bondedAt k val entry &&
    decide ((getParams entry.1).missWindowSize.toInt ≤
      (entry :: spell).countP (bondedAt k val))

/-- The entries since genesis, the last change of the accept list and the last
evaluation of the validator, whichever is latest. -/
def sinceReset (k : Keeper) (val : Address) :
    OracleHistory k → OracleHistory k
  | [] => []
  | entry :: older =>
      if pairsChanged k entry || evaluatedAt k val (sinceReset k val older) entry
      then [] else entry :: sinceReset k val older

def windowsCounted (k : Keeper) (val : Address) (history : OracleHistory k) :
    ℕ :=
  (sinceReset k val history).countP (bondedAt k val)

def windowsMissed (k : Keeper) (val : Address) (history : OracleHistory k) :
    ℕ :=
  (sinceReset k val history).countP (missedAt k val)

theorem windowsMissed_le (k : Keeper) (val : Address)
    (history : OracleHistory k) :
    windowsMissed k val history ≤ windowsCounted k val history := by
  apply List.countP_mono_left
  intro entry _ hmissed
  rw [missedAt, Bool.and_eq_true] at hmissed
  exact hmissed.1

/-! ## The counters are the counts -/

/-- The two counters of a validator are the counts of the history. -/
structure CountersMatch (k : Keeper) (val : Address)
    (history : OracleHistory k) (store : OracleStore) : Prop where
  total : (getTotalWindows store val).toInt = windowsCounted k val history
  miss : (getMissCounter store val).toInt = windowsMissed k val history
  bounded : (getTotalWindows store val).toInt < 2 ^ 63 - 1

section steps

variable {k : Keeper} {val : Address} {history : OracleHistory k}
  {store store' : OracleStore} {entry : OracleStore × OracleStep k}

theorem CountersMatch.quiet (hmatch : CountersMatch k val history store)
    (hchanged : pairsChanged k entry = false)
    (hbonded : bondedAt k val entry = false)
    (hsame : Window.SameCounters store store' val) :
    CountersMatch k val (entry :: history) store' := by
  have hspell : sinceReset k val (entry :: history) =
      entry :: sinceReset k val history := by
    simp [sinceReset, hchanged, evaluatedAt, hbonded]
  have hmissed : missedAt k val entry = false := by
    simp [missedAt, hbonded]
  have htotal := hmatch.total
  have hmiss := hmatch.miss
  constructor
  · rw [Window.getTotalWindows_congr hsame, htotal, windowsCounted,
      windowsCounted, hspell, List.countP_cons_of_neg (by simp [hbonded])]
  · rw [Window.getMissCounter_congr hsame, hmiss, windowsMissed,
      windowsMissed, hspell, List.countP_cons_of_neg (by simp [hmissed])]
  · rw [Window.getTotalWindows_congr hsame]
    exact hmatch.bounded

theorem CountersMatch.of_reset
    (hspell : sinceReset k val (entry :: history) = [])
    (htotal : getTotalWindows store' val = 0)
    (hmiss : getMissCounter store' val = 0) :
    CountersMatch k val (entry :: history) store' := by
  constructor
  · rw [htotal, windowsCounted, hspell]
    rfl
  · rw [hmiss, windowsMissed, hspell]
    rfl
  · rw [htotal]
    decide

theorem CountersMatch.closingTotal
    (hmatch : CountersMatch k val history store) :
    (Window.closingTotal store val).toInt =
      windowsCounted k val history + 1 := by
  rw [Window.closingTotal, toInt_add_one hmatch.bounded, hmatch.total]

theorem CountersMatch.closingMiss
    (hmatch : CountersMatch k val history store) (live : List String) :
    (Window.closingMiss store val live).toInt =
      windowsMissed k val history +
        if Window.submittedAll store val live then 0 else 1 := by
  have hle := windowsMissed_le k val history
  have hbound : (getMissCounter store val).toInt < 2 ^ 63 - 1 := by
    have htotal := hmatch.total
    have hmiss := hmatch.miss
    have hbounded := hmatch.bounded
    omega
  unfold Window.closingMiss
  cases Window.submittedAll store val live with
  | true => simp [hmatch.miss]
  | false =>
      rw [if_neg (by simp), if_neg (by simp), toInt_add_one hbound,
        hmatch.miss]

/-! ### Boundaries -/

variable {ctx : Ctx} {staking : StakingView k.sdk} {w : Window k.sdk}

theorem windowClosed_boundary
    (hboundary : ctx.blockHeight % (getParams store).voteWindow = 0)
    (hopen : openWindow k.sdk ctx staking (getParams store) = .ok w) :
    windowClosed k (store, .endBlock ctx staking) = some w := by
  simp [windowClosed, hboundary, hopen, Except.toOption]

theorem bondedAt_boundary_iff
    (hclosed : windowClosed k entry = some w) :
    bondedAt k val entry = true ↔
      ∃ v ∈ w.vals, k.sdk.valAddressFromBech32 v.operatorAddress = .ok val := by
  simp [bondedAt, hclosed]

theorem missedAt_boundary_iff
    (hclosed : windowClosed k entry = some w)
    (hbonded : bondedAt k val entry = true) :
    missedAt k val entry = true ↔
      Window.submittedAll entry.1 val (w.livePairs entry.1) = false := by
  rw [← Bool.not_eq_true, Window.submittedAll_iff]
  simp [missedAt, hbonded, hclosed]

theorem evaluatedAt_iff (hmatch : CountersMatch k val history entry.1)
    (hbonded : bondedAt k val entry = true) :
    evaluatedAt k val (sinceReset k val history) entry = true ↔
      (getParams entry.1).missWindowSize ≤
        Window.closingTotal entry.1 val := by
  rw [Int64.le_iff_toInt_le, hmatch.closingTotal, evaluatedAt, hbonded,
    Bool.true_and, decide_eq_true_eq, List.countP_cons_of_pos hbonded,
    windowsCounted]
  simp

/-- A boundary counts the window of a bonded validator. -/
theorem CountersMatch.boundary
    (hmatch : CountersMatch k val history entry.1)
    (hclosed : windowClosed k entry = some w)
    (hparams : w.params = getParams entry.1)
    (hunchanged : pairsChanged k entry = false)
    (hbonded : bondedAt k val entry = true)
    (htotal : getTotalWindows store' val = w.closedTotal entry.1 val)
    (hmiss : getMissCounter store' val =
      w.closedMiss entry.1 val (w.livePairs entry.1)) :
    CountersMatch k val (entry :: history) store' := by
  have hevaluated := evaluatedAt_iff hmatch hbonded
  rw [Window.closedTotal, hparams] at htotal
  rw [Window.closedMiss, hparams] at hmiss
  by_cases hsize : (getParams entry.1).missWindowSize ≤
      Window.closingTotal entry.1 val
  · rw [if_pos hsize] at htotal hmiss
    refine .of_reset ?_ htotal hmiss
    simp [sinceReset, hevaluated.mpr hsize]
  · rw [if_neg hsize] at htotal hmiss
    have hspell : sinceReset k val (entry :: history) =
        entry :: sinceReset k val history := by
      simp [sinceReset, hunchanged, hevaluated, hsize]
    have hmissed := missedAt_boundary_iff hclosed hbonded
    constructor
    · rw [htotal, hmatch.closingTotal, windowsCounted, windowsCounted, hspell,
        List.countP_cons_of_pos hbonded]
      push_cast
      rfl
    · rw [hmiss, hmatch.closingMiss, windowsMissed, windowsMissed, hspell,
        List.countP_cons]
      cases hsubmitted : Window.submittedAll entry.1 val
          (w.livePairs entry.1) with
      | true =>
          rw [hsubmitted] at hmissed
          simp [hmissed]
      | false =>
          rw [hsubmitted] at hmissed
          simp [hmissed]
    · rw [htotal]
      rw [Int64.le_iff_toInt_le, not_le] at hsize
      have hmax := (getParams entry.1).missWindowSize.toInt_lt
      omega

end steps

/-! ## Runs -/

theorem Window.distinct_of_openWindow
    {sdk : Sdk} {ctx : Ctx} {staking : StakingView sdk}
    {params : OracleParams} {w : Window sdk}
    (hopen : openWindow sdk ctx staking params = .ok w) :
    Window.Distinct sdk w.vals := by
  have hvals := (openWindow_eq_ok_iff.mp hopen).2.2.2.1
  exact ⟨staking.operators_distinct w.vals hvals,
    staking.operator_canonical w.vals hvals⟩

theorem counters_resetMissCounters (store : OracleStore) (val : Address) :
    getTotalWindows (resetMissCounters store) val = 0 ∧
      getMissCounter (resetMissCounters store) val = 0 := by
  have htotal : (resetMissCounters store).get (.totalWindows val) = none := by
    rw [resetMissCounters, TypedStore.get_deletePrefix, if_pos]
    exact List.prefix_append _ _
  have hmiss : (resetMissCounters store).get (.missCounter val) = none := by
    rw [resetMissCounters, TypedStore.get_deletePrefix,
      TypedStore.get_deletePrefix]
    split_ifs with htotals hmisses
    · rfl
    · rfl
    · exact absurd (List.prefix_append _ _) hmisses
  simp [getTotalWindows, getMissCounter, readCounter, htotal, hmiss]

theorem CountersMatch.reparametrized
    {k : Keeper} {val : Address} {history : OracleHistory k}
    {store store' : OracleStore} {msg : MsgUpdateParams}
    (hmatch : CountersMatch k val history store)
    (hresult : updateParams k store msg = .ok store') :
    CountersMatch k val ((store, .updateParams msg) :: history) store' := by
  have hchanged : pairsChanged k (store, .updateParams msg) =
      (getParams store).acceptListChanged msg.params := by
    simp [pairsChanged, hresult, Except.isOk, Except.toBool]
  rcases updateParams_eq_ok_iff.mp hresult with ⟨-, -, -, rfl⟩
  cases hlist : (getParams store).acceptListChanged msg.params with
  | false =>
      refine hmatch.quiet (hchanged.trans hlist) rfl ⟨?_, ?_⟩
      · exact get_writeParams_of_ne _ _ (by simp)
      · exact get_writeParams_of_ne _ _ (by simp)
  | true =>
      have hsame : Window.SameCounters (resetMissCounters store)
          (writeParams (resetMissCounters store) msg.params) val :=
        ⟨get_writeParams_of_ne _ _ (by simp),
          get_writeParams_of_ne _ _ (by simp)⟩
      have hreset := counters_resetMissCounters store val
      refine .of_reset ?_ ?_ ?_
      · simp [sinceReset, hchanged, hlist]
      · exact (Window.getTotalWindows_congr hsame).trans hreset.1
      · exact (Window.getMissCounter_congr hsame).trans hreset.2

theorem CountersMatch.step
    {k : Keeper} {val : Address} {history : OracleHistory k}
    {store store' : OracleStore} {step : OracleStep k}
    (hmatch : CountersMatch k val history store)
    (hstep : oracleStep k store step = some store') :
    CountersMatch k val ((store, step) :: history) store' := by
  cases step with
  | setFeeder staking msg =>
      refine hmatch.quiet rfl rfl ?_
      cases effect_of_step hstep with
      | unchanged => exact ⟨rfl, rfl⟩
      | delegated =>
          constructor <;> rw [get_writeFeederDelegation] <;> simp
  | submitFeed ctx staking msg =>
      refine hmatch.quiet rfl rfl ?_
      cases effect_of_step hstep with
      | unchanged => exact ⟨rfl, rfl⟩
      | fed => constructor <;> rw [get_writeFeed] <;> simp
  | updateParams msg =>
      rcases commit_cases hstep with ⟨error, hresult, hsame⟩ | hresult
      · subst hsame
        exact hmatch.quiet (by simp [pairsChanged, hresult, Except.isOk,
          Except.toBool]) rfl ⟨rfl, rfl⟩
      · exact hmatch.reparametrized hresult
  | endBlock ctx staking =>
      rcases endBlock_step_cases hstep with ⟨hinside, rfl⟩ |
        ⟨hboundary, w, slashes, hopen, hclose⟩
      · refine hmatch.quiet rfl ?_ ⟨rfl, rfl⟩
        simp [bondedAt, windowClosed, hinside]
      · have hclosed := windowClosed_boundary hboundary hopen
        have hcounters := Window.closedCounters_of_close
          (Window.distinct_of_openWindow hopen) hclose
        cases hbonded : bondedAt k val (store, .endBlock ctx staking) with
        | false =>
            refine hmatch.quiet rfl hbonded (hcounters.absent val ?_)
            intro v hv hval
            rw [(bondedAt_boundary_iff hclosed).mpr ⟨v, hv, hval⟩] at hbonded
            cases hbonded
        | true =>
            rcases (bondedAt_boundary_iff hclosed).mp hbonded with
              ⟨v, hv, hval⟩
            exact hmatch.boundary hclosed
              (openWindow_eq_ok_iff.mp hopen).2.2.1 rfl hbonded
              (hcounters.total v hv val hval) (hcounters.miss v hv val hval)

theorem countersMatch_of_reached
    {k : Keeper} {history : OracleHistory k} {store : OracleStore}
    (hreached : Reached k history store) (val : Address) :
    CountersMatch k val history store := by
  rcases hreached with ⟨ctx, staking, gs, start, hinit, hrun⟩
  refine Run.induct_conditional
    (P := fun history store => CountersMatch k val history store)
    (C := fun _ _ => True) ?_
    (fun _ _ _ _ _ hmatch _ hstep => hmatch.step hstep) hrun
    (fun _ _ => trivial)
  have htotal : getTotalWindows start val = 0 := by
    have hnone : start.get (.totalWindows val) = none := by
      apply get_initGenesis_of_ne hinit <;> simp
    simp [getTotalWindows, readCounter, hnone]
  have hmiss : getMissCounter start val = 0 := by
    have hnone : start.get (.missCounter val) = none := by
      apply get_initGenesis_of_ne hinit <;> simp
    simp [getMissCounter, readCounter, hnone]
  refine ⟨?_, ?_, ?_⟩
  · rw [htotal]
    rfl
  · rw [hmiss]
    rfl
  · rw [htotal]
    decide

/-- The validator can be slashed: its consensus address resolves and its last
power is not zero. -/
def Window.Slashable {sdk : Sdk} (w : Window sdk) (v : Validator)
    (val : Address) : Prop :=
  v.consAddr ≠ none ∧
    ∃ power, w.staking.lastValidatorPower val.bytes = .ok power ∧ power ≠ 0

theorem Window.missSlash_ne_nil_iff
    {sdk : Sdk} {w : Window sdk} {store : OracleStore} {live : List String}
    {v : Validator} {val : Address}
    (hval : sdk.valAddressFromBech32 v.operatorAddress = .ok val) :
    w.missSlash store live v ≠ [] ↔
      w.MissesTooOften store live v ∧ w.Slashable v val := by
  have hslash : w.slashValidator v w.missSlashRate ≠ [] ↔
      w.Slashable v val := by
    unfold slashValidator Slashable
    cases v.consAddr with
    | none => simp
    | some consAddr =>
        simp only [hval]
        cases w.staking.lastValidatorPower val.bytes with
        | error reason => simp
        | ok power => by_cases hzero : power = 0 <;> simp [hzero]
  unfold missSlash
  by_cases hoften : w.MissesTooOften store live v
  · rw [if_pos hoften, hslash, and_iff_right hoften]
  · simp [hoften]

/-- In every reachable state, and for every validator: the stored counters are
the numbers of boundaries, and of missed boundaries, since the last reset.  At
a boundary the updated counters decide: a bonded validator is slashed for
misses exactly when its windows are complete and its miss rate is above the
threshold, and then starts over, slashed or not. -/
theorem participation_counts_window_history
    {k : Keeper} {history : OracleHistory k} {store : OracleStore}
    (hreached : Reached k history store) (val : Address) :
    ((getTotalWindows store val).toInt = windowsCounted k val history ∧
      (getMissCounter store val).toInt = windowsMissed k val history ∧
      0 ≤ (getMissCounter store val).toInt ∧
      (getMissCounter store val).toInt ≤
        (getTotalWindows store val).toInt) ∧
    ∀ ctx staking result,
      endBlocker k ctx staking store = .ok result →
      ctx.blockHeight % (getParams store).voteWindow = 0 →
      ∃ w aggregated,
        openWindow k.sdk ctx staking (getParams store) = .ok w ∧
        w.aggregate store = .ok aggregated ∧
        result.2 = aggregated.slashes ++
          w.vals.flatMap (w.missSlash store (w.livePairs store)) ∧
        ∀ v ∈ w.vals,
          k.sdk.valAddressFromBech32 v.operatorAddress = .ok val →
          ((Window.closingTotal store val).toInt =
              windowsCounted k val history + 1 ∧
            (Window.closingMiss store val (w.livePairs store)).toInt =
              windowsMissed k val history +
                if Window.submittedAll store val (w.livePairs store) then 0
                else 1) ∧
          (w.missSlash store (w.livePairs store) v ≠ [] ↔
            w.MissesTooOften store (w.livePairs store) v ∧
              w.Slashable v val) ∧
          (getTotalWindows result.1 val).toInt <
            (getParams store).missWindowSize.toInt ∧
          ((getParams store).missWindowSize ≤
              Window.closingTotal store val →
            getTotalWindows result.1 val = 0 ∧
              getMissCounter result.1 val = 0) := by
  have hmatch := countersMatch_of_reached hreached val
  have hle := windowsMissed_le k val history
  refine ⟨⟨hmatch.total, hmatch.miss, ?_, ?_⟩, ?_⟩
  · rw [hmatch.miss]
    omega
  · rw [hmatch.miss, hmatch.total]
    omega
  · intro ctx staking result hresult hboundary
    rcases endBlocker_cases hresult with ⟨hinside, -⟩ | ⟨-, w, hopen, hclose⟩
    · exact absurd hboundary hinside
    · have hcounters := Window.closedCounters_of_close
        (Window.distinct_of_openWindow hopen) hclose
      rcases hcounters.slashes with ⟨aggregated, hloop, hslashes⟩
      have hparams := (openWindow_eq_ok_iff.mp hopen).2.2.1
      refine ⟨w, aggregated, hopen, hloop, hslashes, ?_⟩
      intro v hv hval
      have htotal := hcounters.total v hv val hval
      have hmiss := hcounters.miss v hv val hval
      rw [Window.closedTotal, hparams] at htotal
      rw [Window.closedMiss, hparams] at hmiss
      refine ⟨⟨hmatch.closingTotal, hmatch.closingMiss _⟩,
        Window.missSlash_ne_nil_iff hval, ?_, ?_⟩
      · have hpos := (sound_of_reached hreached).params_valid.missWindowSize_pos
        rw [htotal]
        split_ifs with hsize
        · exact hpos
        · rw [Int64.le_iff_toInt_le, not_le] at hsize
          exact hsize
      · intro hsize
        rw [if_pos hsize] at htotal hmiss
        exact ⟨htotal, hmiss⟩

/-- Both validators submit in the first window, so each has one window and no
miss. -/
theorem first_window_counts_once :
    ∃ history store,
      Reached referenceKeeper history store ∧
        windowsCounted referenceKeeper (addressOf 1) history = 1 ∧
        windowsMissed referenceKeeper (addressOf 1) history = 0 := by
  have hfacts : (replayGenesis referenceKeeper boundaryCtx twoValidators
      singlePairGenesis
      [.submitFeed boundaryCtx twoValidators (firstFeed "1.0"),
        .submitFeed boundaryCtx twoValidators (secondFeed "1.0"),
        .endBlock boundaryCtx twoValidators]).any (fun r =>
          decide (getTotalWindows r.2.2 (addressOf 1) = 1) &&
            decide (getMissCounter r.2.2 (addressOf 1) = 0)) = true := by
    decide +kernel
  rcases exists_some_of_any hfacts with ⟨⟨start, history, store⟩, hreplay,
    hchecked⟩
  simp only [Bool.and_eq_true, decide_eq_true_eq] at hchecked
  rcases run_of_replayGenesis hreplay with ⟨hinit, hrun⟩
  have hreached : Reached referenceKeeper history store :=
    ⟨_, _, _, _, hinit, hrun⟩
  have hcounts := (participation_counts_window_history hreached
    (addressOf 1)).1
  rw [hchecked.1, hchecked.2, show (1 : Int64).toInt = 1 from rfl,
    show (0 : Int64).toInt = 0 from rfl] at hcounts
  exact ⟨history, store, hreached, by omega, by omega⟩

end Oracle
end Vertix

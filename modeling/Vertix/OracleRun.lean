import Vertix.OracleGenesis
import Vertix.TransitionRun
import Mathlib.Tactic

/-!
# Runs of the oracle module

A run starts from an imported genesis and consists of messages and EndBlocker
calls, each with its own staking view.  A failing message is reverted by its
transaction; a failing EndBlocker ends the run, because it halts the chain.
`Effect` lists what one step can do to the store, and the invariants below are
read off it.
-/

namespace Vertix
namespace Oracle

open Transition

inductive OracleStep (k : Keeper) where
  | setFeeder (staking : StakingView k.sdk) (msg : MsgSetFeeder)
  | submitFeed (ctx : Ctx) (staking : StakingView k.sdk) (msg : MsgSubmitFeed)
  | updateParams (msg : MsgUpdateParams)
  | endBlock (ctx : Ctx) (staking : StakingView k.sdk)

/-- The store after a transaction, which keeps the old one on failure. -/
def commit (store : OracleStore) : Except SdkError OracleStore → OracleStore
  | .ok store' => store'
  | .error _ => store

def oracleStep (k : Keeper) (store : OracleStore) :
    OracleStep k → Option OracleStore
  | .setFeeder staking msg => some (commit store (setFeeder k staking store msg))
  | .submitFeed ctx staking msg =>
      some (commit store (submitFeed k ctx staking store msg))
  | .updateParams msg => some (commit store (updateParams k store msg))
  | .endBlock ctx staking =>
      match endBlocker k ctx staking store with
      | .ok result => some result.1
      | .error _ => none

/-- A message step has failed and changed nothing, or it has left the store of
its handler. -/
theorem commit_cases {store store' : OracleStore}
    {result : Except SdkError OracleStore}
    (hstep : some (commit store result) = some store') :
    (∃ error, result = .error error ∧ store' = store) ∨
      result = .ok store' := by
  rw [Option.some.injEq] at hstep
  subst hstep
  cases result with
  | error error => exact Or.inl ⟨error, rfl, rfl⟩
  | ok next => exact Or.inr rfl

/-- An EndBlocker step was inside a window or has closed one. -/
theorem endBlock_step_cases {k : Keeper} {ctx : Ctx}
    {staking : StakingView k.sdk} {store store' : OracleStore}
    (hstep : oracleStep k store (.endBlock ctx staking) = some store') :
    (ctx.blockHeight % (getParams store).voteWindow ≠ 0 ∧ store' = store) ∨
      (ctx.blockHeight % (getParams store).voteWindow = 0 ∧
        ∃ w slashes, openWindow k.sdk ctx staking (getParams store) = .ok w ∧
          w.close store = .ok (store', slashes)) := by
  cases hresult : endBlocker k ctx staking store with
  | error failure => simp [oracleStep, hresult] at hstep
  | ok result =>
      simp only [oracleStep, hresult, Option.some.injEq] at hstep
      subst hstep
      rcases endBlocker_cases hresult with ⟨hinside, hsame⟩ |
        ⟨hboundary, w, hopen, hclose⟩
      · exact Or.inl ⟨hinside, congrArg Prod.fst hsame⟩
      · exact Or.inr ⟨hboundary, w, result.2, hopen, hclose⟩

/-- `store` is reached from some accepted genesis by the steps of `history`,
newest first. -/
def Reached (k : Keeper) (history : List (OracleStore × OracleStep k))
    (store : OracleStore) : Prop :=
  ∃ ctx staking gs start,
    initGenesis k ctx staking TypedStore.empty gs = .ok start ∧
      Run (oracleStep k) start history store

/-- A store that the history passed through is reached by what was before. -/
theorem Reached.exists_before
    {k : Keeper} {history : List (OracleStore × OracleStep k)}
    {store : OracleStore} (hreached : Reached k history store)
    {entry : OracleStore × OracleStep k} (hentry : entry ∈ history) :
    ∃ newer older, history = newer ++ entry :: older ∧
      Reached k older entry.1 := by
  obtain ⟨ctx, staking, gs, start, hinit, hrun⟩ := hreached
  obtain ⟨newer, older, hsplit, hbefore⟩ := hrun.exists_run_before hentry
  exact ⟨newer, older, hsplit, ctx, staking, gs, start, hinit, hbefore⟩

/-- Execute steps from an imported genesis. -/
def replayGenesis (k : Keeper) (ctx : Ctx) (staking : StakingView k.sdk)
    (gs : GenesisState) (steps : List (OracleStep k)) :
    Option (OracleStore × List (OracleStore × OracleStep k) × OracleStore) :=
  (initGenesis k ctx staking TypedStore.empty gs).toOption.bind fun start =>
    (replay (oracleStep k) [] start steps).map fun run => (start, run)

theorem run_of_replayGenesis
    {k : Keeper} {ctx : Ctx} {staking : StakingView k.sdk}
    {gs : GenesisState} {steps : List (OracleStep k)}
    {start store : OracleStore} {history : List (OracleStore × OracleStep k)}
    (hreplay : replayGenesis k ctx staking gs steps =
      some (start, history, store)) :
    initGenesis k ctx staking TypedStore.empty gs = .ok start ∧
      Run (oracleStep k) start history store := by
  simp only [replayGenesis, Option.bind_eq_some_iff, Option.map_eq_some_iff,
    toOption_eq_some_iff, Prod.mk.injEq] at hreplay
  rcases hreplay with ⟨start', hinit, run, hrun, rfl, rfl, rfl⟩
  exact ⟨hinit, run_of_replay Run.start hrun⟩

theorem steps_of_replayGenesis
    {k : Keeper} {ctx : Ctx} {staking : StakingView k.sdk}
    {gs : GenesisState} {steps : List (OracleStep k)}
    {start store : OracleStore} {history : List (OracleStore × OracleStep k)}
    (hreplay : replayGenesis k ctx staking gs steps =
      some (start, history, store)) :
    history.map Prod.snd = steps.reverse := by
  simp only [replayGenesis, Option.bind_eq_some_iff, Option.map_eq_some_iff,
    Prod.mk.injEq] at hreplay
  rcases hreplay with ⟨start', -, run, hrun, rfl, rfl, rfl⟩
  exact labels_of_replay hrun

/-! ## What one step can do -/

inductive Effect (k : Keeper) (store : OracleStore) :
    OracleStep k → OracleStore → Prop
  | unchanged (step : OracleStep k) : Effect k store step store
  | delegated {staking : StakingView k.sdk} {msg : MsgSetFeeder}
      {val feeder : Address}
      (hfree : ∀ existing,
        getValidatorForFeeder store feeder = some existing → existing = val) :
      Effect k store (.setFeeder staking msg)
        (writeFeederDelegation store val feeder)
  | fed {ctx : Ctx} {staking : StakingView k.sdk} {msg : MsgSubmitFeed}
      {val : Address}
      (hval : k.sdk.valAddressFromBech32 msg.validator = .ok val)
      (hprice : ParsesWithin k.sdk msg.price fun raw => 0 < raw) :
      Effect k store (.submitFeed ctx staking msg)
        (writeFeed store val
          ⟨msg.validator, msg.pair, msg.price, ctx.blockHeight⟩)
  | reparametrized {msg : MsgUpdateParams} (changed : Bool)
      (haccepted : updateParams k store msg =
        .ok (writeParams (if changed then resetMissCounters store else store)
          msg.params))
      (hvalid : msg.params.Valid k.sdk) :
      Effect k store (.updateParams msg)
        (writeParams (if changed then resetMissCounters store else store)
          msg.params)
  | closed {ctx : Ctx} {staking : StakingView k.sdk} {w : Window k.sdk}
      {store' : OracleStore}
      (hboundary : ctx.blockHeight % (getParams store).voteWindow = 0)
      (hopen : openWindow k.sdk ctx staking (getParams store) = .ok w)
      (hclosed : w.Closed store store') :
      Effect k store (.endBlock ctx staking) store'

theorem effect_of_step
    {k : Keeper} {store store' : OracleStore} {step : OracleStep k}
    (hstep : oracleStep k store step = some store') :
    Effect k store step store' := by
  cases step with
  | setFeeder staking msg =>
      rcases commit_cases hstep with ⟨error, -, hsame⟩ | hresult
      · subst hsame
        exact .unchanged _
      · obtain ⟨val, feeder, -, -, -, hfree, hstore⟩ :=
          setFeeder_eq_ok_iff.mp hresult
        subst hstore
        exact .delegated hfree
  | submitFeed ctx staking msg =>
      rcases commit_cases hstep with ⟨error, -, hsame⟩ | hresult
      · subst hsame
        exact .unchanged _
      · obtain ⟨val, hval, -, -, hprice, -, -, -, hstore⟩ :=
          submitFeed_eq_ok_iff.mp hresult
        subst hstore
        exact .fed hval hprice
  | updateParams msg =>
      rcases commit_cases hstep with ⟨error, -, hsame⟩ | hresult
      · subst hsame
        exact .unchanged _
      · obtain ⟨-, -, hvalid, hstore⟩ := updateParams_eq_ok_iff.mp hresult
        subst hstore
        exact .reparametrized _ hresult hvalid
  | endBlock ctx staking =>
      rcases endBlock_step_cases hstep with ⟨-, hsame⟩ |
        ⟨hboundary, w, slashes, hopen, hclose⟩
      · subst hsame
        exact .unchanged _
      · exact .closed hboundary hopen (Window.closed_of_close hclose)

/-! ## The store invariant -/

/-- What every reachable store satisfies, whatever governance and staking
do. -/
structure Sound (sdk : Sdk) (store : OracleStore) : Prop where
  params_valid : (getParams store).Valid sdk
  prices_positive :
    ∀ pair ap, storedPrice store pair = some ap →
      ParsesWithin sdk ap.price fun raw => 0 < raw
  prices_timed :
    ∀ pair ap, storedPrice store pair = some ap → ap.blockTime ≠ zeroTime
  feeds_positive :
    ∀ val pair feed, store.get (.feed val pair) = some (.feed feed) →
      ParsesWithin sdk feed.price fun raw => 0 < raw
  delegations : DelegationsConsistent store

theorem sound_of_initGenesis
    {k : Keeper} {ctx : Ctx} {staking : StakingView k.sdk}
    {gs : GenesisState} {store : OracleStore}
    (hinit : initGenesis k ctx staking TypedStore.empty gs = .ok store) :
    Sound k.sdk store := by
  have himported := imported_of_initGenesis hinit
  have hvalid := (initGenesis_eq_ok_iff.mp hinit).1
  constructor
  · rw [himported.params_eq]
    exact hvalid.params
  · intro pair ap hstored
    exact (hvalid.prices ap ((himported.prices pair ap).mp hstored).1).positive
  · intro pair ap hstored
    exact (hvalid.prices ap ((himported.prices pair ap).mp hstored).1).timed
  · intro val pair feed hget
    rw [himported.no_feeds] at hget
    cases hget
  · exact delegationsConsistent_of_initGenesis hinit

theorem publishedPrice_positive
    {sdk : Sdk} {w : Window sdk} {store : OracleStore} {pair : String}
    (hqualifies : w.Qualifies store pair) :
    ParsesWithin sdk
      (w.publishedPrice pair (w.countedFeeds store pair)).price
      fun raw => 0 < raw := by
  obtain ⟨e, hmem, hmedian⟩ := hqualifies.median_mem
  refine ⟨weightedMedian (w.countedFeeds store pair),
    sdk.legacyDec_roundTrip _, ?_⟩
  rw [hmedian]
  exact Window.countedFeeds_price_pos hmem

/-- A boundary call publishes or keeps each price. -/
theorem Window.Closed.storedPrice_cases
    {sdk : Sdk} {w : Window sdk} {store store' : OracleStore}
    (hclosed : w.Closed store store') (pair : String) :
    (pair ∈ w.params.acceptList ∧ w.Qualifies store pair ∧
        storedPrice store' pair =
          some (w.publishedPrice pair (w.countedFeeds store pair))) ∨
      (¬ (pair ∈ w.params.acceptList ∧ w.Qualifies store pair) ∧
        storedPrice store' pair = storedPrice store pair) := by
  by_cases hpublished : pair ∈ w.params.acceptList ∧ w.Qualifies store pair
  · left
    refine ⟨hpublished.1, hpublished.2, ?_⟩
    exact storedPrice_eq_some_iff.mpr
      (hclosed.published pair hpublished.1 hpublished.2)
  · right
    exact ⟨hpublished, storedPrice_congr (hclosed.kept pair hpublished)⟩

/-- A step keeps the price of a pair unless it closes a window in which the
pair has quorum. -/
theorem Effect.storedPrice_cases
    {k : Keeper} {store store' : OracleStore} {step : OracleStep k}
    (heffect : Effect k store step store') (pair : String) :
    storedPrice store' pair = storedPrice store pair ∨
      ∃ ctx staking w, step = .endBlock ctx staking ∧
        ctx.blockHeight % (getParams store).voteWindow = 0 ∧
        openWindow k.sdk ctx staking (getParams store) = .ok w ∧
        pair ∈ w.params.acceptList ∧ w.Qualifies store pair ∧
        storedPrice store' pair =
          some (w.publishedPrice pair (w.countedFeeds store pair)) := by
  cases heffect with
  | unchanged => exact Or.inl rfl
  | delegated =>
      left
      apply storedPrice_congr
      rw [get_writeFeederDelegation]
      simp
  | fed =>
      left
      apply storedPrice_congr
      rw [get_writeFeed]
      simp
  | reparametrized changed =>
      left
      exact storedPrice_congr (get_updatedParams_of_ne store changed _
        (by simp) (by simp [OracleKey.IsCounter]))
  | closed hboundary hopen hclosed =>
      rcases hclosed.storedPrice_cases pair with
        ⟨haccepted, hqualifies, hnew⟩ | ⟨-, hkept⟩
      · exact Or.inr ⟨_, _, _, rfl, hboundary, hopen, haccepted, hqualifies,
          hnew⟩
      · exact Or.inl hkept

/-- A step keeps the parameters unless it is an accepted update. -/
theorem Effect.getParams_cases
    {k : Keeper} {store store' : OracleStore} {step : OracleStep k}
    (heffect : Effect k store step store') :
    getParams store' = getParams store ∨
      ∃ msg, step = .updateParams msg ∧
        updateParams k store msg = .ok store' ∧
        msg.params.Valid k.sdk ∧ getParams store' = msg.params := by
  cases heffect with
  | unchanged => exact Or.inl rfl
  | delegated => exact Or.inl (getParams_writeFeederDelegation _ _ _)
  | fed => exact Or.inl (getParams_writeFeed _ _ _)
  | reparametrized changed haccepted hvalid =>
      exact Or.inr ⟨_, rfl, haccepted, hvalid, getParams_writeParams _ _⟩
  | closed hboundary hopen hclosed =>
      exact Or.inl (getParams_congr hclosed.params_eq)

/-- A price which is new was just published. -/
theorem Effect.price_sound
    {k : Keeper} {store store' : OracleStore} {step : OracleStep k}
    (heffect : Effect k store step store') {pair : String}
    {ap : AggregatedPrice} (hstored : storedPrice store' pair = some ap) :
    storedPrice store pair = some ap ∨
      (ParsesWithin k.sdk ap.price fun raw => 0 < raw) ∧
        ap.blockTime ≠ zeroTime := by
  rcases heffect.storedPrice_cases pair with hkept |
    ⟨ctx, staking, w, -, -, -, -, hqualifies, hnew⟩
  · rw [hkept] at hstored
    exact Or.inl hstored
  · rw [hnew, Option.some.injEq] at hstored
    subst hstored
    exact Or.inr ⟨publishedPrice_positive hqualifies, w.ctx.timestamp.1.ne'⟩

theorem Effect.feed_positive
    {k : Keeper} {store store' : OracleStore} {step : OracleStep k}
    (heffect : Effect k store step store') {val : Address} {pair : String}
    {feed : OracleFeed} (hget : store'.get (.feed val pair) = some (.feed feed)) :
    store.get (.feed val pair) = some (.feed feed) ∨
      ParsesWithin k.sdk feed.price fun raw => 0 < raw := by
  cases heffect with
  | unchanged => exact Or.inl hget
  | delegated =>
      rw [get_writeFeederDelegation] at hget
      exact Or.inl (by simpa using hget)
  | fed hval hprice =>
      rw [get_writeFeed] at hget
      split_ifs at hget
      · cases hget
        exact Or.inr hprice
      · exact Or.inl hget
  | reparametrized changed =>
      rw [get_updatedParams_of_ne store changed _ (by simp)
        (by simp [OracleKey.IsCounter])] at hget
      exact Or.inl hget
  | closed hboundary hopen hclosed =>
      rw [hclosed.cleared] at hget
      cases hget

/-- Only `SetFeeder` touches the delegations. -/
theorem Effect.feederTable_eq
    {k : Keeper} {store store' : OracleStore} {step : OracleStep k}
    (heffect : Effect k store step store')
    (hother : ∀ staking msg, step ≠ .setFeeder staking msg) :
    feederTable store' = feederTable store := by
  cases heffect with
  | unchanged => rfl
  | delegated => exact absurd rfl (hother _ _)
  | fed => apply feederTable_congr <;> simp [get_writeFeed]
  | reparametrized changed =>
      apply feederTable_congr
      · intro val
        exact get_updatedParams_of_ne store changed _ (by simp)
          (by simp [OracleKey.IsCounter])
      · intro feeder
        exact get_updatedParams_of_ne store changed _ (by simp)
          (by simp [OracleKey.IsCounter])
  | closed hboundary hopen hclosed =>
      exact feederTable_congr hclosed.valoperToFeeder_eq
        hclosed.feederToValoper_eq

theorem Effect.delegations
    {k : Keeper} {store store' : OracleStore} {step : OracleStep k}
    (heffect : Effect k store step store')
    (hconsistent : DelegationsConsistent store) :
    DelegationsConsistent store' := by
  by_cases hset : ∃ staking msg, step = .setFeeder staking msg
  · obtain ⟨staking, msg, hstep⟩ := hset
    subst hstep
    cases heffect with
    | unchanged => exact hconsistent
    | delegated hfree => exact hconsistent.write hfree
  · apply hconsistent.congr
    apply heffect.feederTable_eq
    intro staking msg hstep
    exact hset ⟨staking, msg, hstep⟩

theorem Sound.effect
    {k : Keeper} {store store' : OracleStore} {step : OracleStep k}
    (hsound : Sound k.sdk store) (heffect : Effect k store step store') :
    Sound k.sdk store' := by
  constructor
  · rcases heffect.getParams_cases with hsame | ⟨msg, -, -, hvalid, hnew⟩
    · rw [hsame]
      exact hsound.params_valid
    · rw [hnew]
      exact hvalid
  · intro pair ap hstored
    rcases heffect.price_sound hstored with hold | hnew
    · exact hsound.prices_positive pair ap hold
    · exact hnew.1
  · intro pair ap hstored
    rcases heffect.price_sound hstored with hold | hnew
    · exact hsound.prices_timed pair ap hold
    · exact hnew.2
  · intro val pair feed hget
    rcases heffect.feed_positive hget with hold | hnew
    · exact hsound.feeds_positive val pair feed hold
    · exact hnew
  · exact heffect.delegations hsound.delegations

theorem sound_of_reached
    {k : Keeper} {history : List (OracleStore × OracleStep k)}
    {store : OracleStore} (hreached : Reached k history store) :
    Sound k.sdk store := by
  obtain ⟨ctx, staking, gs, start, hinit, hrun⟩ := hreached
  exact Run.invariant (sound_of_initGenesis hinit)
    (fun _ _ _ hsound hstep => hsound.effect (effect_of_step hstep)) hrun

end Oracle
end Vertix

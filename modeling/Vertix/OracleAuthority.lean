import Vertix.OracleDelegations
import Mathlib.Tactic

/-!
# Who may submit for a validator

A submission for a validator is authorized by its feeder, which is the account
it named last, or its own operator account as long as it named none.  The
default is in no index: the check for a bound feeder does not see that a
validator without a delegation submits for itself.
-/

namespace Vertix
namespace Oracle

open Transition TwoWay

theorem resolveAuthorizedFeeder_eq_resolve (store : OracleStore)
    (val : Address) :
    resolveAuthorizedFeeder store val = (feederTable store).resolve val := by
  change resolveAuthorizedFeeder store val =
    (getFeederForValidator store val).getD val
  unfold resolveAuthorizedFeeder
  cases getFeederForValidator store val with
  | none => rfl
  | some feeder => rfl

/-! ## One account, one validator -/

/-- Among the given validators no two share a feeder, so no account has
submissions accepted for two of them. -/
structure FeedsForOne (k : Keeper) (vals : Set Address)
    (store : OracleStore) : Prop where
  resolve : Set.InjOn (resolveAuthorizedFeeder store) vals
  submissions : ∀ ctx (staking : StakingView k.sdk) msg next
      ctx' (staking' : StakingView k.sdk) msg' next' account val val',
    submitFeed k ctx staking store msg = .ok next →
    submitFeed k ctx' staking' store msg' = .ok next' →
    k.sdk.accAddressFromBech32 msg.feeder = .ok account →
    k.sdk.accAddressFromBech32 msg'.feeder = .ok account →
    k.sdk.valAddressFromBech32 msg.validator = .ok val →
    k.sdk.valAddressFromBech32 msg'.validator = .ok val' →
    val ∈ vals → val' ∈ vals → val = val'

/-- The feeder of an accepted submission is the resolved one. -/
theorem resolve_of_submitFeed
    {k : Keeper} {ctx : Ctx} {staking : StakingView k.sdk}
    {store next : OracleStore} {msg : MsgSubmitFeed} {account val : Address}
    (hsubmit : submitFeed k ctx staking store msg = .ok next)
    (hfeeder : k.sdk.accAddressFromBech32 msg.feeder = .ok account)
    (hval : k.sdk.valAddressFromBech32 msg.validator = .ok val) :
    resolveAuthorizedFeeder store val = account := by
  obtain ⟨author, hauthor, hresolved, -⟩ := submitFeed_eq_ok_iff.mp hsubmit
  rw [hval, Except.ok.injEq] at hauthor
  rw [hfeeder, Except.ok.injEq] at hresolved
  rw [hauthor, hresolved]

theorem feedsForOne_iff {k : Keeper} {vals : Set Address}
    {store : OracleStore} :
    FeedsForOne k vals store ↔ Set.InjOn (feederTable store).resolve vals := by
  have hresolve : resolveAuthorizedFeeder store =
      (feederTable store).resolve :=
    funext (resolveAuthorizedFeeder_eq_resolve store)
  rw [← hresolve]
  constructor
  · exact FeedsForOne.resolve
  · intro hinj
    refine ⟨hinj, ?_⟩
    intro ctx staking msg next ctx' staking' msg' next' account val val'
      hsubmit hsubmit' hfeeder hfeeder' hval hval' hmem hmem'
    apply hinj hmem hmem'
    rw [resolve_of_submitFeed hsubmit hfeeder hval,
      resolve_of_submitFeed hsubmit' hfeeder' hval']

/-- The step does not bind one of the validators to the operator account of
another which has named no feeder yet. -/
def RespectsOperators (k : Keeper) (vals : Set Address) (store : OracleStore)
    (step : OracleStep k) : Prop :=
  ∀ val feeder, acceptedDelegation k store step = some (val, feeder) →
    val ∈ vals → feeder ∈ vals →
    feeder = val ∨ getFeederForValidator store feeder ≠ none

theorem injOn_resolve_step_iff
    {k : Keeper} {store store' : OracleStore} {step : OracleStep k}
    {log : List (Address × Address)} {vals : Set Address}
    (hrecorded : Recorded (feederTable store) log)
    (hinj : Set.InjOn (feederTable store).resolve vals)
    (hstep : oracleStep k store step = some store') :
    Set.InjOn (feederTable store').resolve vals ↔
      RespectsOperators k vals store step := by
  rcases delegation_cases hstep with ⟨hnone, hsame⟩ |
    ⟨val, feeder, hsome, hfree, hwritten⟩
  · rw [hsame]
    constructor
    · intro _ val feeder hdelegation
      rw [hnone] at hdelegation
      cases hdelegation
    · intro _
      exact hinj
  · rw [hwritten, hrecorded.injOn_resolve_write_iff hinj hfree]
    constructor
    · intro h val' feeder' hdelegation
      rw [hsome] at hdelegation
      cases hdelegation
      exact h
    · intro h
      exact h val feeder hsome

/-- Along every run from the default genesis, and for any set of validators, no
account is the feeder of two of them at any time exactly when no accepted
`SetFeeder` names the operator account of another one without a delegation. -/
theorem feeder_serves_one_validator_iff
    {k : Keeper} {ctx : Ctx} {staking : StakingView k.sdk}
    {start store : OracleStore}
    {history : List (OracleStore × OracleStep k)} (vals : Set Address)
    (hinit : initGenesis k ctx staking TypedStore.empty defaultGenesis =
      .ok start)
    (hrun : Run (oracleStep k) start history store) :
    ((∀ entry ∈ history, FeedsForOne k vals entry.1) ∧
        FeedsForOne k vals store) ↔
      ∀ entry ∈ history, RespectsOperators k vals entry.1 entry.2 := by
  refine Run.always_iff_of_run (I := FeedsForOne k vals) ?_ ?_ hrun
  · rw [feedsForOne_iff, (recorded_of_initGenesis hinit).injOn_resolve_iff]
    intro val _ other _ hbound
    have hlog := (recorded_of_initGenesis hinit).forward val
    rw [hbound] at hlog
    simp [genesisDelegations, defaultGenesis] at hlog
  · intro history state step state' hrun hstate hnext
    rw [feedsForOne_iff] at hstate ⊢
    exact injOn_resolve_step_iff (recorded_of_run hinit hrun) hstate hnext

/-- The first validator names an account which is no validator's operator. -/
theorem outside_feeder_serves_one_validator :
    ∃ start history store,
      initGenesis referenceKeeper boundaryCtx twoValidators TypedStore.empty
        defaultGenesis = .ok start ∧
      Run (oracleStep referenceKeeper) start history store ∧
      resolveAuthorizedFeeder store (addressOf 1) = addressOf 3 ∧
      FeedsForOne referenceKeeper {addressOf 1, addressOf 2} store := by
  have hreplay : (replayGenesis referenceKeeper boundaryCtx twoValidators
      defaultGenesis [.setFeeder twoValidators (feederChoice 1 3)]).any
        (fun run =>
          decide (resolveAuthorizedFeeder run.2.2 (addressOf 1) =
            addressOf 3) &&
          run.2.1.all fun entry => decide
            (acceptedDelegation referenceKeeper entry.1 entry.2 =
              some (addressOf 1, addressOf 3))) = true := by
    decide +kernel
  obtain ⟨⟨start, history, store⟩, hrun, hstore⟩ := exists_some_of_any hreplay
  obtain ⟨hinit, hrun⟩ := run_of_replayGenesis hrun
  simp only [Bool.and_eq_true, decide_eq_true_eq, List.all_eq_true] at hstore
  refine ⟨start, history, store, hinit, hrun, hstore.1, ?_⟩
  refine ((feeder_serves_one_validator_iff _ hinit hrun).mpr ?_).2
  intro entry hentry val feeder hdelegation _ hfeeder
  rw [hstore.2 entry hentry] at hdelegation
  cases hdelegation
  rw [Set.mem_insert_iff, Set.mem_singleton_iff] at hfeeder
  exact absurd hfeeder (by decide)

/-- The first validator names the operator account of the second, which has no
delegation.  That account then submits for both. -/
theorem operator_account_feeds_for_two :
    ∃ start history store,
      initGenesis referenceKeeper boundaryCtx twoValidators TypedStore.empty
        defaultGenesis = .ok start ∧
      Run (oracleStep referenceKeeper) start history store ∧
      history.map Prod.snd = [.setFeeder twoValidators (feederChoice 1 2)] ∧
      resolveAuthorizedFeeder store (addressOf 1) = addressOf 2 ∧
      resolveAuthorizedFeeder store (addressOf 2) = addressOf 2 ∧
      (∃ next, submitFeed referenceKeeper boundaryCtx twoValidators store
        { secondFeed "1.0" with validator := (firstFeed "1.0").validator } =
          .ok next) ∧
      ∃ next, submitFeed referenceKeeper boundaryCtx twoValidators store
        (secondFeed "1.0") = .ok next := by
  have hreplay : (replayGenesis referenceKeeper boundaryCtx twoValidators
      defaultGenesis [.setFeeder twoValidators (feederChoice 1 2)]).any
        (fun run =>
          decide (resolveAuthorizedFeeder run.2.2 (addressOf 1) =
            addressOf 2) &&
          decide (resolveAuthorizedFeeder run.2.2 (addressOf 2) =
            addressOf 2) &&
          (submitFeed referenceKeeper boundaryCtx twoValidators run.2.2
            { secondFeed "1.0" with
              validator := (firstFeed "1.0").validator }).toOption.any
                (fun _ => true) &&
          (submitFeed referenceKeeper boundaryCtx twoValidators run.2.2
            (secondFeed "1.0")).toOption.any fun _ => true) = true := by
    decide +kernel
  obtain ⟨⟨start, history, store⟩, hrun, hstore⟩ := exists_some_of_any hreplay
  simp only [Bool.and_eq_true, decide_eq_true_eq] at hstore
  have hsteps := steps_of_replayGenesis hrun
  obtain ⟨hinit, hrun⟩ := run_of_replayGenesis hrun
  obtain ⟨next, hfirst, -⟩ := exists_ok_of_any hstore.1.2
  obtain ⟨next', hsecond, -⟩ := exists_ok_of_any hstore.2
  exact ⟨start, history, store, hinit, hrun, hsteps, hstore.1.1.1,
    hstore.1.1.2, ⟨next, hfirst⟩, next', hsecond⟩

/-! ## Submissions over a whole run -/

/-- The feeder of a validator by the history: the one it named last, by a
message or in the genesis, or its own operator account. -/
def feederOf (k : Keeper) (gs : GenesisState)
    (history : List (OracleStore × OracleStep k)) (val : Address) : Address :=
  ((delegationLog k gs history).lookup val).getD val

theorem resolve_eq_feederOf
    {k : Keeper} {ctx : Ctx} {staking : StakingView k.sdk}
    {gs : GenesisState} {start store : OracleStore}
    {history : List (OracleStore × OracleStep k)}
    (hinit : initGenesis k ctx staking TypedStore.empty gs = .ok start)
    (hrun : Run (oracleStep k) start history store) (val : Address) :
    resolveAuthorizedFeeder store val = feederOf k gs history val := by
  rw [resolveAuthorizedFeeder_eq_resolve, Table.resolve,
    (recorded_of_run hinit hrun).forward, feederOf]

/-- An account which is not the feeder of a validator does not become it
without being named. -/
theorem feederOf_append_ne
    {k : Keeper} {gs : GenesisState}
    {newer older : List (OracleStore × OracleStep k)} {val account : Address}
    (hreplaced : feederOf k gs older val ≠ account)
    (hunnamed : (val, account) ∉ acceptedDelegations k newer) :
    feederOf k gs (newer ++ older) val ≠ account := by
  have hlog : delegationLog k gs (newer ++ older) =
      acceptedDelegations k newer ++ delegationLog k gs older := by
    unfold delegationLog acceptedDelegations
    rw [List.filterMap_append, List.append_assoc]
  unfold feederOf
  rw [hlog]
  exact getD_lookup_append_ne hunnamed hreplaced

/-- Submissions of an account leave the feeds of a validator alone whose feeder
it is not. -/
theorem feeds_kept_of_other_feeder
    {k : Keeper} {ctx : Ctx} {staking : StakingView k.sdk}
    {store store' : OracleStore} {msg : MsgSubmitFeed}
    {account val : Address}
    (hfeeder : k.sdk.accAddressFromBech32 msg.feeder = .ok account)
    (hother : resolveAuthorizedFeeder store val ≠ account)
    (hstep : oracleStep k store (.submitFeed ctx staking msg) = some store')
    (pair : String) :
    store'.get (.feed val pair) = store.get (.feed val pair) := by
  rcases commit_cases hstep with ⟨error, -, hsame⟩ | hsubmit
  · rw [hsame]
  · have hresolved : ∀ author,
        k.sdk.valAddressFromBech32 msg.validator = .ok author →
        resolveAuthorizedFeeder store author = account :=
      fun author => resolve_of_submitFeed hsubmit hfeeder
    obtain ⟨author, hauthor, -, -, -, -, -, -, hstore⟩ :=
      submitFeed_eq_ok_iff.mp hsubmit
    rw [← hstore, get_writeFeed, if_neg]
    intro hkey
    rw [OracleKey.feed.injEq] at hkey
    rw [← hkey.1] at hother
    exact hother (hresolved author hauthor)

/-- The conditions under which a submission is accepted, with the feeder
given. -/
structure Authorized (k : Keeper) (staking : StakingView k.sdk)
    (params : OracleParams) (msg : MsgSubmitFeed) (val feeder : Address) :
    Prop where
  basic : msg.validateBasic k.sdk = .ok ()
  accepted : params.pairAccepted msg.pair = true
  validator : k.sdk.valAddressFromBech32 msg.validator = .ok val
  bonded : ∃ v, staking.getValidator val.bytes = .ok v ∧ v.status = .bonded
  powered : ∃ power, staking.lastValidatorPower val.bytes = .ok power ∧
    power ≠ 0
  feeder : k.sdk.accAddressFromBech32 msg.feeder = .ok feeder

theorem submitFeed_eq_ok_iff_authorized
    {k : Keeper} {ctx : Ctx} {staking : StakingView k.sdk}
    {store store' : OracleStore} {msg : MsgSubmitFeed} :
    submitFeed k ctx staking store msg = .ok store' ↔
      ∃ val, Authorized k staking (getParams store) msg val
          (resolveAuthorizedFeeder store val) ∧
        writeFeed store val
          ⟨msg.validator, msg.pair, msg.price, ctx.blockHeight⟩ = store' := by
  rw [submitFeed_eq_ok_iff]
  constructor
  · intro h
    obtain ⟨val, hval, hfeeder, hpair, hprice, haccepted, hbonded, hpower,
      hstore⟩ := h
    have hbasic : msg.validateBasic k.sdk = .ok () :=
      MsgSubmitFeed.validateBasic_eq_ok_iff.mpr
        ⟨⟨_, hfeeder⟩, ⟨val, hval⟩, hpair, hprice⟩
    exact ⟨val, ⟨hbasic, haccepted, hval, hbonded, hpower, hfeeder⟩, hstore⟩
  · intro h
    obtain ⟨val, hauthorized, hstore⟩ := h
    obtain ⟨-, -, hpair, hprice⟩ :=
      MsgSubmitFeed.validateBasic_eq_ok_iff.mp hauthorized.basic
    exact ⟨val, hauthorized.validator, hauthorized.feeder, hpair, hprice,
      hauthorized.accepted, hauthorized.bonded, hauthorized.powered, hstore⟩

/-- What a submission does when the feeder of each validator is given. -/
structure SubmitsFor (k : Keeper) (store : OracleStore)
    (feeders : Address → Address) (ctx : Ctx) (staking : StakingView k.sdk)
    (msg : MsgSubmitFeed) : Prop where
  accepted_iff : (∃ store', submitFeed k ctx staking store msg = .ok store') ↔
    ∃ val, Authorized k staking (getParams store) msg val (feeders val)
  writes_feed : ∀ store', submitFeed k ctx staking store msg = .ok store' →
    ∃ val, k.sdk.valAddressFromBech32 msg.validator = .ok val ∧
      store'.get (.feed val msg.pair) = some (.feed
        ⟨msg.validator, msg.pair, msg.price, ctx.blockHeight⟩) ∧
      ∀ key, key ≠ .feed val msg.pair → store'.get key = store.get key
  writes_nothing : ∀ error,
    submitFeed k ctx staking store msg = .error error →
    oracleStep k store (.submitFeed ctx staking msg) = some store

theorem submitsFor_of_resolve
    {k : Keeper} {store : OracleStore} {feeders : Address → Address}
    (hresolve : ∀ val, resolveAuthorizedFeeder store val = feeders val)
    (ctx : Ctx) (staking : StakingView k.sdk) (msg : MsgSubmitFeed) :
    SubmitsFor k store feeders ctx staking msg := by
  constructor
  · simp only [submitFeed_eq_ok_iff_authorized, hresolve]
    constructor
    · intro h
      obtain ⟨store', val, hauthorized, -⟩ := h
      exact ⟨val, hauthorized⟩
    · intro h
      obtain ⟨val, hauthorized⟩ := h
      exact ⟨_, val, hauthorized, rfl⟩
  · intro store' hsubmit
    obtain ⟨val, hauthorized, rfl⟩ :=
      submitFeed_eq_ok_iff_authorized.mp hsubmit
    refine ⟨val, hauthorized.validator, ?_, ?_⟩
    · rw [get_writeFeed, if_pos rfl]
    · intro key hkey
      rw [get_writeFeed, if_neg hkey.symm]
  · intro error hrejected
    simp [oracleStep, hrejected, commit]

/-- A step of the account is no submission, or leaves the validator's feeds as
they are. -/
def LeavesFeeds (k : Keeper) (account val : Address)
    (entry : OracleStore × OracleStep k) : Prop :=
  ∀ ctx staking msg, entry.2 = .submitFeed ctx staking msg →
    k.sdk.accAddressFromBech32 msg.feeder = .ok account →
    ∀ next, oracleStep k entry.1 entry.2 = some next →
      ∀ pair, next.get (.feed val pair) = entry.1.get (.feed val pair)

/-- After an account was replaced it cannot write the validator's feeds, as
long as the validator does not name it again. -/
theorem leavesFeeds_of_replaced
    {k : Keeper} {ctx : Ctx} {staking : StakingView k.sdk}
    {gs : GenesisState} {start store : OracleStore}
    {newer older : List (OracleStore × OracleStep k)} {val account : Address}
    (hinit : initGenesis k ctx staking TypedStore.empty gs = .ok start)
    (hrun : Run (oracleStep k) start (newer ++ older) store)
    (hreplaced : feederOf k gs older val ≠ account)
    (hunnamed : (val, account) ∉ acceptedDelegations k newer) :
    ∀ entry ∈ newer, LeavesFeeds k account val entry := by
  intro entry hentry ctx' staking' msg hstep hfeeder next hnext
  obtain ⟨last, first, rfl⟩ := List.append_of_mem hentry
  have hbefore : Run (oracleStep k) start (first ++ older) entry.1 := by
    rw [List.append_assoc, List.cons_append] at hrun
    exact hrun.before
  rw [List.append_cons, acceptedDelegations, List.filterMap_append,
    List.mem_append, not_or] at hunnamed
  rw [hstep] at hnext
  apply feeds_kept_of_other_feeder hfeeder _ hnext
  rw [resolve_eq_feederOf hinit hbefore]
  exact feederOf_append_ne hreplaced hunnamed.2

/-- In every state reached from an accepted genesis, a submission is accepted
exactly when its checks pass and it is sent by the feeder which the history
gives its validator.  It writes the feed of its validator and pair and nothing
else, and a rejected one writes nothing.  An account which was replaced as
feeder leaves the validator's feeds alone until it is named again. -/
theorem submission_needs_latest_feeder
    {k : Keeper} {ctx : Ctx} {staking : StakingView k.sdk}
    {gs : GenesisState} {start store : OracleStore}
    {history : List (OracleStore × OracleStep k)}
    (hinit : initGenesis k ctx staking TypedStore.empty gs = .ok start)
    (hrun : Run (oracleStep k) start history store) :
    (∀ ctx' staking' msg,
      SubmitsFor k store (feederOf k gs history) ctx' staking' msg) ∧
    ∀ newer older val account, history = newer ++ older →
      feederOf k gs older val ≠ account →
      (val, account) ∉ acceptedDelegations k newer →
      ∀ entry ∈ newer, LeavesFeeds k account val entry := by
  constructor
  · exact submitsFor_of_resolve (resolve_eq_feederOf hinit hrun)
  · intro newer older val account hsplit hreplaced hunnamed
    rw [hsplit] at hrun
    exact leavesFeeds_of_replaced hinit hrun hreplaced hunnamed

/-- The first validator names the third account.  That account submits for it,
and its own operator account no longer does. -/
theorem named_feeder_replaces_operator :
    ∃ start history store,
      initGenesis referenceKeeper boundaryCtx twoValidators TypedStore.empty
        defaultGenesis = .ok start ∧
      Run (oracleStep referenceKeeper) start history store ∧
      (∃ next, submitFeed referenceKeeper boundaryCtx twoValidators store
        { firstFeed "1.0" with feeder := (feederChoice 1 3).feeder } =
          .ok next) ∧
      ¬ ∃ next, submitFeed referenceKeeper boundaryCtx twoValidators store
        (firstFeed "1.0") = .ok next := by
  have hreplay : (replayGenesis referenceKeeper boundaryCtx twoValidators
      defaultGenesis [.setFeeder twoValidators (feederChoice 1 3)]).any
        (fun run =>
          decide (feederOf referenceKeeper defaultGenesis run.2.1
            (addressOf 1) = addressOf 3) &&
          (submitFeed referenceKeeper boundaryCtx twoValidators run.2.2
            { firstFeed "1.0" with
              feeder := (feederChoice 1 3).feeder }).toOption.any
                fun _ => true) = true := by
    decide +kernel
  obtain ⟨⟨start, history, store⟩, hrun, hstore⟩ := exists_some_of_any hreplay
  simp only [Bool.and_eq_true, decide_eq_true_eq] at hstore
  obtain ⟨next, hnext, -⟩ := exists_ok_of_any hstore.2
  obtain ⟨hinit, hrun⟩ := run_of_replayGenesis hrun
  refine ⟨start, history, store, hinit, hrun, ⟨next, hnext⟩, ?_⟩
  have hrule := (submission_needs_latest_feeder hinit hrun).1 boundaryCtx
    twoValidators (firstFeed "1.0")
  rw [hrule.accepted_iff]
  intro h
  obtain ⟨val, hauthorized⟩ := h
  have hval : referenceKeeper.sdk.valAddressFromBech32
      (firstFeed "1.0").validator = .ok (addressOf 1) := by
    decide +kernel
  have hfeeder : referenceKeeper.sdk.accAddressFromBech32
      (firstFeed "1.0").feeder = .ok (addressOf 1) := by
    decide +kernel
  have hnamed := hauthorized.validator
  rw [hval, Except.ok.injEq] at hnamed
  have hsender := hauthorized.feeder
  rw [hfeeder, ← hnamed, hstore.1, Except.ok.injEq] at hsender
  exact absurd hsender (by decide)

end Oracle
end Vertix

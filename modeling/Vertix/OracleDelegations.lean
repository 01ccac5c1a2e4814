import Vertix.OracleRestart
import Vertix.TwoWayTable
import Mathlib.Tactic

/-!
# The history of feeder delegations

Delegations are made by the genesis and by accepted `SetFeeder` messages.  The
feeder of a validator is the one it named last, while the index from feeders
to validators keeps every feeder a validator ever named.  An export writes the
current feeders only, so the import forgets the others.
-/

namespace Vertix
namespace Oracle

open Transition TwoWay

/-! ## Delegations of a history -/

/-- The delegation made by a step, if it is an accepted `SetFeeder`. -/
def acceptedDelegation (k : Keeper) (store : OracleStore) :
    OracleStep k → Option (Address × Address)
  | .setFeeder staking msg =>
      if (setFeeder k staking store msg).isOk then
        decodeDelegation k.sdk msg.validator msg.feeder
      else none
  | _ => none

/-- The accepted delegations of a history, the last one first. -/
def acceptedDelegations (k : Keeper)
    (history : List (OracleStore × OracleStep k)) : List (Address × Address) :=
  history.filterMap fun entry => acceptedDelegation k entry.1 entry.2

/-- Every delegation made in a genesis or in the history after it. -/
def delegationLog (k : Keeper) (gs : GenesisState)
    (history : List (OracleStore × OracleStep k)) : List (Address × Address) :=
  acceptedDelegations k history ++ genesisDelegations k gs

theorem delegationLog_cons (k : Keeper) (gs : GenesisState)
    (store : OracleStore) (step : OracleStep k)
    (history : List (OracleStore × OracleStep k)) :
    delegationLog k gs ((store, step) :: history) =
      (acceptedDelegation k store step).toList ++
        delegationLog k gs history := by
  unfold delegationLog acceptedDelegations
  rw [List.filterMap_cons]
  cases acceptedDelegation k store step with
  | none => rfl
  | some delegation => rfl

/-- A step makes one delegation, for a feeder which was free, or leaves the
indexes as they are. -/
theorem delegation_cases
    {k : Keeper} {store store' : OracleStore} {step : OracleStep k}
    (hstep : oracleStep k store step = some store') :
    (acceptedDelegation k store step = none ∧
        feederTable store' = feederTable store) ∨
      ∃ val feeder, acceptedDelegation k store step = some (val, feeder) ∧
        (feederTable store).Free val feeder ∧
        feederTable store' = (feederTable store).write val feeder := by
  cases step with
  | setFeeder staking msg =>
      rcases commit_cases hstep with ⟨error, hresult, hsame⟩ | hresult
      · subst hsame
        left
        simp [acceptedDelegation, hresult, Except.isOk, Except.toBool]
      · obtain ⟨val, feeder, hval, hfeeder, -, hfree, hstore⟩ :=
          setFeeder_eq_ok_iff.mp hresult
        subst hstore
        right
        refine ⟨val, feeder, ?_, hfree, feederTable_write store val feeder⟩
        simp [acceptedDelegation, hresult, Except.isOk, Except.toBool,
          decodeDelegation_eq_some hval hfeeder]
  | submitFeed ctx staking msg =>
      exact Or.inl ⟨rfl, (effect_of_step hstep).feederTable_eq (by simp)⟩
  | updateParams msg =>
      exact Or.inl ⟨rfl, (effect_of_step hstep).feederTable_eq (by simp)⟩
  | endBlock ctx staking =>
      exact Or.inl ⟨rfl, (effect_of_step hstep).feederTable_eq (by simp)⟩

/-- In every reachable state the indexes are what the delegations of the whole
history leave. -/
theorem recorded_of_run
    {k : Keeper} {ctx : Ctx} {staking : StakingView k.sdk}
    {gs : GenesisState} {start store : OracleStore}
    {history : List (OracleStore × OracleStep k)}
    (hinit : initGenesis k ctx staking TypedStore.empty gs = .ok start)
    (hrun : Run (oracleStep k) start history store) :
    Recorded (feederTable store) (delegationLog k gs history) := by
  induction hrun with
  | start => exact recorded_of_initGenesis hinit
  | @next history state state' step hrun hnext ih =>
      rcases delegation_cases hnext with ⟨hnone, hsame⟩ |
        ⟨val, feeder, hsome, hfree, hwritten⟩
      · rw [hsame, delegationLog_cons, hnone]
        exact ih
      · rw [hwritten, delegationLog_cons, hsome]
        exact ih.write hfree

/-! ## The two indexes and a restart -/

/-- The answers to a sequence of `SetFeeder` messages, each executed on what
the accepted ones before it left. -/
def setFeederAnswers (k : Keeper) (store : OracleStore) :
    List (StakingView k.sdk × MsgSetFeeder) → List (Except SdkError Unit)
  | [] => []
  | (staking, msg) :: later =>
      let result := setFeeder k staking store msg
      result.map (fun _ => ()) :: setFeederAnswers k (commit store result) later

theorem setFeeder_agree
    {k : Keeper} {left right : OracleStore}
    (hsame : feederTable left = feederTable right)
    (staking : StakingView k.sdk) (msg : MsgSetFeeder) :
    Agree (fun l r => feederTable l = feederTable r)
      (setFeeder k staking left msg) (setFeeder k staking right msg) := by
  have hbound : ∀ feeder, getValidatorForFeeder left feeder =
      getValidatorForFeeder right feeder :=
    congrFun (congrArg Table.backward hsame)
  unfold setFeeder
  apply Agree.bind_same
  intro _
  apply Agree.bind_same
  intro val
  apply Agree.bind_same
  intro feeder
  apply Agree.bind_same
  intro _
  have hwritten : feederTable (writeFeederDelegation left val feeder) =
      feederTable (writeFeederDelegation right val feeder) := by
    rw [feederTable_write, feederTable_write, hsame]
  unfold setFeederDelegation
  rw [hbound]
  cases getValidatorForFeeder right feeder with
  | none => exact .ok hwritten
  | some existing =>
      by_cases hother : existing ≠ val
      · simp only [if_pos hother]
        exact .error _
      · simp only [if_neg hother]
        exact .ok hwritten

theorem setFeederAnswers_congr
    {k : Keeper} {left right : OracleStore}
    (hsame : feederTable left = feederTable right)
    (msgs : List (StakingView k.sdk × MsgSetFeeder)) :
    setFeederAnswers k left msgs = setFeederAnswers k right msgs := by
  induction msgs generalizing left right with
  | nil => rfl
  | cons first later ih =>
      obtain ⟨staking, msg⟩ := first
      have hagree := setFeeder_agree hsame staking msg
      simp only [setFeederAnswers]
      generalize setFeeder k staking left msg = onLeft at hagree ⊢
      generalize setFeeder k staking right msg = onRight at hagree ⊢
      cases hagree with
      | error error => simp only [commit, ih hsame]
      | ok hnext => simp only [commit, ih hnext, Except.map]

/-- What the two indexes are for: they describe one relation, an account which
is no validator's feeder can be bound, and a restart does not change the
answers to later `SetFeeder` messages. -/
structure IndexesInverse (k : Keeper) (store : OracleStore) : Prop where
  inverse : ∀ val feeder, getValidatorForFeeder store feeder = some val ↔
    getFeederForValidator store val = some feeder
  released : ∀ feeder,
    (∀ val, getFeederForValidator store val ≠ some feeder) →
    ∀ (staking : StakingView k.sdk) (msg : MsgSetFeeder) val,
      k.sdk.valAddressFromBech32 msg.validator = .ok val →
      k.sdk.accAddressFromBech32 msg.feeder = .ok feeder →
      (∃ v, staking.getValidator val.bytes = .ok v ∧ v.status = .bonded) →
      ∃ store', setFeeder k staking store msg = .ok store'
  restarted : ∀ ctx (staking : StakingView k.sdk) store',
    initGenesis k ctx staking TypedStore.empty (exportGenesis k store) =
      .ok store' →
    ∀ msgs, setFeederAnswers k store' msgs = setFeederAnswers k store msgs

theorem indexesInverse_of_inverse {k : Keeper} {store : OracleStore}
    (hinverse : (feederTable store).Inverse) : IndexesInverse k store := by
  constructor
  · exact hinverse
  · intro feeder hunused staking msg val hval hfeeder hbonded
    refine ⟨_, setFeeder_eq_ok_iff.mpr
      ⟨val, feeder, hval, hfeeder, hbonded, ?_, rfl⟩⟩
    intro existing hexisting
    exact absurd ((hinverse existing feeder).mp hexisting) (hunused existing)
  · intro ctx staking store' hrestart
    obtain ⟨hforward, hrebuilt⟩ := feederTable_of_restart hrestart
    exact setFeederAnswers_congr (hrebuilt.eq hinverse hforward)

/-- In every state reached from an accepted genesis, by `SetFeeder` messages or
any other step, the two indexes are inverse exactly when no validator was given
two feeders, by the genesis or by accepted messages. -/
theorem feeder_indexes_inverse_iff
    {k : Keeper} {ctx : Ctx} {staking : StakingView k.sdk}
    {gs : GenesisState} {start store : OracleStore}
    {history : List (OracleStore × OracleStep k)}
    (hinit : initGenesis k ctx staking TypedStore.empty gs = .ok start)
    (hrun : Run (oracleStep k) start history store) :
    IndexesInverse k store ↔
      ∀ val first second, (val, first) ∈ delegationLog k gs history →
        (val, second) ∈ delegationLog k gs history → first = second := by
  have hrecorded := recorded_of_run hinit hrun
  constructor
  · intro hindexes
    exact hrecorded.inverse_iff.mp hindexes.inverse
  · intro hsingle
    exact indexesInverse_of_inverse (hrecorded.inverse_iff.mpr hsingle)

/-- One of the concrete validators names an account as its feeder. -/
def feederChoice (validator feeder : UInt8) : MsgSetFeeder where
  validator := referenceSdk.valAddressString (addressOf validator).bytes
  feeder := referenceSdk.accAddressString (addressOf feeder).bytes

/-- Two validators name a feeder each. -/
theorem first_choices_keep_indexes_inverse :
    ∃ start history store,
      initGenesis referenceKeeper boundaryCtx twoValidators TypedStore.empty
        defaultGenesis = .ok start ∧
      Run (oracleStep referenceKeeper) start history store ∧
      getFeederForValidator store (addressOf 2) = some (addressOf 4) ∧
      IndexesInverse referenceKeeper store := by
  have hreplay : (replayGenesis referenceKeeper boundaryCtx twoValidators
      defaultGenesis [.setFeeder twoValidators (feederChoice 1 3),
        .setFeeder twoValidators (feederChoice 2 4)]).any (fun run =>
          decide (getFeederForValidator run.2.2 (addressOf 2) =
            some (addressOf 4)) &&
          decide (delegationLog referenceKeeper defaultGenesis run.2.1 =
            [(addressOf 2, addressOf 4), (addressOf 1, addressOf 3)])) =
              true := by
    decide +kernel
  obtain ⟨⟨start, history, store⟩, hrun, hstore⟩ := exists_some_of_any hreplay
  obtain ⟨hinit, hrun⟩ := run_of_replayGenesis hrun
  simp only [Bool.and_eq_true, decide_eq_true_eq] at hstore
  refine ⟨start, history, store, hinit, hrun, hstore.1, ?_⟩
  apply (feeder_indexes_inverse_iff hinit hrun).mpr
  rw [hstore.2]
  have hdistinct : addressOf 1 ≠ addressOf 2 := by decide
  intro val first second hfirst hsecond
  simp only [List.mem_cons, Prod.mk.injEq, List.not_mem_nil, or_false]
    at hfirst hsecond
  rcases hfirst with ⟨rfl, rfl⟩ | ⟨rfl, rfl⟩
  · simpa [hdistinct.symm, eq_comm] using hsecond
  · simpa [hdistinct, eq_comm] using hsecond

/-- A validator rotates its feeder.  The old account stays bound to it and is
refused to another validator, until the chain restarts from its export. -/
theorem rotated_feeder_is_bound_until_restart :
    ∃ start history store restarted,
      initGenesis referenceKeeper boundaryCtx twoValidators TypedStore.empty
        defaultGenesis = .ok start ∧
      Run (oracleStep referenceKeeper) start history store ∧
      history.map Prod.snd = [.setFeeder twoValidators (feederChoice 1 4),
        .setFeeder twoValidators (feederChoice 1 3)] ∧
      initGenesis referenceKeeper boundaryCtx twoValidators TypedStore.empty
        (exportGenesis referenceKeeper store) = .ok restarted ∧
      getValidatorForFeeder store (addressOf 3) = some (addressOf 1) ∧
      getFeederForValidator store (addressOf 1) = some (addressOf 4) ∧
      setFeederAnswers referenceKeeper store
        [(twoValidators, feederChoice 2 3)] =
          [.error errFeederAlreadyBound] ∧
      setFeederAnswers referenceKeeper restarted
        [(twoValidators, feederChoice 2 3)] = [.ok ()] := by
  have hreplay : (replayGenesis referenceKeeper boundaryCtx twoValidators
      defaultGenesis [.setFeeder twoValidators (feederChoice 1 3),
        .setFeeder twoValidators (feederChoice 1 4)]).any (fun run =>
          (initGenesis referenceKeeper boundaryCtx twoValidators
            TypedStore.empty
            (exportGenesis referenceKeeper run.2.2)).toOption.any
            fun restarted =>
              decide (getValidatorForFeeder run.2.2 (addressOf 3) =
                some (addressOf 1)) &&
              decide (getFeederForValidator run.2.2 (addressOf 1) =
                some (addressOf 4)) &&
              decide (setFeederAnswers referenceKeeper run.2.2
                [(twoValidators, feederChoice 2 3)] =
                  [.error errFeederAlreadyBound]) &&
              decide (setFeederAnswers referenceKeeper restarted
                [(twoValidators, feederChoice 2 3)] = [.ok ()])) = true := by
    decide +kernel
  obtain ⟨⟨start, history, store⟩, hrun, hstore⟩ := exists_some_of_any hreplay
  obtain ⟨restarted, hrestart, hanswers⟩ := exists_ok_of_any hstore
  simp only [Bool.and_eq_true, decide_eq_true_eq] at hanswers
  have hsteps := steps_of_replayGenesis hrun
  obtain ⟨hinit, hrun⟩ := run_of_replayGenesis hrun
  exact ⟨start, history, store, restarted, hinit, hrun, hsteps, hrestart,
    hanswers.1.1.1, hanswers.1.1.2, hanswers.1.2, hanswers.2⟩

end Oracle
end Vertix

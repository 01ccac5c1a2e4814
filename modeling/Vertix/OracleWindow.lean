import Vertix.OraclePanicSafety
import Mathlib.Tactic

/-!
# One window of submissions

The EndBlocker computes a median from a scan of the feed store.  Here the same
median is stated over the message history: each bonded validator counts with
the price of its latest accepted submission since the previous boundary.  The
stored feeds of a reachable state are exactly these latest submissions.
-/

namespace Vertix
namespace Oracle

open OrderStatistics Transition

/-! ## Submissions in a history -/

/-- The price text of a validator's latest accepted submission for a pair
since the last boundary of a history, newest step first. -/
def latestPrice (k : Keeper) (val : Address) (pair : String) :
    List (OracleStore × OracleStep k) → Option String
  | [] => none
  | (store, .submitFeed ctx staking msg) :: older =>
      if (submitFeed k ctx staking store msg).isOk ∧
          k.sdk.valAddressFromBech32 msg.validator = .ok val ∧
          msg.pair = pair then
        some msg.price
      else latestPrice k val pair older
  | (store, .endBlock ctx _) :: older =>
      if ctx.blockHeight % (getParams store).voteWindow = 0 then none
      else latestPrice k val pair older
  | (_, .setFeeder _ _) :: older => latestPrice k val pair older
  | (_, .updateParams _) :: older => latestPrice k val pair older

section LatestPrice

variable {k : Keeper} (val : Address) (pair : String) (store : OracleStore)
  (older : List (OracleStore × OracleStep k))

theorem latestPrice_setFeeder (staking : StakingView k.sdk)
    (msg : MsgSetFeeder) :
    latestPrice k val pair ((store, .setFeeder staking msg) :: older) =
      latestPrice k val pair older :=
  rfl

theorem latestPrice_updateParams (msg : MsgUpdateParams) :
    latestPrice k val pair ((store, .updateParams msg) :: older) =
      latestPrice k val pair older :=
  rfl

theorem latestPrice_submitFeed (ctx : Ctx) (staking : StakingView k.sdk)
    (msg : MsgSubmitFeed) :
    latestPrice k val pair ((store, .submitFeed ctx staking msg) :: older) =
      if (submitFeed k ctx staking store msg).isOk ∧
          k.sdk.valAddressFromBech32 msg.validator = .ok val ∧
          msg.pair = pair then
        some msg.price
      else latestPrice k val pair older :=
  rfl

theorem latestPrice_endBlock (ctx : Ctx) (staking : StakingView k.sdk) :
    latestPrice k val pair ((store, .endBlock ctx staking) :: older) =
      if ctx.blockHeight % (getParams store).voteWindow = 0 then none
      else latestPrice k val pair older :=
  rfl

end LatestPrice

/-- The submission of a validator which is bonded with non-zero last power and
has submitted in the current window. -/
def windowSubmission (k : Keeper) (staking : StakingView k.sdk)
    (history : List (OracleStore × OracleStep k)) (pair : String)
    (v : Validator) : Option WeightedPrice := do
  guard (v.status = .bonded)
  let val ← (k.sdk.valAddressFromBech32 v.operatorAddress).toOption
  let text ← latestPrice k val pair history
  let price ← (k.sdk.legacyNewDecFromStr text).toOption
  let power ← (staking.lastValidatorPower val.bytes).toOption
  guard (power ≠ 0)
  return ⟨price, power, v.operatorAddress⟩

def windowSubmissions (k : Keeper) (staking : StakingView k.sdk)
    (history : List (OracleStore × OracleStep k)) (vals : List Validator)
    (pair : String) : List WeightedPrice :=
  vals.filterMap (windowSubmission k staking history pair)

/-! ## The stored feeds are the latest submissions -/

def storedFeedPrice (store : OracleStore) (val : Address) (pair : String) :
    Option String :=
  match store.get (.feed val pair) with
  | some (.feed feed) => some feed.price
  | _ => none

theorem storedFeedPrice_congr {store store' : OracleStore} {val : Address}
    {pair : String}
    (hget : store'.get (.feed val pair) = store.get (.feed val pair)) :
    storedFeedPrice store' val pair = storedFeedPrice store val pair := by
  unfold storedFeedPrice
  rw [hget]

theorem storedFeedPrice_eq_some_iff
    {store : OracleStore} {val : Address} {pair text : String} :
    storedFeedPrice store val pair = some text ↔
      ∃ feed, store.get (.feed val pair) = some (.feed feed) ∧
        feed.price = text := by
  unfold storedFeedPrice
  split
  next feed hget => simp [hget]
  next hother =>
    simp only [reduceCtorEq, false_iff]
    intro h
    obtain ⟨feed, hget, -⟩ := h
    exact hother feed hget

theorem storedFeedPrice_writeFeed (store : OracleStore) (author val : Address)
    (feed : OracleFeed) (pair : String) :
    storedFeedPrice (writeFeed store author feed) val pair =
      if author = val ∧ feed.pair = pair then some feed.price
      else storedFeedPrice store val pair := by
  unfold storedFeedPrice
  rw [get_writeFeed]
  by_cases hplace : author = val ∧ feed.pair = pair
  · rw [if_pos hplace, if_pos (by rw [hplace.1, hplace.2])]
  · rw [if_neg hplace, if_neg (by simpa using hplace)]

/-- The store agrees with the history on every validator and pair. -/
def FeedsMatch (k : Keeper) (history : List (OracleStore × OracleStep k))
    (store : OracleStore) : Prop :=
  ∀ val pair, storedFeedPrice store val pair = latestPrice k val pair history

theorem FeedsMatch.setFeeder
    {k : Keeper} {history : List (OracleStore × OracleStep k)}
    {store store' : OracleStore} {staking : StakingView k.sdk}
    {msg : MsgSetFeeder} (hmatch : FeedsMatch k history store)
    (hstep : oracleStep k store (.setFeeder staking msg) = some store') :
    FeedsMatch k ((store, .setFeeder staking msg) :: history) store' := by
  intro val pair
  rw [latestPrice_setFeeder, ← hmatch val pair]
  apply storedFeedPrice_congr
  cases effect_of_step hstep with
  | unchanged => rfl
  | delegated hfree =>
      rw [get_writeFeederDelegation]
      simp

theorem FeedsMatch.updateParams
    {k : Keeper} {history : List (OracleStore × OracleStep k)}
    {store store' : OracleStore} {msg : MsgUpdateParams}
    (hmatch : FeedsMatch k history store)
    (hstep : oracleStep k store (.updateParams msg) = some store') :
    FeedsMatch k ((store, .updateParams msg) :: history) store' := by
  intro val pair
  rw [latestPrice_updateParams, ← hmatch val pair]
  apply storedFeedPrice_congr
  cases effect_of_step hstep with
  | unchanged => rfl
  | reparametrized changed hresult hvalid =>
      exact get_updatedParams_of_ne store changed msg.params (by simp)
        (by simp [OracleKey.IsCounter])

theorem FeedsMatch.submitFeed
    {k : Keeper} {history : List (OracleStore × OracleStep k)}
    {store store' : OracleStore} {ctx : Ctx} {staking : StakingView k.sdk}
    {msg : MsgSubmitFeed} (hmatch : FeedsMatch k history store)
    (hstep : oracleStep k store (.submitFeed ctx staking msg) = some store') :
    FeedsMatch k ((store, .submitFeed ctx staking msg) :: history)
      store' := by
  intro val pair
  rw [latestPrice_submitFeed, ← hmatch val pair]
  rcases commit_cases hstep with ⟨error, hresult, hsame⟩ | hresult
  · simp [hresult, hsame, Except.isOk, Except.toBool]
  · obtain ⟨author, hauthor, -, -, -, -, -, -, hstore⟩ :=
      submitFeed_eq_ok_iff.mp hresult
    rw [← hstore] at hresult ⊢
    simp only [hresult, Except.isOk, Except.toBool, hauthor, Except.ok.injEq,
      true_and]
    exact storedFeedPrice_writeFeed store author val _ pair

theorem FeedsMatch.endBlock
    {k : Keeper} {history : List (OracleStore × OracleStep k)}
    {store store' : OracleStore} {ctx : Ctx} {staking : StakingView k.sdk}
    (hmatch : FeedsMatch k history store)
    (hstep : oracleStep k store (.endBlock ctx staking) = some store') :
    FeedsMatch k ((store, .endBlock ctx staking) :: history) store' := by
  intro val pair
  rw [latestPrice_endBlock, ← hmatch val pair]
  rcases endBlock_step_cases hstep with ⟨hinside, hsame⟩ |
    ⟨hboundary, w, slashes, -, hclose⟩
  · rw [if_neg hinside, hsame]
  · rw [if_pos hboundary]
    unfold storedFeedPrice
    rw [(Window.closed_of_close hclose).cleared]

theorem feedsMatch_of_reached
    {k : Keeper} {history : List (OracleStore × OracleStep k)}
    {store : OracleStore} (hreached : Reached k history store) :
    FeedsMatch k history store := by
  obtain ⟨ctx, staking, gs, start, hinit, hrun⟩ := hreached
  induction hrun with
  | start =>
      intro val pair
      unfold storedFeedPrice
      rw [(imported_of_initGenesis hinit).no_feeds]
      rfl
  | @next history before after step _ hstep ih =>
      cases step with
      | setFeeder staking msg => exact ih.setFeeder hstep
      | submitFeed ctx staking msg => exact ih.submitFeed hstep
      | updateParams msg => exact ih.updateParams hstep
      | endBlock ctx staking => exact ih.endBlock hstep

/-! ## The scan counts the window's submissions -/

theorem windowSubmission_eq_some_iff
    {k : Keeper} {staking : StakingView k.sdk}
    {history : List (OracleStore × OracleStep k)} {pair : String}
    {v : Validator} {e : WeightedPrice} :
    windowSubmission k staking history pair v = some e ↔
      v.status = .bonded ∧ e.valoper = v.operatorAddress ∧
        ∃ val text, k.sdk.valAddressFromBech32 v.operatorAddress = .ok val ∧
          latestPrice k val pair history = some text ∧
          k.sdk.legacyNewDecFromStr text = .ok e.price ∧
          staking.lastValidatorPower val.bytes = .ok e.weight ∧
          e.weight ≠ 0 := by
  simp only [windowSubmission, Option.bind_eq_bind, Option.bind_eq_some_iff,
    Option.guard_eq_some', toOption_eq_some_iff, Option.pure_def,
    Option.some.injEq, exists_const]
  constructor
  · intro h
    obtain ⟨hbonded, val, hval, text, htext, price, hprice, power, hpower,
      hnonzero, he⟩ := h
    subst he
    exact ⟨hbonded, rfl, val, text, hval, htext, hprice, hpower, hnonzero⟩
  · intro h
    obtain ⟨hbonded, hoper, val, text, hval, htext, hprice, hpower,
      hnonzero⟩ := h
    refine ⟨hbonded, val, hval, text, htext, e.price, hprice, e.weight,
      hpower, hnonzero, ?_⟩
    rw [← hoper]

theorem windowSubmissions_valoper_nodup
    {k : Keeper} {staking : StakingView k.sdk} {vals : List Validator}
    (hvals : staking.bondedValidatorsByPower = .ok vals)
    (history : List (OracleStore × OracleStep k)) (pair : String) :
    ((windowSubmissions k staking history vals pair).map
      WeightedPrice.valoper).Nodup := by
  have hdistinct := staking.operators_distinct vals hvals
  unfold windowSubmissions
  rw [List.Nodup, List.pairwise_map, List.pairwise_filterMap]
  rw [List.Nodup, List.pairwise_map] at hdistinct
  apply hdistinct.imp
  intro left right hne e he e' he' hsame
  rw [(windowSubmission_eq_some_iff.mp he).2.1,
    (windowSubmission_eq_some_iff.mp he').2.1] at hsame
  exact hne hsame

theorem countedFeeds_perm_windowSubmissions
    {k : Keeper} {history : List (OracleStore × OracleStep k)}
    {store : OracleStore} (hreached : Reached k history store)
    {ctx : Ctx} {staking : StakingView k.sdk} {w : Window k.sdk}
    (hopen : openWindow k.sdk ctx staking (getParams store) = .ok w)
    (pair : String) :
    (w.countedFeeds store pair).Perm
      (windowSubmissions k staking history w.vals pair) := by
  obtain ⟨-, hstaking, -, hvals, -⟩ := openWindow_eq_ok_iff.mp hopen
  have hsound := sound_of_reached hreached
  have hmatch := feedsMatch_of_reached hreached
  apply (List.perm_ext_iff_of_nodup
    ((w.countedFeeds_valoper_nodup store pair).of_map _)
    ((windowSubmissions_valoper_nodup hvals history pair).of_map _)).mpr
  intro e
  unfold windowSubmissions
  rw [Window.mem_countedFeeds_iff, List.mem_filterMap, hstaking]
  simp only [windowSubmission_eq_some_iff]
  constructor
  · intro h
    obtain ⟨val, feed, hget, hprice, -, hoper, hpower, hnonzero, v, hv,
      hbonded⟩ := h
    obtain ⟨hmem, haddress⟩ := Window.mem_of_valByOper hv
    refine ⟨v, hmem, hbonded, haddress.symm, val, feed.price, ?_, ?_, hprice,
      hpower, hnonzero⟩
    · rw [haddress, hoper]
      exact k.sdk.valAddress_roundTrip val
    · rw [← hmatch val pair]
      exact storedFeedPrice_eq_some_iff.mpr ⟨feed, hget, rfl⟩
  · intro h
    obtain ⟨v, hmem, hbonded, hoper, val, text, hval, htext, hprice, hpower,
      hnonzero⟩ := h
    rw [← hmatch val pair] at htext
    obtain ⟨feed, hget, hfeed⟩ := storedFeedPrice_eq_some_iff.mp htext
    obtain ⟨address, haddress⟩ :=
      staking.operator_canonical w.vals hvals v hmem
    have hsame : address = val := by
      rw [haddress, k.sdk.valAddress_roundTrip, Except.ok.injEq] at hval
      exact hval
    subst hsame
    obtain ⟨value, hvalue, hpositive⟩ :=
      hsound.feeds_positive address pair feed hget
    rw [hfeed, hprice, Except.ok.injEq] at hvalue
    subst hvalue
    rw [← hfeed] at hprice
    refine ⟨address, feed, hget, hprice, hpositive, hoper.trans haddress,
      hpower, hnonzero, v, ?_, hbonded⟩
    rw [Window.valByOper_eq_some_iff
      (staking.operators_distinct w.vals hvals)]
    exact ⟨hmem, hoper.symm⟩

/-! ## What a boundary publishes -/

/-- The window's submissions for a pair are non-empty and reach the quorum. -/
def WindowQuorum {k : Keeper} (w : Window k.sdk)
    (history : List (OracleStore × OracleStep k)) (pair : String) : Prop :=
  windowSubmissions k w.staking history w.vals pair ≠ [] ∧
    quorumMet
      (Window.submittedPower
        (windowSubmissions k w.staking history w.vals pair))
      w.totalPower.raw w.quorumFraction = .ok true

theorem windowQuorum_iff_qualifies
    {k : Keeper} {history : List (OracleStore × OracleStep k)}
    {store : OracleStore} (hreached : Reached k history store)
    {ctx : Ctx} {staking : StakingView k.sdk} {w : Window k.sdk}
    (hopen : openWindow k.sdk ctx staking (getParams store) = .ok w)
    (pair : String) :
    WindowQuorum w history pair ↔ w.Qualifies store pair := by
  obtain ⟨-, hstaking, -⟩ := openWindow_eq_ok_iff.mp hopen
  have hperm := countedFeeds_perm_windowSubmissions hreached hopen pair
  rw [← hstaking] at hperm
  have hpower : Window.submittedPower (w.countedFeeds store pair) =
      Window.submittedPower
        (windowSubmissions k w.staking history w.vals pair) :=
    totalWeight_perm WeightedPrice.weightInt hperm
  have hempty : w.countedFeeds store pair = [] ↔
      windowSubmissions k w.staking history w.vals pair = [] := by
    constructor
    · intro hnil
      rw [hnil] at hperm
      exact hperm.symm.eq_nil
    · intro hnil
      rw [hnil] at hperm
      exact hperm.eq_nil
  unfold WindowQuorum Window.Qualifies
  rw [hpower, ne_eq, ne_eq, hempty]

end Oracle
end Vertix

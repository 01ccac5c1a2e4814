import Vertix.FeederStart
import Mathlib.Tactic

/-!
# Delivery of the batches

The submit loop, the broadcaster and the node together.  The submit loop was
modelled with arbitrary outcomes of its broadcasts; here the outcomes come
from the broadcaster and the node, so every run of the three is a run of that
loop.  The loop stops at the first call which reports a transaction, so a
window receives a second batch only if the answer to an earlier one got lost.
At a node which answers, the second attempt of a poll finds the number right.
-/

namespace Vertix.Feeder

open Sequenced (Server Exchange Event Link)

/-- What surrounds one run of `maybeSubmit`. -/
structure Visit where
  height : Int64
  now : Time
  /-- The cache at the read for each position of the list of pairs. -/
  reads : ℕ → Cache
  /-- What has happened at the node since the last poll. -/
  before : List (Event SignedTx)
  turns : ℕ → Turn

def Visit.poll (visit : Visit) (outcomes : ℕ → Except String String) : Poll :=
  ⟨visit.height, visit.now, visit.reads, outcomes⟩

/-- The poll before its first broadcast. -/
def Visit.opening (visit : Visit) : Poll := visit.poll fun _ => .error ""

/-- An attempt with the height and the batch of its poll. -/
structure Sent where
  height : Int64
  feeds : List FeedSubmission
  attempt : Station.Attempt

def Sent.toCall (sent : Sent) : Call :=
  ⟨sent.height, sent.feeds, sent.attempt.result.outcome⟩

/-- The submit loop with its broadcaster and the node. -/
structure Deployment where
  loop : SubmitLoop
  station : Station

/-- The retry loop against the node. -/
def Station.submit (sdk : Sdk) (parseCoinsNormalized : CoinParser)
    (turns : ℕ → Turn) (feeds : List FeedSubmission) :
    ℕ → ℕ → Station → Exec (Station × List Station.Attempt)
  | 0, _, s => .ok (s, [])
  | remaining + 1, i, s => do
      let (s, attempt) ← s.call sdk parseCoinsNormalized (turns i) feeds
      if attempt.result.err = none then
        return (s, [attempt])
      else
        let (s, later) ←
          submit sdk parseCoinsNormalized turns feeds remaining (i + 1) s
        return (s, attempt :: later)

namespace Deployment

def maybeSubmit (sdk : Sdk) (parseCoinsNormalized : CoinParser)
    (d : Deployment) (visit : Visit) : Exec (Deployment × List Sent) :=
  let station := d.station.happenAll visit.before
  if d.loop.voteWindow ≤ 0 then .ok (⟨d.loop, station⟩, [])
  else
    let window := visit.height / d.loop.voteWindow
    if window = d.loop.lastWindow then .ok (⟨d.loop, station⟩, [])
    else
      let feeds := d.loop.freshFeeds visit.opening
      if feeds = [] then .ok (⟨d.loop, station⟩, [])
      else do
        let (station, attempts) ← Station.submit sdk parseCoinsNormalized
          visit.turns feeds d.loop.attempts 0 station
        let loop :=
          if attempts.any fun attempt => attempt.result.err.isNone then
            { d.loop with lastWindow := window }
          else d.loop
        return (⟨loop, station⟩, attempts.map (Sent.mk visit.height feeds))

def run (sdk : Sdk) (parseCoinsNormalized : CoinParser) (d : Deployment) :
    List Visit → Exec (Deployment × List Sent)
  | [] => .ok (d, [])
  | visit :: visits => do
      let (d, sent) ← d.maybeSubmit sdk parseCoinsNormalized visit
      let (d, later) ← d.run sdk parseCoinsNormalized visits
      return (d, sent ++ later)

/-- The transactions which the node took from the polls of a chain window. -/
def takenIn (V k : ℤ) (sent : List Sent) : List Sent :=
  sent.filter fun entry =>
    entry.attempt.taken &&
      decide (InChainWindow V k (includingBlock entry.height))

/-- Those of them whose answer got lost. -/
def lostIn (V k : ℤ) (sent : List Sent) : List Sent :=
  (takenIn V k sent).filter fun entry => entry.attempt.answerLost

end Deployment

/-! ## The loop's own view -/

theorem SubmitResult.isOk_outcome (result : SubmitResult) :
    result.outcome.isOk = result.err.isNone := by
  unfold outcome
  cases result.err <;> rfl

namespace Station

variable {sdk : Sdk} {parseCoinsNormalized : CoinParser} {s s' : Station}
  {turns : ℕ → Turn} {feeds : List FeedSubmission} {remaining i : ℕ}
  {attempts : List Attempt}

theorem submit_succ_cases
    (hsubmit : submit sdk parseCoinsNormalized turns feeds (remaining + 1) i s =
      .ok (s', attempts)) :
    ∃ next attempt,
      s.call sdk parseCoinsNormalized (turns i) feeds = .ok (next, attempt) ∧
      ((attempt.result.err = none ∧ s' = next ∧ attempts = [attempt]) ∨
        attempt.result.err ≠ none ∧ ∃ later,
          submit sdk parseCoinsNormalized turns feeds remaining (i + 1) next =
            .ok (s', later) ∧ attempts = attempt :: later) := by
  rw [submit, bind_eq_ok_iff] at hsubmit
  obtain ⟨⟨next, attempt⟩, hcall, hrest⟩ := hsubmit
  refine ⟨next, attempt, hcall, ?_⟩
  dsimp only at hrest
  by_cases herr : attempt.result.err = none
  · rw [if_pos herr] at hrest
    cases hrest
    exact Or.inl ⟨herr, rfl, rfl⟩
  · rw [if_neg herr, bind_eq_ok_iff] at hrest
    obtain ⟨⟨last, later⟩, hlater, hpure⟩ := hrest
    cases hpure
    exact Or.inr ⟨herr, later, hlater, rfl⟩

/-- The results of the retry loop are those of the plain one. -/
theorem submitAttempts_of_submit {outcomes : ℕ → Except String String}
    (hsubmit : submit sdk parseCoinsNormalized turns feeds remaining i s =
      .ok (s', attempts))
    (houtcomes : ∀ j attempt, attempts[j]? = some attempt →
      outcomes (i + j) = attempt.result.outcome) :
    submitAttempts outcomes remaining i =
      attempts.map fun attempt => attempt.result.outcome := by
  induction remaining generalizing i s attempts with
  | zero =>
      cases hsubmit
      rfl
  | succ remaining ih =>
      obtain ⟨next, attempt, -, hcases⟩ := submit_succ_cases hsubmit
      rcases hcases with ⟨herr, -, rfl⟩ | ⟨herr, later, hlater, rfl⟩
      · have hfirst : outcomes i = attempt.result.outcome :=
          houtcomes 0 attempt rfl
        have hok : attempt.result.outcome.isOk = true := by
          rw [SubmitResult.isOk_outcome, herr]
          rfl
        simp [submitAttempts, hfirst, hok]
      · have hfirst : outcomes i = attempt.result.outcome :=
          houtcomes 0 attempt rfl
        have hfailed : attempt.result.outcome.isOk = false := by
          rw [SubmitResult.isOk_outcome, Option.isNone_eq_false_iff,
            Option.isSome_iff_ne_none]
          exact herr
        have hrest : submitAttempts outcomes remaining (i + 1) =
            later.map fun attempt => attempt.result.outcome := by
          apply ih hlater
          intro j other hother
          rw [add_assoc, add_comm 1 j]
          exact houtcomes (j + 1) other hother
        simp [submitAttempts, hfirst, hfailed, hrest]

/-- Every attempt of the retry loop is a call. -/
theorem exists_call_of_mem_submit {attempt : Attempt}
    (hsubmit : submit sdk parseCoinsNormalized turns feeds remaining i s =
      .ok (s', attempts))
    (hattempt : attempt ∈ attempts) :
    ∃ before after turn,
      call sdk parseCoinsNormalized before turn feeds =
        .ok (after, attempt) := by
  induction remaining generalizing i s attempts with
  | zero =>
      cases hsubmit
      exact absurd hattempt List.not_mem_nil
  | succ remaining ih =>
      obtain ⟨next, first, hcall, hcases⟩ := submit_succ_cases hsubmit
      rcases hcases with ⟨-, -, rfl⟩ | ⟨-, later, hlater, rfl⟩
      · rw [List.mem_singleton.mp hattempt]
        exact ⟨s, next, turns i, hcall⟩
      · rcases List.mem_cons.mp hattempt with rfl | hmem
        · exact ⟨s, next, turns i, hcall⟩
        · exact ih hlater hmem

end Station

namespace Deployment

variable {sdk : Sdk} {parseCoinsNormalized : CoinParser} {d d' : Deployment}
  {visit : Visit} {visits : List Visit} {sent : List Sent}

/-- A poll sends nothing, or it runs the retry loop for its batch. -/
theorem maybeSubmit_cases
    (hstep : d.maybeSubmit sdk parseCoinsNormalized visit = .ok (d', sent)) :
    (sent = [] ∧ d' = ⟨d.loop, d.station.happenAll visit.before⟩ ∧
        ∀ outcomes, d.loop.maybeSubmit (visit.poll outcomes) = (d.loop, [])) ∨
      ∃ attempts feeds station,
        feeds = d.loop.freshFeeds visit.opening ∧
        Station.submit sdk parseCoinsNormalized visit.turns feeds
          d.loop.attempts 0 (d.station.happenAll visit.before) =
            .ok (station, attempts) ∧
        sent = attempts.map (Sent.mk visit.height feeds) ∧
        d'.station = station ∧
        ∀ outcomes, submitAttempts outcomes d.loop.attempts 0 =
            (attempts.map fun attempt => attempt.result.outcome) →
          d.loop.maybeSubmit (visit.poll outcomes) =
            (d'.loop, sent.map Sent.toCall) := by
  simp only [maybeSubmit] at hstep
  by_cases hwindow : d.loop.voteWindow ≤ 0
  · rw [if_pos hwindow] at hstep
    cases hstep
    exact Or.inl ⟨rfl, rfl, fun _ => if_pos hwindow⟩
  rw [if_neg hwindow] at hstep
  by_cases hgate : visit.height / d.loop.voteWindow = d.loop.lastWindow
  · rw [if_pos hgate] at hstep
    cases hstep
    refine Or.inl ⟨rfl, rfl, fun outcomes => ?_⟩
    rw [SubmitLoop.maybeSubmit, if_neg hwindow]
    exact if_pos hgate
  rw [if_neg hgate] at hstep
  by_cases hfeeds : d.loop.freshFeeds visit.opening = []
  · rw [if_pos hfeeds] at hstep
    cases hstep
    refine Or.inl ⟨rfl, rfl, fun outcomes => ?_⟩
    rw [SubmitLoop.maybeSubmit, if_neg hwindow]
    exact (if_neg hgate).trans (if_pos hfeeds)
  · rw [if_neg hfeeds, bind_eq_ok_iff] at hstep
    obtain ⟨⟨station, attempts⟩, hsubmit, hpure⟩ := hstep
    cases hpure
    refine Or.inr ⟨attempts, _, station, rfl, hsubmit, rfl, rfl,
      fun outcomes hresults => ?_⟩
    have hany : (submitAttempts outcomes d.loop.attempts 0).any Except.isOk =
        attempts.any fun attempt => attempt.result.err.isNone := by
      rw [hresults, List.any_map]
      congr 1
      funext attempt
      exact attempt.result.isOk_outcome
    rw [SubmitLoop.maybeSubmit, if_neg hwindow]
    refine (if_neg hgate).trans ((if_neg hfeeds).trans ?_)
    have hcalls : (submitAttempts outcomes d.loop.attempts 0).map
          (Call.mk visit.height (d.loop.freshFeeds visit.opening)) =
        (attempts.map (Sent.mk visit.height
          (d.loop.freshFeeds visit.opening))).map Sent.toCall := by
      rw [hresults, List.map_map, List.map_map]
      rfl
    rw [← hcalls, ← hany]
    split_ifs with hok
    · exact if_pos hok
    · exact if_neg hok

/-- A poll against the node is a poll of the loop. -/
theorem exists_outcomes_of_maybeSubmit
    (hstep : d.maybeSubmit sdk parseCoinsNormalized visit = .ok (d', sent)) :
    ∃ outcomes, d.loop.maybeSubmit (visit.poll outcomes) =
      (d'.loop, sent.map Sent.toCall) := by
  rcases maybeSubmit_cases hstep with
    ⟨rfl, rfl, hidle⟩ | ⟨attempts, feeds, station, -, hsubmit, -, -, hloop⟩
  · exact ⟨fun _ => .ok "", hidle _⟩
  · refine ⟨fun j => ((attempts[j]?).map fun attempt =>
      attempt.result.outcome).getD (.ok ""), hloop _ ?_⟩
    apply Station.submitAttempts_of_submit hsubmit
    intro j attempt hattempt
    rw [zero_add, hattempt]
    rfl

theorem run_cons_cases
    (hrun : d.run sdk parseCoinsNormalized (visit :: visits) =
      .ok (d', sent)) :
    ∃ next first later,
      d.maybeSubmit sdk parseCoinsNormalized visit = .ok (next, first) ∧
      next.run sdk parseCoinsNormalized visits = .ok (d', later) ∧
      sent = first ++ later := by
  rw [run, bind_eq_ok_iff] at hrun
  obtain ⟨⟨next, first⟩, hstep, hrest⟩ := hrun
  rw [bind_eq_ok_iff] at hrest
  obtain ⟨⟨last, later⟩, hlater, hpure⟩ := hrest
  cases hpure
  exact ⟨next, first, later, hstep, hlater, rfl⟩

/-- A run against the node is a run of the loop at the same heights. -/
theorem exists_polls_of_run
    (hrun : d.run sdk parseCoinsNormalized visits = .ok (d', sent)) :
    ∃ polls : List Poll,
      polls.map Poll.height = visits.map Visit.height ∧
      d.loop.run polls = (d'.loop, sent.map Sent.toCall) := by
  induction visits generalizing d sent with
  | nil =>
      cases hrun
      exact ⟨[], rfl, rfl⟩
  | cons visit visits ih =>
      obtain ⟨next, first, later, hstep, hlater, rfl⟩ := run_cons_cases hrun
      obtain ⟨outcomes, hfirst⟩ := exists_outcomes_of_maybeSubmit hstep
      obtain ⟨polls, hheights, hrest⟩ := ih hlater
      refine ⟨visit.poll outcomes :: polls, ?_, ?_⟩
      · rw [List.map_cons, List.map_cons, hheights]
        rfl
      · rw [SubmitLoop.run_cons, hfirst, hrest, List.map_append]

/-- Every entry of the log is a call. -/
theorem taken_of_mem_run
    (hrun : d.run sdk parseCoinsNormalized visits = .ok (d', sent))
    {entry : Sent} (hentry : entry ∈ sent) (htaken : entry.attempt.taken = true) :
    entry.toCall.succeeded = true ∨ entry.attempt.answerLost = true := by
  induction visits generalizing d sent with
  | nil =>
      cases hrun
      exact absurd hentry List.not_mem_nil
  | cons visit visits ih =>
      obtain ⟨next, first, later, hstep, hlater, rfl⟩ := run_cons_cases hrun
      rcases List.mem_append.mp hentry with hfirst | hrest
      · rcases maybeSubmit_cases hstep with
          ⟨rfl, -, -⟩ | ⟨attempts, feeds, station, -, hsubmit, rfl, -, -⟩
        · exact absurd hfirst List.not_mem_nil
        · obtain ⟨attempt, hattempt, rfl⟩ := List.mem_map.mp hfirst
          obtain ⟨before, after, turn, hcall⟩ :=
            Station.exists_call_of_mem_submit hsubmit hattempt
          rcases (Station.taken_of_call hcall).2 htaken with herr | hlost
          · left
            rw [Call.succeeded, Sent.toCall, SubmitResult.isOk_outcome, herr]
            rfl
          · exact Or.inr hlost
      · exact ih hlater hrest

end Deployment

/-! ## A responsive node -/

structure Visit.Responsive (visit : Visit) : Prop where
  before : ∀ event ∈ visit.before, event.Steady
  turns : ∀ i, (visit.turns i).exchange.Responsive

namespace Station

/-- The broadcaster can learn the next number, and does not panic. -/
structure Synced (sdk : Sdk) (s : Station) : Prop where
  primed : s.Primed
  recoverable : s.link.Recoverable nextSeq
  gas : ∃ gas, gasLimit sdk s.broadcaster.cfg = .ok gas

/-- Broadcasts leave alone what messages are built from. -/
structure SameSigner (s s' : Station) : Prop where
  cfg : s'.broadcaster.cfg = s.broadcaster.cfg
  feederAddr : s'.broadcaster.feederAddr = s.broadcaster.feederAddr

variable {sdk : Sdk} {parseCoinsNormalized : CoinParser} {s s' : Station}
  {turn : Turn} {turns : ℕ → Turn} {feeds : List FeedSubmission}

theorem SameSigner.builds (hsame : s.SameSigner s') :
    s'.broadcaster.builds sdk feeds = s.broadcaster.builds sdk feeds := by
  unfold GRPCBroadcaster.builds
  rw [hsame.cfg, hsame.feederAddr]

theorem Synced.happenAll (hsynced : s.Synced sdk)
    {events : List (Event SignedTx)} (hsteady : ∀ event ∈ events, event.Steady) :
    (s.happenAll events).Synced sdk :=
  ⟨hsynced.primed, hsynced.recoverable.happenAll hsteady, hsynced.gas⟩

/-- A call with a batch which can be built: the node takes the transaction, or
the broadcaster learns the number. -/
theorem Synced.call (hsynced : s.Synced sdk)
    (parseCoinsNormalized : CoinParser) (hexchange : turn.exchange.Responsive)
    (hbuilds : s.broadcaster.builds sdk feeds = true) :
    ∃ s' attempt,
      s.call sdk parseCoinsNormalized turn feeds = .ok (s', attempt) ∧
      s'.Synced sdk ∧ s.SameSigner s' ∧ s'.link.InStep nextSeq ∧
      (s.link.InStep nextSeq → attempt.taken = true) ∧
      (attempt.result.err = none ↔ attempt.taken = true) := by
  obtain ⟨gas, hgas⟩ := hsynced.gas
  rcases s.broadcaster.prepare_cases hgas parseCoinsNormalized feeds with
    ⟨-, tx, hprepare⟩ | ⟨hbad, -⟩
  · have hattempt := hsynced.recoverable.attempt hexchange tx
    have hstep : (s.link.attempt nextSeq tx turn.exchange).1.InStep nextSeq :=
      hattempt.elim (fun h => h.2.2.1) fun h => h.2.2.1
    refine ⟨_, _, hsynced.primed.call_of_prepare turn hprepare,
      ⟨hsynced.primed, Or.inl hstep, hsynced.gas⟩, ⟨rfl, rfl⟩, hstep,
      fun hlink => hlink.taken hexchange, ?_⟩
    rw [err_transmit_iff]
    exact and_iff_right hexchange.answered
  · rw [hbuilds] at hbad
    cases hbad

/-- The transactions which the node took from a poll. -/
def takenOf (attempts : List Attempt) : List Attempt :=
  attempts.filter Attempt.taken

theorem submit_succ_of_call {next : Station} {attempt : Attempt}
    {remaining i : ℕ}
    (hcall : s.call sdk parseCoinsNormalized (turns i) feeds =
      .ok (next, attempt)) :
    submit sdk parseCoinsNormalized turns feeds (remaining + 1) i s =
      if attempt.result.err = none then .ok (next, [attempt])
      else (submit sdk parseCoinsNormalized turns feeds remaining (i + 1)
        next).map fun result => (result.1, attempt :: result.2) := by
  rw [submit, hcall]
  rfl

/-- Once in step, the next call succeeds. -/
theorem Synced.submit_of_inStep (hsynced : s.Synced sdk)
    (parseCoinsNormalized : CoinParser)
    (hturns : ∀ i, (turns i).exchange.Responsive)
    (hbuilds : s.broadcaster.builds sdk feeds = true)
    (hstep : s.link.InStep nextSeq) (remaining i : ℕ) :
    ∃ s' attempt,
      submit sdk parseCoinsNormalized turns feeds (remaining + 1) i s =
        .ok (s', [attempt]) ∧
      s'.Synced sdk ∧ s.SameSigner s' ∧ attempt.taken = true ∧
      attempt.result.err = none := by
  obtain ⟨s', attempt, hcall, hnext, hsame, -, htaken, herr⟩ :=
    hsynced.call parseCoinsNormalized (hturns i) hbuilds
  refine ⟨s', attempt, ?_, hnext, hsame, htaken hstep, herr.mpr (htaken hstep)⟩
  rw [submit_succ_of_call hcall, if_pos (herr.mpr (htaken hstep))]

/-- Two attempts suffice: the second one has the right number. -/
theorem Synced.submit (hsynced : s.Synced sdk)
    (parseCoinsNormalized : CoinParser)
    (hturns : ∀ i, (turns i).exchange.Responsive)
    (hbuilds : s.broadcaster.builds sdk feeds = true) (remaining : ℕ) :
    ∃ s' attempts attempt,
      submit sdk parseCoinsNormalized turns feeds (remaining + 2) 0 s =
        .ok (s', attempts) ∧
      s'.Synced sdk ∧ s.SameSigner s' ∧ takenOf attempts = [attempt] ∧
      attempts.any (fun attempt => attempt.result.err.isNone) = true := by
  obtain ⟨next, attempt, hcall, hnext, hsame, hstep, -, herr⟩ :=
    hsynced.call parseCoinsNormalized (hturns 0) hbuilds
  have hsubmit : Station.submit sdk parseCoinsNormalized turns feeds
      (remaining + 2) 0 s = _ := submit_succ_of_call hcall
  by_cases htaken : attempt.taken = true
  · rw [if_pos (herr.mpr htaken)] at hsubmit
    refine ⟨next, [attempt], attempt, hsubmit, hnext, hsame, ?_, ?_⟩
    · simp [takenOf, htaken]
    · simp [herr.mpr htaken]
  · rw [if_neg (mt herr.mp htaken)] at hsubmit
    obtain ⟨s', second, hsecond, hlast, hsame', htaken', herr'⟩ :=
      hnext.submit_of_inStep parseCoinsNormalized hturns
        (hsame.builds.trans hbuilds) hstep remaining 1
    rw [hsecond] at hsubmit
    refine ⟨s', [attempt, second], second, hsubmit, hlast,
      ⟨hsame'.cfg.trans hsame.cfg, hsame'.feederAddr.trans hsame.feederAddr⟩,
      ?_, ?_⟩
    · simp [takenOf, htaken, htaken']
    · simp [herr']

end Station

namespace Deployment

def windowOf (d : Deployment) (visit : Visit) : ℤ :=
  d.loop.windowOf visit.opening

variable {sdk : Sdk} {parseCoinsNormalized : CoinParser} {d d' : Deployment}
  {visit : Visit} {visits : List Visit}

/-- The two differ only in the window remembered and in what the broadcaster
and the node count. -/
structure SameSetup (d d' : Deployment) : Prop where
  loop : ∃ window, d'.loop = { d.loop with lastWindow := window }
  signer : d.station.SameSigner d'.station

theorem SameSetup.windowOf (hsame : d.SameSetup d') :
    d'.windowOf = d.windowOf := by
  obtain ⟨window, hloop⟩ := hsame.loop
  funext visit
  unfold Deployment.windowOf
  rw [hloop]
  rfl

end Deployment

/-! ## From the start on -/

section Start

variable {sdk : Sdk} {cfg : Config} {start : Startup} {feeder : Feeder}
  {node : Node} {visits : List Visit}

/-- A feeder and the node at which it was started. -/
def deployedAt (feeder : Feeder) (node : Node) : Deployment :=
  ⟨feeder.submit, ⟨feeder.broadcaster, node⟩⟩

def sampleNode : Node := ⟨7, ⟨4, []⟩⟩

theorem wrongSequence_ne_zero : (32 : UInt32) ≠ 0 := by
  decide

def sampleTurn (delivery : Sequenced.Delivery) : Turn :=
  ⟨⟨true, delivery, [], true⟩, "timeout", "A1", 32, wrongSequence_ne_zero,
    "account sequence mismatch"⟩

def sampleVisit (height : Int64) (before : List (Event SignedTx))
    (turns : ℕ → Turn) : Visit :=
  ⟨height, 60, fun _ => Cache.empty.set "VTX:USD" legacyOneDec 0, before,
    turns⟩

/-- The answer to the first transaction gets lost, and a block executes it. -/
def lossyVisits : List Visit :=
  [sampleVisit 11 []
    fun i => sampleTurn (if i = 0 then .answerLost else .answered),
    sampleVisit 13 [.execute 1] fun _ => sampleTurn .answered]

/-- A chain window receives at most one transaction more than answers about
its transactions got lost. -/
theorem Deployment.transactions_in_window_le
    {sdk : Sdk} {parseCoinsNormalized : CoinParser} {d d' : Deployment}
    {visits : List Visit} {sent : List Sent}
    (hwindow : 0 < d.loop.voteWindow)
    (hmono : visits.Pairwise fun p q => p.height ≤ q.height)
    (hrun : d.run sdk parseCoinsNormalized visits = .ok (d', sent)) (k : ℕ) :
    (takenIn d.loop.voteWindow.toInt k sent).length ≤
      (lostIn d.loop.voteWindow.toInt k sent).length + 1 := by
  obtain ⟨polls, hheights, hloop⟩ := exists_polls_of_run hrun
  have hpolls : polls.Pairwise fun p q => p.height ≤ q.height := by
    have hmapped := List.pairwise_map.mpr hmono
    rw [← hheights] at hmapped
    exact List.pairwise_map.mp hmapped
  have hone : (batchesIn d.loop.voteWindow.toInt k
      (sent.map Sent.toCall)).length ≤ 1 := by
    have hbatches := SubmitLoop.batchesIn_length_le_one hwindow hpolls k
    rwa [hloop] at hbatches
  have hknown : ((takenIn d.loop.voteWindow.toInt k sent).filter
        fun entry => !entry.attempt.answerLost).length ≤
      (batchesIn d.loop.voteWindow.toInt k (sent.map Sent.toCall)).length := by
    rw [takenIn, batchesIn, List.filter_filter, List.filter_map,
      List.length_map, ← List.countP_eq_length_filter,
      ← List.countP_eq_length_filter]
    apply List.countP_mono_left
    intro entry hentry hcounted
    simp only [Bool.and_eq_true, Bool.not_eq_true'] at hcounted
    obtain ⟨hanswered, htaken, hin⟩ := hcounted
    have hsucceeded :=
      (taken_of_mem_run hrun hentry htaken).resolve_right (by simp [hanswered])
    simp only [Function.comp_apply, hsucceeded, Bool.true_and]
    exact hin
  have hsplit := List.length_eq_length_filter_add
    (l := takenIn d.loop.voteWindow.toInt k sent)
    fun entry => entry.attempt.answerLost
  unfold lostIn
  omega

theorem lost_answer_sends_twice :
    ∃ feeder d' sent,
      newFeeder referenceSdk (fixedGasConfig "200000") sampleStart = .ok feeder ∧
      (deployedAt feeder sampleNode).run referenceSdk (fun _ => .ok [])
        lossyVisits = .ok (d', sent) ∧
      (Deployment.takenIn feeder.submit.voteWindow.toInt 1 sent).length = 2 ∧
      2 ≤ (Deployment.lostIn feeder.submit.voteWindow.toInt 1
        sent).length + 1 := by
  have hcheck : (newFeeder referenceSdk (fixedGasConfig "200000")
      sampleStart).toOption.any (fun feeder =>
        decide (0 < feeder.submit.voteWindow) &&
        ((deployedAt feeder sampleNode).run referenceSdk (fun _ => .ok [])
          lossyVisits).toOption.any fun result =>
            decide ((Deployment.takenIn feeder.submit.voteWindow.toInt 1
              result.2).length = 2)) = true := by
    decide +kernel
  obtain ⟨feeder, hnew, hfacts⟩ := exists_ok_of_any hcheck
  rw [Bool.and_eq_true, decide_eq_true_eq] at hfacts
  obtain ⟨hwindow, hran⟩ := hfacts
  obtain ⟨⟨d', sent⟩, hrun, htwo⟩ := exists_ok_of_any hran
  have htwo := of_decide_eq_true htwo
  have hbound := Deployment.transactions_in_window_le hwindow (by decide)
    hrun 1
  refine ⟨feeder, d', sent, hnew, hrun, htwo, ?_⟩
  rw [← htwo]
  exact hbound

end Start

end Vertix.Feeder

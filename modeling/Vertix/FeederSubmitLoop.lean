import Vertix.FeederTypes
import Vertix.LastKeyGate
import Vertix.OracleEndBlock
import Mathlib.Tactic

/-!
# The submit loop

The submit loop polls the height of the latest block and submits one batch of
fresh prices for every value of `height / voteWindow`.  A poll is everything
that `maybeSubmit` reads while it runs: the height, the clock, the cache at
each of its reads (the price loop may write between two of them), and the
outcome of each broadcast.  The loop's gate is an instance of
`LastKeyGate`, and integer division of the observed height lines up with the
chain's window boundaries because a batch lands in the block after it.
-/

namespace Vertix.Feeder

structure SubmitLoop where
  pairs : List PairConfig
  voteWindow : Int64
  maxQuoteAge : Int64
  retries : Int64
  lastWindow : Int64

/-- One run of `maybeSubmit` as its surroundings present it. -/
structure Poll where
  height : Int64
  now : Time
  /-- The cache at the read for each position of the list of pairs. -/
  reads : ℕ → Cache
  /-- The transaction hash or the error of each broadcast. -/
  outcomes : ℕ → Except String String

/-- One call of `SubmitFeeds`. -/
structure Call where
  height : Int64
  feeds : List FeedSubmission
  result : Except String String

def Call.succeeded (call : Call) : Bool := call.result.isOk

/-- The block that holds the batch of a successful call made at `height`. -/
def includingBlock (height : Int64) : ℤ := height.toInt + 1

/-- The blocks `k * V + 1, …, (k + 1) * V` of a chain window. -/
def InChainWindow (V k block : ℤ) : Prop :=
  k * V + 1 ≤ block ∧ block ≤ (k + 1) * V

instance instDecidableInChainWindow (V k block : ℤ) :
    Decidable (InChainWindow V k block) :=
  inferInstanceAs (Decidable (_ ∧ _))

/-- The batches that a chain window receives. -/
def batchesIn (V k : ℤ) (calls : List Call) : List Call :=
  calls.filter fun call =>
    call.succeeded && decide (InChainWindow V k (includingBlock call.height))

def newSubmitLoop (pairs : List PairConfig) (voteWindow maxQuoteAge : Int64) :
    SubmitLoop :=
  ⟨pairs, voteWindow, maxQuoteAge, 3, -1⟩

/-- The submit loop of a feeder which found `chainWindow` in the parameters of
the chain when it started. -/
def newFeederLoop (cfg : Config) (chainWindow : Int64) : SubmitLoop :=
  let voteWindow := if cfg.voteWindow ≤ 0 then chainWindow else cfg.voteWindow
  { newSubmitLoop cfg.pairs voteWindow cfg.quality.maxQuoteAge with
    retries := cfg.broadcastRetry }

/-- The retry loop: it stops at the first success. -/
def submitAttempts (outcomes : ℕ → Except String String) :
    ℕ → ℕ → List (Except String String)
  | 0, _ => []
  | remaining + 1, i =>
      if (outcomes i).isOk then [outcomes i]
      else outcomes i :: submitAttempts outcomes remaining (i + 1)

namespace SubmitLoop

def freshFeeds (sl : SubmitLoop) (poll : Poll) : List FeedSubmission :=
  sl.pairs.zipIdx.filterMap fun entry =>
    ((poll.reads entry.2).fresh entry.1.pair sl.maxQuoteAge poll.now).map
      (FeedSubmission.mk entry.1.pair)

def attempts (sl : SubmitLoop) : ℕ :=
  if sl.retries < 1 then 1 else sl.retries.toInt.toNat

/-- The state after the poll and the calls it made. -/
def maybeSubmit (sl : SubmitLoop) (poll : Poll) : SubmitLoop × List Call :=
  if sl.voteWindow ≤ 0 then (sl, [])
  else
    let window := poll.height / sl.voteWindow
    if window = sl.lastWindow then (sl, [])
    else
      let feeds := sl.freshFeeds poll
      if feeds = [] then (sl, [])
      else
        let results := submitAttempts poll.outcomes sl.attempts 0
        let calls := results.map (Call.mk poll.height feeds)
        if results.any Except.isOk then
          ({ sl with lastWindow := window }, calls)
        else (sl, calls)

def run (sl : SubmitLoop) : List Poll → SubmitLoop × List Call
  | [] => (sl, [])
  | poll :: polls =>
      let next := sl.maybeSubmit poll
      let rest := next.1.run polls
      (rest.1, next.2 ++ rest.2)

/-! ## One poll -/

def PairFresh (sl : SubmitLoop) (poll : Poll) : Prop :=
  ∃ i pc price, sl.pairs[i]? = some pc ∧
    (poll.reads i).fresh pc.pair sl.maxQuoteAge poll.now = some price

def AttemptSucceeds (sl : SubmitLoop) (poll : Poll) : Prop :=
  ∃ i < sl.attempts, (poll.outcomes i).isOk = true

/-- The poll would submit if its window were open. -/
def ready (sl : SubmitLoop) (poll : Poll) : Bool :=
  !(sl.freshFeeds poll).isEmpty &&
    (submitAttempts poll.outcomes sl.attempts 0).any Except.isOk

def windowOf (sl : SubmitLoop) (poll : Poll) : ℤ :=
  (poll.height / sl.voteWindow).toInt

theorem any_submitAttempts_iff
    {outcomes : ℕ → Except String String} {remaining i : ℕ} :
    (submitAttempts outcomes remaining i).any Except.isOk = true ↔
      ∃ j, i ≤ j ∧ j < i + remaining ∧ (outcomes j).isOk = true := by
  induction remaining generalizing i with
  | zero =>
      simp only [submitAttempts, List.any_nil, Bool.false_eq_true, false_iff]
      rintro ⟨j, hle, hlt, -⟩
      omega
  | succ remaining ih =>
      unfold submitAttempts
      by_cases hok : (outcomes i).isOk = true
      · simp only [hok, if_true, List.any_cons, Bool.true_or, true_iff]
        exact ⟨i, le_refl i, by omega, hok⟩
      · rw [if_neg hok, List.any_cons, Bool.or_eq_true, ih]
        constructor
        · rintro (h | ⟨j, hle, hlt, hj⟩)
          · exact absurd h hok
          · exact ⟨j, by omega, by omega, hj⟩
        · rintro ⟨j, hle, hlt, hj⟩
          have hne : j ≠ i := by
            rintro rfl
            exact hok hj
          exact Or.inr ⟨j, by omega, by omega, hj⟩

/-- At most one attempt of a poll succeeds. -/
theorem length_filter_submitAttempts
    (outcomes : ℕ → Except String String) (remaining i : ℕ) :
    ((submitAttempts outcomes remaining i).filter Except.isOk).length =
      if (submitAttempts outcomes remaining i).any Except.isOk then 1
      else 0 := by
  induction remaining generalizing i with
  | zero => rfl
  | succ remaining ih =>
      unfold submitAttempts
      by_cases hok : (outcomes i).isOk = true
      · simp [hok]
      · simp [hok, ih]

/-- A batch holds exactly the pairs that were fresh when they were read. -/
theorem mem_freshFeeds_iff
    {sl : SubmitLoop} {poll : Poll} {feed : FeedSubmission} :
    feed ∈ sl.freshFeeds poll ↔
      ∃ i pc, sl.pairs[i]? = some pc ∧ feed.pair = pc.pair ∧
        (poll.reads i).fresh pc.pair sl.maxQuoteAge poll.now =
          some feed.price := by
  unfold freshFeeds
  rw [List.mem_filterMap]
  constructor
  · rintro ⟨entry, hentry, hfeed⟩
    rw [Option.map_eq_some_iff] at hfeed
    obtain ⟨price, hprice, rfl⟩ := hfeed
    exact ⟨entry.2, entry.1, List.mem_zipIdx_iff_getElem?.mp hentry, rfl,
      hprice⟩
  · rintro ⟨i, pc, hpc, hpair, hprice⟩
    refine ⟨(pc, i), List.mem_zipIdx_iff_getElem?.mpr hpc, ?_⟩
    rw [hprice, ← hpair]
    rfl

theorem freshFeeds_ne_nil_iff {sl : SubmitLoop} {poll : Poll} :
    sl.freshFeeds poll ≠ [] ↔ sl.PairFresh poll := by
  constructor
  · intro hne
    obtain ⟨feed, hfeed⟩ := List.exists_mem_of_ne_nil _ hne
    obtain ⟨i, pc, hpc, -, hprice⟩ := mem_freshFeeds_iff.mp hfeed
    exact ⟨i, pc, feed.price, hpc, hprice⟩
  · rintro ⟨i, pc, price, hpc, hprice⟩
    have hmem : (⟨pc.pair, price⟩ : FeedSubmission) ∈ sl.freshFeeds poll :=
      mem_freshFeeds_iff.mpr ⟨i, pc, hpc, rfl, hprice⟩
    exact List.ne_nil_of_mem hmem

theorem ready_iff {sl : SubmitLoop} {poll : Poll} :
    sl.ready poll = true ↔ sl.PairFresh poll ∧ sl.AttemptSucceeds poll := by
  unfold ready AttemptSucceeds
  rw [Bool.and_eq_true, any_submitAttempts_iff, ← freshFeeds_ne_nil_iff]
  simp

theorem windowOf_eq_lastWindow_iff {sl : SubmitLoop} {poll : Poll} :
    sl.windowOf poll = sl.lastWindow.toInt ↔
      poll.height / sl.voteWindow = sl.lastWindow := by
  rw [windowOf, Int64.toInt_inj]

/-- A poll makes no call, or it makes the calls of the retry loop and moves
the gate exactly when one of them succeeded. -/
theorem maybeSubmit_cases (sl : SubmitLoop) (poll : Poll) :
    (sl.maybeSubmit poll = (sl, []) ∧
        (0 < sl.voteWindow → sl.windowOf poll ≠ sl.lastWindow.toInt →
          sl.freshFeeds poll = [])) ∨
      (sl.windowOf poll ≠ sl.lastWindow.toInt ∧ sl.freshFeeds poll ≠ [] ∧
        sl.maybeSubmit poll =
          (if (submitAttempts poll.outcomes sl.attempts 0).any Except.isOk then
            { sl with lastWindow := poll.height / sl.voteWindow } else sl,
          (submitAttempts poll.outcomes sl.attempts 0).map
            (Call.mk poll.height (sl.freshFeeds poll)))) := by
  rw [ne_eq, windowOf_eq_lastWindow_iff]
  simp only [maybeSubmit]
  by_cases hwindow : sl.voteWindow ≤ 0
  · left
    refine ⟨if_pos hwindow, fun hpos => ?_⟩
    exact absurd hpos (Int64.not_lt.mpr hwindow)
  · by_cases hgate : poll.height / sl.voteWindow = sl.lastWindow
    · left
      refine ⟨by rw [if_neg hwindow, if_pos hgate], fun _ hopen => ?_⟩
      exact absurd hgate hopen
    · by_cases hfeeds : sl.freshFeeds poll = []
      · left
        refine ⟨?_, fun _ _ => hfeeds⟩
        rw [if_neg hwindow, if_neg hgate, if_pos hfeeds]
      · right
        refine ⟨hgate, hfeeds, ?_⟩
        rw [if_neg hwindow, if_neg hgate, if_neg hfeeds]
        split_ifs <;> rfl

/-- Every call of a poll carries its height and the batch of fresh pairs. -/
theorem of_mem_maybeSubmit
    {sl : SubmitLoop} {poll : Poll} {call : Call}
    (hcall : call ∈ (sl.maybeSubmit poll).2) :
    call.height = poll.height ∧ call.feeds = sl.freshFeeds poll := by
  rcases sl.maybeSubmit_cases poll with ⟨heq, -⟩ | ⟨-, -, heq⟩
  · rw [heq] at hcall
    exact absurd hcall List.not_mem_nil
  · rw [heq] at hcall
    obtain ⟨result, -, rfl⟩ := List.mem_map.mp hcall
    exact ⟨rfl, rfl⟩

/-- The heights of the successful calls among `calls`. -/
def successHeights (calls : List Call) : List Int64 :=
  (calls.filter Call.succeeded).map Call.height

theorem length_filter_succeeded (calls : List Call) (test : Int64 → Bool) :
    (calls.filter fun call => call.succeeded && test call.height).length =
      ((successHeights calls).filter test).length := by
  unfold successHeights
  induction calls with
  | nil => rfl
  | cons call calls ih =>
      cases hok : call.succeeded <;> cases htest : test call.height <;>
        simpa [hok, htest] using ih

theorem successHeights_append (left right : List Call) :
    successHeights (left ++ right) =
      successHeights left ++ successHeights right := by
  simp [successHeights]

theorem successHeights_map
    (height : Int64) (feeds : List FeedSubmission)
    (results : List (Except String String)) :
    successHeights (results.map (Call.mk height feeds)) =
      List.replicate (results.filter Except.isOk).length height := by
  unfold successHeights
  induction results with
  | nil => rfl
  | cons result results ih =>
      cases hok : result.isOk <;>
        simp [Call.succeeded, hok, List.replicate_succ] <;>
        simpa [Call.succeeded] using ih

/-- A poll passes the gate and makes one successful call, or it leaves the
state as it was and makes none. -/
theorem maybeSubmit_step
    {sl : SubmitLoop} (hwindow : 0 < sl.voteWindow) (poll : Poll) :
    ((sl.windowOf poll ≠ sl.lastWindow.toInt ∧ sl.ready poll = true) ∧
        (sl.maybeSubmit poll).1 =
          { sl with lastWindow := poll.height / sl.voteWindow } ∧
        successHeights (sl.maybeSubmit poll).2 = [poll.height]) ∨
      (¬ (sl.windowOf poll ≠ sl.lastWindow.toInt ∧ sl.ready poll = true) ∧
        (sl.maybeSubmit poll).1 = sl ∧
        successHeights (sl.maybeSubmit poll).2 = []) := by
  rcases sl.maybeSubmit_cases poll with ⟨heq, hclosed⟩ | ⟨hopen, hfeeds, heq⟩
  · right
    rw [heq]
    refine ⟨?_, rfl, rfl⟩
    rintro ⟨hopen, hready⟩
    rw [ready, hclosed hwindow hopen] at hready
    simp at hready
  · have hlength := length_filter_submitAttempts poll.outcomes sl.attempts 0
    rw [heq]
    simp only [successHeights_map, hlength]
    by_cases hany :
        (submitAttempts poll.outcomes sl.attempts 0).any Except.isOk = true
    · left
      simp [ready, hopen, hfeeds, hany]
    · right
      simp [ready, hany]

/-- A poll changes nothing but the window remembered. -/
theorem exists_lastWindow_of_maybeSubmit (sl : SubmitLoop) (poll : Poll) :
    ∃ window, (sl.maybeSubmit poll).1 = { sl with lastWindow := window } := by
  rcases sl.maybeSubmit_cases poll with ⟨heq, -⟩ | ⟨-, -, heq⟩
  · exact ⟨sl.lastWindow, by rw [heq]⟩
  · rw [heq]
    split_ifs
    · exact ⟨poll.height / sl.voteWindow, rfl⟩
    · exact ⟨sl.lastWindow, rfl⟩

/-! ## Every run -/

theorem run_cons (sl : SubmitLoop) (poll : Poll) (polls : List Poll) :
    sl.run (poll :: polls) =
      (((sl.maybeSubmit poll).1.run polls).1,
        (sl.maybeSubmit poll).2 ++ ((sl.maybeSubmit poll).1.run polls).2) :=
  rfl

theorem exists_poll_of_mem_run
    {sl : SubmitLoop} {polls : List Poll} {call : Call}
    (hcall : call ∈ (sl.run polls).2) :
    ∃ poll ∈ polls, call.height = poll.height ∧
      call.feeds = sl.freshFeeds poll := by
  induction polls generalizing sl with
  | nil => exact absurd hcall List.not_mem_nil
  | cons poll polls ih =>
      rw [run_cons, List.mem_append] at hcall
      rcases hcall with hcall | hcall
      · exact ⟨poll, List.mem_cons_self, of_mem_maybeSubmit hcall⟩
      · obtain ⟨later, hlater, hheight, hfeeds⟩ := ih hcall
        refine ⟨later, List.mem_cons_of_mem poll hlater, hheight, ?_⟩
        obtain ⟨window, hnext⟩ := sl.exists_lastWindow_of_maybeSubmit poll
        rw [hfeeds, hnext]
        rfl

/-- The successful calls of a run are the actions of the gate whose key is the
window of the observed height. -/
theorem successHeights_run
    {sl : SubmitLoop} (hwindow : 0 < sl.voteWindow) (polls : List Poll) :
    successHeights (sl.run polls).2 =
      (LastKeyGate.acted sl.windowOf sl.ready sl.lastWindow.toInt polls).map
        Poll.height := by
  induction polls generalizing sl with
  | nil => rfl
  | cons poll polls ih =>
      rw [run_cons, successHeights_append, LastKeyGate.acted]
      rcases maybeSubmit_step hwindow poll with
        ⟨hact, hnext, hcalls⟩ | ⟨hidle, hnext, hcalls⟩
      · rw [if_pos hact, hcalls, hnext, List.map_cons, ih]
        · rfl
        · exact hwindow
      · rw [if_neg hidle, hcalls, hnext, ih hwindow, List.nil_append]

/-! ## Windows of the feeder and of the chain -/

theorem windowOf_eq_tdiv
    {sl : SubmitLoop} (hwindow : 0 < sl.voteWindow) (poll : Poll) :
    sl.windowOf poll = poll.height.toInt.tdiv sl.voteWindow.toInt := by
  have hpos : 0 < sl.voteWindow.toInt := Int64.lt_iff_toInt_lt.mp hwindow
  have habs := Int.natAbs_tdiv_le_natAbs poll.height.toInt sl.voteWindow.toInt
  have hlower := poll.height.le_toInt
  have hupper := poll.height.toInt_lt
  have hsign : poll.height.toInt ≤ 0 →
      poll.height.toInt.tdiv sl.voteWindow.toInt ≤ 0 := by
    intro hle
    simpa using Int.tdiv_le_tdiv hpos hle
  rw [windowOf, Int64.toInt_div]
  apply Int.bmod_eq_of_le <;> omega

theorem windowOf_mono
    {sl : SubmitLoop} (hwindow : 0 < sl.voteWindow) {p q : Poll}
    (hle : p.height ≤ q.height) : sl.windowOf p ≤ sl.windowOf q := by
  rw [windowOf_eq_tdiv hwindow, windowOf_eq_tdiv hwindow]
  exact Int.tdiv_le_tdiv (Int64.lt_iff_toInt_lt.mp hwindow)
    (Int64.le_iff_toInt_le.mp hle)

theorem windowOf_eq_iff
    {sl : SubmitLoop} (hwindow : 0 < sl.voteWindow) {poll : Poll}
    (hheight : 0 ≤ poll.height.toInt) {k : ℤ} :
    sl.windowOf poll = k ↔
      k * sl.voteWindow.toInt ≤ poll.height.toInt ∧
        poll.height.toInt ≤ (k + 1) * sl.voteWindow.toInt - 1 := by
  have hpos : 0 < sl.voteWindow.toInt := Int64.lt_iff_toInt_lt.mp hwindow
  rw [windowOf_eq_tdiv hwindow, Int.tdiv_eq_ediv_of_nonneg hheight,
    Int.ediv_eq_iff_of_pos hpos, add_mul, one_mul]
  omega

theorem length_filter_run
    {sl : SubmitLoop} (hwindow : 0 < sl.voteWindow) (polls : List Poll)
    (test : Int64 → Bool) :
    ((sl.run polls).2.filter fun call =>
        call.succeeded && test call.height).length =
      ((LastKeyGate.acted sl.windowOf sl.ready sl.lastWindow.toInt
        polls).filter fun p => test p.height).length := by
  rw [length_filter_succeeded, successHeights_run hwindow, List.filter_map,
    List.length_map]
  rfl

/-- A batch of a poll lands in chain window `k` exactly when the poll's own
window is `k`. -/
theorem inChainWindow_iff
    {sl : SubmitLoop} (hwindow : 0 < sl.voteWindow) {poll : Poll}
    (hheight : 0 ≤ poll.height.toInt) {k : ℤ} :
    InChainWindow sl.voteWindow.toInt k (includingBlock poll.height) ↔
      sl.windowOf poll = k := by
  rw [windowOf_eq_iff hwindow hheight, InChainWindow, includingBlock]
  constructor <;> rintro ⟨hlow, hhigh⟩ <;> constructor <;> omega

theorem nonneg_of_inChainWindow
    {V : ℤ} (hpos : 0 < V) {k : ℕ} {height : Int64}
    (hin : InChainWindow V k (includingBlock height)) : 0 ≤ height.toInt := by
  have hlow : (k : ℤ) * V + 1 ≤ height.toInt + 1 := hin.1
  have hprod : 0 ≤ (k : ℤ) * V := by positivity
  omega

theorem mod_eq_zero_iff_dvd {height V : Int64} :
    height % V = 0 ↔ V.toInt ∣ height.toInt := by
  rw [← Int64.toInt_inj, Int64.toInt_mod, Int.dvd_iff_tmod_eq_zero]
  rfl

theorem dvd_iff_last_block
    {V : ℤ} (hpos : 0 < V) {k block : ℤ} (hin : InChainWindow V k block) :
    V ∣ block ↔ block = (k + 1) * V := by
  obtain ⟨hlow, hhigh⟩ := hin
  constructor
  · rintro ⟨c, rfl⟩
    have hgt : k < c := by
      apply lt_of_mul_lt_mul_right _ hpos.le
      linarith
    have hle : c ≤ k + 1 := by
      apply le_of_mul_le_mul_right _ hpos
      linarith
    rw [show c = k + 1 by omega, mul_comm]
  · rintro rfl
    exact dvd_mul_left V (k + 1)

/-- The last block of a chain window is the only one at which `EndBlocker`
takes up the window's feeds; they are gone after it. -/
theorem endBlocker_in_chain_window
    {V : Int64} (hwindow : 0 < V) {k : ℕ}
    {keeper : Keeper} {ctx : Ctx} {staking : StakingView keeper.sdk}
    {store : Oracle.OracleStore}
    {result : Oracle.OracleStore × List Oracle.SlashCall}
    (hparams : (Oracle.getParams store).voteWindow = V)
    (hin : InChainWindow V.toInt k ctx.blockHeight.toInt)
    (hcall : Oracle.endBlocker keeper ctx staking store = .ok result) :
    (ctx.blockHeight.toInt ≠ (k + 1) * V.toInt → result = (store, [])) ∧
      (ctx.blockHeight.toInt = (k + 1) * V.toInt →
        ∀ val pair, result.1.get (.feed val pair) = none) := by
  have hboundary : ctx.blockHeight % V = 0 ↔
      ctx.blockHeight.toInt = (k + 1) * V.toInt := by
    rw [mod_eq_zero_iff_dvd]
    exact dvd_iff_last_block (Int64.lt_iff_toInt_lt.mp hwindow) hin
  rcases Oracle.endBlocker_cases hcall with
    ⟨hinside, heq⟩ | ⟨hclosing, w, -, hclose⟩
  · rw [hparams, ne_eq, hboundary] at hinside
    exact ⟨fun _ => heq, fun hlast => absurd hlast hinside⟩
  · rw [hparams, hboundary] at hclosing
    exact ⟨fun hne => absurd hclosing hne,
      fun _ => (Oracle.Window.closed_of_close hclose).cleared⟩

section Run

variable {sl : SubmitLoop} {polls : List Poll}

theorem acted_window_length_le_one
    (hwindow : 0 < sl.voteWindow)
    (hmono : polls.Pairwise fun p q => p.height ≤ q.height) (window : ℤ) :
    ((LastKeyGate.acted sl.windowOf sl.ready sl.lastWindow.toInt
      polls).filter fun p => sl.windowOf p = window).length ≤ 1 := by
  apply LastKeyGate.filter_key_length_le_one
  apply LastKeyGate.acted_pairwise_lt
  exact hmono.imp fun hle => windowOf_mono hwindow hle

theorem batchesIn_length_le_one
    (hwindow : 0 < sl.voteWindow)
    (hmono : polls.Pairwise fun p q => p.height ≤ q.height) (k : ℕ) :
    (batchesIn sl.voteWindow.toInt k (sl.run polls).2).length ≤ 1 := by
  have hpos : 0 < sl.voteWindow.toInt := Int64.lt_iff_toInt_lt.mp hwindow
  refine le_trans ?_ (acted_window_length_le_one hwindow hmono k)
  unfold batchesIn
  rw [length_filter_run hwindow polls fun height =>
    decide (InChainWindow sl.voteWindow.toInt k (includingBlock height))]
  apply List.Sublist.length_le
  apply List.monotone_filter_right
  intro p hin
  rw [decide_eq_true_eq] at hin ⊢
  exact (inChainWindow_iff hwindow (nonneg_of_inChainWindow hpos hin)).mp hin

theorem batchesIn_pos
    (hwindow : 0 < sl.voteWindow) (hstart : sl.lastWindow = -1)
    (hheights : ∀ p ∈ polls, 0 ≤ p.height) {k : ℕ} {poll : Poll}
    (hpoll : poll ∈ polls) (hready : sl.ready poll = true)
    (hin : sl.windowOf poll = k) :
    0 < (batchesIn sl.voteWindow.toInt k (sl.run polls).2).length := by
  have hlast : sl.windowOf poll ≠ sl.lastWindow.toInt := by
    rw [hin, hstart]
    simp
  obtain ⟨q, hq, hkey⟩ := LastKeyGate.exists_acted_of_ready hpoll hready hlast
  have hqheight : 0 ≤ q.height.toInt :=
    Int64.le_iff_toInt_le.mp (hheights q (LastKeyGate.mem_of_mem_acted hq))
  unfold batchesIn
  rw [length_filter_run hwindow polls fun height =>
    decide (InChainWindow sl.voteWindow.toInt k (includingBlock height))]
  apply List.length_pos_of_mem (a := q)
  rw [List.mem_filter, decide_eq_true_eq]
  exact ⟨hq, (inChainWindow_iff hwindow hqheight).mpr (hkey.trans hin)⟩

end Run

/-- With a positive vote window that both sides use, for heights that never go
backwards, any cache contents and any outcomes, the loop makes at most one
successful call per value of `height / voteWindow`, and chain window `k`
receives at most one batch, and one whenever a poll that observed a height in
`[k * V, (k + 1) * V - 1]` had a fresh pair and a successful attempt.  The
window is the chain's: `EndBlocker` leaves the store alone before its last
block and clears the feeds at it. -/
theorem one_batch_per_window
    (sl : SubmitLoop) (polls : List Poll)
    (hwindow : 0 < sl.voteWindow) (hstart : sl.lastWindow = -1)
    (hmono : polls.Pairwise fun p q => p.height ≤ q.height) :
    (∀ window : Int64,
      ((sl.run polls).2.filter fun call =>
        call.succeeded &&
          decide (call.height / sl.voteWindow = window)).length ≤ 1) ∧
    ∀ k : ℕ,
      (batchesIn sl.voteWindow.toInt k (sl.run polls).2).length ≤ 1 ∧
      ((∀ p ∈ polls, 0 ≤ p.height) →
        (∃ p ∈ polls,
          k * sl.voteWindow.toInt ≤ p.height.toInt ∧
          p.height.toInt ≤ (k + 1) * sl.voteWindow.toInt - 1 ∧
          sl.PairFresh p ∧ sl.AttemptSucceeds p) →
        (batchesIn sl.voteWindow.toInt k (sl.run polls).2).length = 1) ∧
      ∀ (keeper : Keeper) (ctx : Ctx) (staking : StakingView keeper.sdk)
        (store : Oracle.OracleStore)
        (result : Oracle.OracleStore × List Oracle.SlashCall),
        (Oracle.getParams store).voteWindow = sl.voteWindow →
        InChainWindow sl.voteWindow.toInt k ctx.blockHeight.toInt →
        Oracle.endBlocker keeper ctx staking store = .ok result →
        (ctx.blockHeight.toInt ≠ (k + 1) * sl.voteWindow.toInt →
          result = (store, [])) ∧
        (ctx.blockHeight.toInt = (k + 1) * sl.voteWindow.toInt →
          ∀ val pair, result.1.get (.feed val pair) = none) := by
  constructor
  · intro window
    have hkey : ∀ p : Poll, sl.windowOf p = window.toInt ↔
        p.height / sl.voteWindow = window := by
      intro p
      rw [windowOf, Int64.toInt_inj]
    have hle := acted_window_length_le_one hwindow hmono window.toInt
    simp only [hkey] at hle
    rw [length_filter_run hwindow polls fun height =>
      decide (height / sl.voteWindow = window)]
    exact hle
  · intro k
    have hmost := batchesIn_length_le_one hwindow hmono k
    refine ⟨hmost, ?_, ?_⟩
    · rintro hheights ⟨p, hp, hlow, hhigh, hfresh, hattempt⟩
      have hheight : 0 ≤ p.height.toInt :=
        Int64.le_iff_toInt_le.mp (hheights p hp)
      have hone := batchesIn_pos hwindow hstart hheights hp
        (ready_iff.mpr ⟨hfresh, hattempt⟩)
        ((windowOf_eq_iff hwindow hheight).mpr ⟨hlow, hhigh⟩)
      omega
    · intro keeper ctx staking store result hparams hin hcall
      exact endBlocker_in_chain_window hwindow hparams hin hcall

def sampleLoop : SubmitLoop :=
  newSubmitLoop [⟨"VTX:USD", [("static", "VTX")]⟩] 10 60000000000

/-- The pair is fresh; the first broadcast fails and the second succeeds. -/
def samplePoll (height : Int64) : Poll where
  height := height
  now := 0
  reads := fun _ => Cache.empty.set "VTX:USD" legacyOneDec 0
  outcomes := fun i => if i = 0 then .error "timeout" else .ok "A1"

/-- Two polls observe heights of the second window; it receives one batch. -/
theorem sampleLoop_second_window :
    (batchesIn 10 1
      (sampleLoop.run ([5, 12, 15, 23].map samplePoll)).2).length = 1 := by
  have hfresh : sampleLoop.PairFresh (samplePoll 12) :=
    ⟨0, ⟨"VTX:USD", [("static", "VTX")]⟩, legacyOneDec, rfl, by decide⟩
  have hattempt : sampleLoop.AttemptSucceeds (samplePoll 12) :=
    ⟨1, by decide, rfl⟩
  have hall := one_batch_per_window sampleLoop
    ([5, 12, 15, 23].map samplePoll) (by decide) rfl (by decide)
  exact (hall.2 1).2.1 (by decide)
    ⟨samplePoll 12, by simp, by decide, by decide, hfresh, hattempt⟩

end SubmitLoop

end Vertix.Feeder

import Vertix.FeederSubmitLoop
import Vertix.OraclePanicSafety
import Mathlib.Tactic

/-!
# A vote window that governance changes

A feeder whose configuration leaves the vote window open reads it from the
chain when it starts and keeps that value.  The chain closes a window at every
block whose height is a multiple of the value in force at the end of that
block.  Here the chain runs on with any messages, parameter updates among
them, while the feeder polls after every block, finds all pairs fresh and
succeeds with every broadcast.  It submits after its first poll and after
every multiple of the value it started with, so a window of the chain receives
a batch exactly when it reaches over such a height.
-/

namespace Vertix.Feeder

open Transition Oracle

variable {k : Keeper}

/-- The height of an EndBlocker call and the vote window in force at it. -/
structure Closing where
  height : Int64
  voteWindow : Int64
  deriving DecidableEq

def closing? (entry : OracleStore × OracleStep k) : Option Closing :=
  match entry.2 with
  | .endBlock ctx _ => some ⟨ctx.blockHeight, (getParams entry.1).voteWindow⟩
  | _ => none

/-- The EndBlocker calls of a history, oldest first. -/
def closings (history : List (OracleStore × OracleStep k)) : List Closing :=
  history.reverse.filterMap closing?

/-- EndBlocker closes a window at `height`. -/
def IsBoundary (calls : List Closing) (height : Int64) : Prop :=
  ∃ c ∈ calls, c.height = height ∧ height % c.voteWindow = 0

/-- The blocks after `opening` up to `closing` are one vote window. -/
structure VoteWindow (calls : List Closing) (opening closing : Int64) :
    Prop where
  opening_boundary : IsBoundary calls opening
  closing_boundary : IsBoundary calls closing
  opening_lt : opening < closing
  no_boundary_between :
    ∀ height, IsBoundary calls height → opening < height →
      ¬ height < closing

instance instDecidableIsBoundary (calls : List Closing) (height : Int64) :
    Decidable (IsBoundary calls height) :=
  inferInstanceAs (Decidable (∃ c ∈ calls, _))

theorem voteWindow_iff {calls : List Closing} {opening closing : Int64} :
    (IsBoundary calls opening ∧ IsBoundary calls closing ∧
        opening < closing ∧
        ∀ c ∈ calls, c.height % c.voteWindow = 0 → opening < c.height →
          ¬ c.height < closing) ↔
      VoteWindow calls opening closing := by
  constructor
  · rintro ⟨hopening, hclosing, hlt, hbetween⟩
    refine ⟨hopening, hclosing, hlt, ?_⟩
    rintro height ⟨c, hc, rfl, hmod⟩
    exact hbetween c hc hmod
  · intro h
    refine ⟨h.opening_boundary, h.closing_boundary, h.opening_lt, ?_⟩
    intro c hc hmod
    exact h.no_boundary_between c.height ⟨c, hc, rfl, hmod⟩

instance instDecidableVoteWindow (calls : List Closing)
    (opening closing : Int64) : Decidable (VoteWindow calls opening closing) :=
  decidable_of_iff _ voteWindow_iff

/-- A chain and a feeder that starts in one of its states.  Histories are
newest first; the chain's blocks are numbered from one. -/
structure FeederRun (k : Keeper)
    (parseCoinsNormalized : String → Except String (List (String × SdkInt)))
    where
  cfg : Config
  older : List (OracleStore × OracleStep k)
  newer : List (OracleStore × OracleStep k)
  startStore : OracleStore
  store : OracleStore
  polls : List Poll
  accepted : cfg.validate k.sdk parseCoinsNormalized = .ok ()
  window_from_chain : cfg.voteWindow = 0
  reached : Reached k older startStore
  /-- A query is answered from the state after a block. -/
  committed : ∀ entry ∈ older.head?, (closing? entry).isSome = true
  continued : Run (oracleStep k) startStore newer store
  blocks :
    LastKeyGate.Consecutive (fun c : Closing => c.height.toInt) 1
      (closings (newer ++ older))
  /-- The first poll sees the last block before the start, and there is one
  poll after each later block. -/
  polled :
    LastKeyGate.Consecutive (fun p : Poll => p.height.toInt)
      (closings older).length polls
  polled_all : polls.length = (closings newer).length + 1
  fresh :
    ∀ p ∈ polls, ∀ (i : ℕ) (pc : PairConfig), cfg.pairs[i]? = some pc →
      ∃ price,
        (p.reads i).fresh pc.pair cfg.quality.maxQuoteAge p.now = some price
  succeeds : ∀ p ∈ polls, ∀ i, (p.outcomes i).isOk = true

namespace FeederRun

variable
  {parseCoinsNormalized : String → Except String (List (String × SdkInt))}
  (r : FeederRun k parseCoinsNormalized)

/-- The height of the latest block when the feeder starts. -/
def startHeight : ℤ := (closings r.older).length

/-- The vote window that the feeder reads at its start. -/
def startWindow : Int64 := (getParams r.startStore).voteWindow

def loop : SubmitLoop := newFeederLoop r.cfg r.startWindow

def chainClosings : List Closing := closings (r.newer ++ r.older)

/-- A vote window of the chain whose blocks all come after the start. -/
def StartedWindow (opening closing : Int64) : Prop :=
  VoteWindow r.chainClosings opening closing ∧ r.startHeight ≤ opening.toInt

/-- One of the feeder's batches is in the window. -/
def ReceivesBatch (opening closing : Int64) : Prop :=
  ∃ call ∈ (r.loop.run r.polls).2, call.succeeded = true ∧
    opening.toInt < includingBlock call.height ∧
    includingBlock call.height ≤ closing.toInt

theorem startWindow_pos : 0 < r.startWindow :=
  Int64.lt_iff_toInt_lt.mpr (sound_of_reached r.reached).params_valid.voteWindow_pos

theorem loop_voteWindow : r.loop.voteWindow = r.startWindow := by
  simp [loop, newFeederLoop, newSubmitLoop, r.window_from_chain]

theorem ready_of_mem {p : Poll} (hp : p ∈ r.polls) :
    r.loop.ready p = true := by
  rw [SubmitLoop.ready_iff]
  constructor
  · obtain ⟨pc, rest, hpairs⟩ := List.exists_cons_of_ne_nil
      (Config.accepted_of_validate r.accepted).pairs
    have hfirst : r.cfg.pairs[0]? = some pc := by
      rw [hpairs]
      rfl
    obtain ⟨price, hprice⟩ := r.fresh p hp 0 pc hfirst
    exact ⟨0, pc, price, hfirst, hprice⟩
  · have hattempts : 0 < r.loop.attempts := by
      unfold SubmitLoop.attempts
      split_ifs with hlow
      · omega
      · have hge := Int64.le_iff_toInt_le.mp (Int64.not_lt.mp hlow)
        have hone : (1 : Int64).toInt = 1 := rfl
        omega
    exact ⟨0, hattempts, r.succeeds p hp 0⟩

/-- The quotient by a fixed number changes exactly at its multiples. -/
theorem tdiv_ne_tdiv_pred_iff {n V : ℤ} (hV : 0 < V) (hn : 0 < n) :
    n.tdiv V ≠ (n - 1).tdiv V ↔ V ∣ n := by
  obtain ⟨m, rfl⟩ : ∃ m : ℕ, n = m + 1 := ⟨(n - 1).toNat, by omega⟩
  obtain ⟨v, rfl⟩ := Int.eq_ofNat_of_zero_le hV.le
  rw [add_sub_cancel_right, Int.tdiv_eq_ediv_of_nonneg (by omega),
    Int.tdiv_eq_ediv_of_nonneg (by omega)]
  norm_cast
  rw [Nat.succ_div]
  split_ifs with hdvd <;> simp [hdvd]

/-- The feeder submits after its first poll and after every multiple of the
vote window it started with. -/
theorem mem_successHeights_iff {h : ℤ} :
    h ∈ (SubmitLoop.successHeights (r.loop.run r.polls).2).map Int64.toInt ↔
      r.startHeight ≤ h ∧ h ≤ r.startHeight + (closings r.newer).length ∧
        (h = r.startHeight ∨ r.startWindow.toInt ∣ h) := by
  have hwindow : 0 < r.loop.voteWindow := by
    rw [loop_voteWindow]
    exact r.startWindow_pos
  have hpos : 0 < r.startWindow.toInt :=
    Int64.lt_iff_toInt_lt.mp r.startWindow_pos
  have hkey : r.loop.windowOf =
      fun p => p.height.toInt.tdiv r.startWindow.toInt := by
    funext p
    rw [SubmitLoop.windowOf_eq_tdiv hwindow, loop_voteWindow]
  have hnonneg : 0 ≤ r.startHeight := Int.natCast_nonneg _
  rw [SubmitLoop.successHeights_run hwindow, List.map_map, hkey]
  have hacted : h ∈ (LastKeyGate.acted
        (fun p : Poll => p.height.toInt.tdiv r.startWindow.toInt)
        r.loop.ready (-1) r.polls).map (fun p => p.height.toInt) ↔
      r.startHeight ≤ h ∧ h < r.startHeight + r.polls.length ∧
        h.tdiv r.startWindow.toInt ≠
          if h = r.startHeight then -1
          else (h - 1).tdiv r.startWindow.toInt :=
    LastKeyGate.mem_acted_of_consecutive
      (fun n => n.tdiv r.startWindow.toInt) r.polled
      fun p hp => r.ready_of_mem hp
  rw [r.polled_all, Nat.cast_add, Nat.cast_one] at hacted
  refine hacted.trans ?_
  by_cases hfirst : h = r.startHeight
  · have hgate : h.tdiv r.startWindow.toInt ≠ -1 := by
      have hquotient : 0 ≤ h.tdiv r.startWindow.toInt :=
        Int.tdiv_nonneg (by omega) hpos.le
      omega
    rw [if_pos hfirst]
    constructor
    · rintro ⟨hle, hlt, -⟩
      exact ⟨hle, by omega, Or.inl hfirst⟩
    · rintro ⟨hle, hlt, -⟩
      exact ⟨hle, by omega, hgate⟩
  · rw [if_neg hfirst]
    constructor
    · rintro ⟨hle, hlt, hchange⟩
      exact ⟨hle, by omega,
        Or.inr ((tdiv_ne_tdiv_pred_iff hpos (by omega)).mp hchange)⟩
    · rintro ⟨hle, hlt, hturn⟩
      have hdvd : r.startWindow.toInt ∣ h := hturn.resolve_left hfirst
      exact ⟨hle, by omega, (tdiv_ne_tdiv_pred_iff hpos (by omega)).mpr hdvd⟩

theorem receivesBatch_iff {opening closing : Int64} :
    r.ReceivesBatch opening closing ↔
      ∃ h ∈ (SubmitLoop.successHeights (r.loop.run r.polls).2).map Int64.toInt,
        opening.toInt ≤ h ∧ h < closing.toInt := by
  unfold ReceivesBatch SubmitLoop.successHeights includingBlock
  constructor
  · rintro ⟨call, hcall, hok, hlow, hhigh⟩
    refine ⟨call.height.toInt, ?_, by omega, by omega⟩
    simp only [List.mem_map, List.mem_filter]
    exact ⟨call.height, ⟨call, ⟨hcall, hok⟩, rfl⟩, rfl⟩
  · rintro ⟨h, hmem, hlow, hhigh⟩
    simp only [List.mem_map, List.mem_filter] at hmem
    obtain ⟨height, ⟨call, ⟨hcall, hok⟩, rfl⟩, rfl⟩ := hmem
    exact ⟨call, hcall, hok, by omega, by omega⟩

theorem closing_le {opening closing : Int64}
    (hwindow : r.StartedWindow opening closing) :
    closing.toInt ≤ r.startHeight + (closings r.newer).length := by
  obtain ⟨c, hc, rfl, -⟩ := hwindow.1.closing_boundary
  have hbounds := r.blocks.bounds hc
  have hlength : (closings (r.newer ++ r.older)).length =
      (closings r.older).length + (closings r.newer).length := by
    simp [closings]
  rw [hlength, Nat.cast_add] at hbounds
  unfold startHeight
  omega

/-- A window of the chain receives a batch exactly when the height of its
first poll or a multiple of the vote window the feeder started with lies
among the heights observed before the window's blocks. -/
theorem window_receives_batch_iff {opening closing : Int64}
    (hwindow : r.StartedWindow opening closing) :
    r.ReceivesBatch opening closing ↔
      ∃ h : ℤ, opening.toInt ≤ h ∧ h < closing.toInt ∧
        (h = r.startHeight ∨ r.startWindow.toInt ∣ h) := by
  have hstart := hwindow.2
  have hend := r.closing_le hwindow
  rw [receivesBatch_iff]
  constructor
  · rintro ⟨h, hmem, hlow, hhigh⟩
    exact ⟨h, hlow, hhigh, (r.mem_successHeights_iff.mp hmem).2.2⟩
  · rintro ⟨h, hlow, hhigh, hturn⟩
    exact ⟨h, r.mem_successHeights_iff.mpr ⟨by omega, by omega, hturn⟩, hlow,
      hhigh⟩

/-- While every vote window in force is a multiple of the one the feeder
started with, each window begins at a height after which it submits. -/
theorem dvd_opening_of_multiples
    (hmultiple : ∀ c ∈ r.chainClosings, r.startHeight ≤ c.height.toInt →
      r.startWindow.toInt ∣ c.voteWindow.toInt)
    {opening closing : Int64} (hwindow : r.StartedWindow opening closing) :
    r.startWindow.toInt ∣ opening.toInt := by
  obtain ⟨c, hc, rfl, hmod⟩ := hwindow.1.opening_boundary
  exact (hmultiple c hc hwindow.2).trans
    (SubmitLoop.mod_eq_zero_iff_dvd.mp hmod)

/-- Every vote window of the chain that starts after the feeder contains one
of its batches exactly when each of them reaches over the height of the first
poll or over a multiple of the vote window that the feeder read at its
start. -/
theorem every_window_receives_batch_iff :
    (∀ opening closing, r.StartedWindow opening closing →
        r.ReceivesBatch opening closing) ↔
      ∀ opening closing, r.StartedWindow opening closing →
        ∃ h : ℤ, opening.toInt ≤ h ∧ h < closing.toInt ∧
          (h = r.startHeight ∨ r.startWindow.toInt ∣ h) := by
  constructor
  · intro hall opening closing hwindow
    exact (r.window_receives_batch_iff hwindow).mp
      (hall opening closing hwindow)
  · intro hall opening closing hwindow
    exact (r.window_receives_batch_iff hwindow).mpr
      (hall opening closing hwindow)

end FeederRun

/-! ## Six blocks -/

def windowParams (V : Int64) : OracleParams :=
  { defaultParams with voteWindow := V, acceptList := ["VTX:USD"] }

def endOfBlock (height : Int64) : OracleStep referenceKeeper :=
  .endBlock { boundaryCtx with blockHeight := height } twoValidators

def steadyPoll (height : Int64) : Poll :=
  { SubmitLoop.samplePoll height with outcomes := fun _ => .ok "A1" }

/-- A chain starts with vote window `V`, a feeder starts after its first
block, and `rest` leads to the end of the sixth. -/
def sixBlocks (V : Int64) (rest : List (OracleStep referenceKeeper))
    (blocks : List Closing) : Bool :=
  (replayGenesis referenceKeeper boundaryCtx twoValidators
    ⟨windowParams V, [], []⟩ [endOfBlock 1]).any fun before =>
      (replay (oracleStep referenceKeeper) [] before.2.2 rest).any fun after =>
        decide (closings (after.1 ++ before.2.1) = blocks ∧
          (closings before.2.1).length = 1 ∧
          (closings after.1).length = 5 ∧
          (∀ entry ∈ before.2.1.head?, (closing? entry).isSome = true) ∧
          (getParams before.2.2).voteWindow = V)

theorem exists_run_of_sixBlocks
    {V : Int64} {rest : List (OracleStep referenceKeeper)}
    {blocks : List Closing}
    (hcheck : sixBlocks V rest blocks = true)
    (hblocks : LastKeyGate.Consecutive
      (fun c : Closing => c.height.toInt) 1 blocks) :
    ∃ r : FeederRun referenceKeeper fun _ => .ok [],
      r.chainClosings = blocks ∧ r.startHeight = 1 ∧ r.startWindow = V := by
  obtain ⟨before, hbefore, hafter⟩ := exists_some_of_any hcheck
  obtain ⟨after, hafter, hfacts⟩ := exists_some_of_any hafter
  rw [decide_eq_true_eq] at hfacts
  obtain ⟨hclosings, holder, hnewer, hcommitted, hwindow⟩ := hfacts
  obtain ⟨hinit, hrun⟩ := run_of_replayGenesis hbefore
  refine ⟨{
    cfg := sampleConfig
    older := before.2.1
    newer := after.1
    startStore := before.2.2
    store := after.2
    polls := [1, 2, 3, 4, 5, 6].map steadyPoll
    accepted := sampleConfig_valid
    window_from_chain := rfl
    reached := ⟨_, _, _, _, hinit, hrun⟩
    committed := hcommitted
    continued := run_of_replay Run.start hafter
    blocks := by rw [hclosings]; exact hblocks
    polled := by rw [holder]; exact ⟨rfl, rfl, rfl, rfl, rfl, rfl, trivial⟩
    polled_all := by rw [hnewer]; rfl
    fresh := ?_
    succeeds := ?_ }, hclosings, ?_, hwindow⟩
  · intro p hp i pc hpc
    obtain ⟨height, -, rfl⟩ := List.mem_map.mp hp
    obtain ⟨rfl, rfl⟩ : i = 0 ∧ pc = ⟨"VTX:USD", [("static", "VTX")]⟩ := by
      rcases i with _ | i
      · exact ⟨rfl, (Option.some.inj hpc).symm⟩
      · simp [sampleConfig] at hpc
    exact ⟨legacyOneDec, rfl⟩
  · intro p hp i
    obtain ⟨height, -, rfl⟩ := List.mem_map.mp hp
    rfl
  · unfold FeederRun.startHeight
    rw [holder]
    rfl

/-- With an unchanged vote window every window that starts after the feeder
receives a batch. -/
theorem unchanged_window_receives_batches :
    ∃ r : FeederRun referenceKeeper fun _ => .ok [],
      r.StartedWindow 2 4 ∧
        ∀ opening closing, r.StartedWindow opening closing →
          r.ReceivesBatch opening closing := by
  have hcheck : sixBlocks 2 ([2, 3, 4, 5, 6].map endOfBlock)
      [⟨1, 2⟩, ⟨2, 2⟩, ⟨3, 2⟩, ⟨4, 2⟩, ⟨5, 2⟩, ⟨6, 2⟩] = true := by
    decide +kernel
  obtain ⟨r, hblocks, hheight, hwindow⟩ := exists_run_of_sixBlocks hcheck
    ⟨rfl, rfl, rfl, rfl, rfl, rfl, trivial⟩
  refine ⟨r, ⟨?_, ?_⟩, r.every_window_receives_batch_iff.mpr ?_⟩
  · rw [hblocks]
    decide
  · rw [hheight]
    decide
  · intro opening closing hstarted
    have hmultiple : ∀ c ∈ r.chainClosings, r.startHeight ≤ c.height.toInt →
        r.startWindow.toInt ∣ c.voteWindow.toInt := by
      rw [hblocks, hwindow]
      simp
    exact ⟨opening.toInt, le_refl _,
      Int64.lt_iff_toInt_lt.mp hstarted.1.opening_lt,
      Or.inr (r.dvd_opening_of_multiples hmultiple hstarted)⟩

/-- The feeder starts with vote window ten; the second block sets it to three.
The blocks 4, 5 and 6 are a vote window without a batch of the feeder. -/
theorem shortened_window_receives_none :
    ∃ r : FeederRun referenceKeeper fun _ => .ok [],
      r.StartedWindow 3 6 ∧ ¬ r.ReceivesBatch 3 6 := by
  have hcheck : sixBlocks 10
      (.updateParams ⟨referenceKeeper.authority, windowParams 3⟩ ::
        [2, 3, 4, 5, 6].map endOfBlock)
      [⟨1, 10⟩, ⟨2, 3⟩, ⟨3, 3⟩, ⟨4, 3⟩, ⟨5, 3⟩, ⟨6, 3⟩] = true := by
    decide +kernel
  obtain ⟨r, hblocks, hheight, hwindow⟩ := exists_run_of_sixBlocks hcheck
    ⟨rfl, rfl, rfl, rfl, rfl, rfl, trivial⟩
  have hstarted : r.StartedWindow 3 6 := by
    constructor
    · rw [hblocks]
      decide
    · rw [hheight]
      decide
  refine ⟨r, hstarted, ?_⟩
  rw [r.window_receives_batch_iff hstarted, hheight, hwindow]
  rintro ⟨h, hlow, hhigh, hturn⟩
  have hthree : (3 : Int64).toInt = 3 := rfl
  have hsix : (6 : Int64).toInt = 6 := rfl
  rw [show (10 : Int64).toInt = 10 from rfl] at hturn
  omega

end Vertix.Feeder

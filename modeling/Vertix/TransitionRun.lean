import Mathlib.Data.List.Basic
import Mathlib.Tactic

/-!
# Runs of partial transition systems

A run records its history newest first.  Each entry holds the state in which
a step was taken together with the step, so a property of the past can be read
off the history without instrumenting the state.  A step which yields no state
ends every run through it.
-/

namespace Vertix
namespace Transition

variable {S L : Type}

/-- `Run step start history state`: the steps of `history`, newest first, lead
from `start` to `state`. -/
inductive Run (step : S → L → Option S) (start : S) :
    List (S × L) → S → Prop
  | start : Run step start [] start
  | next {history : List (S × L)} {state state' : S} {label : L} :
      Run step start history state → step state label = some state' →
      Run step start ((state, label) :: history) state'

variable {step : S → L → Option S} {start : S}

/-- A property of a state and its past which holds at the start and is kept
by each step whose premise is met holds along the whole run. -/
theorem Run.induct_conditional
    {P : List (S × L) → S → Prop} {C : S → L → Prop}
    (hstart : P [] start)
    (hstep : ∀ history state label state',
      Run step start history state → P history state → C state label →
      step state label = some state' → P ((state, label) :: history) state')
    {history : List (S × L)} {state : S}
    (hrun : Run step start history state)
    (hcond : ∀ entry ∈ history, C entry.1 entry.2) :
    P history state := by
  induction hrun with
  | start => exact hstart
  | @next history state state' label hrun hnext ih =>
      have htail : ∀ entry ∈ history, C entry.1 entry.2 :=
        fun entry hentry => hcond entry (List.mem_cons_of_mem _ hentry)
      have hhead : C state label := hcond (state, label) (by simp)
      exact hstep history state label state' hrun (ih htail) hhead hnext

theorem Run.invariant_of_conditions
    {I : S → Prop} {C : S → L → Prop}
    (hstart : I start)
    (hstep : ∀ state label state',
      I state → C state label → step state label = some state' → I state')
    {history : List (S × L)} {state : S}
    (hrun : Run step start history state)
    (hcond : ∀ entry ∈ history, C entry.1 entry.2) :
    I state :=
  Run.induct_conditional (P := fun _ state => I state) hstart
    (fun _ state label state' _ hI hC hnext =>
      hstep state label state' hI hC hnext) hrun hcond

theorem Run.invariant
    {I : S → Prop}
    (hstart : I start)
    (hstep : ∀ state label state',
      I state → step state label = some state' → I state')
    {history : List (S × L)} {state : S}
    (hrun : Run step start history state) :
    I state :=
  Run.invariant_of_conditions (C := fun _ _ => True) hstart
    (fun state label state' hI _ hnext => hstep state label state' hI hnext)
    hrun (fun _ _ => trivial)

/-- A property which each step of a run keeps exactly when the step meets a
condition holds in all states of the run exactly when all steps meet the
condition. -/
theorem Run.always_iff_of_run
    {I : S → Prop} {C : S → L → Prop}
    (hstart : I start)
    (hstep : ∀ history state label state', Run step start history state →
      I state → step state label = some state' → (I state' ↔ C state label))
    {history : List (S × L)} {state : S}
    (hrun : Run step start history state) :
    ((∀ entry ∈ history, I entry.1) ∧ I state) ↔
      ∀ entry ∈ history, C entry.1 entry.2 := by
  induction hrun with
  | start => simp [hstart]
  | @next history state state' label hrun hnext ih =>
      have hkept := hstep history state label state' hrun
      simp only [List.forall_mem_cons]
      constructor
      · intro h
        obtain ⟨⟨hstate, holder⟩, hlast⟩ := h
        exact ⟨(hkept hstate hnext).mp hlast, ih.mp ⟨holder, hstate⟩⟩
      · intro h
        obtain ⟨holder, hstate⟩ := ih.mpr h.2
        exact ⟨⟨hstate, holder⟩, (hkept hstate hnext).mpr h.1⟩

theorem Run.always_iff
    {I : S → Prop} {C : S → L → Prop}
    (hstart : I start)
    (hstep : ∀ state label state',
      I state → step state label = some state' → (I state' ↔ C state label))
    {history : List (S × L)} {state : S}
    (hrun : Run step start history state) :
    ((∀ entry ∈ history, I entry.1) ∧ I state) ↔
      ∀ entry ∈ history, C entry.1 entry.2 :=
  Run.always_iff_of_run hstart
    (fun _ state label state' _ => hstep state label state') hrun

/-- The older part of a history leads to the state in which the next step was
taken. -/
theorem Run.before
    {newer older : List (S × L)} {entry : S × L} {state : S}
    (hrun : Run step start (newer ++ entry :: older) state) :
    Run step start older entry.1 := by
  induction newer generalizing state with
  | nil =>
      cases hrun with
      | next hrun _ => exact hrun
  | cons last newer ih =>
      cases hrun with
      | next hrun _ => exact ih hrun

/-- Every state recorded in a history is itself the end of a run, over the
older part of the history. -/
theorem Run.exists_run_before
    {history : List (S × L)} {state : S}
    (hrun : Run step start history state)
    {entry : S × L} (hentry : entry ∈ history) :
    ∃ newer older, history = newer ++ entry :: older ∧
      Run step start older entry.1 := by
  obtain ⟨newer, older, hsplit⟩ := List.append_of_mem hentry
  rw [hsplit] at hrun
  exact ⟨newer, older, hsplit, hrun.before⟩

/-- Execute a list of steps in order, keeping the history. -/
def replay (step : S → L → Option S) :
    List (S × L) → S → List L → Option (List (S × L) × S)
  | history, state, [] => some (history, state)
  | history, state, label :: rest =>
      match step state label with
      | none => none
      | some state' => replay step ((state, label) :: history) state' rest

theorem run_of_replay
    {history history' : List (S × L)} {state state' : S} {labels : List L}
    (hrun : Run step start history state)
    (hreplay : replay step history state labels = some (history', state')) :
    Run step start history' state' := by
  induction labels generalizing history state with
  | nil =>
      simp only [replay, Option.some.injEq, Prod.mk.injEq] at hreplay
      obtain ⟨rfl, rfl⟩ := hreplay
      exact hrun
  | cons label rest ih =>
      rw [replay] at hreplay
      cases hnext : step state label with
      | none => simp [hnext] at hreplay
      | some middle =>
          rw [hnext] at hreplay
          exact ih (Run.next hrun hnext) hreplay

theorem labels_append_of_replay
    {history history' : List (S × L)} {state state' : S} {labels : List L}
    (hreplay : replay step history state labels = some (history', state')) :
    history'.map Prod.snd = labels.reverse ++ history.map Prod.snd := by
  induction labels generalizing history state with
  | nil =>
      simp only [replay, Option.some.injEq, Prod.mk.injEq] at hreplay
      simp [hreplay.1]
  | cons label rest ih =>
      rw [replay] at hreplay
      cases hnext : step state label with
      | none => simp [hnext] at hreplay
      | some middle =>
          rw [hnext] at hreplay
          simp [ih hreplay]

/-- A replay from the start takes the given steps; the newest comes first. -/
theorem labels_of_replay
    {history : List (S × L)} {state state' : S} {labels : List L}
    (hreplay : replay step [] state labels = some (history, state')) :
    history.map Prod.snd = labels.reverse := by
  rw [labels_append_of_replay hreplay, List.map_nil, List.append_nil]

theorem label_mem_of_replay
    {history : List (S × L)} {state state' : S} {labels : List L}
    (hreplay : replay step [] state labels = some (history, state'))
    {entry : S × L} (hentry : entry ∈ history) : entry.2 ∈ labels := by
  rw [← List.mem_reverse, ← labels_of_replay hreplay]
  exact List.mem_map_of_mem hentry

/-- A property of a state and its past under which every step can be taken,
and which the steps keep, lets all lists of steps be executed. -/
theorem exists_replay
    {P : List (S × L) → S → Prop}
    (hstep : ∀ history state label, P history state →
      ∃ state', step state label = some state' ∧
        P ((state, label) :: history) state')
    (labels : List L) {history : List (S × L)} {state : S}
    (hstart : P history state) :
    ∃ history' state',
      replay step history state labels = some (history', state') ∧
        P history' state' := by
  induction labels generalizing history state with
  | nil => exact ⟨history, state, rfl, hstart⟩
  | cons label rest ih =>
      obtain ⟨state', hnext, hkept⟩ := hstep history state label hstart
      obtain ⟨history'', state'', hreplay, hend⟩ := ih hkept
      refine ⟨history'', state'', ?_, hend⟩
      rw [replay, hnext]
      exact hreplay

/-- Steps which commute pairwise lead to the same state in every order.  The
commutation is needed only in states that satisfy the invariant. -/
theorem foldl_eq_of_perm {next : S → L → S} {I : S → Prop} {R : L → L → Prop}
    (hsymm : ∀ {a b}, R a b → R b a)
    (hkeep : ∀ state label, I state → I (next state label))
    (hcommute : ∀ state a b, I state → R a b →
      next (next state a) b = next (next state b) a)
    {labels labels' : List L} (hperm : labels.Perm labels')
    (hpairwise : labels.Pairwise R) {state : S} (hstate : I state) :
    labels.foldl next state = labels'.foldl next state := by
  induction hperm generalizing state with
  | nil => rfl
  | cons label _ ih =>
      exact ih (List.pairwise_cons.mp hpairwise).2 (hkeep state label hstate)
  | swap a b rest =>
      have hrelated : R b a :=
        (List.pairwise_cons.mp hpairwise).1 a List.mem_cons_self
      simp only [List.foldl_cons]
      rw [hcommute state b a hstate hrelated]
  | trans hfirst _ ihfirst ihsecond =>
      rw [ihfirst hpairwise hstate,
        ihsecond (hfirst.pairwise hpairwise hsymm) hstate]

end Transition
end Vertix

import Mathlib.Logic.Function.Iterate
import Mathlib.Tactic

/-!
# A client which numbers its messages

A server takes the messages of a client in the order of their numbers, and of
these only the next one.  A message which it has taken waits until it is
executed or dropped.  The client remembers the number which it believes to be
the next.  It counts on after an answer which says that a message was taken,
and asks for the number after the last executed message when an answer says
that one was refused.  Requests and answers may be lost.
-/

namespace Vertix
namespace Sequenced

structure Server (N M : Type) where
  /-- The number after the last executed message. -/
  executed : N
  waiting : List M

/-- What happens at the server besides the client's requests. -/
inductive Event (M : Type) where
  | execute (count : ℕ)
  | drop (kept : ℕ)
  /-- Another holder of the client's identity has a message taken. -/
  | foreign (message : M)

inductive Delivery where
  | requestLost
  | answerLost
  | answered
  deriving DecidableEq

/-- The surroundings of one attempt. -/
structure Exchange (M : Type) where
  /-- Whether the server has no other reason to refuse the message. -/
  admitted : Bool
  delivery : Delivery
  /-- What happens between a refusal and the question for the number. -/
  meanwhile : List (Event M)
  numberAnswered : Bool

/-- The client's number and the server. -/
structure Link (N M : Type) where
  number : N
  server : Server N M

variable {N M : Type} (next : N → N)

namespace Server

def nextNumber (server : Server N M) : N :=
  next^[server.waiting.length] server.executed

def happen (server : Server N M) : Event M → Server N M
  | .execute count =>
      ⟨next^[min count server.waiting.length] server.executed,
        server.waiting.drop count⟩
  | .drop kept => { server with waiting := server.waiting.take kept }
  | .foreign message =>
      { server with waiting := server.waiting ++ [message] }

def happenAll (server : Server N M) (events : List (Event M)) : Server N M :=
  events.foldl (happen next) server

end Server

namespace Link

variable [DecidableEq N]

/-- Whether the server takes the message. -/
def taken (link : Link N M) (exchange : Exchange M) : Bool :=
  decide (exchange.delivery ≠ .requestLost) && exchange.admitted &&
    decide (link.number = link.server.nextNumber next)

/-- One attempt, and whether the client learns that it was taken. -/
def attempt (link : Link N M) (message : M) (exchange : Exchange M) :
    Link N M × Bool :=
  let server :=
    if link.taken next exchange then
      { link.server with waiting := link.server.waiting ++ [message] }
    else link.server
  match exchange.delivery with
  | .requestLost => (link, false)
  | .answerLost => (⟨link.number, server⟩, false)
  | .answered =>
      if link.taken next exchange then (⟨next link.number, server⟩, true)
      else
        let server := server.happenAll next exchange.meanwhile
        (⟨if exchange.numberAnswered then server.executed else link.number,
          server⟩, false)

/-- The client knows the number which the server expects. -/
def InStep (link : Link N M) : Prop :=
  link.number = link.server.nextNumber next

variable {next} {link : Link N M} {message : M} {exchange : Exchange M}

theorem taken_iff :
    link.taken next exchange = true ↔
      exchange.delivery ≠ .requestLost ∧ exchange.admitted = true ∧
        link.InStep next := by
  simp [taken, InStep, and_assoc]

theorem attempt_of_taken (htaken : link.taken next exchange = true)
    (hanswered : exchange.delivery = .answered) :
    link.attempt next message exchange =
      (⟨next link.number, { link.server with
        waiting := link.server.waiting ++ [message] }⟩, true) := by
  simp [attempt, htaken, hanswered]

theorem attempt_of_refused (hrefused : link.taken next exchange = false)
    (hanswered : exchange.delivery = .answered) :
    link.attempt next message exchange =
      (⟨if exchange.numberAnswered then
          (link.server.happenAll next exchange.meanwhile).executed
        else link.number,
        link.server.happenAll next exchange.meanwhile⟩, false) := by
  simp [attempt, hrefused, hanswered]

/-- A message which the client knows to be taken leaves the two in step. -/
theorem InStep.attempt_of_taken (hstep : link.InStep next)
    (htaken : link.taken next exchange = true)
    (hanswered : exchange.delivery = .answered) :
    (link.attempt next message exchange).1.InStep next := by
  rw [Link.attempt_of_taken htaken hanswered]
  unfold InStep Server.nextNumber at *
  simp [hstep, Function.iterate_succ_apply']

end Link

/-! ## Recovery -/

/-- The waiting messages are executed in their order or given up together, and
nobody else uses the client's identity. -/
def Event.Steady : Event M → Prop
  | .execute _ => True
  | .drop kept => kept = 0
  | .foreign _ => False

/-- The client knows the next number, or can learn it by asking. -/
def Link.Recoverable (next : N → N) (link : Link N M) : Prop :=
  link.InStep next ∨ link.server.waiting = []

namespace Server

variable {next : N → N} {server : Server N M} {event : Event M}

/-- Executing waiting messages does not change the number expected. -/
theorem nextNumber_execute (count : ℕ) :
    (server.happen next (.execute count)).nextNumber next =
      server.nextNumber next := by
  unfold nextNumber happen
  rw [← Function.iterate_add_apply, List.length_drop]
  congr 1
  omega

theorem happen_of_idle (hsteady : event.Steady)
    (hidle : server.waiting = []) : server.happen next event = server := by
  cases event with
  | execute count =>
      cases server
      simp_all [happen]
  | drop kept =>
      cases server
      simp_all [happen]
  | foreign message => exact absurd hsteady id

theorem happenAll_of_idle {events : List (Event M)}
    (hsteady : ∀ event ∈ events, event.Steady)
    (hidle : server.waiting = []) :
    server.happenAll next events = server := by
  induction events with
  | nil => rfl
  | cons event events ih =>
      rw [happenAll, List.foldl_cons,
        happen_of_idle (hsteady _ List.mem_cons_self) hidle]
      exact ih fun other hother =>
        hsteady other (List.mem_cons_of_mem _ hother)

end Server

namespace Link.Recoverable

variable {next : N → N} {link : Link N M}

theorem happen (hlink : link.Recoverable next) {event : Event M}
    (hsteady : event.Steady) :
    Recoverable next ⟨link.number, link.server.happen next event⟩ := by
  rcases hlink with hstep | hidle
  · cases event with
    | execute count =>
        left
        rw [InStep, Server.nextNumber_execute]
        exact hstep
    | drop kept =>
        right
        rw [show kept = 0 from hsteady]
        rfl
    | foreign message => exact absurd hsteady id
  · right
    rw [Server.happen_of_idle hsteady hidle]
    exact hidle

theorem happenAll (hlink : link.Recoverable next) {events : List (Event M)}
    (hsteady : ∀ event ∈ events, event.Steady) :
    Recoverable next ⟨link.number, link.server.happenAll next events⟩ := by
  induction events generalizing link with
  | nil => exact hlink
  | cons event events ih =>
      have hnext := hlink.happen (hsteady event List.mem_cons_self)
      exact ih hnext fun other hother =>
        hsteady other (List.mem_cons_of_mem _ hother)

end Link.Recoverable

/-- The server answers, has no objection of its own, and is left alone. -/
structure Exchange.Responsive (exchange : Exchange M) : Prop where
  answered : exchange.delivery = .answered
  admitted : exchange.admitted = true
  numberAnswered : exchange.numberAnswered = true
  steady : ∀ event ∈ exchange.meanwhile, event.Steady

variable [DecidableEq N] {next : N → N} {link : Link N M}
  {exchange : Exchange M}

/-- A responsive server takes the message if the client knows the number. -/
theorem Link.InStep.taken (hstep : link.InStep next)
    (hexchange : exchange.Responsive) : link.taken next exchange = true := by
  rw [taken_iff, hexchange.answered]
  exact ⟨by simp, hexchange.admitted, hstep⟩

/-- One exchange with a responsive server either has the message taken or
brings the two in step, with the server as it was. -/
theorem Link.Recoverable.attempt (hlink : link.Recoverable next)
    (hexchange : exchange.Responsive) (message : M) :
    (link.taken next exchange = true ∧
        (link.attempt next message exchange).2 = true ∧
        (link.attempt next message exchange).1.InStep next ∧
        (link.attempt next message exchange).1.server.waiting =
          link.server.waiting ++ [message]) ∨
      (link.taken next exchange = false ∧
        (link.attempt next message exchange).2 = false ∧
        (link.attempt next message exchange).1.InStep next ∧
        (link.attempt next message exchange).1.server = link.server) := by
  by_cases htaken : link.taken next exchange = true
  · left
    have hstep := (taken_iff.mp htaken).2.2
    refine ⟨htaken, ?_, hstep.attempt_of_taken htaken hexchange.answered, ?_⟩
    · rw [attempt_of_taken htaken hexchange.answered]
    · rw [attempt_of_taken htaken hexchange.answered]
  · right
    have hidle : link.server.waiting = [] :=
      hlink.resolve_left fun hstep => htaken (hstep.taken hexchange)
    rw [Bool.not_eq_true] at htaken
    have hresult : link.attempt next message exchange =
        (⟨link.server.executed, link.server⟩, false) := by
      rw [attempt_of_refused htaken hexchange.answered,
        Server.happenAll_of_idle hexchange.steady hidle,
        if_pos hexchange.numberAnswered]
    rw [hresult]
    refine ⟨htaken, rfl, ?_, rfl⟩
    simp [InStep, Server.nextNumber, hidle]

end Sequenced
end Vertix

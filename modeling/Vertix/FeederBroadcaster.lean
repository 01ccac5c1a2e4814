import Vertix.FeederPriceLoop
import Vertix.SequencedChannel
import Mathlib.Tactic

/-!
# The broadcaster

The broadcaster turns a batch into one transaction, signs it with the sequence
number which it remembers, and hands it to a node.  A transaction which the
node has taken counts the number on.  After a rejection the broadcaster asks
for the account again; the answer is about the last block and not about the
transactions which are still waiting.  A request which fails changes nothing,
whether or not the node has seen it.  Together with the node the broadcaster
is a client of `Sequenced`.
-/

namespace Vertix.Feeder

open Sequenced (Server Exchange Event Link)

/-- What is signed: the account and sequence number, the fee, the gas limit
and the messages. -/
structure SignedTx where
  chainID : String
  accNum : UInt64
  seq : UInt64
  fees : List (String × SdkInt)
  gas : UInt64
  msgs : List Oracle.MsgSubmitFeed

structure TxResponse where
  code : UInt32
  txHash : String
  rawLog : String

/-- `Account` as the auth query answers it. -/
structure Account where
  number : UInt64
  sequence : UInt64

structure GRPCBroadcaster where
  cfg : Config
  feederAddr : String
  accNum : UInt64
  seq : UInt64

/-- The hash and the error which `SubmitFeeds` returns. -/
structure SubmitResult where
  txHash : String
  err : Option String
  deriving DecidableEq

def SubmitResult.outcome (result : SubmitResult) : Except String String :=
  match result.err with
  | none => .ok result.txHash
  | some err => .error err

/-! ## One call -/

abbrev CoinParser := String → Except String (List (String × SdkInt))

/-- The gas limit of the transaction.  `"auto"` only sets options of the
factory which building and signing do not look at, so the limit stays zero;
`Uint64` panics outside its range. -/
def gasLimit (sdk : Sdk) (cfg : Config) : Exec UInt64 :=
  if cfg.gas = "auto" then .ok 0
  else do
    let gas ← Exec.ofOption (sdk.newIntFromString cfg.gas)
    if 0 ≤ gas.raw ∧ gas.raw < 2 ^ 64 then
      return UInt64.ofNat gas.raw.toNat
    else Exec.panicked

namespace GRPCBroadcaster

def refreshAccount (b : GRPCBroadcaster) (answer : Except String Account) :
    Except String GRPCBroadcaster := do
  let acc ← answer
  return { b with accNum := acc.number, seq := acc.sequence }

/-- The part of `SubmitFeeds` before the transaction is signed. -/
def prepare (sdk : Sdk) (parseCoinsNormalized : CoinParser)
    (b : GRPCBroadcaster) (feeds : List FeedSubmission) : Exec SignedTx := do
  let msgs ← Exec.ofExcept
    (buildMsgs sdk b.feederAddr b.cfg.validator feeds)
  let gas ← gasLimit sdk b.cfg
  return ⟨b.cfg.chainID, b.accNum, b.seq,
    (parseCoinsNormalized b.cfg.fees).toOption.getD [], gas, msgs⟩

/-- What the surroundings answer during one call. -/
structure Answers where
  /-- Building, signing and encoding. -/
  signed : Except String Unit
  broadcast : Except String TxResponse
  account : Except String Account

/-- The part of `SubmitFeeds` from the signature on. -/
def transmit (b : GRPCBroadcaster) (answers : Answers) :
    GRPCBroadcaster × SubmitResult :=
  match answers.signed with
  | .error err => (b, ⟨"", some err⟩)
  | .ok () =>
      match answers.broadcast with
      | .error err => (b, ⟨"", some err⟩)
      | .ok res =>
          if res.code ≠ 0 then
            ((b.refreshAccount answers.account).toOption.getD b,
              ⟨res.txHash, some ("tx rejected, code " ++
                toString res.code.toNat ++ ": " ++ res.rawLog)⟩)
          else ({ b with seq := b.seq + 1 }, ⟨res.txHash, none⟩)

def submitFeeds (sdk : Sdk) (parseCoinsNormalized : CoinParser)
    (b : GRPCBroadcaster) (answers : SignedTx → Answers)
    (feeds : List FeedSubmission) : Exec (GRPCBroadcaster × SubmitResult) :=
  match b.prepare sdk parseCoinsNormalized feeds with
  | .error (.error err) => .ok (b, ⟨"", some err.text⟩)
  | .error .panicked => .error .panicked
  | .ok tx => .ok (b.transmit (answers tx))

end GRPCBroadcaster

/-- The batch consists of messages which pass their basic checks. -/
def GRPCBroadcaster.builds (sdk : Sdk) (b : GRPCBroadcaster)
    (feeds : List FeedSubmission) : Bool :=
  (buildMsgs sdk b.feederAddr b.cfg.validator feeds).isOk

theorem GRPCBroadcaster.prepare_cases {sdk : Sdk}
    {b : GRPCBroadcaster} {gas : UInt64}
    (hgas : gasLimit sdk b.cfg = .ok gas) (parseCoinsNormalized : CoinParser)
    (feeds : List FeedSubmission) :
    (b.builds sdk feeds = true ∧
        ∃ tx, b.prepare sdk parseCoinsNormalized feeds = .ok tx) ∨
      (b.builds sdk feeds = false ∧
        ∃ err, b.prepare sdk parseCoinsNormalized feeds =
          .error (.error err)) := by
  unfold builds prepare
  cases buildMsgs sdk b.feederAddr b.cfg.validator feeds with
  | ok msgs =>
      left
      rw [hgas]
      exact ⟨rfl, _, rfl⟩
  | error err => exact Or.inr ⟨rfl, err, rfl⟩

/-! ## The node -/

/-- The account of the feeder at a node: its number, and the sequence number
with the transactions which wait for a block. -/
structure Node where
  accNum : UInt64
  server : Server UInt64 SignedTx

/-- One request to the node, and the texts of its answers. -/
structure Turn where
  exchange : Exchange SignedTx
  failure : String
  txHash : String
  code : UInt32
  code_ne_zero : code ≠ 0
  rawLog : String

/-- The broadcaster and the node. -/
structure Station where
  broadcaster : GRPCBroadcaster
  node : Node

namespace Station

def link (s : Station) : Link UInt64 SignedTx :=
  ⟨s.broadcaster.seq, s.node.server⟩

/-- Sequence numbers are 64 bits wide. -/
def nextSeq (seq : UInt64) : UInt64 := seq + 1

/-- Whether the node takes a transaction which the broadcaster sends now. -/
def taken (s : Station) (turn : Turn) : Bool :=
  s.link.taken nextSeq turn.exchange

/-- What the broadcaster sees of a turn. -/
def answers (s : Station) (turn : Turn) : GRPCBroadcaster.Answers where
  signed := .ok ()
  broadcast :=
    if turn.exchange.delivery = .answered then
      .ok (if s.taken turn then ⟨0, turn.txHash, turn.rawLog⟩
        else ⟨turn.code, turn.txHash, turn.rawLog⟩)
    else .error turn.failure
  account :=
    if turn.exchange.numberAnswered then
      .ok ⟨s.node.accNum,
        (s.node.server.happenAll nextSeq turn.exchange.meanwhile).executed⟩
    else .error turn.failure

/-- A call of `SubmitFeeds`: what it returns, whether the node has taken the
transaction, and whether the answer got lost. -/
structure Attempt where
  result : SubmitResult
  taken : Bool
  answerLost : Bool

/-- One call of `SubmitFeeds` against the node. -/
def call (sdk : Sdk) (parseCoinsNormalized : CoinParser) (s : Station)
    (turn : Turn) (feeds : List FeedSubmission) :
    Exec (Station × Attempt) := do
  let (broadcaster, result) ← s.broadcaster.submitFeeds sdk
    parseCoinsNormalized (fun _ => s.answers turn) feeds
  match s.broadcaster.prepare sdk parseCoinsNormalized feeds with
  | .ok tx =>
      let server := (s.link.attempt nextSeq tx turn.exchange).1.server
      return (⟨broadcaster, { s.node with server := server }⟩,
        ⟨result, s.taken turn, turn.exchange.delivery = .answerLost⟩)
  | .error _ => return (⟨broadcaster, s.node⟩, ⟨result, false, false⟩)

/-- What happens at the node between two polls. -/
def happenAll (s : Station) (events : List (Event SignedTx)) : Station :=
  { s with node :=
    { s.node with server := s.node.server.happenAll nextSeq events } }

/-- The two with another number and server. -/
def withLink (s : Station) (link : Link UInt64 SignedTx) : Station :=
  ⟨{ s.broadcaster with seq := link.number },
    { s.node with server := link.server }⟩

/-- The broadcaster knows its account number. -/
def Primed (s : Station) : Prop := s.broadcaster.accNum = s.node.accNum

/-! ## The call as an attempt of the link -/

variable {sdk : Sdk} {parseCoinsNormalized : CoinParser} {s s' : Station}
  {turn : Turn} {feeds : List FeedSubmission} {attempt : Attempt}

theorem err_transmit_iff :
    (s.broadcaster.transmit (s.answers turn)).2.err = none ↔
      turn.exchange.delivery = .answered ∧ s.taken turn = true := by
  by_cases hanswered : turn.exchange.delivery = .answered
  · by_cases htaken : s.taken turn = true
    · simp [GRPCBroadcaster.transmit, answers, hanswered, htaken]
    · simp [GRPCBroadcaster.transmit, answers, hanswered, htaken,
        turn.code_ne_zero]
  · simp [GRPCBroadcaster.transmit, answers, hanswered]

/-- The broadcaster remembers the number as the client of the link does. -/
theorem Primed.transmit (hprimed : s.Primed) (turn : Turn) (tx : SignedTx) :
    (s.broadcaster.transmit (s.answers turn)).1 =
      { s.broadcaster with
        seq := (s.link.attempt nextSeq tx turn.exchange).1.number } := by
  cases hdelivery : turn.exchange.delivery with
  | requestLost =>
      simp [GRPCBroadcaster.transmit, answers, Link.attempt, hdelivery, link]
  | answerLost =>
      simp [GRPCBroadcaster.transmit, answers, Link.attempt, hdelivery, link]
  | answered =>
      by_cases htaken : s.taken turn = true
      · rw [Link.attempt_of_taken htaken hdelivery]
        simp [GRPCBroadcaster.transmit, answers, hdelivery, htaken, link,
          nextSeq]
      · rw [Bool.not_eq_true] at htaken
        rw [Link.attempt_of_refused htaken hdelivery]
        by_cases hnumber : turn.exchange.numberAnswered = true
        · rw [Primed] at hprimed
          simp [GRPCBroadcaster.transmit, GRPCBroadcaster.refreshAccount,
            answers, hdelivery, htaken, hnumber, turn.code_ne_zero, hprimed,
            link, Except.toOption]
        · simp [GRPCBroadcaster.transmit, GRPCBroadcaster.refreshAccount,
            answers, hdelivery, htaken, hnumber, turn.code_ne_zero, link,
            Except.toOption]

/-- A batch which cannot be built reaches nobody; any other is one attempt of
the link. -/
theorem call_cases
    (hcall : s.call sdk parseCoinsNormalized turn feeds = .ok (s', attempt)) :
    (∃ err, s.broadcaster.prepare sdk parseCoinsNormalized feeds =
          .error (.error err) ∧
        s' = s ∧ attempt = ⟨⟨"", some err.text⟩, false, false⟩) ∨
      ∃ tx, s.broadcaster.prepare sdk parseCoinsNormalized feeds = .ok tx ∧
        s' = ⟨(s.broadcaster.transmit (s.answers turn)).1,
          { s.node with
            server := (s.link.attempt nextSeq tx turn.exchange).1.server }⟩ ∧
        attempt = ⟨(s.broadcaster.transmit (s.answers turn)).2, s.taken turn,
          turn.exchange.delivery = .answerLost⟩ := by
  unfold call GRPCBroadcaster.submitFeeds at hcall
  cases hprepare : s.broadcaster.prepare sdk parseCoinsNormalized feeds with
  | error failure =>
      rw [hprepare] at hcall
      cases failure with
      | error err =>
          cases hcall
          exact Or.inl ⟨err, rfl, rfl, rfl⟩
      | panicked => cases hcall
  | ok tx =>
      rw [hprepare] at hcall
      cases hcall
      exact Or.inr ⟨tx, rfl, rfl, rfl⟩

/-- The broadcaster reports a transaction exactly when the node has taken it
and the answer arrived. -/
theorem taken_of_call
    (hcall : s.call sdk parseCoinsNormalized turn feeds = .ok (s', attempt)) :
    (attempt.result.err = none → attempt.taken = true) ∧
      (attempt.taken = true →
        attempt.result.err = none ∨ attempt.answerLost = true) := by
  rcases call_cases hcall with ⟨err, -, -, rfl⟩ | ⟨tx, -, -, rfl⟩
  · simp
  · simp only [err_transmit_iff]
    refine ⟨And.right, fun htaken => ?_⟩
    have hrequest := (Link.taken_iff.mp htaken).1
    cases hdelivery : turn.exchange.delivery with
    | requestLost => exact absurd hdelivery hrequest
    | answerLost => simp
    | answered => simp [htaken]

theorem Primed.call_of_prepare (hprimed : s.Primed) (turn : Turn)
    {tx : SignedTx}
    (hprepare : s.broadcaster.prepare sdk parseCoinsNormalized feeds =
      .ok tx) :
    s.call sdk parseCoinsNormalized turn feeds =
      .ok (s.withLink (s.link.attempt nextSeq tx turn.exchange).1,
        ⟨(s.broadcaster.transmit (s.answers turn)).2, s.taken turn,
          turn.exchange.delivery = .answerLost⟩) := by
  unfold call GRPCBroadcaster.submitFeeds withLink
  rw [hprepare, ← hprimed.transmit turn tx]
  rfl

end Station

end Vertix.Feeder

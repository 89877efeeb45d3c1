import Mathlib.Data.Finset.Basic
import OrderLifecycle.Framework.Timeline
import OrderLifecycle.Outbox.Relay

open Framework

namespace OrderLifecycle.WakeUp

abbrev QueryRunner := Nat

/-- What happens in one process, transactions and drains numbered as they start. -/
inductive Moment
  | committed (txn : Nat)
  | seen (txn : Nat) (rows : List Uuid)
  | rolledBack (txn : Nat)
  | nudged (txn : Nat)
  | began (drain : Nat)
  | selected (drain : Nat)
  | ended (drain : Nat)
  | failed (drain : Nat)
  deriving DecidableEq, Repr

/-- What a query runner is at: no transaction; one that is open, with the outbox rows it has
inserted; one that the server has committed; a row written without one. In the last two the
subscriber has yet to be called. -/
inductive Session
  | idle
  | active (txn : Nat) (rows : List Uuid)
  | committed (txn : Nat) (rows : List Uuid)
  | written (txn : Nat) (row : Uuid)
  deriving DecidableEq, Repr

def Session.isTransactionActive : Session → Bool
  | .active _ _ => true
  | _ => false

/-- Where a call of `relay()` waits: for `drainOnce` to issue its `SELECT`, or for the rest of the
batch. -/
inductive Point
  | opening
  | reading
  deriving DecidableEq, Repr

/-- A call of `relay()` that awaits `drainOnce`. -/
structure Frame where
  drain : Nat
  point : Point
  deriving DecidableEq, Repr

structure Process where
  runners : QueryRunner → Session
  pending : Finset QueryRunner
  draining : Bool
  drainAgain : Bool
  /-- The `setImmediate` callbacks that have yet to run. -/
  immediates : Nat
  frames : List Frame
  txns : Nat
  drains : Nat
  log : List Moment

def Process.start : Process where
  runners := fun _ => .idle
  pending := ∅
  draining := false
  drainAgain := false
  immediates := 0
  frames := []
  txns := 0
  drains := 0
  log := []

def Process.note (s : Process) (m : Moment) : Process := { s with log := s.log ++ [m] }

def Process.session (s : Process) (q : QueryRunner) (x : Session) : Process :=
  { s with runners := Function.update s.runners q x }

/-! ### `OutboxRelayService` -/

/-- `setImmediate(() => void this.relay())`. -/
def Process.schedule (s : Process) : Process := { s with immediates := s.immediates + 1 }

def Process.nudge (s : Process) (txn : Nat) : Process :=
  let s := s.note (.nudged txn)
  if s.draining then { s with drainAgain := true } else s.schedule

/-- `relay`, up to its first `await`. -/
def Process.relay (s : Process) : Process :=
  if s.draining then s
  else
    { s.note (.began s.drains) with
      draining := true
      frames := ⟨s.drains, .opening⟩ :: s.frames
      drains := s.drains + 1 }

/-- `relay`, from the `finally` on. -/
def Process.finish (s : Process) (frame : Frame) : Process :=
  let s := { s with draining := false, frames := s.frames.erase frame }
  if s.drainAgain then { s with drainAgain := false }.schedule else s

/-- The rest of a `relay` whose `drainOnce` has claimed so many rows. -/
def Process.resume (s : Process) (frame : Frame) (claimed : Nat) : Process :=
  if claimed = Outbox.relayBatchSize then
    { s with frames := ⟨frame.drain, .opening⟩ :: s.frames.erase frame }
  else (s.note (.ended frame.drain)).finish frame

/-! ### `OutboxCommitSubscriber` -/

def Process.afterInsert (s : Process) (q : QueryRunner) (txn : Nat) : Process :=
  if (s.runners q).isTransactionActive then { s with pending := insert q s.pending }
  else s.nudge txn

def Process.afterTransactionCommit (s : Process) (q : QueryRunner) (txn : Nat) : Process :=
  let found := q ∈ s.pending
  let s := { s with pending := s.pending.erase q }
  if found then s.nudge txn else s

def Process.afterTransactionRollback (s : Process) (q : QueryRunner) : Process :=
  { s with pending := s.pending.erase q }

/-! ### The event loop -/

inductive Event
  | startTransaction (q : QueryRunner)
  | insert (q : QueryRunner) (row : Uuid)
  | commit (q : QueryRunner)
  | callback (q : QueryRunner)
  | rollback (q : QueryRunner)
  | tick
  | immediate
  | select (frame : Frame)
  | resolve (frame : Frame) (claimed : Nat)
  | reject (frame : Frame)
  deriving DecidableEq, Repr

/-- One turn of the event loop; `none` when the event cannot happen. -/
def Process.step (s : Process) : Event → Option Process
  | .startTransaction q =>
    match s.runners q with
    | .idle => some { s.session q (.active s.txns []) with txns := s.txns + 1 }
    | _ => none
  | .insert q row =>
    match s.runners q with
    | .idle =>
      some { (s.session q (.written s.txns row)).note (.committed s.txns) with txns := s.txns + 1 }
    | .active txn rows => some ((s.session q (.active txn (rows ++ [row]))).afterInsert q txn)
    | _ => none
  | .commit q =>
    match s.runners q with
    | .active txn rows => some ((s.session q (.committed txn rows)).note (.committed txn))
    | _ => none
  | .callback q =>
    match s.runners q with
    | .committed txn rows =>
      some (((s.session q .idle).note (.seen txn rows)).afterTransactionCommit q txn)
    | .written txn row =>
      some (((s.session q .idle).note (.seen txn [row])).afterInsert q txn)
    | _ => none
  | .rollback q =>
    match s.runners q with
    | .active txn _ =>
      some (((s.session q .idle).note (.rolledBack txn)).afterTransactionRollback q)
    | _ => none
  | .tick => some s.relay
  | .immediate =>
    if s.immediates = 0 then none else some { s with immediates := s.immediates - 1 }.relay
  | .select frame =>
    if frame ∈ s.frames ∧ frame.point = .opening then
      some ({ s with frames := ⟨frame.drain, .reading⟩ :: s.frames.erase frame }.note
        (.selected frame.drain))
    else none
  | .resolve frame claimed =>
    if frame ∈ s.frames ∧ frame.point = .reading then some (s.resume frame claimed) else none
  | .reject frame =>
    if frame ∈ s.frames then some ((s.note (.failed frame.drain)).finish frame) else none

def run (events : List Event) : Option Process := events.foldlM Process.step .start

def Reachable (s : Process) : Prop := ∃ events, run events = some s

/-- No drain runs and none is scheduled. -/
def Process.Idle (s : Process) : Prop := s.frames = [] ∧ s.immediates = 0

instance (s : Process) : Decidable s.Idle := inferInstanceAs (Decidable (_ ∧ _))

/-- The subscriber has seen the commit of `row`, which `txn` inserted. -/
def Seen (log : List Moment) (txn : Nat) (row : Uuid) : Prop :=
  ∃ rows, .seen txn rows ∈ log ∧ row ∈ rows

/-- The first `SELECT` of `drain` was issued after the commit of `txn`. -/
def Covers (log : List Moment) (txn drain : Nat) : Prop :=
  After log (.committed txn) (.selected drain)

/-- `drain` began after the commit of `txn` and failed before it could issue a `SELECT`. -/
def FailedUnread (log : List Moment) (txn drain : Nat) : Prop :=
  After log (.committed txn) (.began drain) ∧ .failed drain ∈ log ∧ .selected drain ∉ log

end OrderLifecycle.WakeUp

import Mathlib.Data.List.Sort
import OrderLifecycle.Messaging.Delivery
import OrderLifecycle.Framework.Batch

open Framework

namespace OrderLifecycle.Outbox

/-- A row of `outbox_messages`: the message it stands for and the columns that only the relay
looks at. -/
structure OutboxRow where
  message : OutboxMessageEntity
  createdAt : Nat
  publishedAt : Option Nat
  deriving DecidableEq, Repr

/-- A transaction: the thread and how many it had ended before. -/
abbrev TxnId := Tid × Nat

/-- One call of `EventPublisher.publish` and whether it succeeded. -/
structure Publication where
  drain : TxnId
  message : OutboxMessageEntity
  ok : Bool
  deriving DecidableEq, Repr

/-- The table, what was published so far, how each transaction ended (committed or not) and the
counter `outbox_relayed`. -/
structure Relay where
  db : Store (fun _ : Uuid => OutboxRow) Unit
  sent : List Publication
  finished : Tid → Nat
  ended : List (TxnId × Bool)
  relayed : Nat

inductive RelayError
  | database
  | broker
  | business
  deriving DecidableEq, Repr

abbrev RelayAction (α : Type) := Action Relay Choice RelayError α

/-- The transaction that `t` has open. -/
def Relay.current (s : Relay) (t : Tid) : TxnId := (t, s.finished t)

/-- Notes how the open transaction of `t` ends. -/
def Relay.close (s : Relay) (t : Tid) (db : Store (fun _ : Uuid => OutboxRow) Unit)
    (committed : Bool) : Relay :=
  match s.db.txns t with
  | none => s
  | some _ => { s with
      db := db
      finished := Function.update s.finished t (s.finished t + 1)
      ended := s.ended ++ [(s.current t, committed)] }

def Relay.rollback (s : Relay) (t : Tid) : Relay := s.close t (s.db.rollback t) false

def Relay.commit (s : Relay) (t : Tid) : Relay := s.close t (s.db.commit t) (!s.db.aborted t)

/-! ### Statements -/

/-- One SQL statement; an error spoils the transaction. -/
def sql {α : Type} (f : Tid → Choice → Relay → Option (α × Relay)) : RelayAction α :=
  stmt fun t ch s =>
    if s.db.aborted t then some (.error .database, s)
    else if ch.fail then some (.error .database, { s with db := s.db.abort t })
    else (f t ch s).map fun r => (.ok r.1, r.2)

def startTransaction : RelayAction Unit :=
  stmt fun t ch s =>
    if ch.fail then some (.error .database, s)
    else some (.ok (), { s with db := s.db.begin t })

def commitTransaction : RelayAction Unit :=
  stmt fun t ch s =>
    if ch.fail then some (.error .database, s.rollback t) else some (.ok (), s.commit t)

def rollbackTransaction : RelayAction Unit := stmt fun t _ s => some (.ok (), s.rollback t)

def transaction {α : Type} (work : RelayAction α) : RelayAction α :=
  .within startTransaction commitTransaction rollbackTransaction work

/-- The `INSERT` of `OutboxService.enqueue`, with a generated id. -/
def enqueue (routingKey : RoutingKey) (payload : OrderEvent) : RelayAction Unit :=
  sql fun t ch s =>
    (s.db.insert t ch.fresh
      { message := toOutbox routingKey payload ch.fresh ch
        createdAt := ch.now
        publishedAt := none } []).bind fun r => if r.1 then some ((), { s with db := r.2 }) else none

/-- `RELAY_BATCH_SIZE`. -/
def relayBatchSize : Nat := 50

/-- `WHERE "publishedAt" IS NULL ORDER BY "createdAt" ASC LIMIT 50`, over the rows that are not
locked. -/
def nextBatch (s : Relay) (t : Tid) : List OutboxRow :=
  let found := s.db.unlocked t fun _ row => row.publishedAt.isNone
  let sorted := (found.map Sigma.snd).insertionSort fun a b => a.createdAt ≤ b.createdAt
  sorted.take relayBatchSize

/-- `SELECT … FOR UPDATE SKIP LOCKED`: a lock is a write that changes nothing. -/
def claimBatch : RelayAction (List OutboxRow) :=
  sql fun t _ s =>
    let batch := nextBatch s t
    (s.db.updateAll t (fun _ row => row) (batch.map (·.message.id))).map fun db =>
      (batch, { s with db := db })

/-- `EventPublisher.publish`. -/
def publish (row : OutboxRow) : RelayAction Unit :=
  stmt fun t ch s =>
    some (if ch.fail then .error .broker else .ok (),
      { s with sent := s.sent ++ [⟨s.current t, row.message, !ch.fail⟩] })

/-- `manager.update(OutboxMessageEntity, published, { publishedAt: new Date() })`. -/
def markPublished (published : List Uuid) : RelayAction Unit :=
  sql fun t ch s =>
    (s.db.updateAll t (fun _ row => { row with publishedAt := some ch.now }) published).map
      fun db => ((), { s with db := db })

def recordOutboxRelayed (count : Nat) : RelayAction Unit :=
  stmt fun _ _ s => some (.ok (), { s with relayed := s.relayed + count })

/-! ### `OutboxRelayService` -/

/-- The `for` loop of `drainOnce`: a publish that fails is logged and left for the next tick. -/
def publishBatch : List OutboxRow → List Uuid → RelayAction (List Uuid)
  | [], published => return published
  | row :: batch, published => do
    let published ← tryCatch
      (do
        publish row
        return published ++ [row.message.id])
      fun _ => return published
    publishBatch batch published

/-- Publishes one batch; returns how many rows were claimed. -/
def drainOnce : RelayAction Nat := do
  let relayed ← transaction do
    let batch ← claimBatch
    let published ← publishBatch batch []
    let _ ← (if 0 < published.length then markPublished published else return ())
    return (published.length, batch.length)
  let _ ← (if 0 < relayed.1 then recordOutboxRelayed relayed.1 else return ())
  return relayed.2

/-- `while ((await this.drainOnce()) === RELAY_BATCH_SIZE);`, at most `ticks` rounds of it. -/
def drainLoop : Nat → RelayAction Unit
  | 0 => return ()
  | ticks + 1 => do
    let claimed ← drainOnce
    if claimed = relayBatchSize then drainLoop ticks else return ()

/-- An error ends the tick and is logged. -/
def relay (ticks : Nat) : RelayAction Unit := tryCatch (drainLoop ticks) fun _ => return ()

/-! ### Transactions that write events -/

def enqueueAll : List (RoutingKey × OrderEvent) → RelayAction Unit
  | [] => return ()
  | e :: es => do
    enqueue e.1 e.2
    enqueueAll es

/-- A business transaction, as far as this table goes: its events, and whether it throws in the
end. -/
def business (events : List (RoutingKey × OrderEvent)) (throws : Bool) : RelayAction Unit :=
  transaction do
    enqueueAll events
    if throws then throw .business else return ()

/-! ### The system -/

inductive RelayCall
  | business (events : List (RoutingKey × OrderEvent)) (throws : Bool)
  | relay (ticks : Nat)
  deriving DecidableEq, Repr

/-- Any number of instances; each tick and each business transaction is a thread. -/
def relaySystem : System Relay Choice RelayCall Empty (Except RelayError Unit) where
  body
    | .business events throws => (business events throws).run
    | .relay ticks => (relay ticks).run
  enabled := fun _ _ => true
  env := nofun
  crash := fun t s => s.rollback t

/-- An empty table. -/
def Relay.empty : Relay where
  db := Store.ofRows [] (fun _ => none) .nil fun _ h => absurd rfl h
  sent := []
  finished := fun _ => 0
  ended := []
  relayed := 0

end OrderLifecycle.Outbox

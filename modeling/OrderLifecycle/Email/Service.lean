import OrderLifecycle.Framework.Zoom
import OrderLifecycle.Consumers
import OrderLifecycle.Messaging.Broker

open Framework

namespace OrderLifecycle.Email

/-- How the text of a notification ends: ` completed`, or ` failed (reason)` with whatever
`reason` the event has. -/
inductive Suffix
  | completed
  | failed (reason : Option String)
  deriving DecidableEq, Repr

/-- `Email to user …: order … …`. -/
structure Notification where
  userId : UserId
  orderId : OrderId
  suffix : Suffix
  deriving DecidableEq, Repr

/-- What the deliveries did: found no inbox record of a message, notified. -/
inductive MailDeed
  | unprocessed (messageId : Uuid)
  | sent (messageId : Option Uuid) (notification : Notification)
  deriving DecidableEq, Repr

/-- The database and the history of the notifications. -/
structure Mailer where
  world : World
  deeds : List (Tid × MailDeed)

def Mailer.note (s : Mailer) (t : Tid) (deed : MailDeed) : Mailer :=
  { s with deeds := s.deeds ++ [(t, deed)] }

abbrev MailAction (α : Type) := Action Mailer Choice AppError α

def worldPart : Part Mailer World where
  get := Mailer.world
  put _ s w := { s with world := w }

def onWorld {α : Type} (x : Service α) : MailAction α := Action.zoom worldPart x

def emailQueue : String := "email.notifications"

/-! ### `InboxService` and `processEventOnce`, for work that notifies -/

def transaction {α : Type} (work : MailAction α) : MailAction α :=
  .within (onWorld startTransaction) (onWorld commitTransaction) (onWorld rollbackTransaction) work

/-- `manager.findOne(ProcessedMessageEntity, …)`. -/
def findProcessed (messageId : Uuid) (consumer : Consumer) :
    MailAction (Option ProcessedMessageEntity) :=
  stmt fun t ch s =>
    if s.world.db.aborted t then some (.error .database, s)
    else if ch.fail then some (.error .database, { s with world := { s.world with db := s.world.db.abort t } })
    else
      match s.world.db.view t (.inbox messageId consumer) with
      | none => some (.ok none, s.note t (.unprocessed messageId))
      | some row => some (.ok (some row), s)

def insertProcessed (messageId : Uuid) (consumer : Consumer) : MailAction Unit :=
  onWorld (insertRow (.inbox messageId consumer) inboxTable fun ch =>
    (⟨.date ch.now⟩ : ProcessedMessageEntity))

def runOnce (messageId : Uuid) (consumer : Consumer) (work : MailAction Unit) :
    MailAction (Option Unit) :=
  runOnceBy transaction (findProcessed messageId consumer) (insertProcessed messageId consumer) work

def processEventOnce (messageId : Option Uuid) (consumer : Consumer) (work : MailAction Unit) :
    MailAction (EventOutcome Unit) :=
  processOnceBy (fun m => onWorld (recordMetric m)) messageId consumer fun messageId =>
    runOnce messageId consumer work

/-! ### `EmailConsumer` -/

/-- `(event as OrderFailedEvent).reason`. -/
def failureReason : OrderEvent → Option String
  | .failed event => some event.reason
  | _ => none

/-- `this.logger.log(…)`, which stands for the email. -/
def send (messageId : Option Uuid) (notification : Notification) : MailAction Unit :=
  stmt fun t _ s => some (.ok (), s.note t (.sent messageId notification))

/-- What the consumer makes of a message; it tells the two events apart by the routing key. -/
def notification (msg : Amqp.Message OrderEvent) : Notification :=
  let failed := msg.routingKey == toString RoutingKey.failed
  let event := msg.content
  ⟨event.userId, event.orderId, if failed then .failed (failureReason event) else .completed⟩

def notify (msg : Amqp.Message OrderEvent) : MailAction Handled := do
  let outcome ← processEventOnce msg.messageId email (send msg.messageId (notification msg))
  match outcome with
  | .nack => return .nack
  | .skipped => return .ack
  | .processed _ => return .ack

/-- `EventPublisher.publish` of an outbox row. -/
def published (row : OutboxMessageEntity) : Amqp.Message OrderEvent where
  routingKey := toString row.routingKey
  content := row.payload
  messageId := some row.id
  headers := ⟨none, fun name => if name = "x-correlation-id" then some (toString row.correlationId) else none⟩
  deaths := 0

/-- Any number of deliveries of any messages, one after the other or at the same time. -/
def emailSystem : System Mailer Choice (Amqp.Message OrderEvent) Empty (Except AppError Handled) where
  body := fun msg => (notify msg).run
  enabled := fun _ _ => true
  env := nofun
  crash := fun t s => { s with world := { s.world with db := s.world.db.rollback t } }

end OrderLifecycle.Email

import OrderLifecycle.Database.World

open Framework

namespace OrderLifecycle

def orderExchange : String := "order_lifecycle"

def OrderEvent.routingKey : OrderEvent → RoutingKey
  | created _ => .created
  | inventoryReserved _ => .inventoryReserved
  | paymentProcessed _ => .paymentProcessed
  | completed _ => .completed
  | failed _ => .failed

/-- What `OutboxService.enqueue` saves. -/
abbrev toOutbox (routingKey : RoutingKey) (payload : OrderEvent) (id : Uuid) (ch : Choice) :
    OutboxMessageEntity :=
  ⟨id, orderExchange, routingKey, payload, ch.correlationId⟩

/-- `OutboxService.enqueue`, with the routing key that goes with the payload. -/
def enqueue (routingKey : RoutingKey) (payload : OrderEvent) : Service Unit := do
  let _ ← insertFresh .outbox fun ch id => toOutbox routingKey payload id ch
  return ()

def inboxTable : String := "processed_messages"

/-- Only a violation on the inbox table itself means that the message was processed. -/
def isInboxDuplicate : AppError → Bool
  | .uniqueViolation table => table == inboxTable
  | _ => false

section inbox

variable {σ χ α : Type}

/-- `InboxService.runOnce`, by its statements: `none` when the message was already processed. The
value of `work` is what its closure leaves behind in the variables of the caller. -/
def runOnceBy (transaction : Action σ χ AppError (Option α) → Action σ χ AppError (Option α))
    (findProcessed : Action σ χ AppError (Option ProcessedMessageEntity))
    (insertProcessed : Action σ χ AppError Unit) (work : Action σ χ AppError α) :
    Action σ χ AppError (Option α) :=
  tryCatch
    (transaction do
      let existing ← findProcessed
      if existing.isSome then return none
      else do
        let result ← work
        insertProcessed
        return some result)
    fun error => if isInboxDuplicate error then return none else throw error

inductive EventOutcome (α : Type)
  | processed (result : α)
  | skipped
  | nack

/-- `processEventOnce`, by its calls: a message without an id is dead-lettered, any other goes
through the inbox. -/
def processOnceBy (recordMetric : Metric → Action σ χ AppError Unit) (messageId : Option Uuid)
    (consumer : Consumer) (runOnce : Uuid → Action σ χ AppError (Option α)) :
    Action σ χ AppError (EventOutcome α) :=
  match messageId with
  | none => do
    recordMetric (.consumerOutcome consumer "failed")
    return .nack
  | some messageId => do
    let ran ← runOnce messageId
    match ran with
    | none => do
      recordMetric (.consumerOutcome consumer "skipped")
      return .skipped
    | some result => do
      recordMetric (.consumerOutcome consumer "processed")
      return .processed result

end inbox

def runOnce {α : Type} (messageId : Uuid) (consumer : Consumer) (work : Service α) :
    Service (Option α) :=
  runOnceBy transaction (selectRow (.inbox messageId consumer))
    (insertRow (.inbox messageId consumer) inboxTable fun ch =>
      (⟨.date ch.now⟩ : ProcessedMessageEntity))
    work

def processEventOnce {α : Type} (messageId : Option Uuid) (consumer : Consumer)
    (work : Service α) : Service (EventOutcome α) :=
  processOnceBy recordMetric messageId consumer fun messageId => runOnce messageId consumer work

end OrderLifecycle

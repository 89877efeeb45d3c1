import OrderLifecycle.Orders.StateMachine

namespace OrderLifecycle

/-- Generated ids; the code only ever compares them. -/
abbrev Uuid := Nat
abbrev OrderId := Uuid
abbrev UserId := Uuid
abbrev ProductId := Uuid

/-- A timestamp in a JavaScript object, in milliseconds: a `Date`, or the ISO string that
`JSON.stringify` makes of one. -/
inductive Timestamp
  | date (ms : Nat)
  | iso (ms : Nat)
  deriving DecidableEq, Repr

namespace Timestamp

def ms : Timestamp → Nat
  | date n => n
  | iso n => n

/-- `new Date(value)`. -/
def toDate (x : Timestamp) : Timestamp := date x.ms

/-- What `JSON.parse` gives back for it. -/
def toJson (x : Timestamp) : Timestamp := iso x.ms

end Timestamp

structure OrderItemEntity where
  productId : ProductId
  productName : String
  quantity : Nat
  deriving DecidableEq, Repr

/-- An order together with its items, which never change after `createOrder`. -/
structure OrderEntity where
  id : OrderId
  userId : UserId
  status : OrderStatus
  paymentInitiatedAt : Option Timestamp
  items : List OrderItemEntity
  createdAt : Timestamp
  updatedAt : Timestamp
  deriving DecidableEq, Repr

structure ProductEntity where
  name : String
  stock : Int
  active : Bool
  deriving DecidableEq, Repr

/-- A checked-out cart line, ready to become an order item. -/
structure OrderLine where
  productId : ProductId
  productName : String
  quantity : Nat
  deriving DecidableEq, Repr

/-- A product and a quantity, the shape reservation and restore work on. -/
structure StockLine where
  productId : ProductId
  quantity : Nat
  deriving DecidableEq, Repr

inductive RoutingKey
  | created
  | inventoryReserved
  | paymentProcessed
  | completed
  | failed
  deriving DecidableEq, Repr

instance : ToString RoutingKey where
  toString
    | .created => "order.created"
    | .inventoryReserved => "order.inventory_reserved"
    | .paymentProcessed => "order.payment_processed"
    | .completed => "order.completed"
    | .failed => "order.failed"

structure OrderCreatedEvent where
  orderId : OrderId
  userId : UserId
  items : List StockLine
  deriving DecidableEq, Repr

structure InventoryReservedEvent where
  orderId : OrderId
  userId : UserId
  deriving DecidableEq, Repr

structure PaymentProcessedEvent where
  orderId : OrderId
  userId : UserId
  deriving DecidableEq, Repr

structure OrderCompletedEvent where
  orderId : OrderId
  userId : UserId
  deriving DecidableEq, Repr

structure OrderFailedEvent where
  orderId : OrderId
  userId : UserId
  reason : String
  deriving DecidableEq, Repr

/-- The payload of an outbox row. -/
inductive OrderEvent
  | created (e : OrderCreatedEvent)
  | inventoryReserved (e : InventoryReservedEvent)
  | paymentProcessed (e : PaymentProcessedEvent)
  | completed (e : OrderCompletedEvent)
  | failed (e : OrderFailedEvent)
  deriving DecidableEq, Repr

namespace OrderEvent

def orderId : OrderEvent → OrderId
  | created e => e.orderId
  | inventoryReserved e => e.orderId
  | paymentProcessed e => e.orderId
  | completed e => e.orderId
  | failed e => e.orderId

def userId : OrderEvent → UserId
  | created e => e.userId
  | inventoryReserved e => e.userId
  | paymentProcessed e => e.userId
  | completed e => e.userId
  | failed e => e.userId

end OrderEvent

/-- An event queued for the broker; its `id` is the message id of every publish of it. -/
structure OutboxMessageEntity where
  id : Uuid
  exchange : String
  routingKey : RoutingKey
  payload : OrderEvent
  correlationId : Uuid
  deriving DecidableEq, Repr

/-- The consumer half of an inbox key: the string that a consumer calls itself by. -/
inductive Consumer
  | inventory
  | payment
  | completion
  | other (name : String)
  deriving DecidableEq, Repr

structure ProcessedMessageEntity where
  processedAt : Timestamp
  deriving DecidableEq, Repr

/-- A row of the payment ledger; `authorized = none` while the charge is in flight. -/
structure PaymentAuthorizationEntity where
  orderId : OrderId
  authorized : Option Bool
  declineReason : Option String
  createdAt : Nat
  deriving DecidableEq, Repr

/-- Outcome of a payment authorisation; the reason is set when it is declined. -/
structure PaymentResult where
  authorized : Bool
  declineReason : Option String
  deriving DecidableEq, Repr

inductive AppError
  | notFound (message : String)
  | conflict (message : String)
  | insufficientStock (productId : ProductId)
  | paymentInFlight (orderId : OrderId)
  | provider
  | database
  | uniqueViolation (table : String)
  | typeError (message : String)
  deriving DecidableEq, Repr

inductive Metric
  | orderCreated
  | orderStage (stage : String) (ms : Int)
  | terminalState (state : String)
  | orderFailure (reason : String)
  | consumerOutcome (consumer : Consumer) (outcome : String)
  | paymentOutcome (outcome : String)
  | stockReplenished (productId : ProductId) (amount : Nat)
  deriving DecidableEq, Repr

end OrderLifecycle

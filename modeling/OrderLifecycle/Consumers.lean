import OrderLifecycle.Orders.Service
import OrderLifecycle.Payment.Gateway

open Framework

namespace OrderLifecycle

/-- What a handler returns: `undefined` to acknowledge, or a `Nack` to dead-letter. -/
inductive Handled
  | ack
  | nack
  deriving DecidableEq, Repr

/-! ### `InventoryConsumer` -/

/-- The work of `reserve`: an insufficient stock is handled inside, for the `FAILED` transition
to commit. The result is `shortProductId`. -/
def reserveWork (event : OrderCreatedEvent) : Service (Option ProductId) :=
  tryCatch
    (do
      reserveStock event.orderId event.items
      let _ ← transitionOrder event.orderId .reserved
      return none)
    fun error =>
      match error with
      | .insufficientStock productId => do
        let _ ← transitionOrder event.orderId .failed
        enqueue .failed (.failed
          { orderId := event.orderId, userId := event.userId, reason := "insufficient_stock" })
        return some productId
      | error => throw error

def reserve (event : OrderCreatedEvent) (messageId : Option Uuid) : Service Handled := do
  let outcome ← processEventOnce messageId .inventory (reserveWork event)
  match outcome with
  | .nack => return .nack
  | .skipped => return .ack
  | .processed none => return .ack
  | .processed (some _) => do
    recordMetric (.orderFailure "insufficient_stock")
    return .ack

/-! ### `PaymentConsumer` -/

/-- The reason the consumer derives from a result. -/
def PaymentResult.reason (result : PaymentResult) : String :=
  result.declineReason.getD "payment_declined"

/-- The work of `authorizeAndAdvance`: the transition and its event commit together. -/
def advance (event : InventoryReservedEvent) (result : PaymentResult) : Service Unit := do
  let _ ← transitionOrder event.orderId (if result.authorized then .paid else .failed)
  if result.authorized then
    enqueue .paymentProcessed (.paymentProcessed
      { orderId := event.orderId, userId := event.userId })
  else
    enqueue .failed (.failed
      { orderId := event.orderId, userId := event.userId, reason := result.reason })

/-- The payment is authorised before the inbox transaction, so the id is checked first. -/
def authorizeAndAdvance (event : InventoryReservedEvent) (messageId : Option Uuid) :
    Service Handled :=
  match messageId with
  | none => do
    recordMetric (.consumerOutcome .payment "failed")
    return .nack
  | some messageId => do
    let result ← authorize event
    let processed ← runOnce messageId .payment (advance event result)
    match processed with
    | none => do
      recordMetric (.consumerOutcome .payment "skipped")
      return .ack
    | some _ => do
      record fun _ =>
        .consumerOutcome .payment "processed" ::
          if result.authorized then [] else [.orderFailure result.reason]
      return .ack

/-! ### `OrderCompletionConsumer` -/

def completeWork (event : PaymentProcessedEvent) : Service Unit := do
  let _ ← transitionOrder event.orderId .completed
  enqueue .completed (.completed { orderId := event.orderId, userId := event.userId })

def complete (event : PaymentProcessedEvent) (messageId : Option Uuid) : Service Handled := do
  let outcome ← processEventOnce messageId .completion (completeWork event)
  match outcome with
  | .nack => return .nack
  | .skipped => return .ack
  | .processed _ => return .ack

/-! ### `EmailConsumer` -/

/-- The name of this consumer in the inbox. -/
def email : Consumer := .other "email"

/-- The notification is a line of the log, which is no part of the world. -/
def notify (messageId : Option Uuid) : Service Handled := do
  let outcome ← processEventOnce messageId email (return ())
  match outcome with
  | .nack => return .nack
  | .skipped => return .ack
  | .processed _ => return .ack

/-! ### The system -/

/-- A request or a delivery. A message is the outbox row it was relayed from. -/
inductive Request
  | createOrder (userId : UserId) (lines : List OrderLine)
  | listOrdersForUser (userId : UserId)
  | getOrderForUser (id : OrderId) (userId : UserId)
  | initiatePayment (id : OrderId) (userId : UserId)
  | cancelOrder (id : OrderId) (userId : UserId)
  | deliver (message : OutboxMessageEntity)
  | replenishLowStock
  deriving DecidableEq, Repr

inductive Reply
  | order (order : OrderEntity)
  | orders (orders : List OrderEntity)
  | handled (outcome : Handled)
  | unit
  deriving DecidableEq, Repr

/-- The handler of the queue a message is routed to. -/
def handle (message : OutboxMessageEntity) : Service Handled :=
  match message.payload with
  | .created event => reserve event (some message.id)
  | .inventoryReserved event => authorizeAndAdvance event (some message.id)
  | .paymentProcessed event => complete event (some message.id)
  | .completed _ => notify (some message.id)
  | .failed _ => notify (some message.id)

def respond : Request → Service Reply
  | .createOrder userId lines => do
    let order ← createOrder userId lines
    return .order order
  | .listOrdersForUser userId => do
    let orders ← listOrdersForUser userId
    return .orders orders
  | .getOrderForUser id userId => do
    let order ← getOrderForUser id userId
    return .order order
  | .initiatePayment id userId => do
    let order ← initiatePayment id userId
    return .order order
  | .cancelOrder id userId => do
    let order ← cancelOrder id userId
    return .order order
  | .deliver message => do
    let outcome ← handle message
    return .handled outcome
  | .replenishLowStock => do
    replenishLowStock
    return .unit

/-- What happens without a request: the relay publishes a committed outbox row, once or more
often, and cache entries expire. -/
inductive EnvEvent
  | relay (id : Uuid)
  | expire (key : CacheKey)
  deriving DecidableEq, Repr

def relay (w : World) (id : Uuid) : Option World :=
  (w.db.rows (.outbox id)).map fun row : OutboxMessageEntity =>
    { w with messages := row :: w.messages }

/-- Requests may come at any time, a message may be delivered any number of times once it was
published, and a thread may die between any two statements. -/
def orderSystem : System World Choice Request EnvEvent (Except AppError Reply) where
  body := fun request => (respond request).run
  enabled
    | .deliver message, w => decide (message ∈ w.messages)
    | _, _ => true
  env
    | .relay id, w => relay w id
    | .expire key, w => some { w with cache := w.cache.del key }
  crash := fun t w => { w with db := w.db.rollback t }

/-- The products on sale at the start, with the stock they start from. -/
structure Catalog where
  products : List (ProductId × ProductEntity)
  nodup : (products.map Prod.fst).Nodup
  stock_nonneg : ∀ x ∈ products, 0 ≤ x.2.stock

def Catalog.find (c : Catalog) (id : ProductId) : Option ProductEntity := c.products.lookup id

def Catalog.row (c : Catalog) : (k : Key) → Option (Row k)
  | .product id => c.find id
  | _ => none

theorem Catalog.mem_of_find {c : Catalog} {id : ProductId} {p : ProductEntity}
    (h : c.find id = some p) : (id, p) ∈ c.products := by
  obtain ⟨l, r, hl, -⟩ := List.lookup_eq_some_iff.mp h
  simp [hl]

theorem Catalog.find_nonneg {c : Catalog} {id : ProductId} {p : ProductEntity}
    (h : c.find id = some p) : 0 ≤ p.stock :=
  c.stock_nonneg _ (c.mem_of_find h)

/-- Before any order: the catalogue, nothing else. -/
def World.initial (c : Catalog) (cacheEnabled : Bool) : World where
  db := Store.ofRows (c.products.map fun x => .product x.1) c.row
    (by
      have h := c.nodup
      simpa [List.Nodup, List.pairwise_map] using h)
    (by
      intro k hk
      cases k with
      | product id =>
        obtain ⟨p, hp⟩ := Option.ne_none_iff_exists'.mp hk
        exact List.mem_map.mpr ⟨(id, p), c.mem_of_find hp, rfl⟩
      | _ => exact absurd rfl hk)
  cacheEnabled := cacheEnabled
  cache := ⟨fun _ => none, fun _ => none⟩
  messages := []
  gateway := []
  metrics := []

end OrderLifecycle

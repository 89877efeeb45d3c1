import OrderLifecycle.Messaging.Delivery
import OrderLifecycle.Products.Service

open Framework

namespace OrderLifecycle

/-! ### Statements on the orders table -/

/-- `manager.save(manager.create(OrderEntity, { userId }))`: a `PENDING` order, no items yet. -/
def insertOrder (userId : UserId) : Service OrderEntity := do
  let created ← insertFresh .order fun ch id =>
    (⟨id, userId, .pending, none, [], .date ch.now, .date ch.now⟩ : OrderEntity)
  return created.2

/-- `manager.save(items)`. -/
def saveItems (orderId : OrderId) (items : List OrderItemEntity) : Service Nat :=
  updateRow (.order orderId) (fun _ => true)
    (fun _ (o : OrderEntity) => { o with items := items }) fun _ => []

/-- `UPDATE orders SET status = to WHERE id = … AND status = from`. -/
def updateStatus (orderId : OrderId) (source target : OrderStatus) : Service Nat :=
  updateRow (.order orderId) (fun o : OrderEntity => o.status == source)
    (fun ch (o : OrderEntity) => { o with status := target, updatedAt := .date ch.now })
    fun _ => []

/-- The claim of `initiatePayment`: `… WHERE status = RESERVED AND "paymentInitiatedAt" IS NULL`. -/
def claimPayment (orderId : OrderId) : Service Nat :=
  updateRow (.order orderId)
    (fun o : OrderEntity => o.status == .reserved && o.paymentInitiatedAt.isNone)
    (fun ch (o : OrderEntity) =>
      { o with paymentInitiatedAt := some (.date ch.now), updatedAt := .date ch.now })
    fun _ => [.paymentClaimed orderId]

/-- The claim of `cancelOrder`:
`… WHERE status = PENDING OR (status = RESERVED AND "paymentInitiatedAt" IS NULL)`. -/
def claimCancel (orderId : OrderId) (seen : OrderStatus) : Service Nat :=
  updateRow (.order orderId)
    (fun o : OrderEntity =>
      o.status == .pending || (o.status == .reserved && o.paymentInitiatedAt.isNone))
    (fun ch (o : OrderEntity) => { o with status := .cancelled, updatedAt := .date ch.now })
    fun o => [.cancelClaimed orderId seen o.status]

/-! ### Reads -/

/-- The cached timestamps of an order become `Date`s again, but for `paymentInitiatedAt`. -/
def rehydrateOrder (cached : OrderEntity) : OrderEntity :=
  { cached with createdAt := cached.createdAt.toDate, updatedAt := cached.updatedAt.toDate }

def orderOfUser (userId : UserId) : (k : Key) → Row k → Option OrderEntity
  | .order _, (o : OrderEntity) => if o.userId = userId then some o else none
  | _, _ => none

/-- `ORDER BY "createdAt" DESC`. -/
def newestFirst (orders : List OrderEntity) : List OrderEntity :=
  orders.mergeSort fun a b => decide (b.createdAt.ms ≤ a.createdAt.ms)

def listOrdersForUser (userId : UserId) : Service (List OrderEntity) := do
  let cached ← cacheGetUserOrders userId
  match cached with
  | some cached => return cached.map rehydrateOrder
  | none => do
    let found ← selectAll (orderOfUser userId)
    let orders := newestFirst found
    if orders.all fun order => isTerminalStatus order.status then do
      cacheSetUserOrders userId orders
      return orders
    else return orders

/-- `orderRepository.findOne({ where: { id, userId } })`. -/
def findOrderOfUser (id : OrderId) (userId : UserId) : Service (Option OrderEntity) := do
  let row ← selectRow (.order id)
  return (row : Option OrderEntity).filter fun o => o.userId == userId

/-- The second half of `getOrderForUser`, on a cache miss or another user's entry. -/
def fetchOrderForUser (id : OrderId) (userId : UserId) : Service OrderEntity := do
  let order ← findOrderOfUser id userId
  match order with
  | none => throw (.notFound "Order not found")
  | some order =>
    if isTerminalStatus order.status then do
      cacheSetOrder id order
      return order
    else return order

def getOrderForUser (id : OrderId) (userId : UserId) : Service OrderEntity := do
  let cached ← cacheGetOrder id
  match cached with
  | some cached =>
    if cached.userId = userId then return rehydrateOrder cached
    else fetchOrderForUser id userId
  | none => fetchOrderForUser id userId

/-! ### Writes -/

def createOrder (userId : UserId) (lines : List OrderLine) : Service OrderEntity := do
  let order ← transaction do
    let created ← insertOrder userId
    let items := lines.map fun line =>
      (⟨line.productId, line.productName, line.quantity⟩ : OrderItemEntity)
    let _ ← saveItems created.id items
    enqueue .created (.created
      { orderId := created.id
        userId := created.userId
        items := lines.map fun line => ⟨line.productId, line.quantity⟩ })
    return { created with items := items }
  recordMetric .orderCreated
  cacheDel [.userOrders userId]
  return order

/-- `TERMINAL_STATE_LABELS`. -/
def terminalStateLabel : OrderStatus → Option String
  | .completed => some "completed"
  | .failed => some "failed"
  | .cancelled => some "cancelled"
  | _ => none

/-- `recordStageTimings`, from the order as read before the transition. -/
def stageTimings (order : OrderEntity) (source target : OrderStatus) (now : Nat) : List Metric :=
  let since (x : Timestamp) : Int := (now : Int) - x.ms
  let paidClick := order.paymentInitiatedAt.map since
  match source, target with
  | .pending, _ => [.orderStage "reservation" (since order.createdAt)]
  | .reserved, _ => paidClick.toList.map (.orderStage "payment")
  | .paid, .completed =>
    .orderStage "completion" (since order.updatedAt) ::
      paidClick.toList.map (.orderStage "fulfilment")
  | _, _ => []

def transitionOrder (orderId : OrderId) (target : OrderStatus) : Service OrderEntity := do
  let order ← selectRow (.order orderId)
  match (order : Option OrderEntity) with
  | none => throw (.notFound "Order not found")
  | some order =>
    let source := order.status
    if isTransitionAllowed source target = false then
      throw (.conflict s!"Illegal order transition: {source} -> {target}")
    else do
      let affected ← updateStatus orderId source target
      if affected = 0 then
        throw (.conflict
          s!"Order {orderId} changed concurrently; {source} -> {target} not applied")
      else do
        record fun now =>
          (terminalStateLabel target).toList.map .terminalState ++
            stageTimings order source target now
        cacheDel [.order orderId, .userOrders order.userId]
        return { order with status := target }

def initiatePayment (orderId : OrderId) (userId : UserId) : Service OrderEntity := do
  let order ← getOrderForUser orderId userId
  if order.status ≠ .reserved then
    throw (.conflict s!"Order is not awaiting payment (status: {order.status})")
  else do
    let claimed ← transaction do
      let affected ← claimPayment orderId
      if affected = 0 then return false
      else do
        enqueue .inventoryReserved (.inventoryReserved
          { orderId := order.id, userId := order.userId })
        return true
    if claimed = false then
      throw (.conflict "Payment has already been initiated for this order")
    else do
      let now ← clock
      cacheDel [.order orderId]
      return { order with paymentInitiatedAt := some (.date now) }
where
  /-- `new Date()`. -/
  clock : Service Nat := stmt fun _ ch w => some (.ok ch.now, w)

def cancelOrder (orderId : OrderId) (userId : UserId) : Service OrderEntity := do
  let order ← getOrderForUser orderId userId
  let cancellable :=
    order.status == .pending || (order.status == .reserved && order.paymentInitiatedAt.isNone)
  if cancellable = false then
    throw (.conflict s!"Order cannot be cancelled (status: {order.status})")
  else do
    let wasReserved := order.status == .reserved
    let affected ← claimCancel orderId order.status
    if affected = 0 then throw (.conflict "Order can no longer be cancelled")
    else do
      let lines := order.items.map fun item => (⟨item.productId, item.quantity⟩ : StockLine)
      let _ ← (if wasReserved then restoreStock orderId lines else return ())
      recordMetric (.terminalState "cancelled")
      cacheDel [.order orderId, .userOrders order.userId]
      return { order with status := .cancelled }

end OrderLifecycle

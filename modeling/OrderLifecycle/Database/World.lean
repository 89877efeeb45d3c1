import OrderLifecycle.Database.Entities
import OrderLifecycle.Framework.Store

open Framework

namespace OrderLifecycle

/-! ### Tables -/

/-- Primary keys, of all tables together. -/
inductive Key
  | order (id : OrderId)
  | product (id : ProductId)
  | outbox (id : Uuid)
  | inbox (messageId : Uuid) (consumer : Consumer)
  | authorization (orderId : OrderId)
  deriving DecidableEq, Repr

def Row : Key → Type
  | .order _ => OrderEntity
  | .product _ => ProductEntity
  | .outbox _ => OutboxMessageEntity
  | .inbox _ _ => ProcessedMessageEntity
  | .authorization _ => PaymentAuthorizationEntity

/-- History of committed writes, each with the thread that made it: stock moved for an order
or by replenishment, and the claims of `initiatePayment` and `cancelOrder`. A cancel notes
the status its call had read and the one its `UPDATE` found. -/
inductive Deed
  | stock (orderId : OrderId) (productId : ProductId) (delta : Int)
  | replenished (productId : ProductId) (amount : Nat)
  | paymentClaimed (orderId : OrderId)
  | cancelClaimed (orderId : OrderId) (seen found : OrderStatus)
  deriving DecidableEq, Repr

/-- What a call of the gateway did: inserted the ledger row, found an undecided row stale at
`now`, called the provider. -/
inductive GatewayDeed
  | claimed (orderId : OrderId)
  | sawStale (orderId : OrderId) (now : Nat)
  | charged (orderId : OrderId) (idempotencyKey : OrderId)
  deriving DecidableEq, Repr

abbrev Db := Store Row (Tid × Deed)

/-! ### The shared state -/

/-- Redis: `order:{id}` and `orders:user:{userId}`. -/
structure Cache where
  order : OrderId → Option OrderEntity
  userOrders : UserId → Option (List OrderEntity)

inductive CacheKey
  | order (id : OrderId)
  | userOrders (userId : UserId)
  deriving DecidableEq, Repr

/-- Database, cache with its `CACHE_ENABLED` switch, the messages the relay has published so
far, the history of the payment gateway and the metrics recorded. -/
structure World where
  db : Db
  cacheEnabled : Bool
  cache : Cache
  messages : List OutboxMessageEntity
  gateway : List (Tid × GatewayDeed)
  metrics : List Metric

namespace World

/-! Committed rows. -/

def order (w : World) (o : OrderId) : Option OrderEntity := w.db.rows (.order o)

def product (w : World) (p : ProductId) : Option ProductEntity := w.db.rows (.product p)

def outbox (w : World) (id : Uuid) : Option OutboxMessageEntity := w.db.rows (.outbox id)

def authorization (w : World) (o : OrderId) : Option PaymentAuthorizationEntity :=
  w.db.rows (.authorization o)

/-- All orders. -/
def orders (w : World) : List OrderEntity :=
  w.db.keys.filterMap fun
    | .order o => w.order o
    | _ => none

end World

/-- What the scheduler decides for one statement: whether it fails, the generated ids, the
clock, `Math.random()`, and whether the payment provider throws or what it answers to each key. -/
structure Choice where
  fail : Bool := false
  throws : Bool := false
  fresh : Uuid := 0
  correlationId : Uuid := 0
  now : Nat := 0
  random : Rat := 0
  answer : OrderId → PaymentResult := fun _ => ⟨true, none⟩

abbrev Service (α : Type) := Action World Choice AppError α

/-! ### Statements -/

/-- One SQL statement. It may fail, and an error spoils the transaction it runs in. -/
def sql {α : Type} (f : Tid → Choice → World → Option (Except AppError α × World)) : Service α :=
  stmt fun t ch w =>
    if w.db.aborted t then some (.error .database, w)
    else if ch.fail then some (.error .database, { w with db := w.db.abort t })
    else (f t ch w).map fun r =>
      match r with
      | (.ok a, w') => (.ok a, w')
      | (.error e, w') => (.error e, { w' with db := w'.db.abort t })

/-- `SELECT` by primary key. -/
def selectRow (k : Key) : Service (Option (Row k)) :=
  sql fun t _ w => some (.ok (w.db.view t k), w)

/-- `SELECT` over a whole table. -/
def selectAll {α : Type} (f : (k : Key) → Row k → Option α) : Service (List α) :=
  sql fun t _ w => some (.ok (w.db.select t f), w)

/-- `UPDATE` of the row with key `k` if it satisfies `p`: the number of rows affected. -/
def updateRow (k : Key) (p : Row k → Bool) (f : Choice → Row k → Row k)
    (deeds : Row k → List Deed) : Service Nat :=
  sql fun t ch w =>
    (w.db.update t k p (f ch) fun row => (deeds row).map (Prod.mk t)).map fun r =>
      (.ok r.1, { w with db := r.2 })

/-- `INSERT` with a given key, a violation of which is an error. -/
def insertRow (k : Key) (table : String) (row : Choice → Row k) : Service Unit :=
  sql fun t ch w =>
    (w.db.insert t k (row ch) []).map fun r =>
      (if r.1 then .ok () else .error (.uniqueViolation table), { w with db := r.2 })

/-- `INSERT` with a generated key, which is never one in use. -/
def insertFresh (k : Uuid → Key) (row : Choice → (id : Uuid) → Row (k id)) :
    Service (Σ id, Row (k id)) :=
  sql fun t ch w =>
    (w.db.insert t (k ch.fresh) (row ch ch.fresh) []).bind fun r =>
      if r.1 then some (.ok ⟨ch.fresh, row ch ch.fresh⟩, { w with db := r.2 }) else none

def startTransaction : Service Unit :=
  stmt fun t ch w =>
    if ch.fail then some (.error .database, w)
    else some (.ok (), { w with db := w.db.begin t })

/-- A `COMMIT` that fails is a rollback. -/
def commitTransaction : Service Unit :=
  stmt fun t ch w =>
    if ch.fail then some (.error .database, { w with db := w.db.rollback t })
    else some (.ok (), { w with db := w.db.commit t })

def rollbackTransaction : Service Unit :=
  stmt fun t _ w => some (.ok (), { w with db := w.db.rollback t })

/-- `dataSource.transaction(work)`. -/
def transaction {α : Type} (work : Service α) : Service α :=
  .within startTransaction commitTransaction rollbackTransaction work

/-! ### Cache and metrics -/

/-- `JSON.stringify` in `CacheService.set`, then `JSON.parse` in `CacheService.get`. -/
def OrderEntity.toJson (order : OrderEntity) : OrderEntity :=
  { order with
    paymentInitiatedAt := order.paymentInitiatedAt.map Timestamp.toJson
    createdAt := order.createdAt.toJson
    updatedAt := order.updatedAt.toJson }

/-- `CacheService.get` of one order: a Redis error is a miss. -/
def cacheGetOrder (id : OrderId) : Service (Option OrderEntity) :=
  stmt fun _ ch w => some (.ok (if !w.cacheEnabled || ch.fail then none else w.cache.order id), w)

def cacheGetUserOrders (userId : UserId) : Service (Option (List OrderEntity)) :=
  stmt fun _ ch w =>
    some (.ok (if !w.cacheEnabled || ch.fail then none else w.cache.userOrders userId), w)

def Cache.setOrder (c : Cache) (id : OrderId) (order : OrderEntity) : Cache :=
  { c with order := Function.update c.order id (some order.toJson) }

def Cache.setUserOrders (c : Cache) (userId : UserId) (orders : List OrderEntity) : Cache :=
  { c with userOrders := Function.update c.userOrders userId (some (orders.map (·.toJson))) }

def Cache.del (c : Cache) : CacheKey → Cache
  | .order id => { c with order := Function.update c.order id none }
  | .userOrders userId => { c with userOrders := Function.update c.userOrders userId none }

/-- A Redis command that changes the cache; its errors are swallowed. -/
def cacheWrite (f : Cache → Cache) : Service Unit :=
  stmt fun _ ch w =>
    some (.ok (), if !w.cacheEnabled || ch.fail then w else { w with cache := f w.cache })

/-- `CacheService.set` and `CacheService.del`. -/
def cacheSetOrder (id : OrderId) (order : OrderEntity) : Service Unit :=
  cacheWrite fun c => c.setOrder id order

def cacheSetUserOrders (userId : UserId) (orders : List OrderEntity) : Service Unit :=
  cacheWrite fun c => c.setUserOrders userId orders

def cacheDel (keys : List CacheKey) : Service Unit := cacheWrite fun c => keys.foldl Cache.del c

/-- Records metrics, which may depend on the clock. -/
def record (f : Nat → List Metric) : Service Unit :=
  stmt fun _ ch w => some (.ok (), { w with metrics := w.metrics ++ f ch.now })

def recordMetric (m : Metric) : Service Unit := record fun _ => [m]

end OrderLifecycle

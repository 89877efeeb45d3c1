import OrderLifecycle.Consumers
import OrderLifecycle.Framework.Confined

open Framework

namespace OrderLifecycle

/-- Any error. -/
abbrev AnyError (_ : AppError) : Prop := True

variable {A : ∀ β, Stmt World Choice β → Prop} {E : AppError → Prop} {K : Key → Prop} {α : Type}

/-! ### Stock -/

/-- The statements in `A`, with errors in `E`, include those on the stock of products. -/
structure CoversStock (A : ∀ β, Stmt World Choice β → Prop) (E : AppError → Prop) : Prop where
  updateProduct (id : ProductId) (p : Row (.product id) → Bool)
    (f : Choice → Row (.product id) → Row (.product id)) (deeds : Row (.product id) → List Deed) :
    Confined A E (updateRow (.product id) p f deeds)
  insufficientStock (id : ProductId) : E (.insufficientStock id)

namespace CoversStock

theorem restoreStock (h : CoversStock A E) (orderId : OrderId) (lines : List StockLine) :
    Confined A E (restoreStock orderId lines) := by
  induction lines with
  | nil => exact confined_pure
  | cons line lines ih =>
    apply confined_bind (h.updateProduct _ _ _ _)
    intro _
    exact ih

theorem compensate (h : CoversStock A E) (orderId : OrderId) (applied : List StockLine) {e : AppError}
    (he : E e) : Confined A E (compensate (α := α) orderId applied e) := by
  apply confined_ite
  · intro _
    apply confined_bind (h.restoreStock _ _)
    intro _
    exact confined_throw he
  · intro _
    exact confined_throw he

theorem reserveLines (h : CoversStock A E) (orderId : OrderId) (lines applied : List StockLine) :
    Confined A E (reserveLines orderId applied lines) := by
  induction lines generalizing applied with
  | nil => exact confined_pure
  | cons line lines ih =>
    apply confined_bind
    · apply confined_tryCatch (h.updateProduct _ _ _ _)
      intro e he
      exact h.compensate _ _ he
    · intro affected
      apply confined_ite
      · intro _
        exact h.compensate _ _ (h.insufficientStock _)
      · intro _
        exact ih _

end CoversStock

/-! ### The work of the consumers -/

/-- The statements in `A`, with errors in `E`, include all that the services are made of, where
these write the keys in `K`. -/
structure Covers (A : ∀ β, Stmt World Choice β → Prop) (E : AppError → Prop) (K : Key → Prop) :
    Prop where
  selectRow (key : Key) : Confined A E (selectRow key)
  updateRow {key : Key} (hkey : K key) (p : Row key → Bool) (f : Choice → Row key → Row key)
    (deeds : Row key → List Deed) : Confined A E (updateRow key p f deeds)
  insertFresh {key : Uuid → Key} (hkey : ∀ id, K (key id))
    (row : Choice → (id : Uuid) → Row (key id)) : Confined A E (insertFresh key row)
  record (f : Nat → List Metric) : Confined A E (record f)
  cacheDel (keys : List CacheKey) : Confined A E (cacheDel keys)
  order (id : OrderId) : K (.order id)
  product (id : ProductId) : K (.product id)
  outbox (id : Uuid) : K (.outbox id)
  notFound (message : String) : E (.notFound message)
  conflict (message : String) : E (.conflict message)
  insufficientStock (id : ProductId) : E (.insufficientStock id)

namespace Covers

theorem stock (h : Covers A E K) : CoversStock A E where
  updateProduct _ := h.updateRow (h.product _)
  insufficientStock := h.insufficientStock

theorem transitionOrder (h : Covers A E K) (orderId : OrderId) (target : OrderStatus) :
    Confined A E (transitionOrder orderId target) := by
  apply confined_bind (h.selectRow _)
  intro order
  cases (order : Option OrderEntity) with
  | none => exact confined_throw (h.notFound _)
  | some order =>
    apply confined_ite
    · intro _
      exact confined_throw (h.conflict _)
    · intro _
      apply confined_bind (h.updateRow (h.order _) _ _ _)
      intro affected
      apply confined_ite
      · intro _
        exact confined_throw (h.conflict _)
      · intro _
        apply confined_bind (h.record _)
        intro _
        apply confined_bind (h.cacheDel _)
        intro _
        exact confined_pure

theorem enqueue (h : Covers A E K) (key : RoutingKey) (payload : OrderEvent) :
    Confined A E (enqueue key payload) := by
  apply confined_bind (h.insertFresh h.outbox _)
  intro _
  exact confined_pure

theorem reserveWork (h : Covers A E K) (event : OrderCreatedEvent) :
    Confined A E (reserveWork event) := by
  apply confined_tryCatch (E := E)
  · apply confined_bind (h.stock.reserveLines _ _ _)
    intro _
    apply confined_bind (h.transitionOrder _ _)
    intro _
    exact confined_pure
  · intro e he
    split
    · apply confined_bind (h.transitionOrder _ _)
      intro _
      apply confined_bind (h.enqueue _ _)
      intro _
      exact confined_pure
    · exact confined_throw he

theorem advance (h : Covers A E K) (event : InventoryReservedEvent) (result : PaymentResult) :
    Confined A E (advance event result) := by
  apply confined_bind (h.transitionOrder _ _)
  intro _
  apply confined_ite
  · intro _
    exact h.enqueue _ _
  · intro _
    exact h.enqueue _ _

theorem completeWork (h : Covers A E K) (event : PaymentProcessedEvent) :
    Confined A E (completeWork event) := by
  apply confined_bind (h.transitionOrder _ _)
  intro _
  exact h.enqueue _ _

end Covers

/-! ### Reads -/

/-- The statements in `A` include those of the calls that read orders. -/
structure CoversReads (A : ∀ β, Stmt World Choice β → Prop) (E : AppError → Prop) : Prop where
  selectRow (key : Key) : Confined A E (selectRow key)
  selectAll {α : Type} (f : (key : Key) → Row key → Option α) : Confined A E (selectAll f)
  cacheGetOrder (id : OrderId) : Confined A E (cacheGetOrder id)
  cacheGetUserOrders (userId : UserId) : Confined A E (cacheGetUserOrders userId)
  cacheWrite (f : Cache → Cache) : Confined A E (cacheWrite f)
  notFound (message : String) : E (.notFound message)

namespace CoversReads

theorem fetchOrderForUser (h : CoversReads A E) (id : OrderId) (userId : UserId) :
    Confined A E (fetchOrderForUser id userId) := by
  apply confined_bind
  · apply confined_bind (h.selectRow _)
    intro _
    exact confined_pure
  · intro order
    cases order with
    | none => exact confined_throw (h.notFound _)
    | some order =>
      apply confined_ite
      · intro _
        apply confined_bind (h.cacheWrite _)
        intro _
        exact confined_pure
      · intro _
        exact confined_pure

theorem getOrderForUser (h : CoversReads A E) (id : OrderId) (userId : UserId) :
    Confined A E (getOrderForUser id userId) := by
  apply confined_bind (h.cacheGetOrder id)
  intro cached
  cases cached with
  | none => exact h.fetchOrderForUser id userId
  | some cached =>
    apply confined_ite
    · intro _
      exact confined_pure
    · intro _
      exact h.fetchOrderForUser id userId

theorem listOrdersForUser (h : CoversReads A E) (userId : UserId) :
    Confined A E (listOrdersForUser userId) := by
  apply confined_bind (h.cacheGetUserOrders userId)
  intro cached
  cases cached with
  | some cached => exact confined_pure
  | none =>
    apply confined_bind (h.selectAll _)
    intro found
    apply confined_ite
    · intro _
      apply confined_bind (h.cacheWrite _)
      intro _
      exact confined_pure
    · intro _
      exact confined_pure

end CoversReads

/-! ### The payment gateway -/

/-- The statements in `A` include those of the payment gateway. -/
structure CoversGateway (A : ∀ β, Stmt World Choice β → Prop) (E : AppError → Prop) : Prop where
  selectRow (key : Key) : Confined A E (selectRow key)
  claim (orderId : OrderId) : Confined A E (claim orderId)
  isClaimStale (orderId : OrderId) : Confined A E (isClaimStale orderId)
  charge (event : InventoryReservedEvent) (idempotencyKey : OrderId) :
    Confined A E (charge event idempotencyKey)
  recordDecision (orderId : OrderId) (result : PaymentResult) :
    Confined A E (recordDecision orderId result)
  paymentOutcome (outcome : String) : Confined A E (recordMetric (.paymentOutcome outcome))
  paymentInFlight (orderId : OrderId) : E (.paymentInFlight orderId)

namespace CoversGateway

theorem chargeAndRecord (h : CoversGateway A E) (event : InventoryReservedEvent) :
    Confined A E (chargeAndRecord event) := by
  apply confined_bind (h.charge _ _)
  intro result
  apply confined_bind (h.paymentOutcome _)
  intro _
  apply confined_bind (h.recordDecision _ _)
  intro _
  exact confined_pure

theorem authorize (h : CoversGateway A E) (event : InventoryReservedEvent) :
    Confined A E (authorize event) := by
  apply confined_bind (h.claim _)
  intro claimed
  apply confined_ite
  · intro _
    exact h.chargeAndRecord event
  · intro _
    apply confined_bind (h.selectRow _)
    intro existing
    split
    · apply confined_bind (h.paymentOutcome _)
      intro _
      exact confined_pure
    · apply confined_bind (h.isClaimStale _)
      intro stale
      apply confined_ite
      · intro _
        apply confined_bind (h.paymentOutcome _)
        intro _
        exact confined_throw (h.paymentInFlight _)
      · intro _
        apply confined_bind (h.paymentOutcome _)
        intro _
        exact h.chargeAndRecord event

end CoversGateway

/-! ### Replenishment -/

/-- The statements in `A` include those of the replenishment. -/
structure CoversReplenishment (A : ∀ β, Stmt World Choice β → Prop) (E : AppError → Prop) : Prop where
  selectAll {α : Type} (f : (key : Key) → Row key → Option α) : Confined A E (selectAll f)
  mathRandom : Confined A E mathRandom
  restock (id : ProductId) (amount : Nat) : Confined A E (restock id amount)
  stockReplenished (id : ProductId) (amount : Nat) :
    Confined A E (recordMetric (.stockReplenished id amount))

namespace CoversReplenishment

theorem replenishEach (h : CoversReplenishment A E) (products : List (ProductId × ProductEntity)) :
    Confined A E (replenishEach products) := by
  induction products with
  | nil => exact confined_pure
  | cons x rest ih =>
    apply confined_bind
    · apply confined_ite
      · intro _
        exact confined_pure
      · intro _
        apply confined_bind h.mathRandom
        intro _
        exact confined_pure
    · intro low
      apply confined_ite
      · intro _
        apply confined_bind
        · apply confined_bind h.mathRandom
          intro _
          exact confined_pure
        · intro amount
          apply confined_bind (h.restock _ _)
          intro _
          apply confined_bind (h.stockReplenished _ _)
          intro _
          exact ih
      · intro _
        exact ih

theorem replenishLowStock (h : CoversReplenishment A E) : Confined A E replenishLowStock := by
  apply confined_bind (h.selectAll _)
  intro lowStock
  exact h.replenishEach lowStock

end CoversReplenishment

/-! ### Transactions and the inbox -/

/-- The statements in `A` include those of a transaction. -/
structure CoversTransaction (A : ∀ β, Stmt World Choice β → Prop) : Prop where
  start : Confined A AnyError startTransaction
  commit : Confined A AnyError commitTransaction
  rollback : Confined A AnyError rollbackTransaction

theorem CoversTransaction.transaction (h : CoversTransaction A) {work : Service α}
    (hw : Confined A AnyError work) : Confined A AnyError (transaction work) :=
  confined_within h.start hw h.commit h.rollback

section inbox

variable {σ χ : Type} {A' : ∀ β, Stmt σ χ β → Prop}

/-- As `runOnce` does, whatever its transaction and its statements are made of. -/
theorem confined_runOnceBy
    {transaction : Action σ χ AppError (Option α) → Action σ χ AppError (Option α)}
    {findProcessed : Action σ χ AppError (Option ProcessedMessageEntity)}
    {insertProcessed : Action σ χ AppError Unit} {work : Action σ χ AppError α}
    (htransaction : ∀ x, Confined A' AnyError x → Confined A' AnyError (transaction x))
    (hfind : Confined A' AnyError findProcessed) (hinsert : Confined A' AnyError insertProcessed)
    (hwork : Confined A' AnyError work) :
    Confined A' AnyError (runOnceBy transaction findProcessed insertProcessed work) := by
  apply confined_tryCatch (E := AnyError)
  · apply htransaction
    apply confined_bind hfind
    intro existing
    apply confined_ite
    · intro _
      exact confined_pure
    · intro _
      apply confined_bind hwork
      intro _
      apply confined_bind hinsert
      intro _
      exact confined_pure
  · intro e _
    apply confined_ite
    · intro _
      exact confined_pure
    · intro _
      exact confined_throw trivial

theorem confined_processOnceBy {recordMetric : Metric → Action σ χ AppError Unit}
    {runOnce : Uuid → Action σ χ AppError (Option α)}
    (hmetric : ∀ m, Confined A' AnyError (recordMetric m))
    (hrun : ∀ messageId, Confined A' AnyError (runOnce messageId)) (messageId : Option Uuid)
    (consumer : Consumer) :
    Confined A' AnyError (processOnceBy recordMetric messageId consumer runOnce) := by
  cases messageId with
  | none =>
    apply confined_bind (hmetric _)
    intro _
    exact confined_pure
  | some messageId =>
    apply confined_bind (hrun messageId)
    intro ran
    cases ran with
    | none =>
      apply confined_bind (hmetric _)
      intro _
      exact confined_pure
    | some result =>
      apply confined_bind (hmetric _)
      intro _
      exact confined_pure

end inbox

/-- The statements in `A` include those of the inbox. -/
structure CoversInbox (A : ∀ β, Stmt World Choice β → Prop) : Prop extends CoversTransaction A where
  selectRow (key : Key) : Confined A AnyError (selectRow key)
  insertInbox (messageId : Uuid) (consumer : Consumer) (row : Choice → ProcessedMessageEntity) :
    Confined A AnyError (insertRow (.inbox messageId consumer) inboxTable row)
  record (f : Nat → List Metric) : Confined A AnyError (record f)

namespace CoversInbox

theorem runOnce (h : CoversInbox A) {messageId : Uuid} {consumer : Consumer} {work : Service α}
    (hw : Confined A AnyError work) : Confined A AnyError (runOnce messageId consumer work) :=
  confined_runOnceBy (fun _ => h.transaction) (h.selectRow _) (h.insertInbox _ _ _) hw

theorem processEventOnce (h : CoversInbox A) {messageId : Uuid} {consumer : Consumer}
    {work : Service α} (hw : Confined A AnyError work) :
    Confined A AnyError (processEventOnce (some messageId) consumer work) :=
  confined_processOnceBy (fun _ => h.record _) (fun _ => h.runOnce hw) _ _

/-- Whatever the consumers are made of is covered, so the deliveries are. -/
theorem handle (h : CoversInbox A) (hwork : Covers A AnyError K) (hgateway : CoversGateway A AnyError)
    (message : OutboxMessageEntity) : Confined A AnyError (handle message) := by
  have hnotify : Confined A AnyError (notify (some message.id)) := by
    apply confined_bind (h.processEventOnce confined_pure)
    intro outcome
    cases outcome <;> exact confined_pure
  unfold OrderLifecycle.handle
  split
  · next event _ =>
    apply confined_bind (h.processEventOnce (hwork.reserveWork event))
    intro outcome
    cases outcome with
    | nack => exact confined_pure
    | skipped => exact confined_pure
    | processed short =>
      cases short with
      | none => exact confined_pure
      | some _ =>
        apply confined_bind (h.record _)
        intro _
        exact confined_pure
  · next event _ =>
    apply confined_bind (hgateway.authorize event)
    intro result
    apply confined_bind (h.runOnce (hwork.advance event result))
    intro processed
    cases processed with
    | none =>
      apply confined_bind (h.record _)
      intro _
      exact confined_pure
    | some _ =>
      apply confined_bind (h.record _)
      intro _
      exact confined_pure
  · next event _ =>
    apply confined_bind (h.processEventOnce (hwork.completeWork event))
    intro outcome
    cases outcome <;> exact confined_pure
  · exact hnotify
  · exact hnotify

end CoversInbox

end OrderLifecycle

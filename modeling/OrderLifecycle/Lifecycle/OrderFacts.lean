import Mathlib.Algebra.GroupWithZero.Nat
import Mathlib.Algebra.Ring.Int.Defs
import Mathlib.Data.Set.Insert
import OrderLifecycle.Consumers

open Framework

namespace OrderLifecycle

abbrev Rows := (k : Key) → Option (Row k)
abbrev Journal := List (Tid × Deed)
abbrev GatewayLog := List (Tid × GatewayDeed)

/-! ### Quantities -/

def OrderEntity.lines (order : OrderEntity) : List StockLine :=
  order.items.map fun item => ⟨item.productId, item.quantity⟩

/-- What a list of lines asks of one product, over all lines for it. -/
def quantityOf (lines : List StockLine) (p : ProductId) : Nat :=
  (lines.map fun line => if line.productId = p then line.quantity else 0).sum

/-- The change of the stock of `p` on behalf of order `o`. -/
def Deed.delta (o : OrderId) (p : ProductId) : Deed → Int
  | .stock o' p' d => if o' = o ∧ p' = p then d else 0
  | _ => 0

/-- The change of the stock of `p`, for whatever reason. -/
def Deed.moved (p : ProductId) : Deed → Int
  | .stock _ p' d => if p' = p then d else 0
  | .replenished p' n => if p' = p then n else 0
  | _ => 0

def Deed.restocked (p : ProductId) : Deed → Int
  | .replenished p' n => if p' = p then n else 0
  | _ => 0

def Deed.claims (o : OrderId) : Deed → Bool
  | .paymentClaimed o' => o' == o
  | .cancelClaimed o' _ _ => o' == o
  | _ => false

/-- The net change an order has made to the stock of a product. -/
def netChange (j : Journal) (o : OrderId) (p : ProductId) : Int :=
  (j.map fun d => d.2.delta o p).sum

def moved (j : Journal) (p : ProductId) : Int := (j.map fun d => d.2.moved p).sum

/-- Everything replenishment has added to a product. -/
def replenished (j : Journal) (p : ProductId) : Int := (j.map fun d => d.2.restocked p).sum

/-! ### One order -/

/-- What the committed state says about one order: its row, its outbox rows by routing key,
whether inventory has dealt with its `order.created`, its ledger row, whether the provider was
ever called, the stock it has moved and the claims made on it. -/
structure OrderFacts where
  order : Option OrderEntity
  events : RoutingKey → Set OutboxMessageEntity
  reserved : Prop
  authorization : Option PaymentAuthorizationEntity
  charged : Prop
  net : ProductId → Int
  claims : Journal

def factsOf (rows : Rows) (j : Journal) (g : GatewayLog) (o : OrderId) : OrderFacts where
  order := rows (.order o)
  events k := { m | rows (.outbox m.id) = some m ∧ m.routingKey = k ∧ m.payload.orderId = o }
  reserved := ∀ m, rows (.outbox m.id) = some m → m.routingKey = .created →
    m.payload.orderId = o → rows (.inbox m.id .inventory) ≠ none
  authorization := rows (.authorization o)
  charged := ∃ t key, (t, GatewayDeed.charged o key) ∈ g
  net := netChange j o
  claims := j.filter fun d => d.2.claims o

def World.facts (w : World) (o : OrderId) : OrderFacts :=
  factsOf w.db.rows w.db.journal w.gateway o

namespace OrderFacts

def setOrder (f : OrderFacts) (row : OrderEntity) : OrderFacts := { f with order := some row }

def addEvent (f : OrderFacts) (m : OutboxMessageEntity) : OrderFacts :=
  { f with events := fun k => if m.routingKey = k then insert m (f.events k) else f.events k }

end OrderFacts

/-- The row after a status change at time `now`. -/
def OrderEntity.move (row : OrderEntity) (target : OrderStatus) (now : Nat) : OrderEntity :=
  { row with status := target, updatedAt := .date now }

/-! ### What an order can do -/

/-- What the order system is run with: the catalogue it starts from; where the provider is known
to answer a key in one way only, these answers; whether statements may fail. -/
structure Setting where
  catalog : Catalog
  provider : Option (OrderId → PaymentResult)
  faulty : Prop

/-- One committed step of order `o`, by thread `t` for the request `k`. -/
inductive OrderStep (S : Setting) (t : Tid) (k : Request) (o : OrderId) :
    OrderFacts → OrderFacts → Prop
  | place (f row m) (r : Prop) (absent : f.order = none) (id : row.id = o)
      (status : row.status = .pending) (unpaid : row.paymentInitiatedAt = none)
      (key : m.routingKey = .created)
      (payload : m.payload = .created ⟨o, row.userId, row.lines⟩) :
      OrderStep S t k o f { (f.setOrder row).addEvent m with reserved := r }
  | reserve (f row n) (order : f.order = some row) (status : row.status = .pending)
      (first : ¬f.reserved) (known : ∀ l ∈ row.lines, S.catalog.find l.productId ≠ none)
      (call : ∃ m ∈ f.events .created, k = .deliver m) :
      OrderStep S t k o f
        { f.setOrder (row.move .reserved n) with
          reserved := True
          net := fun p => f.net p - quantityOf row.lines p }
  | reject (f row n m) (reason : String) (order : f.order = some row)
      (status : row.status = .pending) (first : ¬f.reserved) (key : m.routingKey = .failed)
      (payload : m.payload = .failed ⟨o, row.userId, reason⟩)
      (call : ∃ m ∈ f.events .created, k = .deliver m) :
      OrderStep S t k o f
        { (f.setOrder (row.move .failed n)).addEvent m with reserved := True }
  | pay (f row n m) (u : UserId) (order : f.order = some row) (status : row.status = .reserved)
      (unpaid : row.paymentInitiatedAt = none) (call : k = .initiatePayment o u)
      (key : m.routingKey = .inventoryReserved)
      (payload : m.payload = .inventoryReserved ⟨o, row.userId⟩) :
      OrderStep S t k o f
        { (f.setOrder { row with
            paymentInitiatedAt := some (.date n)
            updatedAt := .date n }).addEvent m with
          claims := f.claims ++ [(t, .paymentClaimed o)] }
  | cancel (f row n seen) (u : UserId) (order : f.order = some row)
      (status : row.status = .pending ∨
        row.status = .reserved ∧ row.paymentInitiatedAt = none)
      (seen_le : seen = .pending ∨ seen = .reserved ∧ row.status = .reserved)
      (call : k = .cancelOrder o u) :
      OrderStep S t k o f
        { f.setOrder (row.move .cancelled n) with
          claims := f.claims ++ [(t, .cancelClaimed o seen row.status)] }
  | restore (f) (line : StockLine) (claim : f.claims = [(t, .cancelClaimed o .reserved .reserved)])
      (owed : f.net line.productId + (line.quantity : Int) ≤ 0) :
      OrderStep S t k o f
        { f with
          net := Function.update f.net line.productId (f.net line.productId + (line.quantity : Int)) }
  | claimLedger (f row a) (order : f.order = some row) (paying : row.paymentInitiatedAt.isSome)
      (free : f.authorization = none) (undecided : a.authorized = none)
      (call : ∃ m ∈ f.events .inventoryReserved, k = .deliver m) :
      OrderStep S t k o f { f with authorization := some a }
  | charge (f) (ledger : f.authorization ≠ none) : OrderStep S t k o f { f with charged := True }
  | decide (f a) (result : PaymentResult) (ledger : f.authorization = some a)
      (undecided : a.authorized = none) (answer : ∀ p, S.provider = some p → result = p o) :
      OrderStep S t k o f
        { f with authorization := some { a with
            authorized := some result.authorized
            declineReason := result.declineReason } }
  | capture (f row n m) (order : f.order = some row) (status : row.status = .reserved)
      (paying : row.paymentInitiatedAt.isSome)
      (decided : S.provider ≠ none → ∃ a, f.authorization = some a ∧ a.authorized = some true)
      (key : m.routingKey = .paymentProcessed)
      (payload : m.payload = .paymentProcessed ⟨o, row.userId⟩)
      (call : ∃ m ∈ f.events .inventoryReserved, k = .deliver m) :
      OrderStep S t k o f ((f.setOrder (row.move .paid n)).addEvent m)
  | decline (f row n m) (reason : String) (order : f.order = some row)
      (status : row.status = .reserved) (paying : row.paymentInitiatedAt.isSome)
      (decided : S.provider ≠ none → ∃ a, f.authorization = some a ∧ a.authorized = some false)
      (key : m.routingKey = .failed)
      (payload : m.payload = .failed ⟨o, row.userId, reason⟩)
      (call : ∃ m ∈ f.events .inventoryReserved, k = .deliver m) :
      OrderStep S t k o f ((f.setOrder (row.move .failed n)).addEvent m)
  | complete (f row n m) (order : f.order = some row) (status : row.status = .paid)
      (key : m.routingKey = .completed) (payload : m.payload = .completed ⟨o, row.userId⟩)
      (call : ∃ m ∈ f.events .paymentProcessed, k = .deliver m) :
      OrderStep S t k o f ((f.setOrder (row.move .completed n)).addEvent m)

end OrderLifecycle

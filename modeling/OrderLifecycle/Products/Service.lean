import OrderLifecycle.Database.World

open Framework

namespace OrderLifecycle

/-! `reserveStock` and `restoreStock` carry the order on whose behalf stock moves, for the
history only. -/

/-- `UPDATE products SET stock = stock - qty WHERE id = … AND stock >= qty`. -/
def decrementStock (orderId : OrderId) (line : StockLine) : Service Nat :=
  updateRow (.product line.productId) (fun p : ProductEntity => decide (line.quantity ≤ p.stock))
    (fun _ (p : ProductEntity) => { p with stock := p.stock - line.quantity })
    fun _ => [.stock orderId line.productId (-line.quantity)]

/-- `UPDATE products SET stock = stock + qty WHERE id = …`. -/
def incrementStock (orderId : OrderId) (line : StockLine) : Service Nat :=
  updateRow (.product line.productId) (fun _ => true)
    (fun _ (p : ProductEntity) => { p with stock := p.stock + line.quantity })
    fun _ => [.stock orderId line.productId line.quantity]

/-- `ProductsService.restoreStock`. -/
def restoreStock (orderId : OrderId) : List StockLine → Service Unit
  | [] => return ()
  | line :: lines => do
    let _ ← incrementStock orderId line
    restoreStock orderId lines

/-- The `catch` of `reserveStock`: what this call has applied goes back before the error. -/
def compensate {α : Type} (orderId : OrderId) (applied : List StockLine) (error : AppError) :
    Service α :=
  if applied.length > 0 then do
    restoreStock orderId applied
    throw error
  else throw error

/-- The loop of `reserveStock`, with the lines applied so far. -/
def reserveLines (orderId : OrderId) (applied : List StockLine) : List StockLine → Service Unit
  | [] => return ()
  | line :: lines => do
    let affected ← tryCatch (decrementStock orderId line) (compensate orderId applied)
    if affected = 0 then compensate orderId applied (.insufficientStock line.productId)
    else reserveLines orderId (applied ++ [line]) lines

/-- `ProductsService.reserveStock`. -/
def reserveStock (orderId : OrderId) (lines : List StockLine) : Service Unit :=
  reserveLines orderId [] lines

/-! ### `StockReplenishmentService` -/

def lowStockThreshold : Int := 10
def guaranteedRestockAt : Int := 5
def restockMin : Nat := 50
def restockMax : Nat := 100

/-- `Math.random()`. -/
def mathRandom : Service Rat :=
  stmt fun _ ch w => if 0 ≤ ch.random ∧ ch.random < 1 then some (.ok ch.random, w) else none

/-- Certain at `guaranteedRestockAt` or below, then with probability `(11 - stock) / 6`. -/
def shouldRestock (stock : Int) : Service Bool :=
  if stock ≤ guaranteedRestockAt then return true
  else do
    let random ← mathRandom
    return decide (random < ((11 - stock : Int) : Rat) / 6)

def randomRestockAmount : Service Nat := do
  let random ← mathRandom
  return (random * ((restockMax - restockMin + 1 : Nat) : Rat)).floor.toNat + restockMin

def restock (id : ProductId) (amount : Nat) : Service Nat :=
  updateRow (.product id) (fun _ => true)
    (fun _ (p : ProductEntity) => { p with stock := p.stock + amount })
    fun _ => [.replenished id amount]

/-- The loop of `replenishLowStock`, over products as they were read. -/
def replenishEach : List (ProductId × ProductEntity) → Service Unit
  | [] => return ()
  | (id, product) :: rest => do
    let low ← shouldRestock product.stock
    if low then do
      let amount ← randomRestockAmount
      let _ ← restock id amount
      recordMetric (.stockReplenished id amount)
      replenishEach rest
    else replenishEach rest

def lowStockProduct : (k : Key) → Row k → Option (ProductId × ProductEntity)
  | .product id, (p : ProductEntity) =>
    if p.stock ≤ lowStockThreshold ∧ p.active then some (id, p) else none
  | _, _ => none

def replenishLowStock : Service Unit := do
  let lowStock ← selectAll lowStockProduct
  replenishEach lowStock

end OrderLifecycle

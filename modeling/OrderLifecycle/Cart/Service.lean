import OrderLifecycle.Framework.Zoom
import OrderLifecycle.Orders.Service

open Framework

namespace OrderLifecycle.Cart

structure CartEntity where
  id : Uuid
  userId : UserId
  checkedOutAt : Option Timestamp
  deriving DecidableEq, Repr

structure CartItemEntity where
  cartId : Uuid
  productId : ProductId
  quantity : Nat
  deriving DecidableEq, Repr

/-- A cart item with its `product` relation. -/
structure LoadedItem where
  item : CartItemEntity
  product : Option ProductEntity
  deriving DecidableEq, Repr

/-- A cart with its `items` relation. -/
structure LoadedCart where
  cart : CartEntity
  items : List LoadedItem
  deriving DecidableEq, Repr

/-- What the calls did, in order: read a cart with these items, set a line (`none` removes it)
which read `found` before, checked a cart out that had these items, committed an order. -/
inductive CartDeed
  | saw (cartId : Uuid) (items : List CartItemEntity)
  | wrote (cartId : Uuid) (productId : ProductId) (found quantity : Option Nat)
  | claimed (cartId : Uuid) (items : List CartItemEntity)
  | placed (orderId : OrderId)
  deriving DecidableEq, Repr

/-- The orders side of the database, the cart tables (`cart_items` by cart) and the history of the
carts. -/
structure CartWorld where
  world : World
  carts : List CartEntity
  cartItems : Uuid → List CartItemEntity
  deeds : List (Tid × CartDeed)

/-- The quantity in one line. -/
def lineOf (items : List CartItemEntity) (productId : ProductId) : Option Nat :=
  (items.find? fun item => item.productId == productId).map (·.quantity)

namespace CartWorld

def openCart (s : CartWorld) (userId : UserId) : Option CartEntity :=
  s.carts.find? fun cart => cart.userId == userId && cart.checkedOutAt.isNone

def note (s : CartWorld) (t : Tid) (deed : CartDeed) : CartWorld := { s with deeds := s.deeds ++ [(t, deed)] }

end CartWorld

/-- The orders that are committed in `after` and were not in `before`. -/
def newOrders (before after : World) : List OrderId :=
  after.db.keys.filterMap fun
    | .order o => if (before.order o).isNone && (after.order o).isSome then some o else none
    | _ => none

/-- What the orders service works on; an order that commits goes into the history. -/
def ordersPart : Part CartWorld World where
  get := CartWorld.world
  put t s w :=
    { s with
      world := w
      deeds := s.deeds ++ (newOrders s.world w).map fun o => (t, .placed o) }

abbrev CartAction (α : Type) := Action CartWorld Choice AppError α

/-! ### Statements -/

/-- One statement on the cart tables, a transaction of its own. -/
def cartSql {α : Type} (f : Tid → Choice → CartWorld → Option (Except AppError α × CartWorld)) :
    CartAction α :=
  stmt fun t ch s => if ch.fail then some (.error .database, s) else f t ch s

/-- `findOpenCart`. -/
def findOpenCart (userId : UserId) : CartAction (Option LoadedCart) :=
  cartSql fun t _ s =>
    match s.openCart userId with
    | none => some (.ok none, s)
    | some cart =>
      let items := s.cartItems cart.id
      some (.ok (some ⟨cart, items.map fun item => ⟨item, s.world.product item.productId⟩⟩),
        s.note t (.saw cart.id items))

/-- `cartRepository.save(cartRepository.create({ userId }))`, under `UQ_carts_open_per_user`; the
generated id is never one in use. -/
def saveCart (userId : UserId) : CartAction CartEntity :=
  cartSql fun _ ch s =>
    if (s.openCart userId).isSome then some (.error (.uniqueViolation "carts"), s)
    else if s.carts.any fun cart => cart.id == ch.fresh then none
    else some (.ok ⟨ch.fresh, userId, none⟩, { s with carts := s.carts ++ [⟨ch.fresh, userId, none⟩] })

/-- `ProductsService.findByIds` of one id. -/
def findProduct (productId : ProductId) : CartAction (Option ProductEntity) :=
  cartSql fun _ _ s => some (.ok ((s.world.product productId).filter (·.active)), s)

/-- The rows of a cart once the line of a product has this quantity. -/
def setLine (cartId : Uuid) (productId : ProductId) (quantity : Nat)
    (items : List CartItemEntity) : List CartItemEntity :=
  if items.any fun item => item.productId == productId then
    items.map fun item => if item.productId == productId then { item with quantity := quantity } else item
  else items ++ [⟨cartId, productId, quantity⟩]

def removeLine (productId : ProductId) (items : List CartItemEntity) : List CartItemEntity :=
  items.filter fun item => !(item.productId == productId)

/-- Changes the rows of one cart. -/
def CartWorld.writeItems (s : CartWorld) (cartId : Uuid) (items : List CartItemEntity) : CartWorld :=
  { s with cartItems := Function.update s.cartItems cartId items }

/-- `INSERT … ON CONFLICT ("cartId", "productId") DO UPDATE SET quantity = …`, under the foreign
keys of `cart_items`. -/
def upsertItem (cartId : Uuid) (productId : ProductId) (quantity : Nat) : CartAction Unit :=
  cartSql fun t _ s =>
    if (s.carts.any fun cart => cart.id == cartId) && (s.world.product productId).isSome then
      let items := s.cartItems cartId
      some (.ok (), (s.writeItems cartId (setLine cartId productId quantity items)).note t
        (.wrote cartId productId (lineOf items productId) (some quantity)))
    else some (.error .database, s)

/-- `cartItemRepository.delete({ cartId, productId })`. -/
def deleteItem (cartId : Uuid) (productId : ProductId) : CartAction Unit :=
  cartSql fun t _ s =>
    let items := s.cartItems cartId
    some (.ok (), (s.writeItems cartId (removeLine productId items)).note t
      (.wrote cartId productId (lineOf items productId) none))

/-- `UPDATE carts SET "checkedOutAt" = now() WHERE id = … AND "checkedOutAt" IS NULL`. -/
def claimCart (cartId : Uuid) : CartAction Nat :=
  cartSql fun t ch s =>
    if s.carts.any fun cart => cart.id == cartId && cart.checkedOutAt.isNone then
      let carts := s.carts.map fun cart =>
        if cart.id == cartId && cart.checkedOutAt.isNone then
          { cart with checkedOutAt := some (.date ch.now) }
        else cart
      some (.ok 1, { s with carts := carts }.note t (.claimed cartId (s.cartItems cartId)))
    else some (.ok 0, s)

/-! ### `CartService` -/

def isUniqueViolation : AppError → Bool
  | .uniqueViolation _ => true
  | _ => false

def getOpenCart (userId : UserId) : CartAction LoadedCart := do
  let existing ← findOpenCart userId
  match existing with
  | some existing => return existing
  | none =>
    tryCatch
      (do
        let created ← saveCart userId
        return ⟨created, []⟩)
      fun error =>
        if isUniqueViolation error then do
          let winner ← findOpenCart userId
          match winner with
          | some winner => return winner
          | none => throw error
        else throw error

/-- The read of the product, beside `getOpenCart` in a `Promise.all`, comes last here: it changes
nothing, and what it reads no cart call changes. -/
def setItem (userId : UserId) (productId : ProductId) (quantity : Nat) : CartAction LoadedCart := do
  let cart ← getOpenCart userId
  let product ← findProduct productId
  match product with
  | none => throw (.notFound "Product not found")
  | some _ => do
    upsertItem cart.cart.id productId quantity
    getOpenCart userId

def removeItem (userId : UserId) (productId : ProductId) : CartAction LoadedCart := do
  let cart ← getOpenCart userId
  deleteItem cart.cart.id productId
  getOpenCart userId

/-- A line of the order; `none` where `item.product!` is null. -/
def LoadedItem.line (item : LoadedItem) : Option OrderLine :=
  item.product.map fun product => ⟨item.item.productId, product.name, item.item.quantity⟩

def checkout (userId : UserId) : CartAction OrderEntity := do
  let cart ← getOpenCart userId
  let items := cart.items
  if items.length = 0 then throw (.conflict "Cart is empty")
  else do
    let affected ← claimCart cart.cart.id
    if affected = 0 then throw (.conflict "Cart has already been checked out")
    else
      match items.mapM LoadedItem.line with
      | none => throw (.typeError "Cannot read properties of null (reading 'name')")
      | some lines => Action.zoom ordersPart (createOrder userId lines)

/-! ### The system -/

inductive CartCall
  | getOpenCart (userId : UserId)
  | setItem (userId : UserId) (productId : ProductId) (quantity : Nat)
  | removeItem (userId : UserId) (productId : ProductId)
  | checkout (userId : UserId)
  deriving DecidableEq, Repr

inductive CartReply
  | cart (cart : LoadedCart)
  | order (order : OrderEntity)
  deriving DecidableEq, Repr

def serveCart : CartCall → CartAction CartReply
  | .getOpenCart userId => do
    let cart ← getOpenCart userId
    return .cart cart
  | .setItem userId productId quantity => do
    let cart ← setItem userId productId quantity
    return .cart cart
  | .removeItem userId productId => do
    let cart ← removeItem userId productId
    return .cart cart
  | .checkout userId => do
    let order ← checkout userId
    return .order order

/-- Any number of calls by any number of users. -/
def cartSystem : System CartWorld Choice CartCall Empty (Except AppError CartReply) where
  body := fun call => (serveCart call).run
  enabled := fun _ _ => true
  env := nofun
  crash := fun t s => { s with world := { s.world with db := s.world.db.rollback t } }

end OrderLifecycle.Cart

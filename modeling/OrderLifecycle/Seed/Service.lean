import OrderLifecycle.Auth.Registration
import OrderLifecycle.Cart.Service

open Framework

namespace OrderLifecycle.Seed

open Cart Auth

structure CatalogProduct where
  sku : String
  name : String
  stock : Int
  deriving DecidableEq, Repr

/-- `CATALOG` -/
def catalog : List CatalogProduct := [
  -- Driver kit
  ⟨"HEL-CF8859", "Carbon Race Helmet, FIA 8859", 12⟩,
  ⟨"SUIT-3L8856", "Three-Layer Race Suit, FIA 8856", 15⟩,
  ⟨"GLV-NMX", "Nomex Race Gloves", 40⟩,
  ⟨"BOOT-SDE", "Suede Race Boots", 22⟩,
  ⟨"HNR-M", "Head and Neck Restraint, Medium", 10⟩,
  ⟨"BAL-NMX", "Nomex Balaclava", 60⟩,
  -- Car parts
  ⟨"BRK-END-F", "Endurance Brake Pads, Front Axle", 30⟩,
  ⟨"FLD-DOT5", "Racing Brake Fluid, 500 ml", 80⟩,
  ⟨"WHL-350S", "350 mm Suede Steering Wheel", 18⟩,
  ⟨"HUB-QR", "Quick-Release Steering Hub", 25⟩,
  ⟨"HRN-6PT", "6-Point Racing Harness", 20⟩,
  ⟨"TYR-18M", "Slick Tyre, 18 in, Medium Compound", 48⟩,
  ⟨"EXT-1KG", "Handheld Fire Extinguisher, 1 kg", 35⟩,
  -- Track day
  ⟨"LAP-GPS", "GPS Lap Timer", 16⟩,
  ⟨"FLG-CHQ", "Chequered Flag", 70⟩,
  ⟨"MDL-LMP18", "1:18 Le Mans Prototype Model", 24⟩,
  ⟨"CAP-PIT", "Pit Crew Cap", 90⟩,
  ⟨"TPG-DIG", "Digital Tyre Pressure Gauge", 45⟩]

/-- `RETIRED_SKUS` -/
def retiredSkus : List String := [
  "WIDGET-001", "WIDGET-002", "GADGET-001", "GADGET-002", "GIZMO-001", "GIZMO-002",
  "DOOHICKEY-001", "THINGAMAJIG-001", "CONTRAPTION-001", "WHATSIT-001", "DOODAD-001", "GEEGAW-001"]

/-- The shop's tables with the column `sku` of `products`, the users, and a history: the boots that
have switched products off and not deleted lines since, and how many deeds of the carts there were at
the last `DELETE` of a boot. -/
structure SeedWorld where
  cart : CartWorld
  auth : AuthWorld
  sku : ProductId → String
  unswept : List Tid
  swept : Option Nat

structure SeedChoice where
  base : Choice := {}
  auth : AuthChoice := {}
  ids : List Uuid := []

def cartPart : Part SeedWorld CartWorld where
  get := SeedWorld.cart
  put _ s c := { s with cart := c }

def authPart : Part SeedWorld AuthWorld where
  get := SeedWorld.auth
  put _ s a := { s with auth := a }

namespace SeedWorld

def product (s : SeedWorld) (p : ProductId) : Option ProductEntity := s.cart.world.product p

/-- The products in use. -/
def products (s : SeedWorld) : List ProductId :=
  s.cart.world.db.keys.filterMap fun
    | .product p => if (s.product p).isSome then some p else none
    | _ => none

def withDb (s : SeedWorld) (db : Db) : SeedWorld :=
  { s with cart := { s.cart with world := { s.cart.world with db := db } } }

end SeedWorld

abbrev SeedAction (α : Type) := Action SeedWorld SeedChoice AppError α

/-! ### Statements -/

def seedSql {α : Type} (f : Tid → SeedChoice → SeedWorld → Option (Except AppError α × SeedWorld)) :
    SeedAction α :=
  stmt fun t ch s => if ch.base.fail then some (.error .database, s) else f t ch s

/-- `products.find({ select: { sku: true } })` -/
def findSkus : SeedAction (List String) :=
  seedSql fun _ _ s => some (.ok (s.products.map s.sku), s)

/-- The rows of an `INSERT`; a generated id is never one in use. -/
def insertRows (t : Tid) : List (ProductId × CatalogProduct) → Db → Option Db
  | [], db => some db
  | (p, product) :: rows, db =>
    (db.insert t (.product p) (⟨product.name, product.stock, true⟩ : ProductEntity) []).bind fun r =>
      if r.1 then insertRows t rows r.2 else none

/-- The column `sku` after an `INSERT`. -/
def insertSkus (rows : List (ProductId × CatalogProduct)) (sku : ProductId → String) (p : ProductId) :
    String :=
  match rows.find? fun row => row.1 == p with
  | some row => row.2.sku
  | none => sku p

/-- `products.insert(missing)`, one statement, under the unique `sku`. -/
def insertProducts (missing : List CatalogProduct) : SeedAction Unit :=
  seedSql fun t ch s =>
    if missing.any fun product => (s.products.map s.sku).contains product.sku then
      some (.error (.uniqueViolation "products"), s)
    else if ch.ids.length = missing.length then
      (insertRows t (ch.ids.zip missing) s.cart.world.db).map fun db =>
        (.ok (), { s.withDb db with sku := insertSkus (ch.ids.zip missing) s.sku })
    else none

/-- Switches off the products of `ids` that are to be retired: how many there were. -/
def deactivateRows (t : Tid) (sku : ProductId → String) : List ProductId → Db → Option (Nat × Db)
  | [], db => some (0, db)
  | p :: ids, db =>
    (db.update t (.product p) (fun row : ProductEntity => retiredSkus.contains (sku p) && row.active)
      (fun row : ProductEntity => { row with active := false }) fun _ => []).bind fun r =>
        (deactivateRows t sku ids r.2).map fun r' => (r.1 + r'.1, r'.2)

/-- `products.update({ sku: In([...RETIRED_SKUS]), active: true }, { active: false })` -/
def deactivateRetired : SeedAction Nat :=
  seedSql fun t _ s =>
    (deactivateRows t s.sku s.products s.cart.world.db).map fun r =>
      (.ok r.1, { s.withDb r.2 with unswept := if r.1 = 0 then s.unswept else s.unswept ++ [t] })

/-- Whether the `DELETE` of `retireOldProducts` takes an item of this cart. -/
def SeedWorld.retires (s : SeedWorld) (cartId : Uuid) (item : CartItemEntity) : Bool :=
  (s.cart.carts.any fun cart => cart.id == cartId && cart.checkedOutAt.isNone) &&
    (s.product item.productId).any fun product => !product.active

def deleteRetiredLines : SeedAction Unit :=
  seedSql fun _ _ s =>
    some (.ok (), { s with
      cart := { s.cart with
        cartItems := fun cartId => (s.cart.cartItems cartId).filter fun item => !s.retires cartId item }
      unswept := []
      swept := some s.cart.deeds.length })

/-! ### `SeedService` -/

def accountError : AccountError → AppError
  | .conflict message => .conflict message
  | .uniqueViolation => .uniqueViolation "users"
  | .database => .database

/-- `seedAdmin`, on the tables of the shop. -/
def seedAdminUser (B : Bcrypt) (C : Crypto) (credentials : AdminCredentials) :
    SeedAction SeedAdminResult :=
  ExceptT.mk ((seedAdmin B C credentials).run.embed authPart SeedChoice.auth >>= fun r =>
    pure (r.mapError accountError))

def seedProducts : SeedAction Unit := do
  let existingSkus ← findSkus
  let missing := catalog.filter fun product => !existingSkus.contains product.sku
  if missing.length = 0 then return ()
  else insertProducts missing

def retireOldProducts : SeedAction Unit := do
  let retired ← deactivateRetired
  if retired = 0 then return ()
  else deleteRetiredLines

/-- `ADMIN_EMAIL` and `ADMIN_PASSWORD`, or their defaults. -/
def adminCredentials (email password : Option String) : AdminCredentials where
  email := email.getD "admin@example.com"
  password := password.getD "ChangeMe123!"

def onApplicationBootstrap (B : Bcrypt) (C : Crypto) (adminEmail adminPassword : Option String) :
    SeedAction Unit := do
  let _ ← seedAdminUser B C (adminCredentials adminEmail adminPassword)
  seedProducts
  retireOldProducts

/-! ### The system -/

inductive SeedCall
  | onApplicationBootstrap (adminEmail adminPassword : Option String)
  | setItem (userId : UserId) (productId : ProductId) (quantity : Nat)
  deriving DecidableEq, Repr

inductive SeedReply
  | booted
  | cart (cart : LoadedCart)
  deriving DecidableEq, Repr

def serveSeed (B : Bcrypt) (C : Crypto) : SeedCall → SeedAction SeedReply
  | .onApplicationBootstrap adminEmail adminPassword => do
    onApplicationBootstrap B C adminEmail adminPassword
    return .booted
  | .setItem userId productId quantity => do
    let cart ← Action.embed cartPart SeedChoice.base (setItem userId productId quantity)
    return .cart cart

/-- Boots beside calls of `setItem`. -/
def seedSystem (B : Bcrypt) (C : Crypto) :
    System SeedWorld SeedChoice SeedCall Empty (Except AppError SeedReply) where
  body := fun call => (serveSeed B C call).run
  enabled := fun _ _ => true
  env := nofun
  crash := fun _ s => s

end OrderLifecycle.Seed

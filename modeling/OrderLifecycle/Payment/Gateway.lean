import OrderLifecycle.Database.World

open Framework

namespace OrderLifecycle

/-- `STALE_CLAIM_SECONDS`, in milliseconds. -/
def staleClaimMs : Nat := 30 * 1000

/-- `INSERT … ON CONFLICT ("orderId") DO NOTHING RETURNING "orderId"`: whether this call
inserted the undecided row. -/
def claim (orderId : OrderId) : Service Bool :=
  sql fun t ch w =>
    (w.db.insert t (.authorization orderId)
      (⟨orderId, none, none, ch.now⟩ : PaymentAuthorizationEntity) []).map fun r =>
      (.ok r.1, { w with
        db := r.2
        gateway := if r.1 then w.gateway ++ [(t, .claimed orderId)] else w.gateway })

/-- An undecided row older than `staleClaimMs` by the database clock. -/
def PaymentAuthorizationEntity.isStale (row : PaymentAuthorizationEntity) (now : Nat) : Bool :=
  row.authorized.isNone && decide (row.createdAt + staleClaimMs < now)

def isClaimStale (orderId : OrderId) : Service Bool :=
  sql fun t ch w =>
    let rows : Option PaymentAuthorizationEntity := w.db.view t (.authorization orderId)
    let stale := rows.any fun row => row.isStale ch.now
    some (.ok stale, { w with
      gateway := if stale then w.gateway ++ [(t, .sawStale orderId ch.now)] else w.gateway })

/-- The provider call. It is made whether or not the answer gets back. -/
def charge (event : InventoryReservedEvent) (idempotencyKey : OrderId) : Service PaymentResult :=
  stmt fun t ch w =>
    some (if ch.fail || ch.throws then .error .provider else .ok (ch.answer idempotencyKey),
      { w with gateway := w.gateway ++ [(t, .charged event.orderId idempotencyKey)] })

def PaymentAuthorizationEntity.decide (row : PaymentAuthorizationEntity) (result : PaymentResult) :
    PaymentAuthorizationEntity :=
  { row with authorized := some result.authorized, declineReason := result.declineReason }

/-- `UPDATE … SET authorized, declineReason WHERE "orderId" = … AND authorized IS NULL`. -/
def recordDecision (orderId : OrderId) (result : PaymentResult) : Service Nat :=
  updateRow (.authorization orderId) (fun a : PaymentAuthorizationEntity => a.authorized.isNone)
    (fun _ (a : PaymentAuthorizationEntity) => a.decide result) fun _ => []

def toResult (record : PaymentAuthorizationEntity) : PaymentResult :=
  if record.authorized = some true then ⟨true, none⟩ else ⟨false, record.declineReason⟩

/-- What follows once this call owns the charge, or has taken it over. -/
def chargeAndRecord (event : InventoryReservedEvent) : Service PaymentResult := do
  let result ← charge event event.orderId
  recordMetric (.paymentOutcome (if result.authorized then "authorized" else "declined"))
  let _ ← recordDecision event.orderId result
  return result

/-- `PaymentGateway.authorize`. -/
def authorize (event : InventoryReservedEvent) : Service PaymentResult := do
  let claimed ← claim event.orderId
  if claimed then chargeAndRecord event
  else do
    let existing ← selectRow (.authorization event.orderId)
    match (existing : Option PaymentAuthorizationEntity).filter fun a => a.authorized.isSome with
    | some existing => do
      recordMetric (.paymentOutcome "deduplicated")
      return toResult existing
    | none => do
      let stale ← isClaimStale event.orderId
      if stale = false then do
        recordMetric (.paymentOutcome "in_flight")
        throw (.paymentInFlight event.orderId)
      else do
        recordMetric (.paymentOutcome "takeover")
        chargeAndRecord event

end OrderLifecycle

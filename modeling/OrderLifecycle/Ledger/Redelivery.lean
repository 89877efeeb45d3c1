import OrderLifecycle.Consumers
import OrderLifecycle.Framework.Solo
import OrderLifecycle.Messaging.RetryErrorHandler

open Framework

namespace OrderLifecycle

/-- `ConsumerQueue.Payment`. -/
def paymentQueue : String := "payment.inventory_reserved"

/-- One delivery: the clock and the generated ids at each of its statements, whether the
provider throws, and the statement before which the process dies. A process that outlives the
handler may still die before it settles the message. -/
structure Delivery where
  now : Nat → Nat
  fresh : Nat → Uuid
  throws : Bool
  dies : Option Nat
  ends : Nat
  now_mono : ∀ i j, i ≤ j → now i ≤ now j
  now_le_ends : ∀ i, now i ≤ ends

/-- The choices for its statements, with the answer of the provider. -/
def Delivery.choice (d : Delivery) (answer : PaymentResult) (i : Nat) : Choice :=
  { throws := d.throws, fresh := d.fresh i, now := d.now i, answer := fun _ => answer }

/-- Where the message is: at the head of its queue from time `since` on, with its `x-attempts`
header; acknowledged; or dead-lettered. -/
inductive Slot
  | queued (since : Nat) (attempts : Option Nat)
  | acked
  | deadLettered
  deriving DecidableEq, Repr

/-- What the broker does with the message at time `ends`, once the handler has returned. -/
def settle (ends : Nat) (attempts : Option Nat) (w : World) :
    Except AppError Handled → World × Slot
  | .ok .ack => (w, .acked)
  | .ok .nack => (w, .deadLettered)
  | .error _ =>
    let action := createRetryErrorHandler paymentQueue defaultMaxRetries defaultBaseDelayMs attempts
    ({ w with metrics := w.metrics ++ [.consumerOutcome .payment action.outcome] },
      match action with
      | .retry _ delayMs attempt => .queued (ends + delayMs) (some attempt)
      | .deadLetter => .deadLettered)

/-- One delivery, in thread `t`. A message whose process died comes again as it was. -/
def deliver (message : OutboxMessageEntity) (answer : PaymentResult) (t : Tid) (d : Delivery) :
    World × Slot → Option (World × Slot)
  | (w, .queued _ attempts) =>
    ((handle message).run.solo t (d.choice answer) d.dies 0 w).map fun x =>
      match d.dies, x with
      | none, (w', some (result, _)) => settle d.ends attempts w' result
      | _, (w', _) => ({ w' with db := w'.db.rollback t }, .queued d.ends attempts)
  | x => some x

/-- After `n` deliveries of the message, from the state `w` in which it was published. -/
def redeliver (message : OutboxMessageEntity) (answer : PaymentResult) (schedule : Nat → Delivery)
    (w : World) : Nat → Option (World × Slot)
  | 0 => some (w, .queued 0 none)
  | n + 1 =>
    (redeliver message answer schedule w n).bind (deliver message answer n (schedule n))

/-- No delivery starts before the broker hands the message over. -/
def Punctual (message : OutboxMessageEntity) (answer : PaymentResult) (schedule : Nat → Delivery)
    (w : World) : Prop :=
  ∀ n w' since attempts,
    redeliver message answer schedule w n = some (w', .queued since attempts) →
      since ≤ (schedule n).now 0

/-- The status that the answer of the provider leads to. -/
def PaymentResult.target (result : PaymentResult) : OrderStatus :=
  if result.authorized then .paid else .failed

/-- The message is never dead-lettered, and its order gets where the provider's answer leads. -/
def Recovers (message : OutboxMessageEntity) (answer : PaymentResult) (schedule : Nat → Delivery)
    (w : World) : Prop :=
  (∀ n w' slot, redeliver message answer schedule w n = some (w', slot) → slot ≠ .deadLettered) ∧
    ∃ n w' slot row, redeliver message answer schedule w n = some (w', slot) ∧
      w'.order message.payload.orderId = some row ∧ row.status = answer.target

/-- Of the deliveries, at most `n` meet a provider that throws or a process that dies. -/
def Faults (schedule : Nat → Delivery) (n : Nat) : Prop :=
  ∀ m, (List.range m).countP (fun k => (schedule k).throws || (schedule k).dies.isSome) ≤ n

end OrderLifecycle

import OrderLifecycle.Framework.Restrict
import OrderLifecycle.Pipeline.Certified

open Framework

namespace OrderLifecycle.Pipeline

/-! ### A message that its order waits for -/

/-- Every `cancelOrder` has found its order reserved. -/
def Spared (w : World) : Prop :=
  ∀ t o seen, (t, Deed.cancelClaimed o seen .pending) ∉ w.db.journal

/-- The order is in the state that the event is for, and its consumer has not recorded the message. -/
structure Expected (m : OutboxMessageEntity) (w : World) : Prop where
  published : Published m w
  awaited : ∀ st, awaiting m.payload = some st →
    ∃ row, w.order m.payload.orderId = some row ∧ row.status = st
  unfiled : ¬Filed m.id (consumerOf m.payload) w

/-- Nobody has claimed the charge that the event asks for. -/
def Uncharged (m : OutboxMessageEntity) (w : World) : Prop :=
  awaiting m.payload = some .reserved → w.authorization m.payload.orderId = none

variable {c : Catalog} {S : Setting} {t : Tid} {k : Request} {o : OrderId} {f f' : OrderFacts}
  {m : OutboxMessageEntity} {w w' : World} {owner : Uuid → Tid} {row : OrderEntity}
  {st : OrderStatus} {key : RoutingKey}

/-! ### Steps of its order -/

theorem key_of_awaiting {e : OrderEvent} (h : awaiting e = some st) :
    st = .pending ∧ e.routingKey = .created ∨ st = .reserved ∧ e.routingKey = .inventoryReserved ∨
      st = .paid ∧ e.routingKey = .paymentProcessed := by
  cases e <;> cases h
  · exact .inl ⟨rfl, rfl⟩
  · exact .inr (.inl ⟨rfl, rfl⟩)
  · exact .inr (.inr ⟨rfl, rfl⟩)

/-- An order leaves the state that an event is for by the delivery of this event, unless it is
cancelled while `PENDING`. -/
theorem waits_step (hs : OrderStep S t k o f f') (hp : Present S o row f)
    (ho : f.order = some row) (hm : m ∈ f.events m.payload.routingKey) (hk : k ≠ .deliver m)
    (hspared : ∀ t seen, (t, Deed.cancelClaimed o seen .pending) ∉ f'.claims)
    (hst : awaiting m.payload = some row.status) :
    ∃ row', f'.order = some row' ∧ row'.status = row.status := by
  have same {row' : OrderEntity} (h' : f.order = some row') : row' = row :=
    Option.some.inj (h'.symm.trans ho)
  have other {key : RoutingKey} (hkey : m.payload.routingKey = key) : ¬∃ m' ∈ f.events key, k = .deliver m' := by
    intro ⟨m', hm', hk'⟩
    subst hkey
    exact hk (hp.events.unique hm hm' ▸ hk')
  have hkey := key_of_awaiting hst
  cases hs with
  | place row' m' r absent => exact nomatch absent.symm.trans ho
  | reserve row' n order status first known call =>
    obtain rfl := same order
    simp only [status, true_and, reduceCtorEq, false_and, or_false] at hkey
    exact absurd call (other hkey)
  | reject row' n m' reason order status first key payload call =>
    obtain rfl := same order
    simp only [status, true_and, reduceCtorEq, false_and, or_false] at hkey
    exact absurd call (other hkey)
  | pay row' n m' u order =>
    obtain rfl := same order
    exact ⟨_, rfl, rfl⟩
  | cancel row' n seen u order status seen_le call =>
    obtain rfl := same order
    rcases status with hpending | ⟨hreserved, hunpaid⟩
    · refine absurd ?_ (hspared t seen)
      rw [← hpending]
      exact List.mem_append_right _ (List.mem_singleton.mpr rfl)
    · -- the owner has initiated payment, so this order is not cancelled any more
      simp only [hreserved, true_and, reduceCtorEq, false_and, or_false, false_or] at hkey
      rw [hkey] at hm
      have hpaid := (hp.events.inventoryReserved.of_mem hm).1
      rw [hunpaid] at hpaid
      cases hpaid
  | capture row' n m' order status paying decided key payload call =>
    obtain rfl := same order
    simp only [status, true_and, reduceCtorEq, false_and, or_false, false_or] at hkey
    exact absurd call (other hkey)
  | decline row' n m' reason order status paying decided key payload call =>
    obtain rfl := same order
    simp only [status, true_and, reduceCtorEq, false_and, or_false, false_or] at hkey
    exact absurd call (other hkey)
  | complete row' n m' order status key payload call =>
    obtain rfl := same order
    simp only [status, true_and, reduceCtorEq, false_and, false_or] at hkey
    exact absurd call (other hkey)
  | _ => exact ⟨row, ho, rfl⟩

/-- The charge that an event asks for is claimed by its delivery. -/
theorem uncharged_step (hs : OrderStep S t k o f f') (hp : Present S o row f)
    (hm : m ∈ f.events m.payload.routingKey) (hk : k ≠ .deliver m)
    (hst : awaiting m.payload = some .reserved) (hn : f.authorization = none) :
    f'.authorization = none := by
  cases hs with
  | claimLedger row' a order paying free undecided call =>
    have hkey := key_of_awaiting hst
    simp only [true_and, reduceCtorEq, false_and, or_false, false_or] at hkey
    rw [hkey] at hm
    obtain ⟨m', hm', hk'⟩ := call
    exact absurd (hp.events.unique hm hm' ▸ hk') hk
  | decide a result ledger => exact nomatch ledger.symm.trans hn
  | _ => exact hn

theorem new_event {m₁ : OutboxMessageEntity} (hn : m ∉ f.events key)
    (hm : m ∈ (f.addEvent m₁).events key) : m = m₁ := by
  by_cases hk : m₁.routingKey = key
  · rw [f.addEvent_same m₁ hk] at hm
    exact (Set.mem_insert_iff.mp hm).resolve_right hn
  · rw [f.addEvent_other m₁ hk] at hm
    exact absurd hm hn

/-- An event is published by the step that brings its order to the state that it is for. -/
theorem expected_step (hs : OrderStep S t k o f f') (hinv : OrderInv S o f)
    (hn : m ∉ f.events key) (hm : m ∈ f'.events key) :
    (∀ st, awaiting m.payload = some st → ∃ row, f'.order = some row ∧ row.status = st) ∧
      (awaiting m.payload = some .reserved → f'.authorization = none) := by
  cases hs with
  | place row m₁ r absent id status unpaid hkey payload =>
    obtain rfl := new_event (f := f.setOrder row) hn hm
    rw [payload]
    refine ⟨fun st hst => ?_, nofun⟩
    cases hst
    exact ⟨row, rfl, status⟩
  | reject row n m₁ reason order status first hkey payload call =>
    obtain rfl := new_event (f := f.setOrder (row.move .failed n)) hn hm
    rw [payload]
    exact ⟨nofun, nofun⟩
  | pay row n m₁ u order status unpaid call hkey payload =>
    obtain rfl := new_event (f := f.setOrder _) hn hm
    rw [payload]
    refine ⟨fun st hst => ?_, fun _ => ?_⟩
    · cases hst
      exact ⟨_, rfl, status⟩
    · by_contra hledger
      have hpaid := (hinv.present row order).ledger.ledger hledger
      rw [unpaid] at hpaid
      cases hpaid
  | capture row n m₁ order status paying decided hkey payload call =>
    obtain rfl := new_event (f := f.setOrder (row.move .paid n)) hn hm
    rw [payload]
    refine ⟨fun st hst => ?_, nofun⟩
    cases hst
    exact ⟨_, rfl, rfl⟩
  | decline row n m₁ reason order status paying decided hkey payload call =>
    obtain rfl := new_event (f := f.setOrder (row.move .failed n)) hn hm
    rw [payload]
    exact ⟨nofun, nofun⟩
  | complete row n m₁ order status hkey payload call =>
    obtain rfl := new_event (f := f.setOrder (row.move .completed n)) hn hm
    rw [payload]
    exact ⟨nofun, nofun⟩
  | _ => exact absurd hm hn

end OrderLifecycle.Pipeline

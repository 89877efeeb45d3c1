import OrderLifecycle.Lifecycle.StatusSafety
import OrderLifecycle.Pipeline.Filing

open Framework

namespace OrderLifecycle.Pipeline

/-- An order that has been at an outcome of the event stays in these states. -/
def past : OrderEvent → OrderStatus → Bool
  | .created _, status => !decide (status = .pending)
  | .inventoryReserved _, status => decide (status = .paid ∨ status = .completed ∨ status = .failed)
  | .paymentProcessed _, status => decide (status = .completed)
  | .completed _, status => decide (status = .completed)
  | .failed _, status => decide (status = .failed)

/-- The state in which an order waits for the event to be handled. -/
def awaiting : OrderEvent → Option OrderStatus
  | .created _ => some .pending
  | .inventoryReserved _ => some .reserved
  | .paymentProcessed _ => some .paid
  | .completed _ => none
  | .failed _ => none

/-- The order of the event has moved on. -/
def Past (e : OrderEvent) (w : World) : Prop :=
  ∃ row, w.order e.orderId = some row ∧ past e row.status = true

variable {e : OrderEvent} {s : OrderStatus} {t : Tid} {w w' : World} {c : Catalog} {b : Bool}
  {moves : List OrderLifecycle.Move} {id : Uuid} {consumer : Consumer} {m : OutboxMessageEntity}

theorem past_of_outcome (h : s ∈ outcomes e) : past e s = true := by
  cases e with
  | created e =>
    simp only [outcomes, List.mem_cons, List.not_mem_nil, or_false] at h
    rcases h with h | h <;> simp [past, h]
  | inventoryReserved e =>
    simp only [outcomes, List.mem_cons, List.not_mem_nil, or_false] at h
    rcases h with h | h <;> simp [past, h]
  | paymentProcessed e =>
    simp only [outcomes, List.mem_cons, List.not_mem_nil, or_false] at h
    simp [past, h]
  | completed e => cases h
  | failed e => cases h

/-- There is no way back. -/
theorem past_step {s' : OrderStatus} (h : past e s = true) (ha : isTransitionAllowed s s' = true) :
    past e s' = true := by
  cases e <;> cases s <;> cases s' <;> first | rfl | (cases h; done) | cases ha

theorem past_not_awaiting (h : past e s = true) : awaiting e ≠ some s := by
  cases e <;> cases s <;> first | (cases h; done) | simp [awaiting]

/-- An event of the end of an order is published once the order is there. -/
theorem past_of_published {S : Setting} (h : Published m w) (hi : Inv S w)
    (hm : outcomes m.payload = []) : Past m.payload w := by
  obtain ⟨row, hrow, hp, hmem⟩ := h.order hi
  refine ⟨row, hrow, ?_⟩
  cases he : m.payload with
  | completed e =>
    rw [he] at hp hmem
    have hst : row.status = .completed := (hp.events.completed.of_mem hmem).1
    simp [past, hst]
  | failed e =>
    rw [he] at hp hmem
    have hst : row.status = .failed := (hp.events.failed.of_mem hmem).1
    simp [past, hst]
  | _ =>
    rw [he] at hm
    cases hm

theorem Moved.past {S : Setting} (h : Moved m.payload w) (hpub : Published m w) (hi : Inv S w) :
    Past m.payload w := by
  by_cases hm : outcomes m.payload = []
  · exact past_of_published hpub hi hm
  · obtain ⟨row, hrow, hst⟩ := h hm
    exact ⟨row, hrow, past_of_outcome hst⟩

theorem Past.evolves (h : Past e w) (hev : Evolves (w.facts e.orderId) (w'.facts e.orderId)) :
    Past e w' := by
  obtain ⟨row, hrow, hst⟩ := h
  obtain ⟨row', hrow', hfollows⟩ := hev.order row hrow
  refine ⟨row', hrow', ?_⟩
  rcases hfollows.status with he | ha
  · rw [he]
    exact hst
  · exact past_step hst ha

theorem evolves_of_moves {S : Setting} {s s' : Shop} {l : OrderLifecycle.Move}
    (h : (orderLogic S).Moves s s' l) (o : OrderId) :
    Evolves (s.shared.facts o) (s'.shared.facts o) := by
  rcases h.cases with he | ⟨hd, hg⟩ | ⟨t, k, th, -, -, hg⟩
  · rw [he]
    exact .refl _
  · rw [facts_congr (by rw [hd]) (by rw [hd]) hg o]
    exact .refl _
  · exact hg.changes.evolves o

theorem published_evolves (h : Published m w)
    (hev : ∀ o, Evolves (w.facts o) (w'.facts o)) : Published m w' := by
  rw [Published, World.mem_events] at h ⊢
  exact (hev _).events _ h

/-! ### An inbox row certifies progress -/

/-- The row of the inbox is about a message of the outbox, whose order has moved on. -/
def Certified (id : Uuid) (consumer : Consumer) (w : World) : Prop :=
  ∃ m, Published m w ∧ m.id = id ∧ consumerOf m.payload = consumer ∧ Past m.payload w

/-- What runs of the services keep. -/
structure Certificates (s : Shop) : Prop where
  orders : Sound (orderLogic (.any c)) Untouched (Returned (.any c)) s
  filings : Sound filingLogic Idle Handles s
  delivering : ∀ t m th, s.threads t = some (.deliver m, th) → Published m s.shared
  certified : ∀ id consumer, Filed id consumer s.shared → Certified id consumer s.shared

theorem Certified.evolves (h : Certified id consumer w)
    (hev : ∀ o, Evolves (w.facts o) (w'.facts o)) : Certified id consumer w' := by
  obtain ⟨m, hm, hid, hc, hp⟩ := h
  exact ⟨m, published_evolves hm hev, hid, hc, hp.evolves (hev _)⟩

theorem Certificates.next {s s' : Shop} {l : OrderLifecycle.Move} (h : Certificates (c := c) s)
    (hn : orderSystem.next s l = some s') : Certificates (c := c) s' := by
  obtain ⟨horders, hmoves⟩ := h.orders.next (verified_orderSystem (.any c)) (admits_any l) hn
  have hev := evolves_of_moves hmoves
  have hadmits : filingLogic.Admits l := by
    cases l <;> exact trivial
  obtain ⟨hfilings, hfiles⟩ := h.filings.next filed_orderSystem hadmits hn
  have hdelivering : ∀ t m th, s'.threads t = some (.deliver m, th) → Published m s'.shared := by
    intro t m th ht
    rcases orderSystem.next_thread hn t with he | ⟨⟨k, rfl⟩, -⟩ | ⟨k, th₁, th₂, ht₁, -, ht₂⟩
    · exact published_evolves (h.delivering t m th (he ▸ ht)) hev
    · simp only [System.next] at hn
      split at hn
      · split at hn
        · next henabled =>
          cases hn
          simp only [Config.set, Function.update_self, Option.some.injEq, Prod.mk.injEq] at ht
          obtain ⟨rfl, -⟩ := ht
          have hm : m ∈ s.shared.messages := of_decide_eq_true henabled
          exact h.orders.inv.messages m hm
        · cases hn
      · cases hn
    · rw [ht] at ht₂
      cases ht₂
      exact published_evolves (h.delivering t m th₁ ht₁) hev
  refine ⟨horders, hfilings, hdelivering, fun id consumer hf => ?_⟩
  by_cases hold : Filed id consumer s.shared
  · exact (h.certified id consumer hold).evolves hev
  · rcases hfiles.cases with he | hd | ⟨t, k, th, ht, -, hg⟩
    · rw [he] at hf
      exact absurd hf hold
    · have hd' : s'.shared.db = s.shared.db := hd
      rw [Filed, hd'] at hf
      exact absurd hf hold
    · obtain ⟨m, rfl, hid, hc, hmoved⟩ := hg.2.made id consumer hf hold
      have hpub := published_evolves (h.delivering t m th ht) hev
      exact ⟨m, hpub, hid, hc, hmoved.past hpub horders.inv⟩

theorem certificates_initial : Certificates (c := c) (.init (.initial c b)) where
  orders := .init (inv_initial (.any c) b) (untouched_initial c b)
  filings := .init trivial fun _ => rfl
  delivering t m th h := by
    cases h
  certified id consumer h := absurd rfl h

theorem certificates_run {s : Shop} (h : OrderLifecycle.Reaches c b moves s) :
    Certificates (c := c) s :=
  orderSystem.run_induct (A := fun _ => True) (fun _ _ _ _ hn hs => hs.next hn)
    (fun _ _ => trivial) h certificates_initial

/-- A message that is in the inbox of the consumer it is routed to is an event of the outbox, and
its order has left the state in which it waits for this event, for good. -/
theorem inbox_certifies {s : Shop} (h : OrderLifecycle.Reaches c b moves s)
    (hf : Filed id consumer s.shared) :
    ∃ m row, s.shared.outbox id = some m ∧ consumerOf m.payload = consumer ∧
      s.shared.order m.payload.orderId = some row ∧ past m.payload row.status = true ∧
      awaiting m.payload ≠ some row.status := by
  obtain ⟨m, hm, rfl, hc, row, hrow, hpast⟩ := (certificates_run h).certified id consumer hf
  exact ⟨m, row, hm, hc, hrow, hpast, past_not_awaiting hpast⟩

/-- Inventory's record of the order it has reserved. -/
theorem inbox_certifies_reserved : ∃ s, OrderLifecycle.Reaches oneProduct true (placing ++ reserving) s ∧
    Filed 1 .inventory s.shared ∧ ∃ m row, s.shared.outbox 1 = some m ∧
      consumerOf m.payload = .inventory ∧
      s.shared.order m.payload.orderId = some row ∧ past m.payload row.status = true ∧
      awaiting m.payload ≠ some row.status := by
  obtain ⟨s, hs, hobs⟩ := reaches_of_trial (placing ++ reserving)
    (fun s => (s.shared.db.rows (.inbox 1 .inventory)).isSome) true (by decide +kernel)
  have hf : Filed 1 .inventory s.shared := Option.isSome_iff_ne_none.mp hobs
  exact ⟨s, hs, hf, inbox_certifies hs hf⟩

end OrderLifecycle.Pipeline

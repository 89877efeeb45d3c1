import OrderLifecycle.Lifecycle.OrderFacts

open Framework

namespace OrderLifecycle

/-- Exactly one row with payload `e` if `p` holds, no row otherwise. -/
def Exactly (p : Prop) (s : Set OutboxMessageEntity) (e : OrderEvent → Prop) : Prop :=
  (p → ∃ m, s = {m} ∧ e m.payload) ∧ (¬p → s = ∅)

theorem Exactly.congr {p q : Prop} {s : Set OutboxMessageEntity} {e : OrderEvent → Prop}
    (h : Exactly p s e) (hpq : p ↔ q) : Exactly q s e := by
  rwa [← propext hpq]

theorem Exactly.add {p q : Prop} {s : Set OutboxMessageEntity} {e : OrderEvent → Prop}
    {m : OutboxMessageEntity} (h : Exactly p s e) (hp : ¬p) (hq : q) (hm : e m.payload) :
    Exactly q (insert m s) e := by
  refine ⟨fun _ => ⟨m, ?_, hm⟩, fun hn => absurd hq hn⟩
  rw [h.2 hp]
  simp

def OrderStatus.Settled (s : OrderStatus) : Prop := s = .paid ∨ s = .completed

structure StatusOk (o : OrderId) (row : OrderEntity) (f : OrderFacts) : Prop where
  id : row.id = o
  paying : row.paymentInitiatedAt.isSome → row.status ≠ .pending ∧ row.status ≠ .cancelled
  paid : row.status.Settled → row.paymentInitiatedAt.isSome
  reserved : row.status ≠ .pending → row.status ≠ .cancelled → f.reserved

/-- Events agree with state. -/
structure EventsOk (o : OrderId) (row : OrderEntity) (f : OrderFacts) : Prop where
  created : Exactly True (f.events .created) (· = .created ⟨o, row.userId, row.lines⟩)
  inventoryReserved : Exactly row.paymentInitiatedAt.isSome (f.events .inventoryReserved)
    (· = .inventoryReserved ⟨o, row.userId⟩)
  paymentProcessed : Exactly row.status.Settled (f.events .paymentProcessed)
    (· = .paymentProcessed ⟨o, row.userId⟩)
  completed : Exactly (row.status = .completed) (f.events .completed)
    (· = .completed ⟨o, row.userId⟩)
  failed : Exactly (row.status = .failed) (f.events .failed)
    (∃ reason, · = .failed ⟨o, row.userId, reason⟩)

/-- Money agrees with state, the last three for a provider with fixed answers. -/
structure LedgerOk (S : Setting) (o : OrderId) (row : OrderEntity) (f : OrderFacts) : Prop where
  ledger : f.authorization ≠ none → row.paymentInitiatedAt.isSome
  charged : f.charged → f.authorization ≠ none
  decided : ∀ p, S.provider = some p → ∀ a, f.authorization = some a → ∀ b,
    a.authorized = some b → b = (p o).authorized
  captured : S.provider ≠ none → row.status.Settled →
    ∃ a, f.authorization = some a ∧ a.authorized = some true
  declined : S.provider ≠ none → row.status = .failed → row.paymentInitiatedAt.isSome →
    ∃ a, f.authorization = some a ∧ a.authorized = some false

/-- The order holds its lines: from the reservation on, and for good if payment declined. -/
def Holds (row : OrderEntity) : Prop :=
  row.status = .reserved ∨ row.status.Settled ∨
    row.status = .failed ∧ row.paymentInitiatedAt.isSome

/-- What a cancelled order has given back, by what its call had read and had found. -/
def GivenBack (row : OrderEntity) (net : ProductId → Int) (seen found : OrderStatus) : Prop :=
  (found = .pending ∧ seen = .pending ∧ ∀ p, net p = 0) ∨
  (found = .reserved ∧ seen = .pending ∧ ∀ p, net p = -quantityOf row.lines p) ∨
  (found = .reserved ∧ seen = .reserved ∧ ∀ p, -quantityOf row.lines p ≤ net p ∧ net p ≤ 0)

/-- Stock agrees with state. -/
structure StockOk (S : Setting) (row : OrderEntity) (f : OrderFacts) : Prop where
  known : Holds row → ∀ l ∈ row.lines, S.catalog.find l.productId ≠ none
  holds : Holds row → ∀ p, f.net p = -quantityOf row.lines p
  free : ¬Holds row → row.status ≠ .cancelled → ∀ p, f.net p = 0

/-- At most one claim succeeds: that of a payment, or that of a cancel. -/
structure ClaimsOk (S : Setting) (o : OrderId) (row : OrderEntity) (f : OrderFacts) : Prop where
  unclaimed : row.paymentInitiatedAt = none → row.status ≠ .cancelled → f.claims = []
  payer : row.paymentInitiatedAt.isSome → ∃ t, f.claims = [(t, .paymentClaimed o)]
  canceller : row.status = .cancelled → ∃ t seen found,
    f.claims = [(t, .cancelClaimed o seen found)] ∧ GivenBack row f.net seen found ∧
      (found = .reserved → ∀ l ∈ row.lines, S.catalog.find l.productId ≠ none)

/-- Nothing is known of an order that does not exist. -/
structure Absent (f : OrderFacts) : Prop where
  events : ∀ k, f.events k = ∅
  authorization : f.authorization = none
  charged : ¬f.charged
  net : ∀ p, f.net p = 0
  claims : f.claims = []

structure Present (S : Setting) (o : OrderId) (row : OrderEntity) (f : OrderFacts) : Prop where
  status : StatusOk o row f
  events : EventsOk o row f
  ledger : LedgerOk S o row f
  stock : StockOk S row f
  claims : ClaimsOk S o row f

structure OrderInv (S : Setting) (o : OrderId) (f : OrderFacts) : Prop where
  absent : f.order = none → Absent f
  present : ∀ row, f.order = some row → Present S o row f

/-! ### Every step keeps the invariant -/

@[simp] theorem settled_pending : ¬OrderStatus.Settled .pending := by simp [OrderStatus.Settled]
@[simp] theorem settled_reserved : ¬OrderStatus.Settled .reserved := by simp [OrderStatus.Settled]
@[simp] theorem settled_paid : OrderStatus.Settled .paid := .inl rfl
@[simp] theorem settled_completed : OrderStatus.Settled .completed := .inr rfl
@[simp] theorem settled_failed : ¬OrderStatus.Settled .failed := by simp [OrderStatus.Settled]
@[simp] theorem settled_cancelled : ¬OrderStatus.Settled .cancelled := by
  simp [OrderStatus.Settled]

namespace OrderFacts

variable (f : OrderFacts) (row : OrderEntity) (m : OutboxMessageEntity)

@[simp] theorem setOrder_order : (f.setOrder row).order = some row := rfl
@[simp] theorem setOrder_events : (f.setOrder row).events = f.events := rfl
@[simp] theorem setOrder_reserved : (f.setOrder row).reserved = f.reserved := rfl
@[simp] theorem setOrder_authorization : (f.setOrder row).authorization = f.authorization := rfl
@[simp] theorem setOrder_charged : (f.setOrder row).charged = f.charged := rfl
@[simp] theorem setOrder_net : (f.setOrder row).net = f.net := rfl
@[simp] theorem setOrder_claims : (f.setOrder row).claims = f.claims := rfl
@[simp] theorem addEvent_order : (f.addEvent m).order = f.order := rfl
@[simp] theorem addEvent_reserved : (f.addEvent m).reserved = f.reserved := rfl
@[simp] theorem addEvent_authorization : (f.addEvent m).authorization = f.authorization := rfl
@[simp] theorem addEvent_charged : (f.addEvent m).charged = f.charged := rfl
@[simp] theorem addEvent_net : (f.addEvent m).net = f.net := rfl
@[simp] theorem addEvent_claims : (f.addEvent m).claims = f.claims := rfl

theorem addEvent_same {k : RoutingKey} (h : m.routingKey = k) :
    (f.addEvent m).events k = insert m (f.events k) := by simp [addEvent, h]

theorem addEvent_other {k : RoutingKey} (h : m.routingKey ≠ k) :
    (f.addEvent m).events k = f.events k := by simp [addEvent, h]

end OrderFacts

namespace OrderEntity

variable (row : OrderEntity) (s : OrderStatus) (n : Nat)

@[simp] theorem move_id : (row.move s n).id = row.id := rfl
@[simp] theorem move_userId : (row.move s n).userId = row.userId := rfl
@[simp] theorem move_status : (row.move s n).status = s := rfl
@[simp] theorem move_items : (row.move s n).items = row.items := rfl
@[simp] theorem move_lines : (row.move s n).lines = row.lines := rfl
@[simp] theorem move_paymentInitiatedAt :
    (row.move s n).paymentInitiatedAt = row.paymentInitiatedAt := rfl

end OrderEntity

variable {S : Setting} {t : Tid} {k : Request} {o : OrderId} {f f' : OrderFacts}

/-- Payment is only initiated on a reserved order, so a pending one has none. -/
theorem StatusOk.unpaid {row : OrderEntity} (h : StatusOk o row f) (hs : row.status = .pending) :
    row.paymentInitiatedAt = none := by
  by_contra hn
  exact (h.paying (Option.isSome_iff_ne_none.mpr hn)).1 hs

theorem OrderStep.statusOk (hs : OrderStep S t k o f f') (hi : OrderInv S o f)
    {row' : OrderEntity} (h' : f'.order = some row') : StatusOk o row' f' := by
  cases hs with
  | place row m r absent id status unpaid key payload =>
    obtain rfl := Option.some.inj h'
    exact ⟨id, by simp [unpaid], by simp [status], by simp [status]⟩
  | reserve row n order status first known =>
    obtain rfl := Option.some.inj h'
    have hp := (hi.present row order).status
    exact ⟨hp.id, by simp, by simp, by simp⟩
  | reject row n m reason order status first key payload =>
    obtain rfl := Option.some.inj h'
    have hp := (hi.present row order).status
    exact ⟨hp.id, by simp, by simp, by simp⟩
  | pay row n m u order status unpaid call key payload =>
    obtain rfl := Option.some.inj h'
    have hp := (hi.present row order).status
    exact ⟨hp.id, by simp [status], by simp, by simpa using hp.reserved⟩
  | cancel row n seen u order status seen_le call =>
    obtain rfl := Option.some.inj h'
    have hp := (hi.present row order).status
    have hn : row.paymentInitiatedAt = none := by
      rcases status with hs | hs
      · exact hp.unpaid hs
      · exact hs.2
    exact ⟨hp.id, by simp [hn], by simp, by simp⟩
  | restore line claim owed =>
    have hp := (hi.present row' h').status
    exact ⟨hp.id, hp.paying, hp.paid, hp.reserved⟩
  | claimLedger row a order paying free undecided =>
    have hp := (hi.present row' h').status
    exact ⟨hp.id, hp.paying, hp.paid, hp.reserved⟩
  | charge ledger =>
    have hp := (hi.present row' h').status
    exact ⟨hp.id, hp.paying, hp.paid, hp.reserved⟩
  | decide a result ledger undecided answer =>
    have hp := (hi.present row' h').status
    exact ⟨hp.id, hp.paying, hp.paid, hp.reserved⟩
  | capture row n m order status paying decided key payload =>
    obtain rfl := Option.some.inj h'
    have hp := (hi.present row order).status
    exact ⟨hp.id, by simp, fun _ => paying,
      fun _ _ => hp.reserved (by simp [status]) (by simp [status])⟩
  | decline row n m reason order status paying decided key payload =>
    obtain rfl := Option.some.inj h'
    have hp := (hi.present row order).status
    exact ⟨hp.id, by simp, by simp, fun _ _ => hp.reserved (by simp [status]) (by simp [status])⟩
  | complete row n m order status key payload =>
    obtain rfl := Option.some.inj h'
    have hp := (hi.present row order).status
    exact ⟨hp.id, by simp, fun _ => hp.paid (by simp [status]),
      fun _ _ => hp.reserved (by simp [status]) (by simp [status])⟩

theorem Exactly.none {s : Set OutboxMessageEntity} {e : OrderEvent → Prop} (h : s = ∅) {p : Prop}
    (hp : ¬p) : Exactly p s e :=
  ⟨fun h' => absurd h' hp, fun _ => h⟩

theorem OrderStep.eventsOk (hs : OrderStep S t k o f f') (hi : OrderInv S o f)
    {row' : OrderEntity} (h' : f'.order = some row') : EventsOk o row' f' := by
  cases hs with
  | place row m r absent id status unpaid key payload =>
    obtain rfl := Option.some.inj h'
    have ha := (hi.absent absent).events
    refine ⟨⟨fun _ => ⟨m, ?_, payload⟩, fun h => absurd trivial h⟩,
      .none ?_ (by simp [unpaid]), .none ?_ (by simp [status]), .none ?_ (by simp [status]),
      .none ?_ (by simp [status])⟩
    all_goals simp [OrderFacts.addEvent, key, ha]
  | reserve row n order status first known =>
    obtain rfl := Option.some.inj h'
    have hp := (hi.present row order).events
    exact ⟨hp.created, hp.inventoryReserved, hp.paymentProcessed.congr (by simp [status]),
      hp.completed.congr (by simp [status]), hp.failed.congr (by simp [status])⟩
  | reject row n m reason order status first key payload =>
    obtain rfl := Option.some.inj h'
    have hp := (hi.present row order).events
    refine ⟨?_, ?_, ?_, ?_, ?_⟩ <;> simp only [OrderFacts.addEvent, key]
    · exact hp.created
    · exact hp.inventoryReserved
    · exact hp.paymentProcessed.congr (by simp [status])
    · exact hp.completed.congr (by simp [status])
    · exact hp.failed.add (by simp [status]) rfl ⟨reason, payload⟩
  | pay row n m u order status unpaid call key payload =>
    obtain rfl := Option.some.inj h'
    have hp := (hi.present row order).events
    refine ⟨?_, ?_, ?_, ?_, ?_⟩ <;> simp only [OrderFacts.addEvent, key]
    · exact hp.created
    · exact hp.inventoryReserved.add (by simp [unpaid]) rfl payload
    · exact hp.paymentProcessed
    · exact hp.completed
    · exact hp.failed
  | cancel row n seen u order status seen_le call =>
    obtain rfl := Option.some.inj h'
    have hp := (hi.present row order).events
    have ho : row.status = .pending ∨ row.status = .reserved := status.imp_right And.left
    refine ⟨hp.created, hp.inventoryReserved, hp.paymentProcessed.congr ?_,
      hp.completed.congr ?_, hp.failed.congr ?_⟩ <;>
      rcases ho with ho | ho <;> simp [ho]
  | restore line claim owed =>
    have hp := (hi.present row' h').events
    exact ⟨hp.created, hp.inventoryReserved, hp.paymentProcessed, hp.completed, hp.failed⟩
  | claimLedger row a order paying free undecided =>
    have hp := (hi.present row' h').events
    exact ⟨hp.created, hp.inventoryReserved, hp.paymentProcessed, hp.completed, hp.failed⟩
  | charge ledger =>
    have hp := (hi.present row' h').events
    exact ⟨hp.created, hp.inventoryReserved, hp.paymentProcessed, hp.completed, hp.failed⟩
  | decide a result ledger undecided answer =>
    have hp := (hi.present row' h').events
    exact ⟨hp.created, hp.inventoryReserved, hp.paymentProcessed, hp.completed, hp.failed⟩
  | capture row n m order status paying decided key payload =>
    obtain rfl := Option.some.inj h'
    have hp := (hi.present row order).events
    refine ⟨?_, ?_, ?_, ?_, ?_⟩ <;> simp only [OrderFacts.addEvent, key]
    · exact hp.created
    · exact hp.inventoryReserved
    · exact hp.paymentProcessed.add (by simp [status]) settled_paid payload
    · exact hp.completed.congr (by simp [status])
    · exact hp.failed.congr (by simp [status])
  | decline row n m reason order status paying decided key payload =>
    obtain rfl := Option.some.inj h'
    have hp := (hi.present row order).events
    refine ⟨?_, ?_, ?_, ?_, ?_⟩ <;> simp only [OrderFacts.addEvent, key]
    · exact hp.created
    · exact hp.inventoryReserved
    · exact hp.paymentProcessed.congr (by simp [status])
    · exact hp.completed.congr (by simp [status])
    · exact hp.failed.add (by simp [status]) rfl ⟨reason, payload⟩
  | complete row n m order status key payload =>
    obtain rfl := Option.some.inj h'
    have hp := (hi.present row order).events
    refine ⟨?_, ?_, ?_, ?_, ?_⟩ <;> simp only [OrderFacts.addEvent, key]
    · exact hp.created
    · exact hp.inventoryReserved
    · exact hp.paymentProcessed.congr (by simp [status])
    · exact hp.completed.add (by simp [status]) rfl payload
    · exact hp.failed.congr (by simp [status])

theorem OrderStep.ledgerOk (hs : OrderStep S t k o f f') (hi : OrderInv S o f)
    {row' : OrderEntity} (h' : f'.order = some row') : LedgerOk S o row' f' := by
  cases hs with
  | place row m r absent id status unpaid key payload =>
    obtain rfl := Option.some.inj h'
    have ha := hi.absent absent
    exact ⟨fun h => absurd ha.authorization h, fun h => absurd h ha.charged,
      fun _ _ a h => by simp [ha.authorization] at h, by simp [status], by simp [status]⟩
  | reserve row n order status first known =>
    obtain rfl := Option.some.inj h'
    have hp := (hi.present row order).ledger
    exact ⟨hp.ledger, hp.charged, hp.decided, by simp, by simp⟩
  | reject row n m reason order status first key payload =>
    obtain rfl := Option.some.inj h'
    have hp := hi.present row order
    have hn := hp.status.unpaid status
    exact ⟨hp.ledger.ledger, hp.ledger.charged, hp.ledger.decided, by simp, by simp [hn]⟩
  | pay row n m u order status unpaid call key payload =>
    obtain rfl := Option.some.inj h'
    have hp := (hi.present row order).ledger
    exact ⟨fun _ => rfl, hp.charged, hp.decided, by simp [status], by simp [status]⟩
  | cancel row n seen u order status seen_le call =>
    obtain rfl := Option.some.inj h'
    have hp := (hi.present row order).ledger
    exact ⟨hp.ledger, hp.charged, hp.decided, by simp, by simp⟩
  | restore line claim owed =>
    have hp := (hi.present row' h').ledger
    exact ⟨hp.ledger, hp.charged, hp.decided, hp.captured, hp.declined⟩
  | claimLedger row a order paying free undecided =>
    obtain rfl : row = row' := Option.some.inj (order.symm.trans h')
    have hp := (hi.present row order).ledger
    refine ⟨fun _ => paying, by simp, ?_, fun hf hs => ?_, fun hf hs hq => ?_⟩
    · rintro p hp a' ⟨⟩ b hb
      simp [undecided] at hb
    · obtain ⟨a', ha', -⟩ := hp.captured hf hs
      simp [free] at ha'
    · obtain ⟨a', ha', -⟩ := hp.declined hf hs hq
      simp [free] at ha'
  | charge ledger =>
    have hp := (hi.present row' h').ledger
    exact ⟨hp.ledger, fun _ => ledger, hp.decided, hp.captured, hp.declined⟩
  | decide a result ledger undecided answer =>
    have hp := (hi.present row' h').ledger
    refine ⟨fun _ => hp.ledger (by simp [ledger]), by simp, ?_, fun hf hs => ?_, fun hf hs hq => ?_⟩
    · rintro p hp a' ⟨⟩ b ⟨⟩
      rw [answer p hp]
    · obtain ⟨a', ha', hd⟩ := hp.captured hf hs
      obtain rfl : a = a' := Option.some.inj (ledger.symm.trans ha')
      simp [undecided] at hd
    · obtain ⟨a', ha', hd⟩ := hp.declined hf hs hq
      obtain rfl : a = a' := Option.some.inj (ledger.symm.trans ha')
      simp [undecided] at hd
  | capture row n m order status paying decided key payload =>
    obtain rfl := Option.some.inj h'
    have hp := (hi.present row order).ledger
    exact ⟨hp.ledger, hp.charged, hp.decided, fun hf _ => decided hf, by simp⟩
  | decline row n m reason order status paying decided key payload =>
    obtain rfl := Option.some.inj h'
    have hp := (hi.present row order).ledger
    exact ⟨hp.ledger, hp.charged, hp.decided, by simp, fun hf _ _ => decided hf⟩
  | complete row n m order status key payload =>
    obtain rfl := Option.some.inj h'
    have hp := (hi.present row order).ledger
    exact ⟨hp.ledger, hp.charged, hp.decided, fun hf _ => hp.captured hf (by simp [status]),
      by simp⟩

/-- Only a cancelled order has a cancel claim. -/
theorem Present.cancelled_of_claim {row : OrderEntity} (h : Present S o row f) {t' : Tid}
    {seen found : OrderStatus} (hc : f.claims = [(t', .cancelClaimed o seen found)]) :
    row.status = .cancelled := by
  by_contra hs
  by_cases hn : row.paymentInitiatedAt = none
  · simp [h.claims.unclaimed hn hs] at hc
  · obtain ⟨t', ht'⟩ := h.claims.payer (Option.isSome_iff_ne_none.mpr hn)
    simp [ht'] at hc

theorem Holds.of_reserved {row : OrderEntity} (h : row.status = .reserved) : Holds row := .inl h

theorem not_holds_of_pending {row : OrderEntity} (h : row.status = .pending) : ¬Holds row := by
  simp [Holds, h]

theorem OrderStep.stockOk (hs : OrderStep S t k o f f') (hi : OrderInv S o f)
    {row' : OrderEntity} (h' : f'.order = some row') : StockOk S row' f' := by
  cases hs with
  | place row m r absent id status unpaid key payload =>
    obtain rfl := Option.some.inj h'
    have hn := not_holds_of_pending status
    exact ⟨fun h => absurd h hn, fun h => absurd h hn, fun _ _ => (hi.absent absent).net⟩
  | reserve row n order status first known =>
    obtain rfl := Option.some.inj h'
    have hp := (hi.present row order).stock
    have hz := hp.free (not_holds_of_pending status) (by simp [status])
    have hh : Holds (row.move .reserved n) := .of_reserved rfl
    exact ⟨fun _ => known, fun _ p => by simp [hz p], fun h => absurd hh h⟩
  | reject row n m reason order status first key payload =>
    obtain rfl := Option.some.inj h'
    have hp := hi.present row order
    have hn : ¬Holds (row.move .failed n) := by
      simp [Holds, hp.status.unpaid status]
    exact ⟨fun h => absurd h hn, fun h => absurd h hn,
      fun _ _ => hp.stock.free (not_holds_of_pending status) (by simp [status])⟩
  | pay row n m u order status unpaid call key payload =>
    obtain rfl := Option.some.inj h'
    have hp := (hi.present row order).stock
    have hh := Holds.of_reserved status
    exact ⟨fun _ => hp.known hh, fun _ => hp.holds hh,
      fun h => absurd (.of_reserved status) h⟩
  | cancel row n seen u order status seen_le call =>
    obtain rfl := Option.some.inj h'
    have hn : ¬Holds (row.move .cancelled n) := by simp [Holds]
    exact ⟨fun h => absurd h hn, fun h => absurd h hn, fun _ h => absurd rfl h⟩
  | restore line claim owed =>
    have hp := hi.present row' h'
    have hc := hp.cancelled_of_claim claim
    have hn : ¬Holds row' := by simp [Holds, hc]
    exact ⟨fun h => absurd h hn, fun h => absurd h hn, fun _ h => absurd hc h⟩
  | claimLedger row a order paying free undecided =>
    have hp := (hi.present row' h').stock
    exact ⟨hp.known, hp.holds, hp.free⟩
  | charge ledger =>
    have hp := (hi.present row' h').stock
    exact ⟨hp.known, hp.holds, hp.free⟩
  | decide a result ledger undecided answer =>
    have hp := (hi.present row' h').stock
    exact ⟨hp.known, hp.holds, hp.free⟩
  | capture row n m order status paying decided key payload =>
    obtain rfl := Option.some.inj h'
    have hp := (hi.present row order).stock
    have hh := Holds.of_reserved status
    exact ⟨fun _ => hp.known hh, fun _ => hp.holds hh, fun h => absurd (.inr (.inl settled_paid)) h⟩
  | decline row n m reason order status paying decided key payload =>
    obtain rfl := Option.some.inj h'
    have hp := (hi.present row order).stock
    have hh := Holds.of_reserved status
    exact ⟨fun _ => hp.known hh, fun _ => hp.holds hh,
      fun h => absurd (.inr (.inr ⟨rfl, paying⟩)) h⟩
  | complete row n m order status key payload =>
    obtain rfl := Option.some.inj h'
    have hp := (hi.present row order).stock
    have hh : Holds row := .inr (.inl (.inl status))
    exact ⟨fun _ => hp.known hh, fun _ => hp.holds hh,
      fun h => absurd (.inr (.inl settled_completed)) h⟩

theorem OrderStep.claimsOk (hs : OrderStep S t k o f f') (hi : OrderInv S o f)
    {row' : OrderEntity} (h' : f'.order = some row') : ClaimsOk S o row' f' := by
  cases hs with
  | place row m r absent id status unpaid key payload =>
    obtain rfl := Option.some.inj h'
    exact ⟨fun _ _ => (hi.absent absent).claims, by simp [unpaid], by simp [status]⟩
  | reserve row n order status first known =>
    obtain rfl := Option.some.inj h'
    have hp := (hi.present row order).claims
    exact ⟨fun h _ => hp.unclaimed h (by simp [status]), hp.payer, by simp⟩
  | reject row n m reason order status first key payload =>
    obtain rfl := Option.some.inj h'
    have hp := (hi.present row order).claims
    exact ⟨fun h _ => hp.unclaimed h (by simp [status]), hp.payer, by simp⟩
  | pay row n m u order status unpaid call key payload =>
    obtain rfl := Option.some.inj h'
    have hc := (hi.present row order).claims.unclaimed unpaid (by simp [status])
    exact ⟨by simp, fun _ => ⟨t, by simp [hc]⟩, by simp [status]⟩
  | cancel row n seen u order status seen_le call =>
    obtain rfl := Option.some.inj h'
    have hp := hi.present row order
    have hn : row.paymentInitiatedAt = none := by
      rcases status with hs | hs
      · exact hp.status.unpaid hs
      · exact hs.2
    have hc := hp.claims.unclaimed hn (by rcases status with hs | hs <;> simp [hs])
    refine ⟨by simp, by simp [hn], fun _ => ⟨t, seen, row.status, by simp [hc], ?_, fun hr => ?_⟩⟩
    · rcases status with hs | hs
      · have hz := hp.stock.free (not_holds_of_pending hs) (by simp [hs])
        rcases seen_le with h | h
        · exact .inl ⟨hs, h, hz⟩
        · simp [hs] at h
      · have hh := hp.stock.holds (.of_reserved hs.1)
        rcases seen_le with h | h
        · exact .inr (.inl ⟨hs.1, h, hh⟩)
        · refine .inr (.inr ⟨hs.1, h.1, fun p => ?_⟩)
          have := hh p
          simp only [OrderFacts.setOrder_net, OrderEntity.move_lines]
          omega
    · exact hp.stock.known (.of_reserved hr)
  | restore line claim owed =>
    have hp := hi.present row' h'
    have hc := hp.cancelled_of_claim claim
    refine ⟨fun _ h => absurd hc h, hp.claims.payer, fun _ => ?_⟩
    obtain ⟨t', seen, found, hcl, hg, hk⟩ := hp.claims.canceller hc
    rw [claim] at hcl
    simp only [List.cons.injEq, Prod.mk.injEq, Deed.cancelClaimed.injEq, true_and,
      and_true] at hcl
    obtain ⟨rfl, rfl, rfl⟩ := hcl
    refine ⟨t, .reserved, .reserved, claim, .inr (.inr ⟨rfl, rfl, fun p => ?_⟩), hk⟩
    rcases hg with hg | hg | hg
    · simp at hg
    · simp at hg
    · have hb := hg.2.2 p
      by_cases e : p = line.productId
      · subst e
        simp only [Function.update_self]
        omega
      · simpa only [Function.update_of_ne e] using hb
  | claimLedger row a order paying free undecided =>
    have hp := (hi.present row' h').claims
    exact ⟨hp.unclaimed, hp.payer, hp.canceller⟩
  | charge ledger =>
    have hp := (hi.present row' h').claims
    exact ⟨hp.unclaimed, hp.payer, hp.canceller⟩
  | decide a result ledger undecided answer =>
    have hp := (hi.present row' h').claims
    exact ⟨hp.unclaimed, hp.payer, hp.canceller⟩
  | capture row n m order status paying decided key payload =>
    obtain rfl := Option.some.inj h'
    have hp := (hi.present row order).claims
    exact ⟨fun h => absurd h (Option.isSome_iff_ne_none.mp paying), hp.payer, by simp⟩
  | decline row n m reason order status paying decided key payload =>
    obtain rfl := Option.some.inj h'
    have hp := (hi.present row order).claims
    exact ⟨fun h => absurd h (Option.isSome_iff_ne_none.mp paying), hp.payer, by simp⟩
  | complete row n m order status key payload =>
    obtain rfl := Option.some.inj h'
    have hp := hi.present row order
    have hq := hp.status.paid (by simp [status])
    exact ⟨fun h => absurd h (Option.isSome_iff_ne_none.mp hq), hp.claims.payer, by simp⟩

/-- An order comes into being by `place` only, and never goes away. -/
theorem OrderStep.order_ne_none (hs : OrderStep S t k o f f') (hi : OrderInv S o f) :
    f'.order ≠ none := by
  have hn : f.order = none → Absent f := hi.absent
  cases hs with
  | restore line claim owed =>
    intro h
    simp [(hn h).claims] at claim
  | charge ledger => exact fun h => ledger (hn h).authorization
  | decide a result ledger undecided answer =>
    intro h
    simp [(hn h).authorization] at ledger
  | claimLedger row a order paying free undecided => simp [order]
  | _ => simp

theorem OrderStep.inv (hs : OrderStep S t k o f f') (hi : OrderInv S o f) : OrderInv S o f' :=
  ⟨fun h => absurd h (hs.order_ne_none hi), fun _ h =>
    ⟨hs.statusOk hi h, hs.eventsOk hi h, hs.ledgerOk hi h, hs.stockOk hi h, hs.claimsOk hi h⟩⟩

end OrderLifecycle

import OrderLifecycle.Lifecycle.Authorization
import OrderLifecycle.Lifecycle.Cancel

open Framework

namespace OrderLifecycle

variable {S : Setting} {t : Tid} {k : Request} {w w' : World} {o : OrderId} {u : UserId}
  {D : Draft} {before : Option OrderEntity} {m : OutboxMessageEntity}

/-! ### Messages -/

/-- The message is a committed outbox row. -/
def Published (m : OutboxMessageEntity) (w : World) : Prop := w.db.rows (.outbox m.id) = some m

theorem lasting_published : (orderLogic S).Lasting (Published m) := by
  refine lasting_of_evolves fun w w' he h => ?_
  rw [Published, World.mem_events] at h ⊢
  exact (he _).events _ h

theorem Exactly.of_mem {p : Prop} {s : Set OutboxMessageEntity} {e : OrderEvent → Prop}
    (h : Exactly p s e) (hm : m ∈ s) : p ∧ s = {m} ∧ e m.payload := by
  by_cases hp : p
  · obtain ⟨m', rfl, he⟩ := h.1 hp
    obtain rfl : m = m' := hm
    exact ⟨hp, rfl, he⟩
  · rw [h.2 hp] at hm
    exact hm.elim

theorem EventsOk.key {row : OrderEntity} {f : OrderFacts} (h : EventsOk o row f)
    (hm : m ∈ f.events m.routingKey) : m.payload.routingKey = m.routingKey := by
  cases hk : m.routingKey <;> rw [hk] at hm
  · rw [(h.created.of_mem hm).2.2]
    rfl
  · rw [(h.inventoryReserved.of_mem hm).2.2]
    rfl
  · rw [(h.paymentProcessed.of_mem hm).2.2]
    rfl
  · rw [(h.completed.of_mem hm).2.2]
    rfl
  · obtain ⟨-, -, reason, hp⟩ := h.failed.of_mem hm
    rw [hp]
    rfl

/-- An order has one event of a kind. -/
theorem EventsOk.unique {row : OrderEntity} {f : OrderFacts} {m' : OutboxMessageEntity}
    {key : RoutingKey} (h : EventsOk o row f) (hm : m ∈ f.events key) (hm' : m' ∈ f.events key) :
    m' = m := by
  have eq {p : Prop} {s : Set OutboxMessageEntity} {e : OrderEvent → Prop} (hs : Exactly p s e)
      (hm : m ∈ s) (hm' : m' ∈ s) : m' = m := by
    rw [(hs.of_mem hm).2.1] at hm'
    exact hm'
  cases key with
  | created => exact eq h.created hm hm'
  | inventoryReserved => exact eq h.inventoryReserved hm hm'
  | paymentProcessed => exact eq h.paymentProcessed hm hm'
  | completed => exact eq h.completed hm hm'
  | failed => exact eq h.failed hm hm'

/-- Every event names the owner of its order. -/
theorem EventsOk.owner {row : OrderEntity} {f : OrderFacts} (h : EventsOk o row f)
    {key : RoutingKey} (hm : m ∈ f.events key) : m.payload.userId = row.userId := by
  cases key with
  | created => rw [(h.created.of_mem hm).2.2]; rfl
  | inventoryReserved => rw [(h.inventoryReserved.of_mem hm).2.2]; rfl
  | paymentProcessed => rw [(h.paymentProcessed.of_mem hm).2.2]; rfl
  | completed => rw [(h.completed.of_mem hm).2.2]; rfl
  | failed =>
    obtain ⟨-, -, reason, hp⟩ := h.failed.of_mem hm
    rw [hp]
    rfl

/-- A published message is about an order that exists. -/
theorem Published.order (h : Published m w) (hi : Inv S w) :
    ∃ row, (w.facts m.payload.orderId).order = some row ∧
      Present S m.payload.orderId row (w.facts m.payload.orderId) ∧
      m ∈ (w.facts m.payload.orderId).events m.payload.routingKey := by
  have hm := (World.mem_events m).mp h
  cases hrow : (w.facts m.payload.orderId).order with
  | none =>
    rw [((hi.orders _).absent hrow).events] at hm
    exact hm.elim
  | some row =>
    have hp := (hi.orders _).present row hrow
    exact ⟨row, rfl, hp, by rwa [hp.events.key hm]⟩

/-- Its delivery is that of an event of its order. -/
theorem Published.called (h : Published m w) (hi : Inv S w) :
    Called (.deliver m) m.payload.routingKey m.payload.orderId w := by
  obtain ⟨-, -, -, hmem⟩ := h.order hi
  exact ⟨m, hmem, rfl⟩

theorem Published.created (h : Published m w) (hi : Inv S w) {e : OrderCreatedEvent}
    (hm : m.payload = .created e) : ∃ row, (w.facts e.orderId).order = some row ∧
      e.userId = row.userId ∧ e.items = row.lines ∧ (w.facts e.orderId).events .created = {m} := by
  obtain ⟨row, hrow, hp, hmem⟩ := h.order hi
  rw [hm] at hrow hp hmem
  obtain ⟨-, hs, he⟩ := hp.events.created.of_mem hmem
  have he := OrderEvent.created.inj (hm.symm.trans he)
  exact ⟨row, hrow, congrArg (·.userId) he, congrArg (·.items) he, hs⟩

theorem Published.paying (h : Published m w) (hi : Inv S w) {e : InventoryReservedEvent}
    (hm : m.payload = .inventoryReserved e) : Paying e.orderId e.userId w := by
  obtain ⟨row, hrow, hp, hmem⟩ := h.order hi
  rw [hm] at hrow hp hmem
  obtain ⟨hpaid, -, he⟩ := hp.events.inventoryReserved.of_mem hmem
  have he := OrderEvent.inventoryReserved.inj (hm.symm.trans he)
  exact ⟨row, hrow, (congrArg (·.userId) he).symm, hpaid⟩

theorem Published.paid (h : Published m w) (hi : Inv S w) {e : PaymentProcessedEvent}
    (hm : m.payload = .paymentProcessed e) : Paying e.orderId e.userId w := by
  obtain ⟨row, hrow, hp, hmem⟩ := h.order hi
  rw [hm] at hrow hp hmem
  obtain ⟨hpaid, -, he⟩ := hp.events.paymentProcessed.of_mem hmem
  have he := OrderEvent.paymentProcessed.inj (hm.symm.trans he)
  exact ⟨row, hrow, (congrArg (·.userId) he).symm, hp.status.paid hpaid⟩

/-! ### `transitionOrder` in a transaction -/

theorem hoare_transitionOrder {target : OrderStatus} (hD : D.order = none) :
    Hoare (orderLogic S) t k (Staged t D before) (transitionOrder o target)
      (fun _ w => ∃ row n, isTransitionAllowed row.status target = true ∧
        Staged t { D with order := some (o, row.move target n) } (some row) w)
      (fun e _ => ∀ p, e ≠ .insufficientStock p) := by
  have htx : ∀ e w, TxError t e w → ∀ p, e ≠ .insufficientStock p := by
    rintro e w ⟨rfl, -⟩ p
    nofun
  refine hoare_bind (hoare_conseq (hoare_selectRow_staged _) (fun _ h => h) (fun _ _ h => h) htx)
    fun order => ?_
  cases order with
  | none => exact hoare_throw fun _ _ p => nofun
  | some order =>
    refine hoare_ite (fun _ => hoare_throw fun _ _ p => nofun) fun hallowed => ?_
    refine hoare_bind (hoare_conseq (hoare_updateOrder_staged hD ?_) (fun _ h => h)
      (fun _ _ h => h) htx) fun n => ?_
    · exact fun _ _ h => nomatch h
    refine hoare_or (hoare_fact fun hn => ?_) (hoare_fact fun hn => ?_)
    · rw [if_pos hn]
      exact hoare_throw fun _ _ p => nofun
    · rw [if_neg (by omega)]
      refine hoare_pre (P := fun w => ∃ row n, isTransitionAllowed row.status target = true ∧
        Staged t { D with order := some (o, row.move target n) } (some row) w) ?_ ?_
      · rintro w ⟨row, ch, hp, hs⟩
        rw [List.map_nil, List.append_nil] at hs
        refine ⟨row, ch.now, ?_, hs⟩
        rw [eq_of_beq hp]
        simpa using hallowed
      · have hstable : (orderLogic S).Stable t fun w => ∃ row n,
            isTransitionAllowed row.status target = true ∧
              Staged t { D with order := some (o, row.move target n) } (some row) w :=
          .exists fun _ => .exists fun _ => (Logic.Stable.const _).and stable_staged
        refine hoare_bind (hoare_record hstable _) fun _ => ?_
        exact hoare_bind (hoare_cacheDel hstable _) fun _ => hoare_pure fun _ h => h

/-! ### `InventoryConsumer` -/

theorem eq_pending {s : OrderStatus} (h : isTransitionAllowed s .reserved = true) :
    s = .pending := by
  cases s <;> first | rfl | cases h

theorem eq_reserved {s : OrderStatus} (h : isTransitionAllowed s .paid = true) :
    s = .reserved := by
  cases s <;> first | rfl | cases h

theorem eq_paid {s : OrderStatus} (h : isTransitionAllowed s .completed = true) : s = .paid := by
  cases s <;> first | rfl | cases h

theorem pending_or_reserved {s : OrderStatus} (h : isTransitionAllowed s .failed = true) :
    s = .pending ∨ s = .reserved := by
  cases s <;> first | exact .inl rfl | exact .inr rfl | cases h

theorem Published.inbox (h : Published m w) (hm : m.payload.orderId = o)
    {row : ProcessedMessageEntity} {c : Consumer} :
    ∀ x ∈ some (m.id, c, row), x.2.1 = .inventory →
      ∃ m', w.db.rows (.outbox m'.id) = some m' ∧ m'.id = x.1 ∧ m'.payload.orderId = o := by
  rintro x ⟨⟩ -
  exact ⟨m, h, rfl, hm⟩

theorem filter_claims_nil {n : ProductId → Int} {j : Journal} (h : Moved o n j) :
    (j.filter fun d => d.2.claims o) = [] := by
  rw [List.filter_eq_nil_iff]
  intro d hd
  simp [h.unclaimed d hd]

theorem legal_reserve {e : OrderCreatedEvent} {row : OrderEntity} {n : Nat}
    {r : ProcessedMessageEntity} (hm : m.payload = .created e)
    (hst : isTransitionAllowed row.status .reserved = true)
    (hknown : ∀ line ∈ e.items, S.catalog.find line.productId ≠ none) :
    Legal S t (.deliver m) e.orderId (Published m) (some row)
      { Draft.ofJournal (taken t e.orderId e.items) with
        order := some (e.orderId, row.move .reserved n)
        inbox := some (m.id, .inventory, r) } := by
  have hmoved := moved_taken (t := t) (o := e.orderId) e.items
  refine ⟨⟨?_, fun _ h => (nomatch h), fun _ h => (nomatch h), hmoved.about⟩,
    fun w _ h => h.inbox (by rw [hm]; rfl), fun w w' hi hpub hb hin c => ?_⟩
  · rintro x ⟨⟩
    rfl
  have horder : (w.facts e.orderId).order = some row := hb nofun
  obtain ⟨row', hrow', -, hitems, hevents⟩ := hpub.created hi hm
  obtain rfl : row' = row := Option.some.inj (hrow'.symm.trans horder)
  have hr := c.reserved_done (fun _ h => (nomatch h)) hevents ⟨_, rfl, rfl, rfl⟩
  have hfirst : ¬(w.facts e.orderId).reserved :=
    not_reserved (by rw [← World.facts, hevents]; rfl) (hin _ rfl)
  rw [hr, Draft.apply_order rfl rfl rfl]
  have := OrderStep.reserve (S := S) (t := t) (k := .deliver m) (o := e.orderId) _ row' n horder
    (eq_pending hst) hfirst (hitems ▸ hknown) ⟨m, by rw [hevents]; rfl, rfl⟩
  rw [hitems] at hmoved
  simpa [Draft.ofJournal, hmoved.net, filter_claims_nil hmoved, hitems, Int.sub_eq_add_neg] using this

theorem legal_reject {e : OrderCreatedEvent} {row : OrderEntity} {n : Nat} {j : Journal}
    {reason : String} {m' : OutboxMessageEntity} {r : ProcessedMessageEntity}
    (hm : m.payload = .created e) (hst : isTransitionAllowed row.status .failed = true)
    (hmoved : Moved e.orderId (fun _ => 0) j) (hkey : m'.routingKey = .failed)
    (hm' : m'.payload = .failed ⟨e.orderId, e.userId, reason⟩) :
    Legal S t (.deliver m) e.orderId (Published m) (some row)
      { Draft.ofJournal j with
        order := some (e.orderId, row.move .failed n)
        event := some m'
        inbox := some (m.id, .inventory, r) } := by
  refine ⟨⟨?_, ?_, fun _ h => (nomatch h), hmoved.about⟩,
    fun w _ h => h.inbox (by rw [hm]; rfl), fun w w' hi hpub hb hin c => ?_⟩
  · rintro x ⟨⟩
    rfl
  · rintro x ⟨⟩
    rw [hm']
    rfl
  have horder : (w.facts e.orderId).order = some row := hb nofun
  obtain ⟨row', hrow', hu, -, hevents⟩ := hpub.created hi hm
  obtain rfl : row' = row := Option.some.inj (hrow'.symm.trans horder)
  have hr := c.reserved_done (by rintro x ⟨⟩; rw [hkey]; nofun) hevents ⟨_, rfl, rfl, rfl⟩
  have hfirst : ¬(w.facts e.orderId).reserved :=
    not_reserved (by rw [← World.facts, hevents]; rfl) (hin _ rfl)
  have hpending : row'.status = .pending := by
    refine (pending_or_reserved hst).resolve_right fun h => hfirst ?_
    exact ((hi.orders _).present row' horder).status.reserved (by simp [h]) (by simp [h])
  rw [hr, Draft.apply_order_event rfl rfl (by rw [hm']; rfl) rfl]
  have := OrderStep.reject (S := S) (t := t) (k := .deliver m) (o := e.orderId) _ row' n m' reason
    horder hpending hfirst hkey (by rw [hm', hu]) ⟨m, by rw [hevents]; rfl, rfl⟩
  simpa [Draft.ofJournal, hmoved.net, filter_claims_nil hmoved] using this

/-- What the work of a consumer leaves staged may be committed with its inbox row. -/
def Ready (S : Setting) (t : Tid) (k : Request) (o : OrderId) (F : World → Prop) (id : Uuid)
    (c : Consumer) (w : World) : Prop :=
  ∃ D before, (D.inbox = none ∧
    ∀ row, Legal S t k o F before { D with inbox := some (id, c, row) }) ∧
    Staged t D before w ∧ F w

theorem hoare_reserveWork {e : OrderCreatedEvent} (hm : m.payload = .created e) :
    Hoare (orderLogic S) t (.deliver m) (fun w => Staged t .empty none w ∧ Published m w)
      (reserveWork e) (fun _ => Ready S t (.deliver m) e.orderId (Published m) m.id .inventory)
      (fun _ _ => True) := by
  refine hoare_tryCatch (E := fun error w => Compensated t e.orderId error w ∧ Published m w)
    ?_ fun error => ?_
  · refine hoare_bind (hoare_frame lasting_published (hoare_reserveStock e.items)) fun _ => ?_
    refine hoare_pre (P := fun w => (∀ line ∈ e.items, S.catalog.find line.productId ≠ none) ∧
      Staged t (.ofJournal (taken t e.orderId e.items)) none w ∧ Published m w)
      (fun _ h => ⟨h.1.1, h.1.2, h.2⟩) (hoare_fact fun hknown => ?_)
    refine hoare_bind (hoare_conseq (hoare_frame lasting_published (hoare_transitionOrder rfl))
      (fun _ h => h) (fun _ _ h => h)
      fun _ _ h => ⟨fun ⟨p, hp⟩ => absurd hp (h.1 p), h.2⟩) fun _ => ?_
    refine hoare_pure fun w ⟨⟨row, n, hst, hs⟩, hpub⟩ => ?_
    exact ⟨_, some row, ⟨rfl, fun r => legal_reserve hm hst hknown⟩, hs, hpub⟩
  · cases error with
    | insufficientStock p =>
      refine hoare_pre (P := fun w => ∃ j, Moved e.orderId (fun _ => 0) j ∧
        Staged t (.ofJournal j) none w ∧ Published m w) ?_ ?_
      · intro w ⟨hc, hpub⟩
        obtain ⟨j, hj, hs⟩ := hc ⟨p, rfl⟩
        exact ⟨j, hj, hs, hpub⟩
      refine hoare_exists fun j => hoare_fact fun hj => ?_
      refine hoare_bind (hoare_conseq (hoare_frame lasting_published (hoare_transitionOrder rfl))
        (fun _ h => h) (fun _ _ h => h) fun _ _ _ => trivial) fun _ => ?_
      refine hoare_pre (P := fun w => ∃ row n, isTransitionAllowed row.status .failed = true ∧
        Staged t { Draft.ofJournal j with order := some (e.orderId, row.move .failed n) }
          (some row) w ∧ Published m w) ?_ ?_
      · exact fun w ⟨⟨row, n, hst, hs⟩, hpub⟩ => ⟨row, n, hst, hs, hpub⟩
      refine hoare_exists fun row => hoare_exists fun n => hoare_fact fun hst => ?_
      refine hoare_bind (hoare_conseq (hoare_frame lasting_published (hoare_enqueue_staged rfl))
        (fun _ h => h) (fun _ _ h => h) fun _ _ _ => trivial) fun _ => ?_
      refine hoare_pure fun w ⟨⟨m', ⟨hkey, hm'⟩, hs⟩, hpub⟩ => ?_
      exact ⟨_, some row, ⟨rfl, fun r => legal_reject hm hst hj hkey hm'⟩, hs, hpub⟩
    | _ => exact hoare_throw fun _ _ => trivial

theorem hoare_reserve {e : OrderCreatedEvent} (hm : m.payload = .created e) :
    Hoare (orderLogic S) t (.deliver m) (fun w => Idle t w ∧ Published m w) (reserve e (some m.id))
      (fun _ _ => True) (fun _ _ => True) := by
  refine hoare_bind (Q := fun _ _ => True) ?_ fun outcome => ?_
  · refine hoare_bind (hoare_runOnce lasting_published (hoare_reserveWork hm)) fun ran => ?_
    cases ran <;>
      exact hoare_bind (hoare_recordMetric .true _) fun _ => hoare_pure fun _ _ => trivial
  · match outcome with
    | .nack => exact hoare_pure fun _ _ => trivial
    | .skipped => exact hoare_pure fun _ _ => trivial
    | .processed none => exact hoare_pure fun _ _ => trivial
    | .processed (some _) =>
      exact hoare_bind (hoare_recordMetric .true _) fun _ => hoare_pure fun _ _ => trivial

/-! ### `PaymentConsumer` and `OrderCompletionConsumer` -/

/-- A status change with its event, in the inbox transaction of a later consumer. -/
theorem legal_event {F : World → Prop} {row row' : OrderEntity} {m' : OutboxMessageEntity}
    {id : Uuid} {c : Consumer} {r : ProcessedMessageEntity} (hc : c ≠ .inventory)
    (hm' : m'.payload.orderId = o) (hkey : m'.routingKey ≠ .created)
    (hstep : ∀ w, Inv S w → F w → (w.facts o).order = some row →
      OrderStep S t k o (w.facts o) (((w.facts o).setOrder row').addEvent m')) :
    Legal S t k o F (some row)
      { Draft.empty with
        order := some (o, row')
        event := some m'
        inbox := some (id, c, r) } := by
  refine ⟨⟨?_, ?_, by simp [Draft.empty], by simp [Draft.empty]⟩, ?_,
    fun w w' hi hF hb hin hcom => ?_⟩
  · rintro x ⟨⟩
    rfl
  · rintro x ⟨⟩
    exact hm'
  · rintro w hi hF x ⟨⟩ h
    exact absurd h hc
  · have hr := hcom.reserved_same (o := o) (by rintro x ⟨⟩; exact hkey) (by rintro x ⟨⟩; exact hc)
    rw [hr, Draft.apply_order_event rfl rfl hm' rfl]
    simpa [Draft.empty, OrderFacts.addEvent, OrderFacts.setOrder] using hstep w hi hF (hb (by simp))

/-- What the work of the payment consumer relies on. -/
structure Payable (S : Setting) (k : Request) (e : InventoryReservedEvent) (result : PaymentResult)
    (w : World) : Prop where
  paying : Paying e.orderId e.userId w
  called : Called k .inventoryReserved e.orderId w
  authorized : Authorized S e.orderId result w

theorem lasting_payable {e : InventoryReservedEvent} {result : PaymentResult} :
    (orderLogic S).Lasting (Payable S k e result) :=
  fun w w' hi hi' hr h => ⟨lasting_paying w w' hi hi' hr h.paying,
    lasting_called w w' hi hi' hr h.called, lasting_authorized w w' hi hi' hr h.authorized⟩

theorem hoare_advance {e : InventoryReservedEvent} {result : PaymentResult} {id : Uuid} :
    Hoare (orderLogic S) t k
      (fun w => Staged t .empty none w ∧ Payable S k e result w)
      (advance e result)
      (fun _ => Ready S t k e.orderId (Payable S k e result) id .payment)
      (fun _ _ => True) := by
  have hF : (orderLogic S).Lasting (Payable S k e result) := lasting_payable
  refine hoare_bind (hoare_conseq (hoare_frame hF (hoare_transitionOrder rfl)) (fun _ h => h)
    (fun _ _ h => h) fun _ _ _ => trivial) fun _ => ?_
  refine hoare_pre (P := fun w => ∃ (row : OrderEntity) (n : Nat),
    isTransitionAllowed row.status (if result.authorized then .paid else .failed) = true ∧
    Staged t { Draft.empty with
      order := some (e.orderId, row.move (if result.authorized then .paid else .failed) n) }
      (some row) w ∧ Payable S k e result w) ?_ ?_
  · exact fun w ⟨⟨row, n, hst, hs⟩, h⟩ => ⟨row, n, hst, hs, h⟩
  refine hoare_exists fun row => hoare_exists fun n => hoare_fact fun hst => ?_
  have howner {w : World} (h : Paying e.orderId e.userId w)
      (horder : (w.facts e.orderId).order = some row) :
      row.userId = e.userId ∧ row.paymentInitiatedAt.isSome = true := by
    obtain ⟨row', hrow', h⟩ := h
    obtain rfl := Option.some.inj (hrow'.symm.trans horder)
    exact h
  refine hoare_ite (fun ha => ?_) fun ha => ?_
  · rw [if_pos ha] at hst ⊢
    refine hoare_conseq (hoare_frame hF (hoare_enqueue_staged rfl)) (fun _ h => h)
      (fun _ w h => ?_) fun _ _ _ => trivial
    obtain ⟨⟨m', ⟨hkey, hm'⟩, hs⟩, h⟩ := h
    refine ⟨_, some row, ⟨rfl, fun r => ?_⟩, hs, h⟩
    refine legal_event nofun (by rw [hm']; rfl) (by rw [hkey]; nofun) fun w _ h horder => ?_
    obtain ⟨hu, hpaid⟩ := howner h.paying horder
    exact .capture _ row n m' horder (eq_reserved hst) hpaid (fun hp => ha ▸ h.authorized hp) hkey
      (by rw [hm', hu]) h.called
  · rw [if_neg ha] at hst ⊢
    refine hoare_conseq (hoare_frame hF (hoare_enqueue_staged rfl)) (fun _ h => h)
      (fun _ w h => ?_) fun _ _ _ => trivial
    obtain ⟨⟨m', ⟨hkey, hm'⟩, hs⟩, h⟩ := h
    refine ⟨_, some row, ⟨rfl, fun r => ?_⟩, hs, h⟩
    refine legal_event nofun (by rw [hm']; rfl) (by rw [hkey]; nofun) fun w hi h horder => ?_
    obtain ⟨hu, hpaid⟩ := howner h.paying horder
    have hreserved : row.status = .reserved := (pending_or_reserved hst).resolve_left
      (((hi.orders _).present row horder).status.paying hpaid).1
    exact .decline _ row n m' result.reason horder hreserved hpaid
      (fun hp => Bool.eq_false_iff.mpr ha ▸ h.authorized hp) hkey (by rw [hm', hu]) h.called

theorem hoare_authorizeAndAdvance {e : InventoryReservedEvent} {id : Uuid} :
    Hoare (orderLogic S) t k
      (fun w => Idle t w ∧ Paying e.orderId e.userId w ∧ Called k .inventoryReserved e.orderId w)
      (authorizeAndAdvance e (some id)) (fun _ _ => True) (fun _ _ => True) := by
  refine hoare_bind (hoare_conseq (hoare_frame lasting_called (hoare_frame lasting_paying
    hoare_authorize)) (fun w h => ⟨⟨h, h.2.1⟩, h.2.2⟩) (fun _ _ h => h) fun _ _ _ => trivial)
    fun result => ?_
  refine hoare_bind (Q := fun _ _ => True) (hoare_pre (fun w h => ⟨h.1.1.1, h.1.2, h.2, h.1.1.2⟩)
    (hoare_runOnce lasting_payable hoare_advance)) fun processed => ?_
  cases processed <;> exact hoare_bind (hoare_record .true _) fun _ => hoare_pure fun _ _ => trivial

/-- What the work of the completion consumer relies on. -/
def Completable (k : Request) (e : PaymentProcessedEvent) (w : World) : Prop :=
  Paying e.orderId e.userId w ∧ Called k .paymentProcessed e.orderId w

theorem lasting_completable {e : PaymentProcessedEvent} :
    (orderLogic S).Lasting (Completable k e) :=
  fun w w' hi hi' hr h => ⟨lasting_paying w w' hi hi' hr h.1, lasting_called w w' hi hi' hr h.2⟩

theorem hoare_completeWork {e : PaymentProcessedEvent} {id : Uuid} :
    Hoare (orderLogic S) t k
      (fun w => Staged t .empty none w ∧ Completable k e w) (completeWork e)
      (fun _ => Ready S t k e.orderId (Completable k e) id .completion)
      (fun _ _ => True) := by
  refine hoare_bind (hoare_conseq (hoare_frame lasting_completable (hoare_transitionOrder rfl))
    (fun _ h => h) (fun _ _ h => h) fun _ _ _ => trivial) fun _ => ?_
  refine hoare_pre (P := fun w => ∃ (row : OrderEntity) (n : Nat),
    isTransitionAllowed row.status .completed = true ∧
    Staged t { Draft.empty with order := some (e.orderId, row.move .completed n) } (some row) w ∧
      Completable k e w) ?_ ?_
  · exact fun w ⟨⟨row, n, hst, hs⟩, h⟩ => ⟨row, n, hst, hs, h⟩
  refine hoare_exists fun row => hoare_exists fun n => hoare_fact fun hst => ?_
  refine hoare_conseq (hoare_frame lasting_completable (hoare_enqueue_staged rfl)) (fun _ h => h)
    (fun _ w h => ?_) fun _ _ _ => trivial
  obtain ⟨⟨m', ⟨hkey, hm'⟩, hs⟩, h⟩ := h
  refine ⟨_, some row, ⟨rfl, fun r => ?_⟩, hs, h⟩
  refine legal_event nofun (by rw [hm']; rfl) (by rw [hkey]; nofun)
    fun w _ ⟨⟨row', hrow', hu, _⟩, hcall⟩ horder => ?_
  obtain rfl := Option.some.inj (hrow'.symm.trans horder)
  exact .complete _ row' n m' horder (eq_paid hst) hkey (by rw [hm', hu]) hcall

theorem hoare_complete {e : PaymentProcessedEvent} {id : Uuid} :
    Hoare (orderLogic S) t k (fun w => Idle t w ∧ Completable k e w)
      (complete e (some id)) (fun _ _ => True) (fun _ _ => True) := by
  refine hoare_bind (Q := fun _ _ => True) ?_ fun outcome => ?_
  · refine hoare_bind (hoare_runOnce lasting_completable hoare_completeWork) fun ran => ?_
    cases ran <;>
      exact hoare_bind (hoare_recordMetric .true _) fun _ => hoare_pure fun _ _ => trivial
  · cases outcome <;> exact hoare_pure fun _ _ => trivial

/-! ### `EmailConsumer` -/

theorem hoare_notify {id : Uuid} :
    Hoare (orderLogic S) t k (Idle t) (notify (some id)) (fun _ _ => True) (fun _ _ => True) := by
  refine hoare_bind (Q := fun _ _ => True) ?_ fun outcome => ?_
  · refine hoare_bind (Q := fun _ _ => True) ?_ fun ran => ?_
    · refine hoare_pre (P := fun w => Idle t w ∧ True) (fun _ h => ⟨h, trivial⟩) ?_
      refine hoare_runOnce_committable (fun _ _ _ _ _ h => h)
        (hoare_pure fun w h => ⟨.empty, none, ⟨rfl, ?_⟩, h⟩)
      intro row
      refine hoare_pre (fun _ h => h.1) (hoare_commit_inbox ?_)
      rintro x ⟨⟩
      nofun
    · cases ran <;>
        exact hoare_bind (hoare_recordMetric .true _) fun _ => hoare_pure fun _ _ => trivial
  · cases outcome <;> exact hoare_pure fun _ _ => trivial

end OrderLifecycle

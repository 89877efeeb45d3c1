import OrderLifecycle.Pipeline.Exhausted

open Framework

namespace OrderLifecycle.Pipeline

variable {base : Nat} {c : Catalog} {b : Bool} {moves : List Move} {s s' : State} {t : Tid}
  {queue : ConsumerQueue} {m : OutboxMessageEntity} {msg : Message}

/-! ### Runs to try things on -/

def serving (l : List OrderLifecycle.Move) : List Move := l.map .serve

/-- Thread `t` handles the next message of the queue in `n` statements, and the library makes the
`calls` that follow. -/
def handling (t : Tid) (queue : ConsumerQueue) (n calls : Nat) (ch : Choice) : List Move :=
  .deliver t queue :: serving (List.replicate n (.step t ch)) ++ .settle t :: List.replicate calls (.channel t)

/-- An order is placed and its event published. -/
def ordering (quantity : Nat) : List Move :=
  serving (call 0 (.createOrder 9 [⟨7, "Widget", quantity⟩]) 7 accept) ++ [.publish 1]

/-- The database is down while a message is handled. -/
def failing (t : Tid) (calls : Nat) : List Move := handling t .inventory 2 calls { fail := true }

/-- Inventory fails once. -/
def failingOnce : List Move := ordering 3 ++ failing 1 3

/-- Inventory fails again and again. -/
def failingForGood : List Move :=
  failingOnce ++ .expire "inventory.order_created.retry.1000ms" :: failing 2 3 ++
    .expire "inventory.order_created.retry.2000ms" :: failing 3 3 ++
    .expire "inventory.order_created.retry.4000ms" :: failing 4 1

/-- Six pieces are more than there are: inventory rejects the order, and its event is published. -/
def rejecting : List Move :=
  ordering 6 ++ handling 1 .inventory 12 1 { fresh := 2 } ++ [.publish 2]

def rejection : OutboxMessageEntity := message 2 (.failed ⟨1, 9, "insufficient_stock"⟩)

/-- Where the moves lead from the shop with one product. -/
def trial (moves : List Move) : Option State := run 1000 (.init oneProduct true) moves

theorem reaches_of_trial {α : Type} (moves : List Move) (f : State → α) (a : α)
    (h : (trial moves).map f = some a) : ∃ s, Reaches 1000 oneProduct true moves s ∧ f s = a :=
  Option.map_eq_some_iff.mp h

/-! ### No event is lost -/

/-- The message is in the dead-letter queue, after as many failed deliveries as retries allow. -/
def GivenUp (m : OutboxMessageEntity) (s : State) : Prop :=
  DeadLettered m s ∧ ∃ ts, FailedTimes m (defaultMaxRetries + 1) s ts

/-- The consumer has recorded the message, and the order has moved on. -/
def HandledBy (queue : ConsumerQueue) (m : OutboxMessageEntity) (s : State) : Prop :=
  Filed m.id queue.consumer s.services.shared ∧ Past m.payload s.services.shared

theorem DeadLettered.givenUp (h : DeadLettered m s) (hs : Counted s) : GivenUp m s := by
  obtain ⟨msg, hmem, rfl⟩ := h
  exact ⟨⟨msg, hmem, rfl⟩, hs.dead msg hmem⟩

/-- What is published is in the outbox. -/
theorem Step.outbox (h : Step base s s') (hcert : Certificates (c := c) s.services)
    (hs : ∀ m ∈ s.published, Published m s.services.shared) :
    ∀ m ∈ s'.published, Published m s'.services.shared := by
  intro m hm
  have hcert' := h.certificates hcert
  have later (hp : Published m s.services.shared) : Published m s'.services.shared := by
    rcases h.services with he | ⟨l, hl⟩
    · rwa [he]
    · exact published_evolves hp (evolves_of_moves
        (hcert.orders.next (verified_orderSystem (.any c)) (admits_any l) hl).2)
  cases h with
  | publish row services row_eq run =>
    rcases List.mem_cons.mp hm with rfl | hm
    · exact later row_eq
    · exact later (hs m hm)
  | _ => exact later (hs m hm)

theorem Reaches.outbox (h : Reaches base c b moves s) :
    ∀ m ∈ s.published, Published m s.services.shared :=
  (h.induct (P := fun s => ∀ m ∈ s.published, Published m s.services.shared)
    (fun m hm => by cases hm) fun _ _ hcert hstep hs => hstep.outbox hcert hs).2

theorem Filed.past {s : Shop} {consumer : Consumer} (h : Filed m.id consumer s.shared)
    (hs : Certificates (c := c) s) (hm : Published m s.shared) : Past m.payload s.shared := by
  obtain ⟨m', hm', hid, -, hp⟩ := hs.certified m.id consumer h
  have he : m' = m := by
    rw [Published, hid] at hm'
    exact Option.some.inj (hm'.symm.trans hm)
  exact he ▸ hp

theorem Held.place (h : Held queue m 0 s) (hcert : Certificates (c := c) s.services)
    (hm : Published m s.services.shared) (hs : Counted s) :
    Waiting queue m 0 s ∨ InHand queue m 0 s ∨ GivenUp m s ∨ HandledBy queue m s := by
  rcases h with h | h | h | h
  · exact .inl h
  · exact .inr (.inl h)
  · exact .inr (.inr (.inl (h.givenUp hs)))
  · exact .inr (.inr (.inr ⟨h, h.past hcert hm⟩))

/-- Whatever crashes, fails or loses its connection: an event that was published has its consumer, and
it waits for this consumer, is being handled by it, was given up after its last retry, or has been
handled. -/
theorem no_event_lost (h : Reaches base c b moves s) (hm : m ∈ s.published) :
    (∃! queue, m.routingKey ∈ ConsumerQueue.routingKeys queue) ∧
      ∀ queue, m.routingKey ∈ ConsumerQueue.routingKeys queue →
        Waiting queue m 0 s ∨ InHand queue m 0 s ∨ GivenUp m s ∨ HandledBy queue m s := by
  obtain ⟨hcert, hs⟩ := h.lossless
  constructor
  · exact ⟨queueOf m.routingKey, mem_routingKeys.mpr rfl, fun q hq => (mem_routingKeys.mp hq).symm⟩
  · intro queue hkey
    exact (hs.held m hm queue hkey).place hcert (h.outbox m hm) h.counted

/-- The event of an order of six pieces that inventory has rejected, on its way to email. -/
theorem no_event_lost_failed : ∃ s, Reaches 1000 oneProduct true rejecting s ∧
    rejection ∈ s.published ∧
    (Waiting .email rejection 0 s ∨ InHand .email rejection 0 s ∨ GivenUp rejection s ∨
      HandledBy .email rejection s) := by
  obtain ⟨s, hs, hobs⟩ := reaches_of_trial rejecting (fun s => decide (rejection ∈ s.published)) true
    (by decide +kernel)
  have hm := of_decide_eq_true hobs
  exact ⟨s, hs, hm, (no_event_lost hs hm).2 .email (by decide)⟩

/-! ### Retries are bounded -/

/-- No copy is retried more than three times, and one in the dead-letter queue has been handled in
vain by four threads at least. -/
theorem retries_bounded (h : Reaches base c b moves s) :
    (∀ name msg, (name, msg) ∈ s.broker.queues → attempts msg ≤ 3 ∧
      ∃ ts, FailedTimes msg.content (attempts msg) s ts) ∧
    ∀ msg ∈ s.broker.deadLetters, ∃ ts : List Tid, ts.Nodup ∧ 4 ≤ ts.length ∧
      ∀ t ∈ ts, ∃ e, Returns s.services t (.deliver msg.content) (.error e) := by
  have hs := h.counted
  exact ⟨fun name msg hmem => hs.queued _ hmem, fun msg hmem => hs.dead msg hmem⟩

theorem retries_bounded_dead : ∃ s, Reaches 1000 oneProduct true failingForGood s ∧
    ∃ msg ∈ s.broker.deadLetters, ∃ ts : List Tid, ts.Nodup ∧ 4 ≤ ts.length ∧
      ∀ t ∈ ts, ∃ e, Returns s.services t (.deliver msg.content) (.error e) := by
  obtain ⟨s, hs, hobs⟩ := reaches_of_trial failingForGood
    (fun s => s.broker.deadLetters.isEmpty) false (by decide +kernel)
  obtain ⟨msg, hmem⟩ := List.exists_mem_of_ne_nil s.broker.deadLetters (by
    intro he
    rw [he] at hobs
    cases hobs)
  exact ⟨s, hs, msg, hmem, (retries_bounded hs).2 msg hmem⟩

/-! ### No order is stuck -/

/-- The order waits for one of the consumers. -/
def Underway (row : OrderEntity) : Prop :=
  row.status = .pending ∨ row.status = .reserved ∧ row.paymentInitiatedAt ≠ none ∨
    row.status = .paid

/-- The event that moves the order on is in the outbox. -/
theorem Underway.event {S : Setting} {w : World} {o : OrderId} {row : OrderEntity}
    (h : Underway row) (hp : Present S o row (w.facts o)) :
    ∃ m queue, w.outbox m.id = some m ∧ m.payload.orderId = o ∧ awaiting m.payload = some row.status ∧
      m.routingKey ∈ ConsumerQueue.routingKeys queue := by
  rcases h with hst | ⟨hst, hpaid⟩ | hst
  · obtain ⟨m, hset, hm⟩ := hp.events.created.1 trivial
    have hmem : m ∈ (w.facts o).events .created := by rw [hset]; rfl
    obtain ⟨hrow, hkey, ho⟩ := hmem
    exact ⟨m, .inventory, hrow, ho, by rw [hm, hst]; rfl, by rw [hkey]; decide⟩
  · obtain ⟨m, hset, hm⟩ := hp.events.inventoryReserved.1 (Option.isSome_iff_ne_none.mpr hpaid)
    have hmem : m ∈ (w.facts o).events .inventoryReserved := by rw [hset]; rfl
    obtain ⟨hrow, hkey, ho⟩ := hmem
    exact ⟨m, .payment, hrow, ho, by rw [hm, hst]; rfl, by rw [hkey]; decide⟩
  · obtain ⟨m, hset, hm⟩ := hp.events.paymentProcessed.1 (.inl hst)
    have hmem : m ∈ (w.facts o).events .paymentProcessed := by rw [hset]; rfl
    obtain ⟨hrow, hkey, ho⟩ := hmem
    exact ⟨m, .completion, hrow, ho, by rw [hm, hst]; rfl, by rw [hkey]; decide⟩

/-- The event that the order waits for is still to be published, waits in a queue, is being handled,
or was given up. -/
def EventPending (o : OrderId) (row : OrderEntity) (s : State) : Prop :=
  ∃ m queue, s.services.shared.outbox m.id = some m ∧ m.payload.orderId = o ∧
    awaiting m.payload = some row.status ∧ m.routingKey ∈ ConsumerQueue.routingKeys queue ∧
    (m ∉ s.published ∨ Waiting queue m 0 s ∨ InHand queue m 0 s ∨ GivenUp m s)

theorem Underway.pending (h : Reaches base c b moves s) {o : OrderId} {row : OrderEntity}
    (ho : s.services.shared.order o = some row) (hw : Underway row) : EventPending o row s := by
  obtain ⟨hcert, hs⟩ := h.lossless
  have hp := (hcert.orders.inv.orders o).present row ho
  obtain ⟨m, queue, hm, hid, hawait, hkey⟩ := hw.event hp
  refine ⟨m, queue, hm, hid, hawait, hkey, ?_⟩
  by_cases hpub : m ∈ s.published
  · rcases (hs.held m hpub queue hkey).place hcert hm h.counted with hh | hh | hh | hh
    · exact .inr (.inl hh)
    · exact .inr (.inr (.inl hh))
    · exact .inr (.inr (.inr hh))
    · -- an order that waits for an event has not moved on with it
      obtain ⟨-, row', hrow', hpast⟩ := hh
      rw [hid] at hrow'
      cases ho.symm.trans hrow'
      exact absurd hawait (past_not_awaiting hpast)
  · exact .inl hpub

/-- Everything is published, and nothing is on its way or was given up. -/
structure Drained (s : State) : Prop where
  published : ∀ m, s.services.shared.outbox m.id = some m → m ∈ s.published
  queues : s.broker.queues = []
  inHand : ∀ t, s.inHand t = none
  deadLetters : s.broker.deadLetters = []

theorem Drained.not_pending (h : Drained s) {o : OrderId} {row : OrderEntity} :
    ¬EventPending o row s := by
  intro hp
  obtain ⟨m, queue, hm, -, -, -, hwhere⟩ := hp
  rcases hwhere with hn | ⟨name, msg, hmem, -⟩ | ⟨t, d, hd, -⟩ | ⟨⟨msg, hmem, -⟩, -⟩
  · exact hn (h.published m hm)
  · rw [h.queues] at hmem
    cases hmem
  · exact nomatch (h.inHand t).symm.trans hd
  · rw [h.deadLetters] at hmem
    cases hmem

/-- No order is silently stuck: the event that it waits for is on its way, or was given up and can be
found in the dead-letter queue. Once all is drained, orders are closed or wait for their users. -/
theorem no_order_stuck (h : Reaches base c b moves s) :
    (∀ o row, s.services.shared.order o = some row → Underway row → EventPending o row s) ∧
    (Drained s → ∀ o row, s.services.shared.order o = some row →
      isTerminalStatus row.status = true ∨
        row.status = .reserved ∧ row.paymentInitiatedAt = none) := by
  refine ⟨fun o row ho hw => hw.pending h ho, fun hd o row ho => ?_⟩
  have hn : ¬Underway row := fun hw => hd.not_pending (hw.pending h ho)
  cases hst : row.status with
  | pending => exact absurd (.inl hst) hn
  | reserved =>
    refine .inr ⟨rfl, ?_⟩
    by_contra hpaid
    exact hn (.inr (.inl ⟨hst, hpaid⟩))
  | paid => exact absurd (.inr (.inr hst)) hn
  | completed => exact .inl rfl
  | failed => exact .inl rfl
  | cancelled => exact .inl rfl

/-- The order whose event was given up. -/
theorem no_order_stuck_dead : ∃ s, Reaches 1000 oneProduct true failingForGood s ∧
    ∃ row, s.services.shared.order 1 = some row ∧ row.status = .pending ∧ EventPending 1 row s := by
  obtain ⟨s, hs, hobs⟩ := reaches_of_trial failingForGood
    (fun s => (s.services.shared.order 1).map (·.status)) (some .pending) (by decide +kernel)
  obtain ⟨row, hrow, hst⟩ := Option.map_eq_some_iff.mp hobs
  exact ⟨s, hs, row, hrow, hst, (no_order_stuck hs).1 1 row hrow (.inl hst)⟩

end OrderLifecycle.Pipeline

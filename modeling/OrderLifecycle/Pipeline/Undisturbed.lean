import OrderLifecycle.Pipeline.Healthy

open Framework

namespace OrderLifecycle.Pipeline

variable {c : Catalog} {owner : Uuid → Tid} {t : Tid} {k : Request} {w w' : World} {α β : Type}
  {m : OutboxMessageEntity} {o : OrderId} {st target : OrderStatus}

/-- The action does not fail in a healthy run, and leads from `P` to `Q`. -/
abbrev Succeeds (c : Catalog) (owner : Uuid → Tid) (t : Tid) (k : Request) (P : World → Prop)
    (x : Service α) (Q : α → World → Prop) : Prop :=
  Keeping (healthyLogic c owner) Sane t k P x Q fun _ _ => False

theorem Succeeds.keeping {P : World → Prop} {x : Service α} {Q : α → World → Prop}
    {E : AppError → World → Prop} (h : Succeeds c owner t k P x Q) :
    Keeping (healthyLogic c owner) Sane t k P x Q E :=
  keeping_conseq h (fun _ h => h) (fun _ _ h => h) fun _ _ h => h.elim

/-! ### The own transaction -/

/-- The transaction has not failed, and has not recorded the message. -/
structure Fit (m : OutboxMessageEntity) (tx : Transaction) : Prop where
  sound : tx.aborted = false
  unfiled : tx.writes (.inbox m.id (consumerOf m.payload)) = none

/-- Nor has it moved the order. -/
structure Blank (m : OutboxMessageEntity) (tx : Transaction) : Prop extends Fit m tx where
  unmoved : tx.writes (.order m.payload.orderId) = none

/-- `t` is in a transaction with property `P`, and its message is expected. -/
def Handling (P : OutboxMessageEntity → Transaction → Prop) (m : OutboxMessageEntity) (t : Tid)
    (w : World) : Prop := InTxn (P m) t w ∧ Expected m w

theorem stable_handling {P : OutboxMessageEntity → Transaction → Prop} (hm : owner m.id = t) :
    (healthyLogic c owner).Stable t (Handling P m t) := by
  refine .and (healthy_own ?_) (stable_expected hm)
  rintro t' w w' hne hf ⟨tx, htx, hp⟩
  exact ⟨tx, (hf.txns t hne).trans htx, hp⟩

theorem Handling.fit (h : Handling Blank m t w) : Handling Fit m t w :=
  ⟨h.1.mono fun _ hp => hp.toFit, h.2⟩

theorem Fit.write {tx : Transaction} (h : Fit m tx) {key : Key}
    (hkey : .inbox m.id (consumerOf m.payload) ≠ key) (v : Option (Row key))
    (js : List (Tid × Deed)) : Fit m (Store.Txn.write tx key v js) :=
  ⟨h.sound, (Store.write_other v js hkey).trans h.unfiled⟩

theorem Blank.write {tx : Transaction} (h : Blank m tx) {key : Key}
    (hkey : .inbox m.id (consumerOf m.payload) ≠ key) (horder : .order m.payload.orderId ≠ key)
    (v : Option (Row key)) (js : List (Tid × Deed)) : Blank m (Store.Txn.write tx key v js) :=
  ⟨h.toFit.write hkey v js, (Store.write_other v js horder).trans h.unmoved⟩

/-- A statement in the transaction. -/
theorem succeeds_sql {f : Tid → Choice → World → Option (Except AppError β × World)}
    {P : OutboxMessageEntity → Transaction → Prop} {Q : β → World → Prop} (hm : owner m.id = t)
    (hP : ∀ tx, P m tx → tx.aborted = false)
    (hf : ∀ w ch r w' tx, w.db.txns t = some tx → P m tx → Expected m w →
      f t ch w = some (r, w') → w'.db.rows = w.db.rows ∧ ∃ b, r = .ok b ∧ (Expected m w' → Q b w')) :
    Succeeds c owner t k (Handling P m t) (sql f) Q := by
  apply keeping_stmt (stable_handling hm)
  intro w ch r w' _ hh hs hgood _ _
  obtain ⟨⟨tx, htx, hp⟩, he⟩ := hh
  rcases sql_cases hs with ⟨ha, -, -⟩ | ⟨-, hfail, rfl, -⟩ | ⟨-, -, hr⟩
  · simp [Store.aborted, htx, hP tx hp] at ha
  · cases hfail.symm.trans (hgood.sound (.inl rfl)).1
  · rcases hr with ⟨b, rfl, hs'⟩ | ⟨e, w₁, rfl, hs', -⟩
    · obtain ⟨hrows, b', hb', hq⟩ := hf w ch _ w' tx htx hp he hs'
      cases hb'
      exact hq (he.of_rows hrows)
    · obtain ⟨-, b', hb', -⟩ := hf w ch _ w₁ tx htx hp he hs'
      cases hb'

theorem succeeds_select {P : OutboxMessageEntity → Transaction → Prop} (hm : owner m.id = t)
    (hP : ∀ tx, P m tx → tx.aborted = false) (key : Key)
    (hkey : ∀ tx, P m tx → tx.writes key = none) :
    Succeeds c owner t k (Handling P m t) (selectRow key)
      fun r w => Handling P m t w ∧ r = w.db.rows key := by
  apply succeeds_sql hm hP
  intro w ch r w' tx htx hp _ hs
  cases hs
  refine ⟨rfl, _, rfl, fun he => ⟨⟨⟨tx, htx, hp⟩, he⟩, ?_⟩⟩
  rw [Store.view_txn htx, hkey tx hp, Option.getD_none]

/-- A statement that leaves the database alone and does not fail. -/
theorem succeeds_aside {f : Stmt World Choice (Except AppError β)} {P : World → Prop}
    (hP : (healthyLogic c owner).Stable t P)
    (hf : ∀ w ch r w', f t ch w = some (r, w') → w'.db = w.db ∧ ∃ b, r = .ok b) :
    Succeeds c owner t k P (stmt f) fun _ => P := by
  apply keeping_stmt hP
  intro w ch r w' hi hp hs _ hi' _
  obtain ⟨hd, b, rfl⟩ := hf w ch r w' hs
  exact hP w w' ⟨hi, hi', .inr hd⟩ hp

theorem succeeds_record {P : World → Prop} (hP : (healthyLogic c owner).Stable t P)
    (f : Nat → List Metric) : Succeeds c owner t k P (record f) fun _ => P := by
  apply succeeds_aside hP
  intro w ch r w' hs
  cases hs
  exact ⟨rfl, (), rfl⟩

theorem succeeds_cacheDel {P : World → Prop} (hP : (healthyLogic c owner).Stable t P)
    (keys : List CacheKey) : Succeeds c owner t k P (cacheDel keys) fun _ => P := by
  apply succeeds_aside hP
  intro w ch r w' hs
  cases hs
  refine ⟨?_, (), rfl⟩
  split <;> rfl

/-! ### The work of the consumers -/

theorem succeeds_updateProduct (hm : owner m.id = t) (p : ProductId)
    (q : Row (.product p) → Bool) (g : Choice → Row (.product p) → Row (.product p))
    (deeds : Row (.product p) → List Deed) :
    Succeeds c owner t k (Handling Blank m t) (updateRow (.product p) q g deeds)
      fun _ => Handling Blank m t := by
  apply succeeds_sql hm fun _ hp => hp.sound
  intro w ch r w' tx htx hp _ hs
  rcases updateRow_cases hs with ⟨rfl, rfl, -⟩ | ⟨rfl, row, hfree, -, -, rfl⟩
  · exact ⟨rfl, 0, rfl, fun he => ⟨⟨tx, htx, hp⟩, he⟩⟩
  · obtain ⟨hsame, htx'⟩ := Store.put_txn (some (g ch row)) ((deeds row).map (Prod.mk t)) hfree htx
    exact ⟨hsame.1, 1, rfl, fun he => ⟨⟨_, htx', hp.write (by simp) (by simp) _ _⟩, he⟩⟩

theorem succeeds_restoreStock (hm : owner m.id = t) (lines : List StockLine) :
    Succeeds c owner t k (Handling Blank m t) (restoreStock o lines)
      fun _ => Handling Blank m t := by
  induction lines with
  | nil => exact keeping_pure fun _ h => h
  | cons line lines ih =>
    apply keeping_bind (succeeds_updateProduct hm _ _ _ _)
    intro _
    exact ih

/-- The stock falls short, and nothing else is wrong. -/
def Short (m : OutboxMessageEntity) (t : Tid) (e : AppError) (w : World) : Prop :=
  (∃ p, e = .insufficientStock p) ∧ Handling Blank m t w

theorem falls_short (hm : owner m.id = t) (applied : List StockLine) (p : ProductId) :
    Keeping (healthyLogic c owner) Sane t k (Handling Blank m t)
      (compensate (α := α) o applied (.insufficientStock p)) (fun _ _ => False) (Short m t) := by
  apply keeping_ite
  · intro _
    apply keeping_bind (succeeds_restoreStock hm _).keeping
    intro _
    exact keeping_throw fun w h => ⟨⟨p, rfl⟩, h⟩
  · intro _
    exact keeping_throw fun w h => ⟨⟨p, rfl⟩, h⟩

theorem keeping_reserveLines (hm : owner m.id = t) (lines applied : List StockLine) :
    Keeping (healthyLogic c owner) Sane t k (Handling Blank m t) (reserveLines o applied lines)
      (fun _ => Handling Blank m t) (Short m t) := by
  induction lines generalizing applied with
  | nil => exact keeping_pure fun _ h => h
  | cons line lines ih =>
    apply keeping_bind (Q := fun _ => Handling Blank m t)
    · apply keeping_tryCatch (E := fun _ _ => False)
      · exact succeeds_updateProduct hm _ _ _ _
      · exact fun _ _ h => h.elim
    · intro affected
      apply keeping_ite
      · intro _
        exact keeping_conseq (falls_short hm _ _) (fun _ h => h) (fun _ _ h => h.elim) fun _ _ h => h
      · intro _
        exact ih _

/-- The order is moved on from the state in which it waits for the event. -/
theorem succeeds_transitionOrder (hm : owner m.id = t) (hst : awaiting m.payload = some st)
    (hallowed : isTransitionAllowed st target = true) :
    Succeeds c owner t k (Handling Blank m t) (transitionOrder m.payload.orderId target)
      fun _ => Handling Fit m t := by
  apply keeping_bind (succeeds_select hm (fun _ hp => hp.sound) _ fun _ hp => hp.unmoved)
  intro order
  have hrow : ∀ w, Handling Blank m t w ∧ order = w.db.rows (.order m.payload.orderId) →
      ∃ row : OrderEntity, order = some row ∧ row.status = st := by
    rintro w ⟨⟨-, he⟩, rfl⟩
    exact he.awaited st hst
  cases order with
  | none =>
    apply keeping_throw
    intro w hw
    obtain ⟨row, hnone, -⟩ := hrow w hw
    cases hnone
  | some order =>
    apply keeping_pre (P := fun w => (order : OrderEntity).status = st ∧ Handling Blank m t w)
    · intro w hw
      obtain ⟨row, hsome, hstatus⟩ := hrow w hw
      cases hsome
      exact ⟨hstatus, hw.1⟩
    apply keeping_fact
    intro hstatus
    apply keeping_ite
    · intro hillegal
      rw [hstatus, hallowed] at hillegal
      cases hillegal
    · intro _
      apply keeping_bind (Q := fun n w => n = 1 ∧ Handling Fit m t w)
      · apply succeeds_sql hm fun _ hp => hp.sound
        intro w ch r w' tx htx hp he hs
        rcases updateRow_cases hs with ⟨-, -, hno⟩ | ⟨rfl, row, hfree, -, -, rfl⟩
        · obtain ⟨row, hrow, hst⟩ := he.awaited st hst
          have hview : w.db.view t (.order m.payload.orderId) = some row := by
            rw [Store.view_txn htx, hp.unmoved, Option.getD_none]
            exact hrow
          have hfound := hno row hview
          simp [hst, hstatus] at hfound
        · obtain ⟨hsame, htx'⟩ := Store.put_txn _ _ hfree htx
          exact ⟨hsame.1, 1, rfl, fun he => ⟨rfl, ⟨_, htx', hp.toFit.write (by simp) _ _⟩, he⟩⟩
      · intro affected
        apply keeping_fact
        rintro rfl
        apply keeping_ite
        · intro h
          cases h
        · intro _
          apply keeping_bind (succeeds_record (stable_handling hm) _)
          intro _
          apply keeping_bind (succeeds_cacheDel (stable_handling hm) _)
          intro _
          exact keeping_pure fun _ h => h

theorem succeeds_insertFresh (hm : owner m.id = t) {key : Uuid → Key}
    (hkey : ∀ id, .inbox m.id (consumerOf m.payload) ≠ key id)
    (row : Choice → (id : Uuid) → Row (key id)) :
    Succeeds c owner t k (Handling Fit m t) (insertFresh key row) fun _ => Handling Fit m t := by
  apply succeeds_sql hm fun _ hp => hp.sound
  intro w ch r w' tx htx hp _ hs
  obtain ⟨rfl, -, hfree, rfl⟩ := insertFresh_cases hs
  obtain ⟨hsame, htx'⟩ := Store.put_txn _ _ hfree htx
  exact ⟨hsame.1, _, rfl, fun he => ⟨⟨_, htx', hp.write (hkey _) _ _⟩, he⟩⟩

theorem succeeds_enqueue (hm : owner m.id = t) (key : RoutingKey) (payload : OrderEvent) :
    Succeeds c owner t k (Handling Fit m t) (enqueue key payload) fun _ => Handling Fit m t := by
  apply keeping_bind (succeeds_insertFresh hm (by simp) _)
  intro _
  exact keeping_pure fun _ h => h

theorem succeeds_reserveWork (hm : owner m.id = t) {e : OrderCreatedEvent}
    (he : m.payload = .created e) :
    Succeeds c owner t k (Handling Blank m t) (reserveWork e) fun _ => Handling Fit m t := by
  have hawait : awaiting m.payload = some .pending := by rw [he]; rfl
  have ho : e.orderId = m.payload.orderId := by rw [he]; rfl
  apply keeping_tryCatch (E := Short m t)
  · apply keeping_bind (keeping_reserveLines hm e.items [])
    intro _
    rw [ho]
    apply keeping_bind (succeeds_transitionOrder hm hawait rfl).keeping
    intro _
    exact keeping_pure fun _ h => h
  · intro error
    apply keeping_fact
    rintro ⟨p, rfl⟩
    rw [ho]
    apply keeping_bind (succeeds_transitionOrder hm hawait rfl)
    intro _
    apply keeping_bind (succeeds_enqueue hm _ _)
    intro _
    exact keeping_pure fun _ h => h

theorem succeeds_advance (hm : owner m.id = t) {e : InventoryReservedEvent}
    (he : m.payload = .inventoryReserved e) (result : PaymentResult) :
    Succeeds c owner t k (Handling Blank m t) (advance e result) fun _ => Handling Fit m t := by
  have hawait : awaiting m.payload = some .reserved := by rw [he]; rfl
  have ho : e.orderId = m.payload.orderId := by rw [he]; rfl
  rw [advance, ho]
  apply keeping_bind (succeeds_transitionOrder hm hawait (by cases result.authorized <;> rfl))
  intro _
  apply keeping_ite
  · intro _
    exact succeeds_enqueue hm _ _
  · intro _
    exact succeeds_enqueue hm _ _

theorem succeeds_completeWork (hm : owner m.id = t) {e : PaymentProcessedEvent}
    (he : m.payload = .paymentProcessed e) :
    Succeeds c owner t k (Handling Blank m t) (completeWork e) fun _ => Handling Fit m t := by
  have hawait : awaiting m.payload = some .paid := by rw [he]; rfl
  have ho : e.orderId = m.payload.orderId := by rw [he]; rfl
  rw [completeWork, ho]
  apply keeping_bind (succeeds_transitionOrder hm hawait rfl)
  intro _
  exact succeeds_enqueue hm _ _

end OrderLifecycle.Pipeline

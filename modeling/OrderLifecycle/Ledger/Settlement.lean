import OrderLifecycle.Ledger.Attempt

open Framework

namespace OrderLifecycle

/-- Decided, and its order either still waits for that or has had it. -/
def Resolved (o : OrderId) (mid : Uuid) (ids : Uuid → Prop) (row : PaymentAuthorizationEntity)
    (target : OrderStatus) (w : World) : Prop :=
  Stage o mid ids (some row) .reserved false w ∨ Stage o mid ids (some row) target true w

/-- So it will be once the transaction of `t` is rolled back. -/
def Resolving (t : Tid) (o : OrderId) (mid : Uuid) (ids : Uuid → Prop)
    (row : PaymentAuthorizationEntity) (target : OrderStatus) (w : World) : Prop :=
  Aside t o mid ids (some row) .reserved false w ∨ Aside t o mid ids (some row) target true w

section

variable {o : OrderId} {mid : Uuid} {ids unused : Uuid → Prop}
  {a : Option PaymentAuthorizationEntity} {row : PaymentAuthorizationEntity} {st target : OrderStatus}
  {done : Bool} {t : Tid} {d : Delivery} {answer result : PaymentResult}
  {D : Nat → World → Prop} {i : Nat} {β : Type} {P : World → Prop} {E : AppError → Nat → World → Prop}
  {e : InventoryReservedEvent}

theorem Resolving.rollback {w : World} (h : Resolving t o mid ids row target w) :
    Resolved o mid ids row target { w with db := w.db.rollback t } :=
  h.imp Aside.rollback Aside.rollback

/-! ### Statements of the transaction -/

/-- A statement that leaves the database alone, or works on it as `h` says. -/
theorem solo_working {st' : OrderStatus} {done' : Bool} {unused' : Uuid → Prop}
    {f : Tid → Choice → World → Option (Except AppError β × World)} {F : β → Prop}
    (h : ∀ w, Working t o mid ids a unused st done w →
      ∃ b w', f t (d.choice answer i) w = some (.ok b, w') ∧ F b ∧
        Working t o mid ids a unused' st' done' w') :
    Solo t (d.choice answer) d.dies (fun _ w => Aside t o mid ids a .reserved false w) i
      (Working t o mid ids a unused st done) (sql f)
      (fun b _ w => F b ∧ Working t o mid ids a unused' st' done' w) E := by
  apply solo_sql fun w hw _ => hw.aside
  intro w hw
  obtain ⟨b, w', hf, hb, hw'⟩ := h w hw
  exact ⟨hw.not_aborted, b, w', hf, hb, hw'⟩

theorem solo_selectOrder :
    Solo t (d.choice answer) d.dies (fun _ w => Aside t o mid ids a .reserved false w) i
      (Working t o mid ids a unused st done) (selectRow (.order o))
      (fun r _ w => (∃ order : OrderEntity, r = some order ∧ order.status = st) ∧
        Working t o mid ids a unused st done w) E := by
  apply solo_working
  intro w hw
  obtain ⟨order, horder, hst⟩ := hw.rows.order
  exact ⟨_, _, rfl, ⟨order, horder, hst⟩, hw⟩

theorem solo_selectInbox :
    Solo t (d.choice answer) d.dies (fun _ w => Aside t o mid ids a .reserved false w) i
      (Working t o mid ids a unused st done) (selectRow (.inbox mid .payment))
      (fun r _ w => r.isSome = done ∧ Working t o mid ids a unused st done w) E := by
  apply solo_working
  intro w hw
  exact ⟨_, _, rfl, hw.rows.inbox, hw⟩

theorem solo_updateStatus :
    Solo t (d.choice answer) d.dies (fun _ w => Aside t o mid ids a .reserved false w) i
      (Working t o mid ids a unused st done) (updateStatus o st target)
      (fun n _ w => n = 1 ∧ Working t o mid ids a unused target done w) E := by
  apply solo_working
  intro w hw
  obtain ⟨order, horder, hst⟩ := hw.rows.order
  have hup := Store.update_hit (p := fun o : OrderEntity => o.status == st)
    (fun order : OrderEntity => { order with status := target, updatedAt := .date (d.now i) })
    (fun _ => []) (hw.free (.order o)) horder (by simp [hst])
  exact ⟨1, _, congrArg (Option.map _) hup, rfl,
    hw.put (hw.free _) rfl (hw.rows.putOrder rfl)⟩

theorem solo_enqueue (hids : ids (d.fresh i)) (key : RoutingKey) (payload : OrderEvent) :
    Solo t (d.choice answer) d.dies (fun _ w => Aside t o mid ids a .reserved false w) i
      (Working t o mid ids a ids st false) (enqueue key payload)
      (fun _ _ w => Working t o mid ids a (fun _ => False) st false w) E := by
  apply solo_bind (Q := fun _ _ w => True ∧ Working t o mid ids a (fun _ => False) st false w)
  · apply solo_working
    intro w hw
    have hview : w.db.view t (.outbox (d.fresh i)) = none := hw.rows.unused rfl _ hids
    let m : OutboxMessageEntity := ⟨d.fresh i, orderExchange, key, payload, 0⟩
    have hins := Store.insert_new m [] (hw.free (.outbox (d.fresh i))) hview
    exact ⟨⟨d.fresh i, m⟩, _, congrArg (Option.bind · _) hins, trivial,
      hw.put (hw.free _) rfl (hw.rows.putOutbox _ _)⟩
  · intro r j _
    exact solo_pure fun w hw => hw.2

theorem solo_insertInbox :
    Solo t (d.choice answer) d.dies (fun _ w => Aside t o mid ids a .reserved false w) i
      (Working t o mid ids a unused st false)
      (insertRow (.inbox mid .payment) inboxTable fun ch =>
        (⟨.date ch.now⟩ : ProcessedMessageEntity))
      (fun _ _ w => True ∧ Working t o mid ids a ids st true w) E := by
  apply solo_working
  intro w hw
  have hview : w.db.view t (.inbox mid .payment) = none := by
    simpa using hw.rows.inbox
  let x : ProcessedMessageEntity := ⟨.date (d.now i)⟩
  have hins := Store.insert_new x [] (hw.free (.inbox mid .payment)) hview
  exact ⟨(), _, congrArg (Option.map _) hins, trivial,
    hw.put (hw.free _) rfl (hw.rows.putInbox _)⟩

/-- The transition of an order that may make it. -/
theorem solo_transitionOrder (hlegal : isTransitionAllowed st target = true) :
    Solo t (d.choice answer) d.dies (fun _ w => Aside t o mid ids a .reserved false w) i
      (Working t o mid ids a unused st done) (transitionOrder o target)
      (fun _ _ w => Working t o mid ids a unused target done w) E := by
  apply solo_bind solo_selectOrder
  intro r j _
  apply solo_fact
  rintro ⟨order, rfl, rfl⟩
  apply solo_ite
  · intro hillegal
    simp [hlegal] at hillegal
  · intro _
    apply solo_bind solo_updateStatus
    intro n j _
    apply solo_fact
    rintro rfl
    apply solo_ite
    · intro h
      cases h
    · intro _
      apply solo_bind (solo_record (fun w hw _ => hw.aside) (fun w w' h hw => hw.congr h) _)
      intro _ j _
      apply solo_bind (solo_pre (fun w hw => hw.2) <|
        solo_cacheDel (fun w hw _ => hw.aside) (fun w w' h hw => hw.congr h) _)
      intro _ j _
      exact solo_pure fun w hw => hw

/-- The work of the consumer. -/
theorem solo_advance (hids : ∀ i, ids (d.fresh i)) :
    Solo t (d.choice answer) d.dies (fun _ w => Aside t e.orderId mid ids a .reserved false w) i
      (Working t e.orderId mid ids a ids .reserved false) (advance e result)
      (fun _ _ w => Working t e.orderId mid ids a (fun _ => False) result.target false w) E := by
  apply solo_bind (Q := fun _ _ w => Working t e.orderId mid ids a ids result.target false w)
  · apply solo_transitionOrder
    cases result.authorized <;> rfl
  · intro _ j _
    apply solo_ite
    · intro _
      exact solo_enqueue (hids j) _ _
    · intro _
      exact solo_enqueue (hids j) _ _

/-- The inbox transaction, of a message that was not processed before. -/
theorem solo_runOnce_new {α : Type} {work : Service α}
    (hwork : ∀ i, Solo t (d.choice answer) d.dies
      (fun _ w => Aside t o mid ids (some row) .reserved false w) i
      (Working t o mid ids (some row) ids .reserved false) work
      (fun _ _ w => Working t o mid ids (some row) (fun _ => False) target false w)
      fun _ _ _ => False) :
    Solo t (d.choice answer) d.dies (fun _ w => Aside t o mid ids (some row) .reserved false w) i
      (Stage o mid ids (some row) .reserved false) (runOnce mid .payment work)
      (fun r _ w => r.isSome = true ∧ Stage o mid ids (some row) target true w) E := by
  apply solo_tryCatch_ok
  apply solo_tryCatch_ok
  apply solo_bind (Q := fun _ _ w => Working t o mid ids (some row) ids .reserved false w)
  · apply solo_stmt fun w hw _ => hw.aside
    intro w hw
    exact ⟨_, _, rfl, .begin hw⟩
  intro _ j _
  apply solo_bind (Q := fun r _ w => r.isSome = true ∧ Working t o mid ids (some row) ids target true w)
  · apply solo_bind solo_selectInbox
    intro existing j _
    apply solo_fact
    intro hnew
    apply solo_ite
    · intro hsome
      exact absurd (hnew ▸ hsome) Bool.false_ne_true
    · intro _
      apply solo_bind (hwork j)
      intro result j _
      apply solo_bind solo_insertInbox
      intro _ j _
      exact solo_pure fun w hw => ⟨rfl, hw.2⟩
  intro r j _
  apply solo_fact
  intro hr
  apply solo_bind (Q := fun _ _ w => Stage o mid ids (some row) target true w)
  · apply solo_stmt fun w hw _ => hw.aside
    intro w hw
    exact ⟨_, _, rfl, hw.commit⟩
  intro _ j _
  exact solo_pure fun w hw => ⟨hr, hw⟩

/-- One that was processed before is skipped. -/
theorem solo_runOnce_seen {α : Type} {work : Service α} :
    Solo t (d.choice answer) d.dies (fun _ w => Aside t o mid ids a st true w) i
      (Stage o mid ids a st true) (runOnce mid .payment work)
      (fun _ _ w => Stage o mid ids a st true w) E := by
  let Reading (w : World) : Prop :=
    Aside t o mid ids a st true w ∧ w.db.txns t = some ⟨fun _ => none, [], false⟩
  have hrows {w : World} (hw : Reading w) : w.db.view t = w.db.rows := by
    funext k
    rw [Store.view_txn hw.2]
    rfl
  apply solo_tryCatch_ok
  apply solo_tryCatch_ok
  apply solo_bind (Q := fun _ _ => Reading)
  · apply solo_stmt fun w hw _ => hw.aside
    intro w hw
    refine ⟨_, _, rfl, ⟨fun t' ht' => (Store.begin_frame.txns t' ht').trans (hw.idle t'), ?_⟩,
      Store.begin_txn (hw.idle t)⟩
    rw [Store.begin_same.1]
    exact hw.rows
  intro _ j _
  apply solo_bind (Q := fun _ _ => Reading)
  · apply solo_bind (Q := fun r _ w => r.isSome = true ∧ Reading w)
    · apply solo_sql fun w hw _ => hw.1
      intro w hw
      refine ⟨by simp [Store.aborted, hw.2], _, _, rfl, ?_, hw⟩
      rw [hrows hw]
      exact hw.1.rows.inbox
    · intro existing j _
      apply solo_fact
      intro hsome
      apply solo_ite
      · intro _
        exact solo_pure fun w hw => hw
      · intro hnone
        exact absurd hsome hnone
  intro r j _
  apply solo_bind (Q := fun _ _ w => Stage o mid ids a st true w)
  · apply solo_stmt fun w hw _ => hw.1
    intro w hw
    refine ⟨_, _, rfl, fun t' => ?_, ?_⟩
    · by_cases e : t' = t
      · subst e
        exact Store.commit_txn
      · exact (Store.commit_frame.txns t' e).trans (hw.1.others t' e)
    · rw [Store.commit_view hw.2 rfl, hrows hw]
      exact hw.1.rows
  intro _ j _
  exact solo_pure fun w hw => hw

/-! ### The handler -/

/-- Once the payment is decided the handler acknowledges, or dies trying. -/
theorem solo_finish (hids : ∀ i, ids (d.fresh i)) (htarget : result.target = target) :
    Solo t (d.choice answer) d.dies (fun _ w => Resolving t e.orderId mid ids row target w) i
      (Resolved e.orderId mid ids row target)
      (do
        let processed ← runOnce mid .payment (advance e result)
        match processed with
        | none => do
          recordMetric (.consumerOutcome .payment "skipped")
          return .ack
        | some _ => do
          record fun _ =>
            .consumerOutcome .payment "processed" ::
              if result.authorized then [] else [.orderFailure result.reason]
          return .ack : Service Handled)
      (fun r _ w => r = .ack ∧ Stage e.orderId mid ids (some row) target true w)
      (fun _ _ _ => False) := by
  subst htarget
  apply solo_bind (Q := fun _ _ w => Stage e.orderId mid ids (some row) result.target true w)
  · intro w hw
    rcases hw with hw | hw
    · have hnew : Solo t (d.choice answer) d.dies
          (fun _ w => Aside t e.orderId mid ids (some row) .reserved false w) i
          (Stage e.orderId mid ids (some row) .reserved false)
          (runOnce mid .payment (advance e result))
          (fun r _ w => r.isSome = true ∧
            Stage e.orderId mid ids (some row) result.target true w) (fun _ _ _ => False) :=
        solo_runOnce_new fun i => solo_advance hids
      exact solo_conseq hnew (fun w h => h) (fun _ _ _ _ h => h.2) (fun _ _ _ _ h => h)
        (fun _ _ _ _ h => .inl h) w hw
    · exact solo_conseq solo_runOnce_seen (fun w h => h) (fun _ _ _ _ h => h)
        (fun _ _ _ _ h => h) (fun _ _ _ _ h => .inr h) w hw
  · intro processed j _
    cases processed with
    | none =>
      apply solo_bind (solo_record (fun w hw _ => .inr hw.aside) (fun w w' h hw => hw.congr h) _)
      intro _ j _
      exact solo_pure fun w hw => ⟨rfl, hw.2⟩
    | some _ =>
      apply solo_bind (solo_record (fun w hw _ => .inr hw.aside) (fun w w' h hw => hw.congr h) _)
      intro _ j _
      exact solo_pure fun w hw => ⟨rfl, hw.2⟩

end

end OrderLifecycle

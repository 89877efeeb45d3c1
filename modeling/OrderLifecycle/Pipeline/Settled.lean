import OrderLifecycle.Pipeline.Undisturbed

open Framework

namespace OrderLifecycle.Pipeline

variable {c : Catalog} {owner : Uuid → Tid} {t : Tid} {k : Request} {w w' : World} {α β : Type}
  {m : OutboxMessageEntity} {consumer : Consumer}

/-! ### The inbox -/

/-- `t` is in no transaction, and its message is expected. -/
def Ready (m : OutboxMessageEntity) (t : Tid) (w : World) : Prop := Idle t w ∧ Expected m w

theorem stable_ready (hm : owner m.id = t) : (healthyLogic c owner).Stable t (Ready m t) :=
  .and (healthy_own fun _ _ _ hne hf h => (hf.txns t hne).trans h) (stable_expected hm)

theorem succeeds_start (hm : owner m.id = t) :
    Succeeds c owner t k (Ready m t) startTransaction fun _ => Handling Blank m t := by
  apply keeping_stmt (stable_ready hm)
  intro w ch r w' _ ⟨hidle, he⟩ hs hgood _ _
  split at hs
  · next hfail =>
    cases hs
    exact nomatch hfail.symm.trans (hgood.sound (.inl rfl)).1
  · cases hs
    exact ⟨⟨_, Store.begin_txn hidle, ⟨rfl, rfl⟩, rfl⟩, he.of_rows Store.begin_same.1⟩

theorem succeeds_commit :
    Succeeds c owner t k (fun _ => True) commitTransaction fun _ _ => True := by
  apply keeping_stmt .true
  intro w ch r w' _ _ hs hgood _ _
  split at hs
  · next hfail =>
    cases hs
    exact nomatch hfail.symm.trans (hgood.sound (.inl rfl)).1
  · cases hs
    trivial

theorem succeeds_insertInbox (hm : owner m.id = t) (row : Choice → ProcessedMessageEntity) :
    Succeeds c owner t k (Handling Fit m t)
      (insertRow (.inbox m.id (consumerOf m.payload)) inboxTable row) fun _ _ => True := by
  apply succeeds_sql hm fun _ hp => hp.sound
  intro w ch r w' tx htx hp he hs
  obtain ⟨⟨b, db⟩, hins, hs⟩ := Option.map_eq_some_iff.mp hs
  rcases Store.insert_cases hins with ⟨-, -, hv⟩ | ⟨rfl, -, hfree, rfl⟩
  · rw [Store.view_txn htx, hp.unfiled, Option.getD_none] at hv
    exact absurd hv he.unfiled
  · cases hs
    exact ⟨(Store.put_txn _ _ hfree htx).1.1, (), rfl, fun _ => trivial⟩

theorem succeeds_runOnce (hm : owner m.id = t) (hc : consumerOf m.payload = consumer)
    {work : Service α}
    (hwork : Succeeds c owner t k (Handling Blank m t) work fun _ => Handling Fit m t) :
    Succeeds c owner t k (Ready m t) (runOnce m.id consumer work) fun _ _ => True := by
  subst hc
  apply keeping_tryCatch (E := fun _ _ => False)
  · apply keeping_tryCatch (E := fun _ _ => False)
    · apply keeping_bind (succeeds_start hm)
      intro _
      apply keeping_bind (Q := fun _ _ => True)
      · apply keeping_bind (succeeds_select hm (fun _ hp => hp.sound) _ fun _ hp => hp.unfiled)
        intro existing
        apply keeping_ite
        · intro _
          exact keeping_pure fun _ _ => trivial
        · intro _
          apply keeping_bind (keeping_pre (fun _ h => h.1) hwork)
          intro _
          apply keeping_bind (succeeds_insertInbox hm _)
          intro _
          exact keeping_pure fun _ _ => trivial
      · intro _
        apply keeping_bind succeeds_commit
        intro _
        exact keeping_pure fun _ _ => trivial
    · exact fun _ _ h => h.elim
  · exact fun _ _ h => h.elim

theorem succeeds_processEventOnce (hm : owner m.id = t) (hc : consumerOf m.payload = consumer)
    {work : Service α}
    (hwork : Succeeds c owner t k (Handling Blank m t) work fun _ => Handling Fit m t) :
    Succeeds c owner t k (Ready m t) (processEventOnce (some m.id) consumer work)
      fun _ _ => True := by
  apply keeping_bind (succeeds_runOnce hm hc hwork)
  intro ran
  cases ran with
  | none =>
    apply keeping_bind (succeeds_record .true _)
    intro _
    exact keeping_pure fun _ _ => trivial
  | some result =>
    apply keeping_bind (succeeds_record .true _)
    intro _
    exact keeping_pure fun _ _ => trivial

/-! ### The payment gateway -/

theorem Expected.put {a : Option (Row (.authorization m.payload.orderId))}
    (h : Ready m t w) (hfree : w.db.Free t (.authorization m.payload.orderId)) {g : GatewayLog} :
    Ready m t { w with
      db := w.db.put t (.authorization m.payload.orderId) a [] hfree
      gateway := g } := by
  obtain ⟨hidle, he⟩ := h
  obtain ⟨hrows, -, htxns⟩ := Store.put_idle a [] hfree hidle
  refine ⟨by rw [Idle, htxns]; exact hidle, ?_, fun st hst => ?_, ?_⟩
  · rw [Published, hrows, Function.update_of_ne (by simp)]
    exact he.published
  · rw [World.order, hrows, Function.update_of_ne (by simp)]
    exact he.awaited st hst
  · rw [Filed, hrows, Function.update_of_ne (by simp)]
    exact he.unfiled

/-- A statement outside a transaction. -/
theorem succeeds_single {f : Tid → Choice → World → Option (Except AppError β × World)}
    {P : World → Prop} {Q : β → World → Prop} (hP : (healthyLogic c owner).Stable t P)
    (hidle : ∀ w, P w → Idle t w)
    (hf : ∀ w ch r w', P w → f t ch w = some (r, w') → ∃ b, r = .ok b ∧ Q b w') :
    Succeeds c owner t k P (sql f) Q := by
  apply keeping_stmt hP
  intro w ch r w' _ hp hs hgood _ _
  rcases sql_cases hs with ⟨ha, -, -⟩ | ⟨-, hfail, rfl, -⟩ | ⟨-, -, hr⟩
  · exact nomatch ha.symm.trans (hidle w hp).not_aborted
  · exact nomatch hfail.symm.trans (hgood.sound (.inl rfl)).1
  · rcases hr with ⟨b, rfl, hs'⟩ | ⟨e, w₁, rfl, hs', -⟩
    · obtain ⟨b', hb', hq⟩ := hf w ch _ w' hp hs'
      cases hb'
      exact hq
    · obtain ⟨b', hb', -⟩ := hf w ch _ w₁ hp hs'
      cases hb'

theorem succeeds_claim (hm : owner m.id = t) (hst : awaiting m.payload = some .reserved) :
    Succeeds c owner t k (fun w => Ready m t w ∧ Uncharged m w) (claim m.payload.orderId)
      fun claimed w => claimed = true ∧ Ready m t w := by
  apply succeeds_single
  · intro w w' hr ⟨hready, hu⟩
    exact ⟨stable_ready hm w w' hr hready, (stable_uncharged hm w w' hr ⟨hready.2, hu⟩).2⟩
  · exact fun _ h => h.1.1
  intro w ch r w' ⟨hready, hu⟩ hs
  obtain ⟨⟨b, db⟩, hins, he⟩ := Option.map_eq_some_iff.mp hs
  cases he
  rcases Store.insert_cases hins with ⟨-, -, hv⟩ | ⟨rfl, -, hfree, rfl⟩
  · rw [Store.view_idle hready.1] at hv
    exact absurd (hu hst) hv
  · exact ⟨true, rfl, rfl, Expected.put hready hfree⟩

theorem succeeds_charge (hm : owner m.id = t) (e : InventoryReservedEvent) (key : OrderId) :
    Succeeds c owner t k (Ready m t) (charge e key) fun _ => Ready m t := by
  apply keeping_stmt (stable_ready hm)
  intro w ch r w' _ hready hs hgood _ _
  cases hs
  cases hf : ch.fail || ch.throws with
  | true =>
    rw [hf] at hgood
    obtain ⟨hfail, hthrows⟩ := Sane.sound hgood (.inr rfl)
    simp [hfail, hthrows] at hf
  | false => exact ⟨hready.1, hready.2.of_rows rfl⟩

theorem succeeds_recordDecision (hm : owner m.id = t) (result : PaymentResult) :
    Succeeds c owner t k (Ready m t) (recordDecision m.payload.orderId result)
      fun _ => Ready m t := by
  apply succeeds_single (stable_ready hm) fun _ h => h.1
  intro w ch r w' hready hs
  rcases updateRow_cases hs with ⟨rfl, rfl, -⟩ | ⟨rfl, row, hfree, -, -, rfl⟩
  · exact ⟨0, rfl, hready⟩
  · exact ⟨1, rfl, Expected.put hready hfree⟩

/-- Who is the first to ask is charged at once. -/
theorem succeeds_authorize (hm : owner m.id = t) {e : InventoryReservedEvent}
    (he : m.payload = .inventoryReserved e) :
    Succeeds c owner t k (fun w => Ready m t w ∧ Uncharged m w) (authorize e)
      fun _ => Ready m t := by
  have hst : awaiting m.payload = some .reserved := by rw [he]; rfl
  have ho : e.orderId = m.payload.orderId := by rw [he]; rfl
  rw [authorize, ho]
  apply keeping_bind (succeeds_claim hm hst)
  intro claimed
  apply keeping_fact
  rintro rfl
  apply keeping_ite
  · intro _
    apply keeping_bind (succeeds_charge hm _ _)
    intro result
    apply keeping_bind (succeeds_record (stable_ready hm) _)
    intro _
    rw [ho]
    apply keeping_bind (succeeds_recordDecision hm _)
    intro _
    exact keeping_pure fun _ h => h
  · intro h
    exact absurd rfl h

/-! ### The handlers -/

theorem succeeds_reserve (hm : owner m.id = t) {e : OrderCreatedEvent}
    (he : m.payload = .created e) :
    Succeeds c owner t k (Ready m t) (reserve e (some m.id)) fun _ _ => True := by
  apply keeping_bind (succeeds_processEventOnce hm (by rw [he]; rfl) (succeeds_reserveWork hm he))
  intro outcome
  cases outcome with
  | nack => exact keeping_pure fun _ _ => trivial
  | skipped => exact keeping_pure fun _ _ => trivial
  | processed short =>
    cases short with
    | none => exact keeping_pure fun _ _ => trivial
    | some _ =>
      apply keeping_bind (succeeds_record .true _)
      intro _
      exact keeping_pure fun _ _ => trivial

theorem succeeds_authorizeAndAdvance (hm : owner m.id = t) {e : InventoryReservedEvent}
    (he : m.payload = .inventoryReserved e) :
    Succeeds c owner t k (fun w => Ready m t w ∧ Uncharged m w)
      (authorizeAndAdvance e (some m.id)) fun _ _ => True := by
  apply keeping_bind (succeeds_authorize hm he)
  intro result
  apply keeping_bind (succeeds_runOnce hm (by rw [he]; rfl) (succeeds_advance hm he result))
  intro processed
  cases processed with
  | none =>
    apply keeping_bind (succeeds_record .true _)
    intro _
    exact keeping_pure fun _ _ => trivial
  | some _ =>
    apply keeping_bind (succeeds_record .true _)
    intro _
    exact keeping_pure fun _ _ => trivial

theorem succeeds_complete (hm : owner m.id = t) {e : PaymentProcessedEvent}
    (he : m.payload = .paymentProcessed e) :
    Succeeds c owner t k (Ready m t) (complete e (some m.id)) fun _ _ => True := by
  apply keeping_bind (succeeds_processEventOnce hm (by rw [he]; rfl) (succeeds_completeWork hm he))
  intro outcome
  cases outcome <;> exact keeping_pure fun _ _ => trivial

theorem succeeds_notify (hm : owner m.id = t) (hc : consumerOf m.payload = email) :
    Succeeds c owner t k (Ready m t) (notify (some m.id)) fun _ _ => True := by
  apply keeping_bind (succeeds_processEventOnce hm hc (keeping_pure fun _ h => h.fit))
  intro outcome
  cases outcome <;> exact keeping_pure fun _ _ => trivial

/-- A message that is expected is handled. -/
theorem succeeds_handle (hm : owner m.id = t) :
    Succeeds c owner t k (fun w => Ready m t w ∧ Uncharged m w) (handle m) fun _ _ => True := by
  unfold handle
  split
  · next e he => exact keeping_pre (fun _ h => h.1) (succeeds_reserve hm he)
  · next e he => exact succeeds_authorizeAndAdvance hm he
  · next e he => exact keeping_pre (fun _ h => h.1) (succeeds_complete hm he)
  · next e he => exact keeping_pre (fun _ h => h.1) (succeeds_notify hm (by rw [he]; rfl))
  · next e he => exact keeping_pre (fun _ h => h.1) (succeeds_notify hm (by rw [he]; rfl))

/-! ### The whole system -/

/-- No delivery by the owner of a message fails. -/
def Settles (owner : Uuid → Tid) (t : Tid) : Request → Except AppError Reply → World → Prop
  | .deliver m, .error _, _ => owner m.id ≠ t
  | _, _, _ => True

theorem stable_settles (k : Request) (r : Except AppError Reply) :
    (healthyLogic c owner).Stable t (Settles owner t k r) := by
  intro w w' _ hh
  cases k with
  | deliver m =>
    cases r with
    | ok r => trivial
    | error e => exact hh
  | _ => trivial

theorem healthy_inv (h : (healthyLogic c owner).inv w) (hi : Inv (.any c) w')
    (hr : w'.db.rows = w.db.rows) (hj : w'.db.journal = w.db.journal) :
    (healthyLogic c owner).inv w' := by
  refine ⟨hi, ?_, ?_⟩
  · rw [Spared, hj]
    exact h.2.1
  · simpa only [Filed, Certified, Published, Past, World.order, hr] using h.2.2

theorem healthy_orderSystem :
    Verified (orderSystem.restrict ((healthyLogic c owner).kept Sane)) (healthyLogic c owner)
      (fun t w => Idle t w ∧ Awaits owner t w) (Settles owner) where
  idle_stable t :=
    .and (healthy_own fun _ _ _ hne hf h => (hf.txns t hne).trans h) stable_awaits
  post_stable _ := stable_settles
  body := by
    intro t k w hi ⟨hidle, hawaits⟩ he
    by_cases hk : ∃ m, k = .deliver m ∧ owner m.id = t
    · obtain ⟨m, rfl, hm⟩ := hk
      have hmem : m ∈ w.messages := of_decide_eq_true he
      obtain ⟨hexpected, hu⟩ := hawaits m (hi.1.messages m hmem) hm
      have hhandle : Succeeds c owner t (.deliver m) (fun w => Ready m t w ∧ Uncharged m w)
          (respond (.deliver m)) fun _ _ => True := by
        apply keeping_bind (succeeds_handle hm)
        intro _
        exact keeping_pure fun _ _ => trivial
      apply wp_mono _ (hhandle w ⟨⟨hidle, hexpected⟩, hu⟩)
      intro r w hr
      cases r with
      | ok _ => trivial
      | error _ => exact hr.elim
    · apply wp_mono _ wp_kept
      intro r w _
      cases k with
      | deliver m =>
        cases r with
        | ok _ => trivial
        | error _ => exact fun hm => hk ⟨m, rfl, hm⟩
      | _ => trivial
  env := by
    intro e w w' hi h
    obtain ⟨hi', hd, -⟩ := (verified_orderSystem (.any c)).env e w w' hi.1 h
    exact ⟨healthy_inv hi hi' (by rw [hd]) (by rw [hd]), hd⟩
  crash t k w hi :=
    ⟨healthy_inv hi ((verified_orderSystem (.any c)).crash t k w hi.1).1 Store.rollback_same.1
      Store.rollback_same.2, Store.rollback_frame, .inl Store.rollback_same.1⟩

end OrderLifecycle.Pipeline

import OrderLifecycle.Lifecycle.Consumption

open Framework

namespace OrderLifecycle

variable {S : Setting} {t : Tid} {k : Request} {w w' : World} {o : OrderId}

/-! ### Replenishment -/

theorem hoare_restock {id : ProductId} {amount : Nat} :
    Hoare (orderLogic S) t k (Idle t) (restock id amount) (fun _ => Idle t) (fun _ _ => True) := by
  refine hoare_sql stable_idle (fun w h => h.not_aborted) (fun _ _ _ => trivial) ?_
  intro w ch r w' hi _ hidle hf
  obtain ⟨⟨n, db⟩, hu, he⟩ := Option.map_eq_some_iff.mp hf
  cases he
  rcases Store.update_cases hu with ⟨rfl, rfl, -⟩ | ⟨rfl, row, hfree, hv, -, rfl⟩
  · exact ⟨hi, ⟨.refl, .inl fun _ => rfl⟩, hidle⟩
  let D : Draft := .ofJournal [(t, .replenished id amount)]
  have hc : Commits D w { w with
      db := w.db.put t (.product id) (some { row with stock := row.stock + amount })
        D.journal hfree } := by
    refine hidle.commits_put hfree w.gateway (fun _ => Iff.rfl) (fun k' hk' => ?_)
      fun _ h => nomatch h
    rw [Function.update_of_ne (tracked_ne hk' _).symm]
    cases k' <;> rfl
  have hch : Changes S t k w { w with
      db := w.db.put t (.product id) (some { row with stock := row.stock + amount })
        D.journal hfree } := by
    refine .inl fun o => ?_
    rw [hc.own o, hc.reserved_same (fun _ h => nomatch h) fun _ h => nomatch h]
    refine OrderFacts.mk.injEq .. |>.mpr ⟨rfl, rfl, rfl, rfl, rfl, funext fun p => ?_, ?_⟩
    · have hnone : netChange D.journal o p = 0 := by simp [D, Draft.ofJournal, Deed.delta]
      exact (congrArg ((w.facts o).net p + ·) hnone).trans (Int.add_zero _)
    · exact List.append_nil _
  have hn : 0 ≤ (row : ProductEntity).stock := by
    rcases hi.accounts.view t id with ⟨hnone, -⟩ | ⟨row', hrow', -, hpos⟩
    · rw [hv] at hnone
      cases hnone
    · rw [hv] at hrow'
      cases hrow'
      exact hpos
  have ha : Accounts S.catalog (w.db.put t (.product id)
      (some { row with stock := row.stock + amount }) D.journal hfree) :=
    hi.accounts.put_product hfree hv (by simp [D, Draft.ofJournal, Deed.moved])
      (by simp only; omega) fun q hq => by simp [D, Draft.ofJournal, Deed.moved, hq.symm]
  exact ⟨hi.next hch ha (hc.outbox hi.outbox) rfl hi.cache,
    ⟨Store.put_frame (h := hfree), hch⟩, hidle.put hfree w.gateway⟩

theorem hoare_replenishEach {products : List (ProductId × ProductEntity)} :
    Hoare (orderLogic S) t k (Idle t) (replenishEach products) (fun _ _ => True)
      (fun _ _ => True) := by
  induction products with
  | nil => exact hoare_pure fun _ _ => trivial
  | cons x rest ih =>
    refine hoare_bind (Q := fun _ => Idle t) ?_ fun low => hoare_ite (fun _ => ?_) fun _ => ih
    · refine hoare_ite (fun _ => hoare_pure fun _ h => h) fun _ => ?_
      exact hoare_bind (hoare_mathRandom stable_idle) fun _ => hoare_pure fun _ h => h
    · refine hoare_bind (Q := fun _ => Idle t) ?_ fun amount => ?_
      · exact hoare_bind (hoare_mathRandom stable_idle) fun _ => hoare_pure fun _ h => h
      · exact hoare_bind hoare_restock fun _ =>
          hoare_bind (hoare_recordMetric stable_idle _) fun _ => ih

theorem hoare_replenishLowStock :
    Hoare (orderLogic S) t k (Idle t) replenishLowStock (fun _ _ => True) (fun _ _ => True) :=
  hoare_bind (hoare_conseq (hoare_selectAll stable_idle (fun _ h => h) _) (fun _ h => h)
    (fun _ _ h => h) fun _ _ _ => trivial) fun _ => hoare_replenishEach

/-! ### The order system keeps its logic -/

/-- What is known of a thread that has not started. -/
def Untouched (t : Tid) (w : World) : Prop := Idle t w ∧ ∀ o, Unclaimed t o w

/-- What is known once a call has returned: a payment or a cancel that succeeded has its claim,
and a cancel has paid its debts. -/
def Returned (S : Setting) (t : Tid) : Request → Except AppError Reply → World → Prop
  | .initiatePayment id _, .ok _, w => (t, .paymentClaimed id) ∈ (w.facts id).claims
  | .cancelOrder id _, .ok _, w => CancelledBy t id w
  | .cancelOrder id _, .error _, w => ¬S.faulty → Unclaimed t id w
  | _, _, _ => True

theorem stable_returned (k : Request) (r : Except AppError Reply) :
    (orderLogic S).Stable t (Returned S t k r) := by
  match k, r with
  | .initiatePayment id _, .ok _ => exact lasting_claim.stable
  | .initiatePayment id _, .error _ => exact .true
  | .cancelOrder id _, .ok _ => exact stable_cancelledBy
  | .cancelOrder id _, .error _ => exact .imp fun _ => stable_unclaimed
  | .createOrder .., _ => exact .true
  | .listOrdersForUser .., _ => exact .true
  | .getOrderForUser .., _ => exact .true
  | .deliver .., _ => exact .true
  | .replenishLowStock, _ => exact .true

/-- What the handler of a message relies on. -/
def Deliverable (m : OutboxMessageEntity) (w : World) : Prop :=
  match m.payload with
  | .created _ => Published m w
  | .inventoryReserved e =>
    Paying e.orderId e.userId w ∧ Called (.deliver m) .inventoryReserved e.orderId w
  | .paymentProcessed e => Completable (.deliver m) e w
  | _ => True

theorem Published.deliverable {m : OutboxMessageEntity} (h : Published m w) (hi : Inv S w) :
    Deliverable m w := by
  have hcall := h.called hi
  unfold Deliverable
  split
  · exact h
  · next e he =>
    rw [he] at hcall
    exact ⟨h.paying hi he, hcall⟩
  · next e he =>
    rw [he] at hcall
    exact ⟨h.paid hi he, hcall⟩
  · trivial

theorem hoare_handle {m : OutboxMessageEntity} :
    Hoare (orderLogic S) t (.deliver m) (fun w => Idle t w ∧ Deliverable m w) (handle m)
      (fun _ _ => True) (fun _ _ => True) := by
  unfold handle Deliverable
  cases hm : m.payload with
  | created e => exact hoare_reserve hm
  | inventoryReserved e => exact hoare_authorizeAndAdvance
  | paymentProcessed e => exact hoare_complete
  | completed e => exact hoare_pre (fun _ h => h.1) hoare_notify
  | failed e => exact hoare_pre (fun _ h => h.1) hoare_notify

/-- The result of a call is what the request returns. -/
theorem hoare_respond {α : Type} {P : World → Prop} {x : Service α} {f : α → Reply}
    {Q : α → World → Prop} {E : AppError → World → Prop}
    (h : Hoare (orderLogic S) t k P x Q E) (hq : ∀ a w, Q a w → Returned S t k (.ok (f a)) w)
    (he : ∀ e w, E e w → Returned S t k (.error e) w) (hp : P w) :
    wp (orderLogic S) t k (x >>= fun a => pure (f a) : Service Reply).run (Returned S t k) w := by
  have := hoare_bind (R := fun r w => Returned S t k (.ok r) w) h
    fun a => hoare_pure fun w hw => hq a w hw
  refine wp_mono ?_ (this w hp)
  intro r w hr
  cases r with
  | ok a => exact hr
  | error e => exact he e w hr

theorem relay_inv {id : Uuid} (hi : Inv S w) (h : relay w id = some w') :
    Inv S w' ∧ w'.db = w.db ∧ w'.gateway = w.gateway := by
  obtain ⟨m, hm, rfl⟩ := Option.map_eq_some_iff.mp h
  refine ⟨⟨hi.accounts, hi.orders, hi.outbox, fun m' hm' => ?_, hi.cache⟩, rfl, rfl⟩
  rcases List.mem_cons.mp hm' with rfl | hm'
  · have hid := hi.outbox id m' hm
    rw [hid]
    exact hm
  · exact hi.messages m' hm'

theorem verified_orderSystem (S : Setting) :
    Verified orderSystem (orderLogic S) Untouched (Returned S) where
  idle_stable t := stable_idle.and fun w w' hr h o => stable_unclaimed w w' hr (h o)
  post_stable t k r := stable_returned k r
  body := by
    intro t k w hi ⟨hidle, hun⟩ he
    cases k with
    | createOrder u lines =>
      exact hoare_respond (hoare_createOrder u lines) (fun _ _ _ => trivial)
        (fun _ _ _ => trivial) hidle
    | listOrdersForUser u =>
      exact hoare_respond (hoare_listOrdersForUser u) (fun _ _ _ => trivial)
        (fun _ _ _ => trivial) hidle
    | getOrderForUser id u =>
      exact hoare_respond (hoare_getOrderForUser stable_idle (fun _ h => h) id u)
        (fun _ _ _ => trivial) (fun _ _ _ => trivial) hidle
    | initiatePayment id u =>
      exact hoare_respond (hoare_initiatePayment rfl) (fun _ _ h => h) (fun _ _ _ => trivial) hidle
    | cancelOrder id u =>
      exact hoare_respond (hoare_cancelOrder rfl) (fun _ _ h => h) (fun _ _ h => h)
        ⟨hidle, hun id⟩
    | deliver m =>
      have hm : m ∈ w.messages := of_decide_eq_true he
      exact hoare_respond hoare_handle (fun _ _ _ => trivial) (fun _ _ _ => trivial)
        ⟨hidle, Published.deliverable (hi.messages m hm) hi⟩
    | replenishLowStock =>
      exact hoare_respond (f := fun _ => .unit) hoare_replenishLowStock (fun _ _ _ => trivial)
        (fun _ _ _ => trivial) hidle
  env := by
    intro e w w' hi h
    cases e with
    | relay id => exact relay_inv hi h
    | expire key =>
      cases h
      exact ⟨⟨hi.accounts, hi.orders, hi.outbox, hi.messages, hi.cache.del key⟩, rfl, rfl⟩
  crash t k w hi := hi.rollback

end OrderLifecycle

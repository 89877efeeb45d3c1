import OrderLifecycle.Reads.Memory

open Framework

namespace OrderLifecycle

variable {t : Tid} {k : Request} {w w' : World} {α β : Type} {u : UserId}

/-! ### `listOrdersForUser` -/

/-- The list came from the cache, or from the second statement of the call. -/
def ListedOrders (u : UserId) (orders : List OrderEntity) (h : Past World) : Prop :=
  (∃ x list, h = [x] ∧ x.1.cache.userOrders u = some list ∧ orders = list.map rehydrateOrder) ∨
    ∃ x y rest, h = x :: y :: rest ∧ orders = y.1.listOf u

theorem recalls_cacheGetUserOrders (u : UserId) :
    Recalls readLogic (Fills k) t k (fun h w => h = [] ∧ Idle t w) (cacheGetUserOrders u)
      (fun cached h w => (∃ x, h = [x] ∧
        ∀ list, cached = some list → x.1.cache.userOrders u = some list) ∧ Idle t w)
      fun _ _ _ => True := by
  apply recalls_calm _ fun _ => .and (.const _) stable_read_idle
  · rintro h w ch r w' ⟨rfl, hidle⟩ hs
    cases hs
    refine ⟨⟨(w, w), rfl, fun list he => ?_⟩, hidle⟩
    split at he
    · cases he
    · exact he
  · apply takes_stmt
    intro t ch w r w' hs
    cases hs
    exact .of_same rfl rfl

theorem recalls_selectOrders (u : UserId) :
    Recalls readLogic (Fills k) t k (fun h w => (∃ x, h = [x]) ∧ Idle t w)
      (selectAll (orderOfUser u)) (fun found h _ => ∃ x y, h = [x, y] ∧ found = y.1.ordersOf u)
      fun _ _ _ => True := by
  apply recalls_sql (permits_calm.selectAll _) fun _ => .and (.const _) stable_read_idle
  rintro h w ch found w' ⟨⟨x, rfl⟩, hidle⟩ - hs
  cases hs
  exact ⟨x, (w, w), rfl, select_orders hidle⟩

theorem recalls_cacheSetUserOrders {orders : List OrderEntity}
    (ht : ∀ order ∈ orders, isTerminalStatus order.status = true) :
    Recalls readLogic (Fills (.listOrdersForUser u)) t (.listOrdersForUser u)
      (fun h _ => ∃ x y, h = [x, y] ∧ orders = y.1.listOf u) (cacheSetUserOrders u orders)
      (fun _ h _ => ListedOrders u orders h) fun _ _ _ => True := by
  apply recalls_stmt fun h => .const _
  rintro h w ch r w' - - ⟨x, y, rfl, rfl⟩ hs
  cases hs
  split
  · exact ⟨trivial, ⟨.refl, List.prefix_rfl⟩, (Calm.of_same (t := t) rfl rfl).fills,
      .inr ⟨x, y, _, rfl, rfl⟩⟩
  · refine ⟨trivial, ⟨.refl, List.prefix_rfl⟩, ⟨fun _ _ he => .inl he, fun u' list he => ?_⟩,
      .inr ⟨x, y, _, rfl, rfl⟩⟩
    by_cases e : u' = u
    · subst e
      simp only [Cache.setUserOrders, Function.update_self, Option.some.injEq] at he
      exact .inr ⟨rfl, x, y, rfl, ht, he.symm⟩
    · simp only [Cache.setUserOrders, Function.update_of_ne e] at he
      exact .inl he

theorem recalls_listOrdersForUser (u : UserId) :
    Recalls readLogic (Fills (.listOrdersForUser u)) t (.listOrdersForUser u)
      (fun h w => h = [] ∧ Idle t w) (listOrdersForUser u)
      (fun orders h _ => ListedOrders u orders h) fun _ _ _ => True := by
  apply recalls_bind (recalls_cacheGetUserOrders u)
  intro cached
  cases cached with
  | some list =>
    apply recalls_pure
    rintro h w ⟨⟨x, rfl, hx⟩, -⟩
    exact .inl ⟨x, list, rfl, hx list rfl, rfl⟩
  | none =>
    apply recalls_pre (P := fun h w => (∃ x, h = [x]) ∧ Idle t w)
    · rintro h w ⟨⟨x, hx, -⟩, hidle⟩
      exact ⟨⟨x, hx⟩, hidle⟩
    · apply recalls_bind (recalls_selectOrders u)
      intro found
      have hlist {h : Past World} {x y : World × World} (hf : found = y.1.ordersOf u) :
          newestFirst found = y.1.listOf u := by
        rw [hf]
        rfl
      apply recalls_ite
      · intro hall
        have ht : ∀ order ∈ newestFirst found, isTerminalStatus order.status = true :=
          List.all_eq_true.mp hall
        apply recalls_bind (Q := fun _ h _ => ListedOrders u (newestFirst found) h)
        · apply recalls_pre _ (recalls_cacheSetUserOrders ht)
          rintro h w ⟨x, y, rfl, hf⟩
          exact ⟨x, y, rfl, hf ▸ rfl⟩
        · intro _
          exact recalls_pure fun _ _ hp => hp
      · intro _
        apply recalls_pure
        rintro h w ⟨x, y, rfl, hf⟩
        exact .inr ⟨x, y, [], rfl, hf ▸ rfl⟩

/-! ### `createOrder` -/

/-- The transaction of `t` is about to commit an order of the user. -/
def Placing (t : Tid) (id : OrderId) (u : UserId) (w : World) : Prop :=
  ∃ (tx : Txn Row (Tid × Deed)) (row : OrderEntity), w.db.txns t = some tx ∧ tx.aborted = false ∧
    tx.writes (.order id) = some (some row) ∧ row.userId = u

/-- The order was committed in the past. -/
def Placed (id : OrderId) (u : UserId) (h : Past World) : Prop :=
  ∃ x ∈ h, ∃ row, x.2.order id = some row ∧ row.userId = u

theorem stable_placing {id : OrderId} : readLogic.Stable t (Placing t id u) :=
  stable_read fun _ _ _ ht hf ⟨tx, row, htx, hp⟩ => ⟨tx, row, (hf.txns _ ht.symm).trans htx, hp⟩

theorem recalls_begin :
    Recalls readLogic (Fills k) t k (fun _ w => Idle t w) startTransaction
      (fun _ _ w => w.db.txns t = some ⟨fun _ => none, [], false⟩) fun _ _ _ => True := by
  apply recalls_calm calm_transaction.start fun _ => stable_read_idle
  intro h w ch r w' hidle hs
  split at hs
  · cases hs
    trivial
  · cases hs
    exact Store.begin_txn hidle

theorem recalls_insertOrder (u : UserId) :
    Recalls readLogic (Fills k) t k (fun _ w => w.db.txns t = some ⟨fun _ => none, [], false⟩)
      (insertOrder u) (fun created _ w => Placing t created.id u w) fun _ _ _ => True := by
  apply recalls_bind (Q := fun (created : Σ id, Row (.order id)) _ w =>
    OrderEntity.id created.2 = created.1 ∧ Placing t created.1 u w)
  · apply recalls_insertFresh
    · exact fun _ => stable_read fun _ _ _ ht hf h => (hf.txns _ ht.symm).trans h
    · intro h w ch hfree htx ha
      exact ⟨rfl, _, _, (Store.put_txn _ [] hfree htx).2, rfl, Store.write_self .., rfl⟩
  · intro created
    apply recalls_pure
    rintro h w ⟨hid, hp⟩
    exact hid ▸ hp

theorem recalls_saveItems {id : OrderId} (items : List OrderItemEntity) :
    Recalls readLogic (Fills k) t k (fun _ w => Placing t id u w) (saveItems id items)
      (fun _ _ w => Placing t id u w) fun _ _ _ => True := by
  apply recalls_sql (calm_covers.updateRow trivial _ _ _) fun _ => stable_placing
  intro h w ch n w' hp ha hs
  rcases updateRow_cases hs with ⟨-, rfl, -⟩ | ⟨-, row', hfree, hv, -, rfl⟩
  · exact hp
  · obtain ⟨tx, row, htx, htxa, hwrite, hu⟩ := hp
    have hview : w.db.view t (.order id) = some row := by
      rw [Store.view_txn htx, hwrite]
      rfl
    cases hview.symm.trans hv
    exact ⟨_, _, (Store.put_txn _ [] hfree htx).2, htxa, Store.write_self .., hu⟩

theorem recalls_enqueueCreated {id : OrderId} (payload : OrderEvent) :
    Recalls readLogic (Fills k) t k (fun _ w => Placing t id u w) (enqueue .created payload)
      (fun _ _ w => Placing t id u w) fun _ _ _ => True := by
  apply recalls_bind (Q := fun _ _ w => Placing t id u w)
  · apply recalls_insertFresh _ fun _ => stable_placing
    rintro h w ch hfree ⟨tx, row, htx, htxa, hwrite, hu⟩ ha
    refine ⟨_, row, (Store.put_txn _ [] hfree htx).2, htxa, ?_, hu⟩
    have hne : Key.order id ≠ .outbox ch.fresh := nofun
    exact (Store.write_other _ _ hne).trans hwrite
  · intro _
    exact recalls_pure fun _ _ hp => hp

theorem recalls_commitPlaced {id : OrderId} :
    Recalls readLogic (Fills k) t k (fun _ w => Placing t id u w) commitTransaction
      (fun _ h _ => Placed id u h) fun _ _ _ => True := by
  apply recalls_calm calm_transaction.commit fun _ => stable_placing
  rintro h w ch r w' ⟨tx, row, htx, ha, hwrite, hu⟩ hs
  split at hs
  · cases hs
    trivial
  · cases hs
    refine ⟨_, List.mem_append_right _ (List.mem_singleton.mpr rfl), row, ?_, hu⟩
    change (w.db.commit t).rows (.order id) = _
    rw [Store.commit_rows htx ha, hwrite]
    rfl

theorem Placed.snoc {id : OrderId} {h : Past World} (hp : Placed id u h) (x : World × World) :
    Placed id u (h ++ [x]) := by
  obtain ⟨y, hy, hrow⟩ := hp
  exact ⟨y, List.mem_append_left _ hy, hrow⟩

theorem recalls_createOrder (u : UserId) (lines : List OrderLine) :
    Recalls readLogic (Fills k) t k (fun _ w => Idle t w) (createOrder u lines)
      (fun order h _ => Placed order.id u h) fun _ _ _ => True := by
  apply recalls_bind (Q := fun order h _ => Placed order.id u h)
  · apply recalls_tryCatch (E := fun _ _ _ => True)
    · apply recalls_bind recalls_begin
      intro _
      apply recalls_bind (Q := fun order _ w => Placing t order.id u w)
      · apply recalls_bind (recalls_insertOrder u)
        intro created
        apply recalls_bind (recalls_saveItems _)
        intro _
        apply recalls_bind (recalls_enqueueCreated _)
        intro _
        exact recalls_pure fun _ _ hp => hp
      · intro order
        apply recalls_bind recalls_commitPlaced
        intro _
        exact recalls_pure fun _ _ hp => hp
    · intro error
      apply recalls_bind (recalls_anything calm_transaction.rollback)
      intro _
      exact recalls_throw fun _ _ _ => trivial
  · intro order
    have hsnoc : ∀ h x, Placed order.id u h → Placed order.id u (h ++ [x]) := fun _ x hp => hp.snoc x
    apply recalls_bind (recalls_confined (calm_covers.record _) hsnoc)
    intro _
    apply recalls_bind (recalls_confined (calm_cacheDel _) hsnoc)
    intro _
    exact recalls_pure fun _ _ hp => hp

/-! ### Calls that read an order first -/

theorem recalls_initiatePayment (id : OrderId) (u : UserId) :
    Recalls readLogic (Fills k) t k (fun _ w => Idle t w) (initiatePayment id u)
      (fun _ _ _ => True) fun _ _ _ => True := by
  apply recalls_bind (recalls_getOrderForUser id u)
  intro order
  apply recalls_anything
  apply confined_ite
  · intro _
    exact confined_throw trivial
  · intro _
    apply confined_bind
    · apply calm_transaction.transaction
      apply confined_bind (calm_covers.updateRow trivial _ _ _)
      intro affected
      apply confined_ite
      · intro _
        exact confined_pure
      · intro _
        apply confined_bind (calm_covers.enqueue _ _)
        intro _
        exact confined_pure
    · intro claimed
      apply confined_ite
      · intro _
        exact confined_throw trivial
      · intro _
        apply confined_bind
        · apply takes_stmt
          intro t ch w r w' hs
          cases hs
          exact .of_same rfl rfl
        · intro now
          apply confined_bind (calm_cacheDel _)
          intro _
          exact confined_pure

theorem recalls_cancelOrder (id : OrderId) (u : UserId) :
    Recalls readLogic (Fills k) t k (fun _ w => Idle t w) (cancelOrder id u)
      (fun _ _ _ => True) fun _ _ _ => True := by
  apply recalls_bind (recalls_getOrderForUser id u)
  intro order
  apply recalls_anything
  apply confined_ite
  · intro _
    exact confined_throw trivial
  · intro _
    apply confined_bind (calm_covers.updateRow trivial _ _ _)
    intro affected
    apply confined_ite
    · intro _
      exact confined_throw trivial
    · intro _
      apply confined_bind
      · apply confined_ite
        · intro _
          exact calm_covers.stock.restoreStock _ _
        · intro _
          exact confined_pure
      · intro _
        apply confined_bind (calm_covers.record _)
        intro _
        apply confined_bind (calm_cacheDel _)
        intro _
        exact confined_pure

/-! ### The order system -/

/-- What a call that has returned tells of its past. -/
def Recounts : Request → Except AppError Reply → Past World → Prop
  | .listOrdersForUser u, .ok reply, h => ∃ orders, reply = .orders orders ∧ ListedOrders u orders h
  | .getOrderForUser id u, .ok reply, h => ∃ order, reply = .order order ∧ ReadOrder id u order h
  | .createOrder u _, .ok reply, h => ∃ order, reply = .order order ∧ Placed order.id u h
  | _, _, _ => True

theorem wpPast_respond {x : Service α} {f : α → Reply} {P : Past World → World → Prop}
    {Q : α → Past World → World → Prop} {h : Past World}
    (hx : Recalls readLogic (Fills k) t k P x Q fun _ _ _ => True) (hp : P h w)
    (hq : ∀ a h w, Q a h w → Recounts k (.ok (f a)) h)
    (he : ∀ e h, Recounts k (.error e) h) :
    wpPast readLogic (Fills k) t k (x >>= fun a => pure (f a) : Service Reply).run
      (fun r h _ => Recounts k r h) h w := by
  have hall := recalls_bind (R := fun reply h _ => Recounts k (.ok reply) h) hx
    fun a => recalls_pure fun h w hw => hq a h w hw
  apply wpPast_mono _ (hall h w hp)
  intro r h w hr
  cases r with
  | ok reply => exact hr
  | error e => exact he e h

theorem recalled_orderSystem :
    Recalled orderSystem readLogic (fun _ => Fills) Idle fun _ k r h _ => Recounts k r h where
  idle_stable _ := stable_read_idle
  post_stable _ _ _ _ := .const _
  body t k w _ hidle _ := by
    cases k with
    | createOrder u lines =>
      exact wpPast_respond (recalls_createOrder u lines) hidle
        (fun order _ _ hp => ⟨order, rfl, hp⟩) fun _ _ => trivial
    | listOrdersForUser u =>
      exact wpPast_respond (recalls_listOrdersForUser u) ⟨rfl, hidle⟩
        (fun orders _ _ hp => ⟨orders, rfl, hp⟩) fun _ _ => trivial
    | getOrderForUser id u =>
      exact wpPast_respond (recalls_getOrderForUser id u) hidle
        (fun order _ _ hp => ⟨order, rfl, hp⟩) fun _ _ => trivial
    | initiatePayment id u =>
      exact wpPast_respond (recalls_initiatePayment id u) hidle (fun _ _ _ _ => trivial)
        fun _ _ => trivial
    | cancelOrder id u =>
      exact wpPast_respond (recalls_cancelOrder id u) hidle (fun _ _ _ _ => trivial)
        fun _ _ => trivial
    | deliver message =>
      exact wpPast_respond (recalls_anything (P := fun _ _ => True) (calm_handle message)) trivial
        (fun _ _ _ _ => trivial) fun _ _ => trivial
    | replenishLowStock =>
      exact wpPast_respond (f := fun _ => .unit)
        (recalls_anything (P := fun _ _ => True) calm_replenishLowStock) trivial
        (fun _ _ _ _ => trivial) fun _ _ => trivial
  env e w w' _ he := by
    refine ⟨trivial, ?_⟩
    cases e with
    | relay id =>
      obtain ⟨m, -, rfl⟩ := Option.map_eq_some_iff.mp he
      rfl
    | expire key =>
      cases he
      rfl
  crash t k w _ := ⟨trivial, Store.rollback_frame, List.prefix_rfl⟩

end OrderLifecycle

import OrderLifecycle.Lifecycle.Stock

open Framework

namespace OrderLifecycle

variable {S : Setting} {t : Tid} {k : Request} {w w' : World} {o : OrderId} {D : Draft}
  {P : World → Prop}

/-! ### Reads -/

/-- `order` is what a call has read of the order `id` at some time. -/
structure Seen (id : OrderId) (order : OrderEntity) (w : World) : Prop where
  same : order.id = id
  row : ∃ row, (w.facts id).order = some row ∧ row.userId = order.userId ∧
    row.items = order.items ∧ (order.status = .reserved → row.status ≠ .pending)

/-- No edge leads back to `PENDING`. -/
theorem not_allowed_pending (s : OrderStatus) : isTransitionAllowed s .pending = false := by
  cases s <;> rfl

theorem lasting_seen {id : OrderId} {order : OrderEntity} :
    (orderLogic S).Lasting (Seen id order) := by
  refine lasting_of_evolves fun w w' he h => ?_
  obtain ⟨hid, row, hrow, hu, hitems, hst⟩ := h
  obtain ⟨row', hrow', hf⟩ := (he id).order row hrow
  refine ⟨hid, row', hrow', hf.userId.trans hu, hf.items.trans hitems, fun hr hn => ?_⟩
  rcases hf.status with hs | hs
  · exact hst hr (hs ▸ hn)
  · rw [hn, not_allowed_pending] at hs
    cases hs

theorem hoare_findOrderOfUser (hP : (orderLogic S).Stable t P) (hidle : ∀ w, P w → Idle t w)
    (id : OrderId) (u : UserId) :
    Hoare (orderLogic S) t k P (findOrderOfUser id u)
      (fun order w => (∀ o, order = some o → Seen id o w) ∧ P w) (fun _ w => P w) := by
  refine hoare_bind (hoare_conseq (hoare_selectRow hP hidle _) (fun _ h => h) (fun _ _ h => h)
    fun _ _ h => h.1) fun v => hoare_pure fun w ⟨hp, hi, hv⟩ => ⟨fun row hrow => ?_, hp⟩
  have hrow' : (w.facts id).order = some row := hv.symm.trans (Option.filter_eq_some_iff.mp hrow).1
  exact ⟨((hi.orders id).present row hrow').status.id, row, hrow', rfl, rfl, fun h => by simp [h]⟩

theorem hoare_fetchOrderForUser (hP : (orderLogic S).Stable t P) (hidle : ∀ w, P w → Idle t w)
    (id : OrderId) (u : UserId) :
    Hoare (orderLogic S) t k P (fetchOrderForUser id u) (fun order w => Seen id order w ∧ P w)
      (fun _ w => P w) := by
  refine hoare_bind (hoare_findOrderOfUser hP hidle id u) fun order => ?_
  cases order with
  | none => exact hoare_throw fun _ h => h.2
  | some order =>
    have hpre : ∀ w, ((∀ o, some order = some o → Seen id o w) ∧ P w) → Seen id order w ∧ P w :=
      fun w h => ⟨h.1 order rfl, h.2⟩
    refine hoare_ite (fun ht => ?_) fun _ => hoare_pure hpre
    refine hoare_bind (Q := fun _ w => Seen id order w ∧ P w) ?_ fun _ => hoare_pure fun _ h => h
    exact hoare_pre hpre (hoare_cacheSetOrder (lasting_seen.stable.and hP) id ht)

/-- A cached order is terminal; any other was read from its row. -/
theorem hoare_getOrderForUser (hP : (orderLogic S).Stable t P) (hidle : ∀ w, P w → Idle t w)
    (id : OrderId) (u : UserId) :
    Hoare (orderLogic S) t k P (getOrderForUser id u)
      (fun order w => (isTerminalStatus order.status = true ∨ Seen id order w) ∧ P w)
      (fun _ w => P w) := by
  have hfetch : Hoare (orderLogic S) t k P (fetchOrderForUser id u)
      (fun order w => (isTerminalStatus order.status = true ∨ Seen id order w) ∧ P w)
      (fun _ w => P w) :=
    hoare_conseq (hoare_fetchOrderForUser hP hidle id u) (fun _ h => h)
      (fun _ _ h => ⟨.inr h.1, h.2⟩) fun _ _ h => h
  refine hoare_bind (hoare_cacheGetOrder hP id) fun cached => ?_
  refine hoare_fact fun hc => ?_
  cases cached with
  | none => exact hfetch
  | some cached => exact hoare_ite (fun _ => hoare_pure fun _ hp => ⟨.inl (hc cached rfl), hp⟩) fun _ => hfetch

theorem hoare_listOrdersForUser (u : UserId) :
    Hoare (orderLogic S) t k (Idle t) (listOrdersForUser u) (fun _ _ => True)
      (fun _ _ => True) := by
  refine hoare_bind (hoare_cacheGetUserOrders stable_idle u) fun cached => ?_
  cases cached with
  | some cached => exact hoare_pure fun _ _ => trivial
  | none =>
    refine hoare_bind (hoare_conseq (hoare_selectAll stable_idle (fun _ h => h) _) (fun _ h => h)
      (fun _ _ h => h) fun _ _ _ => trivial) fun found => ?_
    refine hoare_ite (fun _ => ?_) fun _ => hoare_pure fun _ _ => trivial
    exact hoare_bind (hoare_cacheSetUserOrders stable_idle u _) fun _ => hoare_pure fun _ _ => trivial

/-! ### `createOrder` -/

/-- A draft with an order row and an event of the same order. -/
theorem Draft.apply_order_event {row : OrderEntity} {m : OutboxMessageEntity} {r : Prop}
    {f : OrderFacts} (ho : D.order = some (o, row)) (he : D.event = some m)
    (hm : m.payload.orderId = o) (ha : D.authorization = none) :
    D.apply o r f = { (f.setOrder row).addEvent m with
      reserved := r
      net := fun p => f.net p + netChange D.journal o p
      claims := f.claims ++ D.journal.filter fun d => d.2.claims o } := by
  simp only [apply, ho, he, ha, hm, OrderFacts.addEvent, OrderFacts.setOrder, if_true, true_and]

theorem legal_place (row : OrderEntity) {m : OutboxMessageEntity} (hst : row.status = .pending)
    (hun : row.paymentInitiatedAt = none) (hkey : m.routingKey = .created)
    (hm : m.payload = .created ⟨row.id, row.userId, row.lines⟩) :
    Legal S t k row.id (fun _ => True) none
      { Draft.empty with order := some (row.id, row), event := some m } := by
  refine ⟨⟨?_, ?_, nofun, nofun⟩, fun _ _ _ _ h => (nomatch h), fun w w' hi _ hb _ c => ?_⟩
  · rintro x ⟨⟩
    rfl
  · rintro x ⟨⟩
    rw [hm]
    rfl
  · rw [Draft.apply_order_event rfl rfl (by rw [hm]; rfl) rfl]
    have := OrderStep.place (S := S) (t := t) (k := k) (w.facts row.id) row m
      (w'.facts row.id).reserved (hb nofun) rfl hst hun hkey hm
    simpa [Draft.empty] using this

theorem hoare_createOrder (u : UserId) (lines : List OrderLine) :
    Hoare (orderLogic S) t k (Idle t) (createOrder u lines) (fun _ _ => True)
      (fun _ _ => True) := by
  have htrue : (orderLogic S).Lasting fun _ => True := fun _ _ _ _ _ _ => trivial
  refine hoare_bind (Q := fun _ _ => True) ?_ fun order => ?_
  · refine hoare_pre (fun w h => ⟨h, trivial⟩) (hoare_transaction (W := fun _ w =>
      ∃ (D : Draft) (o : OrderId), Legal S t k o (fun _ => True) none D ∧ Staged t D none w) htrue ?_
      fun _ => ?_)
    · refine hoare_conseq (E := TxError t) ?_ (fun w h => h.1) (fun _ _ h => h)
        fun _ _ _ => trivial
      refine hoare_bind hoare_insertOrder_staged fun row => hoare_fact fun ⟨hst, hu, hun⟩ => ?_
      refine hoare_bind (hoare_saveItems_staged rfl) fun _ => ?_
      refine hoare_bind (hoare_enqueue_staged rfl) fun _ => ?_
      refine hoare_exists fun m => hoare_fact fun ⟨hkey, hm⟩ => ?_
      refine hoare_pure fun w hs => ⟨_, row.id, ?_, hs⟩
      refine legal_place { row with items := lines.map fun line =>
        ⟨line.productId, line.productName, line.quantity⟩ } hst hun hkey ?_
      rw [hm]
      simp [OrderEntity.lines]
    · refine hoare_exists fun D => hoare_exists fun o => hoare_fact fun hD => ?_
      exact hoare_conseq (hoare_commit htrue hD) (fun _ h => ⟨h, trivial⟩) (fun _ _ _ => trivial)
        fun _ _ h => h
  · refine hoare_bind (hoare_recordMetric .true _) fun _ => ?_
    exact hoare_bind (hoare_cacheDel .true _) fun _ => hoare_pure fun _ h => h

/-! ### `initiatePayment` -/

theorem lasting_claim {d : Tid × Deed} :
    (orderLogic S).Lasting fun w => d ∈ (w.facts o).claims :=
  lasting_of_evolves fun _ _ he h => (he o).claims.subset h

theorem legal_pay {row order : OrderEntity} {m : OutboxMessageEntity} {n : Nat} {u : UserId}
    (hk : k = .initiatePayment o u) (hst : row.status = .reserved)
    (hun : row.paymentInitiatedAt = none) (hkey : m.routingKey = .inventoryReserved)
    (hm : m.payload = .inventoryReserved ⟨order.id, order.userId⟩) (hid : order.id = o) :
    Legal S t k o (Seen o order) (some row)
      { Draft.empty with
        order := some (o, { row with
          paymentInitiatedAt := some (.date n)
          updatedAt := .date n })
        event := some m
        journal := [(t, .paymentClaimed o)] } := by
  refine ⟨⟨?_, ?_, nofun, ?_⟩, fun _ _ _ _ h => (nomatch h), fun w w' hi hs hb _ c => ?_⟩
  · rintro x ⟨⟩
    rfl
  · rintro x ⟨⟩
    rw [hm]
    exact hid
  · intro d hd
    rw [List.mem_singleton.mp hd]
    exact rfl
  · have horder : (w.facts o).order = some row := hb nofun
    obtain ⟨row', hrow', hu, -⟩ := hs.row
    obtain rfl := Option.some.inj (hrow'.symm.trans horder)
    have hr := c.reserved_same (o := o) (fun m' h => by cases h; rw [hkey]; nofun) nofun
    rw [hr, Draft.apply_order_event rfl rfl (by rw [hm]; exact hid) rfl]
    have := OrderStep.pay (S := S) (t := t) (k := k) (w.facts o) row' n m u horder hst hun hk hkey
      (by rw [hm, hu, hid])
    simpa [Draft.empty, Deed.delta, Deed.claims] using this

theorem hoare_initiatePayment {id : OrderId} {u : UserId} (hk : k = .initiatePayment id u) :
    Hoare (orderLogic S) t k (Idle t) (initiatePayment id u)
      (fun _ w => (t, .paymentClaimed id) ∈ (w.facts id).claims) (fun _ _ => True) := by
  refine hoare_bind (hoare_conseq (hoare_getOrderForUser stable_idle (fun _ h => h) id u)
    (fun _ h => h) (fun _ _ h => h) fun _ _ _ => trivial) fun order => ?_
  refine hoare_ite (fun _ => hoare_throw fun _ _ => trivial) fun hst => ?_
  have hseen : ∀ w, (isTerminalStatus order.status = true ∨ Seen id order w) ∧ Idle t w →
      Idle t w ∧ Seen id order w := by
    refine fun w h => ⟨h.2, h.1.resolve_left fun ht => ?_⟩
    rw [Decidable.not_not.mp hst] at ht
    cases ht
  refine hoare_bind (Q := fun claimed w => claimed = true →
    (t, .paymentClaimed id) ∈ (w.facts id).claims) ?_ fun claimed => ?_
  · refine hoare_pre hseen (hoare_transaction (W := fun claimed w =>
      (claimed = false ∧ Staged t .empty none w) ∨
      (claimed = true ∧ ∃ (D : Draft) (row : OrderEntity),
        (Legal S t k id (Seen id order) (some row) D ∧ (t, .paymentClaimed id) ∈ D.journal) ∧
          Staged t D (some row) w ∧ Seen id order w)) lasting_seen ?_ fun claimed => ?_)
    · refine hoare_conseq (E := fun _ _ => True) ?_ (fun w h => h) (fun _ _ h => h)
        fun _ _ _ => trivial
      refine hoare_bind (hoare_conseq (hoare_frame lasting_seen (hoare_updateOrder_staged rfl ?_))
        (fun _ h => h) (fun _ _ h => h) fun _ _ _ => trivial) fun n => ?_
      · intro row d hd q
        rw [List.mem_singleton.mp hd]
        rfl
      refine hoare_ite (fun hn => hoare_pure fun w h => .inl ⟨rfl, ?_⟩) fun hn => ?_
      · rcases h.1 with ⟨-, hs⟩ | ⟨h1, -⟩
        · exact hs
        · omega
      refine hoare_pre (P := fun w => ∃ (row : OrderEntity) (n : Nat),
        (row.status = .reserved ∧ row.paymentInitiatedAt = none ∧ order.id = id) ∧
          Staged t { Draft.empty with
            order := some (id, { row with
              paymentInitiatedAt := some (.date n)
              updatedAt := .date n })
            journal := [(t, .paymentClaimed id)] } (some row) w ∧ Seen id order w) ?_ ?_
      · rintro w ⟨⟨h0, -⟩ | ⟨-, row, ch, hp, hs⟩, hseen⟩
        · exact absurd h0 hn
        · simp only [Bool.and_eq_true, beq_iff_eq, Option.isNone_iff_eq_none] at hp
          exact ⟨row, ch.now, ⟨hp.1, hp.2, hseen.same⟩, hs, hseen⟩
      refine hoare_exists fun row => hoare_exists fun n => hoare_fact fun ⟨hst, hun, hid⟩ => ?_
      refine hoare_bind (hoare_conseq (hoare_frame lasting_seen (hoare_enqueue_staged rfl))
        (fun _ h => h) (fun _ _ h => h) fun _ _ _ => trivial) fun _ => ?_
      refine hoare_pure fun w ⟨⟨m, ⟨hkey, hm⟩, hs⟩, hseen⟩ => ?_
      exact .inr ⟨rfl, _, row, ⟨legal_pay hk hst hun hkey hm hid, List.mem_singleton_self _⟩, hs,
        hseen⟩
    · refine hoare_or (hoare_fact fun hc => ?_) (hoare_fact fun hc => ?_)
      · exact hoare_conseq hoare_commit_empty (fun _ h => h) (fun _ _ _ h => by simp [hc] at h)
          fun _ _ h => h
      · refine hoare_exists fun D => hoare_exists fun row => hoare_fact fun ⟨hD, hj⟩ => ?_
        exact hoare_conseq (hoare_commit lasting_seen hD) (fun _ h => h)
          (fun _ w h _ => h _ hj (by simp [Deed.claims])) fun _ _ h => h
  · refine hoare_ite (fun _ => hoare_throw fun _ _ => trivial) fun hc => ?_
    refine hoare_pre (fun w h => h (by simpa using hc)) ?_
    refine hoare_bind (hoare_clock lasting_claim.stable) fun now => ?_
    exact hoare_bind (hoare_cacheDel lasting_claim.stable _) fun _ => hoare_pure fun _ h => h

end OrderLifecycle

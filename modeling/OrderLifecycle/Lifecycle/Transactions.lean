import OrderLifecycle.Lifecycle.Statements

open Framework

namespace OrderLifecycle

variable {S : Setting} {t : Tid} {k : Request} {w w' : World} {α β : Type} {o : OrderId}
  {D : Draft} {before : Option OrderEntity} {F : World → Prop}

/-! ### Writes of a transaction -/

theorem moved_map {js : List Deed} (h : ∀ d ∈ js, ∀ p, d.moved p = 0) (p : ProductId) :
    moved (js.map (Prod.mk t)) p = 0 := by
  induction js with
  | nil => rfl
  | cons d js ih =>
    rw [List.map_cons, moved_cons, h d (by simp) p, ih fun d hd => h d (List.mem_cons_of_mem _ hd)]
    rfl

/-! A draft that gains a row. -/

namespace Draft

theorem writes_setOrder {row : OrderEntity} {js : Journal} (hD : ∀ x ∈ D.order, x.1 = o) (k' : Key) :
    { D with order := some (o, row), journal := js }.writes k' =
      Function.update D.writes (.order o) (some (some row)) k' := by
  by_cases e : k' = .order o
  · subst e
    rw [Function.update_self]
    exact if_pos rfl
  · rw [Function.update_of_ne e]
    cases k' with
    | order o' =>
      have ho : o ≠ o' := fun h => e (by rw [h])
      simp only [writes, if_neg ho]
      cases h : D.order with
      | none => rfl
      | some x =>
        have hx := hD x h
        exact (if_neg (by rw [hx]; exact ho)).symm
    | _ => rfl

theorem writes_setEvent {m : OutboxMessageEntity} (hD : D.event = none) (k' : Key) :
    { D with event := some m }.writes k' =
      Function.update D.writes (.outbox m.id) (some (some m)) k' := by
  by_cases e : k' = .outbox m.id
  · subst e
    rw [Function.update_self]
    exact if_pos rfl
  · rw [Function.update_of_ne e]
    cases k' with
    | outbox id =>
      have hm : m.id ≠ id := fun h => e (by rw [h])
      simp only [writes, hD, if_neg hm]
    | _ => rfl

theorem writes_setInbox {id : Uuid} {c : Consumer} {row : ProcessedMessageEntity}
    (hD : D.inbox = none) (k' : Key) :
    { D with inbox := some (id, c, row) }.writes k' =
      Function.update D.writes (.inbox id c) (some (some row)) k' := by
  by_cases e : k' = .inbox id c
  · subst e
    rw [Function.update_self]
    exact if_pos ⟨rfl, rfl⟩
  · rw [Function.update_of_ne e]
    cases k' with
    | inbox id' c' =>
      have hm : ¬(id = id' ∧ c = c') := fun h => e (by rw [h.1, h.2])
      simp only [writes, hD, if_neg hm]
    | _ => rfl

end Draft

/-- The first write of an order row in a transaction. -/
theorem hoare_updateOrder_staged {p : OrderEntity → Bool} {f : Choice → OrderEntity → OrderEntity}
    {deeds : OrderEntity → List Deed} (hD : D.order = none)
    (hdeeds : ∀ row, ∀ d ∈ deeds row, ∀ q, d.moved q = 0) :
    Hoare (orderLogic S) t k (Staged t D before) (updateRow (.order o) p f deeds)
      (fun n w => (n = 0 ∧ Staged t D before w) ∨
        (n = 1 ∧ ∃ row ch, p row = true ∧ Staged t { D with
          order := some (o, f ch row)
          journal := D.journal ++ (deeds row).map (Prod.mk t) } (some row) w))
      (TxError t) := by
  refine hoare_sql_staged fun w ch r w' hi hs hf => ?_
  obtain ⟨⟨n, db⟩, hu, he⟩ := Option.map_eq_some_iff.mp hf
  cases he
  refine ⟨n, rfl, ?_⟩
  rcases Store.update_cases hu with ⟨rfl, rfl, -⟩ | ⟨rfl, row, hfree, hv, hp, rfl⟩
  · exact ⟨hi, ⟨.refl, .inl fun _ => rfl⟩, .inl ⟨rfl, hs⟩⟩
  · have hrow : w.db.rows (.order o) = some row := by
      rw [hs.view rfl] at hv
      simpa only [Draft.writes, hD, Option.getD_none] using hv
    obtain ⟨hi', hg⟩ := hs.hidden (k := k) hi hfree
      (hi.accounts.put_tracked hfree rfl (moved_map (hdeeds row)))
    refine ⟨hi', hg, .inr ⟨rfl, row, ch, hp, hs.put hfree
      (fun k' _ => Draft.writes_setOrder (by simp [hD]) k') rfl ?_ hs.event hs.inbox⟩⟩
    rintro x ⟨⟩
    exact hrow

/-- A later write of the same order row. -/
theorem hoare_saveItems_staged {row : OrderEntity} {items : List OrderItemEntity}
    (hD : D.order = some (o, row)) :
    Hoare (orderLogic S) t k (Staged t D before) (saveItems o items)
      (fun _ => Staged t { D with order := some (o, { row with items := items }) } before)
      (TxError t) := by
  refine hoare_sql_staged fun w ch r w' hi hs hf => ?_
  obtain ⟨⟨n, db⟩, hu, he⟩ := Option.map_eq_some_iff.mp hf
  cases he
  refine ⟨n, rfl, ?_⟩
  have hview : w.db.view t (.order o) = some row := by
    rw [hs.view rfl, Draft.writes_order (show (o, row) ∈ D.order from hD)]
    rfl
  rcases Store.update_cases hu with ⟨rfl, rfl, hn⟩ | ⟨rfl, row', hfree, hv, -, rfl⟩
  · exact absurd (hn row hview) (by simp)
  · rw [hview] at hv
    cases hv
    obtain ⟨hi', hg⟩ := hs.hidden (k := k) hi hfree (hi.accounts.put_tracked hfree rfl moved_nil)
    refine ⟨hi', hg, hs.put hfree
      (fun k' _ => Draft.writes_setOrder (fun x hx => ?_) k') (by simp) ?_ hs.event hs.inbox⟩
    · rw [Option.mem_def, hD] at hx
      cases hx
      rfl
    · rintro x ⟨⟩
      exact hs.order (o, row) hD

theorem hoare_insertOrder_staged {u : UserId} :
    Hoare (orderLogic S) t k (Staged t .empty none) (insertOrder u)
      (fun row w => (row.status = .pending ∧ row.userId = u ∧ row.paymentInitiatedAt = none) ∧
        Staged t { Draft.empty with order := some (row.id, row) } none w)
      (TxError t) := by
  refine hoare_bind (Q := fun x w => (x.2.id = x.1 ∧ x.2.status = .pending ∧ x.2.userId = u ∧
    x.2.paymentInitiatedAt = none) ∧
    Staged t { Draft.empty with order := some (x.1, x.2) } none w) ?_ ?_
  · refine hoare_sql_staged fun w ch r w' hi hs hf => ?_
    obtain ⟨⟨b, db⟩, hins, hb⟩ := Option.bind_eq_some_iff.mp hf
    rcases Store.insert_cases hins with ⟨rfl, -, -⟩ | ⟨rfl, hv, hfree, rfl⟩
    · simp at hb
    · simp only [if_true, Option.some.injEq, Prod.mk.injEq] at hb
      obtain ⟨rfl, rfl⟩ := hb
      rw [hs.view rfl] at hv
      obtain ⟨hi', hg⟩ := hs.hidden (k := k) hi hfree (hi.accounts.put_tracked hfree rfl moved_nil)
      refine ⟨_, rfl, hi', hg, ⟨rfl, rfl, rfl, rfl⟩, hs.put hfree
        (fun k' _ => Draft.writes_setOrder (by simp [Draft.empty]) k') rfl ?_
        (by simp [Draft.empty]) (by simp [Draft.empty])⟩
      intro x hx
      obtain rfl := Option.some.inj hx
      exact hv
  · rintro ⟨id, row⟩
    refine hoare_pure fun w hw => ⟨hw.1.2, ?_⟩
    change Staged t { Draft.empty with order := some (OrderEntity.id row, row) } none w
    rw [hw.1.1]
    exact hw.2

theorem hoare_enqueue_staged {key : RoutingKey} {payload : OrderEvent} (hD : D.event = none) :
    Hoare (orderLogic S) t k (Staged t D before) (enqueue key payload)
      (fun _ w => ∃ m, (m.routingKey = key ∧ m.payload = payload) ∧
        Staged t { D with event := some m } before w)
      (TxError t) := by
  refine hoare_bind (Q := fun _ w => ∃ m, (m.routingKey = key ∧ m.payload = payload) ∧
        Staged t { D with event := some m } before w) ?_ fun _ => hoare_pure fun _ h => h
  refine hoare_sql_staged fun w ch r w' hi hs hf => ?_
  obtain ⟨⟨b, db⟩, hins, hb⟩ := Option.bind_eq_some_iff.mp hf
  rcases Store.insert_cases hins with ⟨rfl, -, -⟩ | ⟨rfl, hv, hfree, rfl⟩
  · simp at hb
  · simp only [if_true, Option.some.injEq, Prod.mk.injEq] at hb
    obtain ⟨rfl, rfl⟩ := hb
    rw [hs.view rfl] at hv
    simp only [Draft.writes, hD, Option.getD_none] at hv
    obtain ⟨hi', hg⟩ := hs.hidden (k := k) hi hfree (hi.accounts.put_tracked hfree rfl moved_nil)
    refine ⟨_, rfl, hi', hg, ⟨ch.fresh, orderExchange, key, payload, ch.correlationId⟩,
      ⟨rfl, rfl⟩, hs.put hfree
      (fun k' _ => Draft.writes_setEvent hD k') (by simp) hs.order ?_ hs.inbox⟩
    rintro m ⟨⟩
    exact hv

theorem hoare_insertInbox_staged {id : Uuid} {c : Consumer} {table : String}
    {row : Choice → ProcessedMessageEntity} (hD : D.inbox = none) :
    Hoare (orderLogic S) t k (Staged t D before) (insertRow (.inbox id c) table row)
      (fun _ w => ∃ row, Staged t { D with inbox := some (id, c, row) } before w)
      (fun _ _ => True) := by
  refine hoare_sql stable_staged (fun w hp => hp.not_aborted) (fun _ _ _ => trivial) ?_
  intro w ch r w' hi _ hs hf
  obtain ⟨⟨b, db⟩, hins, he⟩ := Option.map_eq_some_iff.mp hf
  rcases Store.insert_cases hins with ⟨rfl, rfl, -⟩ | ⟨rfl, hv, hfree, rfl⟩
  · cases he
    exact ⟨rfl, trivial⟩
  · cases he
    rw [hs.view rfl] at hv
    simp only [Draft.writes, hD, Option.getD_none] at hv
    obtain ⟨hi', hg⟩ := hs.hidden (k := k) hi hfree (hi.accounts.put_tracked hfree rfl moved_nil)
    refine ⟨hi', hg, row ch, hs.put hfree
      (fun k' _ => Draft.writes_setInbox hD k') (by simp) hs.order hs.event ?_⟩
    rintro x ⟨⟩
    exact hv

/-! ### Commits -/

/-- The committed state changes by the draft, and in nothing else that orders depend on. -/
structure Commits (D : Draft) (w w' : World) : Prop where
  turns : D.Turns w.db.rows w'.db.rows
  journal : w'.db.journal = w.db.journal ++ D.journal
  charged : ∀ o, (∃ t key, (t, GatewayDeed.charged o key) ∈ w'.gateway) ↔
    ∃ t key, (t, GatewayDeed.charged o key) ∈ w.gateway
  fresh : ∀ m ∈ D.event, w.db.rows (.outbox m.id) = none

namespace Commits

theorem facts (c : Commits D w w') (o : OrderId) :
    w'.facts o = factsOf w'.db.rows (w.db.journal ++ D.journal) w.gateway o := by
  refine OrderFacts.mk.injEq .. |>.mpr ⟨rfl, rfl, rfl, rfl, propext (c.charged o), ?_, ?_⟩
  · rw [c.journal]
  · rw [c.journal]

theorem own (c : Commits D w w') (o : OrderId) :
    w'.facts o = D.apply o (w'.facts o).reserved (w.facts o) := by
  rw [c.facts o]
  exact Draft.facts_own c.turns c.fresh

theorem claims (c : Commits D w w') (o : OrderId) : (w'.facts o).claims =
    (w.facts o).claims ++ D.journal.filter fun d => d.2.claims o :=
  congrArg OrderFacts.claims (c.own o)

theorem net (c : Commits D w w') (o : OrderId) (p : ProductId) :
    (w'.facts o).net p = (w.facts o).net p + netChange D.journal o p :=
  congrFun (congrArg OrderFacts.net (c.own o)) p

theorem reserved_same (c : Commits D w w') (hevent : ∀ m ∈ D.event, m.routingKey ≠ .created)
    (hinbox : ∀ x ∈ D.inbox, x.2.1 ≠ .inventory) :
    (w'.facts o).reserved = (w.facts o).reserved := by
  rw [c.facts o]
  exact Draft.reserved_same c.turns c.fresh (fun m hm h => absurd h (hevent m hm))
    (fun x hx h => absurd h (hinbox x hx)) _

theorem reserved_done (c : Commits D w w') (hevent : ∀ m ∈ D.event, m.routingKey ≠ .created)
    {m : OutboxMessageEntity} (hm : (w.facts o).events .created = {m})
    (hinbox : ∃ x ∈ D.inbox, x.1 = m.id ∧ x.2.1 = .inventory) :
    (w'.facts o).reserved = True := by
  rw [c.facts o]
  exact Draft.reserved_done c.turns c.fresh hevent hm hinbox _

theorem outbox (c : Commits D w w')
    (h : ∀ id (m : OutboxMessageEntity), w.db.rows (.outbox id) = some m → m.id = id) :
    ∀ id (m : OutboxMessageEntity), w'.db.rows (.outbox id) = some m → m.id = id := by
  intro id m hm
  rw [c.turns (.outbox id) rfl] at hm
  simp only [Draft.writes] at hm
  split at hm
  · split at hm
    · next he =>
      cases hm
      exact he
    · exact h id m hm
  · exact h id m hm

/-- A draft on order `o` is one step of that order. -/
theorem next (c : Commits D w w') (hi : Inv S w) (hD : D.About o)
    (hinbox : ∀ x ∈ D.inbox, x.2.1 = .inventory →
      ∃ m, w.db.rows (.outbox m.id) = some m ∧ m.id = x.1 ∧ m.payload.orderId = o)
    (hs : OrderStep S t k o (w.facts o) (D.apply o (w'.facts o).reserved (w.facts o)))
    (hf : w.db.Frame t w'.db) (ha : Accounts S.catalog w'.db) (hm : w'.messages = w.messages)
    (hc : w'.cache = w.cache) : Inv S w' ∧ Guar S t k w w' := by
  have hch : Changes S t k w w' := by
    refine .inr ⟨o, ?_, fun o' ho => ?_⟩
    · rw [c.own o]
      exact hs
    · rw [c.facts o']
      exact Draft.facts_other c.turns hD ho c.fresh hinbox
  exact ⟨hi.next hch ha (c.outbox hi.outbox) hm (hc ▸ hi.cache), hf, hch⟩

end Commits

/-- What has to be checked where a draft on order `o` is committed; `F` is what the thread
knows by then. -/
structure Legal (S : Setting) (t : Tid) (k : Request) (o : OrderId) (F : World → Prop)
    (before : Option OrderEntity) (D : Draft) : Prop where
  about : D.About o
  inbox : ∀ w, Inv S w → F w → ∀ x ∈ D.inbox, x.2.1 = .inventory →
    ∃ m, w.db.rows (.outbox m.id) = some m ∧ m.id = x.1 ∧ m.payload.orderId = o
  step : ∀ w w', Inv S w → F w → (D.order ≠ none → (w.facts o).order = before) →
    (∀ x ∈ D.inbox, w.db.rows (.inbox x.1 x.2.1) = none) → Commits D w w' →
    OrderStep S t k o (w.facts o) (D.apply o (w'.facts o).reserved (w.facts o))

theorem Staged.commits (h : Staged t D before w) :
    Commits D w { w with db := w.db.commit t } := by
  obtain ⟨tx, htx, ha, hj, hw⟩ := h.txn
  refine ⟨fun key hk => ?_, ?_, fun o => Iff.rfl, h.event⟩
  · rw [← hw key hk]
    exact Store.commit_rows htx ha
  · rw [← hj]
    exact Store.commit_journal htx ha

theorem Staged.accounts (h : Staged t D before w) (hi : Inv S w) :
    Accounts S.catalog (w.db.commit t) := by
  obtain ⟨tx, htx, ha, -⟩ := h.txn
  exact hi.accounts.commit htx ha

/-- A statement outside a transaction commits what it writes at once. -/
theorem Idle.commits_put (h : Idle t w) {key : Key} {v : Option (Row key)}
    (hfree : w.db.Free t key) (g : GatewayLog)
    (hg : ∀ o, (∃ t key, (t, GatewayDeed.charged o key) ∈ g) ↔
      ∃ t key, (t, GatewayDeed.charged o key) ∈ w.gateway)
    (hw : ∀ k', k'.tracked = true →
      D.writes k' = Function.update Draft.empty.writes key (some v) k')
    (hfresh : ∀ m ∈ D.event, w.db.rows (.outbox m.id) = none) :
    Commits D w { w with db := w.db.put t key v D.journal hfree, gateway := g } := by
  obtain ⟨hr, hj, -⟩ := Store.put_idle v D.journal hfree h
  refine ⟨fun k' hk' => ?_, hj, hg, hfresh⟩
  rw [hr, hw k' hk']
  by_cases e : k' = key
  · subst e
    rw [Function.update_self, Function.update_self]
    rfl
  · rw [Function.update_of_ne e, Function.update_of_ne e]
    cases k' <;> rfl

theorem Idle.put (h : Idle t w) {key : Key} {v : Option (Row key)} {js : Journal}
    (hfree : w.db.Free t key) (g : GatewayLog) :
    Idle t { w with db := w.db.put t key v js hfree, gateway := g } := by
  obtain ⟨-, -, htx⟩ := Store.put_idle v js hfree h
  exact (congrFun htx t).trans h

/-- `COMMIT`: the order takes its step, or nothing happens. -/
theorem hoare_commit (hF : (orderLogic S).Lasting F) (hD : Legal S t k o F before D) :
    Hoare (orderLogic S) t k (fun w => Staged t D before w ∧ F w) commitTransaction
      (fun _ w => ∀ d ∈ D.journal, d.2.claims o = true → d ∈ (w.facts o).claims)
      (fun _ _ => True) := by
  refine hoare_stmt (stable_staged.and hF.stable) fun w ch r w' hi _ hp hf => ?_
  obtain ⟨hs, hF⟩ := hp
  split at hf
  · cases hf
    obtain ⟨hi', hg⟩ := hi.rollback (t := t) (k := k)
    exact ⟨hi', hg, trivial⟩
  · cases hf
    have hb : D.order ≠ none → (w.facts o).order = before := by
      intro hn
      obtain ⟨x, hx⟩ := Option.ne_none_iff_exists'.mp hn
      rw [← hD.about.order x hx]
      exact hs.order x hx
    obtain ⟨hi', hg⟩ := hs.commits.next hi hD.about (hD.inbox w hi hF)
      (hD.step w _ hi hF hb hs.inbox hs.commits) Store.commit_frame (hs.accounts hi) rfl rfl
    refine ⟨hi', hg, fun d hd hc => ?_⟩
    rw [hs.commits.claims o]
    exact List.mem_append_right _ (List.mem_filter.mpr ⟨hd, hc⟩)

/-- A commit of at most an inbox row that is not inventory's is no step of an order. -/
theorem hoare_commit_inbox {i : Option (Uuid × Consumer × ProcessedMessageEntity)}
    (hc : ∀ x ∈ i, x.2.1 ≠ .inventory) :
    Hoare (orderLogic S) t k (Staged t { Draft.empty with inbox := i } before) commitTransaction
      (fun _ _ => True) (fun _ _ => True) := by
  refine hoare_stmt stable_staged fun w ch r w' hi _ hs hf => ?_
  split at hf
  · cases hf
    obtain ⟨hi', hg⟩ := hi.rollback (t := t) (k := k)
    exact ⟨hi', hg, trivial⟩
  · cases hf
    have hch : Changes S t k w { w with db := w.db.commit t } := by
      refine .inl fun o => ?_
      rw [hs.commits.own o, hs.commits.reserved_same (by nofun) hc]
      exact Draft.apply_inbox ..
    exact ⟨hi.next hch (hs.accounts hi) (hs.commits.outbox hi.outbox) rfl hi.cache,
      ⟨Store.commit_frame, hch⟩, trivial⟩

theorem hoare_commit_empty :
    Hoare (orderLogic S) t k (Staged t .empty before) commitTransaction (fun _ _ => True)
      (fun _ _ => True) :=
  hoare_commit_inbox (i := none) nofun

/-! ### `dataSource.transaction` and the inbox -/

theorem hoare_start :
    Hoare (orderLogic S) t k (Idle t) startTransaction (fun _ => Staged t .empty none)
      (fun _ _ => True) := by
  refine hoare_stmt stable_idle fun w ch r w' hi _ hp hf => ?_
  split at hf
  · cases hf
    exact ⟨hi, ⟨.refl, .inl fun _ => rfl⟩, trivial⟩
  · cases hf
    obtain ⟨hi', hg⟩ := hi.quiet (k := k) (.of_db Store.begin_same Store.begin_frame)
      (hi.accounts.begin hp)
    refine ⟨hi', hg, ⟨_, Store.begin_txn hp, rfl, rfl, fun key _ => ?_⟩, nofun, nofun, nofun⟩
    cases key <;> rfl

theorem hoare_rollback {P : World → Prop} (hP : (orderLogic S).Stable t P) {E : AppError → World → Prop} :
    Hoare (orderLogic S) t k P rollbackTransaction (fun _ _ => True) E := by
  refine hoare_stmt hP fun w ch r w' hi _ _ hf => ?_
  cases hf
  obtain ⟨hi', hg⟩ := hi.rollback (t := t) (k := k)
  exact ⟨hi', hg, trivial⟩

theorem hoare_transaction {work : Service α} {W Q : α → World → Prop}
    (hF : (orderLogic S).Lasting F)
    (hwork : Hoare (orderLogic S) t k (fun w => Staged t .empty none w ∧ F w) work W
      (fun _ _ => True))
    (hcommit : ∀ a, Hoare (orderLogic S) t k (W a) commitTransaction (fun _ => Q a)
      (fun _ _ => True)) :
    Hoare (orderLogic S) t k (fun w => Idle t w ∧ F w) (transaction work) Q (fun _ _ => True) := by
  refine hoare_tryCatch (E := fun _ _ => True) ?_ fun err => ?_
  · refine hoare_bind (hoare_conseq (hoare_frame hF hoare_start) (fun _ h => h) (fun _ _ h => h)
      fun _ _ _ => trivial) fun _ => ?_
    refine hoare_bind hwork fun a => ?_
    exact hoare_bind (hcommit a) fun _ => hoare_pure fun _ h => h
  · exact hoare_bind (hoare_rollback .true) fun _ => hoare_throw fun _ _ => trivial

/-- Once this draft is staged it may be committed. -/
def Committable (S : Setting) (t : Tid) (k : Request) (F : World → Prop) (before : Option OrderEntity)
    (D : Draft) : Prop :=
  Hoare (orderLogic S) t k (fun w => Staged t D before w ∧ F w) commitTransaction (fun _ _ => True)
    (fun _ _ => True)

theorem Legal.committable (hF : (orderLogic S).Lasting F) (h : Legal S t k o F before D) :
    Committable S t k F before D :=
  hoare_conseq (hoare_commit hF h) (fun _ h => h) (fun _ _ _ => trivial) fun _ _ h => h

/-- A consumer whose work may be committed together with the inbox row. -/
theorem hoare_runOnce_committable {work : Service α} {id : Uuid} {c : Consumer}
    (hF : (orderLogic S).Lasting F)
    (hwork : Hoare (orderLogic S) t k (fun w => Staged t .empty none w ∧ F w) work
      (fun _ w => ∃ D before, (D.inbox = none ∧
        ∀ row, Committable S t k F before { D with inbox := some (id, c, row) }) ∧
        Staged t D before w ∧ F w)
      (fun _ _ => True)) :
    Hoare (orderLogic S) t k (fun w => Idle t w ∧ F w) (runOnce id c work) (fun _ _ => True)
      (fun _ _ => True) := by
  refine hoare_tryCatch (E := fun _ _ => True) ?_ fun err => ?_
  · refine hoare_transaction (W := fun _ w => Staged t .empty none w ∨
      ∃ D before, Committable S t k F before D ∧ Staged t D before w ∧ F w) hF ?_ fun _ => ?_
    · refine hoare_bind (hoare_conseq (hoare_frame hF (hoare_selectRow_staged _)) (fun _ h => h)
        (fun _ _ h => h) fun _ _ _ => trivial) fun existing => ?_
      refine hoare_ite (fun _ => hoare_pure fun w hw => .inl hw.1) fun _ => ?_
      refine hoare_bind hwork fun a => ?_
      refine hoare_exists fun D => hoare_exists fun before => hoare_fact fun ⟨hD, hcommit⟩ => ?_
      refine hoare_bind (hoare_conseq (hoare_frame hF (hoare_insertInbox_staged hD))
        (fun _ h => h) (fun _ _ h => h) fun _ _ _ => trivial) fun _ => ?_
      exact hoare_pure fun w ⟨⟨row, hs⟩, hF⟩ => .inr ⟨_, before, hcommit row, hs, hF⟩
    · refine hoare_or (hoare_commit_empty) ?_
      exact hoare_exists fun D => hoare_exists fun before => hoare_fact fun hcommit => hcommit
  · exact hoare_ite (fun _ => hoare_pure fun _ _ => trivial)
      fun _ => hoare_throw fun _ _ => trivial

/-- A consumer whose work takes the step of an order. -/
theorem hoare_runOnce {work : Service α} {id : Uuid} {c : Consumer}
    (hF : (orderLogic S).Lasting F)
    (hwork : Hoare (orderLogic S) t k (fun w => Staged t .empty none w ∧ F w) work
      (fun _ w => ∃ D before, (D.inbox = none ∧
        ∀ row, Legal S t k o F before { D with inbox := some (id, c, row) }) ∧
        Staged t D before w ∧ F w)
      (fun _ _ => True)) :
    Hoare (orderLogic S) t k (fun w => Idle t w ∧ F w) (runOnce id c work) (fun _ _ => True)
      (fun _ _ => True) := by
  apply hoare_runOnce_committable hF
  apply hoare_conseq hwork (fun _ h => h) ?_ fun _ _ h => h
  intro _ w ⟨D, before, ⟨hD, hlegal⟩, h⟩
  exact ⟨D, before, ⟨hD, fun row => (hlegal row).committable hF⟩, h⟩

end OrderLifecycle

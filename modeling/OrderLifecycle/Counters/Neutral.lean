import OrderLifecycle.Counters.Balance

open Framework

namespace OrderLifecycle

/-- A step of `t` in its own rows that counts nothing and leaves the counted orders as they are, in
the table and in its transaction. -/
structure Neutral (t : Tid) (w w' : World) : Prop where
  frame : w.db.Frame t w'.db
  keys : w.db.keys <+: w'.db.keys
  txn : w'.db.txns t = none ↔ w.db.txns t = none
  metrics : ∀ b : Counter, w'.metrics.countP b.counts = w.metrics.countP b.counts
  rows : ∀ b : Counter, b.orders w'.db.rows = b.orders w.db.rows
  view : ∀ b : Counter, b.orders (w'.db.view t) = b.orders (w.db.view t)

/-- The statement is such a step. -/
abbrev NeutralStmt := Takes Neutral

variable {t : Tid} {w w' : World} {α β : Type}

theorem Neutral.imbalance (h : Neutral t w w') (b : Counter) : imbalance b w' = imbalance b w := by
  unfold OrderLifecycle.imbalance
  rw [h.metrics, h.rows]

theorem Neutral.gain (h : Neutral t w w') (b : Counter) : gain b t w' = gain b t w := by
  unfold OrderLifecycle.gain
  rw [h.view, h.rows]

theorem Neutral.of_db (hd : w'.db = w.db)
    (hm : ∀ b : Counter, w'.metrics.countP b.counts = w.metrics.countP b.counts) :
    Neutral t w w' := by
  constructor
  · rw [hd]
    exact .refl
  · rw [hd]
  · rw [hd]
  · exact hm
  · rw [hd]
    exact fun _ => rfl
  · rw [hd]
    exact fun _ => rfl

theorem Neutral.abort : Neutral t w { w with db := w.db.abort t } where
  frame := Store.abort_frame
  keys := by
    have he : (w.db.abort t).keys = w.db.keys := Store.abort_keys ..
    simp [he]
  txn := by
    have he := Store.abort_txn (s := w.db) (t := t)
    simp [he]
  metrics _ := rfl
  rows _ := by
    have he : (w.db.abort t).rows = w.db.rows := Store.abort_same.1
    simp [he]
  view _ := orders_congr fun _ => Store.abort_view

theorem Neutral.trans {w'' : World} (h : Neutral t w w') (h' : Neutral t w' w'') :
    Neutral t w w'' where
  frame := h.frame.trans h'.frame
  keys := h.keys.trans h'.keys
  txn := h'.txn.trans h.txn
  metrics b := (h'.metrics b).trans (h.metrics b)
  rows b := (h'.rows b).trans (h.rows b)
  view b := (h'.view b).trans (h.view b)

/-- A row is written by which no counted order comes or goes. -/
theorem Neutral.put {key : Key} {v : Option (Row key)} {js : List (Tid × Deed)}
    (hfree : w.db.Free t key)
    (hkeep : ∀ b : Counter, b.orders (Function.update (w.db.view t) key v) =
      b.orders (w.db.view t)) :
    Neutral t w { w with db := w.db.put t key v js hfree } := by
  have hview : (w.db.put t key v js hfree).view t = Function.update (w.db.view t) key v :=
    Store.put_view v js hfree
  refine ⟨Store.put_frame (h := hfree), Store.put_keys (h := hfree), ?_, fun _ => rfl, ?_, ?_⟩
  · cases ht : w.db.txns t with
    | none => simp [(Store.put_idle v js hfree ht).2.2, ht]
    | some tx => simp [(Store.put_txn v js hfree ht).2]
  · intro b
    cases ht : w.db.txns t with
    | none =>
      have hrows : w.db.view t = w.db.rows := funext fun _ => Store.view_idle ht
      have hkeep' := hkeep b
      rw [hrows] at hkeep'
      simpa only [(Store.put_idle v js hfree ht).1] using hkeep'
    | some tx => rw [(Store.put_txn v js hfree ht).1.1]
  · intro b
    simpa only [hview] using hkeep b

/-- The key of no order. -/
abbrev NoOrder (key : Key) : Prop := ∀ o, key ≠ .order o

/-- A metric that no counter counts. -/
abbrev Indifferent (m : Metric) : Prop := ∀ b : Counter, b.counts m = false

theorem permits_neutral : Permits Neutral NoOrder Indifferent where
  aside hd _ _ hm := .of_db hd fun _ => by rw [hm]
  trans := Neutral.trans
  abort := .abort
  put hkey hfree := .put hfree fun _ => orders_update_other hkey
  metrics ms hms := by
    refine Neutral.of_db ?_ ?_
    · rfl
    intro b
    have hzero : ms.countP b.counts = 0 := by
      rw [List.countP_eq_zero]
      intro m hm
      simp [hms m hm b]
    simp [List.countP_append, hzero]

/-! ### Statements on orders -/

/-- An `UPDATE` of an order that keeps its status. -/
theorem neutral_updateOrder (o : OrderId) (p : Row (.order o) → Bool)
    (f : Choice → OrderEntity → OrderEntity) (deeds : Row (.order o) → List Deed)
    (hst : ∀ ch row, (f ch row).status = row.status) :
    Confined NeutralStmt AnyError (updateRow (.order o) p f deeds) := by
  apply permits_neutral.sql
  intro t ch w r w' hs
  obtain ⟨-, rfl, -⟩ | ⟨-, row, hfree, hv, -, rfl⟩ := updateRow_cases hs
  · exact .of_db rfl fun _ => rfl
  · apply Neutral.put hfree
    intro b
    apply orders_update_keeps
    have hmem : o ∈ b.orders (w.db.view t) ↔ OrderEntity.status row = b.status := by
      simp only [Counter.orders, Set.mem_ofPred_eq, hv]
      exact holds_some
    exact (iff_of_eq (congrArg (· = b.status) (hst ch row))).trans hmem.symm

theorem neutral_insertFresh (key : Uuid → Key) (row : Choice → (id : Uuid) → Row (key id))
    (hkeep : ∀ ch id (b : Counter) (rows : (k : Key) → Option (Row k)), rows (key id) = none →
      b.orders (Function.update rows (key id) (some (row ch id))) = b.orders rows) :
    Confined NeutralStmt AnyError (insertFresh key row) := by
  apply permits_neutral.sql
  intro t ch w r w' hs
  obtain ⟨-, hv, hfree, rfl⟩ := insertFresh_cases hs
  exact .put hfree fun b => hkeep ch ch.fresh b _ hv

theorem neutral_insertOrder (u : UserId) : Confined NeutralStmt AnyError (insertOrder u) := by
  apply confined_bind
  · apply neutral_insertFresh
    intro ch id b rows hnone
    apply orders_update_keeps
    apply iff_of_false
    · cases b <;> exact nofun
    · simp [Counter.orders, Counter.Holds, hnone]
  · intro _
    exact confined_pure

theorem neutral_saveItems (o : OrderId) (items : List OrderItemEntity) :
    Confined NeutralStmt AnyError (saveItems o items) :=
  neutral_updateOrder o _ _ _ fun _ _ => rfl

theorem neutral_claimPayment (o : OrderId) : Confined NeutralStmt AnyError (claimPayment o) :=
  neutral_updateOrder o _ _ _ fun _ _ => rfl

/-! ### Services -/

theorem neutral_cacheWrite (f : Cache → Cache) :
    Confined NeutralStmt AnyError (cacheWrite f) := by
  apply takes_stmt
  intro t ch w r w' hs
  cases hs
  split
  · exact .of_db rfl fun _ => rfl
  · exact .of_db rfl fun _ => rfl

theorem neutral_enqueue (key : RoutingKey) (payload : OrderEvent) :
    Confined NeutralStmt AnyError (enqueue key payload) :=
  permits_neutral.enqueue (fun _ => nofun) key payload

theorem neutral_stock : CoversStock NeutralStmt AnyError := permits_neutral.coversStock fun _ => nofun

theorem neutral_reads : CoversReads NeutralStmt AnyError :=
  permits_neutral.coversReads neutral_cacheWrite

theorem neutral_gateway : CoversGateway NeutralStmt AnyError :=
  permits_neutral.coversGateway (fun _ => nofun) fun _ b => by cases b <;> rfl

theorem neutral_replenishment : CoversReplenishment NeutralStmt AnyError :=
  permits_neutral.coversReplenishment (fun _ => nofun) fun _ _ b => by cases b <;> rfl

end OrderLifecycle

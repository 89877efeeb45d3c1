import OrderLifecycle.Framework.Lockstep
import OrderLifecycle.Reads.Histories

open Framework

namespace OrderLifecycle

/-- The same database, with `CACHE_ENABLED=false`. -/
def CacheOff (w w' : World) : Prop := w'.db = w.db ∧ w'.cacheEnabled = false

/-- The statement does not read Redis. -/
def TwinStmt (β : Type) (f : Stmt World Choice β) : Prop := f.Simulates CacheOff

variable {t : Tid} {ch : Nat → Choice} {i : Nat} {w w' w₀ : World} {α β : Type} {u : UserId}

/-! ### Without Redis -/

theorem twin_stmt {f : Stmt World Choice (Except AppError β)} (hf : TwinStmt _ f) :
    Confined TwinStmt AnyError (stmt f) :=
  confined_stmt hf fun _ _ _ _ _ _ => trivial

theorem twin_sql {f : Tid → Choice → World → Option (Except AppError β × World)}
    (hf : TwinStmt _ f) : Confined TwinStmt AnyError (sql f) := by
  apply twin_stmt
  intro t ch w w' r v hoff hs
  obtain ⟨hdb, hen⟩ := id hoff
  simp only [hdb]
  rcases sql_cases hs with ⟨ha, rfl, rfl⟩ | ⟨ha, hfail, rfl, rfl⟩ |
    ⟨ha, hfail, ⟨b, rfl, hs'⟩ | ⟨e, w₁, rfl, hs', rfl⟩⟩
  · exact ⟨w', by simp [ha], hoff⟩
  · exact ⟨{ w' with db := w.db.abort t }, by simp [ha, hfail], rfl, hen⟩
  · obtain ⟨v', hv', hoff'⟩ := hf t ch w w' _ v hoff hs'
    exact ⟨v', by simp [ha, hfail, hv'], hoff'⟩
  · obtain ⟨v', hv', hdb', hen'⟩ := hf t ch w w' _ w₁ hoff hs'
    refine ⟨{ v' with db := v'.db.abort t }, by simp [ha, hfail, hv'], ?_, hen'⟩
    exact congrArg (fun db => Store.abort db t) hdb'

theorem twin_selectRow (key : Key) : Confined TwinStmt AnyError (selectRow key) := by
  apply twin_sql
  rintro t ch w w' r v ⟨hdb, hen⟩ hs
  cases hs
  exact ⟨w', by simp only [hdb], hdb, hen⟩

theorem twin_selectAll (f : (key : Key) → Row key → Option α) :
    Confined TwinStmt AnyError (selectAll f) := by
  apply twin_sql
  rintro t ch w w' r v ⟨hdb, hen⟩ hs
  cases hs
  exact ⟨w', by simp only [hdb], hdb, hen⟩

theorem twin_updateRow (key : Key) (p : Row key → Bool) (f : Choice → Row key → Row key)
    (deeds : Row key → List Deed) : Confined TwinStmt AnyError (updateRow key p f deeds) := by
  apply twin_sql
  rintro t ch w w' r v ⟨hdb, hen⟩ hs
  obtain ⟨x, hx, he⟩ := Option.map_eq_some_iff.mp hs
  cases he
  exact ⟨{ w' with db := x.2 }, by simp only [hdb, hx, Option.map_some], rfl, hen⟩

theorem twin_insertFresh (key : Uuid → Key) (row : Choice → (id : Uuid) → Row (key id)) :
    Confined TwinStmt AnyError (insertFresh key row) := by
  apply twin_sql
  rintro t ch w w' r v ⟨hdb, hen⟩ hs
  obtain ⟨x, hx, he⟩ := Option.bind_eq_some_iff.mp hs
  split at he
  · next hnew =>
    cases he
    exact ⟨{ w' with db := x.2 }, by simp [hdb, hx, hnew], rfl, hen⟩
  · cases he

theorem twin_record (f : Nat → List Metric) : Confined TwinStmt AnyError (record f) := by
  apply twin_stmt
  rintro t ch w w' r v ⟨hdb, hen⟩ hs
  cases hs
  exact ⟨_, rfl, hdb, hen⟩

/-- A command that writes to Redis returns the same, whether it works or not. -/
theorem twin_cacheWrite (f : Cache → Cache) : Confined TwinStmt AnyError (cacheWrite f) := by
  apply twin_stmt
  rintro t ch w w' r v ⟨hdb, hen⟩ hs
  cases hs
  refine ⟨w', by simp [hen], ?_, hen⟩
  split
  · exact hdb
  · exact hdb

theorem twin_covers : Covers TwinStmt AnyError fun _ => True where
  selectRow := twin_selectRow
  updateRow _ := twin_updateRow _
  insertFresh _ := twin_insertFresh _
  record := twin_record
  cacheDel _ := twin_cacheWrite _
  order _ := trivial
  product _ := trivial
  outbox _ := trivial
  notFound _ := trivial
  conflict _ := trivial
  insufficientStock _ := trivial

theorem twin_transaction : CoversTransaction TwinStmt where
  start := by
    apply twin_stmt
    rintro t ch w w' r v ⟨hdb, hen⟩ hs
    simp only [hdb]
    dsimp only at hs
    split at hs
    · next hfail =>
      cases hs
      exact ⟨w', by simp [hfail], hdb, hen⟩
    · next hfail =>
      cases hs
      exact ⟨{ w' with db := w.db.begin t }, by rw [if_neg hfail], rfl, hen⟩
  commit := by
    apply twin_stmt
    rintro t ch w w' r v ⟨hdb, hen⟩ hs
    simp only [hdb]
    dsimp only at hs
    split at hs
    · next hfail =>
      cases hs
      exact ⟨{ w' with db := w.db.rollback t }, by rw [if_pos hfail], rfl, hen⟩
    · next hfail =>
      cases hs
      exact ⟨{ w' with db := w.db.commit t }, by rw [if_neg hfail], rfl, hen⟩
  rollback := by
    apply twin_stmt
    rintro t ch w w' r v ⟨hdb, hen⟩ hs
    cases hs
    exact ⟨{ w' with db := w.db.rollback t }, by simp only [hdb], rfl, hen⟩

theorem twin_createOrder (userId : UserId) (lines : List OrderLine) :
    Confined TwinStmt AnyError (createOrder userId lines) := by
  apply confined_bind
  · apply twin_transaction.transaction
    apply confined_bind
    · apply confined_bind (twin_insertFresh _ _)
      intro _
      exact confined_pure
    · intro created
      apply confined_bind (twin_updateRow _ _ _ _)
      intro _
      apply confined_bind (twin_covers.enqueue _ _)
      intro _
      exact confined_pure
  · intro order
    apply confined_bind (twin_record _)
    intro _
    apply confined_bind (twin_cacheWrite _)
    intro _
    exact confined_pure

theorem twin_fetchOrderForUser (id : OrderId) (userId : UserId) :
    Confined TwinStmt AnyError (fetchOrderForUser id userId) := by
  apply confined_bind
  · apply confined_bind (twin_selectRow _)
    intro _
    exact confined_pure
  · intro found
    cases found with
    | none => exact confined_throw trivial
    | some order =>
      apply confined_ite
      · intro _
        apply confined_bind (twin_cacheWrite _)
        intro _
        exact confined_pure
      · intro _
        exact confined_pure

/-! ### What the statements of a call keep -/

/-- The statement keeps what was said of the orders, and opens no transaction. -/
def QuietStmt (β : Type) (f : Stmt World Choice β) : Prop :=
  ∀ w₀ t ch w b w', f t ch w = some (b, w') →
    (Going t w₀ w → Going t w₀ w') ∧ (Idle t w → Idle t w')

theorem viewed_put {key : Key} {v : Option (Row key)} {js : List (Tid × Deed)}
    (hfree : w.db.Free t key) (hkey : ∀ o, Key.order o ≠ key) :
    World.viewed { w with db := w.db.put t key v js hfree } t = w.viewed t := by
  funext o
  change (w.db.put t key v js hfree).view t (.order o) = w.db.view t (.order o)
  rw [Store.put_view]
  exact Function.update_of_ne (hkey o) ..

theorem viewed_putOrder {id : OrderId} {row : OrderEntity} {js : List (Tid × Deed)}
    (hfree : w.db.Free t (.order id)) :
    World.viewed { w with db := w.db.put t (.order id) (some row) js hfree } t =
      Function.update (w.viewed t) id (some row) := by
  funext o
  change (w.db.put t (.order id) (some row) js hfree).view t (.order o) = _
  rw [Store.put_view]
  by_cases e : o = id
  · subst e
    have hl : Function.update (w.db.view t) (.order o) (some row) (.order o) = some row :=
      Function.update_self ..
    have hr : Function.update (w.viewed t) o (some row) o = some row := Function.update_self ..
    exact hl.trans hr.symm
  · have hne : Key.order o ≠ .order id := fun h => e (Key.order.inj h)
    rw [Function.update_of_ne hne, Function.update_of_ne e]
    rfl

/-- A write is committed at once or seen by its thread only. -/
theorem Going.put {key : Key} {v : Option (Row key)} {js : List (Tid × Deed)}
    (h : Going t w₀ w) (hfree : w.db.Free t key)
    (hview : After w₀ (World.viewed { w with db := w.db.put t key v js hfree } t)) :
    Going t w₀ { w with db := w.db.put t key v js hfree } where
  calm := h.calm.trans (.put hfree)
  rows := by
    cases ht : w.db.txns t with
    | none =>
      have hidle : (w.db.put t key v js hfree).txns t = none := by
        rw [(Store.put_idle v js hfree ht).2.2, ht]
      have hrows : World.order { w with db := w.db.put t key v js hfree } =
          World.viewed { w with db := w.db.put t key v js hfree } t :=
        funext fun o => (Store.view_idle hidle).symm
      exact hrows ▸ hview
    | some tx =>
      have hrows : World.order { w with db := w.db.put t key v js hfree } = w.order := by
        funext o
        exact congrFun (Store.put_txn v js hfree ht).1.1 (.order o)
      exact hrows ▸ h.rows
  view := hview

theorem After.update {rows : OrderId → Option OrderEntity} (h : After w₀ rows) {id : OrderId}
    {row row' : OrderEntity} (hrow : rows id = some row) (hid : row'.id = row.id)
    (hu : row'.userId = row.userId) (ht : isTerminalStatus row.status = false) :
    After w₀ (Function.update rows id (some row')) where
  ids o r hr := by
    by_cases e : o = id
    · subst e
      rw [Function.update_self] at hr
      cases hr
      exact hid.trans (h.ids o row hrow)
    · rw [Function.update_of_ne e] at hr
      exact h.ids o r hr
  kept o r hr := by
    obtain ⟨r', hr', hu', hsame⟩ := h.kept o r hr
    by_cases e : o = id
    · subst e
      cases hrow.symm.trans hr'
      refine ⟨row', Function.update_self .., hu.trans hu', fun hterm => ?_⟩
      rw [hsame hterm, hterm] at ht
      cases ht
    · exact ⟨r', (Function.update_of_ne e ..).trans hr', hu', hsame⟩

/-- A new order, or more about one that is new. -/
theorem After.add {rows : OrderId → Option OrderEntity} (h : After w₀ rows) {id : OrderId}
    {row : OrderEntity} (hid : row.id = id) (hnew : w₀.order id = none) :
    After w₀ (Function.update rows id (some row)) where
  ids o r hr := by
    by_cases e : o = id
    · subst e
      rw [Function.update_self] at hr
      cases hr
      exact hid
    · rw [Function.update_of_ne e] at hr
      exact h.ids o r hr
  kept o r hr := by
    have e : o ≠ id := by
      rintro rfl
      exact nomatch hnew.symm.trans hr
    rw [Function.update_of_ne e]
    exact h.kept o r hr

theorem Going.abort (h : Going t w₀ w) : Going t w₀ { w with db := w.db.abort t } where
  calm := h.calm.trans .abort
  rows := by
    have hrows : World.order { w with db := w.db.abort t } = w.order :=
      funext fun o => congrFun (Store.abort_same (s := w.db)).1 (.order o)
    exact hrows ▸ h.rows
  view := by
    have hview : World.viewed { w with db := w.db.abort t } t = w.viewed t :=
      funext fun o => Store.abort_view
    exact hview ▸ h.view

theorem quiet_stmt {f : Stmt World Choice (Except AppError β)} (hf : QuietStmt _ f) :
    Confined QuietStmt AnyError (stmt f) :=
  confined_stmt hf fun _ _ _ _ _ _ => trivial

theorem quiet_sql {f : Tid → Choice → World → Option (Except AppError β × World)}
    (hf : QuietStmt _ f) : Confined QuietStmt AnyError (sql f) := by
  apply quiet_stmt
  intro w₀ t ch w r w' hs
  have habort {v : World} (hidle : Idle t v) : Idle t { v with db := v.db.abort t } := by
    rw [Store.abort_idle hidle]
    exact hidle
  rcases sql_cases hs with ⟨-, -, rfl⟩ | ⟨-, -, -, rfl⟩ |
    ⟨-, -, ⟨b, rfl, hs'⟩ | ⟨e, w₁, rfl, hs', rfl⟩⟩
  · exact ⟨id, id⟩
  · exact ⟨.abort, habort⟩
  · exact hf w₀ t ch w _ w' hs'
  · obtain ⟨hg, hi⟩ := hf w₀ t ch w _ w₁ hs'
    exact ⟨fun h => (hg h).abort, fun h => habort (hi h)⟩

/-- A statement that leaves the database as it is, and puts nothing into Redis. -/
theorem quiet_same {f : Stmt World Choice β}
    (hf : ∀ t ch w b w', f t ch w = some (b, w') → w'.db = w.db ∧ Calm t w w') : QuietStmt β f := by
  intro w₀ t ch w b w' hs
  obtain ⟨hdb, hcalm⟩ := hf t ch w b w' hs
  constructor
  · intro h
    have hrows : w'.order = w.order := funext fun o => by unfold World.order; rw [hdb]
    have hview : w'.viewed t = w.viewed t := funext fun o => by unfold World.viewed; rw [hdb]
    exact ⟨h.calm.trans hcalm, hrows ▸ h.rows, hview ▸ h.view⟩
  · intro h
    change w'.db.txns t = none
    rw [hdb]
    exact h

theorem quiet_selectRow (key : Key) : Confined QuietStmt AnyError (selectRow key) := by
  apply quiet_sql
  apply quiet_same
  intro t ch w r w' hs
  cases hs
  exact ⟨rfl, .of_same rfl rfl⟩

theorem quiet_record (f : Nat → List Metric) : Confined QuietStmt AnyError (record f) := by
  apply quiet_stmt
  apply quiet_same
  intro t ch w r w' hs
  cases hs
  exact ⟨rfl, .of_same rfl rfl⟩

theorem quiet_cacheDel (keys : List CacheKey) : Confined QuietStmt AnyError (cacheDel keys) := by
  apply quiet_stmt
  apply quiet_same
  intro t ch w r w' hs
  cases hs
  split
  · exact ⟨rfl, .of_same rfl rfl⟩
  · exact ⟨rfl, .del keys⟩

theorem idle_put {key : Key} {v : Option (Row key)} {js : List (Tid × Deed)}
    (hfree : w.db.Free t key) (h : Idle t w) :
    Idle t { w with db := w.db.put t key v js hfree } := by
  change (w.db.put t key v js hfree).txns t = none
  rw [(Store.put_idle v js hfree h).2.2]
  exact h

/-- An `UPDATE` of another table. -/
theorem quiet_updateRow {key : Key} (hkey : ∀ o, Key.order o ≠ key) (p : Row key → Bool)
    (f : Choice → Row key → Row key) (deeds : Row key → List Deed) :
    Confined QuietStmt AnyError (updateRow key p f deeds) := by
  apply quiet_sql
  intro w₀ t ch w r w' hs
  rcases updateRow_cases hs with ⟨-, rfl, -⟩ | ⟨-, row, hfree, -, -, rfl⟩
  · exact ⟨id, id⟩
  · exact ⟨fun h => h.put hfree ((viewed_put hfree hkey).symm ▸ h.view), idle_put hfree⟩

/-- An `UPDATE` of an order that is not terminal. -/
theorem quiet_updateOrder {id : OrderId} {p : OrderEntity → Bool}
    {f : Choice → OrderEntity → OrderEntity} {deeds : OrderEntity → List Deed}
    (hp : ∀ row, p row = true → isTerminalStatus row.status = false)
    (hf : ∀ ch row, (f ch row).id = row.id ∧ (f ch row).userId = row.userId) :
    Confined QuietStmt AnyError (updateRow (.order id) p f deeds) := by
  apply quiet_sql
  intro w₀ t ch w r w' hs
  rcases updateRow_cases hs with ⟨-, rfl, -⟩ | ⟨-, row, hfree, hv, hrow, rfl⟩
  · exact ⟨fun h => h, fun h => h⟩
  · refine ⟨fun h => h.put hfree ?_, idle_put hfree⟩
    rw [viewed_putOrder hfree]
    exact h.view.update hv (hf ch row).1 (hf ch row).2 (hp row hrow)

theorem quiet_insertFresh {key : Uuid → Key} (hkey : ∀ o id, Key.order o ≠ key id)
    (row : Choice → (id : Uuid) → Row (key id)) :
    Confined QuietStmt AnyError (insertFresh key row) := by
  apply quiet_sql
  intro w₀ t ch w r w' hs
  obtain ⟨-, -, hfree, rfl⟩ := insertFresh_cases hs
  refine ⟨fun h => h.put hfree ?_, idle_put hfree⟩
  rw [viewed_put hfree fun o => hkey o _]
  exact h.view

theorem quiet_enqueue (key : RoutingKey) (payload : OrderEvent) :
    Confined QuietStmt AnyError (enqueue key payload) := by
  have hkey : ∀ (o : OrderId) (id : Uuid), Key.order o ≠ .outbox id := nofun
  apply confined_bind (quiet_insertFresh hkey _)
  intro _
  exact confined_pure

theorem quiet_restoreStock (orderId : OrderId) (lines : List StockLine) :
    Confined QuietStmt AnyError (restoreStock orderId lines) := by
  induction lines with
  | nil => exact confined_pure
  | cons line lines ih =>
    have hkey : ∀ o : OrderId, Key.order o ≠ .product line.productId := nofun
    apply confined_bind (quiet_updateRow hkey _ _ _)
    intro _
    exact ih

/-! ### Calls alone -/

section alone

/-- From `P` the action, alone, comes to `Q`. -/
abbrev Comes (t : Tid) (ch : Nat → Choice) (P : World → Prop) (x : Service α) (Q : World → Prop) :
    Prop :=
  ∀ i, SoloEnds t ch none (fun _ _ => True) i P x (fun _ _ => Q) fun _ _ => Q

theorem quiet_comes {x : Service α} (hx : Confined QuietStmt AnyError x) :
    Comes t ch (Going t w₀) x (Going t w₀) := by
  intro i w hw v r h
  have hgoing := Prog.All.solo (T := fun w₁ w₂ => Going t w₀ w₁ → Going t w₀ w₂) hx
    (fun _ => id) (fun _ _ _ h h' => h' ∘ h)
    (fun β f hf ch s b s' hs => (hf w₀ t ch s b s' hs).1) h hw
  match r with
  | none => exact ⟨0, trivial⟩
  | some (.ok a, j) => exact hgoing
  | some (.error e, j) => exact hgoing

/-- The statements of a call outside a transaction. -/
theorem quiet_rest {x : Service α} (hx : Confined QuietStmt AnyError x) :
    Comes t ch AtRest x AtRest := by
  intro i w hw v r h
  have hkeeps := Prog.All.solo
    (T := fun w₁ w₂ => (Going t w w₁ → Going t w w₂) ∧ (Idle t w₁ → Idle t w₂)) hx
    (fun _ => ⟨id, id⟩) (fun _ _ _ h h' => ⟨h'.1 ∘ h.1, h'.2 ∘ h.2⟩)
    (fun β f hf ch s b s' hs => hf w t ch s b s' hs) h
  have hrest : AtRest v := (hkeeps.1 hw.going).atRest (hkeeps.2 (hw.idle t)) hw
  match r with
  | none => exact ⟨0, trivial⟩
  | some (.ok a, j) => exact hrest
  | some (.error e, j) => exact hrest

theorem Going.rollback (h : Going t w₀ w) (hw₀ : AtRest w₀) :
    AtRest { w with db := w.db.rollback t } := by
  have hidle : Idle t { w with db := w.db.rollback t } := Store.rollback_txn
  have hview : World.viewed { w with db := w.db.rollback t } t = w.order :=
    funext fun o => Store.view_idle hidle
  exact Going.atRest ⟨h.calm.trans .rollback, h.rows, hview ▸ h.rows⟩ hidle hw₀

theorem Going.commit (h : Going t w₀ w) (hw₀ : AtRest w₀) :
    AtRest { w with db := w.db.commit t } := by
  have hidle : Idle t { w with db := w.db.commit t } := Store.commit_txn
  have hkeys : w.db.keys <+: (w.db.commit t).keys :=
    (Store.commit_keys (s := w.db)).symm ▸ List.prefix_rfl
  have hrows : After w₀ (World.order { w with db := w.db.commit t }) := by
    rcases Store.commit_cases (s := w.db) (t := t) with hc | hc
    · have he : World.order { w with db := w.db.commit t } = w.order :=
        funext fun o => congrFun hc (.order o)
      exact he ▸ h.rows
    · have he : World.order { w with db := w.db.commit t } = w.viewed t :=
        funext fun o => congrFun hc (.order o)
      exact he ▸ h.view
  have hview : World.viewed { w with db := w.db.commit t } t =
      World.order { w with db := w.db.commit t } := funext fun o => Store.view_idle hidle
  exact Going.atRest ⟨h.calm.trans (.of_cache Store.commit_frame hkeys rfl), hrows, hview ▸ hrows⟩
    hidle hw₀

theorem Going.begin (h : Going t w₀ w) : Going t w₀ { w with db := w.db.begin t } := by
  have hkeys : w.db.keys <+: (w.db.begin t).keys :=
    (Store.begin_keys (s := w.db)).symm ▸ List.prefix_rfl
  have hrows : World.order { w with db := w.db.begin t } = w.order :=
    funext fun o => congrFun (Store.begin_same (s := w.db)).1 (.order o)
  have hview : World.viewed { w with db := w.db.begin t } t = w.viewed t :=
    funext fun o => Store.begin_view
  exact ⟨h.calm.trans (.of_cache Store.begin_frame hkeys rfl), hrows ▸ h.rows, hview ▸ h.view⟩

theorem transaction_comes {work : Service α}
    (hwork : ∀ w₀, AtRest w₀ → Comes t ch (Going t w₀) work (Going t w₀)) :
    Comes t ch AtRest (transaction work) AtRest := by
  intro i w₀ hw₀
  have hbegin (j : Nat) : SoloEnds t ch none (fun _ _ => True) j (Going t w₀) startTransaction
      (fun _ _ => Going t w₀) fun _ _ => Going t w₀ := by
    apply ends_stmt fun _ _ _ => trivial
    intro w r w' hw _ hs
    split at hs
    · cases hs
      exact hw
    · cases hs
      exact hw.begin
  have hcommit (j : Nat) : SoloEnds t ch none (fun _ _ => True) j (Going t w₀) commitTransaction
      (fun _ _ => AtRest) fun _ _ w => ∃ w₁, Going t w₁ w ∧ AtRest w₁ := by
    apply ends_stmt fun _ _ _ => trivial
    intro w r w' hw _ hs
    split at hs
    · cases hs
      exact ⟨_, (hw.rollback hw₀).going, hw.rollback hw₀⟩
    · cases hs
      exact hw.commit hw₀
  have hrollback (e : AppError) (j : Nat) : SoloEnds t ch none (fun _ _ => True) j
      (fun w => ∃ w₁, Going t w₁ w ∧ AtRest w₁) (do rollbackTransaction; throw e : Service α)
      (fun _ _ => AtRest) fun _ _ => AtRest := by
    apply ends_bind (Q := fun _ _ => AtRest)
    · apply ends_stmt fun _ _ _ => trivial
      rintro w r w' ⟨w₁, hw, hw₁⟩ _ hs
      cases hs
      exact hw.rollback hw₁
    · exact fun _ _ => ends_throw fun _ h => h
  have hall : SoloEnds t ch none (fun _ _ => True) i (Going t w₀) (transaction work)
      (fun _ _ => AtRest) fun _ _ => AtRest := by
    apply ends_tryCatch _ hrollback
    have hleft {P : World → Prop} {β : Type} {x : Service β} {Q : World → Prop} {j : Nat}
        (h : SoloEnds t ch none (fun _ _ => True) j P x (fun _ _ => Q) fun _ _ => Going t w₀) :
        SoloEnds t ch none (fun _ _ => True) j P x (fun _ _ => Q)
          fun _ _ w => ∃ w₁, Going t w₁ w ∧ AtRest w₁ :=
      ends_conseq h (fun _ _ _ h => h) (fun _ _ w h => ⟨w₀, h, hw₀⟩) fun _ _ h => h
    apply ends_bind (hleft (hbegin i))
    intro _ j
    apply ends_bind (hleft (hwork w₀ hw₀ j))
    intro _ j
    apply ends_bind (hcommit j)
    exact fun _ _ => ends_pure fun _ h => h
  exact hall w₀ hw₀.going

/-! ### Writes -/

theorem comes_insertFresh {key : Uuid → Key} {row : Choice → (id : Uuid) → Row (key id)}
    {Q : (Σ id, Row (key id)) → World → Prop}
    (h : ∀ w ch hfree, Going t w₀ w → w.db.view t (key ch.fresh) = none →
      Q ⟨ch.fresh, row ch ch.fresh⟩
        { w with db := w.db.put t (key ch.fresh) (some (row ch ch.fresh)) [] hfree }) (i : Nat) :
    SoloEnds t ch none (fun _ _ => True) i (Going t w₀) (insertFresh key row)
      (fun created _ => Q created) fun _ _ => Going t w₀ := by
  apply ends_stmt fun _ _ _ => trivial
  intro w r w' hw _ hs
  rcases sql_cases hs with ⟨-, rfl, rfl⟩ | ⟨-, -, rfl, rfl⟩ |
    ⟨-, -, ⟨b, rfl, hs'⟩ | ⟨e, w₁, rfl, hs', -⟩⟩
  · exact hw
  · exact hw.abort
  · obtain ⟨he, hnone, hfree, rfl⟩ := insertFresh_cases hs'
    cases he
    exact h w (ch i) hfree hw hnone
  · obtain ⟨he, -⟩ := insertFresh_cases hs'
    cases he

theorem comes_updateRow {key : Key} {p : Row key → Bool} {f : Choice → Row key → Row key}
    {deeds : Row key → List Deed} (h : ∀ w ch row hfree, Going t w₀ w →
      w.db.view t key = some row → Going t w₀
        { w with db := w.db.put t key (some (f ch row)) ((deeds row).map (Prod.mk t)) hfree }) :
    Comes t ch (Going t w₀) (updateRow key p f deeds) (Going t w₀) := by
  intro i
  apply ends_stmt fun _ _ _ => trivial
  intro w r w' hw _ hs
  rcases sql_cases hs with ⟨-, rfl, rfl⟩ | ⟨-, -, rfl, rfl⟩ |
    ⟨-, -, ⟨b, rfl, hs'⟩ | ⟨e, w₁, rfl, hs', -⟩⟩
  · exact hw
  · exact hw.abort
  · rcases updateRow_cases hs' with ⟨-, rfl, -⟩ | ⟨-, row, hfree, hv, -, rfl⟩
    · exact hw
    · exact h w (ch i) row hfree hw hv
  · rcases updateRow_cases hs' with ⟨he, -⟩ | ⟨he, -⟩
    · cases he
    · cases he

theorem comes_insertOrder (userId : UserId) (i : Nat) :
    SoloEnds t ch none (fun _ _ => True) i (Going t w₀) (insertOrder userId)
      (fun created _ w => w₀.order created.id = none ∧ Going t w₀ w) fun _ _ => Going t w₀ := by
  apply ends_bind (Q := fun (created : Σ id, Row (.order id)) _ w =>
    OrderEntity.id created.2 = created.1 ∧ w₀.order created.1 = none ∧ Going t w₀ w)
  · apply comes_insertFresh (Q := fun (created : Σ id, Row (.order id)) w =>
      OrderEntity.id created.2 = created.1 ∧ w₀.order created.1 = none ∧ Going t w₀ w)
    intro w ch hfree hw hnone
    have hnew : w₀.order ch.fresh = none := by
      cases ho : w₀.order ch.fresh with
      | none => rfl
      | some row =>
        obtain ⟨row', hrow', -⟩ := hw.view.kept _ row ho
        exact nomatch hnone.symm.trans hrow'
    refine ⟨rfl, hnew, hw.put hfree ?_⟩
    rw [viewed_putOrder hfree]
    exact hw.view.add rfl hnew
  · intro created j
    apply ends_pure
    rintro w ⟨hid, hnew, hw⟩
    rw [hid]
    exact ⟨hnew, hw⟩

theorem comes_saveItems {id : OrderId} (items : List OrderItemEntity) (hnew : w₀.order id = none) :
    Comes t ch (Going t w₀) (saveItems id items) (Going t w₀) := by
  apply comes_updateRow
  intro w ch row hfree hw hv
  apply hw.put hfree
  rw [viewed_putOrder hfree]
  exact hw.view.add (hw.view.ids id row hv) hnew

theorem comes_createOrder (userId : UserId) (lines : List OrderLine) :
    Comes t ch AtRest (createOrder userId lines) AtRest := by
  intro i
  apply ends_bind (Q := fun _ _ => AtRest)
  · apply transaction_comes
    intro w₀ hw₀ j
    apply ends_bind (comes_insertOrder userId j)
    intro created j
    apply ends_fact
    intro hnew
    apply ends_bind (comes_saveItems _ hnew j)
    intro _ j
    apply ends_bind (quiet_comes (quiet_enqueue _ _) j)
    exact fun _ _ => ends_pure fun _ h => h
  · intro order j
    apply quiet_rest
    apply confined_bind (quiet_record _)
    intro _
    apply confined_bind (quiet_cacheDel _)
    intro _
    exact confined_pure

theorem quiet_transitionOrder (id : OrderId) (target : OrderStatus) :
    Confined QuietStmt AnyError (transitionOrder id target) := by
  apply confined_bind (quiet_selectRow _)
  intro order
  cases (order : Option OrderEntity) with
  | none => exact confined_throw trivial
  | some order =>
    apply confined_ite
    · intro _
      exact confined_throw trivial
    · intro hallowed
      have hterm : isTerminalStatus order.status = false := by
        by_contra ht
        exact hallowed (not_allowed_of_terminal (by simpa using ht) target)
      apply confined_bind
      · apply quiet_updateOrder
        · intro row hrow
          have hstatus : row.status = order.status := by simpa using hrow
          rw [hstatus]
          exact hterm
        · exact fun _ _ => ⟨rfl, rfl⟩
      · intro affected
        apply confined_ite
        · intro _
          exact confined_throw trivial
        · intro _
          apply confined_bind (quiet_record _)
          intro _
          apply confined_bind (quiet_cacheDel _)
          intro _
          exact confined_pure

end alone

end OrderLifecycle

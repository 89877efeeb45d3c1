import OrderLifecycle.Database.Sql
import OrderLifecycle.Framework.Lockstep
import OrderLifecycle.Reads.Memory

open Framework

namespace OrderLifecycle.Isolation

/-- The order, if it is one of the user's. -/
def own (u : UserId) (row : Option OrderEntity) : Option OrderEntity :=
  row.filter fun order => order.userId == u

theorem own_some {u : UserId} {row : Option OrderEntity} {order : OrderEntity} :
    own u row = some order ↔ row = some order ∧ order.userId = u := by
  unfold own
  rw [Option.filter_eq_some_iff, beq_iff_eq]

/-- A user cannot tell the two worlds apart. -/
structure Twins (t : Tid) (u : UserId) (w w' : World) : Prop where
  orders : ∀ o, own u (w.db.view t (.order o)) = own u (w'.db.view t (.order o))
  aborted : w.db.aborted t = w'.db.aborted t
  enabled : w.cacheEnabled = w'.cacheEnabled
  entries : ∀ o, own u (w.cache.order o) = own u (w'.cache.order o)
  list : w.cache.userOrders u = w'.cache.userOrders u

/-- The order is the user's. -/
def Owns (u : UserId) (w : World) (o : OrderId) : Prop :=
  ∃ row, w.order o = some row ∧ row.userId = u

/-- A row that the user may write: an order of the user's, or a new event of the user's. -/
def Fine (u : UserId) (w₀ : World) : (key : Key) → Option (Row key) → Prop
  | .order o, _ => Owns u w₀ o
  | .outbox id, v => w₀.outbox id = none ∧ ∀ m : OutboxMessageEntity, v = some m → m.payload.userId = u
  | _, _ => True

/-- What belongs to others is as it was in `w₀`. -/
structure Spared (t : Tid) (u : UserId) (w₀ w : World) : Prop where
  rows : ∀ key, w.db.rows key = w₀.db.rows key ∨ Fine u w₀ key (w.db.rows key)
  pending : ∀ tx, w.db.txns t = some tx → ∀ key v, tx.writes key = some v → Fine u w₀ key v
  entries : ∀ o, w.cache.order o = w₀.cache.order o ∨ Owns u w₀ o
  lists : ∀ u', u' ≠ u → w.cache.userOrders u' = w₀.cache.userOrders u'

variable {t : Tid} {u : UserId} {w₀ w w' v v' : World} {key : Key}

/-! ### Spared -/

theorem Spared.refl (hidle : Idle t w) : Spared t u w w :=
  ⟨fun _ => .inl rfl, fun _ htx => (nomatch htx.symm.trans hidle), fun _ => .inl rfl, fun _ _ => rfl⟩

theorem Spared.of_db (h : Spared t u w₀ w) (hdb : w'.db = w.db) (hc : w'.cache = w.cache) :
    Spared t u w₀ w' :=
  ⟨hdb ▸ h.rows, hdb ▸ h.pending, hc ▸ h.entries, hc ▸ h.lists⟩

theorem Spared.abort (h : Spared t u w₀ w) : Spared t u w₀ { w with db := w.db.abort t } := by
  refine ⟨?_, ?_, h.entries, h.lists⟩
  · intro key
    rw [Store.abort_same.1]
    exact h.rows key
  · intro tx htx key v hw
    rw [Store.abort_txn] at htx
    obtain ⟨tx', htx', rfl⟩ := Option.map_eq_some_iff.mp htx
    exact h.pending tx' htx' key v hw

theorem Spared.rollback (h : Spared t u w₀ w) : Spared t u w₀ { w with db := w.db.rollback t } :=
  ⟨h.rows, fun _ htx => (nomatch Store.rollback_txn.symm.trans htx), h.entries, h.lists⟩

theorem Spared.begin (h : Spared t u w₀ w) (hidle : Idle t w) :
    Spared t u w₀ { w with db := w.db.begin t } := by
  refine ⟨?_, ?_, h.entries, h.lists⟩
  · intro key
    rw [Store.begin_same.1]
    exact h.rows key
  · intro tx htx key v hw
    cases htx.symm.trans (Store.begin_txn hidle)
    cases hw

theorem Spared.commit (h : Spared t u w₀ w) {tx : Txn Row (Tid × Deed)}
    (htx : w.db.txns t = some tx) (ha : tx.aborted = false) :
    Spared t u w₀ { w with db := w.db.commit t } := by
  refine ⟨?_, fun _ htx => (nomatch Store.commit_txn.symm.trans htx), h.entries, h.lists⟩
  intro key
  rw [Store.commit_rows htx ha]
  cases hw : tx.writes key with
  | none => exact h.rows key
  | some v => exact .inr (h.pending tx htx key v hw)

theorem Spared.put {value : Option (Row key)} {js : List (Tid × Deed)} (h : Spared t u w₀ w)
    (hfree : w.db.Free t key) (hfine : Fine u w₀ key value) :
    Spared t u w₀ { w with db := w.db.put t key value js hfree } := by
  cases htx : w.db.txns t with
  | none =>
    obtain ⟨hrows, -, htxns⟩ := Store.put_idle value js hfree htx
    refine ⟨fun key' => ?_, fun tx htx' => ?_, h.entries, h.lists⟩
    · rw [hrows]
      by_cases e : key' = key
      · subst e
        rw [Function.update_self]
        exact .inr hfine
      · rw [Function.update_of_ne e]
        exact h.rows key'
    · rw [htxns] at htx'
      exact nomatch htx.symm.trans htx'
  | some tx =>
    obtain ⟨hsame, htx'⟩ := Store.put_txn value js hfree htx
    refine ⟨fun key' => ?_, fun tx' h' key' v hw => ?_, h.entries, h.lists⟩
    · rw [hsame.1]
      exact h.rows key'
    · cases htx'.symm.trans h'
      by_cases e : key' = key
      · subst e
        cases (Store.write_self ..).symm.trans hw
        exact hfine
      · rw [Store.write_other _ _ e] at hw
        exact h.pending tx htx key' v hw

/-- An order that is the user's now always was. -/
theorem Spared.owns (h : Spared t u w₀ w) {o : OrderId} (ho : Owns u w o) : Owns u w₀ o := by
  rcases h.rows (.order o) with hsame | hfine
  · obtain ⟨row, hrow, hu⟩ := ho
    exact ⟨row, hsame.symm.trans hrow, hu⟩
  · exact hfine

/-! ### Twins -/

theorem put_aborted {s : Db} {value : Option (Row key)} {js : List (Tid × Deed)}
    (hfree : s.Free t key) : (s.put t key value js hfree).aborted t = s.aborted t := by
  cases htx : s.txns t with
  | none => simp [Store.aborted, (Store.put_idle value js hfree htx).2.2, htx]
  | some tx => simp [Store.aborted, (Store.put_txn value js hfree htx).2, htx, Store.Txn.write]

/-- Both write the same order row. -/
theorem Twins.put {id : OrderId} {value : Option (Row (.order id))} {js js' : List (Tid × Deed)}
    (h : Twins t u w w') (hfree : w.db.Free t (.order id)) (hfree' : w'.db.Free t (.order id)) :
    Twins t u { w with db := w.db.put t (.order id) value js hfree }
      { w' with db := w'.db.put t (.order id) value js' hfree' } := by
  refine ⟨fun o => ?_, ?_, h.enabled, h.entries, h.list⟩
  · dsimp only
    rw [Store.put_view, Store.put_view]
    by_cases e : o = id
    · subst e
      rw [Function.update_self, Function.update_self]
    · have hne : Key.order o ≠ .order id := fun he => e (Key.order.inj he)
      rw [Function.update_of_ne hne, Function.update_of_ne hne]
      exact h.orders o
  · dsimp only
    rw [put_aborted, put_aborted]
    exact h.aborted

/-- Nothing that a user sees of orders changes. -/
structure Unseen (t : Tid) (w v : World) : Prop where
  orders : ∀ o, v.db.view t (.order o) = w.db.view t (.order o)
  aborted : v.db.aborted t = w.db.aborted t
  enabled : v.cacheEnabled = w.cacheEnabled
  cache : v.cache = w.cache

theorem Unseen.of_db (hdb : v.db = w.db) (he : v.cacheEnabled = w.cacheEnabled)
    (hc : v.cache = w.cache) : Unseen t w v :=
  ⟨fun _ => by rw [hdb], by rw [hdb], he, hc⟩

theorem Unseen.put {value : Option (Row key)} {js : List (Tid × Deed)} (hfree : w.db.Free t key)
    (hkey : ∀ o, key ≠ .order o) : Unseen t w { w with db := w.db.put t key value js hfree } := by
  refine ⟨fun o => ?_, put_aborted hfree, rfl, rfl⟩
  dsimp only
  rw [Store.put_view, Function.update_of_ne (hkey o).symm]

theorem Twins.unseen (h : Twins t u w w') (hv : Unseen t w v) (hv' : Unseen t w' v') :
    Twins t u v v' := by
  refine ⟨fun o => ?_, ?_, ?_, fun o => ?_, ?_⟩
  · rw [hv.orders, hv'.orders]
    exact h.orders o
  · rw [hv.aborted, hv'.aborted]
    exact h.aborted
  · rw [hv.enabled, hv'.enabled]
    exact h.enabled
  · rw [hv.cache, hv'.cache]
    exact h.entries o
  · rw [hv.cache, hv'.cache]
    exact h.list

/-- The same change to what both hold in the cache. -/
theorem Twins.setCache (h : Twins t u w w') {c c' : Cache}
    (hentries : ∀ o, own u (c.order o) = own u (c'.order o))
    (hlist : c.userOrders u = c'.userOrders u) :
    Twins t u { w with cache := c } { w' with cache := c' } :=
  ⟨h.orders, h.aborted, h.enabled, hentries, hlist⟩

end OrderLifecycle.Isolation

import OrderLifecycle.Ledger.Redelivery
import OrderLifecycle.Lifecycle.Logic

open Framework

namespace OrderLifecycle

/-! ### The rows of an order while nobody else is at work -/

/-- The ledger row of order `o`, its status, and whether message `mid` was processed; as long as
it was not, the ids in `ids` are not in use. -/
structure OrderRows (o : OrderId) (mid : Uuid) (ids : Uuid → Prop)
    (a : Option PaymentAuthorizationEntity) (st : OrderStatus) (done : Bool) (rows : Rows) :
    Prop where
  ledger : rows (.authorization o) = a
  order : ∃ row : OrderEntity, rows (.order o) = some row ∧ row.status = st
  inbox : (rows (.inbox mid .payment)).isSome = done
  unused : done = false → ∀ id, ids id → rows (.outbox id) = none

/-- These rows, and no transaction open. -/
structure Stage (o : OrderId) (mid : Uuid) (ids : Uuid → Prop)
    (a : Option PaymentAuthorizationEntity) (st : OrderStatus) (done : Bool) (w : World) : Prop where
  idle : ∀ t, w.db.txns t = none
  rows : OrderRows o mid ids a st done w.db.rows

/-- These rows, whatever the transaction of `t` has in hand. -/
structure Aside (t : Tid) (o : OrderId) (mid : Uuid) (ids : Uuid → Prop)
    (a : Option PaymentAuthorizationEntity) (st : OrderStatus) (done : Bool) (w : World) : Prop where
  others : ∀ t', t' ≠ t → w.db.txns t' = none
  rows : OrderRows o mid ids a st done w.db.rows

/-- `t` is in a transaction, in which it sees these rows; committed is an order that waits for
its payment. -/
structure Working (t : Tid) (o : OrderId) (mid : Uuid) (ids : Uuid → Prop)
    (a : Option PaymentAuthorizationEntity) (unused : Uuid → Prop) (st : OrderStatus) (done : Bool)
    (w : World) : Prop where
  aside : Aside t o mid ids a .reserved false w
  txn : ∃ tx, w.db.txns t = some tx ∧ tx.aborted = false
  rows : OrderRows o mid unused a st done (w.db.view t)

variable {o : OrderId} {mid : Uuid} {ids ids' : Uuid → Prop} {a : Option PaymentAuthorizationEntity}
  {row : PaymentAuthorizationEntity} {st : OrderStatus} {done : Bool} {w w' : World} {t : Tid}
  {rows : Rows}

/-! ### One row changes -/

namespace OrderRows

theorem putAuthorization (h : OrderRows o mid ids a st done rows) :
    OrderRows o mid ids (some row) st done (Function.update rows (.authorization o) (some row)) where
  ledger := Function.update_self ..
  order := by simpa using h.order
  inbox := by simpa using h.inbox
  unused := by simpa using h.unused

theorem putOrder {st' : OrderStatus} {order : OrderEntity} (h : OrderRows o mid ids a st done rows)
    (hst : order.status = st') :
    OrderRows o mid ids a st' done (Function.update rows (.order o) (some order)) where
  ledger := by simpa using h.ledger
  order := ⟨order, Function.update_self .., hst⟩
  inbox := by simpa using h.inbox
  unused := by simpa using h.unused

theorem putOutbox (h : OrderRows o mid ids a st done rows) (id : Uuid) (m : OutboxMessageEntity) :
    OrderRows o mid (fun _ => False) a st done (Function.update rows (.outbox id) (some m)) where
  ledger := by simpa using h.ledger
  order := by simpa using h.order
  inbox := by simpa using h.inbox
  unused := fun _ _ hid => hid.elim

theorem putInbox (h : OrderRows o mid ids a st done rows) (x : ProcessedMessageEntity) :
    OrderRows o mid ids' a st true (Function.update rows (.inbox mid .payment) (some x)) where
  ledger := by simpa using h.ledger
  order := by simpa using h.order
  inbox := by
    rw [Function.update_self]
    rfl
  unused := fun hd => nomatch hd

end OrderRows

theorem Stage.aside (h : Stage o mid ids a st done w) : Aside t o mid ids a st done w :=
  ⟨fun t' _ => h.idle t', h.rows⟩

theorem Stage.not_aborted (h : Stage o mid ids a st done w) : w.db.aborted t = false :=
  Idle.not_aborted (h.idle t)

theorem Stage.congr (h : Stage o mid ids a st done w) (hdb : w'.db = w.db) :
    Stage o mid ids a st done w' :=
  ⟨fun t => hdb ▸ h.idle t, hdb ▸ h.rows⟩

theorem Stage.free (h : Stage o mid ids a st done w) (k : Key) : w.db.Free t k :=
  Store.free_of_others (fun t' _ => h.idle t') k

theorem Stage.view (h : Stage o mid ids a st done w) (k : Key) : w.db.view t k = w.db.rows k :=
  Store.view_idle (h.idle t)

theorem Stage.putAuthorization (h : Stage o mid ids a st done w)
    (hfree : w.db.Free t (.authorization o))
    (hdb : w'.db = w.db.put t (.authorization o) (some row) [] hfree) :
    Stage o mid ids (some row) st done w' := by
  obtain ⟨hrows, -, htxns⟩ := Store.put_idle (some row) [] hfree (h.idle t)
  refine ⟨fun t' => ?_, ?_⟩
  · rw [hdb, htxns]
    exact h.idle t'
  · rw [hdb, hrows]
    exact h.rows.putAuthorization

theorem Aside.rollback (h : Aside t o mid ids a st done w) :
    Stage o mid ids a st done { w with db := w.db.rollback t } := by
  refine ⟨fun t' => ?_, h.rows⟩
  by_cases e : t' = t
  · subst e
    exact Store.rollback_txn
  · exact (Store.rollback_frame.txns t' e).trans (h.others t' e)

namespace Working

variable {unused : Uuid → Prop}

theorem not_aborted (h : Working t o mid ids a unused st done w) : w.db.aborted t = false := by
  obtain ⟨tx, htx, ha⟩ := h.txn
  simp [Store.aborted, htx, ha]

theorem free (h : Working t o mid ids a unused st done w) (k : Key) : w.db.Free t k :=
  Store.free_of_others h.aside.others k

theorem congr (h : Working t o mid ids a unused st done w) (hdb : w'.db = w.db) :
    Working t o mid ids a unused st done w' :=
  ⟨⟨hdb ▸ h.aside.others, hdb ▸ h.aside.rows⟩, hdb ▸ h.txn, hdb ▸ h.rows⟩

theorem begin (h : Stage o mid ids a .reserved false w) :
    Working t o mid ids a ids .reserved false { w with db := w.db.begin t } := by
  have htx := Store.begin_txn (h.idle t)
  have hview : (w.db.begin t).view t = w.db.rows := by
    funext k
    rw [Store.view_txn htx, Store.begin_same.1]
    rfl
  refine ⟨⟨fun t' ht' => (Store.begin_frame.txns t' ht').trans (h.idle t'), ?_⟩,
    ⟨_, htx, rfl⟩, ?_⟩
  · rw [Store.begin_same.1]
    exact h.rows
  · rw [hview]
    exact h.rows

/-- A write of the transaction. -/
theorem put {unused' : Uuid → Prop} {st' : OrderStatus} {done' : Bool} {k : Key}
    {v : Option (Row k)} (h : Working t o mid ids a unused st done w) (hfree : w.db.Free t k)
    (hdb : w'.db = w.db.put t k v [] hfree)
    (hrows : OrderRows o mid unused' a st' done' (Function.update (w.db.view t) k v)) :
    Working t o mid ids a unused' st' done' w' := by
  obtain ⟨tx, htx, ha⟩ := h.txn
  obtain ⟨hsame, htx'⟩ := Store.put_txn v [] hfree htx
  refine ⟨⟨fun t' ht' => ?_, ?_⟩, ⟨Store.Txn.write tx k v [], ?_, ha⟩, ?_⟩
  · rw [hdb, Store.put_frame.txns t' ht']
    exact h.aside.others t' ht'
  · rw [hdb, hsame.1]
    exact h.aside.rows
  · rw [hdb]
    exact htx'
  · rw [hdb, Store.put_view]
    exact hrows

theorem commit (h : Working t o mid ids a unused st done w) :
    Stage o mid unused a st done { w with db := w.db.commit t } := by
  obtain ⟨tx, htx, ha⟩ := h.txn
  refine ⟨fun t' => ?_, ?_⟩
  · by_cases e : t' = t
    · subst e
      exact Store.commit_txn
    · exact (Store.commit_frame.txns t' e).trans (h.aside.others t' e)
  · rw [Store.commit_view htx ha]
    exact h.rows

end Working

end OrderLifecycle

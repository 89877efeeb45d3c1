import OrderLifecycle.Framework.RelyGuarantee
import OrderLifecycle.Lifecycle.Accounts
import OrderLifecycle.Lifecycle.OrderEvolution

open Framework

namespace OrderLifecycle

/-- Only orders that will not change any more are cached by id. -/
def Cache.Terminal (c : Cache) : Prop :=
  ∀ o order, c.order o = some order → isTerminalStatus order.status = true

structure Inv (S : Setting) (w : World) : Prop where
  accounts : Accounts S.catalog w.db
  orders : ∀ o, OrderInv S o (w.facts o)
  outbox : ∀ id (m : OutboxMessageEntity), w.db.rows (.outbox id) = some m → m.id = id
  messages : ∀ m ∈ w.messages, w.db.rows (.outbox m.id) = some m
  cache : w.cache.Terminal

/-- No order changes, or one order takes one of its steps. -/
def Changes (S : Setting) (t : Tid) (k : Request) (w w' : World) : Prop :=
  (∀ o, w'.facts o = w.facts o) ∨
    ∃ o, OrderStep S t k o (w.facts o) (w'.facts o) ∧ ∀ o', o' ≠ o → w'.facts o' = w.facts o'

structure Guar (S : Setting) (t : Tid) (k : Request) (w w' : World) : Prop where
  frame : w.db.Frame t w'.db
  changes : Changes S t k w w'

/-- What every call of the order system keeps to. -/
def orderLogic (S : Setting) : Logic World Choice Request where
  inv := Inv S
  guar := Guar S
  envGuar w w' := w'.db = w.db ∧ w'.gateway = w.gateway
  choice ch := (∀ p, S.provider = some p → ch.answer = p) ∧ (¬S.faulty → ch.fail = false)

variable {S : Setting} {t : Tid} {k : Request} {w w' : World} {o : OrderId}

/-! ### One step of anybody -/

theorem facts_congr (hr : w'.db.rows = w.db.rows) (hj : w'.db.journal = w.db.journal)
    (hg : w'.gateway = w.gateway) (o : OrderId) : w'.facts o = w.facts o := by
  simp only [World.facts, hr, hj, hg]

theorem Changes.step (h : Changes S t k w w') (o : OrderId) : w'.facts o = w.facts o ∨
    OrderStep S t k o (w.facts o) (w'.facts o) := by
  rcases h with h | ⟨o', hs, h⟩
  · exact .inl (h o)
  · by_cases e : o = o'
    · subst e
      exact .inr hs
    · exact .inl (h o e)

theorem Changes.evolves (h : Changes S t k w w') (o : OrderId) :
    Evolves (w.facts o) (w'.facts o) := by
  rcases h.step o with h | hs
  · rw [h]
    exact .refl _
  · exact hs.evolves

theorem World.mem_events (m : OutboxMessageEntity) :
    w.db.rows (.outbox m.id) = some m ↔ m ∈ (w.facts m.payload.orderId).events m.routingKey :=
  ⟨fun h => ⟨h, rfl, rfl⟩, fun h => h.1⟩

/-- A step keeps the invariant if it keeps the books and the cache. -/
theorem Inv.next (h : Inv S w) (hc : Changes S t k w w') (ha : Accounts S.catalog w'.db)
    (ho : ∀ id (m : OutboxMessageEntity), w'.db.rows (.outbox id) = some m → m.id = id)
    (hm : w'.messages = w.messages) (hca : w'.cache.Terminal) : Inv S w' := by
  refine ⟨ha, fun o => ?_, ho, fun m hm' => ?_, hca⟩
  · rcases hc.step o with hc | hs
    · rw [hc]
      exact h.orders o
    · exact hs.inv (h.orders o)
  · rw [hm] at hm'
    rw [World.mem_events]
    exact (hc.evolves _).events _ ((World.mem_events m).mp (h.messages m hm'))

/-- What another thread's step does to one order. -/
theorem facts_of_rely (h : (orderLogic S).rely t w w') (o : OrderId) :
    w'.facts o = w.facts o ∨ ∃ t' k, t' ≠ t ∧ OrderStep S t' k o (w.facts o) (w'.facts o) := by
  obtain ⟨-, -, ⟨t', k, ht, -, hch⟩ | ⟨hd, hg⟩⟩ := h
  · exact (hch.step o).imp_right fun hs => ⟨t', k, ht, hs⟩
  · exact .inl (facts_congr (by rw [hd]) (by rw [hd]) hg o)

/-- What only depends on how orders evolve lasts. -/
theorem lasting_of_evolves {F : World → Prop}
    (h : ∀ w w', (∀ o, Evolves (w.facts o) (w'.facts o)) → F w → F w') :
    (orderLogic S).Lasting F := by
  rintro w w' - - (⟨t', k, hg⟩ | ⟨hd, hg⟩)
  · exact h w w' fun o => hg.changes.evolves o
  · refine h w w' fun o => ?_
    rw [facts_congr (by rw [hd]) (by rw [hd]) hg o]
    exact .refl _

/-! ### Assertions about the own transaction -/

/-- `t` has no open transaction. -/
def Idle (t : Tid) (w : World) : Prop := w.db.txns t = none

/-- A statement of the open transaction of `t` has failed. -/
def Doomed (t : Tid) (w : World) : Prop := ∃ tx, w.db.txns t = some tx ∧ tx.aborted = true

/-- The open transaction of `t` is about to commit `D`; `before` is the row it found where it
wrote an order row. -/
structure Staged (t : Tid) (D : Draft) (before : Option OrderEntity) (w : World) : Prop where
  txn : ∃ tx, w.db.txns t = some tx ∧ tx.aborted = false ∧ tx.journal = D.journal ∧
    ∀ k, k.tracked = true → tx.writes k = D.writes k
  order : ∀ x ∈ D.order, w.db.rows (.order x.1) = before
  event : ∀ m ∈ D.event, w.db.rows (.outbox m.id) = none
  inbox : ∀ x ∈ D.inbox, w.db.rows (.inbox x.1 x.2.1) = none

theorem stable_of_frame {P : World → Prop}
    (h : ∀ t' (w w' : World), t' ≠ t → w.db.Frame t' w'.db → P w → P w') :
    (orderLogic S).Stable t P := by
  rintro w w' ⟨-, -, ⟨t', k, ht, hg⟩ | ⟨hd, -⟩⟩ hp
  · exact h t' w w' ht hg.frame hp
  · refine h (t + 1) w w' (Nat.succ_ne_self t) ?_ hp
    rw [hd]
    exact .refl

theorem stable_idle : (orderLogic S).Stable t (Idle t) :=
  stable_of_frame fun _ _ _ ht hf h => (hf.txns _ ht.symm).trans h

theorem stable_doomed : (orderLogic S).Stable t (Doomed t) :=
  stable_of_frame fun _ _ _ ht hf ⟨tx, h, ha⟩ => ⟨tx, (hf.txns _ ht.symm).trans h, ha⟩

theorem Draft.writes_order {D : Draft} {x : OrderId × OrderEntity} (h : x ∈ D.order) :
    D.writes (.order x.1) = some (some x.2) := by
  simp only [Option.mem_def] at h
  simp only [writes, h]
  exact if_pos trivial

theorem Draft.writes_event {D : Draft} {m : OutboxMessageEntity} (h : m ∈ D.event) :
    D.writes (.outbox m.id) = some (some m) := by
  simp only [Option.mem_def] at h
  simp only [writes, h]
  exact if_pos trivial

theorem Draft.writes_inbox {D : Draft} {x : Uuid × Consumer × ProcessedMessageEntity}
    (h : x ∈ D.inbox) : D.writes (.inbox x.1 x.2.1) = some (some x.2.2) := by
  simp only [Option.mem_def] at h
  simp only [writes, h]
  exact if_pos ⟨trivial, trivial⟩

/-- Rows that the transaction has written stay as they are until it ends. -/
theorem stable_staged {D : Draft} {before : Option OrderEntity} :
    (orderLogic S).Stable t (Staged t D before) := by
  refine stable_of_frame fun t' w w' ht hf h => ?_
  obtain ⟨⟨tx, htx, ha, hj, hw⟩, ho, he, hi⟩ := h
  have keep {k : Key} {v : Option (Row k)} (hk : k.tracked = true) (hv : D.writes k = some v) :
      w'.db.rows k = w.db.rows k := by
    refine hf.rows_of_write ht.symm htx ?_
    rw [hw k hk, hv]
    exact Option.some_ne_none _
  refine ⟨⟨tx, (hf.txns _ ht.symm).trans htx, ha, hj, hw⟩, fun x hx => ?_, fun m hm => ?_,
    fun x hx => ?_⟩
  · exact (keep rfl (Draft.writes_order hx)).trans (ho x hx)
  · exact (keep rfl (Draft.writes_event hm)).trans (he m hm)
  · exact (keep rfl (Draft.writes_inbox hx)).trans (hi x hx)

theorem Idle.not_aborted (h : Idle t w) : w.db.aborted t = false := by
  simp only [Idle] at h
  simp [Store.aborted, h]

theorem Staged.not_aborted {D : Draft} {before : Option OrderEntity} (h : Staged t D before w) :
    w.db.aborted t = false := by
  obtain ⟨tx, htx, ha, -⟩ := h.txn
  simp [Store.aborted, htx, ha]

theorem Doomed.aborted (h : Doomed t w) : w.db.aborted t = true := by
  obtain ⟨tx, htx, ha⟩ := h
  simp [Store.aborted, htx, ha]

theorem Staged.abort {D : Draft} {before : Option OrderEntity} (h : Staged t D before w) :
    Doomed t { w with db := w.db.abort t } := by
  obtain ⟨tx, htx, -, -⟩ := h.txn
  exact ⟨_, by rw [Store.abort_txn, htx]; rfl, rfl⟩

theorem Idle.abort (h : Idle t w) : { w with db := w.db.abort t } = w := by
  simp only [Idle] at h
  have : w.db.abort t = w.db := by
    unfold Store.abort
    split
    · rfl
    · next h' => simp [h] at h'
  rw [this]

end OrderLifecycle

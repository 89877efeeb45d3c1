import OrderLifecycle.Framework.Footprint
import OrderLifecycle.Inbox.Work
import OrderLifecycle.Reads.Calm

open Framework

namespace OrderLifecycle.Pipeline

/-- A step of `t` that writes no row outside `F` and publishes nothing. -/
structure Touches (F : Key → Prop) (t : Tid) (w w' : World) : Prop where
  db : w.db.Footprint F t w'.db
  messages : w'.messages = w.messages

/-- The statement is such a step. -/
abbrev Writes (F : Key → Prop) := Takes (Touches F)

variable {F : Key → Prop} {α β : Type} {t : Tid} {w w' : World}

theorem Touches.of_db (hd : w'.db = w.db) (hm : w'.messages = w.messages) : Touches F t w w' := by
  refine ⟨?_, hm⟩
  rw [hd]
  exact .refl

theorem Touches.trans {w'' : World} (h : Touches F t w w') (h' : Touches F t w' w'') :
    Touches F t w w'' :=
  ⟨h.db.trans h'.db, h'.messages.trans h.messages⟩

theorem Touches.put {key : Key} {v : Option (Row key)} {js : List (Tid × Deed)} (hkey : F key)
    (hfree : w.db.Free t key) : Touches F t w { w with db := w.db.put t key v js hfree } :=
  ⟨.put hfree hkey, rfl⟩

theorem permits_touches : Permits (Touches F) F fun _ => True where
  aside hd _ hm _ := .of_db hd hm
  trans := Touches.trans
  abort := ⟨.abort, rfl⟩
  put hkey hfree := .put hkey hfree
  metrics _ _ := .of_db rfl rfl

/-! ### Statements -/

theorem writes_cacheWrite (f : Cache → Cache) :
    Confined (Writes F) AnyError (cacheWrite f) := by
  apply takes_stmt
  intro t ch w r w' hs
  cases hs
  split <;> exact .of_db rfl rfl

theorem writes_transaction : CoversTransaction (Writes F) where
  start := by
    apply takes_stmt
    intro t ch w r w' hs
    dsimp only at hs
    split at hs
    · cases hs
      exact .of_db rfl rfl
    · cases hs
      exact ⟨.begin, rfl⟩
  commit := by
    apply takes_stmt
    intro t ch w r w' hs
    dsimp only at hs
    split at hs
    · cases hs
      exact ⟨.rollback, rfl⟩
    · cases hs
      exact ⟨.commit, rfl⟩
  rollback := by
    apply takes_stmt
    intro t ch w r w' hs
    cases hs
    exact ⟨.rollback, rfl⟩

theorem writes_reads : CoversReads (Writes F) AnyError :=
  permits_touches.coversReads writes_cacheWrite

/-! ### Requests -/

/-- The table of any row but an inbox row. -/
abbrev NotInbox (key : Key) : Prop := key.inInbox = false

section

-- everything but the inbox may be written
variable (hF : ∀ key, NotInbox key → F key)
include hF

theorem writes_covers : Covers (Writes F) AnyError F :=
  permits_touches.covers (fun _ => hF _ rfl) (fun _ => hF _ rfl) (fun _ => hF _ rfl)
    (fun _ => trivial) fun _ => writes_cacheWrite _

theorem writes_gateway : CoversGateway (Writes F) AnyError :=
  permits_touches.coversGateway (fun _ => hF _ rfl) fun _ => trivial

theorem writes_createOrder (u : UserId) (lines : List OrderLine) :
    Confined (Writes F) AnyError (createOrder u lines) := by
  apply confined_bind
  · apply writes_transaction.transaction
    apply confined_bind
    · apply confined_bind
      · apply permits_touches.insertFresh
        intro _
        exact hF _ rfl
      · intro _
        exact confined_pure
    · intro created
      apply confined_bind
      · apply permits_touches.updateRow
        exact hF _ rfl
      · intro _
        apply confined_bind ((writes_covers hF).enqueue _ _)
        intro _
        exact confined_pure
  · intro order
    apply confined_bind ((writes_covers hF).record _)
    intro _
    apply confined_bind (writes_cacheWrite _)
    intro _
    exact confined_pure

theorem writes_initiatePayment (id : OrderId) (u : UserId) :
    Confined (Writes F) AnyError (initiatePayment id u) := by
  apply confined_bind (writes_reads.getOrderForUser id u)
  intro order
  apply confined_ite
  · intro _
    exact confined_throw trivial
  · intro _
    apply confined_bind
    · apply writes_transaction.transaction
      apply confined_bind
      · apply permits_touches.updateRow
        exact hF _ rfl
      · intro affected
        apply confined_ite
        · intro _
          exact confined_pure
        · intro _
          apply confined_bind ((writes_covers hF).enqueue _ _)
          intro _
          exact confined_pure
    · intro claimed
      apply confined_ite
      · intro _
        exact confined_throw trivial
      · intro _
        apply confined_bind
        · apply takes_stmt
          intro t ch w r w' hs
          cases hs
          exact .of_db rfl rfl
        · intro now
          apply confined_bind (writes_cacheWrite _)
          intro _
          exact confined_pure

theorem writes_cancelOrder (id : OrderId) (u : UserId) :
    Confined (Writes F) AnyError (cancelOrder id u) := by
  apply confined_bind (writes_reads.getOrderForUser id u)
  intro order
  apply confined_ite
  · intro _
    exact confined_throw trivial
  · intro _
    apply confined_bind
    · apply permits_touches.updateRow
      exact hF _ rfl
    · intro affected
      apply confined_ite
      · intro _
        exact confined_throw trivial
      · intro _
        apply confined_bind
        · apply confined_ite
          · intro _
            exact (writes_covers hF).stock.restoreStock id _
          · intro _
            exact confined_pure
        · intro _
          apply confined_bind ((writes_covers hF).record _)
          intro _
          apply confined_bind (writes_cacheWrite _)
          intro _
          exact confined_pure

/-- Only deliveries write the inbox. -/
theorem writes_respond {k : Request} (hk : ∀ m, k ≠ .deliver m) :
    Confined (Writes F) AnyError (respond k) := by
  cases k with
  | createOrder u lines =>
    apply confined_bind (writes_createOrder hF u lines)
    intro _
    exact confined_pure
  | listOrdersForUser u =>
    apply confined_bind (writes_reads.listOrdersForUser u)
    intro _
    exact confined_pure
  | getOrderForUser id u =>
    apply confined_bind (writes_reads.getOrderForUser id u)
    intro _
    exact confined_pure
  | initiatePayment id u =>
    apply confined_bind (writes_initiatePayment hF id u)
    intro _
    exact confined_pure
  | cancelOrder id u =>
    apply confined_bind (writes_cancelOrder hF id u)
    intro _
    exact confined_pure
  | deliver m => exact absurd rfl (hk m)
  | replenishLowStock =>
    apply confined_bind ((permits_touches.coversReplenishment (fun _ => hF _ rfl) fun _ _ => trivial).replenishLowStock)
    intro _
    exact confined_pure

end

/-- No call publishes anything: that is for the relay. -/
theorem writes_call (hF : ∀ key, F key) (k : Request) : Confined (Writes F) AnyError (respond k) := by
  have hnot : ∀ key, NotInbox key → F key := fun key _ => hF key
  have hinbox : CoversInbox (Writes F) :=
    permits_touches.coversInbox writes_transaction (fun _ _ => hF _) fun _ => trivial
  by_cases hk : ∃ m, k = .deliver m
  · obtain ⟨m, rfl⟩ := hk
    apply confined_bind (hinbox.handle (writes_covers hnot) (writes_gateway hnot) m)
    intro _
    exact confined_pure
  · exact writes_respond hnot fun m hm => hk ⟨m, hm⟩

end OrderLifecycle.Pipeline

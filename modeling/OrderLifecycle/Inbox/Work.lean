import OrderLifecycle.Confinement
import OrderLifecycle.Database.Sql

open Framework

namespace OrderLifecycle

/-! ### Work that acts through the given manager -/

def Key.inInbox : Key → Bool
  | .inbox _ _ => true
  | _ => false

/-- A step inside the open transaction of `t` that leaves the inbox table alone. -/
structure Within (t : Tid) (w w' : World) : Prop where
  same : w.db.SameCommitted w'.db
  others : ∀ t', t' ≠ t → w'.db.txns t' = w.db.txns t'
  own : ∀ tx, w.db.txns t = some tx → ∃ tx', w'.db.txns t = some tx' ∧
    ∀ key, key.inInbox = true → tx'.writes key = tx.writes key

/-- In a transaction the statement is such a step. -/
def Managed (β : Type) (f : Stmt World Choice β) : Prop :=
  ∀ t ch w b w', w.db.txns t ≠ none → f t ch w = some (b, w') → Within t w w'

/-- A work function for the inbox: whatever it does goes through the manager it is given, and
none of its errors is about the inbox table. -/
structure InboxWork (α : Type) where
  run : Service α
  managed : Confined Managed (fun e => isInboxDuplicate e = false) run

variable {t : Tid} {w w' : World} {α β : Type} {key : Key}

theorem Within.of_db (h : w'.db = w.db) : Within t w w' := by
  refine ⟨?_, fun t' _ => by rw [h], fun tx htx => ⟨tx, by rw [h, htx], fun _ _ => rfl⟩⟩
  rw [h]
  exact .refl

theorem Within.abort : Within t w { w with db := w.db.abort t } := by
  refine ⟨Store.abort_same, Store.abort_frame.txns, fun tx htx => ⟨{ tx with aborted := true }, ?_, ?_⟩⟩
  · rw [Store.abort_txn, htx]
    rfl
  · exact fun _ _ => rfl

theorem Within.trans {w'' : World} (h : Within t w w') (h' : Within t w' w'') :
    Within t w w'' := by
  refine ⟨⟨h'.same.1.trans h.same.1, h'.same.2.trans h.same.2⟩,
    fun t' ht' => (h'.others t' ht').trans (h.others t' ht'), fun tx htx => ?_⟩
  obtain ⟨tx', htx', hkeys⟩ := h.own tx htx
  obtain ⟨tx'', htx'', hkeys'⟩ := h'.own tx' htx'
  exact ⟨tx'', htx'', fun key hk => (hkeys' key hk).trans (hkeys key hk)⟩

theorem Within.put {v : Option (Row key)} {js : List (Tid × Deed)} (hfree : w.db.Free t key)
    (htx : w.db.txns t ≠ none) (hkey : key.inInbox = false)
    (hdb : w'.db = w.db.put t key v js hfree) :
    Within t w w' := by
  obtain ⟨tx, htx⟩ := Option.ne_none_iff_exists'.mp htx
  obtain ⟨hsame, htx'⟩ := Store.put_txn v js hfree htx
  refine ⟨hdb ▸ hsame, fun t' ht' => ?_, fun tx' h' => ?_⟩
  · rw [hdb]
    exact Store.put_frame.txns t' ht'
  · obtain rfl : tx = tx' := Option.some.inj (htx.symm.trans h')
    refine ⟨_, by rw [hdb, htx'], fun key' hk => ?_⟩
    have hne : key' ≠ key := by
      rintro rfl
      rw [hkey] at hk
      cases hk
    exact Function.update_of_ne hne ..

/-! ### The statements that such work is made of -/

theorem managed_sql {f : Tid → Choice → World → Option (Except AppError β × World)}
    (h : ∀ t ch w r w', w.db.txns t ≠ none → f t ch w = some (r, w') → Within t w w')
    (herr : ∀ t ch w e w', f t ch w = some (.error e, w') → isInboxDuplicate e = false) :
    Confined Managed (fun e => isInboxDuplicate e = false) (sql f) := by
  apply confined_stmt
  · intro t ch w r w' htx hf
    rcases sql_cases hf with ⟨-, -, rfl⟩ | ⟨-, -, -, rfl⟩ |
      ⟨-, -, ⟨b, rfl, hf'⟩ | ⟨e, w₁, rfl, hf', rfl⟩⟩
    · exact .of_db rfl
    · exact .abort
    · exact h t ch w _ w' htx hf'
    · exact (h t ch w _ w₁ htx hf').trans .abort
  · intro t ch w e w' hf
    rcases sql_cases hf with ⟨-, he, -⟩ | ⟨-, -, he, -⟩ |
      ⟨-, -, ⟨b, he, -⟩ | ⟨e', w₁, he, hf', -⟩⟩ <;> cases he
    · rfl
    · rfl
    · exact herr t ch w _ w₁ hf'

theorem managed_selectRow (key : Key) :
    Confined Managed (fun e => isInboxDuplicate e = false) (selectRow key) := by
  apply managed_sql
  · intro t ch w r w' _ hf
    cases hf
    exact .of_db rfl
  · intro t ch w e w' hf
    cases hf

theorem managed_updateRow (hkey : key.inInbox = false) (p : Row key → Bool)
    (f : Choice → Row key → Row key) (deeds : Row key → List Deed) :
    Confined Managed (fun e => isInboxDuplicate e = false) (updateRow key p f deeds) := by
  apply managed_sql
  · intro t ch w r w' htx hf
    rcases updateRow_cases hf with ⟨-, rfl, -⟩ | ⟨-, row, hfree, -, -, rfl⟩
    · exact .of_db rfl
    · exact .put hfree htx hkey rfl
  · intro t ch w e w' hf
    rcases updateRow_cases hf with ⟨he, -⟩ | ⟨he, -⟩ <;> cases he

theorem managed_insertFresh {k : Uuid → Key} (hkey : ∀ id, (k id).inInbox = false)
    (row : Choice → (id : Uuid) → Row (k id)) :
    Confined Managed (fun e => isInboxDuplicate e = false) (insertFresh k row) := by
  apply managed_sql
  · intro t ch w r w' htx hf
    obtain ⟨-, -, hfree, rfl⟩ := insertFresh_cases hf
    exact .put hfree htx (hkey _) rfl
  · intro t ch w e w' hf
    obtain ⟨he, -⟩ := insertFresh_cases hf
    cases he

theorem managed_record (f : Nat → List Metric) :
    Confined Managed (fun e => isInboxDuplicate e = false) (record f) := by
  apply confined_stmt
  · intro t ch w r w' _ hf
    cases hf
    exact .of_db rfl
  · intro t ch w e w' hf
    cases hf

theorem managed_cacheDel (keys : List CacheKey) :
    Confined Managed (fun e => isInboxDuplicate e = false) (cacheDel keys) := by
  apply confined_stmt
  · intro t ch w r w' _ hf
    cases hf
    apply Within.of_db
    split <;> rfl
  · intro t ch w e w' hf
    cases hf

/-! ### The work of the consumers -/

theorem managed_covers :
    Covers Managed (fun e => isInboxDuplicate e = false) fun key => key.inInbox = false where
  selectRow := managed_selectRow
  updateRow := managed_updateRow
  insertFresh := managed_insertFresh
  record := managed_record
  cacheDel := managed_cacheDel
  order _ := rfl
  product _ := rfl
  outbox _ := rfl
  notFound _ := rfl
  conflict _ := rfl
  insufficientStock _ := rfl

def InboxWork.reserve (event : OrderCreatedEvent) : InboxWork (Option ProductId) where
  run := reserveWork event
  managed := managed_covers.reserveWork event

def InboxWork.advance (event : InventoryReservedEvent) (result : PaymentResult) : InboxWork Unit where
  run := OrderLifecycle.advance event result
  managed := managed_covers.advance event result

def InboxWork.complete (event : PaymentProcessedEvent) : InboxWork Unit where
  run := completeWork event
  managed := managed_covers.completeWork event

end OrderLifecycle

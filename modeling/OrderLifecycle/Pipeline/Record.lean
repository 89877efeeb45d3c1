import OrderLifecycle.Inbox.ExactlyOnce
import OrderLifecycle.Lifecycle.Runs
import OrderLifecycle.Pipeline.Footprint

open Framework

namespace OrderLifecycle.Pipeline

/-! ### What a delivery records -/

/-- The consumer whose queue the event is routed to. -/
def consumerOf : OrderEvent → Consumer
  | .created _ => .inventory
  | .inventoryReserved _ => .payment
  | .paymentProcessed _ => .completion
  | .completed _ => email
  | .failed _ => email

/-- What this consumer may move the order to; email moves no order. -/
def outcomes : OrderEvent → List OrderStatus
  | .created _ => [.reserved, .failed]
  | .inventoryReserved _ => [.paid, .failed]
  | .paymentProcessed _ => [.completed]
  | .completed _ => []
  | .failed _ => []

/-- The consumer has recorded the message. -/
def Filed (id : Uuid) (c : Consumer) (w : World) : Prop := w.db.rows (.inbox id c) ≠ none

/-- The order of the event is at one of its outcomes, if it has any. -/
def Moved (e : OrderEvent) (w : World) : Prop :=
  outcomes e ≠ [] → ∃ row, w.order e.orderId = some row ∧ row.status ∈ outcomes e

/-- Inbox rows stay, and a new one is that of the delivered message, whose order has moved. -/
structure Files (k : Request) (w w' : World) : Prop where
  kept : ∀ id c, Filed id c w → Filed id c w'
  made : ∀ id c, Filed id c w' → ¬Filed id c w →
    ∃ m, k = .deliver m ∧ m.id = id ∧ consumerOf m.payload = c ∧ Moved m.payload w'

def filingLogic : Logic World Choice Request where
  inv _ := True
  guar t k w w' := w.db.Frame t w'.db ∧ Files k w w'
  envGuar w w' := w'.db = w.db
  choice _ := True

variable {t : Tid} {k : Request} {w w' : World} {α β : Type} {m : OutboxMessageEntity} {c : Consumer}
  {o : OrderId} {l l' : List OrderStatus} {id : Uuid}

theorem Files.of_inbox (h : ∀ id c, w'.db.rows (.inbox id c) = w.db.rows (.inbox id c)) :
    Files k w w' where
  kept id c hf := by rwa [Filed, h id c]
  made id c hf hn := by
    rw [Filed, h id c] at hf
    exact absurd hf hn

theorem Files.of_rows (h : w'.db.rows = w.db.rows) : Files k w w' :=
  .of_inbox fun _ _ => by rw [h]

theorem lasting_filed : filingLogic.Lasting (Filed id c) := by
  intro w w' _ _ hr hf
  rcases hr with ⟨t, k, -, hg⟩ | hd
  · exact hg.kept id c hf
  · have he : w'.db = w.db := hd
    rwa [Filed, he]

theorem stable_own {P : World → Prop}
    (h : ∀ t' (w w' : World), t ≠ t' → w.db.Frame t' w'.db → P w → P w') :
    filingLogic.Stable t P := by
  intro w w' hr hp
  obtain ⟨-, -, ⟨t', k, hne, hf, -⟩ | hd⟩ := hr
  · exact h t' w w' hne.symm hf hp
  · have he : w'.db = w.db := hd
    apply h (t + 1) w w' (Nat.succ_ne_self t).symm _ hp
    rw [he]
    exact .refl

/-! ### The own transaction -/

abbrev Transaction := Txn Row (Tid × Deed)

/-- The transaction of `t` has written no inbox row. -/
def Clear (t : Tid) (w : World) : Prop := w.db.Within NotInbox t

/-- `t` is in a transaction with property `P`. -/
def InTxn (P : Transaction → Prop) (t : Tid) (w : World) : Prop :=
  ∃ tx, w.db.txns t = some tx ∧ P tx

def NoInbox (tx : Transaction) : Prop := ∀ id c, tx.writes (.inbox id c) = none

/-- The transaction is about to move the order, if it is to be moved. -/
def Moves (o : OrderId) (l : List OrderStatus) (tx : Transaction) : Prop :=
  l ≠ [] → ∃ row : OrderEntity, tx.writes (.order o) = some (some row) ∧ row.status ∈ l

/-- Nothing is in the inbox yet. -/
def Working (o : OrderId) (l : List OrderStatus) (tx : Transaction) : Prop :=
  NoInbox tx ∧ Moves o l tx

/-- The message is in the inbox, too. -/
structure Done (id : Uuid) (c : Consumer) (o : OrderId) (l : List OrderStatus) (tx : Transaction) :
    Prop where
  only : ∀ id' c', tx.writes (.inbox id' c') ≠ none → id' = id ∧ c' = c
  inbox : ∃ row, tx.writes (.inbox id c) = some (some row)
  sound : tx.aborted = false
  moves : Moves o l tx

theorem stable_clear : filingLogic.Stable t (Clear t) :=
  stable_own fun _ _ _ hne hf h => h.frame hf hne

theorem stable_inTxn {P : Transaction → Prop} : filingLogic.Stable t (InTxn P t) := by
  apply stable_own
  intro t' w w' hne hf ⟨tx, htx, hp⟩
  exact ⟨tx, (hf.txns t hne).trans htx, hp⟩

theorem InTxn.mono {P Q : Transaction → Prop} (hw : InTxn P t w) (h : ∀ tx, P tx → Q tx) :
    InTxn Q t w := by
  obtain ⟨tx, htx, hp⟩ := hw
  exact ⟨tx, htx, h tx hp⟩

theorem InTxn.clear (hw : InTxn NoInbox t w) : Clear t w := by
  obtain ⟨tx, htx, hn⟩ := hw
  intro tx' htx' key hkey
  cases htx.symm.trans htx'
  cases key with
  | inbox id c => exact hn id c
  | _ => exact absurd rfl hkey

theorem InTxn.not_aborted {P : Transaction → Prop} (hw : InTxn P t w) (ha : w.db.aborted t = false) :
    InTxn (fun tx => P tx ∧ tx.aborted = false) t w := by
  obtain ⟨tx, htx, hp⟩ := hw
  refine ⟨tx, htx, hp, ?_⟩
  simpa [Store.aborted, htx] using ha

theorem InTxn.abort (hw : InTxn NoInbox t w) : InTxn NoInbox t { w with db := w.db.abort t } := by
  obtain ⟨tx, htx, hn⟩ := hw
  refine ⟨{ tx with aborted := true }, ?_, hn⟩
  rw [Store.abort_txn, htx]
  rfl

theorem Moves.weaken {tx : Transaction} (h : Moves o l tx) (hne : l ≠ []) (hl : ∀ s ∈ l, s ∈ l') :
    Moves o l' tx := by
  intro _
  obtain ⟨row, hrow, hst⟩ := h hne
  exact ⟨row, hrow, hl _ hst⟩

theorem Moves.write {tx : Transaction} (h : Moves o l tx) {key : Key} (hkey : .order o ≠ key)
    (v : Option (Row key)) (js : List (Tid × Deed)) : Moves o l (Store.Txn.write tx key v js) := by
  intro hne
  obtain ⟨row, hrow, hst⟩ := h hne
  refine ⟨row, ?_, hst⟩
  rw [Store.write_other v js hkey]
  exact hrow

theorem NoInbox.write {tx : Transaction} (h : NoInbox tx) {key : Key} (hkey : NotInbox key)
    (v : Option (Row key)) (js : List (Tid × Deed)) : NoInbox (Store.Txn.write tx key v js) := by
  intro id c
  have hne : Key.inbox id c ≠ key := by
    rintro rfl
    cases hkey
  rw [Store.write_other v js hne]
  exact h id c

/-! ### Statements of a delivery -/

theorem guar_aside (hd : w'.db = w.db) : filingLogic.guar t k w w' := by
  refine ⟨?_, .of_rows (by rw [hd])⟩
  rw [hd]
  exact .refl

theorem guar_same (hs : w.db.SameCommitted w'.db) (hf : w.db.Frame t w'.db) :
    filingLogic.guar t k w w' := ⟨hf, .of_rows hs.1⟩

theorem guar_footprint (hf : w.db.Footprint NotInbox t w'.db) (hc : Clear t w) :
    filingLogic.guar t k w w' := by
  refine ⟨hf.frame, .of_inbox fun id c => hf.rows hc _ ?_⟩
  intro h
  cases h

/-- Whatever leaves the inbox alone. -/
theorem hoare_clear {x : Service α} (hx : Confined (Writes NotInbox) AnyError x) :
    Hoare filingLogic t k (Clear t) x (fun _ => Clear t) (fun _ => Clear t) := by
  apply hoare_conseq (hx.hoare stable_clear _) (fun _ h => h) (fun _ _ h => h) fun _ _ h => h.2
  intro β f hf ch w b w' _ hc hs
  have hfoot := (hf t ch w b w' hs).db
  exact ⟨trivial, guar_footprint hfoot hc, hfoot.within hc⟩

/-- Whatever goes through the manager of the inbox. -/
theorem hoare_managed {x : Service α} (hx : Confined Managed (fun e => isInboxDuplicate e = false) x) :
    Hoare filingLogic t k (InTxn NoInbox t) x (fun _ => InTxn NoInbox t)
      (fun e w => isInboxDuplicate e = false ∧ InTxn NoInbox t w) := by
  apply hx.hoare stable_inTxn
  intro β f hf ch w b w' _ ⟨tx, htx, hn⟩ hs
  have hin := hf t ch w b w' (by simp [htx]) hs
  obtain ⟨tx', htx', hkeys⟩ := hin.own tx htx
  refine ⟨trivial, guar_same hin.same hin.frame, tx', htx', fun id c => ?_⟩
  rw [hkeys _ rfl]
  exact hn id c

/-- A statement that leaves the database alone and does not fail. -/
theorem keeps_aside {f : Stmt World Choice (Except AppError β)} {P : World → Prop}
    {E : AppError → World → Prop} (hP : filingLogic.Stable t P)
    (h : ∀ w ch r w', f t ch w = some (r, w') → w'.db = w.db ∧ ∃ b, r = .ok b) :
    Hoare filingLogic t k P (stmt f) (fun _ => P) E := by
  apply hoare_stmt hP
  intro w ch r w' _ _ hp hs
  obtain ⟨hd, b, rfl⟩ := h w ch r w' hs
  exact ⟨trivial, guar_aside hd, hP w w' ⟨trivial, trivial, .inr hd⟩ hp⟩

theorem keeps_record {P : World → Prop} {E : AppError → World → Prop}
    (hP : filingLogic.Stable t P) (f : Nat → List Metric) :
    Hoare filingLogic t k P (record f) (fun _ => P) E := by
  apply keeps_aside hP
  intro w ch r w' hs
  cases hs
  exact ⟨rfl, (), rfl⟩

theorem keeps_cacheDel {P : World → Prop} {E : AppError → World → Prop}
    (hP : filingLogic.Stable t P) (keys : List CacheKey) :
    Hoare filingLogic t k P (cacheDel keys) (fun _ => P) E := by
  apply keeps_aside hP
  intro w ch r w' hs
  cases hs
  refine ⟨?_, (), rfl⟩
  split <;> rfl

/-- What is known when the work of a consumer fails. -/
def Spoilt (t : Tid) (e : AppError) (w : World) : Prop :=
  isInboxDuplicate e = false ∧ InTxn NoInbox t w

/-- A statement in the transaction, before the inbox is written. -/
theorem hoare_sqlInTxn {f : Tid → Choice → World → Option (Except AppError β × World)}
    {P : Transaction → Prop} {Q : β → World → Prop} (hP : ∀ tx, P tx → NoInbox tx)
    (hf : ∀ w ch r w', InTxn (fun tx => P tx ∧ tx.aborted = false) t w → f t ch w = some (r, w') →
      w.db.SameCommitted w'.db ∧ w.db.Frame t w'.db ∧ ∃ b, r = .ok b ∧ Q b w') :
    Hoare filingLogic t k (InTxn P t) (sql f) Q (Spoilt t) := by
  apply hoare_stmt stable_inTxn
  intro w ch r w' _ _ hp hs
  have hno := hp.mono hP
  rcases sql_cases hs with ⟨-, rfl, rfl⟩ | ⟨-, -, rfl, rfl⟩ | ⟨ha, -, hr⟩
  · exact ⟨trivial, guar_aside rfl, rfl, hno⟩
  · exact ⟨trivial, guar_same Store.abort_same Store.abort_frame, rfl, hno.abort⟩
  · rcases hr with ⟨b, rfl, hs'⟩ | ⟨e, w₁, rfl, hs', -⟩
    · obtain ⟨hsame, hframe, b', hb', hq⟩ := hf w ch _ w' (hp.not_aborted ha) hs'
      cases hb'
      exact ⟨trivial, guar_same hsame hframe, hq⟩
    · obtain ⟨-, -, b', hb', -⟩ := hf w ch _ w₁ (hp.not_aborted ha) hs'
      cases hb'

theorem moves_updateStatus {source target : OrderStatus} :
    Hoare filingLogic t k (InTxn NoInbox t) (updateStatus o source target)
      (fun n w => n = 0 ∧ InTxn NoInbox t w ∨ n = 1 ∧ InTxn (Working o [target]) t w) (Spoilt t) := by
  apply hoare_sqlInTxn fun _ h => h
  intro w ch r w' hp hs
  rcases updateRow_cases hs with ⟨rfl, rfl, -⟩ | ⟨rfl, row, hfree, -, -, rfl⟩
  · exact ⟨.refl, .refl, 0, rfl, .inl ⟨rfl, hp.mono fun _ h => h.1⟩⟩
  · obtain ⟨tx, htx, hn, -⟩ := hp
    obtain ⟨hsame, htx'⟩ := Store.put_txn _ _ hfree htx
    refine ⟨hsame, Store.put_frame (h := hfree), 1, rfl, .inr ⟨rfl, _, htx', hn.write rfl _ _, ?_⟩⟩
    intro _
    exact ⟨_, Store.write_self .., List.mem_singleton.mpr rfl⟩

theorem moves_transitionOrder {target : OrderStatus} :
    Hoare filingLogic t k (InTxn NoInbox t) (transitionOrder o target)
      (fun _ => InTxn (Working o [target]) t) (Spoilt t) := by
  apply hoare_bind
  · exact hoare_managed (managed_selectRow _)
  · intro order
    cases (order : Option OrderEntity) with
    | none => exact hoare_throw fun _ h => ⟨rfl, h⟩
    | some order =>
      apply hoare_ite
      · intro _
        exact hoare_throw fun _ h => ⟨rfl, h⟩
      · intro _
        apply hoare_bind moves_updateStatus
        intro n
        apply hoare_ite
        · intro hn
          apply hoare_throw
          intro w hw
          rcases hw with ⟨-, hw⟩ | ⟨h1, -⟩
          · exact ⟨rfl, hw⟩
          · omega
        · intro hn
          apply hoare_pre (P := InTxn (Working o [target]) t)
          · intro w hw
            rcases hw with ⟨h0, -⟩ | ⟨-, hw⟩
            · exact absurd h0 hn
            · exact hw
          · apply hoare_bind (keeps_record stable_inTxn _)
            intro _
            apply hoare_bind (keeps_cacheDel stable_inTxn _)
            intro _
            exact hoare_pure fun _ h => h

theorem working_insertFresh {key : Uuid → Key} (hkey : ∀ id, NotInbox (key id) ∧ .order o ≠ key id)
    (row : Choice → (id : Uuid) → Row (key id)) :
    Hoare filingLogic t k (InTxn (Working o l) t) (insertFresh key row)
      (fun _ => InTxn (Working o l) t) (Spoilt t) := by
  apply hoare_sqlInTxn fun _ h => h.1
  intro w ch r w' hp hs
  obtain ⟨rfl, -, hfree, rfl⟩ := insertFresh_cases hs
  obtain ⟨tx, htx, ⟨hn, hm⟩, -⟩ := hp
  obtain ⟨hsame, htx'⟩ := Store.put_txn _ _ hfree htx
  obtain ⟨hinbox, horder⟩ := hkey ch.fresh
  exact ⟨hsame, Store.put_frame (h := hfree), _, rfl, _, htx', hn.write hinbox _ _,
    hm.write horder _ _⟩

theorem working_enqueue {key : RoutingKey} {payload : OrderEvent} :
    Hoare filingLogic t k (InTxn (Working o l) t) (enqueue key payload)
      (fun _ => InTxn (Working o l) t) (Spoilt t) := by
  apply hoare_bind
  · apply working_insertFresh
    intro id
    exact ⟨rfl, by simp⟩
  · intro _
    exact hoare_pure fun _ h => h

/-! ### The work of the consumers -/

theorem weaken {target : OrderStatus} (h : InTxn (Working o [target]) t w) (hl : target ∈ l) :
    InTxn (Working o l) t w := by
  apply h.mono
  intro tx hw
  refine ⟨hw.1, hw.2.weaken (List.cons_ne_nil _ _) fun s hs => ?_⟩
  rw [List.mem_singleton.mp hs]
  exact hl

/-- The work of a consumer moves its order to an outcome of the event, or fails. -/
def Works (t : Tid) (k : Request) (e : OrderEvent) (work : Service α) : Prop :=
  Hoare filingLogic t k (InTxn NoInbox t) work (fun _ => InTxn (Working e.orderId (outcomes e)) t)
    (Spoilt t)

theorem works_reserve (e : OrderCreatedEvent) : Works t k (.created e) (reserveWork e) := by
  apply hoare_tryCatch (E := Spoilt t)
  · apply hoare_bind (hoare_managed (managed_covers.stock.reserveLines e.orderId e.items []))
    intro _
    apply hoare_bind moves_transitionOrder
    intro _
    apply hoare_pure
    intro w hw
    exact weaken hw (by simp [outcomes])
  · intro error
    cases error with
    | insufficientStock p =>
      apply hoare_pre (P := InTxn NoInbox t) (fun _ h => h.2)
      apply hoare_bind moves_transitionOrder
      intro _
      apply hoare_bind working_enqueue
      intro _
      apply hoare_pure
      intro w hw
      exact weaken hw (by simp [outcomes])
    | _ => exact hoare_throw fun _ h => h

theorem works_advance (e : InventoryReservedEvent) (result : PaymentResult) :
    Works t k (.inventoryReserved e) (advance e result) := by
  apply hoare_bind moves_transitionOrder
  intro _
  apply hoare_pre (P := InTxn (Working e.orderId (outcomes (.inventoryReserved e))) t)
  · intro w hw
    apply weaken hw
    cases result.authorized <;> simp [outcomes]
  · apply hoare_ite
    · intro _
      exact working_enqueue
    · intro _
      exact working_enqueue

theorem works_complete (e : PaymentProcessedEvent) :
    Works t k (.paymentProcessed e) (completeWork e) := by
  apply hoare_bind moves_transitionOrder
  intro _
  exact working_enqueue

/-- A notification moves nothing. -/
theorem works_notify {e : OrderEvent} (he : outcomes e = []) :
    Works t k e (pure () : Service Unit) := by
  apply hoare_pure
  intro w hw
  apply hw.mono
  intro tx hn
  refine ⟨hn, ?_⟩
  intro hne
  exact absurd he hne

end OrderLifecycle.Pipeline

import OrderLifecycle.Counters.Calls
import OrderLifecycle.Reads.Calls

open Framework

namespace OrderLifecycle

def Deed.isCancelClaim : Deed → Bool
  | .cancelClaimed .. => true
  | _ => false

/-- `t` has cancelled an order. -/
def claimsCancel (t : Tid) (w : World) : Bool :=
  w.db.journal.any fun x => x.1 == t && x.2.isCancelClaim

/-- `t` had cancelled an order after one of its statements. -/
def Claimant (t : Tid) (h : Past World) : Prop := ∃ x ∈ h, claimsCancel t x.2 = true

/-- An order is cancelled and not counted yet. -/
def Uncounted (t : Tid) : Assertion :=
  fun h w => Closed t (fun b => -unit .cancelled b) h w ∧ Claimant t h

variable {t : Tid} {k : Request} {h : Past World} {w w' : World} {α : Type}
  {E : AppError → Assertion}

theorem Claimant.snoc (hc : Claimant t h) (x : World × World) : Claimant t (h ++ [x]) := by
  obtain ⟨y, hy, hclaim⟩ := hc
  exact ⟨y, List.mem_append_left _ hy, hclaim⟩

theorem steady_uncounted : Steady t (Uncounted t) where
  stable h w w' hr hp := ⟨steady_closed.stable h w w' hr hp.1, hp.2⟩
  neutral h w w' hn hp := ⟨steady_closed.neutral h w w' hn hp.1, hp.2.snoc _⟩

/-! ### Calls of users -/

/-- A transaction that makes no order terminal. -/
theorem tallies_neutral_transaction {work : Service α} (hwork : Confined NeutralStmt AnyError work) :
    Tallies t k (Tallied t) (transaction work) (fun _ => Tallied t) fun _ => Tallied t := by
  have hquiet := tallies_neutral (t := t) (k := k) hwork
    (steady_opened (g := unit .pending) (d := counted .pending))
  have hplace := tallies_transaction (f := fun _ => .pending)
    (tallies_raise hquiet fun _ _ _ hp => ⟨.pending, hp⟩)
  rw [owed_pending] at hplace
  exact hplace

theorem tallies_createOrder (u : UserId) (lines : List OrderLine) :
    Tallies t k (Tallied t) (createOrder u lines) (fun _ => Tallied t) fun _ => Tallied t := by
  apply tallies_bind
  · apply tallies_neutral_transaction
    apply confined_bind (neutral_insertOrder u)
    intro created
    apply confined_bind (neutral_saveItems _ _)
    intro _
    apply confined_bind (neutral_enqueue _ _)
    intro _
    exact confined_pure
  · intro order
    apply tallies_bind
    · exact tallies_neutral (permits_neutral.recordMetric _ fun b => by cases b <;> rfl) steady_closed
    · intro _
      apply tallies_bind (tallies_cacheDel steady_closed _)
      intro _
      exact tallies_pure fun _ _ hp => hp

theorem tallies_initiatePayment (id : OrderId) (u : UserId) :
    Tallies t k (Tallied t) (initiatePayment id u) (fun _ => Tallied t) fun _ => Tallied t := by
  apply tallies_bind (tallies_neutral (neutral_reads.getOrderForUser id u) steady_closed)
  intro order
  apply tallies_ite
  · intro _
    exact tallies_throw fun _ _ hp => hp
  · intro _
    apply tallies_bind
    · apply tallies_neutral_transaction
      apply confined_bind (neutral_claimPayment id)
      intro affected
      apply confined_ite
      · intro _
        exact confined_pure
      · intro _
        apply confined_bind (neutral_enqueue _ _)
        intro _
        exact confined_pure
    · intro claimed
      apply tallies_ite
      · intro _
        exact tallies_throw fun _ _ hp => hp
      · intro _
        have hclock : Confined NeutralStmt AnyError initiatePayment.clock := by
          apply takes_stmt
          intro t ch w r w' hs
          cases hs
          exact .of_db rfl fun _ => rfl
        apply tallies_bind (tallies_neutral hclock steady_closed)
        intro now
        apply tallies_bind (tallies_cacheDel steady_closed _)
        intro _
        exact tallies_pure fun _ _ hp => hp

theorem tallies_claimCancel (o : OrderId) (seen : OrderStatus) :
    Tallies t k (Tallied t) (claimCancel o seen)
      (fun n => if n = 0 then Tallied t else Uncounted t) fun _ => Tallied t := by
  apply tallies_updateRow steady_closed
  · intro h w hp
    have hsame : Neutral t w w := .of_db rfl fun _ => rfl
    exact steady_closed.neutral h w w hsame hp
  · intro h w ch row hfree hp hv hrow
    have hopen : isTerminalStatus (OrderEntity.status row) = false := by
      have hst : OrderEntity.status row = .pending ∨ OrderEntity.status row = .reserved := by
        simp only [Bool.or_eq_true, Bool.and_eq_true, beq_iff_eq] at hrow
        exact hrow.imp id fun hres => hres.1
      obtain hst | hst := hst
      · rw [hst]
        rfl
      · rw [hst]
        rfl
    let moved : OrderEntity :=
      { (row : OrderEntity) with status := .cancelled, updatedAt := .date ch.now }
    let deeds : List (Tid × Deed) := [(t, .cancelClaimed o seen (OrderEntity.status row))]
    obtain ⟨hrows, hjournal, htxns⟩ := Store.put_idle (k := .order o) (some moved) deeds hfree hp.idle
    refine ⟨⟨(congrFun htxns t).trans hp.idle, ?_⟩, ?_⟩
    · intro b
      have hold : ∀ old : OrderEntity, w.db.rows (.order o) = some old →
          isTerminalStatus old.status = false := by
        intro old hold
        rw [Store.view_idle hp.idle] at hv
        cases hv.symm.trans hold
        exact hopen
      have hup : ((b.orders (Function.update w.db.rows (.order o) (some moved))).ncard : Int) =
          (b.orders w.db.rows).ncard + unit .cancelled b :=
        ncard_update (rows_finite b w) hold
      have hb : imbalance b { w with db := w.db.put t (.order o) (some moved) deeds hfree } =
          imbalance b w - unit .cancelled b := by
        simp only [imbalance, hrows, hup]
        omega
      rw [drift_snoc]
      refine (congrArg (fun x => _ + (x - _)) hb).trans ?_
      rw [hp.drift]
      omega
    · refine ⟨_, List.mem_append_right _ (List.mem_singleton.mpr rfl), ?_⟩
      have hmem : (t, Deed.cancelClaimed o seen (OrderEntity.status row)) ∈
          (w.db.put t (.order o) (some moved) deeds hfree).journal := by
        rw [hjournal]
        exact List.mem_append_right _ (List.mem_singleton.mpr rfl)
      exact List.any_eq_true.mpr ⟨_, hmem, by simp [Deed.isCancelClaim]⟩

/-- A cancel that has returned is counted; one that threw had claimed the order, or has done
nothing. -/
theorem tallies_cancelOrder (id : OrderId) (u : UserId) :
    Tallies t k (Tallied t) (cancelOrder id u) (fun _ => Tallied t)
      fun _ h w => Claimant t h ∨ Tallied t h w := by
  apply tallies_bind
  · exact tallies_raise (tallies_neutral (neutral_reads.getOrderForUser id u) steady_closed)
      fun _ _ _ hp => .inr hp
  intro order
  apply tallies_ite
  · intro _
    exact tallies_throw fun _ _ hp => .inr hp
  · intro _
    apply tallies_bind (tallies_raise (tallies_claimCancel id _) fun _ _ _ hp => .inr hp)
    intro affected
    apply tallies_ite
    · intro hnone
      rw [if_pos hnone]
      exact tallies_throw fun _ _ hp => .inr hp
    · intro hone
      rw [if_neg hone]
      have hrestore (c : Prop) [Decidable c] (lines : List StockLine) :
          Confined NeutralStmt AnyError
            (if c then restoreStock id lines else (return () : Service Unit)) := by
        apply confined_ite
        · intro _
          exact neutral_stock.restoreStock _ _
        · intro _
          exact confined_pure
      apply tallies_bind
      · exact tallies_raise (tallies_neutral (hrestore _ _) steady_uncounted)
          fun _ _ _ hp => .inl hp.2
      · intro _
        apply tallies_bind (Q := fun _ => Tallied t)
        · have hcount := tallies_record_closed (t := t) (k := k)
            (d := fun b => -unit .cancelled b) (n := unit .cancelled)
            (f := fun _ => [.terminalState "cancelled"])
            (E := fun _ h w => Claimant t h ∨ Tallied t h w)
            fun _ b => by cases b <;> decide
          simp only [neg_add_cancel] at hcount
          exact tallies_conseq hcount (fun _ _ hp => hp.1) (fun _ _ _ hq => hq) fun _ _ _ he => he
        · intro _
          apply tallies_bind (tallies_cacheDel steady_closed _)
          intro _
          exact tallies_pure fun _ _ hp => hp

/-! ### The order system -/

/-- What a call that has returned says of the counters. -/
def Reports (t : Tid) (k : Request) (r : Except AppError Reply) (h : Past World) : Prop :=
  Sane t h → (∀ b, h.drift (imbalance b) = 0) ∨
    (∃ id u e, k = .cancelOrder id u ∧ r = .error e) ∧ Claimant t h

theorem wpPast_reports {x : Service α} {f : α → Reply}
    (hx : Tallies t k (Tallied t) x (fun _ => Tallied t) fun _ => Tallied t) (hidle : Idle t w) :
    wpPast readLogic (fun _ _ _ => True) t k (x >>= fun a => pure (f a) : Service Reply).run
      (fun r h _ => Reports t k r h) [] w := by
  have hall := tallies_bind (f := fun a => (pure (f a) : Service Reply)) hx
    fun _ => tallies_pure (Q := fun _ => Tallied t) fun _ _ hp => hp
  apply wpPast_mono _ (hall [] w fun _ => ⟨hidle, fun _ => rfl⟩)
  intro r h w hr hsane
  cases r with
  | ok _ => exact .inl (hr hsane).drift
  | error _ => exact .inl (hr hsane).drift

theorem reported_orderSystem :
    Recalled orderSystem readLogic (fun _ _ _ _ _ => True) Idle fun t k r h _ => Reports t k r h where
  idle_stable _ := stable_read_idle
  post_stable _ _ _ _ := .const _
  body t k w _ hidle _ := by
    cases k with
    | createOrder u lines => exact wpPast_reports (tallies_createOrder u lines) hidle
    | listOrdersForUser u =>
      exact wpPast_reports (tallies_neutral (neutral_reads.listOrdersForUser u) steady_closed) hidle
    | getOrderForUser id u =>
      exact wpPast_reports (tallies_neutral (neutral_reads.getOrderForUser id u) steady_closed) hidle
    | initiatePayment id u => exact wpPast_reports (tallies_initiatePayment id u) hidle
    | cancelOrder id u =>
      have hall := tallies_bind (f := fun order => (pure (.order order) : Service Reply))
        (tallies_cancelOrder (t := t) (k := .cancelOrder id u) id u)
        fun _ => tallies_pure (Q := fun _ => Tallied t) fun _ _ hp => hp
      apply wpPast_mono _ (hall [] w fun _ => ⟨hidle, fun _ => rfl⟩)
      intro r h w hr hsane
      cases r with
      | ok _ => exact .inl (hr hsane).drift
      | error e =>
        obtain hc | hp := hr hsane
        · exact .inr ⟨⟨id, u, e, rfl, rfl⟩, hc⟩
        · exact .inl hp.drift
    | deliver message => exact wpPast_reports (tallies_handle message) hidle
    | replenishLowStock =>
      exact wpPast_reports (f := fun _ => .unit)
        (tallies_neutral neutral_replenishment.replenishLowStock steady_closed) hidle
  env := recalled_orderSystem.env
  crash := recalled_orderSystem.crash

end OrderLifecycle

import OrderLifecycle.Framework.Solo
import OrderLifecycle.Lifecycle.OrderFacts

open Framework

namespace OrderLifecycle.Alone

/-- Nobody has a transaction open. -/
def Idle (w : World) : Prop := ∀ t, w.db.txns t = none

/-- Nothing was committed since `w₀`, and only `t` may have a transaction open. -/
structure Outside (t : Tid) (w₀ w : World) : Prop where
  alone : ∀ t', t' ≠ t → w.db.txns t' = none
  rows : w.db.rows = w₀.db.rows

/-- A statement of `t` has failed. -/
structure Spoilt (t : Tid) (w₀ w : World) : Prop where
  outside : Outside t w₀ w
  aborted : w.db.aborted t = true

/-- In its transaction `t` sees the rows `V`. -/
structure Within (t : Tid) (w₀ : World) (V : Rows) (w : World) : Prop where
  outside : Outside t w₀ w
  txn : ∃ tx, w.db.txns t = some tx ∧ tx.aborted = false
  view : w.db.view t = V

variable {w₀ w : World} {t : Tid} {ch : Nat → Choice} {dies : Option Nat} {D : Nat → World → Prop}
  {i : Nat} {V : Rows} {α : Type}

theorem Within.clean (h : Within t w₀ V w) : w.db.aborted t = false := by
  obtain ⟨tx, htx, ha⟩ := h.txn
  simp [Store.aborted, htx, ha]

theorem Within.free (h : Within t w₀ V w) (k : Key) : w.db.Free t k :=
  Store.free_of_others h.outside.alone k

theorem Within.abort (h : Within t w₀ V w) : Spoilt t w₀ { w with db := w.db.abort t } where
  outside :=
    { alone := fun t' ht' => (Store.abort_frame.txns t' ht').trans (h.outside.alone t' ht')
      rows := Store.abort_same.1.trans h.outside.rows }
  aborted := by
    obtain ⟨tx, htx, -⟩ := h.txn
    simp [Store.aborted, Store.abort_txn, htx]

theorem Within.put {k : Key} (h : Within t w₀ V w) (v : Option (Row k)) (js : List (Tid × Deed)) :
    Within t w₀ (Function.update V k v) { w with db := w.db.put t k v js (h.free k) } := by
  obtain ⟨tx, htx, ha⟩ := h.txn
  obtain ⟨hsame, htx'⟩ := Store.put_txn v js (h.free k) htx
  refine ⟨⟨?_, hsame.1.trans h.outside.rows⟩, ⟨_, htx', ha⟩, ?_⟩
  · have hframe : Store.Frame t w.db (w.db.put t k v js (h.free k)) := Store.put_frame
    intro t' ht'
    exact (hframe.txns t' ht').trans (h.outside.alone t' ht')
  · dsimp only
    rw [Store.put_view, h.view]

theorem Outside.rollback (h : Outside t w₀ w) :
    Idle { w with db := w.db.rollback t } ∧ (w.db.rollback t).rows = w₀.db.rows := by
  refine ⟨?_, h.rows⟩
  intro t'
  by_cases e : t' = t
  · subst e
    exact Store.rollback_txn
  · exact (Store.rollback_frame.txns t' e).trans (h.alone t' e)

/-! ### Statements of a transaction -/

section rules

variable (hD : ∀ j w, Outside t w₀ w → D j w)

include hD

theorem solo_sql {Q : α → Nat → World → Prop}
    {f : Tid → Choice → World → Option (Except AppError α × World)}
    (h : ∀ w, Within t w₀ V w → ∃ a w', f t (ch i) w = some (.ok a, w') ∧ Q a (i + 1) w') :
    Solo t ch dies D i (Within t w₀ V) (sql f) Q
      fun e _ w => e = .database ∧ (ch i).fail = true ∧ Spoilt t w₀ w := by
  apply solo_stmt
  · intro w hw _
    exact hD i w hw.outside
  · intro w hw
    by_cases hf : (ch i).fail = true
    · exact ⟨.error .database, { w with db := w.db.abort t }, by simp [hw.clean, hf], rfl, hf,
        hw.abort⟩
    · obtain ⟨a, w', hr, hq⟩ := h w hw
      exact ⟨.ok a, w', by simp [hw.clean, hf, hr], hq⟩

/-- After an error every statement fails. -/
theorem solo_spoilt {Q : α → Nat → World → Prop}
    {f : Tid → Choice → World → Option (Except AppError α × World)} :
    Solo t ch dies D i (Spoilt t w₀) (sql f) Q fun e _ w => e = .database ∧ Spoilt t w₀ w := by
  apply solo_stmt
  · intro w hw _
    exact hD i w hw.outside
  · intro w hw
    exact ⟨.error .database, w, by simp [hw.aborted], rfl, hw⟩

theorem solo_selectRow (k : Key) :
    Solo t ch dies D i (Within t w₀ V) (selectRow k)
      (fun row _ w => row = V k ∧ Within t w₀ V w)
      fun e _ w => e = .database ∧ (ch i).fail = true ∧ Spoilt t w₀ w := by
  apply solo_sql hD
  intro w hw
  exact ⟨_, w, rfl, congrFun hw.view k, hw⟩

/-- An `UPDATE` of the row that it finds. -/
theorem solo_updateRow_hit {k : Key} {p : Row k → Bool} {f : Choice → Row k → Row k}
    {deeds : Row k → List Deed} {row : Row k} (hrow : V k = some row) (hp : p row = true) :
    Solo t ch dies D i (Within t w₀ V) (updateRow k p f deeds)
      (fun n _ w => n = 1 ∧ Within t w₀ (Function.update V k (some (f (ch i) row))) w)
      fun e _ w => e = .database ∧ (ch i).fail = true ∧ Spoilt t w₀ w := by
  apply solo_sql hD
  intro w hw
  have hv : w.db.view t k = some row := (congrFun hw.view k).trans hrow
  have hup := Store.update_hit (f (ch i)) (fun row => (deeds row).map (Prod.mk t)) (hw.free k) hv hp
  exact ⟨1, _, by rw [hup]; rfl, rfl, hw.put _ _⟩

/-- An `UPDATE` that finds no row. -/
theorem solo_updateRow_miss {k : Key} {p : Row k → Bool} {f : Choice → Row k → Row k}
    {deeds : Row k → List Deed} (hno : ∀ row, V k = some row → p row = false) :
    Solo t ch dies D i (Within t w₀ V) (updateRow k p f deeds)
      (fun n _ w => n = 0 ∧ Within t w₀ V w)
      fun e _ w => e = .database ∧ (ch i).fail = true ∧ Spoilt t w₀ w := by
  apply solo_sql hD
  intro w hw
  refine ⟨0, w, ?_, rfl, hw⟩
  have hup : w.db.update t k p (f (ch i)) (fun row => (deeds row).map (Prod.mk t)) = some (0, w.db) := by
    unfold Store.update
    rw [hw.view]
    cases hv : V k with
    | none => rfl
    | some row => simp [hno row hv]
  rw [hup]
  rfl

theorem solo_insertRow {k : Key} {table : String} {row : Choice → Row k} (hk : V k = none) :
    Solo t ch dies D i (Within t w₀ V) (insertRow k table row)
      (fun _ _ w => Within t w₀ (Function.update V k (some (row (ch i)))) w)
      fun e _ w => e = .database ∧ (ch i).fail = true ∧ Spoilt t w₀ w := by
  apply solo_sql hD
  intro w hw
  have hins := Store.insert_new (row (ch i)) [] (hw.free k) ((congrFun hw.view k).trans hk)
  exact ⟨(), _, by rw [hins]; rfl, hw.put _ _⟩

theorem solo_insertFresh {k : Uuid → Key} {row : Choice → (id : Uuid) → Row (k id)}
    (hk : V (k (ch i).fresh) = none) :
    Solo t ch dies D i (Within t w₀ V) (insertFresh k row)
      (fun a _ w => a = ⟨(ch i).fresh, row (ch i) (ch i).fresh⟩ ∧
        Within t w₀ (Function.update V (k (ch i).fresh) (some (row (ch i) (ch i).fresh))) w)
      fun e _ w => e = .database ∧ (ch i).fail = true ∧ Spoilt t w₀ w := by
  apply solo_sql hD
  intro w hw
  have hins := Store.insert_new (row (ch i) (ch i).fresh) [] (hw.free _)
    ((congrFun hw.view _).trans hk)
  exact ⟨⟨(ch i).fresh, row (ch i) (ch i).fresh⟩, _, by rw [hins]; rfl, rfl, hw.put _ _⟩

/-- Metrics and cache commands never throw. -/
theorem solo_record (f : Nat → List Metric) :
    Solo t ch dies D i (Within t w₀ V) (record f) (fun _ _ w => Within t w₀ V w)
      fun _ _ _ => False := by
  apply solo_stmt
  · intro w hw _
    exact hD i w hw.outside
  · intro w hw
    exact ⟨.ok (), _, rfl, ⟨hw.outside.alone, hw.outside.rows⟩, hw.txn, hw.view⟩

theorem solo_cacheWrite (f : Cache → Cache) :
    Solo t ch dies D i (Within t w₀ V) (cacheWrite f) (fun _ _ w => Within t w₀ V w)
      fun _ _ _ => False := by
  apply solo_stmt
  · intro w hw _
    exact hD i w hw.outside
  · intro w hw
    by_cases hc : (!w.cacheEnabled || (ch i).fail) = true
    · exact ⟨.ok (), w, by simp only [if_pos hc], hw⟩
    · refine ⟨.ok (), { w with cache := f w.cache }, by simp only [if_neg hc], ?_⟩
      exact ⟨⟨hw.outside.alone, hw.outside.rows⟩, hw.txn, hw.view⟩

/-- A transaction commits what its work leaves it to see, or nothing. -/
theorem solo_transaction {work : Service α} {F : α → Rows → Prop} {E : AppError → Prop}
    (hidle : Idle w₀) (hE : ∀ i, (ch i).fail = true → E .database)
    (hwork : ∀ i, Solo t ch dies D i (Within t w₀ w₀.db.rows) work
      (fun a _ w => ∃ V, F a V ∧ Within t w₀ V w) fun e _ w => E e ∧ Outside t w₀ w) :
    Solo t ch dies D i (fun w => w = w₀) (transaction work)
      (fun a _ w => Idle w ∧ F a w.db.rows)
      fun e _ w => E e ∧ Idle w ∧ w.db.rows = w₀.db.rows := by
  have hstart : Outside t w₀ w₀ := ⟨fun t' _ => hidle t', rfl⟩
  apply solo_tryCatch (E := fun e _ w => E e ∧ Outside t w₀ w)
  · apply solo_bind (Q := fun _ _ => Within t w₀ w₀.db.rows)
    · apply solo_stmt
      · rintro w rfl _
        exact hD i w hstart
      · rintro w rfl
        by_cases hf : (ch i).fail = true
        · exact ⟨.error .database, w, by simp [hf], hE i hf, hstart⟩
        · have htx := Store.begin_txn (hidle t)
          refine ⟨.ok (), { w with db := w.db.begin t }, by simp [hf], ⟨?_, ?_⟩, ⟨_, htx, rfl⟩, ?_⟩
          · intro t' ht'
            exact (Store.begin_frame.txns t' ht').trans (hidle t')
          · exact Store.begin_same.1
          · funext k
            rw [Store.view_txn htx]
            exact congrFun Store.begin_same.1 k
    · intro _ j _
      apply solo_bind (hwork j)
      intro a j _
      apply solo_exists
      intro V
      apply solo_fact
      intro hF
      apply solo_bind (Q := fun _ _ w => Idle w ∧ F a w.db.rows)
      · apply solo_stmt
        · intro w hw _
          exact hD j w hw.outside
        · intro w hw
          by_cases hf : (ch j).fail = true
          · refine ⟨.error .database, { w with db := w.db.rollback t }, by simp [hf], hE j hf, ?_⟩
            obtain ⟨hidle', hrows⟩ := hw.outside.rollback
            exact ⟨fun t' _ => hidle' t', hrows⟩
          · obtain ⟨tx, htx, ha⟩ := hw.txn
            refine ⟨.ok (), { w with db := w.db.commit t }, by simp [hf], ?_, ?_⟩
            · intro t'
              by_cases e : t' = t
              · subst e
                exact Store.commit_txn
              · exact (Store.commit_frame.txns t' e).trans (hw.outside.alone t' e)
            · have hrows : (w.db.commit t).rows = V := (Store.commit_view htx ha).trans hw.view
              exact hrows.symm ▸ hF
      · intro _ j _
        exact solo_pure fun w hw => hw
  · intro e j _
    apply solo_bind (Q := fun _ _ w => E e ∧ Idle w ∧ w.db.rows = w₀.db.rows)
    · apply solo_stmt
      · intro w hw _
        exact hD j w hw.2
      · intro w hw
        exact ⟨.ok (), _, rfl, hw.1, hw.2.rollback⟩
    · intro _ j _
      exact solo_throw fun w hw => hw

end rules

/-! ### Statements that commit by themselves -/

/-- Nobody has a transaction open, and the rows are `V`. -/
structure Settled (V : Rows) (w : World) : Prop where
  idle : Idle w
  rows : w.db.rows = V

theorem Settled.free (h : Settled V w) (k : Key) : w.db.Free t k :=
  Store.free_of_others (fun t' _ => h.idle t') k

theorem Settled.view (h : Settled V w) (k : Key) : w.db.view t k = V k := by
  rw [Store.view_idle (h.idle t), h.rows]

theorem Settled.put {k : Key} (h : Settled V w) (v : Option (Row k)) (js : List (Tid × Deed)) :
    Settled (Function.update V k v) { w with db := w.db.put t k v js (h.free k) } := by
  obtain ⟨hrows, -, htxns⟩ := Store.put_idle v js (h.free k) (h.idle t)
  refine ⟨?_, ?_⟩
  · intro t'
    dsimp only
    rw [htxns]
    exact h.idle t'
  · dsimp only
    rw [hrows, h.rows]

theorem settled_sql {Q : α → Nat → World → Prop}
    {f : Tid → Choice → World → Option (Except AppError α × World)}
    (hd : ∀ w, Settled V w → dies = some i → D i w)
    (h : ∀ w, Settled V w → ∃ a w', f t (ch i) w = some (.ok a, w') ∧ Q a (i + 1) w') :
    Solo t ch dies D i (Settled V) (sql f) (fun a j w => (ch i).fail = false ∧ Q a j w)
      fun e _ w => e = .database ∧ (ch i).fail = true ∧ Settled V w := by
  apply solo_stmt hd
  intro w hw
  have hclean : w.db.aborted t = false := by simp [Store.aborted, hw.idle t]
  by_cases hf : (ch i).fail = true
  · refine ⟨.error .database, { w with db := w.db.abort t }, by simp [hclean, hf], rfl, hf, ?_, ?_⟩
    · intro t'
      by_cases e : t' = t
      · subst e
        dsimp only
        rw [Store.abort_txn, hw.idle t']
        rfl
      · exact (Store.abort_frame.txns t' e).trans (hw.idle t')
    · exact Store.abort_same.1.trans hw.rows
  · obtain ⟨a, w', hr, hq⟩ := h w hw
    exact ⟨.ok a, w', by simp [hclean, hf, hr], Bool.eq_false_iff.mpr hf, hq⟩

theorem settled_selectRow (k : Key) (hd : ∀ w, Settled V w → dies = some i → D i w) :
    Solo t ch dies D i (Settled V) (selectRow k)
      (fun row j w => (ch i).fail = false ∧ row = V k ∧ j = i + 1 ∧ Settled V w)
      fun e _ w => e = .database ∧ (ch i).fail = true ∧ Settled V w := by
  apply settled_sql hd
  intro w hw
  exact ⟨_, w, rfl, hw.view k, rfl, hw⟩

theorem settled_updateRow_hit {k : Key} {p : Row k → Bool} {f : Choice → Row k → Row k}
    {deeds : Row k → List Deed} {row : Row k} (hd : ∀ w, Settled V w → dies = some i → D i w)
    (hrow : V k = some row) (hp : p row = true) :
    Solo t ch dies D i (Settled V) (updateRow k p f deeds)
      (fun n j w => (ch i).fail = false ∧ n = 1 ∧ j = i + 1 ∧
        Settled (Function.update V k (some (f (ch i) row))) w)
      fun e _ w => e = .database ∧ (ch i).fail = true ∧ Settled V w := by
  apply settled_sql hd
  intro w hw
  have hv : w.db.view t k = some row := (hw.view k).trans hrow
  have hup := Store.update_hit (f (ch i)) (fun row => (deeds row).map (Prod.mk t)) (hw.free k) hv hp
  exact ⟨1, _, by rw [hup]; rfl, rfl, rfl, hw.put _ _⟩

theorem settled_updateRow_miss {k : Key} {p : Row k → Bool} {f : Choice → Row k → Row k}
    {deeds : Row k → List Deed} (hd : ∀ w, Settled V w → dies = some i → D i w)
    (hno : V k = none) :
    Solo t ch dies D i (Settled V) (updateRow k p f deeds)
      (fun n j w => (ch i).fail = false ∧ n = 0 ∧ j = i + 1 ∧ Settled V w)
      fun e _ w => e = .database ∧ (ch i).fail = true ∧ Settled V w := by
  apply settled_sql hd
  intro w hw
  refine ⟨0, w, ?_, rfl, rfl, hw⟩
  simp [Store.update, hw.view k, hno]

end OrderLifecycle.Alone

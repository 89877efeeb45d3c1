import OrderLifecycle.Lifecycle.Logic

open Framework

namespace OrderLifecycle

variable {S : Setting} {t : Tid} {k : Request} {w w' : World} {α β : Type}
  {P : World → Prop} {D D' : Draft} {before before' : Option OrderEntity}

/-! ### Statements that commit nothing -/

structure Quiet (t : Tid) (w w' : World) : Prop where
  same : w.db.SameCommitted w'.db
  frame : w.db.Frame t w'.db
  gateway : w'.gateway = w.gateway
  messages : w'.messages = w.messages
  cache : w'.cache = w.cache

theorem Quiet.of_db {db : Db} (hs : w.db.SameCommitted db) (hf : w.db.Frame t db) :
    Quiet t w { w with db := db } :=
  ⟨hs, hf, rfl, rfl, rfl⟩

theorem Quiet.facts (q : Quiet t w w') (o : OrderId) : w'.facts o = w.facts o :=
  facts_congr q.same.1 q.same.2 q.gateway o

theorem Inv.quiet (h : Inv S w) (q : Quiet t w w') (ha : Accounts S.catalog w'.db) :
    Inv S w' ∧ Guar S t k w w' := by
  have hc : Changes S t k w w' := .inl q.facts
  refine ⟨h.next hc ha ?_ q.messages ?_, q.frame, hc⟩
  · rw [q.same.1]
    exact h.outbox
  · rw [q.cache]
    exact h.cache

theorem Inv.abort (h : Inv S w) :
    Inv S { w with db := w.db.abort t } ∧ Guar S t k w { w with db := w.db.abort t } :=
  h.quiet (.of_db Store.abort_same Store.abort_frame) h.accounts.abort

theorem Inv.rollback (h : Inv S w) :
    Inv S { w with db := w.db.rollback t } ∧ Guar S t k w { w with db := w.db.rollback t } :=
  h.quiet (.of_db Store.rollback_same Store.rollback_frame) h.accounts.rollback

/-- A statement on the cache, on the metrics or on nothing at all. -/
theorem hoare_aside {ε : Type} {f : Stmt World Choice (Except ε β)} {R : β → Prop}
    {E : ε → World → Prop} (hP : (orderLogic S).Stable t P)
    (h : ∀ w ch r w', Inv S w → f t ch w = some (r, w') → w'.db = w.db ∧
      w'.gateway = w.gateway ∧ w'.messages = w.messages ∧ w'.cache.Terminal ∧
      ∃ b, r = .ok b ∧ R b) :
    Hoare (orderLogic S) t k P (stmt f) (fun b w => R b ∧ P w) E := by
  refine hoare_stmt hP fun w ch r w' hi _ hp hf => ?_
  obtain ⟨hd, hg, hm, hc, b, rfl, hb⟩ := h w ch r w' hi hf
  have hch : Changes S t k w w' := .inl (facts_congr (by rw [hd]) (by rw [hd]) hg)
  have hi' : Inv S w' := by
    refine hi.next hch ?_ ?_ hm hc
    · rw [hd]
      exact hi.accounts
    · rw [hd]
      exact hi.outbox
  refine ⟨hi', ⟨?_, hch⟩, hb, hP w w' ⟨hi, hi', .inr ⟨hd, hg⟩⟩ hp⟩
  rw [hd]
  exact .refl

theorem hoare_record (hP : (orderLogic S).Stable t P) (f : Nat → List Metric)
    {E : AppError → World → Prop} :
    Hoare (orderLogic S) t k P (record f) (fun _ => P) E := by
  refine hoare_conseq (hoare_aside (R := fun _ => True) hP ?_) (fun _ h => h) (fun _ _ h => h.2)
    (fun _ _ h => h)
  rintro w ch r w' hi ⟨⟩
  exact ⟨rfl, rfl, rfl, hi.cache, (), rfl, trivial⟩

theorem hoare_recordMetric (hP : (orderLogic S).Stable t P) (m : Metric)
    {E : AppError → World → Prop} :
    Hoare (orderLogic S) t k P (recordMetric m) (fun _ => P) E :=
  hoare_record hP _

theorem Cache.Terminal.del {c : Cache} (h : c.Terminal) (key : CacheKey) :
    (c.del key).Terminal := by
  intro o order ho
  cases key with
  | order id =>
    by_cases e : o = id
    · subst e
      simp [Cache.del] at ho
    · simp only [Cache.del, Function.update_of_ne e] at ho
      exact h o order ho
  | userOrders u => exact h o order ho

theorem Cache.Terminal.foldl_del {c : Cache} (h : c.Terminal) (keys : List CacheKey) :
    (keys.foldl Cache.del c).Terminal := by
  induction keys generalizing c with
  | nil => exact h
  | cons key keys ih => exact ih (h.del key)

theorem hoare_cacheWrite (hP : (orderLogic S).Stable t P) {f : Cache → Cache}
    (hf : ∀ c : Cache, c.Terminal → (f c).Terminal) {E : AppError → World → Prop} :
    Hoare (orderLogic S) t k P (cacheWrite f) (fun _ => P) E := by
  refine hoare_conseq (hoare_aside (R := fun _ => True) hP ?_) (fun _ h => h) (fun _ _ h => h.2)
    (fun _ _ h => h)
  rintro w ch r w' hi ⟨⟩
  split
  · exact ⟨rfl, rfl, rfl, hi.cache, (), rfl, trivial⟩
  · exact ⟨rfl, rfl, rfl, hf _ hi.cache, (), rfl, trivial⟩

theorem hoare_cacheDel (hP : (orderLogic S).Stable t P) (keys : List CacheKey)
    {E : AppError → World → Prop} :
    Hoare (orderLogic S) t k P (cacheDel keys) (fun _ => P) E :=
  hoare_cacheWrite hP fun _ h => h.foldl_del keys

theorem hoare_cacheSetUserOrders (hP : (orderLogic S).Stable t P) (u : UserId)
    (orders : List OrderEntity) {E : AppError → World → Prop} :
    Hoare (orderLogic S) t k P (cacheSetUserOrders u orders) (fun _ => P) E := by
  refine hoare_cacheWrite hP ?_
  exact fun _ h => h

/-- Only an order that will not change any more goes into the cache. -/
theorem hoare_cacheSetOrder (hP : (orderLogic S).Stable t P) (id : OrderId) {order : OrderEntity}
    (ht : isTerminalStatus order.status = true) {E : AppError → World → Prop} :
    Hoare (orderLogic S) t k P (cacheSetOrder id order) (fun _ => P) E := by
  refine hoare_cacheWrite hP fun c h o order' ho => ?_
  by_cases e : o = id
  · subst e
    simp only [Cache.setOrder, Function.update_self, Option.some.injEq] at ho
    subst ho
    exact ht
  · simp only [Cache.setOrder, Function.update_of_ne e] at ho
    exact h o order' ho

theorem hoare_cacheGetOrder (hP : (orderLogic S).Stable t P) (id : OrderId)
    {E : AppError → World → Prop} :
    Hoare (orderLogic S) t k P (cacheGetOrder id)
      (fun cached w => (∀ order, cached = some order → isTerminalStatus order.status = true) ∧ P w)
      E := by
  refine hoare_aside (R := fun cached => ∀ order, cached = some order → _) hP ?_
  rintro w ch r w' hi ⟨⟩
  refine ⟨rfl, rfl, rfl, hi.cache, _, rfl, fun order h => ?_⟩
  split at h
  · cases h
  · exact hi.cache id order h

theorem hoare_cacheGetUserOrders (hP : (orderLogic S).Stable t P) (u : UserId)
    {E : AppError → World → Prop} :
    Hoare (orderLogic S) t k P (cacheGetUserOrders u) (fun _ => P) E := by
  refine hoare_conseq (hoare_aside (R := fun _ => True) hP ?_) (fun _ h => h) (fun _ _ h => h.2)
    (fun _ _ h => h)
  rintro w ch r w' hi ⟨⟩
  exact ⟨rfl, rfl, rfl, hi.cache, _, rfl, trivial⟩

theorem hoare_clock (hP : (orderLogic S).Stable t P) {E : AppError → World → Prop} :
    Hoare (orderLogic S) t k P initiatePayment.clock (fun _ => P) E := by
  refine hoare_conseq (hoare_aside (R := fun _ => True) hP ?_) (fun _ h => h) (fun _ _ h => h.2)
    (fun _ _ h => h)
  rintro w ch r w' hi ⟨⟩
  exact ⟨rfl, rfl, rfl, hi.cache, _, rfl, trivial⟩

theorem hoare_mathRandom (hP : (orderLogic S).Stable t P) {E : AppError → World → Prop} :
    Hoare (orderLogic S) t k P mathRandom (fun _ => P) E := by
  refine hoare_conseq (hoare_aside (R := fun _ => True) hP ?_) (fun _ h => h) (fun _ _ h => h.2)
    (fun _ _ h => h)
  intro w ch r w' hi hf
  split at hf
  · cases hf
    exact ⟨rfl, rfl, rfl, hi.cache, _, rfl, trivial⟩
  · cases hf

/-! ### SQL statements -/

/-- A statement fails by itself only where faults are expected, and not at all once the
transaction has failed. -/
theorem hoare_sql {f : Tid → Choice → World → Option (Except AppError β × World)}
    {R : β → World → Prop} {E : AppError → World → Prop} (hP : (orderLogic S).Stable t P)
    (hok : ∀ w, P w → w.db.aborted t = false)
    (hfail : ∀ w, P w → S.faulty → E .database { w with db := w.db.abort t })
    (h : ∀ w ch r w', Inv S w → (orderLogic S).choice ch → P w → f t ch w = some (r, w') →
      match r with
      | .ok a => Inv S w' ∧ Guar S t k w w' ∧ R a w'
      | .error e => w' = w ∧ E e { w with db := w.db.abort t }) :
    Hoare (orderLogic S) t k P (sql f) R E := by
  refine hoare_stmt hP fun w ch r w' hi hc hp hf => ?_
  simp only [hok w hp, Bool.false_eq_true, if_false] at hf
  split at hf
  · next hfault =>
    cases hf
    obtain ⟨hi', hg⟩ := hi.abort (t := t) (k := k)
    refine ⟨hi', hg, hfail w hp ?_⟩
    by_contra hn
    simp [hc.2 hn] at hfault
  · obtain ⟨⟨r', w₁⟩, hf', he⟩ := Option.map_eq_some_iff.mp hf
    have := h w ch r' w₁ hi hc hp hf'
    cases r' with
    | ok a =>
      cases he
      exact this
    | error e =>
      obtain ⟨rfl, hE⟩ := this
      cases he
      obtain ⟨hi', hg⟩ := hi.abort (t := t) (k := k)
      exact ⟨hi', hg, hE⟩

/-- In a transaction that has failed every further statement fails. -/
theorem hoare_sql_doomed {f : Tid → Choice → World → Option (Except AppError β × World)}
    {R : β → World → Prop} :
    Hoare (orderLogic S) t k (Doomed t) (sql f) R (fun e w => e = .database ∧ Doomed t w) := by
  refine hoare_stmt stable_doomed fun w ch r w' hi _ hp hf => ?_
  simp only [hp.aborted, if_true, Option.some.injEq, Prod.mk.injEq] at hf
  obtain ⟨rfl, rfl⟩ := hf
  exact ⟨hi, ⟨.refl, .inl fun _ => rfl⟩, rfl, hp⟩

theorem hoare_selectRow (hP : (orderLogic S).Stable t P) (hidle : ∀ w, P w → Idle t w)
    (key : Key) :
    Hoare (orderLogic S) t k P (selectRow key) (fun v w => P w ∧ Inv S w ∧ v = w.db.rows key)
      (fun _ w => P w ∧ S.faulty) := by
  refine hoare_sql hP (fun w hp => (hidle w hp).not_aborted) (fun w hp hf => ?_) ?_
  · rw [(hidle w hp).abort]
    exact ⟨hp, hf⟩
  · rintro w ch r w' hi - hp ⟨⟩
    exact ⟨hi, ⟨.refl, .inl fun _ => rfl⟩, hp, hi, Store.view_idle (hidle w hp)⟩

theorem hoare_selectAll (hP : (orderLogic S).Stable t P) (hidle : ∀ w, P w → Idle t w)
    (f : (k : Key) → Row k → Option α) :
    Hoare (orderLogic S) t k P (selectAll f) (fun _ => P) (fun _ w => P w ∧ S.faulty) := by
  refine hoare_sql hP (fun w hp => (hidle w hp).not_aborted) (fun w hp hf => ?_) ?_
  · rw [(hidle w hp).abort]
    exact ⟨hp, hf⟩
  · rintro w ch r w' hi - hp ⟨⟩
    exact ⟨hi, ⟨.refl, .inl fun _ => rfl⟩, hp⟩

/-- How statements of a transaction fail. -/
def TxError (t : Tid) (e : AppError) (w : World) : Prop := e = .database ∧ Doomed t w

theorem hoare_sql_staged {f : Tid → Choice → World → Option (Except AppError β × World)}
    {R : β → World → Prop}
    (h : ∀ w ch r w', Inv S w → Staged t D before w → f t ch w = some (r, w') →
      ∃ a, r = .ok a ∧ Inv S w' ∧ Guar S t k w w' ∧ R a w') :
    Hoare (orderLogic S) t k (Staged t D before) (sql f) R (TxError t) := by
  refine hoare_sql stable_staged (fun w hp => hp.not_aborted) (fun w hp _ => ⟨rfl, hp.abort⟩) ?_
  intro w ch r w' hi _ hp hf
  obtain ⟨a, rfl, hr⟩ := h w ch r w' hi hp hf
  exact hr

theorem hoare_selectRow_staged (key : Key) :
    Hoare (orderLogic S) t k (Staged t D before) (selectRow key) (fun _ => Staged t D before)
      (TxError t) := by
  refine hoare_sql_staged fun w ch r w' hi hp hf => ?_
  cases hf
  exact ⟨_, rfl, hi, ⟨.refl, .inl fun _ => rfl⟩, hp⟩

/-! ### Writes in a transaction -/

section staged

variable {key : Key} {v : Option (Row key)} {js : Journal}

theorem Staged.view (h : Staged t D before w) (hk : key.tracked = true) :
    w.db.view t key = (D.writes key).getD (w.db.rows key) := by
  obtain ⟨tx, htx, -, -, hw⟩ := h.txn
  rw [Store.view_txn htx, hw key hk]

/-- Others see nothing of what the transaction writes. -/
theorem Staged.hidden (h : Staged t D before w) (hi : Inv S w) (hfree : w.db.Free t key)
    (ha : Accounts S.catalog (w.db.put t key v js hfree)) :
    Inv S { w with db := w.db.put t key v js hfree } ∧
      Guar S t k w { w with db := w.db.put t key v js hfree } := by
  obtain ⟨tx, htx, -⟩ := h.txn
  exact hi.quiet (.of_db (Store.put_txn _ _ _ htx).1 Store.put_frame) ha

/-- A write of the transaction becomes part of its draft. -/
theorem Staged.put (h : Staged t D before w) (hfree : w.db.Free t key)
    (hw : ∀ k', k'.tracked = true → D'.writes k' = Function.update D.writes key (some v) k')
    (hj : D'.journal = D.journal ++ js)
    (ho : ∀ x ∈ D'.order, w.db.rows (.order x.1) = before')
    (he : ∀ m ∈ D'.event, w.db.rows (.outbox m.id) = none)
    (hi : ∀ x ∈ D'.inbox, w.db.rows (.inbox x.1 x.2.1) = none) :
    Staged t D' before' { w with db := w.db.put t key v js hfree } := by
  obtain ⟨tx, htx, ha, hj', hw'⟩ := h.txn
  obtain ⟨⟨hrows, -⟩, htx'⟩ := Store.put_txn v js hfree htx
  refine ⟨⟨_, htx', ha, by rw [hj, ← hj']; rfl, fun k' hk' => ?_⟩, ?_, ?_, ?_⟩
  · rw [hw k' hk']
    simp only [Store.Txn.write]
    by_cases e : k' = key
    · subst e
      rw [Function.update_self, Function.update_self]
    · rw [Function.update_of_ne e, Function.update_of_ne e, hw' k' hk']
  all_goals rw [hrows]; assumption

end staged

end OrderLifecycle

import OrderLifecycle.Lifecycle.Draft

open Framework

namespace OrderLifecycle

/-- Every product of the catalogue, and no other, has a row, with the stock that the history
accounts for and never less than nothing. -/
def Balanced (c : Catalog) (rows : Rows) (j : Journal) : Prop :=
  ∀ p, (rows (.product p) = none ∧ c.find p = none) ∨
    ∃ row init : ProductEntity, rows (.product p) = some row ∧ c.find p = some init ∧
      row.stock = init.stock + moved j p ∧ 0 ≤ row.stock

/-- The stock a transaction is about to commit is the committed stock, moved by its history. -/
def StagedStock (rows : Rows) (tx : Txn Row (Tid × Deed)) : Prop :=
  ∀ p, (tx.writes (.product p) = none ∧ moved tx.journal p = 0) ∨
    ∃ row row' : ProductEntity, rows (.product p) = some row ∧
      tx.writes (.product p) = some (some row') ∧
      row'.stock = row.stock + moved tx.journal p ∧ 0 ≤ row'.stock

structure Accounts (c : Catalog) (db : Db) : Prop where
  balanced : Balanced c db.rows db.journal
  staged : ∀ t tx, db.txns t = some tx → StagedStock db.rows tx

variable {c : Catalog} {s s' : Db} {t : Tid}

theorem accounts_initial (c : Catalog) (b : Bool) : Accounts c (World.initial c b).db := by
  refine ⟨fun p => ?_, fun t tx h => by cases h⟩
  cases hp : c.find p with
  | none => exact .inl ⟨hp, rfl⟩
  | some row => exact .inr ⟨row, row, hp, rfl, by simp [World.initial, Store.ofRows], c.find_nonneg hp⟩

theorem StagedStock.congr {rows rows' : Rows} {tx : Txn Row (Tid × Deed)}
    (h : StagedStock rows tx)
    (hrows : ∀ p, tx.writes (.product p) ≠ none → rows' (.product p) = rows (.product p)) :
    StagedStock rows' tx := by
  intro p
  rcases h p with hn | ⟨row, row', hr, hw, hs⟩
  · exact .inl hn
  · exact .inr ⟨row, row', (hrows p (by rw [hw]; exact Option.some_ne_none _)).trans hr, hw, hs⟩

/-- A step of `t` has to account for its own transaction and for what it commits. -/
theorem Accounts.frame (h : Accounts c s) (hf : s.Frame t s')
    (hb : Balanced c s'.rows s'.journal)
    (own : ∀ tx, s'.txns t = some tx → StagedStock s'.rows tx) : Accounts c s' := by
  refine ⟨hb, fun t' tx ht => ?_⟩
  by_cases e : t' = t
  · subst e
    exact own tx ht
  · rw [hf.txns t' e] at ht
    exact (h.staged t' tx ht).congr fun p hw => hf.held _ t' e (Store.locked_of_write ht hw)

theorem Accounts.same (h : Accounts c s) (hs : s.SameCommitted s') (hf : s.Frame t s')
    (own : ∀ tx, s'.txns t = some tx → StagedStock s.rows tx) : Accounts c s' :=
  h.frame hf (by rw [hs.1, hs.2]; exact h.balanced) (by rw [hs.1]; exact own)

theorem Accounts.begin (h : Accounts c s) (ht : s.txns t = none) : Accounts c (s.begin t) := by
  refine h.same Store.begin_same Store.begin_frame fun tx htx => ?_
  rw [Store.begin_txn ht] at htx
  cases htx
  exact fun p => .inl ⟨rfl, rfl⟩

theorem Accounts.abort (h : Accounts c s) : Accounts c (s.abort t) := by
  refine h.same Store.abort_same Store.abort_frame fun tx htx => ?_
  rw [Store.abort_txn] at htx
  obtain ⟨tx', htx', rfl⟩ := Option.map_eq_some_iff.mp htx
  exact h.staged t tx' htx'

theorem Accounts.rollback (h : Accounts c s) : Accounts c (s.rollback t) :=
  h.same Store.rollback_same Store.rollback_frame fun tx htx => by simp at htx

theorem Accounts.commit (h : Accounts c s) {tx : Txn Row (Tid × Deed)} (ht : s.txns t = some tx)
    (ha : tx.aborted = false) : Accounts c (s.commit t) := by
  refine h.frame Store.commit_frame (fun p => ?_) fun tx htx => by simp [Store.commit_txn] at htx
  rw [Store.commit_rows ht ha, Store.commit_journal ht ha, moved_append]
  rcases h.staged t tx ht p with ⟨hw, hm⟩ | ⟨row, row', hr, hw, hs, hn⟩
  · rw [hw, hm, Int.add_zero]
    exact h.balanced p
  · rcases h.balanced p with ⟨hr', -⟩ | ⟨r, init, hr', hi, hb, -⟩
    · rw [hr] at hr'
      cases hr'
    · rw [hr] at hr'
      cases hr'
      exact .inr ⟨row', init, by rw [hw]; rfl, hi, by rw [hs, hb, Int.add_assoc], hn⟩

section put

variable {k : Key} {js : Journal}

theorem tracked_ne {k : Key} (hk : k.tracked = true) (p : ProductId) : Key.product p ≠ k := by
  rintro rfl
  cases hk

/-- A write to another table moves no stock. -/
theorem Accounts.put_tracked (h : Accounts c s) {v : Option (Row k)} (hf : s.Free t k)
    (hk : k.tracked = true) (hj : ∀ p, moved js p = 0) : Accounts c (s.put t k v js hf) := by
  cases ht : s.txns t with
  | none =>
    obtain ⟨hr, hj', htx⟩ := Store.put_idle v js hf ht
    refine h.frame Store.put_frame (fun p => ?_) fun tx h' => by simp [htx, ht] at h'
    rw [hr, hj', Function.update_of_ne (tracked_ne hk p), moved_append, hj p, Int.add_zero]
    exact h.balanced p
  | some tx =>
    obtain ⟨hs, htx⟩ := Store.put_txn v js hf ht
    refine h.same hs Store.put_frame fun tx' h' => ?_
    rw [htx] at h'
    cases h'
    intro p
    simp only [Store.Txn.write]
    rw [Function.update_of_ne (tracked_ne hk p), moved_append, hj p, Int.add_zero]
    exact h.staged t tx ht p

/-- A change of the stock of `p` is accounted for by the history that goes with it. -/
theorem Accounts.put_product (h : Accounts c s) {p : ProductId} {row row' : ProductEntity}
    (hf : s.Free t (.product p)) (hv : s.view t (.product p) = some row)
    (hs : row'.stock = row.stock + moved js p) (hn : 0 ≤ row'.stock)
    (hj : ∀ q, q ≠ p → moved js q = 0) : Accounts c (s.put t (.product p) (some row') js hf) := by
  have hne {q : ProductId} (e : q ≠ p) : Key.product q ≠ .product p := by simpa using e
  cases ht : s.txns t with
  | none =>
    obtain ⟨hr, hj', htx⟩ := Store.put_idle (some row') js hf ht
    rw [Store.view_idle ht] at hv
    refine h.frame Store.put_frame (fun q => ?_) fun tx h' => by simp [htx, ht] at h'
    rw [hr, hj', moved_append]
    by_cases e : q = p
    · subst e
      rcases h.balanced q with ⟨hr', -⟩ | ⟨r, init, hr', hi, hb, -⟩
      · rw [hv] at hr'
        cases hr'
      · rw [hv] at hr'
        cases hr'
        refine .inr ⟨row', init, Function.update_self .., hi, ?_, hn⟩
        rw [hs, hb, Int.add_assoc]
    · rw [Function.update_of_ne (hne e), hj q e, Int.add_zero]
      exact h.balanced q
  | some tx =>
    obtain ⟨hsame, htx⟩ := Store.put_txn (some row') js hf ht
    rw [Store.view_txn ht] at hv
    refine h.same hsame Store.put_frame fun tx' h' => ?_
    rw [htx] at h'
    cases h'
    intro q
    simp only [Store.Txn.write]
    rw [moved_append]
    by_cases e : q = p
    · subst e
      rcases h.staged t tx ht q with ⟨hw, hm⟩ | ⟨r, r', hr, hw, hb, -⟩
      · rw [hw] at hv
        exact .inr ⟨row, row', hv, Function.update_self .., by rw [hm, Int.zero_add, hs], hn⟩
      · rw [hw] at hv
        obtain rfl : r' = row := Option.some.inj hv
        exact .inr ⟨r, row', hr, Function.update_self .., by rw [hs, hb, Int.add_assoc], hn⟩
    · rw [Function.update_of_ne (hne e), hj q e, Int.add_zero]
      exact h.staged t tx ht q

end put

/-- What a transaction sees of a product is never negative, and is there if it is on sale. -/
theorem Accounts.view (h : Accounts c s) (t : Tid) (p : ProductId) :
    (s.view t (.product p) = none ∧ c.find p = none) ∨
      ∃ row : ProductEntity, s.view t (.product p) = some row ∧ c.find p ≠ none ∧
        0 ≤ row.stock := by
  have hb : (s.rows (.product p) = none ∧ c.find p = none) ∨
      ∃ row : ProductEntity, s.rows (.product p) = some row ∧ c.find p ≠ none ∧
        0 ≤ row.stock := by
    rcases h.balanced p with hn | ⟨row, init, hr, hi, -, hn⟩
    · exact .inl hn
    · exact .inr ⟨row, hr, by simp [hi], hn⟩
  cases ht : s.txns t with
  | none =>
    rw [Store.view_idle ht]
    exact hb
  | some tx =>
    rw [Store.view_txn ht]
    rcases h.staged t tx ht p with ⟨hw, -⟩ | ⟨r, r', hr, hw, -, hn⟩
    · rw [hw]
      exact hb
    · rcases hb with ⟨hr', -⟩ | ⟨row, -, hi, -⟩
      · rw [hr] at hr'
        cases hr'
      · exact .inr ⟨r', by rw [hw]; rfl, hi, hn⟩

end OrderLifecycle

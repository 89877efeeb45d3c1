import OrderLifecycle.Framework.Program

namespace Framework

/-- An open transaction: the rows it wrote (`some none` for a deleted row), its part of the
history and whether a statement of it has failed. -/
structure Txn {K : Type} (Row : K → Type) (J : Type) where
  writes : (k : K) → Option (Option (Row k))
  journal : List J
  aborted : Bool

/-- A database at READ COMMITTED: committed rows, open transactions and their row locks. A
lock is held exactly on the rows its transaction wrote. `keys` lists every key in use, and
`journal` is a history variable: what the committed writes were for. -/
structure Store {K : Type} (Row : K → Type) (J : Type) where
  keys : List K
  rows : (k : K) → Option (Row k)
  journal : List J
  txns : Tid → Option (Txn Row J)
  locks : K → Option Tid
  nodup : keys.Nodup
  listed : ∀ k, rows k ≠ none ∨ locks k ≠ none → k ∈ keys
  owned : ∀ k t, locks k = some t ↔ ∃ tx, txns t = some tx ∧ tx.writes k ≠ none

namespace Store

variable {K : Type} {Row : K → Type} {J : Type}

/-- A database nobody is connected to. -/
def ofRows (keys : List K) (rows : (k : K) → Option (Row k)) (nodup : keys.Nodup)
    (listed : ∀ k, rows k ≠ none → k ∈ keys) : Store Row J where
  keys := keys
  rows := rows
  journal := []
  txns := fun _ => none
  locks := fun _ => none
  nodup := nodup
  listed := fun k h => h.elim (listed k) fun h => absurd rfl h
  owned := by simp

/-- What a statement of `t` reads: its own uncommitted write, else the committed row. -/
def view (s : Store Row J) (t : Tid) (k : K) : Option (Row k) :=
  match s.txns t with
  | none => s.rows k
  | some tx => (tx.writes k).getD (s.rows k)

/-- No other transaction holds the row. -/
def Free (s : Store Row J) (t : Tid) (k : K) : Prop := s.locks k = none ∨ s.locks k = some t

instance (s : Store Row J) (t : Tid) (k : K) : Decidable (s.Free t k) :=
  inferInstanceAs (Decidable (_ ∨ _))

def Txn.write [DecidableEq K] (tx : Txn Row J) (k : K) (v : Option (Row k)) (js : List J) : Txn Row J :=
  { tx with writes := Function.update tx.writes k (some v), journal := tx.journal ++ js }

private theorem mem_insert_keys [DecidableEq K] (s : Store Row J) (k k' : K) (h : k' = k ∨ k' ∈ s.keys) :
    k' ∈ if k ∈ s.keys then s.keys else s.keys ++ [k] := by
  split <;> rcases h with rfl | h <;> simp_all

private theorem nodup_insert_keys [DecidableEq K] (s : Store Row J) (k : K) :
    (if k ∈ s.keys then s.keys else s.keys ++ [k]).Nodup := by
  split
  · exact s.nodup
  · next h =>
    rw [List.nodup_append]
    exact ⟨s.nodup, by simp, fun a ha b hb e => h (by simp_all)⟩

theorem lock_none_of_idle (s : Store Row J) {t : Tid} {k : K} (ht : s.txns t = none)
    (hf : s.Free t k) : s.locks k = none := by
  rcases hf with h | h
  · exact h
  · obtain ⟨tx, htx, -⟩ := (s.owned k t).mp h
    simp [ht] at htx

/-- Writes row `k` for `t`: at once outside a transaction, else into the transaction, which
takes the row lock. -/
def put [DecidableEq K] (s : Store Row J) (t : Tid) (k : K) (v : Option (Row k)) (js : List J)
    (h : s.Free t k) : Store Row J where
  keys := if k ∈ s.keys then s.keys else s.keys ++ [k]
  rows := match s.txns t with
    | none => Function.update s.rows k v
    | some _ => s.rows
  journal := match s.txns t with
    | none => s.journal ++ js
    | some _ => s.journal
  txns := match s.txns t with
    | none => s.txns
    | some tx => Function.update s.txns t (some (Txn.write tx k v js))
  locks := match s.txns t with
    | none => s.locks
    | some _ => Function.update s.locks k (some t)
  nodup := nodup_insert_keys s k
  listed := by
    intro k' hk
    apply mem_insert_keys
    by_cases e : k' = k
    · exact .inl e
    · right
      apply s.listed
      cases ht : s.txns t <;> simpa [ht, Function.update_of_ne e] using hk
  owned := by
    intro k' t'
    cases ht : s.txns t with
    | none => simpa [ht] using s.owned k' t'
    | some tx =>
      simp only
      by_cases et : t' = t
      · subst et
        by_cases ek : k' = k
        · subst ek
          simp [Txn.write]
        · simpa [Txn.write, Function.update_of_ne ek, ht] using s.owned k' t'
      · by_cases ek : k' = k
        · subst ek
          simp only [Function.update_self, Function.update_of_ne et, Option.some.injEq,
            Ne.symm et, false_iff]
          intro hw
          have hl := (s.owned k' t').mpr hw
          rcases h with h | h <;> rw [h] at hl
          · cases hl
          · exact et (Option.some.inj hl).symm
        · simpa [Function.update_of_ne et, Function.update_of_ne ek] using s.owned k' t'

/-- Opens a transaction for `t`. -/
def begin (s : Store Row J) (t : Tid) : Store Row J :=
  match ht : s.txns t with
  | some _ => s
  | none =>
    { s with
      txns := Function.update s.txns t (some ⟨fun _ => none, [], false⟩)
      owned := by
        intro k t'
        by_cases et : t' = t
        · subst et
          simpa [ht] using (s.owned k t')
        · simpa [Function.update_of_ne et] using s.owned k t' }

/-- Ends the transaction of `t` with rows `rows` and history `journal`; its locks go. -/
private def close (s : Store Row J) (t : Tid) (rows : (k : K) → Option (Row k)) (journal : List J)
    (hrows : ∀ k, rows k ≠ none → k ∈ s.keys) : Store Row J where
  keys := s.keys
  rows := rows
  journal := journal
  txns := Function.update s.txns t none
  locks := fun k => if s.locks k = some t then none else s.locks k
  nodup := s.nodup
  listed := by
    intro k hk
    rcases hk with hk | hk
    · exact hrows k hk
    · apply s.listed k
      right
      intro hn
      simp [hn] at hk
  owned := by
    intro k t'
    by_cases et : t' = t
    · subst et
      by_cases hl : s.locks k = some t' <;> simp [hl]
    · simp only [Function.update_of_ne et]
      rw [← s.owned k t']
      split
      · next hl => simp [hl, Ne.symm et]
      · exact Iff.rfl

def rollback (s : Store Row J) (t : Tid) : Store Row J :=
  s.close t s.rows s.journal fun k h => s.listed k (.inl h)

/-- Commits the transaction of `t`; one with a failed statement is rolled back instead. -/
def commit (s : Store Row J) (t : Tid) : Store Row J :=
  match ht : s.txns t with
  | none => s
  | some tx =>
    if tx.aborted then s.rollback t
    else s.close t (fun k => (tx.writes k).getD (s.rows k)) (s.journal ++ tx.journal) (by
      intro k hk
      apply s.listed k
      cases hw : tx.writes k with
      | none => exact .inl (by simpa [hw] using hk)
      | some v =>
        have hl := (s.owned k t).mpr ⟨tx, ht, by simp [hw]⟩
        exact .inr (by simp [hl]))

/-- After an error every statement of the transaction fails until it is rolled back. -/
def abort (s : Store Row J) (t : Tid) : Store Row J :=
  match ht : s.txns t with
  | none => s
  | some tx =>
    { s with
      txns := Function.update s.txns t (some { tx with aborted := true })
      owned := by
        intro k t'
        by_cases et : t' = t
        · subst et
          simpa [ht] using (s.owned k t')
        · simpa [Function.update_of_ne et] using s.owned k t' }

def aborted (s : Store Row J) (t : Tid) : Bool :=
  match s.txns t with
  | none => false
  | some tx => tx.aborted

/-- `UPDATE … WHERE` on one row: the number of rows changed, `none` while the row matches but
another transaction holds it. -/
def update [DecidableEq K] (s : Store Row J) (t : Tid) (k : K) (p : Row k → Bool) (f : Row k → Row k)
    (js : Row k → List J) : Option (Nat × Store Row J) :=
  match s.view t k with
  | none => some (0, s)
  | some row =>
    if p row then
      if h : s.Free t k then some (1, s.put t k (some (f row)) (js row) h) else none
    else some (0, s)

/-- `INSERT` of one row: whether it was inserted; `none` while another transaction holds it. -/
def insert [DecidableEq K] (s : Store Row J) (t : Tid) (k : K) (row : Row k) (js : List J) :
    Option (Bool × Store Row J) :=
  if h : s.Free t k then
    match s.view t k with
    | none => some (true, s.put t k (some row) js h)
    | some _ => some (false, s)
  else none

/-- All rows `t` sees, in the order in which their keys came into use. -/
def select {β : Type} (s : Store Row J) (t : Tid) (f : (k : K) → Row k → Option β) : List β :=
  s.keys.filterMap fun k => (s.view t k).bind (f k)

/-! ### What each operation leaves alone -/

/-- A step of `t` at the level of rows and locks: the transactions of the others and the rows
they hold are as before. -/
structure Frame (t : Tid) (s s' : Store Row J) : Prop where
  txns : ∀ t', t' ≠ t → s'.txns t' = s.txns t'
  held : ∀ k t', t' ≠ t → s.locks k = some t' → s'.rows k = s.rows k

/-- The committed part is untouched. -/
def SameCommitted (s s' : Store Row J) : Prop := s'.rows = s.rows ∧ s'.journal = s.journal

section lemmas

variable {s : Store Row J} {t : Tid} {k : K} {tx : Txn Row J}

theorem view_idle (h : s.txns t = none) : s.view t k = s.rows k := by simp [view, h]

theorem view_txn (h : s.txns t = some tx) : s.view t k = (tx.writes k).getD (s.rows k) := by
  simp [view, h]

theorem Frame.refl : Frame t s s := ⟨fun _ _ => rfl, fun _ _ _ _ => rfl⟩

theorem SameCommitted.refl : SameCommitted s s := ⟨rfl, rfl⟩

theorem begin_same : SameCommitted s (s.begin t) := by
  unfold begin
  split <;> exact ⟨rfl, rfl⟩

theorem begin_frame : Frame t s (s.begin t) := by
  unfold begin
  split
  · exact .refl
  · exact ⟨fun _ h => Function.update_of_ne h .., fun _ _ _ _ => rfl⟩

theorem begin_txn (h : s.txns t = none) :
    (s.begin t).txns t = some ⟨fun _ => none, [], false⟩ := by
  unfold begin
  split
  · next h' => simp [h] at h'
  · simp

theorem begin_view : (s.begin t).view t k = s.view t k := by
  cases ht : s.txns t with
  | none => rw [view_txn (begin_txn ht), begin_same.1, view_idle ht, Option.getD_none]
  | some tx =>
    have hsame : s.begin t = s := by
      unfold begin
      split
      · rfl
      · next h => exact nomatch h.symm.trans ht
    rw [hsame]

theorem abort_same : SameCommitted s (s.abort t) := by
  unfold abort
  split <;> exact ⟨rfl, rfl⟩

theorem abort_frame : Frame t s (s.abort t) := by
  unfold abort
  split
  · exact .refl
  · exact ⟨fun _ h => Function.update_of_ne h .., fun _ _ _ _ => rfl⟩

theorem abort_txn : (s.abort t).txns t = (s.txns t).map fun tx => { tx with aborted := true } := by
  unfold abort
  split
  · next h => simp [h]
  · next h => simp [h]

/-- Outside a transaction there is nothing to spoil. -/
theorem abort_idle (h : s.txns t = none) : s.abort t = s := by
  unfold abort
  split
  · rfl
  · next h' => exact nomatch h'.symm.trans h

theorem aborted_idle (h : s.txns t = none) : s.aborted t = false := by simp [aborted, h]

theorem abort_view : (s.abort t).view t k = s.view t k := by
  unfold view
  rw [abort_txn, abort_same.1]
  cases s.txns t with
  | none => rfl
  | some tx => rfl

theorem rollback_same : SameCommitted s (s.rollback t) := ⟨rfl, rfl⟩

theorem rollback_frame : Frame t s (s.rollback t) :=
  ⟨fun _ h => Function.update_of_ne h .., fun _ _ _ _ => rfl⟩

@[simp] theorem rollback_txn : (s.rollback t).txns t = none := Function.update_self ..

theorem commit_rows (h : s.txns t = some tx) (ha : tx.aborted = false) :
    (s.commit t).rows k = (tx.writes k).getD (s.rows k) := by
  unfold commit
  split
  · next h' => simp [h] at h'
  · next tx' h' =>
    obtain rfl : tx = tx' := by simpa [h] using h'
    simp [ha, close]

/-- A `COMMIT` is one, or a rollback. -/
theorem commit_cases : (s.commit t).rows = s.rows ∨ (s.commit t).rows = s.view t := by
  cases ht : s.txns t with
  | none =>
    left
    unfold commit
    split
    · rfl
    · next h => exact nomatch h.symm.trans ht
  | some tx =>
    cases ha : tx.aborted with
    | false =>
      right
      funext k
      rw [commit_rows ht ha, view_txn ht]
    | true =>
      left
      unfold commit
      split
      · rfl
      · next h =>
        cases h.symm.trans ht
        rw [if_pos ha]
        rfl

/-- A transaction commits what it sees. -/
theorem commit_view (h : s.txns t = some tx) (ha : tx.aborted = false) :
    (s.commit t).rows = s.view t := by
  funext k
  rw [commit_rows h ha, view_txn h]

theorem commit_journal (h : s.txns t = some tx) (ha : tx.aborted = false) :
    (s.commit t).journal = s.journal ++ tx.journal := by
  unfold commit
  split
  · next h' => simp [h] at h'
  · next tx' h' =>
    obtain rfl : tx = tx' := by simpa [h] using h'
    simp [ha, close]

theorem commit_txn : (s.commit t).txns t = none := by
  unfold commit
  split
  · next h => exact h
  · split <;> exact Function.update_self ..

/-- What `t` commits are rows only `t` holds. -/
theorem commit_frame : Frame t s (s.commit t) := by
  unfold commit
  split
  · exact .refl
  · next tx h =>
    split
    · exact rollback_frame
    · refine ⟨fun t' ht => Function.update_of_ne ht .., fun k t' ht hl => ?_⟩
      have hw : tx.writes k = none := by
        by_contra hw
        have hl' := (s.owned k t).mpr ⟨tx, h, hw⟩
        rw [hl] at hl'
        exact ht (Option.some.inj hl')
      simp [close, hw]

theorem begin_keys : (s.begin t).keys = s.keys := by
  unfold begin
  split <;> rfl

theorem abort_keys : (s.abort t).keys = s.keys := by
  unfold abort
  split <;> rfl

theorem commit_keys : (s.commit t).keys = s.keys := by
  unfold commit
  split
  · rfl
  · split <;> rfl

/-- When nobody else has a transaction open, no statement has to wait. -/
theorem free_of_others (h : ∀ t', t' ≠ t → s.txns t' = none) (k : K) : s.Free t k := by
  cases hl : s.locks k with
  | none => exact .inl hl
  | some t' =>
    obtain ⟨tx, htx, -⟩ := (s.owned k t').mp hl
    have he : t' = t := by
      by_contra hne
      rw [h t' hne] at htx
      cases htx
    exact .inr (he ▸ hl)

/-- A row that `t` wrote in its transaction is held by `t`. -/
theorem locked_of_write (ht : s.txns t = some tx) (hw : tx.writes k ≠ none) :
    s.locks k = some t :=
  (s.owned k t).mpr ⟨tx, ht, hw⟩

/-- A key `t` sees a row under is in use. -/
theorem mem_keys_of_view {k : K} (h : s.view t k ≠ none) : k ∈ s.keys := by
  apply s.listed
  cases ht : s.txns t with
  | none =>
    rw [view_idle ht] at h
    exact .inl h
  | some tx =>
    rw [view_txn ht] at h
    cases hw : tx.writes k with
    | none =>
      rw [hw] at h
      exact .inl h
    | some v =>
      have hl := locked_of_write ht (k := k) (by simp [hw])
      exact .inr (by simp [hl])

/-- What the others hold, they go on holding. -/
theorem Frame.locks {s' : Store Row J} (h : Frame t s s') {t' : Tid} (ht : t' ≠ t)
    (hk : s.locks k = some t') : s'.locks k = some t' := by
  have hw := (s.owned k t').mp hk
  rw [← h.txns t' ht] at hw
  exact (s'.owned k t').mpr hw

theorem Frame.trans {s' s'' : Store Row J} (h : Frame t s s') (h' : Frame t s' s'') :
    Frame t s s'' where
  txns t' ht := (h'.txns t' ht).trans (h.txns t' ht)
  held k t' ht hk := (h'.held k t' ht (h.locks ht hk)).trans (h.held k t' ht hk)

/-- Nobody else changes a row that `t` has written. -/
theorem Frame.rows_of_write {s' : Store Row J} {t' : Tid} (hf : Frame t' s s') (hne : t ≠ t')
    (ht : s.txns t = some tx) (hw : tx.writes k ≠ none) : s'.rows k = s.rows k :=
  hf.held k t hne (locked_of_write ht hw)

/-! ### Writes -/

variable [DecidableEq K]

theorem write_self (v : Option (Row k)) (js : List J) : (Txn.write tx k v js).writes k = some v :=
  Function.update_self ..

theorem write_other (v : Option (Row k)) (js : List J) {k' : K} (h : k' ≠ k) :
    (Txn.write tx k v js).writes k' = tx.writes k' :=
  Function.update_of_ne h ..

section put

variable {v : Option (Row k)} {js : List J} {h : s.Free t k}

theorem put_idle (v : Option (Row k)) (js : List J) (h : s.Free t k) (ht : s.txns t = none) :
    (s.put t k v js h).rows = Function.update s.rows k v ∧
      (s.put t k v js h).journal = s.journal ++ js ∧ (s.put t k v js h).txns = s.txns := by
  simp [put, ht]

theorem put_txn (v : Option (Row k)) (js : List J) (h : s.Free t k) (ht : s.txns t = some tx) :
    SameCommitted s (s.put t k v js h) ∧
      (s.put t k v js h).txns t = some (Txn.write tx k v js) := by
  simp [put, ht, SameCommitted]

theorem put_frame : Frame t s (s.put t k v js h) := by
  cases ht : s.txns t with
  | none =>
    have hl := s.lock_none_of_idle ht h
    refine ⟨fun t' _ => by rw [(put_idle _ _ _ ht).2.2], fun k' t' _ hk => ?_⟩
    rw [(put_idle _ _ _ ht).1]
    apply Function.update_of_ne
    rintro rfl
    simp [hl] at hk
  | some tx =>
    refine ⟨fun t' e => ?_, fun k' t' _ _ => by rw [(put_txn _ _ _ ht).1.1]⟩
    simp [put, ht, Function.update_of_ne e]

/-- `t` sees what it has written. -/
theorem put_view (v : Option (Row k)) (js : List J) (h : s.Free t k) :
    (s.put t k v js h).view t = Function.update (s.view t) k v := by
  funext k'
  cases ht : s.txns t with
  | none =>
    obtain ⟨hrows, -, htxns⟩ := put_idle v js h ht
    have hidle : (s.put t k v js h).txns t = none := by rw [htxns, ht]
    rw [view_idle hidle, hrows]
    by_cases e : k' = k
    · subst e
      simp
    · simp [Function.update_of_ne e, view_idle ht]
  | some tx =>
    obtain ⟨⟨hrows, -⟩, htxn⟩ := put_txn v js h ht
    rw [view_txn htxn, hrows]
    by_cases e : k' = k
    · subst e
      simp [Txn.write]
    · simp [Txn.write, Function.update_of_ne e, view_txn ht]

/-- Keys stay in use. -/
theorem put_keys : s.keys <+: (s.put t k v js h).keys := by
  simp only [put]
  split
  · exact List.prefix_rfl
  · exact List.prefix_append ..

end put

/-- An `UPDATE` changed nothing because no row matched, or wrote the one row that did. -/
theorem update_cases {p : Row k → Bool} {f : Row k → Row k} {js : Row k → List J} {n : Nat}
    {s' : Store Row J} (h : s.update t k p f js = some (n, s')) :
    (n = 0 ∧ s' = s ∧ ∀ row, s.view t k = some row → p row = false) ∨
    (n = 1 ∧ ∃ row hf, s.view t k = some row ∧ p row = true ∧
      s' = s.put t k (some (f row)) (js row) hf) := by
  unfold update at h
  split at h
  · next hv =>
    cases h
    exact .inl ⟨rfl, rfl, by simp [hv]⟩
  · next row hv =>
    split at h
    · next hp =>
      split at h
      · next hf =>
        cases h
        exact .inr ⟨rfl, row, hf, hv, hp, rfl⟩
      · cases h
    · next hp =>
      cases h
      refine .inl ⟨rfl, rfl, fun r hr => ?_⟩
      obtain rfl : row = r := by simpa [hv] using hr
      simpa using hp

theorem insert_cases {row : Row k} {js : List J} {b : Bool} {s' : Store Row J}
    (h : s.insert t k row js = some (b, s')) :
    (b = false ∧ s' = s ∧ s.view t k ≠ none) ∨
    (b = true ∧ s.view t k = none ∧ ∃ hf, s' = s.put t k (some row) js hf) := by
  unfold insert at h
  split at h
  · next hf =>
    split at h
    · next hv =>
      cases h
      exact .inr ⟨rfl, hv, hf, rfl⟩
    · next r hv =>
      cases h
      exact .inl ⟨rfl, rfl, by simp [hv]⟩
  · cases h

theorem update_hit {p : Row k → Bool} (f : Row k → Row k) (js : Row k → List J) {row : Row k}
    (hf : s.Free t k) (hv : s.view t k = some row) (hp : p row = true) :
    s.update t k p f js = some (1, s.put t k (some (f row)) (js row) hf) := by
  simp [update, hv, hp, hf]

theorem insert_new (row : Row k) (js : List J) (hf : s.Free t k) (hv : s.view t k = none) :
    s.insert t k row js = some (true, s.put t k (some row) js hf) := by
  simp [insert, hv, hf]

theorem insert_taken (row : Row k) (js : List J) {row' : Row k} (hf : s.Free t k)
    (hv : s.view t k = some row') : s.insert t k row js = some (false, s) := by
  simp [insert, hv, hf]

end lemmas

end Store
end Framework

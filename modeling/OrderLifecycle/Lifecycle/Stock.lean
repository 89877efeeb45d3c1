import OrderLifecycle.Lifecycle.Transactions

open Framework

namespace OrderLifecycle

variable {S : Setting} {t : Tid} {k : Request} {w w' : World} {o : OrderId}

/-! ### `reserveStock` in the inbox transaction -/

/-- A transaction that has only moved stock so far. -/
def Draft.ofJournal (j : Journal) : Draft := { Draft.empty with journal := j }

def taken (t : Tid) (o : OrderId) (lines : List StockLine) : Journal :=
  lines.map fun line => (t, .stock o line.productId (-line.quantity))

def given (t : Tid) (o : OrderId) (lines : List StockLine) : Journal :=
  lines.map fun line => (t, .stock o line.productId line.quantity)

/-- Deeds of one order that only move stock, by `n` in total. -/
structure Moved (o : OrderId) (n : ProductId → Int) (j : Journal) : Prop where
  about : ∀ d ∈ j, d.2.About o
  unclaimed : ∀ d ∈ j, d.2.claims o = false
  net : ∀ p, netChange j o p = n p

theorem quantityOf_nil (p : ProductId) : quantityOf [] p = 0 := rfl

theorem quantityOf_cons (line : StockLine) (lines : List StockLine) (p : ProductId) :
    quantityOf (line :: lines) p =
      (if line.productId = p then line.quantity else 0) + quantityOf lines p := by
  simp [quantityOf]

theorem delta_stock (line : StockLine) (n : Int) (p : ProductId) :
    (Deed.stock o line.productId n).delta o p = if line.productId = p then n else 0 := by
  simp [Deed.delta]

theorem moved_taken (lines : List StockLine) :
    Moved o (fun p => -quantityOf lines p) (taken t o lines) := by
  refine ⟨fun d hd => ?_, fun d hd => ?_, fun p => ?_⟩
  · obtain ⟨line, -, rfl⟩ := List.mem_map.mp hd
    exact rfl
  · obtain ⟨line, -, rfl⟩ := List.mem_map.mp hd
    rfl
  · induction lines with
    | nil => rfl
    | cons line lines ih =>
      rw [taken, List.map_cons, netChange_cons, delta_stock, quantityOf_cons]
      rw [taken] at ih
      rw [ih]
      split <;> omega

theorem moved_given (lines : List StockLine) :
    Moved o (fun p => quantityOf lines p) (given t o lines) := by
  refine ⟨fun d hd => ?_, fun d hd => ?_, fun p => ?_⟩
  · obtain ⟨line, -, rfl⟩ := List.mem_map.mp hd
    exact rfl
  · obtain ⟨line, -, rfl⟩ := List.mem_map.mp hd
    rfl
  · induction lines with
    | nil => rfl
    | cons line lines ih =>
      rw [given, List.map_cons, netChange_cons, delta_stock, quantityOf_cons]
      rw [given] at ih
      rw [ih]
      split <;> omega

theorem Moved.append {n n' : ProductId → Int} {j j' : Journal} (h : Moved o n j)
    (h' : Moved o n' j') : Moved o (fun p => n p + n' p) (j ++ j') := by
  refine ⟨fun d hd => ?_, fun d hd => ?_, fun p => ?_⟩
  · exact (List.mem_append.mp hd).elim (h.about d) (h'.about d)
  · exact (List.mem_append.mp hd).elim (h.unclaimed d) (h'.unclaimed d)
  · rw [netChange_append, h.net, h'.net]

theorem moved_stock_other (o : OrderId) {p q : ProductId} (n : Int) (h : q ≠ p) :
    moved [(t, .stock o p n)] q = 0 := by
  simp [Deed.moved, h.symm]

theorem hoare_decrement_staged {j : Journal} (line : StockLine) :
    Hoare (orderLogic S) t k (Staged t (.ofJournal j) none) (decrementStock o line)
      (fun n w => (n = 0 ∧ Staged t (.ofJournal j) none w) ∨
        (n = 1 ∧ S.catalog.find line.productId ≠ none ∧
          Staged t (.ofJournal (j ++ taken t o [line])) none w))
      (TxError t) := by
  refine hoare_sql_staged fun w ch r w' hi hs hf => ?_
  obtain ⟨⟨n, db⟩, hu, he⟩ := Option.map_eq_some_iff.mp hf
  cases he
  refine ⟨n, rfl, ?_⟩
  rcases Store.update_cases hu with ⟨rfl, rfl, -⟩ | ⟨rfl, row, hfree, hv, hp, rfl⟩
  · exact ⟨hi, ⟨.refl, .inl fun _ => rfl⟩, .inl ⟨rfl, hs⟩⟩
  · have hknown : S.catalog.find line.productId ≠ none := by
      rcases hi.accounts.view t line.productId with ⟨hn, -⟩ | ⟨_, -, hk, -⟩
      · rw [hn] at hv
        cases hv
      · exact hk
    have hle : (line.quantity : Int) ≤ row.stock := of_decide_eq_true hp
    have ha : Accounts S.catalog (w.db.put t (.product line.productId)
        (some { row with stock := row.stock - line.quantity }) (taken t o [line]) hfree) := by
      refine hi.accounts.put_product hfree hv ?_ (by simpa using hle)
        fun q hq => moved_stock_other _ _ hq
      simp [taken, Deed.moved, Int.sub_eq_add_neg]
    obtain ⟨hi', hg⟩ := hs.hidden (k := k) hi hfree ha
    refine ⟨hi', hg, .inr ⟨rfl, hknown, hs.put hfree ?_ rfl nofun nofun nofun⟩⟩
    intro k' hk'
    rw [Function.update_of_ne (tracked_ne hk' _).symm]
    rfl

theorem hoare_increment_staged {j : Journal} {line : StockLine}
    (hknown : S.catalog.find line.productId ≠ none) :
    Hoare (orderLogic S) t k (Staged t (.ofJournal j) none) (incrementStock o line)
      (fun _ => Staged t (.ofJournal (j ++ given t o [line])) none) (TxError t) := by
  refine hoare_sql_staged fun w ch r w' hi hs hf => ?_
  obtain ⟨⟨n, db⟩, hu, he⟩ := Option.map_eq_some_iff.mp hf
  cases he
  refine ⟨n, rfl, ?_⟩
  rcases hi.accounts.view t line.productId with ⟨-, hk⟩ | ⟨row, hrow, -, hn⟩
  · exact absurd hk hknown
  rcases Store.update_cases hu with ⟨rfl, rfl, hnone⟩ | ⟨rfl, row', hfree, hv, -, rfl⟩
  · exact absurd (hnone row hrow) (by simp)
  · rw [hrow] at hv
    cases hv
    have ha : Accounts S.catalog (w.db.put t (.product line.productId)
        (some { row with stock := row.stock + line.quantity }) (given t o [line]) hfree) := by
      refine hi.accounts.put_product hfree hrow ?_ (by simp only; omega)
        fun q hq => moved_stock_other _ _ hq
      simp [given, Deed.moved]
    obtain ⟨hi', hg⟩ := hs.hidden (k := k) hi hfree ha
    refine ⟨hi', hg, hs.put hfree ?_ rfl nofun nofun nofun⟩
    intro k' hk'
    rw [Function.update_of_ne (tracked_ne hk' _).symm]
    rfl

theorem hoare_restoreStock_staged {j : Journal} {lines : List StockLine}
    (hknown : ∀ line ∈ lines, S.catalog.find line.productId ≠ none) :
    Hoare (orderLogic S) t k (Staged t (.ofJournal j) none) (restoreStock o lines)
      (fun _ => Staged t (.ofJournal (j ++ given t o lines)) none) (TxError t) := by
  induction lines generalizing j with
  | nil => exact hoare_pure fun w hw => by simpa [given] using hw
  | cons line lines ih =>
    refine hoare_bind (hoare_increment_staged (hknown line (by simp))) fun _ => ?_
    have := ih (j := j ++ given t o [line]) fun l hl => hknown l (List.mem_cons_of_mem _ hl)
    simpa [given] using this

theorem hoare_restoreStock_doomed {lines : List StockLine} :
    Hoare (orderLogic S) t k (Doomed t) (restoreStock o lines) (fun _ => Doomed t)
      (TxError t) := by
  induction lines with
  | nil => exact hoare_pure fun _ h => h
  | cons line lines ih => exact hoare_bind hoare_sql_doomed fun _ => ih

theorem hoare_compensate_doomed {α : Type} {applied : List StockLine} :
    Hoare (orderLogic S) t k (Doomed t) (compensate (α := α) o applied .database)
      (fun _ _ => False) (TxError t) := by
  have hthrow : Hoare (orderLogic S) t k (Doomed t) (throw .database : Service α)
      (fun _ _ => False) (TxError t) :=
    hoare_throw fun _ h => ⟨rfl, h⟩
  exact hoare_ite (fun _ => hoare_bind hoare_restoreStock_doomed fun _ => hthrow) fun _ => hthrow

/-- The error of a reservation that could not be made leaves the books even. -/
def Compensated (t : Tid) (o : OrderId) (e : AppError) (w : World) : Prop :=
  (∃ p, e = .insufficientStock p) →
    ∃ j, Moved o (fun _ => 0) j ∧ Staged t (.ofJournal j) none w

theorem compensated_of_txError {e : AppError} (h : TxError t e w) : Compensated t o e w := by
  rintro ⟨p, rfl⟩
  cases h.1

theorem hoare_compensate_staged {α : Type} {applied : List StockLine} {error : AppError}
    (hknown : ∀ line ∈ applied, S.catalog.find line.productId ≠ none) :
    Hoare (orderLogic S) t k (Staged t (.ofJournal (taken t o applied)) none)
      (compensate (α := α) o applied error) (fun _ _ => False) (Compensated t o) := by
  have heven : Moved o (fun _ => 0) (taken t o applied ++ given t o applied) := by
    have := (moved_taken (t := t) (o := o) applied).append (moved_given (t := t) applied)
    simpa [Int.add_left_neg] using this
  refine hoare_ite (fun _ => ?_) fun h => ?_
  · refine hoare_bind (hoare_conseq (hoare_restoreStock_staged hknown) (fun _ h => h)
      (fun _ _ h => h) fun _ _ => compensated_of_txError) fun _ => ?_
    exact hoare_throw fun w hw _ => ⟨_, heven, hw⟩
  · obtain rfl : applied = [] := List.length_eq_zero_iff.mp (by omega)
    exact hoare_throw fun w hw _ => ⟨_, heven, hw⟩

theorem hoare_reserveLines (applied : List StockLine) {lines : List StockLine}
    (hknown : ∀ line ∈ applied, S.catalog.find line.productId ≠ none) :
    Hoare (orderLogic S) t k (Staged t (.ofJournal (taken t o applied)) none)
      (reserveLines o applied lines)
      (fun _ w => (∀ line ∈ applied ++ lines, S.catalog.find line.productId ≠ none) ∧
        Staged t (.ofJournal (taken t o (applied ++ lines))) none w)
      (Compensated t o) := by
  induction lines generalizing applied with
  | nil => exact hoare_pure fun w hw => by simpa using ⟨by simpa using hknown, hw⟩
  | cons line lines ih =>
    refine hoare_bind (Q := fun n w =>
      (n = 0 ∧ Staged t (.ofJournal (taken t o applied)) none w) ∨
        (n = 1 ∧ S.catalog.find line.productId ≠ none ∧
          Staged t (.ofJournal (taken t o applied ++ taken t o [line])) none w)) ?_ fun n => ?_
    · refine hoare_tryCatch (hoare_decrement_staged line) fun e => ?_
      refine hoare_fact fun he => ?_
      subst he
      exact hoare_conseq hoare_compensate_doomed (fun _ h => h) (fun _ _ h => h.elim)
        fun _ _ => compensated_of_txError
    · refine hoare_or (hoare_fact fun hn => ?_) (hoare_fact fun hn => hoare_fact fun hl => ?_)
      · rw [if_pos hn]
        exact hoare_conseq (hoare_compensate_staged hknown) (fun _ h => h) (fun _ _ h => h.elim)
          fun _ _ h => h
      · rw [if_neg (by omega)]
        have := ih (applied ++ [line]) (by
          intro l hl'
          rcases List.mem_append.mp hl' with h | h
          · exact hknown l h
          · rw [List.mem_singleton.mp h]
            exact hl)
        simpa [taken] using this

/-- `reserveStock` takes every line of a sellable order, or nothing. -/
theorem hoare_reserveStock (lines : List StockLine) :
    Hoare (orderLogic S) t k (Staged t .empty none) (reserveStock o lines)
      (fun _ w => (∀ line ∈ lines, S.catalog.find line.productId ≠ none) ∧
        Staged t (.ofJournal (taken t o lines)) none w)
      (Compensated t o) :=
  hoare_reserveLines [] (by simp)

end OrderLifecycle

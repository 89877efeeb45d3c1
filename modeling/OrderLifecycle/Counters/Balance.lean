import Mathlib.Data.Set.Card
import OrderLifecycle.Framework.Drift
import OrderLifecycle.Reads.Memory

open Framework

namespace OrderLifecycle

/-- The counters that stand for orders: `recordTerminalState` with its three labels, and
`order_failures_total` over all reasons. -/
inductive Counter
  | completed
  | failed
  | cancelled
  | failures
  deriving DecidableEq

/-- The status of the orders that it stands for. -/
def Counter.status : Counter → OrderStatus
  | completed => .completed
  | failed => .failed
  | cancelled => .cancelled
  | failures => .failed

/-- The metric is one count of it. -/
def Counter.counts : Counter → Metric → Bool
  | failures, .orderFailure _ => true
  | failures, _ => false
  | b, .terminalState label => terminalStateLabel b.status == some label
  | _, _ => false

/-- The row is an order that it stands for. -/
def Counter.Holds (b : Counter) (row : Option OrderEntity) : Prop :=
  ∃ order, row = some order ∧ order.status = b.status

/-- The orders that it stands for. -/
def Counter.orders (b : Counter) (rows : (k : Key) → Option (Row k)) : Set OrderId :=
  {o | b.Holds (rows (.order o))}

/-- The counts without their orders: negative where orders were not counted. -/
noncomputable def imbalance (b : Counter) (w : World) : Int :=
  (w.metrics.countP b.counts : Int) - ((b.orders w.db.rows).ncard : Int)

/-- The orders that the open transaction of `t` would add if it committed. -/
noncomputable def gain (b : Counter) (t : Tid) (w : World) : Int :=
  ((b.orders (w.db.view t)).ncard : Int) - ((b.orders w.db.rows).ncard : Int)

variable {b : Counter} {t t' : Tid} {w w' : World} {o : OrderId} {α β : Type}
  {rows : (k : Key) → Option (Row k)} {key : Key}

/-! ### Sets of orders -/

theorem Counter.status_terminal (b : Counter) : isTerminalStatus b.status = true := by
  cases b <;> rfl

theorem mem_keys_of_view (h : w.db.view t key ≠ none) : key ∈ w.db.keys := by
  cases ht : w.db.txns t with
  | none =>
    rw [Store.view_idle ht] at h
    exact w.db.listed key (.inl h)
  | some tx =>
    rw [Store.view_txn ht] at h
    cases hw : tx.writes key with
    | none =>
      rw [hw] at h
      exact w.db.listed key (.inl h)
    | some v =>
      have hl : w.db.locks key = some t := Store.locked_of_write ht (by simp [hw])
      exact w.db.listed key (.inr (by simp [hl]))

theorem holds_some {row : OrderEntity} : b.Holds (some row) ↔ row.status = b.status := by
  simp [Counter.Holds]

theorem orders_finite (h : ∀ key, rows key ≠ none → key ∈ w.db.keys) : (b.orders rows).Finite := by
  have hfin : {o | Key.order o ∈ w.db.keys}.Finite :=
    Set.Finite.preimage (fun _ _ _ _ he => Key.order.inj he) (List.finite_toSet w.db.keys)
  apply hfin.subset
  intro o ho
  obtain ⟨row, hrow, -⟩ := ho
  apply h
  rw [hrow]
  exact Option.some_ne_none row

theorem rows_finite (b : Counter) (w : World) : (b.orders w.db.rows).Finite :=
  orders_finite fun key h => w.db.listed key (.inl h)

theorem view_finite (b : Counter) (t : Tid) (w : World) : (b.orders (w.db.view t)).Finite :=
  orders_finite fun _ h => mem_keys_of_view h

theorem orders_congr {rows' : (k : Key) → Option (Row k)}
    (h : ∀ o, rows' (.order o) = rows (.order o)) : b.orders rows' = b.orders rows := by
  ext o
  simp only [Counter.orders, Set.mem_ofPred_eq, h o]

theorem orders_update_other {v : Option (Row key)} (hkey : ∀ o, key ≠ .order o) :
    b.orders (Function.update rows key v) = b.orders rows :=
  orders_congr fun o => Function.update_of_ne (hkey o).symm ..

theorem mem_orders_update {row : OrderEntity} {o' : OrderId} :
    o' ∈ b.orders (Function.update rows (.order o) (some row)) ↔
      (o' = o ∧ row.status = b.status) ∨ (o' ≠ o ∧ o' ∈ b.orders rows) := by
  by_cases e : o' = o
  · subst e
    have hself : Function.update rows (.order o') (some row) (.order o') = some row :=
      Function.update_self ..
    simp only [Counter.orders, Set.mem_ofPred_eq, hself]
    simpa using holds_some
  · have hsame : Function.update rows (.order o) (some row) (.order o') = rows (.order o') :=
      Function.update_of_ne (by simpa using e) ..
    simp only [Counter.orders, Set.mem_ofPred_eq, hsame]
    simp [e]

theorem orders_update_keeps {row : OrderEntity} (h : row.status = b.status ↔ o ∈ b.orders rows) :
    b.orders (Function.update rows (.order o) (some row)) = b.orders rows := by
  ext o'
  rw [mem_orders_update]
  by_cases e : o' = o
  · subst e
    simp [h]
  · simp [e]

theorem orders_update_adds {row : OrderEntity} (hst : row.status = b.status) :
    b.orders (Function.update rows (.order o) (some row)) = insert o (b.orders rows) := by
  ext o'
  rw [mem_orders_update, Set.mem_insert_iff]
  by_cases e : o' = o
  · simp [e, hst]
  · simp [e]

/-- What an order adds to a counter when it reaches a status. -/
def unit (status : OrderStatus) (b : Counter) : Int := if b.status = status then 1 else 0

/-- An order that was not terminal is written. -/
theorem ncard_update {row : OrderEntity} (hfin : (b.orders rows).Finite)
    (hold : ∀ old : OrderEntity, rows (.order o) = some old → isTerminalStatus old.status = false) :
    ((b.orders (Function.update rows (.order o) (some row))).ncard : Int) =
      (b.orders rows).ncard + unit row.status b := by
  have hnot : o ∉ b.orders rows := by
    intro ⟨old, hrow, hst⟩
    have hopen := hold old hrow
    rw [hst, b.status_terminal] at hopen
    cases hopen
  by_cases e : b.status = row.status
  · rw [orders_update_adds e.symm, Set.ncard_insert_of_notMem hnot hfin]
    simp [unit, e]
  · rw [orders_update_keeps (iff_of_false (Ne.symm e) hnot)]
    simp [unit, e]

/-! ### The gain of a transaction is its own -/

/-- The orders that `t` has written in its transaction. -/
def written (t : Tid) (w : World) : Set OrderId :=
  {o | ∃ tx, w.db.txns t = some tx ∧ tx.writes (.order o) ≠ none}

theorem view_unwritten (h : o ∉ written t w) : w.db.view t (.order o) = w.db.rows (.order o) := by
  cases ht : w.db.txns t with
  | none => exact Store.view_idle ht
  | some tx =>
    have hnone : tx.writes (.order o) = none := by
      by_contra hne
      exact h ⟨tx, ht, hne⟩
    rw [Store.view_txn ht, hnone, Option.getD_none]

theorem gain_eq : gain b t w = ((b.orders (w.db.view t) ∩ written t w).ncard : Int) -
    (b.orders w.db.rows ∩ written t w).ncard := by
  have hsame : b.orders (w.db.view t) \ written t w = b.orders w.db.rows \ written t w := by
    ext o
    simp only [Set.mem_sdiff, and_congr_left_iff]
    intro ho
    simp only [Counter.orders, Set.mem_ofPred_eq, view_unwritten ho]
  have hview := Set.ncard_inter_add_ncard_sdiff_eq_ncard (b.orders (w.db.view t)) (written t w)
    (view_finite b t w)
  have hrows := Set.ncard_inter_add_ncard_sdiff_eq_ncard (b.orders w.db.rows) (written t w)
    (rows_finite b w)
  rw [hsame] at hview
  unfold gain
  omega

/-- What the others do does not change it. -/
theorem gain_frame (hne : t' ≠ t) (hf : w.db.Frame t' w'.db) : gain b t w' = gain b t w := by
  have htxn : w'.db.txns t = w.db.txns t := hf.txns t hne.symm
  have hwritten : written t w' = written t w := by
    simp only [written, htxn]
  have hrows : ∀ o ∈ written t w, w'.db.rows (.order o) = w.db.rows (.order o) := by
    intro o ⟨tx, htx, hw⟩
    exact hf.rows_of_write hne.symm htx hw
  have hview : ∀ o ∈ written t w, w'.db.view t (.order o) = w.db.view t (.order o) := by
    intro o ho
    have hrow := hrows o ho
    obtain ⟨tx, htx, -⟩ := ho
    rw [Store.view_txn htx, Store.view_txn (htxn.trans htx), hrow]
  rw [gain_eq, gain_eq, hwritten]
  have hsame {f g : (k : Key) → Option (Row k)}
      (h : ∀ o ∈ written t w, f (.order o) = g (.order o)) :
      b.orders f ∩ written t w = b.orders g ∩ written t w := by
    ext o
    simp only [Set.mem_inter_iff, and_congr_left_iff]
    intro ho
    simp only [Counter.orders, Set.mem_ofPred_eq, h o ho]
  rw [hsame hview, hsame hrows]

end OrderLifecycle

import Mathlib.Algebra.BigOperators.Group.Finset.Piecewise
import Mathlib.Algebra.BigOperators.Ring.Finset
import Mathlib.Algebra.Order.BigOperators.Group.Finset
import OrderLifecycle.Lifecycle.Runs

open Framework

namespace OrderLifecycle

variable {c : Catalog} {b : Bool} {moves : List Move} {s : Shop} {o : OrderId} {row : OrderEntity}

/-! ### No overselling -/

/-- What a row takes from the shelf while it is `RESERVED`, `PAID` or `COMPLETED`. -/
def OrderEntity.holding (row : OrderEntity) (p : ProductId) : Nat :=
  if row.status = .reserved ∨ row.status = .paid ∨ row.status = .completed then
    quantityOf row.lines p
  else 0

/-- What all orders together hold of a product. -/
def World.held (w : World) (p : ProductId) : Nat := (w.orders.map (·.holding p)).sum

def Key.orderId : Key → Option OrderId
  | .order o => some o
  | _ => none

def Deed.orderId : Deed → Option OrderId
  | .stock o _ _ => some o
  | _ => none

theorem orderIds_nodup {keys : List Key} (h : keys.Nodup) :
    (keys.filterMap Key.orderId).Nodup := by
  refine h.filterMap fun k k' o ho ho' => ?_
  cases k <;> cases k' <;> simp_all [Key.orderId]

theorem held_eq (w : World) (p : ProductId) : w.held p =
    ((w.db.keys.filterMap Key.orderId).map fun o =>
      ((w.order o).map (·.holding p)).getD 0).sum := by
  unfold World.held World.orders
  induction w.db.keys with
  | nil => rfl
  | cons k keys ih =>
    cases k with
    | order o =>
      cases ho : w.order o <;> simp_all [Key.orderId]
    | _ => exact ih

/-- Everything that ever moved the stock of a product was an order or replenishment. -/
theorem moved_eq (j : Journal) (p : ProductId) {T : Finset OrderId}
    (hT : ∀ d ∈ j, ∀ o, d.2.orderId = some o → o ∈ T) :
    moved j p = replenished j p + ∑ o ∈ T, netChange j o p := by
  induction j with
  | nil => simp [replenished]
  | cons d j ih =>
    have ih := ih fun d' hd => hT d' (List.mem_cons_of_mem _ hd)
    have hone : d.2.moved p = d.2.restocked p + ∑ o ∈ T, d.2.delta o p := by
      cases hd : d.2 with
      | stock o' p' n =>
        have ho : o' ∈ T := hT d (by simp) o' (by rw [hd]; rfl)
        simp only [Deed.moved, Deed.restocked, Deed.delta, ite_and]
        rw [Finset.sum_ite_eq, if_pos ho, Int.zero_add]
      | replenished p' n => simp [Deed.moved, Deed.restocked, Deed.delta]
      | _ => simp [Deed.moved, Deed.restocked, Deed.delta]
    simp only [moved_cons, netChange_cons, Finset.sum_add_distrib, ih, hone]
    simp only [replenished, List.map_cons, List.sum_cons]
    omega

/-- An order has never put back more than it took, and holds what it is to hold. -/
theorem OrderInv.net_le {S : Setting} {f : OrderFacts} (h : OrderInv S o f) (p : ProductId) :
    f.net p + ((f.order.map (·.holding p)).getD 0 : Nat) ≤ 0 := by
  cases ho : f.order with
  | none => simp [(h.absent ho).net p]
  | some row =>
    have hp := h.present row ho
    simp only [Option.map_some, Option.getD_some, OrderEntity.holding]
    by_cases hh : Holds row
    · have := hp.stock.holds hh p
      split <;> omega
    · have hno : ¬(row.status = .reserved ∨ row.status = .paid ∨ row.status = .completed) :=
        fun hn => hh (hn.imp_right .inl)
      rw [if_neg hno]
      by_cases hc : row.status = .cancelled
      · obtain ⟨t, seen, found, -, hg, -⟩ := hp.claims.canceller hc
        rcases hg with ⟨-, -, hg⟩ | ⟨-, -, hg⟩ | ⟨-, -, hg⟩
        · simp [hg p]
        · have := hg p
          omega
        · have := (hg p).2
          omega
      · simp [hp.stock.free hh hc p]

/-- Stock never runs below nothing, and what is on the shelf and in orders was there at the start
or was added by replenishment. -/
theorem no_overselling (h : Reaches c b moves s) (p : ProductId) :
    (s.shared.product p = none ∧ c.find p = none) ∨
    ∃ row init, s.shared.product p = some row ∧ c.find p = some init ∧ 0 ≤ row.stock ∧
      row.stock + s.shared.held p ≤ init.stock + replenished s.shared.db.journal p := by
  rcases h.sound_any.inv.accounts.balanced p with hn | ⟨row, init, hr, hi, hb, hpos⟩
  · exact .inl hn
  refine .inr ⟨row, init, hr, hi, hpos, ?_⟩
  let K : Finset OrderId := (s.shared.db.keys.filterMap Key.orderId).toFinset
  -- every order with a row, and every order that ever moved stock
  let T : Finset OrderId := K ∪ (s.shared.db.journal.filterMap fun d => d.2.orderId).toFinset
  have hmoved := moved_eq s.shared.db.journal p (T := T) fun d hd o ho =>
    Finset.mem_union_right _ (List.mem_toFinset.mpr (List.mem_filterMap.mpr ⟨d, hd, ho⟩))
  let hold (o : OrderId) : Nat := ((s.shared.order o).map (·.holding p)).getD 0
  have hheld : s.shared.held p = ∑ o ∈ K, hold o := by
    rw [held_eq, List.sum_toFinset _ (orderIds_nodup s.shared.db.nodup)]
  have hnet : ∑ o ∈ T, netChange s.shared.db.journal o p + ∑ o ∈ T, (hold o : Int) ≤ 0 := by
    rw [← Finset.sum_add_distrib]
    exact Finset.sum_nonpos fun o _ => (h.orders o).net_le p
  have hsub : ∑ o ∈ K, hold o ≤ ∑ o ∈ T, hold o :=
    Finset.sum_le_sum_of_subset Finset.subset_union_left
  have hcast : ((∑ o ∈ T, hold o : Nat) : Int) = ∑ o ∈ T, (hold o : Int) := Nat.cast_sum ..
  omega

/-- Three of the five pieces are reserved. -/
theorem no_overselling_reserved : ∃ s row, Reaches oneProduct true (placing ++ reserving) s ∧
    s.shared.product 7 = some row ∧ row.stock = 2 ∧ s.shared.held 7 = 3 ∧
    ∃ init, oneProduct.find 7 = some init ∧
      row.stock + s.shared.held 7 ≤ init.stock + replenished s.shared.db.journal 7 := by
  obtain ⟨s, hs, hobs⟩ := reaches_of_trial (placing ++ reserving)
    (fun s => ((s.shared.product 7).map (·.stock), s.shared.held 7)) (some 2, 3) (by decide +kernel)
  obtain ⟨hstock, hheld⟩ := Prod.mk.inj hobs
  obtain ⟨row, hp, hst⟩ := Option.map_eq_some_iff.mp hstock
  rcases no_overselling hs 7 with ⟨hn, -⟩ | ⟨row', init, hp', hi, -, hle⟩
  · exact nomatch hn.symm.trans hp
  · obtain rfl := Option.some.inj (hp'.symm.trans hp)
    exact ⟨s, row', hs, hp, hst, hheld, init, hi, hle⟩

end OrderLifecycle

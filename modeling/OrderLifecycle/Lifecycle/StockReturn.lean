import OrderLifecycle.Lifecycle.Runs

open Framework

namespace OrderLifecycle

variable {c : Catalog} {b : Bool} {moves : List Move} {s : Shop} {o : OrderId} {row : OrderEntity}

/-! ### Cancelled orders -/

/-- A `cancelOrder` call of the run that had read the order as `PENDING` made its claim when
the reservation had been committed. -/
def StaleCancel (w : World) (o : OrderId) : Prop :=
  ∃ t, (t, Deed.cancelClaimed o .pending .reserved) ∈ w.db.journal

theorem staleCancel_iff (w : World) (o : OrderId) :
    StaleCancel w o ↔ ∃ t, (t, Deed.cancelClaimed o .pending .reserved) ∈ (w.facts o).claims := by
  refine exists_congr fun t => ?_
  simp [World.facts, factsOf, Deed.claims]

theorem neg_quantities_iff {net : ProductId → Int} {lines : List StockLine}
    (h : ∀ p, net p = -quantityOf lines p) :
    (∀ p, net p = 0) ↔ ∀ p, quantityOf lines p = 0 :=
  forall_congr' fun p => by rw [h p]; omega

/-- Where nothing fails and every call has returned, a cancelled order has given back all it took,
unless it was cancelled on a stale read. -/
theorem cancelled_gives_back_iff (h : Reaches c b moves s) (hfault : ∀ l ∈ moves, FaultFree l)
    (hfin : Finished s) (ho : s.shared.order o = some row) (hst : row.status = .cancelled) :
    (∀ p, netChange s.shared.db.journal o p = 0) ↔
      (¬StaleCancel s.shared o ∨ ∀ p, quantityOf row.lines p = 0) := by
  let S : Setting := ⟨c, none, False⟩
  have hsound := Reaches.sound (S := S) h fun l hl => by
    cases l with
    | step t ch => exact ⟨fun _ h => (nomatch h), fun _ => hfault _ hl⟩
    | _ => exact trivial
  have hp := (hsound.inv.orders o).present row ho
  obtain ⟨t, seen, found, hclaims, hgiven, -⟩ := hp.claims.canceller hst
  rw [staleCancel_iff, hclaims]
  rcases hgiven with ⟨rfl, rfl, hnet⟩ | ⟨rfl, rfl, hnet⟩ | ⟨rfl, rfl, -⟩
  · exact iff_of_true hnet (.inl (by simp))
  · rw [or_iff_right (by simp)]
    exact neg_quantities_iff hnet
  · refine iff_of_true ?_ (.inl (by simp))
    have hmem : (t, Deed.cancelClaimed o .reserved .reserved) ∈ (s.shared.facts o).claims := by
      simp [hclaims]
    obtain ⟨k, th, ht, u, rfl⟩ := h.claimant hmem
    obtain ⟨r, hr⟩ := hfin t _ th ht
    have hpost := hsound.result hr
    cases r with
    | ok a =>
      obtain ⟨seen, found, hc, hback⟩ := hpost
      rw [hclaims] at hc
      simp only [List.cons.injEq, Prod.mk.injEq, Deed.cancelClaimed.injEq] at hc
      exact hback hc.1.2.2.1.symm
    | error e => exact absurd hmem (hpost id _)

/-- The reservation commits between the read and the claim of the cancel. -/
def staleCancel : List Move :=
  placing ++ call 2 (.cancelOrder 1 9) 2 accept ++ reserving ++
    List.replicate 3 (.step 2 { fresh := 3 })

/-- The calls that place and cancel order `o` and reserve its stock. -/
def PlacesOrCancels (o : OrderId) : Request → Bool
  | .createOrder .. => true
  | .cancelOrder id _ => id == o
  | .deliver m => m.routingKey == .created && m.payload.orderId == o
  | _ => false

/-- The stock of the order is gone after the run `staleCancel`. -/
theorem not_cancelled_gives_back : ¬∀ (moves : List Move) (s : Shop) (o : OrderId)
    (row : OrderEntity), Reaches oneProduct true moves s → (∀ l ∈ moves, FaultFree l) →
    (∀ x ∈ starts moves, PlacesOrCancels o x.2 = true) → Finished s →
    s.shared.order o = some row → row.status = .cancelled →
    ∀ p, netChange s.shared.db.journal o p = 0 := by
  intro hall
  obtain ⟨s, hs, hobs⟩ := reaches_of_trial staleCancel
    (fun s => ((s.shared.order 1).map (·.status), netChange s.shared.db.journal 1 7,
      (starts staleCancel).all fun x => s.done x.1)) (some .cancelled, -3, true) (by decide +kernel)
  simp only [Prod.mk.injEq] at hobs
  obtain ⟨hst, hnet, hdone⟩ := hobs
  obtain ⟨row, ho, hst⟩ := Option.map_eq_some_iff.mp hst
  have := hall staleCancel s 1 row hs (by decide) (by decide) (finished_of_starts hs hdone) ho hst 7
  omega

/-- A cancel that comes after the reservation gives all three pieces back. -/
theorem cancelled_gives_back_reserved : ∃ s,
    Reaches oneProduct true (placing ++ reserving ++ call 2 (.cancelOrder 1 9) 6 accept) s ∧
    (∃ row, s.shared.order 1 = some row ∧ row.status = .cancelled) ∧
    ∀ p, netChange s.shared.db.journal 1 p = 0 := by
  obtain ⟨s, hs, hobs⟩ := reaches_of_trial
    (placing ++ reserving ++ call 2 (.cancelOrder 1 9) 6 accept)
    (fun s => ((s.shared.order 1).map (·.status),
      s.shared.db.journal.all fun d => d.2 != .cancelClaimed 1 .pending .reserved,
      [0, 1, 2].all fun t => s.done t)) (some .cancelled, true, true) (by decide +kernel)
  simp only [Prod.mk.injEq] at hobs
  obtain ⟨hst, hfresh, hdone⟩ := hobs
  obtain ⟨row, ho, hst⟩ := Option.map_eq_some_iff.mp hst
  refine ⟨s, hs, ⟨row, ho, hst⟩, (cancelled_gives_back_iff hs (by decide)
    (finished_of_starts hs hdone) ho hst).mpr (.inl ?_)⟩
  rintro ⟨t, ht⟩
  simpa using List.all_eq_true.mp hfresh _ ht

/-! ### Failed orders -/

/-- An order that failed holds no stock exactly if it failed before payment. -/
theorem failed_holds_nothing_iff (h : Reaches c b moves s) (ho : s.shared.order o = some row)
    (hst : row.status = .failed) : (∀ p, netChange s.shared.db.journal o p = 0) ↔
      (row.paymentInitiatedAt = none ∨ ∀ p, quantityOf row.lines p = 0) := by
  have hp := h.present ho
  cases hpaid : row.paymentInitiatedAt with
  | none =>
    have hn : ¬Holds row := by simp [Holds, hst, hpaid]
    exact iff_of_true (hp.stock.free hn (by simp [hst])) (.inl rfl)
  | some x =>
    rw [or_iff_right (by simp)]
    exact neg_quantities_iff (hp.stock.holds (.inr (.inr ⟨hst, by simp [hpaid]⟩)))

/-- The payment is declined, and the three pieces stay reserved for the failed order. -/
theorem not_failed_holds_nothing : ¬∀ (moves : List Move) (s : Shop) (o : OrderId)
    (row : OrderEntity), Reaches oneProduct true moves s → (∀ l ∈ moves, FaultFree l) →
    s.shared.order o = some row → row.status = .failed →
    ∀ p, netChange s.shared.db.journal o p = 0 := by
  intro hall
  obtain ⟨s, hs, hobs⟩ := reaches_of_trial (checkout decline)
    (fun s => ((s.shared.order 1).map (·.status), netChange s.shared.db.journal 1 7))
    (some .failed, -3) (by decide +kernel)
  obtain ⟨hst, hnet⟩ := Prod.mk.inj hobs
  obtain ⟨row, ho, hst⟩ := Option.map_eq_some_iff.mp hst
  have := hall _ s 1 row hs (by decide) ho hst 7
  omega

/-- User 9 orders eight pieces of five. -/
def rejecting : List Move :=
  call 0 (.createOrder 9 [⟨7, "Widget", 8⟩]) 7 accept ++ [.env (.relay 1)] ++
    call 1 (.deliver (message 1 (.created ⟨1, 9, [⟨7, 8⟩]⟩))) 12 accept

theorem failed_holds_nothing_rejected : ∃ s row, Reaches oneProduct true rejecting s ∧
    s.shared.order 1 = some row ∧ row.status = .failed ∧
    ∀ p, netChange s.shared.db.journal 1 p = 0 := by
  obtain ⟨s, hs, hobs⟩ := reaches_of_trial rejecting
    (fun s => (s.shared.order 1).map fun row => (row.status, row.paymentInitiatedAt))
    (some (.failed, none)) (by decide +kernel)
  obtain ⟨row, ho, hrow⟩ := Option.map_eq_some_iff.mp hobs
  obtain ⟨hst, hpaid⟩ := Prod.mk.inj hrow
  exact ⟨s, row, hs, ho, hst, (failed_holds_nothing_iff hs ho hst).mpr (.inl hpaid)⟩

end OrderLifecycle

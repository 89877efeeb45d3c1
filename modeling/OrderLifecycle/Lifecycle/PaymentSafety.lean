import OrderLifecycle.Lifecycle.Runs

open Framework

namespace OrderLifecycle

variable {c : Catalog} {b : Bool} {moves : List Move} {s : Shop}

/-- Money and status agree in every reachable state, if the provider answers a key in one way. -/
theorem payment_safety (h : Reaches c b moves s) (answer : OrderId → PaymentResult)
    (hanswer : ∀ t ch, Label.step t ch ∈ moves → ch.answer = answer) :
    (∀ o row, s.shared.order o = some row → row.status = .paid ∨ row.status = .completed →
      ∃ a, s.shared.authorization o = some a ∧ a.authorized = some true) ∧
    (∀ o a, s.shared.authorization o = some a → a.authorized = some true →
      ∃ row, s.shared.order o = some row ∧
        (row.status = .reserved ∨ row.status = .paid ∨ row.status = .completed)) ∧
    (∀ o, (∃ t key, (t, GatewayDeed.charged o key) ∈ s.shared.gateway) →
      ∃ row, s.shared.order o = some row ∧ row.paymentInitiatedAt ≠ none ∧
        row.status ≠ .cancelled) := by
  let S : Setting := ⟨c, some answer, True⟩
  have hsound := Reaches.sound (S := S) h fun l hl => by
    cases l with
    | step t ch =>
      refine ⟨fun p hp => ?_, fun h => absurd trivial h⟩
      rw [hanswer t ch hl]
      exact Option.some.inj hp
    | _ => exact trivial
  have hfixed : S.provider ≠ none := nofun
  refine ⟨fun o row ho hst => ?_, fun o a ha hauth => ?_, fun o hcharged => ?_⟩
  · exact ((hsound.inv.orders o).present row ho).ledger.captured hfixed hst
  · cases ho : s.shared.order o with
    | none =>
      have hnone := ((hsound.inv.orders o).absent ho).authorization
      exact nomatch ha.symm.trans hnone
    | some row =>
      have hp := (hsound.inv.orders o).present row ho
      have hpaying := hp.ledger.ledger (Option.ne_none_iff_exists'.mpr ⟨a, ha⟩)
      obtain ⟨hpending, hcancelled⟩ := hp.status.paying hpaying
      have hfailed : row.status ≠ .failed := by
        intro hf
        obtain ⟨a', ha', hd⟩ := hp.ledger.declined hfixed hf hpaying
        obtain rfl : a' = a := Option.some.inj (ha'.symm.trans ha)
        simp [hauth] at hd
      refine ⟨row, rfl, ?_⟩
      cases hst : row.status <;> simp_all
  · cases ho : s.shared.order o with
    | none => exact absurd hcharged ((hsound.inv.orders o).absent ho).charged
    | some row =>
      have hp := (hsound.inv.orders o).present row ho
      have hpaying := hp.ledger.ledger (hp.ledger.charged hcharged)
      exact ⟨row, rfl, Option.isSome_iff_ne_none.mp hpaying, (hp.status.paying hpaying).2⟩

/-- An order that was paid. -/
theorem payment_safety_paid : ∃ s row, Reaches oneProduct true (checkout accept) s ∧
    s.shared.order 1 = some row ∧ row.status = .paid ∧
    ∃ a, s.shared.authorization 1 = some a ∧ a.authorized = some true := by
  obtain ⟨s, hs, hpaid⟩ := reaches_of_trial (checkout accept)
    (fun s => (s.shared.order 1).map (·.status)) (some .paid) (by decide +kernel)
  obtain ⟨row, ho, hst⟩ := Option.map_eq_some_iff.mp hpaid
  have hsafe := payment_safety hs (fun _ => accept) (by
    intro t ch hl
    simp only [checkout, placing, reserving, paying, authorizing, call, List.mem_append,
      List.mem_cons, List.mem_replicate, reduceCtorEq, Label.step.injEq, List.not_mem_nil] at hl
    obtain (((h | h) | h) | h) | h := hl <;> simp_all)
  exact ⟨s, row, hs, ho, hst, hsafe.1 1 row ho (.inl hst)⟩

end OrderLifecycle

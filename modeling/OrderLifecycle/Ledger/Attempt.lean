import OrderLifecycle.Ledger.Alone

open Framework

namespace OrderLifecycle

section statements

variable {o : OrderId} {mid : Uuid} {ids unused : Uuid → Prop}
  {a : Option PaymentAuthorizationEntity} {row : PaymentAuthorizationEntity} {st : OrderStatus}
  {done : Bool} {t : Tid} {d : Delivery} {answer result : PaymentResult}
  {D : Nat → World → Prop} {i : Nat} {β : Type} {P : World → Prop} {E : AppError → Nat → World → Prop}
  {e : InventoryReservedEvent}

/-! ### Statements outside a transaction -/

/-- An SQL statement that need not wait. -/
theorem solo_sql {f : Tid → Choice → World → Option (Except AppError β × World)}
    {Q : β → Nat → World → Prop} (hd : ∀ w, P w → d.dies = some i → D i w)
    (h : ∀ w, P w → w.db.aborted t = false ∧
      ∃ b w', f t (d.choice answer i) w = some (.ok b, w') ∧ Q b (i + 1) w') :
    Solo t (d.choice answer) d.dies D i P (sql f) Q E := by
  apply solo_stmt hd
  intro w hp
  obtain ⟨ha, b, w', hf, hq⟩ := h w hp
  have hfail : (d.choice answer i).fail = false := rfl
  exact ⟨.ok b, w', by simp [ha, hf, hfail], hq⟩

theorem solo_record (hd : ∀ w, P w → d.dies = some i → D i w)
    (hP : ∀ w w', w'.db = w.db → P w → P w') (f : Nat → List Metric) :
    Solo t (d.choice answer) d.dies D i P (record f) (fun _ j w => j = i + 1 ∧ P w) E := by
  apply solo_stmt hd
  intro w hp
  exact ⟨_, _, rfl, rfl, hP w _ rfl hp⟩

theorem solo_cacheDel (hd : ∀ w, P w → d.dies = some i → D i w)
    (hP : ∀ w w', w'.db = w.db → P w → P w') (keys : List CacheKey) :
    Solo t (d.choice answer) d.dies D i P (cacheDel keys) (fun _ _ => P) E := by
  apply solo_stmt hd
  intro w hp
  refine ⟨_, _, rfl, hP w _ ?_ hp⟩
  split <;> rfl

/-- The first delivery inserts the ledger row. -/
theorem solo_claim_new (hd : ∀ w, Stage o mid ids none st done w → d.dies = some i → D i w) :
    Solo t (d.choice answer) d.dies D i (Stage o mid ids none st done) (claim o)
      (fun b j w => (b = true ∧ j = i + 1) ∧
        Stage o mid ids (some ⟨o, none, none, d.now i⟩) st done w) E := by
  apply solo_sql hd
  intro w hs
  have hview : w.db.view t (.authorization o) = none := (hs.view _).trans hs.rows.ledger
  let undecided : PaymentAuthorizationEntity := ⟨o, none, none, d.now i⟩
  have hins := Store.insert_new undecided [] (hs.free (t := t) (.authorization o)) hview
  refine ⟨hs.not_aborted, true, _, congrArg (Option.map _) hins, ⟨rfl, rfl⟩, ?_⟩
  exact hs.putAuthorization (hs.free _) rfl

theorem solo_claim_taken
    (hd : ∀ w, Stage o mid ids (some row) st done w → d.dies = some i → D i w) :
    Solo t (d.choice answer) d.dies D i (Stage o mid ids (some row) st done) (claim o)
      (fun b j w => (b = false ∧ j = i + 1) ∧ Stage o mid ids (some row) st done w) E := by
  apply solo_sql hd
  intro w hs
  have hview : w.db.view t (.authorization o) = some row := (hs.view _).trans hs.rows.ledger
  let undecided : PaymentAuthorizationEntity := ⟨o, none, none, d.now i⟩
  have hins := Store.insert_taken undecided [] (hs.free (t := t) (.authorization o)) hview
  exact ⟨hs.not_aborted, false, _, congrArg (Option.map _) hins, ⟨rfl, rfl⟩, hs.congr rfl⟩

theorem solo_selectAuthorization
    (hd : ∀ w, Stage o mid ids (some row) st done w → d.dies = some i → D i w) :
    Solo t (d.choice answer) d.dies D i (Stage o mid ids (some row) st done)
      (selectRow (.authorization o))
      (fun r j w => (r = some row ∧ j = i + 1) ∧ Stage o mid ids (some row) st done w) E := by
  apply solo_sql hd
  intro w hs
  exact ⟨hs.not_aborted, _, _, rfl, ⟨(hs.view _).trans hs.rows.ledger, rfl⟩, hs⟩

theorem solo_isClaimStale
    (hd : ∀ w, Stage o mid ids (some row) st done w → d.dies = some i → D i w) :
    Solo t (d.choice answer) d.dies D i (Stage o mid ids (some row) st done) (isClaimStale o)
      (fun b j w => (b = row.isStale (d.now i) ∧ j = i + 1) ∧
        Stage o mid ids (some row) st done w) E := by
  apply solo_sql hd
  intro w hs
  have hview : w.db.view t (.authorization o) = some row := (hs.view _).trans hs.rows.ledger
  refine ⟨hs.not_aborted, _, _, rfl, ⟨?_, rfl⟩, hs.congr rfl⟩
  simp only [hview, Option.any_some]
  rfl

/-! ### The gateway -/

theorem solo_charge (hd : ∀ w, Stage o mid ids a st done w → d.dies = some i → D i w) :
    Solo t (d.choice answer) d.dies D i (Stage o mid ids a st done) (charge e o)
      (fun r j w => (d.throws = false ∧ r = answer ∧ j = i + 1) ∧ Stage o mid ids a st done w)
      (fun _ _ w => d.throws = true ∧ Stage o mid ids a st done w) := by
  apply solo_stmt hd
  intro w hs
  refine ⟨_, _, rfl, ?_⟩
  cases ht : d.throws with
  | true =>
    simp only [Delivery.choice, ht]
    exact ⟨trivial, hs.congr rfl⟩
  | false =>
    simp only [Delivery.choice, ht]
    exact ⟨⟨trivial, rfl, trivial⟩, hs.congr rfl⟩

theorem solo_recordDecision (hopen : row.authorized = none)
    (hd : ∀ w, Stage o mid ids (some row) st done w → d.dies = some i → D i w) :
    Solo t (d.choice answer) d.dies D i (Stage o mid ids (some row) st done)
      (recordDecision o result)
      (fun _ j w => j = i + 1 ∧ Stage o mid ids (some (row.decide result)) st done w) E := by
  apply solo_sql hd
  intro w hs
  have hview : w.db.view t (.authorization o) = some row := (hs.view _).trans hs.rows.ledger
  have hup := Store.update_hit (p := fun a : PaymentAuthorizationEntity => a.authorized.isNone)
    (fun a : PaymentAuthorizationEntity => a.decide result) (fun _ => [])
    (hs.free (t := t) (.authorization o)) hview (by simp [hopen])
  exact ⟨hs.not_aborted, 1, _, congrArg (Option.map _) hup, rfl, hs.putAuthorization (hs.free _) rfl⟩

/-- A call that dies while it charges leaves the row undecided. -/
theorem solo_chargeAndRecord (hopen : row.authorized = none) :
    Solo t (d.choice answer) d.dies
      (fun j w => j < i + 3 ∧ Aside t e.orderId mid ids (some row) st done w) i
      (Stage e.orderId mid ids (some row) st done) (chargeAndRecord e)
      (fun r j w => (d.throws = false ∧ r = answer ∧ j = i + 3) ∧
        Stage e.orderId mid ids (some (row.decide answer)) st done w)
      (fun _ _ w => d.throws = true ∧ Stage e.orderId mid ids (some row) st done w) := by
  apply solo_bind (solo_charge fun w hs _ => ⟨by omega, hs.aside⟩)
  intro r j _
  apply solo_fact
  rintro ⟨ht, rfl, rfl⟩
  apply solo_bind (solo_record (fun w hs _ => ⟨by omega, hs.aside⟩) (fun w w' h hs => hs.congr h) _)
  intro _ j _
  apply solo_fact
  rintro rfl
  apply solo_bind (solo_recordDecision hopen fun w hs _ => ⟨by omega, hs.aside⟩)
  intro _ j _
  apply solo_pure
  rintro w ⟨rfl, hs⟩
  exact ⟨⟨ht, rfl, rfl⟩, hs⟩

/-- The first delivery owns the charge. -/
theorem solo_authorize_first (answer : PaymentResult) (hdies : ∀ j, d.dies = some j → 1 ≤ j) :
    Solo t (d.choice answer) d.dies
      (fun j w => j < 4 ∧
        Aside t e.orderId mid ids (some ⟨e.orderId, none, none, d.now 0⟩) st done w) 0
      (Stage e.orderId mid ids none st done) (authorize e)
      (fun r j w => (d.throws = false ∧ r = answer ∧ j = 4) ∧
        Stage e.orderId mid ids
          (some (PaymentAuthorizationEntity.decide ⟨e.orderId, none, none, d.now 0⟩ answer)) st done w)
      (fun _ _ w => ¬d.throws = false ∧
        Stage e.orderId mid ids (some ⟨e.orderId, none, none, d.now 0⟩) st done w) := by
  apply solo_bind (solo_claim_new fun w _ h0 => absurd (hdies 0 h0) (by omega))
  intro claimed j _
  apply solo_fact
  rintro ⟨rfl, rfl⟩
  exact solo_conseq (solo_chargeAndRecord rfl) (fun w h => h) (fun _ _ _ _ h => h)
    (fun _ _ w _ h => ⟨by simp [h.1], h.2⟩) (fun _ _ _ _ h => h)

/-- A later one takes an undecided row over if it is stale. -/
theorem solo_authorize_again (answer : PaymentResult) (hopen : row.authorized = none) :
    Solo t (d.choice answer) d.dies
      (fun j w => j < 7 ∧ Aside t e.orderId mid ids (some row) st done w) 0
      (Stage e.orderId mid ids (some row) st done) (authorize e)
      (fun r j w => ((d.throws = false ∧ row.isStale (d.now 2) = true) ∧ r = answer ∧ j = 7) ∧
        Stage e.orderId mid ids (some (row.decide answer)) st done w)
      (fun _ _ w => ¬(d.throws = false ∧ row.isStale (d.now 2) = true) ∧
        Stage e.orderId mid ids (some row) st done w) := by
  apply solo_bind (solo_claim_taken fun w hs _ => ⟨by omega, hs.aside⟩)
  intro claimed j _
  apply solo_fact
  rintro ⟨rfl, rfl⟩
  apply solo_bind (solo_selectAuthorization fun w hs _ => ⟨by omega, hs.aside⟩)
  intro existing j _
  apply solo_fact
  rintro ⟨hrow, rfl⟩
  cases hex : (existing : Option PaymentAuthorizationEntity).filter fun a => a.authorized.isSome with
  | some decided =>
    obtain ⟨hsome, hdecided⟩ := Option.filter_eq_some_iff.mp hex
    obtain rfl : row = decided := Option.some.inj (hrow.symm.trans hsome)
    simp [hopen] at hdecided
  | none =>
    apply solo_bind (solo_isClaimStale fun w hs _ => ⟨by omega, hs.aside⟩)
    intro stale j _
    apply solo_fact
    rintro ⟨rfl, rfl⟩
    apply solo_ite
    · intro hfresh
      apply solo_bind (solo_record (fun w hs _ => ⟨by omega, hs.aside⟩) (fun w w' h hs => hs.congr h) _)
      intro _ j _
      apply solo_throw
      rintro w ⟨-, hs⟩
      exact ⟨fun h => by simp [h.2] at hfresh, hs⟩
    · intro hstale
      apply solo_bind (solo_record (fun w hs _ => ⟨by omega, hs.aside⟩) (fun w w' h hs => hs.congr h) _)
      intro _ j _
      apply solo_fact
      rintro rfl
      have hstale' : row.isStale (d.now 2) = true := by simpa using hstale
      apply solo_conseq (solo_chargeAndRecord hopen)
      · exact fun w h => h
      · rintro r j w - ⟨⟨ht, hr, hj⟩, hs⟩
        exact ⟨⟨⟨ht, hstale'⟩, hr, hj⟩, hs⟩
      · rintro _ j w - ⟨ht, hs⟩
        exact ⟨fun h => by simp [ht] at h, hs⟩
      · exact fun j w _ _ h => h

/-- Once decided, the recorded answer is given. -/
theorem solo_authorize_decided (hdecided : row.authorized ≠ none) :
    Solo t (d.choice answer) d.dies (fun _ w => Aside t e.orderId mid ids (some row) st done w) 0
      (Stage e.orderId mid ids (some row) st done) (authorize e)
      (fun r _ w => r = toResult row ∧ Stage e.orderId mid ids (some row) st done w)
      (fun _ _ _ => False) := by
  apply solo_bind (solo_claim_taken fun w hs _ => hs.aside)
  intro claimed j _
  apply solo_fact
  rintro ⟨rfl, rfl⟩
  apply solo_bind (solo_selectAuthorization fun w hs _ => hs.aside)
  intro existing j _
  apply solo_fact
  rintro ⟨hrow, rfl⟩
  cases hex : (existing : Option PaymentAuthorizationEntity).filter fun a => a.authorized.isSome with
  | none =>
    have hnone := Option.filter_eq_none_iff.mp hex row hrow
    simp [Option.isSome_iff_ne_none, hdecided] at hnone
  | some found =>
    obtain ⟨hsome, -⟩ := Option.filter_eq_some_iff.mp hex
    obtain rfl : row = found := Option.some.inj (hrow.symm.trans hsome)
    apply solo_bind (solo_record (fun w hs _ => hs.aside) (fun w w' h hs => hs.congr h) _)
    intro _ j _
    apply solo_pure
    rintro w ⟨-, hs⟩
    exact ⟨rfl, hs⟩

end statements

end OrderLifecycle

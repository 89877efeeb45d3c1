import OrderLifecycle.Database.World

open Framework

namespace OrderLifecycle

variable {α β : Type} {t : Tid} {ch : Choice} {w w' : World}

/-- An SQL statement: refused in a spoilt transaction, failed by itself, or run. -/
theorem sql_cases {x : Option (Except AppError β × World)} {r : Except AppError β}
    (h : (if w.db.aborted t then some (.error .database, w)
      else if ch.fail then some (.error .database, { w with db := w.db.abort t })
      else x.map fun r =>
        match r with
        | (.ok a, w') => (.ok a, w')
        | (.error e, w') => (.error e, { w' with db := w'.db.abort t })) = some (r, w')) :
    (w.db.aborted t = true ∧ r = .error .database ∧ w' = w) ∨
    (w.db.aborted t = false ∧ ch.fail = true ∧ r = .error .database ∧
      w' = { w with db := w.db.abort t }) ∨
    (w.db.aborted t = false ∧ ch.fail = false ∧ ((∃ b, r = .ok b ∧ x = some (.ok b, w')) ∨
      ∃ e w₁, r = .error e ∧ x = some (.error e, w₁) ∧ w' = { w₁ with db := w₁.db.abort t })) := by
  split at h
  · next ha =>
    cases h
    exact .inl ⟨ha, rfl, rfl⟩
  · next ha =>
    have ha' : w.db.aborted t = false := by simpa using ha
    split at h
    · next hf =>
      cases h
      exact .inr (.inl ⟨ha', hf, rfl, rfl⟩)
    · next hf =>
      have hf' : ch.fail = false := by simpa using hf
      obtain ⟨⟨r', w₁⟩, hx, he⟩ := Option.map_eq_some_iff.mp h
      refine .inr (.inr ⟨ha', hf', ?_⟩)
      cases r' with
      | ok a =>
        cases he
        exact .inl ⟨a, rfl, hx⟩
      | error e =>
        cases he
        exact .inr ⟨e, w₁, rfl, hx, rfl⟩

theorem updateRow_cases {key : Key} {p : Row key → Bool} {f : Row key → Row key}
    {deeds : Row key → List Deed} {r : Except AppError Nat}
    (h : (w.db.update t key p f fun row => (deeds row).map (Prod.mk t)).map (fun r =>
      ((.ok r.1 : Except AppError Nat), { w with db := r.2 })) = some (r, w')) :
    (r = .ok 0 ∧ w' = w ∧ ∀ row, w.db.view t key = some row → p row = false) ∨
    (r = .ok 1 ∧ ∃ row hf, w.db.view t key = some row ∧ p row = true ∧
      w' = { w with db := w.db.put t key (some (f row)) ((deeds row).map (Prod.mk t)) hf }) := by
  obtain ⟨⟨n, db⟩, hup, he⟩ := Option.map_eq_some_iff.mp h
  cases he
  rcases Store.update_cases hup with ⟨rfl, rfl, hno⟩ | ⟨rfl, row, hf, hv, hp, rfl⟩
  · exact .inl ⟨rfl, rfl, hno⟩
  · exact .inr ⟨rfl, row, hf, hv, hp, rfl⟩

theorem insertFresh_cases {k : Uuid → Key} {row : Choice → (id : Uuid) → Row (k id)}
    {r : Except AppError (Σ id, Row (k id))}
    (h : (w.db.insert t (k ch.fresh) (row ch ch.fresh) []).bind (fun r =>
      if r.1 then some ((.ok ⟨ch.fresh, row ch ch.fresh⟩ : Except AppError (Σ id, Row (k id))),
        { w with db := r.2 }) else none) = some (r, w')) :
    r = .ok ⟨ch.fresh, row ch ch.fresh⟩ ∧ w.db.view t (k ch.fresh) = none ∧
      ∃ hf, w' = { w with db := w.db.put t (k ch.fresh) (some (row ch ch.fresh)) [] hf } := by
  obtain ⟨⟨b, db⟩, hins, he⟩ := Option.bind_eq_some_iff.mp h
  rcases Store.insert_cases hins with ⟨rfl, -, -⟩ | ⟨rfl, hv, hf, rfl⟩
  · cases he
  · cases he
    exact ⟨rfl, hv, hf, rfl⟩

end OrderLifecycle

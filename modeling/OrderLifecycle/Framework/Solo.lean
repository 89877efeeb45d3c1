import OrderLifecycle.Framework.Program

namespace Framework

variable {σ χ κ η ε α β ρ : Type}

/-- Runs a program without anybody else: statement `i` with the choice `ch i`, up to its result
or to the death of thread `t` before statement `dies`. -/
def Prog.solo (t : Tid) (ch : Nat → χ) (dies : Option Nat) :
    Prog σ χ α → Nat → σ → Option (σ × Option (α × Nat))
  | .ret a, i, s => some (s, some (a, i))
  | .act _ f g, i, s =>
    if dies = some i then some (s, none)
    else (f t (ch i) s).bind fun r => (g r.1).solo t ch dies (i + 1) r.2

/-! ### Such a run is a run of the system -/

/-- What thread `t` is after it ran alone. -/
def soloEnd (k : κ) : Option (ρ × Nat) → κ × Thread σ χ ρ
  | some (r, _) => (k, .running (.ret r))
  | none => (k, .crashed)

/-- What the state is then. -/
def System.soloShared (S : System σ χ κ η ρ) (t : Tid) (s : σ) : Option (ρ × Nat) → σ
  | some _ => s
  | none => S.crash t s

/-- Alone or in company, the statements of a call do the same. -/
theorem Prog.solo_run (S : System σ χ κ η ρ) {t : Tid} {ch : Nat → χ} {dies : Option Nat} {k : κ}
    {p : Prog σ χ ρ} {i : Nat} {c : Config σ χ κ ρ} {s : σ} {r : Option (ρ × Nat)}
    (ht : c.threads t = some (k, .running p)) (h : p.solo t ch dies i c.shared = some (s, r)) :
    ∃ ms c', S.run c ms = some c' ∧ c'.threads t = some (soloEnd k r) ∧
      c'.shared = S.soloShared t s r ∧
      ∀ t', t' ≠ t → c'.threads t' = c.threads t' := by
  induction p generalizing i c with
  | ret a =>
    cases h
    exact ⟨[], c, rfl, ht, rfl, fun _ _ => rfl⟩
  | act β f g ih =>
    simp only [solo] at h
    split at h
    · cases h
      refine ⟨[.crash t], c.set (S.crash t c.shared) t k .crashed, ?_, Function.update_self .., rfl,
        fun t' ht' => Function.update_of_ne ht' ..⟩
      simp [System.run, System.next, ht]
    · obtain ⟨⟨b, s₁⟩, hf, hg⟩ := Option.bind_eq_some_iff.mp h
      obtain ⟨ms, c', hrun, ht', hs, ho⟩ :=
        ih b (c := c.set s₁ t k (.running (g b))) (Function.update_self ..) hg
      refine ⟨.step t (ch i) :: ms, c', ?_, ht', hs, fun t' hne => ?_⟩
      · simpa [System.run, System.next, ht, hf] using hrun
      · rw [ho t' hne]
        exact Function.update_of_ne hne ..

/-! ### Rules -/

/-- From statement `i` on, statement `j` is reached. -/
def Survives (dies : Option Nat) (i j : Nat) : Prop :=
  i ≤ j ∧ ∀ l, dies = some l → i ≤ l → j ≤ l

theorem Survives.refl (dies : Option Nat) (i : Nat) : Survives dies i i :=
  ⟨Nat.le_refl i, fun _ _ h => h⟩

theorem Survives.trans {dies : Option Nat} {i j l : Nat} (h : Survives dies i j)
    (h' : Survives dies j l) : Survives dies i l :=
  ⟨Nat.le_trans h.1 h'.1, fun m hm hi => h'.2 m hm (h.2 m hm hi)⟩

theorem Survives.succ {dies : Option Nat} {i : Nat} (h : dies ≠ some i) :
    Survives dies i (i + 1) := by
  refine ⟨Nat.le_succ i, fun l hl hi => ?_⟩
  have hne : l ≠ i := fun e => h (e ▸ hl)
  omega

/-- From `P` the action, run alone from statement `i` on, ends: in `Q` or `E` at the statement
reached, or dead in `D`. -/
def Solo (t : Tid) (ch : Nat → χ) (dies : Option Nat) (D : Nat → σ → Prop) (i : Nat)
    (P : σ → Prop) (x : Action σ χ ε α) (Q : α → Nat → σ → Prop) (E : ε → Nat → σ → Prop) : Prop :=
  ∀ s, P s → ∃ s' r, x.run.solo t ch dies i s = some (s', r) ∧
    match r with
    | none => ∃ j, dies = some j ∧ i ≤ j ∧ D j s'
    | some (.ok a, j) => Survives dies i j ∧ Q a j s'
    | some (.error e, j) => Survives dies i j ∧ E e j s'

section rules

variable {t : Tid} {ch : Nat → χ} {dies : Option Nat} {D D' : Nat → σ → Prop} {i : Nat}
  {P P' : σ → Prop} {Q Q' : α → Nat → σ → Prop} {R : β → Nat → σ → Prop}
  {E E' : ε → Nat → σ → Prop}

theorem Prog.solo_bind {p : Prog σ χ α} {g : α → Prog σ χ β} {s : σ} :
    (p >>= g).solo t ch dies i s = (p.solo t ch dies i s).bind fun x =>
      match x.2 with
      | none => some (x.1, none)
      | some (a, j) => (g a).solo t ch dies j x.1 := by
  induction p generalizing i s with
  | ret a => rfl
  | act γ f h ih =>
    change Prog.solo t ch dies (.act γ f fun b => h b >>= g) i s = _
    simp only [solo]
    split
    · rfl
    · cases f t (ch i) s with
      | none => rfl
      | some r => exact ih r.1

theorem solo_conseq {x : Action σ χ ε α} (h : Solo t ch dies D i P x Q E)
    (hp : ∀ s, P' s → P s) (hq : ∀ a j s, Survives dies i j → Q a j s → Q' a j s)
    (he : ∀ e j s, Survives dies i j → E e j s → E' e j s)
    (hd : ∀ j s, dies = some j → i ≤ j → D j s → D' j s) :
    Solo t ch dies D' i P' x Q' E' := by
  intro s hs
  obtain ⟨s', r, hr, hpost⟩ := h s (hp s hs)
  refine ⟨s', r, hr, ?_⟩
  match r with
  | none =>
    obtain ⟨j, hj, hij, hD⟩ := hpost
    exact ⟨j, hj, hij, hd j s' hj hij hD⟩
  | some (.ok a, j) => exact ⟨hpost.1, hq a j s' hpost.1 hpost.2⟩
  | some (.error e, j) => exact ⟨hpost.1, he e j s' hpost.1 hpost.2⟩

theorem solo_pre {x : Action σ χ ε α} (hp : ∀ s, P' s → P s) (h : Solo t ch dies D i P x Q E) :
    Solo t ch dies D i P' x Q E :=
  fun s hs => h s (hp s hs)

theorem solo_exists {ι : Type} {P : ι → σ → Prop} {x : Action σ χ ε α}
    (h : ∀ a, Solo t ch dies D i (P a) x Q E) : Solo t ch dies D i (fun s => ∃ a, P a s) x Q E :=
  fun s ⟨a, ha⟩ => h a s ha

theorem solo_fact {p : Prop} {x : Action σ χ ε α} (h : p → Solo t ch dies D i P x Q E) :
    Solo t ch dies D i (fun s => p ∧ P s) x Q E :=
  fun s hs => h hs.1 s hs.2

theorem solo_pure {a : α} (h : ∀ s, P s → Q a i s) :
    Solo t ch dies D i P (pure a : Action σ χ ε α) Q E :=
  fun s hs => ⟨s, some (.ok a, i), rfl, .refl dies i, h s hs⟩

theorem solo_throw {e : ε} (h : ∀ s, P s → E e i s) :
    Solo t ch dies D i P (throw e : Action σ χ ε α) Q E :=
  fun s hs => ⟨s, some (.error e, i), rfl, .refl dies i, h s hs⟩

theorem solo_bind {x : Action σ χ ε α} {f : α → Action σ χ ε β} (hx : Solo t ch dies D i P x Q E)
    (hf : ∀ a j, Survives dies i j → Solo t ch dies D j (Q a j) (f a) R E) :
    Solo t ch dies D i P (x >>= f) R E := by
  intro s hs
  obtain ⟨s', r, hr, hpost⟩ := hx s hs
  change ∃ s' r, Prog.solo t ch dies (x.run >>= _) i s = _ ∧ _
  rw [Prog.solo_bind, hr]
  match r with
  | none => exact ⟨s', none, rfl, hpost⟩
  | some (.error e, j) => exact ⟨s', some (.error e, j), rfl, hpost⟩
  | some (.ok a, j) =>
    obtain ⟨hij, hq⟩ := hpost
    obtain ⟨s'', r', hr', hpost'⟩ := hf a j hij s' hq
    refine ⟨s'', r', hr', ?_⟩
    match r' with
    | none =>
      obtain ⟨l, hl, hjl, hD⟩ := hpost'
      exact ⟨l, hl, Nat.le_trans hij.1 hjl, hD⟩
    | some (.ok b, l) => exact ⟨hij.trans hpost'.1, hpost'.2⟩
    | some (.error e, l) => exact ⟨hij.trans hpost'.1, hpost'.2⟩

theorem solo_tryCatch {x : Action σ χ ε α} {h : ε → Action σ χ ε α}
    (hx : Solo t ch dies D i P x Q E) (hh : ∀ e j, Survives dies i j → Solo t ch dies D j (E e j) (h e) Q E') :
    Solo t ch dies D i P (tryCatch x h) Q E' := by
  intro s hs
  obtain ⟨s', r, hr, hpost⟩ := hx s hs
  change ∃ s' r, Prog.solo t ch dies (x.run >>= _) i s = _ ∧ _
  rw [Prog.solo_bind, hr]
  match r with
  | none => exact ⟨s', none, rfl, hpost⟩
  | some (.ok a, j) => exact ⟨s', some (.ok a, j), rfl, hpost⟩
  | some (.error e, j) =>
    obtain ⟨hij, he⟩ := hpost
    obtain ⟨s'', r', hr', hpost'⟩ := hh e j hij s' he
    refine ⟨s'', r', hr', ?_⟩
    match r' with
    | none =>
      obtain ⟨l, hl, hjl, hD⟩ := hpost'
      exact ⟨l, hl, Nat.le_trans hij.1 hjl, hD⟩
    | some (.ok b, l) => exact ⟨hij.trans hpost'.1, hpost'.2⟩
    | some (.error e', l) => exact ⟨hij.trans hpost'.1, hpost'.2⟩

/-- Nothing to catch. -/
theorem solo_tryCatch_ok {x : Action σ χ ε α} {h : ε → Action σ χ ε α}
    (hx : Solo t ch dies D i P x Q fun _ _ _ => False) :
    Solo t ch dies D i P (tryCatch x h) Q E :=
  solo_tryCatch hx fun _ _ _ _ hs => hs.elim

theorem solo_ite {c : Prop} [Decidable c] {x y : Action σ χ ε α}
    (hx : c → Solo t ch dies D i P x Q E) (hy : ¬c → Solo t ch dies D i P y Q E) :
    Solo t ch dies D i P (if c then x else y) Q E := by
  by_cases h : c
  · simpa only [if_pos h] using hx h
  · simpa only [if_neg h] using hy h

/-- One statement, which must not have to wait. -/
theorem solo_stmt {f : Stmt σ χ (Except ε α)} (hd : ∀ s, P s → dies = some i → D i s)
    (h : ∀ s, P s → ∃ r s', f t (ch i) s = some (r, s') ∧
      match r with | .ok a => Q a (i + 1) s' | .error e => E e (i + 1) s') :
    Solo t ch dies D i P (stmt f) Q E := by
  intro s hs
  change ∃ s' r, Prog.solo t ch dies (.act _ f .ret) i s = some (s', r) ∧ _
  by_cases hi : dies = some i
  · exact ⟨s, none, by simp [Prog.solo, hi], i, hi, Nat.le_refl i, hd s hs hi⟩
  · obtain ⟨r, s', hf, hpost⟩ := h s hs
    refine ⟨s', some (r, i + 1), by simp [Prog.solo, hi, hf], ?_⟩
    cases r with
    | ok a => exact ⟨.succ hi, hpost⟩
    | error e => exact ⟨.succ hi, hpost⟩

end rules

end Framework

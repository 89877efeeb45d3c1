import OrderLifecycle.Framework.SoloEnds

namespace Framework

variable {σ χ ε α α' β β' : Type}

/-- Two ends: both with a value, or both with an error. -/
def Paired (Q : α → α' → Nat → Nat → σ → σ → Prop) (E : ε → ε → Nat → Nat → σ → σ → Prop) :
    Except ε α × Nat → Except ε α' × Nat → σ → σ → Prop
  | (.ok a, j), (.ok a', j'), s, s' => Q a a' j j' s s'
  | (.error e, j), (.error e', j'), s, s' => E e e' j j' s s'
  | _, _, _, _ => False

/-- From states related by `P` the two actions, each run alone from its statement on with the same
choices, end as `Q` and `E` say if both end. -/
def Lockstep (t : Tid) (ch : Nat → χ) (i i' : Nat) (P : σ → σ → Prop) (x : Action σ χ ε α)
    (x' : Action σ χ ε α') (Q : α → α' → Nat → Nat → σ → σ → Prop)
    (E : ε → ε → Nat → Nat → σ → σ → Prop) : Prop :=
  ∀ s s', P s s' → ∀ u r u' r', x.run.solo t ch none i s = some (u, some r) →
    x'.run.solo t ch none i' s' = some (u', some r') → Paired Q E r r' u u'

/-- Without a death a run alone ends with a result. -/
theorem Prog.solo_none {t : Tid} {ch : Nat → χ} {p : Prog σ χ α} {i : Nat} {s s' : σ} :
    p.solo t ch none i s ≠ some (s', none) := by
  induction p generalizing i s with
  | ret a => exact nofun
  | act γ f g ih =>
    intro h
    obtain ⟨r, -, hr⟩ := Option.bind_eq_some_iff.mp h
    exact ih r.1 hr

variable {t : Tid} {ch : Nat → χ} {i i' : Nat} {P P' : σ → σ → Prop}
  {Q Q' : α → α' → Nat → Nat → σ → σ → Prop} {R : β → β' → Nat → Nat → σ → σ → Prop}
  {E E' : ε → ε → Nat → Nat → σ → σ → Prop} {x : Action σ χ ε α} {x' : Action σ χ ε α'}

theorem lock_pre (hp : ∀ s s', P' s s' → P s s') (h : Lockstep t ch i i' P x x' Q E) :
    Lockstep t ch i i' P' x x' Q E :=
  fun s s' hs => h s s' (hp s s' hs)

theorem lock_conseq (h : Lockstep t ch i i' P x x' Q E)
    (hq : ∀ a a' j j' s s', Q a a' j j' s s' → Q' a a' j j' s s')
    (he : ∀ e e' j j' s s', E e e' j j' s s' → E' e e' j j' s s') :
    Lockstep t ch i i' P x x' Q' E' := by
  intro s s' hs u r u' r' hr hr'
  have hpost := h s s' hs u r u' r' hr hr'
  match r, r' with
  | (.ok a, j), (.ok a', j') => exact hq a a' j j' u u' hpost
  | (.error e, j), (.error e', j') => exact he e e' j j' u u' hpost
  | (.ok _, _), (.error _, _) => exact hpost.elim
  | (.error _, _), (.ok _, _) => exact hpost.elim

theorem lock_fact {p : Prop} (h : p → Lockstep t ch i i' P x x' Q E) :
    Lockstep t ch i i' (fun s s' => p ∧ P s s') x x' Q E :=
  fun s s' hs => h hs.1 s s' hs.2

theorem lock_pure {a : α} {a' : α'} (h : ∀ s s', P s s' → Q a a' i i' s s') :
    Lockstep t ch i i' P (pure a : Action σ χ ε α) (pure a' : Action σ χ ε α') Q E := by
  intro s s' hs u r u' r' hr hr'
  cases hr
  cases hr'
  exact h s s' hs

theorem lock_throw {e e' : ε} (h : ∀ s s', P s s' → E e e' i i' s s') :
    Lockstep t ch i i' P (throw e : Action σ χ ε α) (throw e' : Action σ χ ε α') Q E := by
  intro s s' hs u r u' r' hr hr'
  cases hr
  cases hr'
  exact h s s' hs

/-- How a run of `x >>= f` comes to its end. -/
theorem Prog.solo_bind_some {f : α → Action σ χ ε β} {s u : σ} {r : Except ε β × Nat}
    (h : (x >>= f).run.solo t ch none i s = some (u, some r)) :
    ∃ s₁ r₁, x.run.solo t ch none i s = some (s₁, some r₁) ∧
      match r₁ with
      | (.ok a, j) => (f a).run.solo t ch none j s₁ = some (u, some r)
      | (.error e, j) => u = s₁ ∧ r = (.error e, j) := by
  change Prog.solo t ch none (x.run >>= _) i s = _ at h
  rw [Prog.solo_bind] at h
  obtain ⟨⟨s₁, r₁⟩, h₁, h⟩ := Option.bind_eq_some_iff.mp h
  match r₁ with
  | none => exact absurd h₁ Prog.solo_none
  | some (.ok a, j) => exact ⟨s₁, (.ok a, j), h₁, h⟩
  | some (.error e, j) =>
    cases h
    exact ⟨_, (.error e, j), h₁, rfl, rfl⟩

theorem Prog.solo_bind_ok {f : α → Action σ χ ε β} {s s₁ : σ} {a : α} {j : Nat}
    (h : x.run.solo t ch none i s = some (s₁, some (.ok a, j))) :
    (x >>= f).run.solo t ch none i s = (f a).run.solo t ch none j s₁ := by
  change Prog.solo t ch none (x.run >>= _) i s = _
  rw [Prog.solo_bind, h]
  rfl

theorem Prog.solo_bind_error {f : α → Action σ χ ε β} {s s₁ : σ} {e : ε} {j : Nat}
    (h : x.run.solo t ch none i s = some (s₁, some (.error e, j))) :
    (x >>= f).run.solo t ch none i s = some (s₁, some (.error e, j)) := by
  change Prog.solo t ch none (x.run >>= _) i s = _
  rw [Prog.solo_bind, h]
  rfl

theorem lock_bind {f : α → Action σ χ ε β} {f' : α' → Action σ χ ε β'}
    (hx : Lockstep t ch i i' P x x' Q E)
    (hf : ∀ a a' j j', Lockstep t ch j j' (Q a a' j j') (f a) (f' a') R E) :
    Lockstep t ch i i' P (x >>= f) (x' >>= f') R E := by
  intro s s' hs u r u' r' hr hr'
  obtain ⟨s₁, r₁, h₁, hr⟩ := Prog.solo_bind_some hr
  obtain ⟨s₁', r₁', h₁', hr'⟩ := Prog.solo_bind_some hr'
  have hpost := hx s s' hs s₁ r₁ s₁' r₁' h₁ h₁'
  match r₁, r₁' with
  | (.ok a, j), (.ok a', j') => exact hf a a' j j' s₁ s₁' hpost u r u' r' hr hr'
  | (.error e, j), (.error e', j') =>
    obtain ⟨rfl, rfl⟩ := hr
    obtain ⟨rfl, rfl⟩ := hr'
    exact hpost
  | (.ok _, _), (.error _, _) => exact hpost.elim
  | (.error _, _), (.ok _, _) => exact hpost.elim

/-- Both at the same statement. -/
def Level (Q : α → α' → σ → σ → Prop) : α → α' → Nat → Nat → σ → σ → Prop :=
  fun a a' j j' s s' => j = j' ∧ Q a a' s s'

theorem lock_seq {Q : α → α' → σ → σ → Prop} {f : α → Action σ χ ε β} {f' : α' → Action σ χ ε β'}
    (hx : Lockstep t ch i i P x x' (Level Q) E)
    (hf : ∀ a a' j, Lockstep t ch j j (Q a a') (f a) (f' a') R E) :
    Lockstep t ch i i P (x >>= f) (x' >>= f') R E := by
  apply lock_bind hx
  intro a a' j j'
  apply lock_fact
  rintro rfl
  exact hf a a' j

theorem lock_tryCatch {h : ε → Action σ χ ε α} {h' : ε → Action σ χ ε α'}
    (hx : Lockstep t ch i i' P x x' Q E)
    (hh : ∀ e e' j j', Lockstep t ch j j' (E e e' j j') (h e) (h' e') Q E') :
    Lockstep t ch i i' P (tryCatch x h) (tryCatch x' h') Q E' := by
  intro s s' hs u r u' r' hr hr'
  change Prog.solo t ch none (x.run >>= _) i s = _ at hr
  change Prog.solo t ch none (x'.run >>= _) i' s' = _ at hr'
  rw [Prog.solo_bind] at hr hr'
  obtain ⟨⟨s₁, r₁⟩, h₁, hr⟩ := Option.bind_eq_some_iff.mp hr
  obtain ⟨⟨s₁', r₁'⟩, h₁', hr'⟩ := Option.bind_eq_some_iff.mp hr'
  match r₁, r₁' with
  | none, _ => exact absurd h₁ Prog.solo_none
  | _, none => exact absurd h₁' Prog.solo_none
  | some (.ok a, j), some (.ok a', j') =>
    have hpost := hx s s' hs s₁ _ s₁' _ h₁ h₁'
    cases hr
    cases hr'
    exact hpost
  | some (.error e, j), some (.error e', j') =>
    have hpost := hx s s' hs s₁ _ s₁' _ h₁ h₁'
    exact hh e e' j j' s₁ s₁' hpost u r u' r' hr hr'
  | some (.ok _, _), some (.error _, _) => exact (hx s s' hs s₁ _ s₁' _ h₁ h₁').elim
  | some (.error _, _), some (.ok _, _) => exact (hx s s' hs s₁ _ s₁' _ h₁ h₁').elim

theorem lock_ite {c c' : Prop} [Decidable c] [Decidable c'] {y : Action σ χ ε α}
    {y' : Action σ χ ε α'} (hc : c ↔ c') (hx : c → Lockstep t ch i i' P x x' Q E)
    (hy : ¬c → Lockstep t ch i i' P y y' Q E) :
    Lockstep t ch i i' P (if c then x else y) (if c' then x' else y') Q E := by
  by_cases h : c
  · rw [if_pos h, if_pos (hc.mp h)]
    exact hx h
  · rw [if_neg h, if_neg fun h' => h (hc.mpr h')]
    exact hy h

theorem lock_stmt {f : Stmt σ χ (Except ε α)} {f' : Stmt σ χ (Except ε α')}
    (h : ∀ s s' r r' u u', P s s' → f t (ch i) s = some (r, u) → f' t (ch i') s' = some (r', u') →
      Paired Q E (r, i + 1) (r', i' + 1) u u') :
    Lockstep t ch i i' P (stmt f) (stmt f') Q E := by
  intro s s' hs u r u' r' hr hr'
  change Prog.solo t ch none (.act _ f .ret) i s = _ at hr
  change Prog.solo t ch none (.act _ f' .ret) i' s' = _ at hr'
  simp only [Prog.solo, reduceCtorEq, if_false] at hr hr'
  obtain ⟨⟨r₁, s₁⟩, hf, he⟩ := Option.bind_eq_some_iff.mp hr
  obtain ⟨⟨r₁', s₁'⟩, hf', he'⟩ := Option.bind_eq_some_iff.mp hr'
  have hpost := h s s' r₁ r₁' s₁ s₁' hs hf hf'
  cases he
  cases he'
  exact hpost

end Framework

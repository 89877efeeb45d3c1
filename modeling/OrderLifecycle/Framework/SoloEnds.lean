import OrderLifecycle.Framework.Solo

namespace Framework

variable {σ χ ε α β : Type}

/-- As `Solo`, of the runs that come to an end. -/
def SoloEnds (t : Tid) (ch : Nat → χ) (dies : Option Nat) (D : Nat → σ → Prop) (i : Nat)
    (P : σ → Prop) (x : Action σ χ ε α) (Q : α → Nat → σ → Prop) (E : ε → Nat → σ → Prop) : Prop :=
  ∀ s, P s → ∀ s' r, x.run.solo t ch dies i s = some (s', r) →
    match r with
    | none => ∃ j, D j s'
    | some (.ok a, j) => Q a j s'
    | some (.error e, j) => E e j s'

variable {t : Tid} {ch : Nat → χ} {dies : Option Nat} {D : Nat → σ → Prop} {i : Nat}
  {P P' : σ → Prop} {Q : α → Nat → σ → Prop} {R : β → Nat → σ → Prop} {E E' : ε → Nat → σ → Prop}

theorem ends_pre {x : Action σ χ ε α} (hp : ∀ s, P' s → P s)
    (h : SoloEnds t ch dies D i P x Q E) : SoloEnds t ch dies D i P' x Q E :=
  fun s hs => h s (hp s hs)

theorem ends_conseq {D' : Nat → σ → Prop} {Q' : α → Nat → σ → Prop} {x : Action σ χ ε α}
    (h : SoloEnds t ch dies D i P x Q E) (hq : ∀ a j s, Q a j s → Q' a j s)
    (he : ∀ e j s, E e j s → E' e j s) (hd : ∀ j s, D j s → D' j s) :
    SoloEnds t ch dies D' i P x Q' E' := by
  intro s hs s' r hr
  have hpost := h s hs s' r hr
  match r with
  | none =>
    obtain ⟨j, hj⟩ := hpost
    exact ⟨j, hd j s' hj⟩
  | some (.ok a, j) => exact hq a j s' hpost
  | some (.error e, j) => exact he e j s' hpost

theorem ends_fact {p : Prop} {x : Action σ χ ε α} (h : p → SoloEnds t ch dies D i P x Q E) :
    SoloEnds t ch dies D i (fun s => p ∧ P s) x Q E :=
  fun s hs => h hs.1 s hs.2

theorem ends_pure {a : α} (h : ∀ s, P s → Q a i s) :
    SoloEnds t ch dies D i P (pure a : Action σ χ ε α) Q E := by
  intro s hs s' r hr
  cases hr
  exact h s hs

theorem ends_throw {e : ε} (h : ∀ s, P s → E e i s) :
    SoloEnds t ch dies D i P (throw e : Action σ χ ε α) Q E := by
  intro s hs s' r hr
  cases hr
  exact h s hs

theorem ends_bind {x : Action σ χ ε α} {f : α → Action σ χ ε β}
    (hx : SoloEnds t ch dies D i P x Q E)
    (hf : ∀ a j, SoloEnds t ch dies D j (Q a j) (f a) R E) :
    SoloEnds t ch dies D i P (x >>= f) R E := by
  intro s hs s' r hr
  change Prog.solo t ch dies (x.run >>= _) i s = _ at hr
  rw [Prog.solo_bind] at hr
  obtain ⟨⟨s₁, r₁⟩, h₁, hr⟩ := Option.bind_eq_some_iff.mp hr
  have hpost := hx s hs s₁ r₁ h₁
  match r₁ with
  | none =>
    cases hr
    exact hpost
  | some (.error e, j) =>
    cases hr
    exact hpost
  | some (.ok a, j) => exact hf a j s₁ hpost s' r hr

theorem ends_tryCatch {x : Action σ χ ε α} {h : ε → Action σ χ ε α}
    (hx : SoloEnds t ch dies D i P x Q E)
    (hh : ∀ e j, SoloEnds t ch dies D j (E e j) (h e) Q E') :
    SoloEnds t ch dies D i P (tryCatch x h) Q E' := by
  intro s hs s' r hr
  change Prog.solo t ch dies (x.run >>= _) i s = _ at hr
  rw [Prog.solo_bind] at hr
  obtain ⟨⟨s₁, r₁⟩, h₁, hr⟩ := Option.bind_eq_some_iff.mp hr
  have hpost := hx s hs s₁ r₁ h₁
  match r₁ with
  | none =>
    cases hr
    exact hpost
  | some (.ok a, j) =>
    cases hr
    exact hpost
  | some (.error e, j) => exact hh e j s₁ hpost s' r hr

theorem ends_ite {c : Prop} [Decidable c] {x y : Action σ χ ε α}
    (hx : c → SoloEnds t ch dies D i P x Q E) (hy : ¬c → SoloEnds t ch dies D i P y Q E) :
    SoloEnds t ch dies D i P (if c then x else y) Q E := by
  by_cases h : c
  · simpa only [if_pos h] using hx h
  · simpa only [if_neg h] using hy h

theorem ends_stmt {f : Stmt σ χ (Except ε α)} (hd : ∀ s, P s → dies = some i → D i s)
    (h : ∀ s r s', P s → dies ≠ some i → f t (ch i) s = some (r, s') →
      match r with | .ok a => Q a (i + 1) s' | .error e => E e (i + 1) s') :
    SoloEnds t ch dies D i P (stmt f) Q E := by
  intro s hs s' r hr
  change Prog.solo t ch dies (.act _ f .ret) i s = _ at hr
  simp only [Prog.solo] at hr
  split at hr
  · next hi =>
    cases hr
    exact ⟨i, hd s hs hi⟩
  · next hi =>
    obtain ⟨⟨r₁, s₁⟩, hf, he⟩ := Option.bind_eq_some_iff.mp hr
    have hpost := h s r₁ s₁ hs hi hf
    cases he
    cases r₁ with
    | ok a => exact hpost
    | error e => exact hpost

end Framework

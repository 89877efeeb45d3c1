import OrderLifecycle.Framework.RelyGuarantee

namespace Framework

variable {σ χ κ η ε α β ρ : Type}

/-- Some of the steps that statements can take, by thread, choice, the state before, the result and
the state after. -/
abbrev Steps (σ χ : Type) := (β : Type) → Tid → χ → σ → β → σ → Prop

open Classical in
/-- The statement, without its other steps. -/
noncomputable def Stmt.restrict (ok : Steps σ χ) (f : Stmt σ χ β) : Stmt σ χ β :=
  fun t ch s => (f t ch s).filter fun r => ok β t ch s r.1 r.2

noncomputable def Prog.restrict (ok : Steps σ χ) : Prog σ χ α → Prog σ χ α
  | .ret a => .ret a
  | .act β f g => .act β (f.restrict ok) fun b => (g b).restrict ok

noncomputable def Action.restrict (ok : Steps σ χ) (x : Action σ χ ε α) : Action σ χ ε α :=
  ExceptT.mk (x.run.restrict ok)

variable {ok : Steps σ χ}

theorem restrict_eq_some {f : Stmt σ χ β} {t : Tid} {ch : χ} {s s' : σ} {b : β} :
    Stmt.restrict ok f t ch s = some (b, s') ↔ f t ch s = some (b, s') ∧ ok β t ch s b s' := by
  simp [Stmt.restrict, Option.filter_eq_some_iff]

theorem restrict_bind {p : Prog σ χ α} {g : α → Prog σ χ β} :
    (p >>= g).restrict ok = p.restrict ok >>= fun a => (g a).restrict ok := by
  induction p with
  | ret a => rfl
  | act γ f h ih => exact congrArg _ (funext ih)

/-! ### Runs without the other steps -/

noncomputable def Thread.restrict (ok : Steps σ χ) : Thread σ χ ρ → Thread σ χ ρ
  | .running p => .running (p.restrict ok)
  | .crashed => .crashed

/-- The system whose calls take such steps only. -/
noncomputable def System.restrict (S : System σ χ κ η ρ) (ok : κ → Steps σ χ) : System σ χ κ η ρ :=
  { S with body := fun k => (S.body k).restrict (ok k) }

noncomputable def Config.restrict (ok : κ → Steps σ χ) (c : Config σ χ κ ρ) : Config σ χ κ ρ :=
  ⟨c.shared, fun t => (c.threads t).map fun x => (x.1, x.2.restrict (ok x.1))⟩

/-- What the scheduler asks for is such a step. -/
def Config.Permits (ok : κ → Steps σ χ) (c : Config σ χ κ ρ) : Label χ κ η → Prop
  | .step t ch => ∀ k β f g b s, c.threads t = some (k, .running (.act β f g)) →
      f t ch c.shared = some (b, s) → ok k β t ch c.shared b s
  | _ => True

section runs

variable {S : System σ χ κ η ρ} {ok : κ → Steps σ χ} {c c' : Config σ χ κ ρ} {l : Label χ κ η}

theorem restrict_set {s : σ} {t : Tid} {k : κ} {th : Thread σ χ ρ} :
    (c.set s t k th).restrict ok = (c.restrict ok).set s t k (th.restrict (ok k)) := by
  refine Config.mk.injEq .. |>.mpr ⟨rfl, funext fun t' => ?_⟩
  by_cases e : t' = t
  · subst e
    simp [Config.set]
  · simp [Config.set, Config.restrict, Function.update_of_ne e]

theorem restrict_thread {t : Tid} {k : κ} {th : Thread σ χ ρ} (h : c.threads t = some (k, th)) :
    (c.restrict ok).threads t = some (k, th.restrict (ok k)) := by
  simp [Config.restrict, h]

/-- A step that is permitted is one of the restricted system. -/
theorem next_restrict (h : S.next c l = some c') (hok : c.Permits ok l) :
    (S.restrict ok).next (c.restrict ok) l = some (c'.restrict ok) := by
  cases l with
  | start t k =>
    simp only [System.next] at h
    split at h
    · next ht =>
      split at h
      · next he =>
        cases h
        have ht' : (c.restrict ok).threads t = none := by simp [Config.restrict, ht]
        have he' : (S.restrict ok).enabled k (c.restrict ok).shared = true := he
        simp only [System.next, ht', he', if_true, restrict_set]
        rfl
      · cases h
    · cases h
  | step t ch =>
    simp only [System.next] at h
    split at h
    · next k β f g ht =>
      obtain ⟨⟨b, s⟩, hf, rfl⟩ := Option.map_eq_some_iff.mp h
      have hf' : Stmt.restrict (ok k) f t ch (c.restrict ok).shared = some (b, s) :=
        restrict_eq_some.mpr ⟨hf, hok k β f g b s ht hf⟩
      simp only [System.next, restrict_thread ht, Thread.restrict, Prog.restrict, hf',
        Option.map_some, restrict_set]
    · cases h
  | crash t =>
    simp only [System.next] at h
    split at h
    · next k β f g ht =>
      cases h
      simp only [System.next, restrict_thread ht, Thread.restrict, Prog.restrict, restrict_set]
      rfl
    · cases h
  | env e =>
    obtain ⟨s, hs, rfl⟩ := Option.map_eq_some_iff.mp h
    have hs' : (S.restrict ok).env e (c.restrict ok).shared = some s := hs
    simp only [System.next, hs', Option.map_some]
    rfl

end runs

/-! ### Calls whose steps are known to keep a logic -/

/-- Steps that keep the logic and whose result is a good one. -/
def Logic.kept (L : Logic σ χ κ) (good : (β : Type) → χ → β → Prop) (k : κ) : Steps σ χ :=
  fun β t ch s b s' => good β ch b ∧ L.inv s' ∧ L.guar t k s s'

/-- `Hoare`, for an action of which it is known that its steps keep the logic. -/
def Keeping (L : Logic σ χ κ) (good : (β : Type) → χ → β → Prop) (t : Tid) (k : κ) (P : σ → Prop)
    (x : Action σ χ ε α) (Q : α → σ → Prop) (E : ε → σ → Prop) : Prop :=
  Hoare L t k P (x.restrict (L.kept good k)) Q E

section rules

variable {L : Logic σ χ κ} {good : (β : Type) → χ → β → Prop} {t : Tid} {k : κ}
  {P P' : σ → Prop} {Q Q' : α → σ → Prop} {R : β → σ → Prop} {E E' : ε → σ → Prop}

theorem wp_kept {p : Prog σ χ α} {s : σ} :
    wp L t k (p.restrict (L.kept good k)) (fun _ _ => True) s := by
  induction p generalizing s with
  | ret a => trivial
  | act β f g ih =>
    intro s₁ _ _ ch _ b s₂ hf
    obtain ⟨-, -, hi, hg⟩ := restrict_eq_some.mp hf
    exact ⟨hi, hg, ih b⟩

theorem keeping_pure {a : α} (h : ∀ s, P s → Q a s) :
    Keeping L good t k P (pure a : Action σ χ ε α) Q E :=
  hoare_pure h

theorem keeping_throw {e : ε} (h : ∀ s, P s → E e s) :
    Keeping L good t k P (throw e : Action σ χ ε α) Q E :=
  hoare_throw h

theorem keeping_conseq {x : Action σ χ ε α} (h : Keeping L good t k P x Q E)
    (hp : ∀ s, P' s → P s) (hq : ∀ a s, Q a s → Q' a s) (he : ∀ e s, E e s → E' e s) :
    Keeping L good t k P' x Q' E' :=
  hoare_conseq h hp hq he

theorem keeping_pre {x : Action σ χ ε α} (hp : ∀ s, P' s → P s) (h : Keeping L good t k P x Q E) :
    Keeping L good t k P' x Q E :=
  hoare_pre hp h

theorem keeping_fact {p : Prop} {x : Action σ χ ε α} (h : p → Keeping L good t k P x Q E) :
    Keeping L good t k (fun s => p ∧ P s) x Q E :=
  hoare_fact h

theorem keeping_bind {x : Action σ χ ε α} {f : α → Action σ χ ε β}
    (hx : Keeping L good t k P x Q E) (hf : ∀ a, Keeping L good t k (Q a) (f a) R E) :
    Keeping L good t k P (x >>= f) R E := by
  intro s hs
  change wp L t k ((x.run >>= _ : Prog σ χ _).restrict _) _ s
  rw [restrict_bind]
  apply wp_bind
  apply wp_mono _ (hx s hs)
  intro r s hr
  cases r with
  | ok a => exact hf a s hr
  | error e => exact hr

theorem keeping_tryCatch {x : Action σ χ ε α} {h : ε → Action σ χ ε α}
    (hx : Keeping L good t k P x Q E) (hh : ∀ e, Keeping L good t k (E e) (h e) Q E') :
    Keeping L good t k P (tryCatch x h) Q E' := by
  intro s hs
  change wp L t k ((x.run >>= _ : Prog σ χ _).restrict _) _ s
  rw [restrict_bind]
  apply wp_bind
  apply wp_mono _ (hx s hs)
  intro r s hr
  cases r with
  | ok a => exact hr
  | error e => exact hh e s hr

theorem keeping_ite {c : Prop} [Decidable c] {x y : Action σ χ ε α}
    (hx : c → Keeping L good t k P x Q E) (hy : ¬c → Keeping L good t k P y Q E) :
    Keeping L good t k P (if c then x else y) Q E := by
  by_cases h : c
  · simpa only [if_pos h] using hx h
  · simpa only [if_neg h] using hy h

/-- One statement, from a stable precondition: what it does to the logic is known. -/
theorem keeping_stmt {f : Stmt σ χ (Except ε β)} (hP : L.Stable t P)
    (h : ∀ s ch r s', L.inv s → P s → f t ch s = some (r, s') → good (Except ε β) ch r →
      L.inv s' → L.guar t k s s' → match r with | .ok a => R a s' | .error e => E e s') :
    Keeping L good t k P (stmt f) R E := by
  apply hoare_stmt hP
  intro s ch r s' hi _ hp hf
  obtain ⟨hf, hgood, hi', hg⟩ := restrict_eq_some.mp hf
  exact ⟨hi', hg, h s ch r s' hi hp hf hgood hi' hg⟩

end rules

end Framework

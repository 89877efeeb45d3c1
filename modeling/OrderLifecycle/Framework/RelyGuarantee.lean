import Mathlib.Logic.Relation
import OrderLifecycle.Framework.Program

namespace Framework

variable {σ χ κ η ε α β ρ : Type}

/-- What the threads of a system promise each other: an invariant of the shared state, the
changes each call makes in one step, those of the environment, and the choices admitted. -/
structure Logic (σ χ κ : Type) where
  inv : σ → Prop
  guar : Tid → κ → σ → σ → Prop
  envGuar : σ → σ → Prop
  choice : χ → Prop

namespace Logic

/-- One step of anybody but thread `t`. -/
def rely (L : Logic σ χ κ) (t : Tid) (s s' : σ) : Prop :=
  L.inv s ∧ L.inv s' ∧ ((∃ t' k, t' ≠ t ∧ L.guar t' k s s') ∨ L.envGuar s s')

/-- An assertion of thread `t` that no other thread can break. -/
def Stable (L : Logic σ χ κ) (t : Tid) (P : σ → Prop) : Prop :=
  ∀ s s', L.rely t s s' → P s → P s'

variable {L : Logic σ χ κ} {t : Tid} {k : κ}

theorem Stable.star {P : σ → Prop} (h : L.Stable t P) {s s' : σ}
    (hr : Relation.ReflTransGen (L.rely t) s s') (hp : P s) : P s' := by
  induction hr with
  | refl => exact hp
  | tail _ hs ih => exact h _ _ hs ih

theorem Stable.true : L.Stable t fun _ => True := fun _ _ _ _ => trivial

theorem Stable.const (p : Prop) : L.Stable t fun _ => p := fun _ _ _ h => h

theorem Stable.and {P Q : σ → Prop} (hp : L.Stable t P) (hq : L.Stable t Q) :
    L.Stable t fun s => P s ∧ Q s :=
  fun s s' hr h => ⟨hp s s' hr h.1, hq s s' hr h.2⟩

theorem Stable.exists {ι : Type} {P : ι → σ → Prop} (h : ∀ i, L.Stable t (P i)) :
    L.Stable t fun s => ∃ i, P i s :=
  fun s s' hr ⟨i, hi⟩ => ⟨i, h i s s' hr hi⟩

theorem Stable.imp {p : Prop} {P : σ → Prop} (h : p → L.Stable t P) :
    L.Stable t fun s => p → P s :=
  fun s s' hr hp hh => h hh s s' hr (hp hh)

end Logic

/-- The program, run by thread `t` for the call `k` from state `s`, keeps the invariant and its
guarantee at every statement and ends in `Q`, whatever the others do in between. -/
def wp (L : Logic σ χ κ) (t : Tid) (k : κ) : Prog σ χ α → (α → σ → Prop) → σ → Prop
  | .ret a, Q, s => Q a s
  | .act _ f g, Q, s =>
    ∀ s₁, Relation.ReflTransGen (L.rely t) s s₁ → L.inv s₁ → ∀ ch, L.choice ch →
      ∀ r s₂, f t ch s₁ = some (r, s₂) → L.inv s₂ ∧ L.guar t k s₁ s₂ ∧ wp L t k (g r) Q s₂

section rules

variable {L : Logic σ χ κ} {t : Tid} {k : κ}

theorem wp_mono {p : Prog σ χ α} {Q R : α → σ → Prop} (h : ∀ a s, Q a s → R a s) {s : σ}
    (hw : wp L t k p Q s) : wp L t k p R s := by
  induction p generalizing s with
  | ret a => exact h a s hw
  | act β f g ih =>
    intro s₁ hr hi ch hc r s₂ hf
    obtain ⟨hi₂, hg, hw₂⟩ := hw s₁ hr hi ch hc r s₂ hf
    exact ⟨hi₂, hg, ih r hw₂⟩

theorem wp_bind {p : Prog σ χ α} {g : α → Prog σ χ β} {Q : β → σ → Prop} {s : σ}
    (hw : wp L t k p (fun a s => wp L t k (g a) Q s) s) : wp L t k (p >>= g) Q s := by
  induction p generalizing s with
  | ret a => exact hw
  | act γ f h ih =>
    intro s₁ hr hi ch hc r s₂ hf
    obtain ⟨hi₂, hg, hw₂⟩ := hw s₁ hr hi ch hc r s₂ hf
    exact ⟨hi₂, hg, ih r hw₂⟩

/-- A verified program stays verified while the others move. -/
theorem wp_rely {p : Prog σ χ α} {Q : α → σ → Prop} (hQ : ∀ a, L.Stable t (Q a)) {s s' : σ}
    (hr : L.rely t s s') (hw : wp L t k p Q s) : wp L t k p Q s' := by
  cases p with
  | ret a => exact hQ a s s' hr hw
  | act β f g => exact fun s₁ h₁ => hw s₁ (.head hr h₁)

/-- What survives the steps of everybody, the thread's own included. -/
def Logic.Lasting (L : Logic σ χ κ) (F : σ → Prop) : Prop :=
  ∀ s s', L.inv s → L.inv s' → ((∃ t k, L.guar t k s s') ∨ L.envGuar s s') → F s → F s'

theorem Logic.Lasting.stable {F : σ → Prop} (h : L.Lasting F) : L.Stable t F :=
  fun s s' ⟨hi, hi', hr⟩ => h s s' hi hi' (hr.imp_left fun ⟨t', k, _, hg⟩ => ⟨t', k, hg⟩)

theorem wp_frame {p : Prog σ χ α} {Q : α → σ → Prop} {F : σ → Prop} (hF : L.Lasting F) {s : σ}
    (hw : wp L t k p Q s) (hs : F s) : wp L t k p (fun a s => Q a s ∧ F s) s := by
  induction p generalizing s with
  | ret a => exact ⟨hw, hs⟩
  | act β f g ih =>
    intro s₁ hr hi ch hc r s₂ hf
    obtain ⟨hi₂, hg, hw₂⟩ := hw s₁ hr hi ch hc r s₂ hf
    exact ⟨hi₂, hg, ih r hw₂ (hF s₁ s₂ hi hi₂ (.inl ⟨t, k, hg⟩) (hF.stable.star hr hs))⟩

/-- `P` before the action; `Q` after it returns, `E` after it throws. -/
def Hoare (L : Logic σ χ κ) (t : Tid) (k : κ) (P : σ → Prop) (x : Action σ χ ε α)
    (Q : α → σ → Prop) (E : ε → σ → Prop) : Prop :=
  ∀ s, P s → wp L t k x.run (fun r s => match r with | .ok a => Q a s | .error e => E e s) s

variable {P P' : σ → Prop} {Q Q' : α → σ → Prop} {R : β → σ → Prop} {E E' : ε → σ → Prop}

theorem hoare_pure {a : α} (h : ∀ s, P s → Q a s) :
    Hoare L t k P (pure a : Action σ χ ε α) Q E := h

theorem hoare_throw {e : ε} (h : ∀ s, P s → E e s) :
    Hoare L t k P (throw e : Action σ χ ε α) Q E := h

theorem hoare_conseq {x : Action σ χ ε α} (h : Hoare L t k P x Q E) (hp : ∀ s, P' s → P s)
    (hq : ∀ a s, Q a s → Q' a s) (he : ∀ e s, E e s → E' e s) : Hoare L t k P' x Q' E' := by
  intro s hs
  refine wp_mono ?_ (h s (hp s hs))
  intro r s hr
  cases r with
  | ok a => exact hq a s hr
  | error e => exact he e s hr

theorem hoare_pre {x : Action σ χ ε α} (hp : ∀ s, P' s → P s) (h : Hoare L t k P x Q E) :
    Hoare L t k P' x Q E :=
  fun s hs => h s (hp s hs)

/-- A pure fact of the precondition may be used as a hypothesis. -/
theorem hoare_fact {p : Prop} {x : Action σ χ ε α} (h : p → Hoare L t k P x Q E) :
    Hoare L t k (fun s => p ∧ P s) x Q E :=
  fun s hs => h hs.1 s hs.2

theorem hoare_exists {ι : Type} {P : ι → σ → Prop} {x : Action σ χ ε α}
    (h : ∀ i, Hoare L t k (P i) x Q E) : Hoare L t k (fun s => ∃ i, P i s) x Q E :=
  fun s ⟨i, hi⟩ => h i s hi

theorem hoare_or {x : Action σ χ ε α} (h : Hoare L t k P x Q E) (h' : Hoare L t k P' x Q E) :
    Hoare L t k (fun s => P s ∨ P' s) x Q E :=
  fun s hs => hs.elim (h s) (h' s)

theorem hoare_bind {x : Action σ χ ε α} {f : α → Action σ χ ε β}
    (hx : Hoare L t k P x Q E) (hf : ∀ a, Hoare L t k (Q a) (f a) R E) :
    Hoare L t k P (x >>= f) R E := by
  intro s hs
  change wp L t k (x.run >>= _) _ s
  apply wp_bind
  refine wp_mono ?_ (hx s hs)
  intro r s hr
  cases r with
  | ok a => exact hf a s hr
  | error e => exact hr

theorem hoare_frame {x : Action σ χ ε α} {F : σ → Prop} (hF : L.Lasting F)
    (h : Hoare L t k P x Q E) :
    Hoare L t k (fun s => P s ∧ F s) x (fun a s => Q a s ∧ F s) (fun e s => E e s ∧ F s) := by
  intro s ⟨hp, hs⟩
  refine wp_mono ?_ (wp_frame hF (h s hp) hs)
  intro r s hr
  cases r with
  | ok a => exact hr
  | error e => exact hr

theorem hoare_tryCatch {x : Action σ χ ε α} {h : ε → Action σ χ ε α}
    (hx : Hoare L t k P x Q E) (hh : ∀ e, Hoare L t k (E e) (h e) Q E') :
    Hoare L t k P (tryCatch x h) Q E' := by
  intro s hs
  change wp L t k (x.run >>= _) _ s
  apply wp_bind
  refine wp_mono ?_ (hx s hs)
  intro r s hr
  cases r with
  | ok a => exact hr
  | error e => exact hh e s hr

theorem hoare_ite {c : Prop} [Decidable c] {x y : Action σ χ ε α}
    (hx : c → Hoare L t k P x Q E) (hy : ¬c → Hoare L t k P y Q E) :
    Hoare L t k P (if c then x else y) Q E := by
  by_cases h : c
  · simpa only [if_pos h] using hx h
  · simpa only [if_neg h] using hy h

/-- One statement, from a stable precondition. -/
theorem hoare_stmt {f : Stmt σ χ (Except ε β)} {R : β → σ → Prop} (hP : L.Stable t P)
    (h : ∀ s ch r s', L.inv s → L.choice ch → P s → f t ch s = some (r, s') →
      L.inv s' ∧ L.guar t k s s' ∧ match r with | .ok a => R a s' | .error e => E e s') :
    Hoare L t k P (stmt f) R E := by
  intro s hs s₁ hr hi ch hc r s₂ hf
  obtain ⟨hi₂, hg, hq⟩ := h s₁ ch r s₂ hi hc (hP.star hr hs) hf
  exact ⟨hi₂, hg, hq⟩

end rules

/-! ### Soundness: every run of a verified system keeps the logic -/

/-- Each call keeps the logic from every state where it may start, and so do the environment
and the death of a thread. `idle` is what is known about a thread name not yet used. -/
structure Verified (S : System σ χ κ η ρ) (L : Logic σ χ κ) (idle : Tid → σ → Prop)
    (post : Tid → κ → ρ → σ → Prop) : Prop where
  idle_stable : ∀ t, L.Stable t (idle t)
  post_stable : ∀ t k r, L.Stable t (post t k r)
  body : ∀ t k s, L.inv s → idle t s → S.enabled k s = true → wp L t k (S.body k) (post t k) s
  env : ∀ e s s', L.inv s → S.env e s = some s' → L.inv s' ∧ L.envGuar s s'
  crash : ∀ t k s, L.inv s → L.inv (S.crash t s) ∧ L.guar t k s (S.crash t s)

/-- The labels a logic speaks about. -/
def Logic.Admits (L : Logic σ χ κ) : Label χ κ η → Prop
  | .step _ ch => L.choice ch
  | _ => True

/-- The configurations in which everything is as the logic says. -/
structure Sound (L : Logic σ χ κ) (idle : Tid → σ → Prop) (post : Tid → κ → ρ → σ → Prop)
    (c : Config σ χ κ ρ) : Prop where
  inv : L.inv c.shared
  fresh : ∀ t, c.threads t = none → idle t c.shared
  thread : ∀ t k p, c.threads t = some (k, .running p) → wp L t k p (post t k) c.shared

/-- The change of the shared state in one step: none, one of a call, or one of the environment. -/
def Logic.Moves (L : Logic σ χ κ) (c c' : Config σ χ κ ρ) : Label χ κ η → Prop
  | .start _ _ => c'.shared = c.shared
  | .step t _ | .crash t =>
    ∃ k th, c.threads t = some (k, th) ∧ th.Active ∧ L.guar t k c.shared c'.shared
  | .env _ => L.envGuar c.shared c'.shared

theorem Logic.Moves.cases {L : Logic σ χ κ} {c c' : Config σ χ κ ρ} {l : Label χ κ η}
    (h : L.Moves c c' l) : c'.shared = c.shared ∨ L.envGuar c.shared c'.shared ∨
      ∃ t k th, c.threads t = some (k, th) ∧ th.Active ∧ L.guar t k c.shared c'.shared := by
  cases l with
  | start t k => exact .inl h
  | step t ch => exact .inr (.inr ⟨t, h⟩)
  | crash t => exact .inr (.inr ⟨t, h⟩)
  | env e => exact .inr (.inl h)

section soundness

variable {S : System σ χ κ η ρ} {L : Logic σ χ κ} {idle : Tid → σ → Prop}
  {post : Tid → κ → ρ → σ → Prop}

theorem Sound.result {c : Config σ χ κ ρ} (h : Sound L idle post c) {t : Tid} {k : κ} {r : ρ}
    (ht : c.threads t = some (k, .running (.ret r))) : post t k r c.shared :=
  h.thread t k _ ht

theorem Sound.init {s : σ} (hi : L.inv s) (hf : ∀ t, idle t s) :
    Sound (κ := κ) (χ := χ) L idle post (Config.init s) :=
  ⟨hi, fun t _ => hf t, fun t k p h => by simp [Config.init] at h⟩

/-- Thread `t` moved by its guarantee; every other thread only saw its rely. -/
theorem Sound.move (V : Verified S L idle post) {c : Config σ χ κ ρ}
    (h : Sound L idle post c) {t : Tid} {k : κ} {s : σ} {th : Thread σ χ ρ}
    (hi : L.inv s) (hg : L.guar t k c.shared s)
    (hth : ∀ p, th = .running p → wp L t k p (post t k) s) :
    Sound L idle post (c.set s t k th) := by
  have hrely (t' : Tid) (ht' : t' ≠ t) : L.rely t' c.shared s :=
    ⟨h.inv, hi, .inl ⟨t, k, Ne.symm ht', hg⟩⟩
  refine ⟨hi, ?_, ?_⟩
  · intro t' ht'
    by_cases e : t' = t
    · simp [Config.set, e] at ht'
    · simp only [Config.set, Function.update_of_ne e] at ht'
      exact V.idle_stable t' _ _ (hrely t' e) (h.fresh t' ht')
  · intro t' k' p ht'
    by_cases e : t' = t
    · subst e
      simp only [Config.set, Function.update_self, Option.some.injEq, Prod.mk.injEq] at ht'
      obtain ⟨rfl, rfl⟩ := ht'
      exact hth p rfl
    · simp only [Config.set, Function.update_of_ne e] at ht'
      exact wp_rely (V.post_stable t' k') (hrely t' e) (h.thread t' k' p ht')

theorem Sound.next (V : Verified S L idle post) {c c' : Config σ χ κ ρ} {l : Label χ κ η}
    (hl : L.Admits l) (hn : S.next c l = some c') (h : Sound L idle post c) :
    Sound L idle post c' ∧ L.Moves c c' l := by
  cases l with
  | start t k =>
    cases ht : c.threads t with
    | some x => simp [System.next, ht] at hn
    | none =>
      simp only [System.next, ht] at hn
      split at hn
      · next he =>
        cases hn
        refine ⟨⟨h.inv, ?_, ?_⟩, rfl⟩
        · intro t' ht'
          by_cases e : t' = t
          · simp [Config.set, e] at ht'
          · simp only [Config.set, Function.update_of_ne e] at ht'
            exact h.fresh t' ht'
        · intro t' k' p ht'
          by_cases e : t' = t
          · subst e
            simp only [Config.set, Function.update_self, Option.some.injEq, Prod.mk.injEq,
              Thread.running.injEq] at ht'
            obtain ⟨rfl, rfl⟩ := ht'
            exact V.body t' k c.shared h.inv (h.fresh t' ht) he
          · simp only [Config.set, Function.update_of_ne e] at ht'
            exact h.thread t' k' p ht'
      · cases hn
  | step t ch =>
    simp only [System.next] at hn
    split at hn
    · next k β f g ht =>
      simp only [Option.map_eq_some_iff, Prod.exists] at hn
      obtain ⟨r, s, hf, rfl⟩ := hn
      obtain ⟨hi, hg, hw⟩ := h.thread t k _ ht c.shared .refl h.inv ch hl r s hf
      refine ⟨h.move V hi hg ?_, k, _, ht, trivial, hg⟩
      rintro p ⟨⟩
      exact hw
    · cases hn
  | crash t =>
    simp only [System.next] at hn
    split at hn
    · next k β f g ht =>
      cases hn
      obtain ⟨hi, hg⟩ := V.crash t k c.shared h.inv
      refine ⟨h.move V hi hg ?_, k, _, ht, trivial, hg⟩
      rintro p ⟨⟩
    · cases hn
  | env e =>
    simp only [System.next, Option.map_eq_some_iff] at hn
    obtain ⟨s, hs, rfl⟩ := hn
    obtain ⟨hi, hg⟩ := V.env e c.shared s h.inv hs
    have hrely (t : Tid) : L.rely t c.shared s := ⟨h.inv, hi, .inr hg⟩
    exact ⟨⟨hi, fun t ht => V.idle_stable t _ _ (hrely t) (h.fresh t ht),
      fun t k p ht => wp_rely (V.post_stable t k) (hrely t) (h.thread t k p ht)⟩, hg⟩

/-- Every run of a verified system ends in a sound configuration. -/
theorem Sound.run (V : Verified S L idle post) {c c' : Config σ χ κ ρ} {ls : List (Label χ κ η)}
    (hl : ∀ l ∈ ls, L.Admits l) (hr : S.run c ls = some c') (h : Sound L idle post c) :
    Sound L idle post c' :=
  S.run_induct (fun _ _ _ ha hn hs => (hs.next V ha hn).1) hl hr h

end soundness

end Framework

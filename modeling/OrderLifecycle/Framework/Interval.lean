import OrderLifecycle.Framework.History

/-! A call as a stretch of a run: from the moment at which its thread is at the call to the one at
which it has the result. The call may be a part of what the thread does. -/

namespace Framework

namespace System

variable {σ χ κ η ρ α β : Type} (S : System σ χ κ η ρ) {t : Tid} {k : κ}
  {c d : Config σ χ κ ρ} {ls : List (Label χ κ η)} {a : α}

/-- Thread `t` carries out `p` while everybody takes the steps `ls`, the last of which is its own. -/
def perform (t : Tid) : Prog σ χ α → Config σ χ κ ρ → List (Label χ κ η) → Option (α × Config σ χ κ ρ)
  | .ret a, c, [] => some (a, c)
  | .ret _, _, _ :: _ => none
  | .act _ _ _, _, [] => none
  | .act β f q, c, l :: ls => (S.next c l).bind fun c' =>
    match l with
    | .step t' ch =>
      if t' = t then (f t ch c.shared).bind fun r => perform t (q r.1) c' ls
      else perform t (.act β f q) c' ls
    | .crash t' => if t' = t then none else perform t (.act β f q) c' ls
    | _ => perform t (.act β f q) c' ls

/-- Not a step of `t`. -/
def Foreign (t : Tid) (l : Label χ κ η) : Prop := (∀ ch, l ≠ .step t ch) ∧ l ≠ .crash t

variable {S}

theorem next_foreign {l : Label χ κ η} (hl : Foreign t l) {th : Thread σ χ ρ}
    (ht : c.threads t = some (k, th)) (hn : S.next c l = some d) : d.threads t = some (k, th) := by
  cases l with
  | start t' k' =>
    simp only [next] at hn
    split at hn
    · next hnone =>
      have hne : t ≠ t' := by
        rintro rfl
        simp [ht] at hnone
      split at hn
      · cases hn
        simpa [Config.set, Function.update_of_ne hne] using ht
      · cases hn
    · cases hn
  | step t' ch =>
    have hne : t ≠ t' := by
      rintro rfl
      exact hl.1 ch rfl
    simp only [next] at hn
    split at hn
    · obtain ⟨r, -, rfl⟩ := Option.map_eq_some_iff.mp hn
      simpa [Config.set, Function.update_of_ne hne] using ht
    · cases hn
  | crash t' =>
    have hne : t ≠ t' := by
      rintro rfl
      exact hl.2 rfl
    simp only [next] at hn
    split at hn
    · cases hn
      simpa [Config.set, Function.update_of_ne hne] using ht
    · cases hn
  | env e =>
    obtain ⟨s, -, rfl⟩ := Option.map_eq_some_iff.mp hn
    exact ht

theorem own_foreign {l : Label χ κ η} (hl : Foreign t l) : own t c d l = [] := by
  cases l with
  | step t' ch =>
    have hne : t' ≠ t := by
      rintro rfl
      exact hl.1 ch rfl
    simp [own, hne]
  | _ => rfl

theorem foreign_start {t' : Tid} {k' : κ} : Foreign t (.start t' k' : Label χ κ η) := by
  simp [Foreign]

theorem foreign_env {e : η} : Foreign t (.env e : Label χ κ η) := by
  simp [Foreign]

theorem foreign_step {t' : Tid} {ch : χ} (h : t' ≠ t) : Foreign t (.step t' ch : Label χ κ η) := by
  simp [Foreign, h]

theorem foreign_crash {t' : Tid} (h : t' ≠ t) : Foreign t (.crash t' : Label χ κ η) := by
  simp [Foreign, h]

/-- The next statement of the call, after whatever the others do. -/
theorem perform_act {f : Stmt σ χ β} {q : β → Prog σ χ α} {g : α → Prog σ χ ρ}
    (ht : c.threads t = some (k, .running (.act β f fun b => q b >>= g)))
    (hp : S.perform t (.act β f q) c ls = some (a, d)) :
    ∃ ls₁ ch ls₂ e e' r, ls = ls₁ ++ .step t ch :: ls₂ ∧ S.run c ls₁ = some e ∧
      S.next e (.step t ch) = some e' ∧ f t ch e.shared = some (r, e'.shared) ∧
      e'.threads t = some (k, .running (q r >>= g)) ∧ S.perform t (q r) e' ls₂ = some (a, d) ∧
      S.past t c ls = (e.shared, e'.shared) :: S.past t e' ls₂ := by
  induction ls generalizing c with
  | nil => simp [perform] at hp
  | cons l ls ih =>
    simp only [perform] at hp
    obtain ⟨c', hn, hp⟩ := Option.bind_eq_some_iff.mp hp
    have later (hl : Foreign t l) (hp : S.perform t (.act β f q) c' ls = some (a, d)) :
        ∃ ls₁ ch ls₂ e e' r, l :: ls = ls₁ ++ .step t ch :: ls₂ ∧ S.run c ls₁ = some e ∧
          S.next e (.step t ch) = some e' ∧ f t ch e.shared = some (r, e'.shared) ∧
          e'.threads t = some (k, .running (q r >>= g)) ∧ S.perform t (q r) e' ls₂ = some (a, d) ∧
          S.past t c (l :: ls) = (e.shared, e'.shared) :: S.past t e' ls₂ := by
      obtain ⟨ls₁, ch, ls₂, e, e', r, rfl, hr, hn', hf, hth, hp', hpast⟩ :=
        ih (next_foreign hl ht hn) hp
      refine ⟨l :: ls₁, ch, ls₂, e, e', r, rfl, S.run_cons.mpr ⟨c', hn, hr⟩, hn', hf, hth, hp', ?_⟩
      rw [past, hn]
      simp only [own_foreign hl, List.nil_append, hpast]
    cases l with
    | step t' ch =>
      by_cases e : t' = t
      · subst e
        simp only [if_true] at hp
        obtain ⟨⟨r, s⟩, hf, hp⟩ := Option.bind_eq_some_iff.mp hp
        have hc' : c' = c.set s t' k (.running (q r >>= g)) := by
          simpa [next, ht, hf] using hn.symm
        refine ⟨[], ch, ls, c, c', r, rfl, rfl, hn, ?_, ?_, hp, ?_⟩
        · rw [hf, hc']
          rfl
        · rw [hc']
          simp [Config.set]
        · rw [past, hn]
          simp [own]
      · simp only [if_neg e] at hp
        exact later (foreign_step e) hp
    | crash t' =>
      by_cases e : t' = t
      · simp [e] at hp
      · simp only [if_neg e] at hp
        exact later (foreign_crash e) hp
    | start t' k' => exact later foreign_start hp
    | env e => exact later foreign_env hp

theorem perform_ret {b : α} (hp : S.perform t (.ret b) c ls = some (a, d)) :
    ls = [] ∧ a = b ∧ d = c := by
  cases ls with
  | nil =>
    simp only [perform, Option.some.injEq, Prod.mk.injEq] at hp
    exact ⟨rfl, hp.1.symm, hp.2.symm⟩
  | cons l ls => simp [perform] at hp

end System

end Framework

import Mathlib.Algebra.BigOperators.Group.Finset.Piecewise
import OrderLifecycle.Framework.History

namespace Framework

variable {σ χ κ η ρ M : Type} [AddCommGroup M] {f : σ → M} {h h' : Past σ} {s s' : σ}

/-- What the steps of the past changed of a quantity, all together. -/
def Past.drift (f : σ → M) (h : Past σ) : M := (h.map fun x => f x.2 - f x.1).sum

@[simp] theorem drift_nil : Past.drift f [] = 0 := rfl

@[simp] theorem drift_append : Past.drift f (h ++ h') = h.drift f + h'.drift f := by
  simp [Past.drift]

@[simp] theorem drift_one : Past.drift f [(s, s')] = f s' - f s := by
  simp [Past.drift]

/-- The changes made by the threads make up the change over the run, where the environment makes
none. -/
theorem drift_run {S : System σ χ κ η ρ} (henv : ∀ e s s', S.env e s = some s' → f s' = f s)
    {c c' : Config σ χ κ ρ} {ls : List (Label χ κ η)} {T : Finset Tid}
    (hT : ∀ t ch, .step t ch ∈ ls → t ∈ T) (hcrash : ∀ t, .crash t ∉ ls)
    (hrun : S.run c ls = some c') :
    f c'.shared - f c.shared = ∑ t ∈ T, (S.past t c ls).drift f := by
  induction ls generalizing c with
  | nil =>
    cases hrun
    simp [System.past]
  | cons l ls ih =>
    obtain ⟨d, hd, hrest⟩ := S.run_cons.mp hrun
    have hlater := ih (fun t ch hm => hT t ch (List.mem_cons_of_mem _ hm))
      (fun t hm => hcrash t (List.mem_cons_of_mem _ hm)) hrest
    have hnow : f d.shared - f c.shared = ∑ t ∈ T, (System.own t c d l).drift f := by
      cases l with
      | start t k =>
        simp only [System.next] at hd
        split at hd
        · split at hd
          · cases hd
            simp [System.own, Config.set]
          · cases hd
        · cases hd
      | step t ch =>
        have ht : t ∈ T := hT t ch List.mem_cons_self
        have hown (t' : Tid) : (System.own t' c d (.step t ch : Label χ κ η)).drift f =
            if t = t' then f d.shared - f c.shared else 0 := by
          simp only [System.own]
          split <;> simp
        rw [Finset.sum_congr rfl fun t' _ => hown t', Finset.sum_ite_eq, if_pos ht]
      | crash t => exact absurd List.mem_cons_self (hcrash t)
      | env e =>
        obtain ⟨s, hs, rfl⟩ := Option.map_eq_some_iff.mp hd
        simp [System.own, henv e _ _ hs]
    simp only [System.past, hd, drift_append, Finset.sum_add_distrib]
    rw [← hnow, ← hlater]
    exact (sub_add_sub_cancel' _ _ _).symm

/-- The thread that a step is a step of. -/
def Label.stepper : Label χ κ η → Option Tid
  | .step t _ => some t
  | _ => none

/-- When no thread has changed it in all, a run leaves the quantity as it was. -/
theorem settled_run {S : System σ χ κ η ρ} (henv : ∀ e s s', S.env e s = some s' → f s' = f s)
    {c c' : Config σ χ κ ρ} {ls : List (Label χ κ η)} (hcrash : ∀ t, .crash t ∉ ls)
    (hrun : S.run c ls = some c') (hzero : ∀ t, (S.past t c ls).drift f = 0) :
    f c'.shared = f c.shared := by
  have hT : ∀ t ch, .step t ch ∈ ls → t ∈ (ls.filterMap Label.stepper).toFinset := by
    intro t ch hm
    exact List.mem_toFinset.mpr (List.mem_filterMap.mpr ⟨_, hm, rfl⟩)
  have hsum := drift_run henv hT hcrash hrun
  rw [Finset.sum_eq_zero fun t _ => hzero t] at hsum
  exact sub_eq_zero.mp hsum

end Framework

import OrderLifecycle.Framework.Store

namespace Framework
namespace Store

variable {K : Type} {Row : K → Type} {J : Type}

/-- The open transaction of `t`, if any, has written no row outside `F`. -/
def Within (s : Store Row J) (F : K → Prop) (t : Tid) : Prop :=
  ∀ tx, s.txns t = some tx → ∀ k, ¬F k → tx.writes k = none

/-- A step of `t` that writes no row outside `F`. -/
structure Footprint (F : K → Prop) (t : Tid) (s s' : Store Row J) : Prop where
  frame : Frame t s s'
  within : s.Within F t → s'.Within F t
  rows : s.Within F t → ∀ k, ¬F k → s'.rows k = s.rows k

variable {F : K → Prop} {s s' s'' : Store Row J} {t t' : Tid} {k : K}

theorem Within.of_idle (h : s.txns t = none) : s.Within F t :=
  fun _ htx => nomatch h.symm.trans htx

/-- Nobody else writes into the transaction. -/
theorem Within.frame (h : s.Within F t) (hf : Frame t' s s') (hne : t ≠ t') : s'.Within F t := by
  intro tx htx k hk
  rw [hf.txns t hne] at htx
  exact h tx htx k hk

/-- Outside `F` the thread sees the committed rows. -/
theorem Within.view (h : s.Within F t) (hk : ¬F k) : s.view t k = s.rows k := by
  cases ht : s.txns t with
  | none => exact view_idle ht
  | some tx => rw [view_txn ht, h tx ht k hk, Option.getD_none]

namespace Footprint

theorem refl : Footprint F t s s := ⟨.refl, id, fun _ _ _ => rfl⟩

theorem trans (h : Footprint F t s s') (h' : Footprint F t s' s'') : Footprint F t s s'' where
  frame := h.frame.trans h'.frame
  within hw := h'.within (h.within hw)
  rows hw k hk := (h'.rows (h.within hw) k hk).trans (h.rows hw k hk)

theorem put [DecidableEq K] {v : Option (Row k)} {js : List J} (hfree : s.Free t k) (hk : F k) :
    Footprint F t s (s.put t k v js hfree) := by
  refine ⟨put_frame, ?_, ?_⟩
  · intro hw tx' htx' k' hk'
    have hne : k' ≠ k := by
      rintro rfl
      exact hk' hk
    cases ht : s.txns t with
    | none =>
      rw [(put_idle v js hfree ht).2.2, ht] at htx'
      cases htx'
    | some tx =>
      rw [(put_txn v js hfree ht).2] at htx'
      cases htx'
      rw [write_other v js hne]
      exact hw tx ht k' hk'
  · intro _ k' hk'
    have hne : k' ≠ k := by
      rintro rfl
      exact hk' hk
    cases ht : s.txns t with
    | none =>
      rw [(put_idle v js hfree ht).1]
      exact Function.update_of_ne hne ..
    | some tx => rw [(put_txn v js hfree ht).1.1]

theorem begin : Footprint F t s (s.begin t) := by
  refine ⟨begin_frame, ?_, fun _ k _ => congrFun begin_same.1 k⟩
  intro hw tx' htx' k hk
  cases ht : s.txns t with
  | none =>
    rw [begin_txn ht] at htx'
    cases htx'
    rfl
  | some tx =>
    have hsame : s.begin t = s := by
      unfold Store.begin
      split
      · rfl
      · next h => exact nomatch h.symm.trans ht
    rw [hsame] at htx'
    exact hw tx' htx' k hk

theorem abort : Footprint F t s (s.abort t) := by
  refine ⟨abort_frame, ?_, fun _ k _ => congrFun abort_same.1 k⟩
  intro hw tx' htx' k hk
  rw [abort_txn] at htx'
  obtain ⟨tx, htx, rfl⟩ := Option.map_eq_some_iff.mp htx'
  exact hw tx htx k hk

theorem rollback : Footprint F t s (s.rollback t) :=
  ⟨rollback_frame, fun _ => .of_idle rollback_txn, fun _ _ _ => rfl⟩

theorem commit : Footprint F t s (s.commit t) := by
  refine ⟨commit_frame, fun _ => .of_idle commit_txn, ?_⟩
  intro hw k hk
  rcases commit_cases (s := s) (t := t) with h | h
  · rw [h]
  · rw [h]
    exact hw.view hk

end Footprint

end Store
end Framework

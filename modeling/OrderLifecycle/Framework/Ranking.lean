import Mathlib.Data.List.Dedup
import Mathlib.Data.List.DropRight
import Mathlib.Data.List.Sort

namespace Framework

/-! ### Ordering and limiting -/

section ranking

variable {α κ : Type*} [LinearOrder κ] (key : α → κ)

/-- `ORDER BY key ASC` -/
def ascending (rows : List α) : List α := rows.insertionSort fun a b => key a ≤ key b

/-- `ORDER BY key DESC` -/
def descending (rows : List α) : List α := rows.insertionSort fun a b => key b ≤ key a

variable {key} {rows : List α}

theorem ascending_perm : (ascending key rows).Perm rows := List.perm_insertionSort _ rows

theorem descending_perm : (descending key rows).Perm rows := List.perm_insertionSort _ rows

theorem ascending_pairwise : (ascending key rows).Pairwise fun a b => key a ≤ key b := by
  have htotal : Std.Total fun a b => key a ≤ key b := ⟨fun a b => le_total (key a) (key b)⟩
  have htrans : IsTrans α fun a b => key a ≤ key b := ⟨fun _ _ _ => le_trans⟩
  exact List.pairwise_insertionSort _ rows

theorem descending_pairwise : (descending key rows).Pairwise fun a b => key b ≤ key a := by
  have htotal : Std.Total fun a b => key b ≤ key a := ⟨fun a b => le_total (key b) (key a)⟩
  have htrans : IsTrans α fun a b => key b ≤ key a := ⟨fun _ _ _ h h' => le_trans h' h⟩
  exact List.pairwise_insertionSort _ rows

/-- What the limit of a descending order leaves out is not above what it takes. -/
theorem take_descending (key : α → κ) (rows : List α) (n : Nat) :
    ((descending key rows).take n ++ (descending key rows).drop n).Perm rows ∧
      ∀ x ∈ (descending key rows).take n, ∀ y ∈ (descending key rows).drop n, key y ≤ key x := by
  have hsplit := List.take_append_drop n (descending key rows)
  refine ⟨hsplit.symm ▸ descending_perm, ?_⟩
  have hpair : (descending key rows).Pairwise fun a b => key b ≤ key a := descending_pairwise
  rw [← hsplit] at hpair
  exact (List.pairwise_append.mp hpair).2.2

/-- Rows with different keys have one order. -/
theorem eq_ascending {l : List α} (hkeys : (rows.map key).Nodup) (hp : l.Perm rows)
    (hl : l.Pairwise fun a b => key a ≤ key b) : l = ascending key rows := by
  refine List.Perm.eq_of_pairwise ?_ hl ascending_pairwise (hp.trans ascending_perm.symm)
  intro a b ha hb hab hba
  exact List.inj_on_of_nodup_map hkeys (hp.mem_iff.mp ha) (ascending_perm.mem_iff.mp hb)
    (le_antisymm hab hba)

/-- The last `n` rows of an ascending order are the first `n` of the descending one. -/
theorem ascending_take_descending (hkeys : (rows.map key).Nodup) (n : Nat) :
    ascending key ((descending key rows).take n) = (ascending key rows).rtake n := by
  have hreverse : (descending key rows).reverse = ascending key rows :=
    eq_ascending hkeys ((List.reverse_perm _).trans descending_perm)
      (List.pairwise_reverse.mpr descending_pairwise)
  have hsub : (((descending key rows).take n).map key).Nodup := by
    have hall : ((descending key rows).map key).Nodup :=
      (descending_perm.map key).nodup_iff.mpr hkeys
    exact hall.sublist ((List.take_sublist n _).map key)
  have htake : ((descending key rows).take n).reverse =
      ascending key ((descending key rows).take n) :=
    eq_ascending hsub (List.reverse_perm _)
      (List.pairwise_reverse.mpr (descending_pairwise.sublist (List.take_sublist n _)))
  rw [← htake, ← hreverse, List.rtake_eq_reverse_take_reverse, List.reverse_reverse]

end ranking

/-! ### Grouping -/

section grouping

variable {α κ : Type*} [DecidableEq κ] {key : α → κ} {rows : List α}

/-- `GROUP BY key`: the keys that occur, each with its rows. -/
def groupBy (key : α → κ) (rows : List α) : List (κ × List α) :=
  (rows.map key).dedup.map fun k => (k, rows.filter fun row => key row = k)

theorem groupBy_keys : (groupBy key rows).map Prod.fst = (rows.map key).dedup := by
  rw [groupBy, List.map_map]
  exact List.map_id _

theorem mem_groupBy {k : κ} {group : List α} : (k, group) ∈ groupBy key rows ↔
    (∃ row ∈ rows, key row = k) ∧ group = rows.filter fun row => key row = k := by
  simp only [groupBy, List.mem_map, List.mem_dedup, Prod.mk.injEq]
  constructor
  · rintro ⟨k', hk, rfl, rfl⟩
    exact ⟨hk, rfl⟩
  · rintro ⟨hk, rfl⟩
    exact ⟨k, hk, rfl, rfl⟩

end grouping

end Framework

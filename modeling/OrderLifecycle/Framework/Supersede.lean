import Mathlib.Data.Finset.Max
import Mathlib.Data.List.Nodup
import Mathlib.Data.List.Dedup

namespace Framework

section delete

variable {α : Type*}

/-- `DELETE FROM rows c USING rows n WHERE p c n`: every row is held against the rows as they were
before the statement. -/
def deleteUsing (p : α → α → Bool) (rows : List α) : List α :=
  rows.filter fun c => !rows.any (p c)

theorem deleteUsing_sublist (p : α → α → Bool) (rows : List α) :
    (deleteUsing p rows).Sublist rows :=
  List.filter_sublist

theorem mem_deleteUsing {p : α → α → Bool} {rows : List α} {c : α} :
    c ∈ deleteUsing p rows ↔ c ∈ rows ∧ ∀ n ∈ rows, p c n = false := by
  simp [deleteUsing]

end delete

section groups

variable {α γ κ : Type*} [LinearOrder κ] {p : α → α → Bool} {group : α → Option γ} {key : α → κ}
  {rows : List α}

/-- A row is superseded by a row of its own group with a greater key; a row of no group never is. -/
def Supersedes (p : α → α → Bool) (group : α → Option γ) (key : α → κ) : Prop :=
  ∀ c n, p c n = true ↔ ∃ g, group c = some g ∧ group n = some g ∧ key c < key n

/-- Some row of a group that has rows is not superseded by any other: the one with the greatest key. -/
theorem exists_newest {g : γ} (h : ∃ c ∈ rows, group c = some g) :
    ∃ c ∈ rows, group c = some g ∧ ∀ d ∈ rows, group d = some g → key d ≤ key c := by
  classical
  obtain ⟨c₀, hc₀, hg₀⟩ := h
  let members := (rows.filter fun c => group c = some g).toFinset
  have hmem : ∀ c, c ∈ members ↔ c ∈ rows ∧ group c = some g := by
    intro c
    simp [members]
  have hne : members.Nonempty := ⟨c₀, (hmem c₀).mpr ⟨hc₀, hg₀⟩⟩
  obtain ⟨c, hc, hmax⟩ := Finset.exists_max_image members key hne
  have hc' := (hmem c).mp hc
  exact ⟨c, hc'.1, hc'.2, fun d hd hdg => hmax d ((hmem d).mpr ⟨hd, hdg⟩)⟩

theorem ungrouped_kept (hp : Supersedes p group key) {c : α} (hc : c ∈ rows) (hg : group c = none) :
    c ∈ deleteUsing p rows := by
  refine mem_deleteUsing.mpr ⟨hc, fun n _ => ?_⟩
  by_contra hpc
  obtain ⟨g, hcg, -, -⟩ := (hp c n).mp (by simpa using hpc)
  simp [hg] at hcg

/-- A row of a group is left exactly when no row of the group has a greater key. -/
theorem grouped_kept_iff (hp : Supersedes p group key) {c : α} {g : γ} (hg : group c = some g) :
    c ∈ deleteUsing p rows ↔ c ∈ rows ∧ ∀ d ∈ rows, group d = some g → key d ≤ key c := by
  rw [mem_deleteUsing]
  refine and_congr_right fun _ => forall₂_congr fun d _ => ?_
  have hpd := hp c d
  constructor
  · intro hfalse hdg
    by_contra hlt
    have htrue := hpd.mpr ⟨g, hg, hdg, not_le.mp hlt⟩
    simp [htrue] at hfalse
  · intro hle
    by_contra hpc
    obtain ⟨g', hcg, hdg, hlt⟩ := hpd.mp (by simpa using hpc)
    have hgg : g = g' := by simpa [hg] using hcg
    subst hgg
    exact absurd (hle hdg) (not_le.mpr hlt)

/-- Two rows of one group that are both left are the same row. -/
theorem kept_unique (hp : Supersedes p group key) (hkey : Set.InjOn key {c | c ∈ rows}) {c d : α}
    {g : γ} (hc : c ∈ deleteUsing p rows) (hd : d ∈ deleteUsing p rows) (hcg : group c = some g)
    (hdg : group d = some g) : c = d := by
  obtain ⟨hcr, hcmax⟩ := (grouped_kept_iff hp hcg).mp hc
  obtain ⟨hdr, hdmax⟩ := (grouped_kept_iff hp hdg).mp hd
  exact hkey hcr hdr (le_antisymm (hdmax c hcr hcg) (hcmax d hdr hdg))

/-- Of a group that has rows, the one with the greatest key is all that is left. -/
theorem filter_deleteUsing [DecidableEq γ] (hp : Supersedes p group key) (hrows : rows.Nodup)
    (hkey : Set.InjOn key {c | c ∈ rows}) {g : γ} (h : ∃ c ∈ rows, group c = some g) :
    ∃ c ∈ rows, (deleteUsing p rows).filter (fun c => group c = some g) = [c] ∧
      ∀ d ∈ rows, group d = some g → key d ≤ key c := by
  have hnewest : ∃ c ∈ rows, group c = some g ∧ ∀ d ∈ rows, group d = some g → key d ≤ key c :=
    exists_newest h
  obtain ⟨c, hc, hcg, hmax⟩ := hnewest
  have hleft : c ∈ deleteUsing p rows := (grouped_kept_iff hp hcg).mpr ⟨hc, hmax⟩
  refine ⟨c, hc, ?_, hmax⟩
  have hnodup : ((deleteUsing p rows).filter fun c => group c = some g).Nodup :=
    (hrows.sublist (deleteUsing_sublist p rows)).filter _
  have hall : ∀ d ∈ (deleteUsing p rows).filter fun c => group c = some g, d = c := by
    intro d hd
    have hd' := List.mem_filter.mp hd
    exact kept_unique hp hkey hd'.1 hleft (by simpa using hd'.2) hcg
  have hcin : c ∈ (deleteUsing p rows).filter fun c => group c = some g :=
    List.mem_filter.mpr ⟨hleft, by simpa using hcg⟩
  exact List.perm_singleton.mp ((List.perm_ext_iff_of_nodup hnodup (List.nodup_singleton c)).mpr
    fun d => ⟨fun hd => List.mem_singleton.mpr (hall d hd), fun hd => List.mem_singleton.mp hd ▸ hcin⟩)

/-- What is left has at most one row of each group. -/
theorem groups_nodup (hp : Supersedes p group key) (hrows : rows.Nodup)
    (hkey : Set.InjOn key {c | c ∈ rows}) : ((deleteUsing p rows).filterMap group).Nodup := by
  have hnodup : (deleteUsing p rows).Nodup := hrows.sublist (deleteUsing_sublist p rows)
  rw [List.Nodup, List.pairwise_filterMap]
  refine List.Pairwise.imp_of_mem ?_ hnodup
  intro c d hc hd hne g hg g' hg' hgg
  subst hgg
  exact hne (kept_unique hp hkey hc hd hg hg')

end groups

end Framework

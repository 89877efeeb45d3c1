import Mathlib.Algebra.Order.BigOperators.Group.Finset
import Mathlib.Data.List.Perm.Subperm

namespace Framework

/-- How the jobs of one round are picked: all of them, or `cap` when there are more. -/
structure Batching (α : Type) (cap : Nat) where
  pick : List α → List α
  subperm : ∀ l, (pick l).Subperm l
  length : ∀ l, (pick l).length = min cap l.length

/-- The jobs still to be done and how often each was tried. -/
structure RetryQueue (α : Type) where
  pending : List α
  tries : α → Nat
  nodup : pending.Nodup

variable {α : Type} {cap : Nat} {B : Batching α cap} {ok : α → Nat → Bool} {q : RetryQueue α}

namespace RetryQueue

open Classical

/-- One round: every job of the batch is tried, `ok` says how its attempts end, and only those
that succeed leave the queue. -/
noncomputable def drain (B : Batching α cap) (ok : α → Nat → Bool) (q : RetryQueue α) :
    RetryQueue α where
  pending := q.pending.filter fun a => !(decide (a ∈ B.pick q.pending) && ok a (q.tries a))
  tries a := if a ∈ B.pick q.pending then q.tries a + 1 else q.tries a
  nodup := q.nodup.filter _

/-- Rounds are made while full batches come back. -/
def Last (B : Batching α cap) (q : RetryQueue α) : Prop := (B.pick q.pending).length ≠ cap

/-- From attempt `n` on the job never succeeds. -/
def Stuck (ok : α → Nat → Bool) (a : α) (n : Nat) : Prop := ∀ d, ok a (n + d) = false

noncomputable def stuck (ok : α → Nat → Bool) (q : RetryQueue α) : List α :=
  q.pending.filter fun a => Stuck ok a (q.tries a)

/-- How many attempts a job still needs, if they suffice at all. -/
noncomputable def wait (ok : α → Nat → Bool) (a : α) (n : Nat) : Nat :=
  if h : ∃ d, ok a (n + d) = true then Nat.find h + 1 else 0

noncomputable def cost (ok : α → Nat → Bool) (q : RetryQueue α) : Nat :=
  ∑ a ∈ q.pending.toFinset, wait ok a (q.tries a)

theorem mem_drain {a : α} : a ∈ (q.drain B ok).pending ↔
    a ∈ q.pending ∧ ¬(a ∈ B.pick q.pending ∧ ok a (q.tries a) = true) := by
  simp [drain, imp_iff_not_or]

theorem drain_tries_of_mem {a : α} (h : a ∈ B.pick q.pending) :
    (q.drain B ok).tries a = q.tries a + 1 := if_pos h

theorem drain_tries_of_not_mem {a : α} (h : a ∉ B.pick q.pending) :
    (q.drain B ok).tries a = q.tries a := if_neg h

theorem not_stuck {a : α} {n : Nat} (h : ¬Stuck ok a n) : ∃ d, ok a (n + d) = true := by
  simpa [Stuck] using h

theorem stuck_succ {a : α} {n : Nat} (h : ok a n = false) : Stuck ok a (n + 1) ↔ Stuck ok a n := by
  constructor
  · intro hs d
    cases d with
    | zero => exact h
    | succ d =>
      have hd := hs d
      rwa [Nat.add_assoc, Nat.add_comm 1 d] at hd
  · intro hs d
    have hd := hs (d + 1)
    rwa [Nat.add_comm d 1, ← Nat.add_assoc] at hd

theorem wait_pos {a : α} {n : Nat} (h : ¬Stuck ok a n) : 0 < wait ok a n := by
  simp [wait, not_stuck h]

/-- A failed attempt brings the first success nearer. -/
theorem wait_succ_lt {a : α} {n : Nat} (h : ok a n = false) (hs : ¬Stuck ok a n) :
    wait ok a (n + 1) < wait ok a n := by
  have hn := not_stuck hs
  have hn' := not_stuck (mt (stuck_succ h).mp hs)
  simp only [wait, dif_pos hn, dif_pos hn']
  have hfound := Nat.find_spec hn
  cases hd : Nat.find hn with
  | zero =>
    rw [hd] at hfound
    exact nomatch h.symm.trans hfound
  | succ d =>
    rw [hd] at hfound
    have hle : Nat.find hn' ≤ d := by
      apply Nat.find_le
      rwa [Nat.add_assoc, Nat.add_comm 1 d]
    omega

theorem wait_stuck {a : α} {n : Nat} (h : Stuck ok a n) : wait ok a n = 0 := by
  have hn : ¬∃ d, ok a (n + d) = true := by
    intro ⟨d, hd⟩
    exact nomatch (h d).symm.trans hd
  exact dif_neg hn

theorem wait_succ_le {a : α} {n : Nat} (h : ok a n = false) : wait ok a (n + 1) ≤ wait ok a n := by
  by_cases hs : Stuck ok a n
  · rw [wait_stuck ((stuck_succ h).mpr hs)]
    exact Nat.zero_le _
  · exact (wait_succ_lt h hs).le

/-- A round that tries a job that is not stuck makes progress. -/
theorem cost_drain_lt {a : α} (ha : a ∈ B.pick q.pending) (hs : ¬Stuck ok a (q.tries a)) :
    (q.drain B ok).cost ok < q.cost ok := by
  have hsets : (q.drain B ok).pending.toFinset =
      q.pending.toFinset.filter fun a => ¬(a ∈ B.pick q.pending ∧ ok a (q.tries a) = true) := by
    ext b
    simp [mem_drain]
  simp only [cost, hsets, Finset.sum_filter]
  apply Finset.sum_lt_sum
  · intro b _
    split
    · next hb =>
      by_cases hm : b ∈ B.pick q.pending
      · have hfail : ok b (q.tries b) = false := by simpa [hm] using hb
        rw [drain_tries_of_mem hm]
        exact wait_succ_le hfail
      · rw [drain_tries_of_not_mem hm]
    · exact Nat.zero_le _
  · refine ⟨a, List.mem_toFinset.mpr ((B.subperm _).subset ha), ?_⟩
    split
    · next hb =>
      have hfail : ok a (q.tries a) = false := by simpa [ha] using hb
      rw [drain_tries_of_mem ha]
      exact wait_succ_lt hfail hs
    · exact wait_pos hs

/-- The stuck jobs stay in the queue, and no others become stuck. -/
theorem stuck_drain : (q.drain B ok).stuck ok = q.stuck ok := by
  simp only [stuck, drain, List.filter_filter]
  apply List.filter_congr
  intro a _
  by_cases hm : a ∈ B.pick q.pending
  · cases hok : ok a (q.tries a) with
    | true =>
      have hns : ¬Stuck ok a (q.tries a) := by
        intro hs
        exact nomatch (hs 0).symm.trans hok
      simp [hm, hns]
    | false => simp [hm, stuck_succ hok]
  · simp [hm]

/-- The queue after `n` rounds. -/
noncomputable def after (B : Batching α cap) (ok : α → Nat → Bool) (q : RetryQueue α) :
    Nat → RetryQueue α
  | 0 => q
  | n + 1 => after B ok (q.drain B ok) n

theorem stuck_after (n : Nat) : (q.after B ok n).stuck ok = q.stuck ok := by
  induction n generalizing q with
  | zero => rfl
  | succ n ih => exact ih.trans stuck_drain

/-- `cap` stuck jobs fill every batch. -/
theorem not_last (h : cap ≤ (q.stuck ok).length) : ¬Last B q := by
  have hle : cap ≤ q.pending.length := h.trans (List.length_filter_le ..)
  intro hl
  exact hl ((B.length _).trans (min_eq_left hle))

/-- A full batch holds a job that is not stuck, unless there are `cap` stuck ones. -/
theorem exists_not_stuck (h : (q.stuck ok).length < cap) (hl : ¬Last B q) :
    ∃ a ∈ B.pick q.pending, ¬Stuck ok a (q.tries a) := by
  by_contra hall
  have hstuck : ∀ a ∈ B.pick q.pending, Stuck ok a (q.tries a) := by simpa using hall
  have hnodup : (B.pick q.pending).Nodup := by
    obtain ⟨l, hp, hs⟩ := B.subperm q.pending
    exact hp.nodup_iff.mp (hs.nodup q.nodup)
  have hsub : B.pick q.pending ⊆ q.stuck ok := by
    intro a ha
    exact List.mem_filter.mpr ⟨(B.subperm _).subset ha, decide_eq_true (hstuck a ha)⟩
  have hle := (hnodup.subperm hsub).length_le
  have hfull : (B.pick q.pending).length = cap := not_not.mp hl
  omega

/-- The rounds come to an end exactly when fewer jobs than a batch holds are stuck. -/
theorem ends_iff : (∃ n, Last B (q.after B ok n)) ↔ (q.stuck ok).length < cap := by
  constructor
  · intro ⟨n, hn⟩
    by_contra hge
    have hfull : cap ≤ ((q.after B ok n).stuck ok).length := by
      rw [stuck_after]
      exact Nat.not_lt.mp hge
    exact not_last hfull hn
  · intro hlt
    -- by the attempts that the jobs which are not stuck still need
    induction hc : q.cost ok using Nat.strong_induction_on generalizing q with
    | _ c ih =>
      by_cases hl : Last B q
      · exact ⟨0, hl⟩
      · obtain ⟨a, ha, hs⟩ := exists_not_stuck hlt hl
        have hless := cost_drain_lt ha hs
        obtain ⟨n, hn⟩ := ih _ (hc ▸ hless) (stuck_drain.symm ▸ hlt) rfl
        exact ⟨n + 1, hn⟩

/-- The last round tries every job there is. -/
theorem Last.pick {a : α} (h : Last B q) (ha : a ∈ q.pending) : a ∈ B.pick q.pending := by
  have hlen := B.length q.pending
  have hle : q.pending.length ≤ (B.pick q.pending).length := by
    unfold Last at h
    omega
  exact ((B.subperm _).perm_of_length_le hle).mem_iff.mpr ha

end RetryQueue

end Framework

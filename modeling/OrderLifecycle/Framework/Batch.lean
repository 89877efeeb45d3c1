import OrderLifecycle.Framework.Store

namespace Framework
namespace Store

variable {K : Type} {Row : K → Type} {J : Type}

/-- The keys of the rows `t` sees and nobody else holds, `p` willing. -/
def unlocked (s : Store Row J) (t : Tid) (p : (k : K) → Row k → Bool) : List (Σ k, Row k) :=
  s.select t fun k row => if p k row && decide (s.Free t k) then some ⟨k, row⟩ else none

section lemmas

variable {s s' : Store Row J} {t : Tid} {f : (k : K) → Row k → Row k}

theorem mem_unlocked {p : (k : K) → Row k → Bool} {x : Σ k, Row k} (h : x ∈ s.unlocked t p) :
    s.view t x.1 = some x.2 ∧ p x.1 x.2 = true ∧ s.Free t x.1 := by
  obtain ⟨k, -, hx⟩ := List.mem_filterMap.mp h
  obtain ⟨row, hv, hx⟩ := Option.bind_eq_some_iff.mp hx
  dsimp only at hx
  split at hx
  · next hp =>
    cases hx
    simpa [hv] using hp
  · cases hx

/-- Each row is found once. -/
theorem unlocked_nodup (s : Store Row J) (t : Tid) (p : (k : K) → Row k → Bool) :
    ((s.unlocked t p).map Sigma.fst).Nodup := by
  have hsub : ∀ ks : List K, ((ks.filterMap fun k => (s.view t k).bind fun row =>
      if p k row && decide (s.Free t k) then some (⟨k, row⟩ : Σ k, Row k) else none).map
        Sigma.fst).Sublist ks := by
    intro ks
    induction ks with
    | nil => exact .slnil
    | cons k ks ih =>
      rw [List.filterMap_cons]
      split
      · exact ih.cons k
      · next x hx =>
        obtain ⟨row, -, hx⟩ := Option.bind_eq_some_iff.mp hx
        split at hx
        · cases hx
          exact ih.cons_cons k
        · cases hx
  exact (hsub s.keys).nodup s.nodup

variable [DecidableEq K]

/-- `UPDATE … WHERE key IN ks`; `none` while another transaction holds one of the rows. -/
def updateAll (s : Store Row J) (t : Tid) (f : (k : K) → Row k → Row k) :
    List K → Option (Store Row J)
  | [] => some s
  | k :: ks => (s.update t k (fun _ => true) (f k) fun _ => []).bind fun r => r.2.updateAll t f ks

/-- What `t` sees after changing the row with key `k`. -/
theorem update_view {k : K} {n : Nat} (h : s.update t k (fun _ => true) (f k) (fun _ => []) = some (n, s')) :
    s'.view t = Function.update (s.view t) k ((s.view t k).map (f k)) := by
  rcases update_cases h with ⟨-, rfl, hn⟩ | ⟨-, row, hf, hv, -, rfl⟩
  · cases hv : s'.view t k with
    | none =>
      rw [Option.map_none, ← hv]
      exact (Function.update_eq_self ..).symm
    | some row => exact absurd (hn row hv) (by simp)
  · rw [put_view, hv]
    rfl

/-- In its transaction `t` writes the rows it names and no others. -/
structure Batched (t : Tid) (ks : List K) (f : (k : K) → Row k → Row k) (s s' : Store Row J)
    (tx tx' : Txn Row J) : Prop where
  same : SameCommitted s s'
  frame : Frame t s s'
  txn : s'.txns t = some tx'
  aborted : tx'.aborted = tx.aborted
  other : ∀ k, k ∉ ks → tx'.writes k = tx.writes k
  wrote : ∀ k ∈ ks, tx'.writes k = match s.view t k with
    | none => tx.writes k
    | some row => some (some (f k row))

/-- One row after another; no key is named twice. -/
theorem updateAll_batched {ks : List K} (hks : ks.Nodup) {tx : Txn Row J}
    (ht : s.txns t = some tx) (h : s.updateAll t f ks = some s') :
    ∃ tx', Batched t ks f s s' tx tx' := by
  induction ks generalizing s tx with
  | nil =>
    cases h
    exact ⟨tx, .refl, .refl, ht, rfl, fun _ _ => rfl, nofun⟩
  | cons k ks ih =>
    obtain ⟨hk, hks⟩ := List.nodup_cons.mp hks
    obtain ⟨⟨n, s₁⟩, hu, hrest⟩ := Option.bind_eq_some_iff.mp h
    change s₁.updateAll t f ks = some s' at hrest
    have hview := update_view hu
    rcases update_cases hu with ⟨-, rfl, hn⟩ | ⟨-, row, hf, hv, -, rfl⟩
    · obtain ⟨tx', hb⟩ := ih hks ht hrest
      have hnone : s₁.view t k = none := by
        cases hv : s₁.view t k with
        | none => rfl
        | some row => exact absurd (hn row hv) (by simp)
      refine ⟨tx', hb.same, hb.frame, hb.txn, hb.aborted, ?_, ?_⟩
      · intro k' hk'
        exact hb.other k' fun hm => hk' (List.mem_cons_of_mem _ hm)
      · intro k' hk'
        rcases List.mem_cons.mp hk' with rfl | hk'
        · rw [hnone]
          exact hb.other k' hk
        · exact hb.wrote k' hk'
    · obtain ⟨hsame, htx⟩ := put_txn (some (f k row)) [] hf ht
      obtain ⟨tx', hb⟩ := ih hks htx hrest
      have hframe : Frame t s s' := put_frame.trans hb.frame
      refine ⟨tx', ⟨hb.same.1.trans hsame.1, hb.same.2.trans hsame.2⟩, hframe, hb.txn,
        hb.aborted, ?_, ?_⟩
      · intro k' hk'
        have hne : k' ≠ k := fun e => hk' (e ▸ List.mem_cons_self)
        rw [hb.other k' fun hm => hk' (List.mem_cons_of_mem _ hm)]
        simp [Txn.write, Function.update_of_ne hne]
      · intro k' hk'
        rcases List.mem_cons.mp hk' with rfl | hk'
        · rw [hb.other k' hk, hv]
          simp [Txn.write]
        · have hne : k' ≠ k := fun e => hk (e ▸ hk')
          rw [hb.wrote k' hk', hview, Function.update_of_ne hne]
          simp [Txn.write, Function.update_of_ne hne]

/-- Nothing to wait for when every row is there for the taking. -/
theorem updateAll_free {ks : List K} (hf : ∀ k ∈ ks, s.Free t k) :
    ∃ s', s.updateAll t f ks = some s' := by
  induction ks generalizing s with
  | nil => exact ⟨s, rfl⟩
  | cons k ks ih =>
    have hfk := hf k List.mem_cons_self
    cases hv : s.view t k with
    | none =>
      obtain ⟨s', hs⟩ := ih fun k' hk' => hf k' (List.mem_cons_of_mem _ hk')
      refine ⟨s', ?_⟩
      simpa [updateAll, update, hv] using hs
    | some row =>
      have hu := update_hit (p := fun _ => true) (f k) (fun _ => []) hfk hv rfl
      obtain ⟨s', hs⟩ := @ih (s.put t k (some (f k row)) [] hfk) fun k' hk' => by
        have hk := hf k' (List.mem_cons_of_mem _ hk')
        cases ht : s.txns t with
        | none => simpa [Free, put, ht] using hk
        | some tx =>
          by_cases e : k' = k
          · exact .inr (by simp [put, ht, e])
          · simpa [Free, put, ht, Function.update_of_ne e] using hk
      exact ⟨s', by simp [updateAll, hu, hs]⟩

theorem updateAll_view {ks : List K} (hks : ks.Nodup) (h : s.updateAll t f ks = some s') (k : K) :
    s'.view t k = if k ∈ ks then (s.view t k).map (f k) else s.view t k := by
  induction ks generalizing s with
  | nil =>
    cases h
    rfl
  | cons k' ks ih =>
    obtain ⟨hk', hks⟩ := List.nodup_cons.mp hks
    obtain ⟨⟨n, s₁⟩, hu, hrest⟩ := Option.bind_eq_some_iff.mp h
    rw [ih hks hrest, update_view hu]
    by_cases e : k = k'
    · subst e
      simp [hk']
    · simp [e]

theorem updateAll_keys {ks : List K} (h : s.updateAll t f ks = some s') : s'.keys = s.keys := by
  induction ks generalizing s with
  | nil =>
    cases h
    rfl
  | cons k ks ih =>
    obtain ⟨⟨n, s₁⟩, hu, hrest⟩ := Option.bind_eq_some_iff.mp h
    rw [ih hrest]
    rcases update_cases hu with ⟨-, rfl, -⟩ | ⟨-, row, hf, hv, -, rfl⟩
    · rfl
    · have hk : k ∈ s.keys := mem_keys_of_view fun hn => nomatch hn.symm.trans hv
      exact if_pos hk

end lemmas

end Store
end Framework

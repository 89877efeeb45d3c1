import OrderLifecycle.Outbox.Backlog

open Framework

namespace OrderLifecycle.Outbox

/-- How often the row was tried. -/
def attempts (ps : List Publication) (id : Uuid) : Nat := (ps.map (·.message.id)).count id

/-- The attempts to publish a row, counted from 0, end as `broker` says. -/
def Answers (broker : Uuid → Nat → Bool) (ps : List Publication) : Prop :=
  ∀ before p after, ps = before ++ p :: after →
    p.ok = broker p.message.id (attempts before p.message.id)

/-- The row was published and is marked. -/
def Finished (row : OutboxRow) (ps : List Publication) (s : Relay) : Prop :=
  (∃ row', s.db.rows row.message.id = some row' ∧ row'.publishedAt ≠ none) ∧
    ∃ p ∈ ps, p.message = row.message ∧ p.ok = true

/-- As the batches of the queue. -/
def batching : Batching OutboxRow relayBatchSize where
  pick := oldest
  subperm := oldest_perm
  length rows := by simp [oldest]

/-- Whether an attempt to publish the row succeeds. -/
def publishes (broker : Uuid → Nat → Bool) (row : OutboxRow) (n : Nat) : Bool :=
  broker row.message.id n

/-- The table after the attempts `ps`, as a queue. -/
structure Progress (s₀ : Relay) (q : RetryQueue OutboxRow) (ps : List Publication) (s : Relay) :
    Prop where
  rest : AtRest s
  pending : q.pending = s.unpublished
  tries : ∀ row ∈ q.pending, q.tries row = attempts ps row.message.id
  sent : s.sent = s₀.sent ++ ps
  done : ∀ row ∈ s₀.unpublished, row ∈ s.unpublished ∨ Finished row ps s

variable {s₀ s s' : Relay} {t : Tid} {ch : Nat → Choice} {i : Nat} {ps ps' : List Publication}
  {q : RetryQueue OutboxRow} {broker : Uuid → Nat → Bool} {row row' : OutboxRow}

theorem mem_unpublished (h : AtRest s) : row ∈ s.unpublished ↔
    s.db.rows row.message.id = some row ∧ row.publishedAt = none := by
  constructor
  · intro hrow
    obtain ⟨id, -, hf⟩ := List.mem_filterMap.mp hrow
    obtain ⟨hr, hn⟩ := Option.filter_eq_some_iff.mp hf
    rw [h.keyed id row hr]
    exact ⟨hr, Option.isNone_iff_eq_none.mp hn⟩
  · intro ⟨hr, hn⟩
    apply List.mem_filterMap.mpr
    have hkey := s.db.listed row.message.id (.inl fun hnone => nomatch hnone.symm.trans hr)
    exact ⟨row.message.id, hkey, Option.filter_eq_some_iff.mpr ⟨hr, by simp [hn]⟩⟩

theorem unpublished_inj (h : AtRest s) (hr : row ∈ s.unpublished) (hr' : row' ∈ s.unpublished)
    (hid : row.message.id = row'.message.id) : row = row' := by
  have hrow := ((mem_unpublished h).mp hr).1
  have hrow' := ((mem_unpublished h).mp hr').1
  rw [hid, hrow'] at hrow
  exact (Option.some.inj hrow).symm

theorem attempts_append {id : Uuid} : attempts (ps ++ ps') id = attempts ps id + attempts ps' id := by
  simp [attempts]

theorem mem_succeeded {id : Uuid} : id ∈ succeeded ps ↔ ∃ p ∈ ps, p.ok = true ∧ p.message.id = id := by
  simp [succeeded, and_assoc]

namespace Drained

variable (h : Drained s ps' s')

include h

theorem unpublished (hs : AtRest s) :
    s'.unpublished = s.unpublished.filter fun row => row.message.id ∉ succeeded ps' := by
  obtain ⟨now, hrows⟩ := h.rows
  simp only [Relay.unpublished, h.keys, List.filter_filterMap]
  apply List.filterMap_congr
  intro id _
  rw [hrows]
  cases hr : s.db.rows id with
  | none => rfl
  | some row =>
    have hid := hs.keyed id row hr
    by_cases hm : id ∈ succeeded ps'
    · cases hn : row.publishedAt <;> simp [mark, hm, hid, hn, Option.filter]
    · cases hn : row.publishedAt <;> simp [mark, hm, hid, hn, Option.filter]

theorem ids : ps'.map (·.message.id) = (oldest s.unpublished).map (·.message.id) := by
  have hmessages := congrArg (List.map (·.id)) h.tried
  simpa only [List.map_map, Function.comp_def] using hmessages

/-- The rows that were tried are those of the batch. -/
theorem mem_ids (hs : AtRest s) (hr : row ∈ s.unpublished) :
    row.message.id ∈ ps'.map (·.message.id) ↔ row ∈ oldest s.unpublished := by
  rw [h.ids]
  constructor
  · intro hm
    obtain ⟨row', hr', hid⟩ := List.mem_map.mp hm
    have heq := unpublished_inj hs ((oldest_perm _).subset hr') hr hid
    exact heq ▸ hr'
  · intro hm
    exact List.mem_map_of_mem hm

/-- A row leaves the table exactly when it was tried and its attempt succeeds. -/
theorem mem_succeeded (hs : AtRest s) (ha : Answers broker (ps ++ ps')) (hr : row ∈ s.unpublished) :
    row.message.id ∈ succeeded ps' ↔ row ∈ oldest s.unpublished ∧
      broker row.message.id (attempts ps row.message.id) = true := by
  -- the row is tried at most once in the batch
  have hok (p : Publication) (hp : p ∈ ps') (hid : p.message.id = row.message.id) :
      p.ok = broker row.message.id (attempts ps row.message.id) := by
    obtain ⟨before, after, rfl⟩ := List.append_of_mem hp
    have hnodup := h.ids ▸ hs.nodup
    have hbefore : p.message.id ∉ before.map (·.message.id) := by
      rw [List.map_append, List.map_cons] at hnodup
      intro hm
      exact (List.nodup_append.mp hnodup).2.2 _ hm _ List.mem_cons_self rfl
    have hnone : attempts before row.message.id = 0 := List.count_eq_zero.mpr (hid ▸ hbefore)
    rw [ha (ps ++ before) p after (by simp), hid, attempts_append, hnone, Nat.add_zero]
  constructor
  · intro hm
    obtain ⟨p, hp, htrue, hid⟩ := Outbox.mem_succeeded.mp hm
    refine ⟨(h.mem_ids hs hr).mp (hid ▸ List.mem_map_of_mem hp), ?_⟩
    exact (hok p hp hid).symm.trans htrue
  · intro ⟨hm, htrue⟩
    obtain ⟨p, hp, hid⟩ := List.mem_map.mp ((h.mem_ids hs hr).mpr hm)
    exact Outbox.mem_succeeded.mpr ⟨p, hp, (hok p hp hid).trans htrue, hid⟩

end Drained

theorem Progress.drain (h : Progress s₀ q ps s) (hd : Drained s ps' s')
    (ha : Answers broker (ps ++ ps')) :
    Progress s₀ (q.drain batching (publishes broker)) (ps ++ ps') s' where
  rest := hd.rest
  pending := by
    rw [hd.unpublished h.rest, ← h.pending]
    apply List.filter_congr
    intro row hr
    have hiff := hd.mem_succeeded h.rest ha (h.pending ▸ hr)
    rw [← h.tries row hr, ← h.pending] at hiff
    change row.message.id ∈ succeeded ps' ↔
      row ∈ batching.pick q.pending ∧ publishes broker row (q.tries row) = true at hiff
    rw [Bool.eq_iff_iff]
    simp [hiff, imp_iff_not_or]
  tries := by
    intro row hr
    have hr := (RetryQueue.mem_drain.mp hr).1
    have hids := hd.mem_ids h.rest (h.pending ▸ hr)
    have hnodup : (ps'.map (·.message.id)).Nodup := hd.ids ▸ h.rest.nodup
    rw [attempts_append, ← h.tries row hr, attempts, hnodup.count]
    by_cases hm : row ∈ oldest s.unpublished
    · rw [if_pos (hids.mpr hm)]
      exact RetryQueue.drain_tries_of_mem (B := batching) (h.pending ▸ hm)
    · rw [if_neg (mt hids.mp hm)]
      exact RetryQueue.drain_tries_of_not_mem (B := batching) (h.pending ▸ hm)
  sent := by rw [hd.sent, h.sent, List.append_assoc]
  done := by
    obtain ⟨now, hrows⟩ := hd.rows
    intro row hr
    rcases h.done row hr with hu | ⟨⟨row', hrow', hne⟩, p, hp, hmsg, hok⟩
    · by_cases hm : row.message.id ∈ succeeded ps'
      · right
        have hrow := ((mem_unpublished h.rest).mp hu).1
        refine ⟨⟨{ row with publishedAt := some now }, by simp [hrows, hrow, mark, hm], nofun⟩, ?_⟩
        obtain ⟨p, hp, hok, hid⟩ := mem_succeeded.mp hm
        have hmsg : p.message ∈ (oldest s.unpublished).map (·.message) :=
          hd.tried ▸ List.mem_map_of_mem hp
        obtain ⟨row', hr', hmsg⟩ := List.mem_map.mp hmsg
        have heq : row' = row :=
          unpublished_inj h.rest ((oldest_perm _).subset hr') hu (by rw [hmsg, hid])
        exact ⟨p, List.mem_append_right _ hp, by rw [← hmsg, heq], hok⟩
      · left
        rw [hd.unpublished h.rest]
        exact List.mem_filter.mpr ⟨hu, by simpa using hm⟩
    · right
      refine ⟨⟨mark (succeeded ps') now row.message.id row', by simp [hrows, hrow'], ?_⟩,
        p, List.mem_append_left _ hp, hmsg, hok⟩
      unfold mark
      split
      · exact nofun
      · exact hne

/-- In its tick, from statement `i` on, no statement of the database fails, and the attempts to
publish since `sent` end as `broker` says. -/
def HealthyFrom (broker : Uuid → Nat → Bool) (t : Tid) (ch : Nat → Choice) (sent : List Publication)
    (i : Nat) (s : Relay) : Prop :=
  ∀ ticks s' r, (drainLoop ticks).run.solo t ch none i s = some (s', r) →
    (∃ k, r = some (.ok (), k)) ∧ ∃ ps, s'.sent = sent ++ ps ∧ Answers broker ps

section loop

variable {j ticks : Nat}

theorem drainLoop_error {e : RelayError}
    (h : drainOnce.run.solo t ch none i s = some (s', some (.error e, j))) :
    (drainLoop (ticks + 1)).run.solo t ch none i s = some (s', some (.error e, j)) := by
  change Prog.solo t ch none (drainOnce.run >>= _) i s = _
  rw [Prog.solo_bind, h]
  rfl

theorem drainLoop_full (h : drainOnce.run.solo t ch none i s = some (s', some (.ok relayBatchSize, j))) :
    (drainLoop (ticks + 1)).run.solo t ch none i s = (drainLoop ticks).run.solo t ch none j s' := by
  change Prog.solo t ch none (drainOnce.run >>= _) i s = _
  rw [Prog.solo_bind, h]
  rfl

theorem drainLoop_last {claimed : Nat} (hc : claimed ≠ relayBatchSize)
    (h : drainOnce.run.solo t ch none i s = some (s', some (.ok claimed, j))) :
    (drainLoop (ticks + 1)).run.solo t ch none i s = some (s', some (.ok (), j)) := by
  have hstop : (if claimed = relayBatchSize then drainLoop ticks else return ()) =
      (return () : RelayAction Unit) := if_neg hc
  change Prog.solo t ch none (drainOnce.run >>= _) i s = _
  rw [Prog.solo_bind, h]
  change Prog.solo t ch none (if claimed = relayBatchSize then drainLoop ticks else return ()).run
    j s' = _
  rw [hstop]
  rfl

end loop

/-- One round of the loop. -/
theorem round (h : Progress s₀ q ps s) (hh : HealthyFrom broker t ch s₀.sent i s) :
    ∃ s' j ps', Progress s₀ (q.drain batching (publishes broker)) (ps ++ ps') s' ∧
      ps'.length = (batching.pick q.pending).length ∧
      (RetryQueue.Last batching q → ∀ ticks,
        (drainLoop (ticks + 1)).run.solo t ch none i s = some (s', some (.ok (), j))) ∧
      (¬RetryQueue.Last batching q → ∀ ticks,
        (drainLoop (ticks + 1)).run.solo t ch none i s =
          (drainLoop ticks).run.solo t ch none j s') := by
  have hsolo : Solo t ch none (fun _ _ => True) i (fun s' => s' = s) drainOnce _ _ :=
    solo_drainOnce h.rest
  obtain ⟨s', r, hrun, hpost⟩ := hsolo s rfl
  match r with
  | none =>
    obtain ⟨j, hj, -⟩ := hpost
    cases hj
  | some (.error e, j) =>
    obtain ⟨⟨k, hk⟩, -⟩ := hh 1 s' _ (drainLoop_error hrun)
    cases hk
  | some (.ok claimed, j) =>
    obtain ⟨-, hc, ps', hd, htried, -⟩ := hpost
    have hend : (drainLoop 1).run.solo t ch none i s = some (s', some (.ok (), j)) := by
      by_cases he : claimed = relayBatchSize
      · subst he
        exact drainLoop_full hrun
      · exact drainLoop_last he hrun
    have ha : Answers broker (ps ++ ps') := by
      obtain ⟨-, ps'', hsent, ha⟩ := hh 1 s' _ hend
      rw [hd.sent, h.sent, List.append_assoc] at hsent
      rwa [List.append_cancel_left hsent]
    have hpick : claimed = (batching.pick q.pending).length := by
      rw [hc, h.pending]
      rfl
    refine ⟨s', j, ps', h.drain hd ha, ?_, ?_, ?_⟩
    · have hlength := congrArg List.length hd.tried
      rw [List.length_map, List.length_map] at hlength
      rw [hlength, ← hc, hpick]
    · intro hl ticks
      exact drainLoop_last (hpick ▸ hl) hrun
    · intro hl ticks
      have he : claimed = relayBatchSize := hpick.trans (not_not.mp hl)
      subst he
      exact drainLoop_full hrun

/-- Any number of full batches. -/
theorem rounds (n : Nat) (h : Progress s₀ q ps s) (hh : HealthyFrom broker t ch s₀.sent i s)
    (hl : ∀ m, m < n → ¬RetryQueue.Last batching (q.after batching (publishes broker) m)) :
    ∃ s' j ps', Progress s₀ (q.after batching (publishes broker) n) ps' s' ∧
      HealthyFrom broker t ch s₀.sent j s' ∧ ps'.length = ps.length + n * relayBatchSize ∧
      ∀ ticks, (drainLoop (ticks + n)).run.solo t ch none i s =
        (drainLoop ticks).run.solo t ch none j s' := by
  induction n generalizing q s ps i with
  | zero => exact ⟨s, i, ps, h, hh, by simp, fun _ => rfl⟩
  | succ n ih =>
    obtain ⟨s₁, j₁, ps₁, hp, hlength, -, hloop⟩ := round h hh
    have hfirst := hl 0 (Nat.succ_pos n)
    have hh₁ : HealthyFrom broker t ch s₀.sent j₁ s₁ := by
      intro ticks s' r hrun
      exact hh (ticks + 1) s' r ((hloop hfirst ticks).trans hrun)
    obtain ⟨s', j, ps', hp', hh', hlength', hloop'⟩ :=
      ih hp hh₁ fun m hm => hl (m + 1) (Nat.succ_lt_succ hm)
    refine ⟨s', j, ps', hp', hh', ?_, ?_⟩
    · have hfull : ps₁.length = relayBatchSize := hlength.trans (not_not.mp hfirst)
      rw [hlength', List.length_append, hfull, Nat.succ_mul]
      omega
    · intro ticks
      exact (hloop hfirst (ticks + n)).trans (hloop' ticks)

/-- Before the first attempt. -/
noncomputable def Relay.queue (s : Relay) (h : AtRest s) : RetryQueue OutboxRow where
  pending := s.unpublished
  tries := fun _ => 0
  nodup := (h.ids.nodup s.db.nodup).of_map _

theorem progress_start (h : AtRest s) : Progress s (s.queue h) [] s where
  rest := h
  pending := rfl
  tries := fun _ _ => rfl
  sent := (List.append_nil _).symm
  done := fun _ hr => .inl hr

open Classical in
/-- The rows that no attempt ever publishes. -/
noncomputable def Relay.stuck (broker : Uuid → Nat → Bool) (s : Relay) : List OutboxRow :=
  s.unpublished.filter fun row => ∀ n, broker row.message.id n = false

theorem stuck_start (h : AtRest s) : (s.queue h).stuck (publishes broker) = s.stuck broker := by
  apply List.filter_congr
  intro row _
  apply decide_eq_decide.mpr
  simp [RetryQueue.Stuck, publishes, Relay.queue]

/-- In the tick no statement of the database fails, and the attempts to publish a row end as
`broker` says. -/
def Healthy (broker : Uuid → Nat → Bool) (t : Tid) (ch : Nat → Choice) (s : Relay) : Prop :=
  HealthyFrom broker t ch s.sent 0 s

/-- From some number of rounds on a bound makes no difference: the loop has ended, in `s'`. -/
def Ends (t : Tid) (ch : Nat → Choice) (s s' : Relay) : Prop :=
  ∃ n k, ∀ ticks, n ≤ ticks → (relay ticks).run.solo t ch none 0 s = some (s', some (.ok (), k))

theorem solo_relay {ticks k : Nat}
    (h : (drainLoop ticks).run.solo t ch none i s = some (s', some (.ok (), k))) :
    (relay ticks).run.solo t ch none i s = some (s', some (.ok (), k)) := by
  change Prog.solo t ch none ((drainLoop ticks).run >>= _) i s = _
  rw [Prog.solo_bind, h]
  rfl

/-- The loop ends when a batch is not full; then everything was tried. -/
theorem ends_of_last (h : AtRest s) (hh : Healthy broker t ch s)
    (hl : ∃ n, RetryQueue.Last batching ((s.queue h).after batching (publishes broker) n)) :
    ∃ s' ps, Ends t ch s s' ∧ s'.sent = s.sent ++ ps ∧
      ∀ row ∈ s.unpublished, (∀ n, broker row.message.id n = true) → Finished row ps s' := by
  classical
  obtain ⟨s₁, j₁, ps₁, hp, hh₁, -, hloop⟩ := rounds (Nat.find hl) (progress_start h) hh
    fun m hm => Nat.find_min hl hm
  obtain ⟨s', j, ps', hp', -, hlast, -⟩ := round hp hh₁
  have hfound := Nat.find_spec hl
  refine ⟨s', ps₁ ++ ps', ⟨Nat.find hl + 1, j, ?_⟩, hp'.sent, ?_⟩
  · intro ticks hticks
    obtain ⟨d, rfl⟩ := Nat.exists_eq_add_of_le hticks
    apply solo_relay
    rw [show Nat.find hl + 1 + d = d + 1 + Nat.find hl by omega, hloop]
    exact hlast hfound d
  · intro row hr halways
    rcases hp'.done row hr with hu | hf
    · obtain ⟨hm, hleft⟩ := RetryQueue.mem_drain.mp (hp'.pending ▸ hu)
      exact absurd ⟨hfound.pick hm, halways _⟩ hleft
    · exact hf

/-- While full batches come back, the loop goes on. -/
theorem not_ends (h : AtRest s) (hh : Healthy broker t ch s)
    (hl : ∀ n, ¬RetryQueue.Last batching ((s.queue h).after batching (publishes broker) n)) :
    ¬Ends t ch s s' := by
  intro ⟨n, k, hends⟩
  have hsent (m : Nat) (hm : n ≤ m) : s'.sent.length = s.sent.length + m * relayBatchSize := by
    obtain ⟨s₁, j, ps, hp, hh', hlength, hloop⟩ := rounds m (progress_start h) hh fun m' _ => hl m'
    have hrun := hloop 0
    rw [Nat.zero_add] at hrun
    have heq := (hends m hm).symm.trans (solo_relay hrun)
    cases heq
    rw [hp.sent, List.length_append, hlength]
    simp
  have hn := hsent n (Nat.le_refl n)
  have hn' := hsent (n + 1) (Nat.le_succ n)
  have hpos : 0 < relayBatchSize := by decide
  rw [Nat.succ_mul] at hn'
  omega

theorem ends_iff (h : AtRest s) (hh : Healthy broker t ch s) :
    (∃ s', Ends t ch s s') ↔ (s.stuck broker).length < relayBatchSize := by
  rw [← stuck_start h, ← RetryQueue.ends_iff (B := batching)]
  constructor
  · intro ⟨s', hends⟩
    by_contra hnever
    exact not_ends h hh (not_exists.mp hnever) hends
  · intro hl
    obtain ⟨s', ps, hends, -⟩ := ends_of_last h hh hl
    exact ⟨s', hends⟩

/-- One tick of the relay ends, and publishes and marks every row that can always be published,
exactly when fewer rows than a batch holds can never be. -/
theorem relay_no_starvation (h : AtRest s) (hh : Healthy broker t ch s) :
    (∃ s' ps, Ends t ch s s' ∧ s'.sent = s.sent ++ ps ∧ ∀ row ∈ s.unpublished,
      (∀ n, broker row.message.id n = true) → Finished row ps s') ↔
    (s.stuck broker).length < relayBatchSize := by
  constructor
  · intro ⟨s', _, hends, _⟩
    exact (ends_iff h hh).mp ⟨s', hends⟩
  · intro hless
    rw [← stuck_start h, ← RetryQueue.ends_iff (B := batching)] at hless
    exact ends_of_last h hh hless

/-! ### Two tables -/

/-- The event of order `id`, waiting since instant `id`. -/
def waitingRow (id : Uuid) : OutboxRow :=
  ⟨⟨id, orderExchange, .completed, .completed ⟨id, 9⟩, 0⟩, id, none⟩

/-- `n` rows nobody has tried yet. -/
def waiting (n : Nat) : Relay where
  db := Store.ofRows (List.range n) (fun id => if id < n then some (waitingRow id) else none)
    List.nodup_range (by
      intro id hid
      by_contra hn
      exact hid (if_neg (by simpa using hn)))
  sent := []
  finished := fun _ => 0
  ended := []
  relayed := 0

theorem waiting_rest (n : Nat) : AtRest (waiting n) where
  idle := fun _ => rfl
  keyed := by
    intro id row hrow
    obtain ⟨-, he⟩ := Option.ite_none_right_eq_some.mp hrow
    cases he
    rfl

/-- Nothing fails. -/
theorem healthy_waiting {n : Nat} (hn : n < relayBatchSize) :
    Healthy (fun _ _ => true) 0 (fun _ => {}) (waiting n) := by
  intro ticks s' r hrun
  cases ticks with
  | zero =>
    cases hrun
    exact ⟨⟨0, rfl⟩, [], rfl, by simp [Answers]⟩
  | succ ticks =>
    have hsolo : Solo 0 (fun _ => {}) none (fun _ _ => True) 0 (fun s => s = waiting n) drainOnce
        _ _ :=
      solo_drainOnce (waiting_rest n)
    obtain ⟨s₁, r₁, hdrain, hpost⟩ := hsolo (waiting n) rfl
    match r₁ with
    | none =>
      obtain ⟨j, hj, -⟩ := hpost
      cases hj
    | some (.error e, j) =>
      obtain ⟨-, l, hf, -⟩ := hpost
      cases hf
    | some (.ok claimed, j) =>
      obtain ⟨-, rfl, ps, hd, htried, -⟩ := hpost
      have hfew : (oldest (waiting n).unpublished).length ≠ relayBatchSize := by
        have hle := (oldest_perm (waiting n).unpublished).length_le
        have hkeys : (waiting n).unpublished.length ≤ (List.range n).length :=
          List.length_filterMap_le ..
        rw [List.length_range] at hkeys
        omega
      rw [drainLoop_last hfew hdrain] at hrun
      cases hrun
      refine ⟨⟨j, rfl⟩, ps, hd.sent, ?_⟩
      intro before p after he
      obtain ⟨l, -, -, hok⟩ := htried.outcomes p (he ▸ by simp)
      exact hok

theorem relay_no_starvation_one : ∃ s' ps, Ends 0 (fun _ => {}) (waiting 1) s' ∧
    s'.sent = ps ∧ Finished (waitingRow 0) ps s' := by
  have hless : ((waiting 1).stuck fun _ _ => true).length < relayBatchSize := by
    have hnone : (waiting 1).stuck (fun _ _ => true) = [] := by
      apply List.filter_eq_nil_iff.mpr
      simp
    rw [hnone]
    decide
  obtain ⟨s', ps, hends, hsent, hfinished⟩ :=
    (relay_no_starvation (waiting_rest 1) (healthy_waiting (by decide))).mpr hless
  have hrow : waitingRow 0 ∈ (waiting 1).unpublished := by decide +kernel
  exact ⟨s', ps, hends, hsent, hfinished _ hrow fun _ => rfl⟩

/-- The publishing of the first fifty rows fails in every round. -/
def jam (i : Nat) : Choice := { fail := decide (2 ≤ i % 53 ∧ i % 53 ≤ 51) }

theorem jam_drain {i : Nat} (hi : i % 53 = 0) (h : AtRest s)
    (hrows : s.unpublished = (waiting 51).unpublished) :
    ∃ s' ps, drainOnce.run.solo 0 jam none i s = some (s', some (.ok relayBatchSize, i + 53)) ∧
      AtRest s' ∧ s'.unpublished = (waiting 51).unpublished ∧ s'.sent = s.sent ++ ps ∧
      ∀ p ∈ ps, p.ok = false ∧ p.message.id < 50 := by
  have holdest : (oldest (waiting 51).unpublished).map (·.message.id) = List.range 50 := by
    decide +kernel
  have hlength : (oldest s.unpublished).length = 50 := by
    have hl := congrArg List.length holdest
    rwa [← hrows, List.length_map, List.length_range] at hl
  have hsolo : Solo 0 jam none (fun _ _ => True) i (fun s' => s' = s) drainOnce _ _ :=
    solo_drainOnce h
  obtain ⟨s', r, hrun, hpost⟩ := hsolo s rfl
  match r with
  | none =>
    obtain ⟨j, hj, -⟩ := hpost
    cases hj
  | some (.error e, j) =>
    obtain ⟨-, l, hf, hl⟩ := hpost
    rw [hlength] at hl
    have hl' := of_decide_eq_true hf
    omega
  | some (.ok claimed, j) =>
    obtain ⟨-, rfl, ps, hd, htried, hj⟩ := hpost
    have hfail : ∀ p ∈ ps, p.ok = false := by
      intro p hp
      obtain ⟨l, hl, hl', hok⟩ := htried.outcomes p hp
      rw [hlength] at hl'
      have hl : (jam l).fail = true := decide_eq_true (by omega)
      rw [hok, hl]
      rfl
    have hnone : succeeded ps = [] := by
      rw [succeeded, List.filter_eq_nil_iff.mpr fun p hp => by simp [hfail p hp]]
      rfl
    rw [hj hnone, hlength] at hrun
    refine ⟨s', ps, hrun, hd.rest, ?_, hd.sent, ?_⟩
    · rw [hd.unpublished h, hnone, hrows]
      apply List.filter_eq_self.mpr
      simp
    · intro p hp
      refine ⟨hfail p hp, ?_⟩
      have hid := List.mem_map_of_mem (f := fun p : Publication => p.message.id) hp
      rw [hd.ids, hrows, holdest] at hid
      exact List.mem_range.mp hid

theorem jam_loop {ticks i : Nat} (hi : i % 53 = 0) (h : AtRest s)
    (hrows : s.unpublished = (waiting 51).unpublished) :
    ∃ s' k ps, (drainLoop ticks).run.solo 0 jam none i s = some (s', some (.ok (), k)) ∧
      s'.sent = s.sent ++ ps ∧ ∀ p ∈ ps, p.ok = false ∧ p.message.id < 50 := by
  induction ticks generalizing i s with
  | zero => exact ⟨s, i, [], rfl, (List.append_nil _).symm, nofun⟩
  | succ ticks ih =>
    obtain ⟨s₁, ps₁, hrun, hrest, hrows₁, hsent₁, hps₁⟩ := jam_drain hi h hrows
    obtain ⟨s', k, ps, hrun', hsent, hps⟩ := ih (i := i + 53) (by omega) hrest hrows₁
    refine ⟨s', k, ps₁ ++ ps, (drainLoop_full hrun).trans hrun', ?_, ?_⟩
    · rw [hsent, hsent₁, List.append_assoc]
    · intro p hp
      rcases List.mem_append.mp hp with hp | hp
      · exact hps₁ p hp
      · exact hps p hp

/-- Fifty rows that always fail keep the loop going for ever; the row behind them is never tried. -/
theorem not_relay_no_starvation : ¬∀ (broker : Uuid → Nat → Bool) (ch : Nat → Choice) (s : Relay),
    AtRest s → Healthy broker 0 ch s → ∃ s' ps, Ends 0 ch s s' ∧ s'.sent = s.sent ++ ps ∧
      ∀ row ∈ s.unpublished, (∀ n, broker row.message.id n = true) → Finished row ps s' := by
  intro hall
  have hhealthy : Healthy (fun id _ => decide (50 ≤ id)) 0 jam (waiting 51) := by
    intro ticks s' r hrun
    have hloop : ∃ s' k ps, (drainLoop ticks).run.solo 0 jam none 0 (waiting 51) =
        some (s', some (.ok (), k)) ∧ _ ∧ _ := jam_loop rfl (waiting_rest 51) rfl
    obtain ⟨s'', k, ps, hrun', hsent, hps⟩ := hloop
    rw [hrun] at hrun'
    cases hrun'
    refine ⟨⟨k, rfl⟩, ps, hsent, ?_⟩
    intro before p after he
    obtain ⟨hok, hid⟩ := hps p (he ▸ by simp)
    rw [hok]
    exact (decide_eq_false (Nat.not_le.mpr hid)).symm
  obtain ⟨s', -, hends, -⟩ := hall _ jam (waiting 51) (waiting_rest 51) hhealthy
  have hless := (ends_iff (waiting_rest 51) hhealthy).mp ⟨s', hends⟩
  have hstuck : (waiting 51).stuck (fun id _ => decide (50 ≤ id)) =
      (waiting 51).unpublished.filter fun row => row.message.id < 50 := by
    apply List.filter_congr
    intro row _
    simp
  rw [hstuck] at hless
  exact absurd hless (by decide +kernel)

end OrderLifecycle.Outbox

import OrderLifecycle.Outbox.Invariant

open Framework

namespace OrderLifecycle.Outbox

def relayLogic : Logic Relay Choice RelayCall where
  inv := Inv
  guar t _ := Moves t
  envGuar _ _ := False
  choice _ := True

variable {s s' : Relay} {t : Tid} {k : RelayCall} {α : Type}

/-! ### Assertions about a thread's own transaction -/

/-- No transaction, and nothing published under the next one's name. -/
structure Idle (t : Tid) (s : Relay) : Prop where
  txn : s.db.txns t = none
  unsent : ∀ p ∈ s.sent, p.drain ≠ s.current t

/-- A transaction that has done nothing yet. -/
structure Opened (t : Tid) (s : Relay) : Prop where
  txn : s.db.txns t = some ⟨fun _ => none, [], false⟩
  unsent : ∀ p ∈ s.sent, p.drain ≠ s.current t

/-- A drain with the rows of `batch` still to publish and those of `published` sent. -/
structure Drain (t : Tid) (batch : List OutboxRow) (published : List Uuid) (s : Relay)
    (tx : Txn (fun _ : Uuid => OutboxRow) Unit) : Prop where
  txn : s.db.txns t = some tx
  clean : tx.aborted = false
  nodup : (published ++ batch.map (·.message.id)).Nodup
  waiting : ∀ row ∈ batch, tx.writes row.message.id = some (some row) ∧
    s.row row.message.id = some row ∧ row.publishedAt = none
  sent : ∀ id ∈ published, ∃ row, tx.writes id = some (some row) ∧ row.message.id = id ∧
    s.row id = some row ∧ row.publishedAt = none ∧ ⟨s.current t, row.message, true⟩ ∈ s.sent
  noted : ∀ p ∈ s.delivered, p.drain = s.current t → p.message.id ∈ published

def Draining (t : Tid) (batch : List OutboxRow) (published : List Uuid) (s : Relay) : Prop :=
  ∃ tx, Drain t batch published s tx

/-- A transaction that may commit: what it has published it has marked. -/
def Ready (t : Tid) (s : Relay) : Prop :=
  ∃ tx, s.db.txns t = some tx ∧ tx.aborted = false ∧ ∀ p ∈ s.delivered, p.drain = s.current t →
    ∃ row, tx.writes p.message.id = some (some row) ∧ row.publishedAt ≠ none

/-- After an error. -/
def Failed (t : Tid) (s : Relay) : Prop := s.db.txns t = none → Idle t s

/-- What `t` published is not touched by the others. -/
theorem Moves.own_sent {t' : Tid} (h : Moves t' s s') (ht : t ≠ t') {p : Publication}
    (hp : p.drain.1 = t) : p ∈ s'.sent ↔ p ∈ s.sent := by
  obtain ⟨ps, he, hps⟩ := h.sent
  rw [he, List.mem_append]
  refine ⟨fun hm => hm.resolve_right fun hm => ?_, .inl⟩
  exact ht (hp.symm.trans (hps p hm))

theorem stable_of_moves {P : Relay → Prop}
    (h : ∀ s s' t', t ≠ t' → Moves t' s s' → P s → P s') : relayLogic.Stable t P := by
  rintro s s' ⟨-, -, ⟨t', k, hne, hm⟩ | hf⟩ hp
  · exact h s s' t' (Ne.symm hne) hm hp
  · exact hf.elim

theorem Moves.unsent {t' : Tid} (h : Moves t' s s') (ht : t ≠ t')
    (hu : ∀ p ∈ s.sent, p.drain ≠ s.current t) : ∀ p ∈ s'.sent, p.drain ≠ s'.current t := by
  intro p hp he
  rw [h.current ht] at he
  exact hu p ((h.own_sent ht (congrArg Prod.fst he)).mp hp) he

theorem idle_stable : relayLogic.Stable t (Idle t) := by
  apply stable_of_moves
  intro s s' t' hne hm hi
  exact ⟨(hm.frame.txns t hne).trans hi.txn, hm.unsent hne hi.unsent⟩

theorem opened_stable : relayLogic.Stable t (Opened t) := by
  apply stable_of_moves
  intro s s' t' hne hm hi
  exact ⟨(hm.frame.txns t hne).trans hi.txn, hm.unsent hne hi.unsent⟩

theorem Moves.own_delivered {t' : Tid} (h : Moves t' s s') (ht : t ≠ t') {p : Publication}
    (hp : p ∈ s'.delivered) (hd : p.drain = s'.current t) :
    p ∈ s.delivered ∧ p.drain = s.current t := by
  rw [h.current ht] at hd
  obtain ⟨hm, hok⟩ := List.mem_filter.mp hp
  exact ⟨List.mem_filter.mpr ⟨(h.own_sent ht (congrArg Prod.fst hd)).mp hm, hok⟩, hd⟩

theorem draining_stable {batch : List OutboxRow} {published : List Uuid} :
    relayLogic.Stable t (Draining t batch published) := by
  apply stable_of_moves
  rintro s s' t' hne hm ⟨tx, h⟩
  have hrow {id : Uuid} (hw : tx.writes id ≠ none) : s'.row id = s.row id :=
    hm.frame.rows_of_write hne h.txn hw
  refine ⟨tx, (hm.frame.txns t hne).trans h.txn, h.clean, h.nodup, ?_, ?_, ?_⟩
  · intro row hr
    obtain ⟨hw, hc, hn⟩ := h.waiting row hr
    exact ⟨hw, (hrow (by simp [hw])).trans hc, hn⟩
  · intro id hid
    obtain ⟨row, hw, he, hc, hn, hs⟩ := h.sent id hid
    rw [hm.current hne]
    exact ⟨row, hw, he, (hrow (by simp [hw])).trans hc, hn, (hm.own_sent hne rfl).mpr hs⟩
  · intro p hp hd
    obtain ⟨hp, hd⟩ := hm.own_delivered hne hp hd
    exact h.noted p hp hd

theorem ready_stable : relayLogic.Stable t (Ready t) := by
  apply stable_of_moves
  rintro s s' t' hne hm ⟨tx, htx, ha, h⟩
  refine ⟨tx, (hm.frame.txns t hne).trans htx, ha, ?_⟩
  intro p hp hd
  obtain ⟨hp, hd⟩ := hm.own_delivered hne hp hd
  exact h p hp hd

theorem failed_stable : relayLogic.Stable t (Failed t) := by
  apply stable_of_moves
  intro s s' t' hne hm h hn
  have hi := h ((hm.frame.txns t hne).symm.trans hn)
  exact ⟨hn, hm.unsent hne hi.unsent⟩

theorem Opened.draining (h : Opened t s) : Draining t [] [] s := by
  refine ⟨_, h.txn, rfl, .nil, nofun, nofun, fun p hp hd => ?_⟩
  exact absurd hd (h.unsent p (List.mem_filter.mp hp).1)

/-- With nothing published there is nothing to mark. -/
theorem Draining.ready (h : Draining t [] [] s) : Ready t s := by
  obtain ⟨tx, h⟩ := h
  exact ⟨tx, h.txn, h.clean, fun p hp hd => nomatch h.noted p hp hd⟩

theorem Failed.of_open {tx : Txn (fun _ : Uuid => OutboxRow) Unit}
    (h : s.db.txns t = some tx) : Failed t s := fun hn => nomatch h.symm.trans hn

/-- When a transaction has ended, the next one has another name. -/
theorem Closes.idle {committed : Bool} (h : Closes t s s' committed) (hi : Inv s) : Idle t s' := by
  refine ⟨h.txn, fun p hp he => ?_⟩
  rw [h.sent] at hp
  have hle := hi.drains p hp
  rw [he] at hle
  simp only [Relay.current, h.finished, Function.update_self] at hle
  exact Nat.not_succ_le_self _ hle

/-! ### Statements -/

theorem hoare_sql {P : Relay → Prop} {R : α → Relay → Prop}
    {f : Tid → Choice → Relay → Option (α × Relay)} (hP : relayLogic.Stable t P)
    (hopen : ∀ s, P s → ∃ tx, s.db.txns t = some tx ∧ tx.aborted = false)
    (hf : ∀ s ch a s', Inv s → P s → f t ch s = some (a, s') →
      Inv s' ∧ Moves t s s' ∧ R a s') :
    Hoare relayLogic t k P (sql f) R fun _ => Failed t := by
  apply hoare_stmt hP
  intro s ch r s' hi _ hp hs
  obtain ⟨tx, htx, ha⟩ := hopen s hp
  have hab : s.db.aborted t = false := by simp [Store.aborted, htx, ha]
  rw [hab] at hs
  simp only [Bool.false_eq_true, if_false] at hs
  split at hs
  · cases hs
    refine ⟨inv_abort hi, quietly_abort.moves, ?_⟩
    have hdead : (s.db.abort t).txns t = some { tx with aborted := true } := by
      rw [Store.abort_txn, htx]
      rfl
    exact Failed.of_open hdead
  · obtain ⟨⟨a, s₁⟩, hr, he⟩ := Option.map_eq_some_iff.mp hs
    cases he
    exact hf s ch a s₁ hi hp hr

theorem hoare_startTransaction :
    Hoare relayLogic t k (Idle t) startTransaction (fun _ => Opened t) fun _ => Failed t := by
  apply hoare_stmt idle_stable
  intro s ch r s' hi _ hp hs
  split at hs
  · cases hs
    have hq : Moves t s s := ⟨.refl, fun _ _ => rfl, ⟨[], by simp⟩, .of_same rfl⟩
    exact ⟨hi, hq, fun _ => hp⟩
  · cases hs
    exact ⟨inv_begin hp.txn hi, (quietly_begin hp.txn).moves, Store.begin_txn hp.txn, hp.unsent⟩

theorem rollback_idle (hi : Inv s) (h : Failed t s) : Idle t (s.rollback t) := by
  cases ht : s.db.txns t with
  | none =>
    rw [Relay.rollback, close_idle ht]
    exact h ht
  | some tx => exact (closes_rollback ht).idle hi

theorem hoare_rollbackTransaction {Q : Unit → Relay → Prop} (hQ : ∀ s, Idle t s → Q () s) :
    Hoare relayLogic t k (Failed t) rollbackTransaction Q fun (_ : RelayError) => Idle t := by
  apply hoare_stmt failed_stable
  intro s ch r s' hi _ hp hs
  cases hs
  obtain ⟨hinv, hm⟩ := rollback_step (t := t) hi
  exact ⟨hinv, hm, hQ _ (rollback_idle hi hp)⟩

theorem hoare_commitTransaction :
    Hoare relayLogic t k (Ready t) commitTransaction (fun _ => Idle t) fun _ => Failed t := by
  apply hoare_stmt ready_stable
  intro s ch r s' hi _ hp hs
  obtain ⟨tx, htx, ha, hmark⟩ := hp
  split at hs
  · cases hs
    obtain ⟨hinv, hm⟩ := rollback_step (t := t) hi
    exact ⟨hinv, hm, fun _ => rollback_idle hi (.of_open htx)⟩
  · cases hs
    obtain ⟨hinv, hm⟩ := commit_step hi htx ha hmark
    exact ⟨hinv, hm, (closes_commit htx ha).idle hi⟩

theorem hoare_transaction {work : RelayAction α}
    (hw : Hoare relayLogic t k (Opened t) work (fun _ => Ready t) fun _ => Failed t) :
    Hoare relayLogic t k (Idle t) (transaction work) (fun _ => Idle t) fun _ => Idle t := by
  apply hoare_tryCatch (E := fun _ => Failed t)
  · apply hoare_bind hoare_startTransaction
    intro _
    apply hoare_bind hw
    intro a
    apply hoare_bind hoare_commitTransaction
    intro _
    exact hoare_pure fun _ h => h
  · intro e
    apply hoare_bind (hoare_rollbackTransaction (Q := fun _ => Idle t) fun _ h => h)
    intro _
    exact hoare_throw fun _ h => h

theorem hoare_enqueue (routingKey : RoutingKey) (payload : OrderEvent) :
    Hoare relayLogic t k (Draining t [] []) (enqueue routingKey payload)
      (fun _ => Draining t [] []) fun _ => Failed t := by
  apply hoare_sql draining_stable
  · rintro s ⟨tx, h⟩
    exact ⟨tx, h.txn, h.clean⟩
  · rintro s ch ⟨⟩ s' hi ⟨tx, h⟩ hf
    obtain ⟨⟨b, db⟩, hins, hf⟩ := Option.bind_eq_some_iff.mp hf
    cases b with
    | false => cases hf
    | true =>
      cases hf
      let row : OutboxRow :=
        ⟨⟨ch.fresh, orderExchange, routingKey, payload, ch.correlationId⟩, ch.now, none⟩
      obtain ⟨hq, hinv, tx', htx', ha'⟩ := inv_insert hi h.txn (show row.publishedAt = none from rfl) hins
      refine ⟨hinv, hq.moves, tx', htx', ha'.trans h.clean, .nil, nofun, nofun, ?_⟩
      intro p hp hd
      rw [hq.current] at hd
      exact h.noted p (hq.delivered ▸ hp) hd

theorem hoare_enqueueAll (events : List (RoutingKey × OrderEvent)) :
    Hoare relayLogic t k (Draining t [] []) (enqueueAll events)
      (fun _ => Draining t [] []) fun _ => Failed t := by
  induction events with
  | nil => exact hoare_pure fun _ h => h
  | cons e es ih =>
    apply hoare_bind (hoare_enqueue e.1 e.2)
    intro _
    exact ih

theorem hoare_business (events : List (RoutingKey × OrderEvent)) (throws : Bool) :
    Hoare relayLogic t k (Idle t) (business events throws) (fun _ => Idle t) fun _ => Idle t := by
  apply hoare_transaction
  apply hoare_bind (hoare_pre (fun _ h => h.draining) (hoare_enqueueAll events))
  intro _
  apply hoare_ite
  · intro _
    exact hoare_throw fun s ⟨tx, h⟩ => .of_open h.txn
  · intro _
    exact hoare_pure fun s h => h.ready

/-! ### The drain -/

/-- The rows of a batch are committed, unpublished and all different. -/
theorem mem_nextBatch {row : OutboxRow} (hi : Inv s) (ho : Opened t s) (h : row ∈ nextBatch s t) :
    s.row row.message.id = some row ∧ row.publishedAt = none := by
  have hmem := (List.mem_insertionSort _).mp (List.mem_of_mem_take h)
  obtain ⟨⟨id, row'⟩, hu, rfl⟩ := List.mem_map.mp hmem
  obtain ⟨hv, hp, -⟩ := Store.mem_unlocked hu
  rw [Store.view_txn ho.txn, Option.getD_none] at hv
  have hid : row'.message.id = id := hi.keyed id row' hv
  simp only [hid]
  exact ⟨hv, Option.isNone_iff_eq_none.mp hp⟩

theorem nextBatch_nodup (hi : Inv s) (ho : Opened t s) :
    ((nextBatch s t).map (·.message.id)).Nodup := by
  let found := s.db.unlocked t fun _ (row : OutboxRow) => row.publishedAt.isNone
  have hkeys : (found.map Sigma.fst).Nodup := Store.unlocked_nodup ..
  have hids : (found.map Sigma.snd).map (·.message.id) = found.map Sigma.fst := by
    rw [List.map_map]
    apply List.map_congr_left
    rintro ⟨id, row⟩ hm
    obtain ⟨hv, -⟩ := Store.mem_unlocked hm
    rw [Store.view_txn ho.txn, Option.getD_none] at hv
    exact hi.keyed id row hv
  have hperm := (List.perm_insertionSort (fun a b : OutboxRow => a.createdAt ≤ b.createdAt)
    (found.map Sigma.snd)).map (·.message.id)
  have hsorted := hperm.nodup_iff.mpr (hids ▸ hkeys)
  exact ((List.take_sublist _ _).map _).nodup hsorted

theorem hoare_claimBatch :
    Hoare relayLogic t k (Opened t) claimBatch (fun batch => Draining t batch [])
      fun _ => Failed t := by
  apply hoare_sql opened_stable
  · intro s h
    exact ⟨_, h.txn, rfl⟩
  · intro s ch batch s' hi h hf
    obtain ⟨db, hu, he⟩ := Option.map_eq_some_iff.mp hf
    cases he
    have hnd := nextBatch_nodup hi h
    obtain ⟨tx, hb⟩ := Store.updateAll_batched hnd h.txn hu
    have hq := quietly_batched h.txn hb
    -- a row of the batch is seen as it is committed
    have hview (row : OutboxRow) (hm : row ∈ nextBatch s t) :
        s.db.view t row.message.id = some row := by
      rw [Store.view_txn h.txn, Option.getD_none]
      exact (mem_nextBatch hi h hm).1
    refine ⟨inv_batched hi h.txn hb ?_, hq.moves, tx, hb.txn, hb.aborted, hnd, ?_, nofun, ?_⟩
    · intro id hid row hv
      rw [Store.view_txn h.txn, Option.getD_none] at hv
      obtain ⟨row', hm, rfl⟩ := List.mem_map.mp hid
      obtain ⟨hr, hn⟩ := mem_nextBatch hi h hm
      obtain rfl : row' = row := Option.some.inj (hr.symm.trans hv)
      refine ⟨rfl, ?_, fun hne => absurd hn hne⟩
      intro old hold
      obtain rfl : row' = old := Option.some.inj (hr.symm.trans hold)
      exact ⟨hn, rfl⟩
    · intro row hm
      obtain ⟨hr, hn⟩ := mem_nextBatch hi h hm
      refine ⟨?_, hq.row ▸ hr, hn⟩
      rw [hb.wrote _ (List.mem_map_of_mem hm), hview row hm]
    · intro p hp hd
      rw [hq.current] at hd
      exact absurd hd (h.unsent p (List.mem_filter.mp hp).1)

theorem hoare_publish (row : OutboxRow) (batch : List OutboxRow) (published : List Uuid) :
    Hoare relayLogic t k (Draining t (row :: batch) published) (publish row)
      (fun _ => Draining t batch (published ++ [row.message.id]))
      fun _ => Draining t batch published := by
  apply hoare_stmt draining_stable
  rintro s ch r s' hi - ⟨tx, h⟩ hf
  cases hf
  obtain ⟨hw, hr, hn⟩ := h.waiting row List.mem_cons_self
  obtain ⟨hfresh, hrest⟩ := List.nodup_cons.mp (List.perm_middle.nodup_iff.mp h.nodup)
  change row.message.id ∉ _ at hfresh
  have hnew (p : Publication) (hp : p ∈ s.delivered) (hd : p.drain = s.current t) :
      p.message.id ≠ row.message.id := by
    intro he
    apply hfresh
    rw [← he]
    exact List.mem_append_left _ (h.noted p hp hd)
  refine ⟨inv_publish (!ch.fail) hi h.txn (by simp [hw]) hr hn hnew, moves_publish _ rfl, ?_⟩
  have hwaiting : ∀ r ∈ batch, tx.writes r.message.id = some (some r) ∧
      s.row r.message.id = some r ∧ r.publishedAt = none :=
    fun r hm => h.waiting r (List.mem_cons_of_mem _ hm)
  cases hfail : ch.fail with
  | true =>
    refine ⟨tx, h.txn, h.clean, hrest, hwaiting, ?_, ?_⟩
    · intro id hid
      obtain ⟨row', hw', he, hr', hn', hs⟩ := h.sent id hid
      exact ⟨row', hw', he, hr', hn', List.mem_append_left _ hs⟩
    · intro p hp hd
      refine h.noted p ?_ hd
      simpa [Relay.delivered] using hp
  | false =>
    refine ⟨tx, h.txn, h.clean, ?_, hwaiting, ?_, ?_⟩
    · simpa using h.nodup
    · intro id hid
      rcases List.mem_append.mp hid with hid | hid
      · obtain ⟨row', hw', he, hr', hn', hs⟩ := h.sent id hid
        exact ⟨row', hw', he, hr', hn', List.mem_append_left _ hs⟩
      · cases List.mem_singleton.mp hid
        exact ⟨row, hw, rfl, hr, hn, List.mem_append_right _ (List.mem_singleton.mpr rfl)⟩
    · intro p hp hd
      have hp' : p ∈ s.delivered ++ [⟨s.current t, row.message, true⟩] := by
        simpa [Relay.delivered] using hp
      rcases List.mem_append.mp hp' with hp | hp
      · exact List.mem_append_left _ (h.noted p hp hd)
      · cases List.mem_singleton.mp hp
        exact List.mem_append_right _ (List.mem_singleton.mpr rfl)

/-- By induction on the batch: what is left to publish shrinks, what was published grows. -/
theorem hoare_publishBatch (batch : List OutboxRow) (published : List Uuid) :
    Hoare relayLogic t k (Draining t batch published) (publishBatch batch published)
      (fun sent => Draining t [] sent) fun _ => Failed t := by
  induction batch generalizing published with
  | nil => exact hoare_pure fun _ h => h
  | cons row batch ih =>
    apply hoare_bind (Q := fun sent => Draining t batch sent)
    · apply hoare_tryCatch (E := fun _ => Draining t batch published)
      · apply hoare_bind (hoare_publish row batch published)
        intro _
        exact hoare_pure fun _ h => h
      · intro _
        exact hoare_pure fun _ h => h
    · intro sent
      exact ih sent

theorem hoare_markPublished (published : List Uuid) :
    Hoare relayLogic t k (Draining t [] published) (markPublished published) (fun _ => Ready t)
      fun _ => Failed t := by
  apply hoare_sql draining_stable
  · rintro s ⟨tx, h⟩
    exact ⟨tx, h.txn, h.clean⟩
  · rintro s ch ⟨⟩ s' hi ⟨tx, h⟩ hf
    obtain ⟨db, hu, he⟩ := Option.map_eq_some_iff.mp hf
    cases he
    have hnd : published.Nodup := by simpa using h.nodup
    obtain ⟨tx', hb⟩ := Store.updateAll_batched hnd h.txn hu
    have hq := quietly_batched h.txn hb
    refine ⟨inv_batched hi h.txn hb ?_, hq.moves, tx', hb.txn, hb.aborted.trans h.clean, ?_⟩
    · intro id hid row hv
      obtain ⟨row', hw, he, hr, hn, hs⟩ := h.sent id hid
      rw [Store.view_txn h.txn, hw, Option.getD_some] at hv
      cases hv
      refine ⟨he, ?_, fun _ => hs⟩
      intro old hold
      obtain rfl : row = old := Option.some.inj (hr.symm.trans hold)
      exact ⟨hn, rfl⟩
    · intro p hp hd
      rw [hq.current] at hd
      have hid := h.noted p (hq.delivered ▸ hp) hd
      obtain ⟨row, hw, -⟩ := h.sent _ hid
      refine ⟨{ row with publishedAt := some ch.now }, ?_, Option.some_ne_none _⟩
      rw [hb.wrote _ hid, Store.view_txn h.txn, hw, Option.getD_some]

theorem hoare_drainOnce :
    Hoare relayLogic t k (Idle t) drainOnce (fun _ => Idle t) fun _ => Idle t := by
  apply hoare_bind (Q := fun _ => Idle t)
  · apply hoare_transaction
    apply hoare_bind hoare_claimBatch
    intro batch
    apply hoare_bind (hoare_publishBatch batch [])
    intro published
    apply hoare_bind (Q := fun _ => Ready t)
    · apply hoare_ite
      · intro _
        exact hoare_markPublished published
      · intro hn
        have he : published = [] := List.length_eq_zero_iff.mp (Nat.eq_zero_of_not_pos hn)
        exact hoare_pure fun s h => Draining.ready (he ▸ h)
    · intro _
      exact hoare_pure fun _ h => h
  · intro relayed
    apply hoare_bind (Q := fun _ => Idle t)
    · apply hoare_ite
      · intro _
        apply hoare_stmt idle_stable
        intro s ch r s' hi _ hp hf
        cases hf
        refine ⟨⟨hi.keyed, hi.sent, hi.drains, hi.marked, hi.ended, hi.pending, hi.settled, hi.once⟩,
          ⟨.refl, fun _ _ => rfl, ⟨[], by simp⟩, .of_same rfl⟩, hp.txn, hp.unsent⟩
      · intro _
        exact hoare_pure fun _ h => h
    · intro _
      exact hoare_pure fun _ h => h

theorem hoare_relay (ticks : Nat) :
    Hoare relayLogic t k (Idle t) (relay ticks) (fun _ => Idle t) fun _ => Idle t := by
  have hloop : Hoare relayLogic t k (Idle t) (drainLoop ticks) (fun _ => Idle t)
      fun _ => Idle t := by
    induction ticks with
    | zero => exact hoare_pure fun _ h => h
    | succ ticks ih =>
      apply hoare_bind hoare_drainOnce
      intro claimed
      apply hoare_ite
      · intro _
        exact ih
      · intro _
        exact hoare_pure fun _ h => h
  apply hoare_tryCatch hloop
  intro _
  exact hoare_pure fun _ h => h

/-! ### Runs -/

theorem relay_verified :
    Verified relaySystem relayLogic Idle fun _ _ _ _ => True where
  idle_stable _ := idle_stable
  post_stable _ _ _ := .true
  body t k s _ hs _ := by
    cases k with
    | business events throws => exact wp_mono (fun _ _ _ => trivial) (hoare_business events throws s hs)
    | relay ticks => exact wp_mono (fun _ _ _ => trivial) (hoare_relay ticks s hs)
  env e := e.elim
  crash t k s hi := rollback_step hi

theorem inv_empty : Inv .empty where
  keyed _ _ h := nomatch h
  sent _ h := nomatch h
  drains _ h := nomatch h
  marked _ _ h := nomatch h
  ended _ _ h := nomatch h
  pending _ _ h := nomatch h
  settled _ _ h := nomatch h
  once _ := .nil

theorem relay_sound {ls : List (Label Choice RelayCall Empty)}
    {c : Config Relay Choice RelayCall (Except RelayError Unit)}
    (hr : relaySystem.run (.init .empty) ls = some c) :
    Sound relayLogic Idle (fun _ _ _ _ => True) c := by
  refine Sound.run relay_verified (fun l _ => ?_) hr (.init inv_empty fun t => ⟨rfl, nofun⟩)
  cases l <;> trivial

theorem rowStep_of_next {c c' : Config Relay Choice RelayCall (Except RelayError Unit)}
    {l : Label Choice RelayCall Empty} (hs : Sound relayLogic Idle (fun _ _ _ _ => True) c)
    (hn : relaySystem.next c l = some c') : RowStep c.shared c'.shared := by
  obtain ⟨-, hm⟩ := hs.next relay_verified (l := l) (by cases l <;> trivial) hn
  rcases hm.cases with he | hf | ⟨t, k, th, -, -, hg⟩
  · exact .of_same (congrArg Relay.row he)
  · exact hf.elim
  · exact hg.rows

/-- A committed row stays, and so does its mark. -/
theorem row_kept {c c' : Config Relay Choice RelayCall (Except RelayError Unit)}
    {ls : List (Label Choice RelayCall Empty)}
    (hs : Sound relayLogic Idle (fun _ _ _ _ => True) c)
    (hr : relaySystem.run c ls = some c') {id : Uuid} {row : OutboxRow}
    (hrow : c.shared.row id = some row) : ∃ row', c'.shared.row id = some row' ∧
      row'.message = row.message ∧ (row.publishedAt ≠ none → row'.publishedAt = row.publishedAt) := by
  induction ls generalizing c row with
  | nil =>
    cases hr
    exact ⟨row, hrow, rfl, fun _ => rfl⟩
  | cons l ls ih =>
    obtain ⟨d, hd, hr⟩ := relaySystem.run_cons.mp hr
    obtain ⟨row₁, hrow₁, hm₁, hp₁, -⟩ := (rowStep_of_next hs hd).kept id row hrow
    have hs₁ := (hs.next relay_verified (l := l) (by cases l <;> trivial) hd).1
    obtain ⟨row', hrow', hm', hp'⟩ := ih hs₁ hr hrow₁
    refine ⟨row', hrow', hm'.trans hm₁, fun hne => ?_⟩
    have he := hp₁ hne
    exact (hp' (he ▸ hne)).trans he

/-- Whatever the relay instances and the business transactions do: only committed rows are
published, with what they say; a row is marked by a drain that commits and has published it, and
stays marked; and while no drain aborts after a publish, no row is published twice. -/
theorem outbox_delivery {ls : List (Label Choice RelayCall Empty)}
    {c : Config Relay Choice RelayCall (Except RelayError Unit)}
    (hr : relaySystem.run (.init .empty) ls = some c) :
    (∀ p ∈ c.shared.sent, ∃ row, c.shared.row p.message.id = some row ∧ row.message = p.message) ∧
    (∀ id row, c.shared.row id = some row → row.publishedAt ≠ none →
      ∃ d, (d, true) ∈ c.shared.ended ∧ ⟨d, row.message, true⟩ ∈ c.shared.sent) ∧
    (∀ l c', relaySystem.next c l = some c' → RowStep c.shared c'.shared) ∧
    (∀ ls' c', relaySystem.run c ls' = some c' → ∀ id row, c.shared.row id = some row →
      ∃ row', c'.shared.row id = some row' ∧ row'.message = row.message ∧
        (row.publishedAt ≠ none → row'.publishedAt = row.publishedAt)) ∧
    (c.shared.Quiet → (c.shared.delivered.map (·.message.id)).Nodup) := by
  have hs := relay_sound hr
  refine ⟨hs.inv.sent, hs.inv.marked, ?_, ?_, hs.inv.once⟩
  · intro l c' hn
    exact rowStep_of_next hs hn
  · intro ls' c' hr' id row hrow
    exact row_kept hs hr' hrow

/-! ### Two relays at once -/

instance (s : Relay) : Decidable s.Quiet :=
  inferInstanceAs (Decidable (∀ p ∈ s.sent, p.ok = true → (p.drain, false) ∉ s.ended))

/-- Calls 0 and 1 write events, and call 1 throws. Relay 2 holds the rows while relay 3 drains
nothing; its publish of row 1 fails and relay 4 sends it. -/
def twoRelays : List (Label Choice RelayCall Empty) :=
  [.start 0 (.business [(.completed, .completed ⟨7, 1⟩), (.completed, .completed ⟨8, 1⟩)] false),
    .step 0 {}, .step 0 { fresh := 1 }, .step 0 { fresh := 2, now := 5 },
    .start 1 (.business [(.completed, .completed ⟨9, 1⟩)] true), .step 1 {},
    .step 1 { fresh := 3 }, .step 0 {}, .start 2 (.relay 1), .step 2 {}, .step 2 {},
    .start 3 (.relay 1), .step 3 {}, .step 3 {}, .step 1 {}, .step 2 { fail := true },
    .step 2 {}, .step 3 {}, .step 2 {}, .step 2 {}, .start 4 (.relay 1)] ++
  List.replicate 5 (.step 4 {})

theorem outbox_delivery_two_relays : ∃ c, relaySystem.run (.init .empty) twoRelays = some c ∧
    c.shared.delivered.map (·.message.id) = [2, 1] ∧
    (c.shared.delivered.map (·.message.id)).Nodup := by
  have hout : (relaySystem.run (.init .empty) twoRelays).map (fun c =>
      (decide c.shared.Quiet, c.shared.delivered.map (·.message.id))) = some (true, [2, 1]) := by
    decide +kernel
  obtain ⟨c, hc, hout⟩ := Option.map_eq_some_iff.mp hout
  obtain ⟨hquiet, hids⟩ := Prod.mk.inj hout
  obtain ⟨-, -, -, -, honce⟩ := outbox_delivery hc
  exact ⟨c, hc, hids, honce (of_decide_eq_true hquiet)⟩

end OrderLifecycle.Outbox

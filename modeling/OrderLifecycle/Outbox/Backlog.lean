import OrderLifecycle.Framework.RetryQueue
import OrderLifecycle.Framework.Solo
import OrderLifecycle.Outbox.Relay

open Framework

namespace OrderLifecycle.Outbox

/-- The rows that are still to be published. -/
def Relay.unpublished (s : Relay) : List OutboxRow :=
  s.db.keys.filterMap fun id => (s.db.rows id).filter fun row => row.publishedAt.isNone

/-- The batch out of them: the oldest ones. -/
def oldest (rows : List OutboxRow) : List OutboxRow :=
  (rows.insertionSort fun a b => a.createdAt ≤ b.createdAt).take relayBatchSize

/-- Nobody has a transaction open. -/
structure AtRest (s : Relay) : Prop where
  idle : ∀ t, s.db.txns t = none
  keyed : ∀ id row, s.db.rows id = some row → row.message.id = id

/-- What `UPDATE … SET "publishedAt"` makes of a row. -/
def mark (published : List Uuid) (now : Nat) (id : Uuid) (row : OutboxRow) : OutboxRow :=
  if id ∈ published then { row with publishedAt := some now } else row

/-- The ids that `drainOnce` collects. -/
def succeeded (ps : List Publication) : List Uuid := (ps.filter (·.ok)).map (·.message.id)

/-- What one `drainOnce` did: it tried the oldest rows with the outcomes `ps`. -/
structure Drained (s₀ : Relay) (ps : List Publication) (s : Relay) : Prop where
  rest : AtRest s
  keys : s.db.keys = s₀.db.keys
  sent : s.sent = s₀.sent ++ ps
  tried : ps.map (·.message) = (oldest s₀.unpublished).map (·.message)
  rows : ∃ now, ∀ id, s.db.rows id = (s₀.db.rows id).map (mark (succeeded ps) now id)

/-- `t` alone is in the middle of a drain; `view` are the rows it sees. -/
structure Working (t : Tid) (s₀ : Relay) (ps : List Publication) (view : Uuid → Option OutboxRow)
    (s : Relay) : Prop where
  txn : ∃ tx, s.db.txns t = some tx ∧ tx.aborted = false
  alone : ∀ t', t' ≠ t → s.db.txns t' = none
  view : s.db.view t = view
  keys : s.db.keys = s₀.db.keys
  sent : s.sent = s₀.sent ++ ps

variable {s₀ : Relay} {t : Tid} {ch : Nat → Choice} {D : Nat → Relay → Prop} {i : Nat}
  {ps : List Publication} {view : Uuid → Option OutboxRow} {α : Type}

theorem Working.clean {s : Relay} (h : Working t s₀ ps view s) : s.db.aborted t = false := by
  obtain ⟨tx, htx, ha⟩ := h.txn
  simp [Store.aborted, htx, ha]

theorem Working.free {s : Relay} (h : Working t s₀ ps view s) (id : Uuid) : s.db.Free t id :=
  Store.free_of_others h.alone id

/-- A statement that others can hold up, here alone. -/
theorem solo_sql {Q : α → Nat → Relay → Prop} {f : Tid → Choice → Relay → Option (α × Relay)}
    (h : ∀ s, Working t s₀ ps view s → ∃ a s', f t (ch i) s = some (a, s') ∧ Q a (i + 1) s') :
    Solo t ch none D i (Working t s₀ ps view) (sql f) Q fun _ _ _ => (ch i).fail = true := by
  apply solo_stmt
  · intro s _ hd
    cases hd
  · intro s hs
    by_cases hf : (ch i).fail = true
    · exact ⟨.error .database, { s with db := s.db.abort t }, by simp [hs.clean, hf], hf⟩
    · obtain ⟨a, s', hr, hq⟩ := h s hs
      exact ⟨.ok a, s', by simp [hs.clean, hf, hr], hq⟩

theorem solo_startTransaction (h₀ : AtRest s₀) :
    Solo t ch none D i (fun s => s = s₀) startTransaction
      (fun _ j s => j = i + 1 ∧ Working t s₀ [] s₀.db.rows s) fun _ _ _ => (ch i).fail = true := by
  apply solo_stmt
  · intro s _ hd
    cases hd
  · rintro s rfl
    by_cases hf : (ch i).fail = true
    · exact ⟨.error .database, s, by simp [hf], hf⟩
    · have htx := Store.begin_txn (h₀.idle t)
      refine ⟨.ok (), { s with db := s.db.begin t }, by simp [hf], rfl, ?_⟩
      refine ⟨⟨_, htx, rfl⟩, ?_, ?_, Store.begin_keys, (List.append_nil _).symm⟩
      · intro t' ht'
        exact (Store.begin_frame.txns t' ht').trans (h₀.idle t')
      · funext id
        rw [Store.view_txn htx]
        exact congrFun Store.begin_same.1 id

theorem solo_commitTransaction :
    Solo t ch none D i (Working t s₀ ps view) commitTransaction
      (fun _ j s => j = i + 1 ∧ (∀ t', s.db.txns t' = none) ∧ s.db.rows = view ∧
        s.db.keys = s₀.db.keys ∧ s.sent = s₀.sent ++ ps) fun _ _ _ => (ch i).fail = true := by
  apply solo_stmt
  · intro s _ hd
    cases hd
  · intro s hs
    by_cases hf : (ch i).fail = true
    · exact ⟨.error .database, s.rollback t, by simp [hf], hf⟩
    · obtain ⟨tx, htx, ha⟩ := hs.txn
      refine ⟨.ok (), s.commit t, by simp [hf], rfl, ?_⟩
      simp only [Relay.commit, Relay.close, htx]
      refine ⟨?_, (Store.commit_view htx ha).trans hs.view, Store.commit_keys.trans hs.keys, hs.sent⟩
      intro t'
      by_cases e : t' = t
      · subst e
        exact Store.commit_txn
      · exact (Store.commit_frame.txns t' e).trans (hs.alone t' e)

theorem solo_rollbackTransaction {B : Prop} :
    Solo t ch none D i (fun _ => B) rollbackTransaction (fun _ _ _ => B) fun _ _ _ => B := by
  apply solo_stmt
  · intro s _ hd
    cases hd
  · intro s hB
    exact ⟨.ok (), s.rollback t, rfl, hB⟩

/-- What the batch is, in the transaction of the drain. -/
theorem Working.nextBatch {s : Relay} (h : Working t s₀ ps s₀.db.rows s) :
    nextBatch s t = oldest s₀.unpublished := by
  have hfound : (s.db.unlocked t fun _ row => row.publishedAt.isNone).map Sigma.snd =
      s₀.unpublished := by
    simp only [Store.unlocked, Store.select, List.map_filterMap, Relay.unpublished, h.keys, h.view]
    apply List.filterMap_congr
    intro id _
    cases s₀.db.rows id with
    | none => rfl
    | some row => cases hp : row.publishedAt <;> simp [hp, h.free id, Option.filter]
  simp only [Outbox.nextBatch, oldest, hfound]

theorem AtRest.ids {s : Relay} (h : AtRest s) :
    (s.unpublished.map (·.message.id)).Sublist s.db.keys := by
  unfold Relay.unpublished
  induction s.db.keys with
  | nil => exact .slnil
  | cons id ids ih =>
    rw [List.filterMap_cons]
    split
    · exact ih.cons id
    · next row hrow =>
      have hid := h.keyed id row (Option.filter_eq_some_iff.mp hrow).1
      rw [List.map_cons, hid]
      exact ih.cons_cons id

theorem oldest_perm (rows : List OutboxRow) : (oldest rows).Subperm rows :=
  (List.take_sublist _ _).subperm.trans (List.perm_insertionSort _ rows).subperm

theorem AtRest.nodup {s : Relay} (h : AtRest s) :
    ((oldest s.unpublished).map (·.message.id)).Nodup := by
  obtain ⟨rows, hp, hs⟩ := oldest_perm s.unpublished
  have hsub := (hs.map (·.message.id)).trans h.ids
  exact (hp.map _).nodup_iff.mp (hsub.nodup s.db.nodup)

theorem solo_claimBatch (h₀ : AtRest s₀) :
    Solo t ch none D i (Working t s₀ [] s₀.db.rows) claimBatch
      (fun batch j s => (j = i + 1 ∧ batch = oldest s₀.unpublished) ∧
        Working t s₀ [] s₀.db.rows s) fun _ _ _ => (ch i).fail = true := by
  apply solo_sql
  intro s hs
  have hfree : ∀ id ∈ (nextBatch s t).map (·.message.id), s.db.Free t id := fun id _ => hs.free id
  obtain ⟨db, hdb⟩ := Store.updateAll_free (f := fun _ row => row) hfree
  refine ⟨nextBatch s t, { s with db := db }, by simp [hdb], ⟨rfl, hs.nextBatch⟩, ?_⟩
  have hnodup : ((nextBatch s t).map (·.message.id)).Nodup := by
    rw [hs.nextBatch]
    exact h₀.nodup
  obtain ⟨tx, htx, ha⟩ := hs.txn
  obtain ⟨tx', hb⟩ := Store.updateAll_batched hnodup htx hdb
  refine ⟨⟨tx', hb.txn, hb.aborted.trans ha⟩, ?_, ?_, (Store.updateAll_keys hdb).trans hs.keys,
    hs.sent⟩
  · intro t' ht'
    exact (hb.frame.txns t' ht').trans (hs.alone t' ht')
  · funext id
    rw [Store.updateAll_view hnodup hdb, Option.map_id', ite_self, hs.view]

theorem solo_markPublished {published : List Uuid} (hp : published.Nodup) :
    Solo t ch none D i (Working t s₀ ps s₀.db.rows) (markPublished published)
      (fun _ j s => j = i + 1 ∧ ∃ now,
        Working t s₀ ps (fun id => (s₀.db.rows id).map (mark published now id)) s)
      fun _ _ _ => (ch i).fail = true := by
  apply solo_sql
  intro s hs
  have hfree : ∀ id ∈ published, s.db.Free t id := fun id _ => hs.free id
  obtain ⟨db, hdb⟩ := Store.updateAll_free
    (f := fun _ row => { row with publishedAt := some (ch i).now }) hfree
  refine ⟨(), { s with db := db }, by simp [hdb], rfl, (ch i).now, ?_⟩
  obtain ⟨tx, htx, ha⟩ := hs.txn
  obtain ⟨tx', hb⟩ := Store.updateAll_batched hp htx hdb
  refine ⟨⟨tx', hb.txn, hb.aborted.trans ha⟩, ?_, ?_, (Store.updateAll_keys hdb).trans hs.keys,
    hs.sent⟩
  · intro t' ht'
    exact (hb.frame.txns t' ht').trans (hs.alone t' ht')
  · funext id
    rw [Store.updateAll_view hp hdb, hs.view]
    by_cases hm : id ∈ published
    · cases s₀.db.rows id <;> simp [hm, mark]
    · cases s₀.db.rows id <;> simp [hm, mark]

/-- The outcomes of a batch whose publishing starts with statement `i`. -/
structure Tried (ch : Nat → Choice) (i : Nat) (batch : List OutboxRow) (ps : List Publication) :
    Prop where
  messages : ps.map (·.message) = batch.map (·.message)
  outcomes : ∀ p ∈ ps, ∃ l, i ≤ l ∧ l < i + batch.length ∧ p.ok = !(ch l).fail

theorem solo_publish (row : OutboxRow) :
    Solo t ch none D i (Working t s₀ ps view) (publish row)
      (fun _ j s => j = i + 1 ∧ ∃ d, (ch i).fail = false ∧
        Working t s₀ (ps ++ [⟨d, row.message, true⟩]) view s)
      fun _ j s => j = i + 1 ∧ ∃ d, (ch i).fail = true ∧
        Working t s₀ (ps ++ [⟨d, row.message, false⟩]) view s := by
  apply solo_stmt
  · intro s _ hd
    cases hd
  · intro s hs
    have hsent (ok : Bool) : Working t s₀ (ps ++ [⟨s.current t, row.message, ok⟩]) view
        { s with sent := s.sent ++ [⟨s.current t, row.message, ok⟩] } := by
      refine ⟨hs.txn, hs.alone, hs.view, hs.keys, ?_⟩
      rw [hs.sent, List.append_assoc]
    by_cases hf : (ch i).fail = true
    · refine ⟨.error .broker, _, by simp [hf], rfl, s.current t, hf, hsent false⟩
    · have hf := Bool.eq_false_iff.mpr hf
      refine ⟨.ok (), _, by simp [hf], rfl, s.current t, hf, hsent true⟩

theorem Tried.cons {row : OutboxRow} {batch : List OutboxRow} {d : TxnId} {ok : Bool}
    (hok : ok = !(ch i).fail) (h : Tried ch (i + 1) batch ps) :
    Tried ch i (row :: batch) (⟨d, row.message, ok⟩ :: ps) where
  messages := by simp [h.messages]
  outcomes := by
    intro p hp
    rw [List.length_cons]
    rcases List.mem_cons.mp hp with rfl | hp
    · exact ⟨i, Nat.le_refl i, by omega, hok⟩
    · obtain ⟨l, hl, hl', he⟩ := h.outcomes p hp
      exact ⟨l, by omega, by omega, he⟩

theorem solo_publishBatch (batch : List OutboxRow) (published : List Uuid) :
    Solo t ch none D i (Working t s₀ ps view) (publishBatch batch published)
      (fun published' j s => j = i + batch.length ∧ ∃ new, published' = published ++ succeeded new ∧
        Tried ch i batch new ∧ Working t s₀ (ps ++ new) view s) fun _ _ _ => False := by
  induction batch generalizing published i ps with
  | nil =>
    apply solo_pure
    intro s hs
    refine ⟨rfl, [], (List.append_nil _).symm, ⟨rfl, nofun⟩, ?_⟩
    rwa [List.append_nil]
  | cons row batch ih =>
    apply solo_bind (Q := fun published' j s => j = i + 1 ∧ ∃ d ok, ok = !(ch i).fail ∧
      published' = published ++ (if ok = true then [row.message.id] else []) ∧
      Working t s₀ (ps ++ [⟨d, row.message, ok⟩]) view s)
    · apply solo_tryCatch
      · apply solo_bind (solo_publish row)
        intro _ j _
        apply solo_pure
        intro s ⟨hj, d, hf, hs⟩
        exact ⟨hj, d, true, by simp [hf], rfl, hs⟩
      · intro _ j _
        apply solo_pure
        intro s ⟨hj, d, hf, hs⟩
        exact ⟨hj, d, false, by simp [hf], (List.append_nil _).symm, hs⟩
    · intro published' j _
      apply solo_fact
      rintro rfl
      apply solo_exists
      intro d
      apply solo_exists
      intro ok
      apply solo_fact
      intro hok
      apply solo_fact
      rintro rfl
      apply solo_conseq (ih _) (fun _ hs => hs) ?_ (fun _ _ _ _ hs => hs) (fun _ _ _ _ hs => hs)
      rintro published'' j s - ⟨rfl, new, rfl, htried, hs⟩
      refine ⟨?_, ⟨d, row.message, ok⟩ :: new, ?_, htried.cons hok, ?_⟩
      · rw [List.length_cons]
        omega
      · cases ok <;> simp [succeeded]
      · rwa [List.append_assoc] at hs

/-- A statement of the database fails that belongs to the drain from statement `i` on. -/
def DatabaseError (ch : Nat → Choice) (i claimed : Nat) : Prop :=
  ∃ l, (ch l).fail = true ∧ (l = i ∨ l = i + 1 ∨ i + 2 + claimed ≤ l ∧ l ≤ i + 3 + claimed)

theorem Tried.nodup (h₀ : AtRest s₀) (h : Tried ch i (oldest s₀.unpublished) ps) :
    (succeeded ps).Nodup := by
  have hids : ps.map (·.message.id) = (oldest s₀.unpublished).map (·.message.id) := by
    have hmessages := congrArg (List.map (·.id)) h.messages
    simpa only [List.map_map, Function.comp_def] using hmessages
  have hsub : (succeeded ps).Sublist (ps.map (·.message.id)) := (List.filter_sublist).map _
  exact hsub.nodup (hids ▸ h₀.nodup)

theorem solo_transaction {work : RelayAction α} {B : Prop}
    {F : α → Nat → List Publication → (Uuid → Option OutboxRow) → Prop} (h₀ : AtRest s₀)
    (hbegin : (ch i).fail = true → B)
    (hwork : Solo t ch none D (i + 1) (Working t s₀ [] s₀.db.rows) work
      (fun r j s => ∃ ps view, F r j ps view ∧ Working t s₀ ps view s) fun _ _ _ => B)
    (hcommit : ∀ r j ps view, F r j ps view → (ch j).fail = true → B) :
    Solo t ch none D i (fun s => s = s₀) (transaction work)
      (fun r j s => ∃ j' ps view, F r j' ps view ∧ j = j' + 1 ∧ (∀ t', s.db.txns t' = none) ∧
        s.db.rows = view ∧ s.db.keys = s₀.db.keys ∧ s.sent = s₀.sent ++ ps) fun _ _ _ => B := by
  apply solo_tryCatch (E := fun _ _ _ => B)
  · apply solo_bind
    · apply solo_conseq (solo_startTransaction h₀) (fun _ hs => hs) (fun _ _ _ _ hs => hs) ?_
        (fun _ _ _ _ hs => hs)
      intro _ _ _ _ hf
      exact hbegin hf
    · intro _ j _
      apply solo_fact
      rintro rfl
      apply solo_bind hwork
      intro r j _
      apply solo_exists
      intro ps
      apply solo_exists
      intro view
      apply solo_fact
      intro hF
      apply solo_bind
      · apply solo_conseq solo_commitTransaction (fun _ hs => hs) (fun _ _ _ _ hs => hs) ?_
          (fun _ _ _ _ hs => hs)
        intro _ _ _ _ hf
        exact hcommit r j ps view hF hf
      · intro _ j' _
        apply solo_pure
        intro s hs
        exact ⟨j, ps, view, hF, hs⟩
  · intro err j _
    apply solo_bind solo_rollbackTransaction
    intro _ j' _
    apply solo_throw
    intro s hB
    exact hB

theorem mark_nil (now : Nat) (id : Uuid) : mark [] now id = fun row => row :=
  funext fun _ => if_neg List.not_mem_nil

/-- From a table at rest `drainOnce` tries the oldest rows and marks those it could publish. -/
theorem solo_drainOnce (h₀ : AtRest s₀) :
    Solo t ch none D i (fun s => s = s₀) drainOnce
      (fun claimed j s => claimed = (oldest s₀.unpublished).length ∧ ∃ ps, Drained s₀ ps s ∧
        Tried ch (i + 2) (oldest s₀.unpublished) ps ∧ (succeeded ps = [] → j = i + claimed + 3))
      fun _ _ _ => DatabaseError ch i (oldest s₀.unpublished).length := by
  generalize hbatch : oldest s₀.unpublished = batch
  let F (r : Nat × Nat) (j : Nat) (ps : List Publication) (view : Uuid → Option OutboxRow) : Prop :=
    r = ((succeeded ps).length, batch.length) ∧ Tried ch (i + 2) batch ps ∧
      (∃ now, view = fun id => (s₀.db.rows id).map (mark (succeeded ps) now id)) ∧
      i + 2 + batch.length ≤ j ∧ j ≤ i + 3 + batch.length ∧
      (succeeded ps = [] → j = i + 2 + batch.length)
  apply solo_bind
  · apply solo_transaction (F := F) h₀
    · intro hf
      exact ⟨i, hf, .inl rfl⟩
    · apply solo_bind
      · apply solo_conseq (solo_claimBatch h₀) (fun _ hs => hs) (fun _ _ _ _ hs => hs) ?_
          (fun _ _ _ _ hs => hs)
        intro _ _ _ _ hf
        exact ⟨i + 1, hf, .inr (.inl rfl)⟩
      · intro claimed j _
        apply solo_fact
        rintro ⟨rfl, rfl⟩
        rw [hbatch]
        apply solo_bind
        · apply solo_conseq (solo_publishBatch batch []) (fun _ hs => hs) (fun _ _ _ _ hs => hs)
            (fun _ _ _ _ hs => hs.elim) (fun _ _ _ _ hs => hs)
        · intro published j _
          apply solo_fact
          rintro rfl
          apply solo_exists
          intro ps
          apply solo_fact
          rintro rfl
          apply solo_fact
          intro htried
          simp only [List.nil_append]
          apply solo_bind (Q := fun _ j s => (i + 2 + batch.length ≤ j ∧ j ≤ i + 3 + batch.length ∧
            (succeeded ps = [] → j = i + 2 + batch.length)) ∧ ∃ now,
            Working t s₀ ps (fun id => (s₀.db.rows id).map (mark (succeeded ps) now id)) s)
          · apply solo_ite
            · intro hpos
              apply solo_conseq (solo_markPublished (Tried.nodup h₀ (hbatch ▸ htried)))
                (fun _ hs => hs) ?_ ?_
                (fun _ _ _ _ hs => hs)
              · intro _ j s _ ⟨hj, hs⟩
                refine ⟨⟨by omega, by omega, fun hnil => ?_⟩, hs⟩
                simp [hnil] at hpos
              · intro _ _ _ _ hf
                exact ⟨_, hf, .inr (.inr ⟨by omega, by omega⟩)⟩
            · intro hpos
              have hnil : succeeded ps = [] := by simpa using hpos
              apply solo_pure
              intro s hs
              refine ⟨⟨by omega, by omega, fun _ => by omega⟩, 0, ?_⟩
              simpa only [hnil, mark_nil, Option.map_id'] using hs
          · intro _ j _
            apply solo_fact
            intro hj
            apply solo_exists
            intro now
            apply solo_pure
            intro s hs
            exact ⟨ps, _, ⟨rfl, htried, ⟨now, rfl⟩, hj⟩, hs⟩
    · intro r j ps view ⟨_, _, _, hj, hj', _⟩ hf
      exact ⟨j, hf, .inr (.inr ⟨hj, hj'⟩)⟩
  · intro r j _
    apply solo_exists
    intro j'
    apply solo_exists
    intro ps
    apply solo_exists
    intro view
    apply solo_fact
    rintro ⟨rfl, htried, ⟨now, rfl⟩, -, -, hj⟩
    apply solo_fact
    rintro rfl
    have hdrained {s : Relay} (hs : (∀ t', s.db.txns t' = none) ∧ (s.db.rows =
        fun id => (s₀.db.rows id).map (mark (succeeded ps) now id)) ∧ s.db.keys = s₀.db.keys ∧
        s.sent = s₀.sent ++ ps) : Drained s₀ ps s := by
      obtain ⟨hidle, hrows, hkeys, hsent⟩ := hs
      refine ⟨⟨hidle, ?_⟩, hkeys, hsent, hbatch ▸ htried.messages, now, congrFun hrows⟩
      intro id row hrow
      rw [hrows] at hrow
      obtain ⟨old, hold, rfl⟩ := Option.map_eq_some_iff.mp hrow
      have hid := h₀.keyed id old hold
      unfold mark
      split <;> exact hid
    dsimp only
    apply solo_bind (Q := fun _ j s => Drained s₀ ps s ∧
      (succeeded ps = [] → j = i + batch.length + 3))
    · apply solo_ite
      · intro hpos
        apply solo_stmt
        · intro s _ hd
          cases hd
        · intro s hs
          refine ⟨.ok (), _, rfl, ?_, ?_⟩
          · exact hdrained (s := { s with relayed := _ }) hs
          · intro hnil
            simp [hnil] at hpos
      · intro _
        apply solo_pure
        intro s hs
        refine ⟨hdrained hs, fun hnil => ?_⟩
        have := hj hnil
        omega
    · intro _ j _
      apply solo_pure
      intro s ⟨hd, hj⟩
      exact ⟨rfl, ps, hd, htried, hj⟩

end OrderLifecycle.Outbox

import OrderLifecycle.Framework.RelyGuarantee
import OrderLifecycle.Outbox.Relay

open Framework

namespace OrderLifecycle.Outbox

variable {s s' : Relay} {t : Tid}

/-- The row as committed. -/
def Relay.row (s : Relay) (id : Uuid) : Option OutboxRow := s.db.rows id

/-- No drain was aborted after it had published something. -/
def Relay.Quiet (s : Relay) : Prop := ∀ p ∈ s.sent, p.ok = true → (p.drain, false) ∉ s.ended

/-- The successful publications. -/
def Relay.delivered (s : Relay) : List Publication := s.sent.filter fun p => p.ok

/-- The row was published and marked. -/
def Relay.Done (s : Relay) (id : Uuid) : Prop := ∃ row, s.row id = some row ∧ row.publishedAt ≠ none

/-- The drain that published it still runs and holds the row. -/
def Relay.Held (s : Relay) (p : Publication) : Prop :=
  p.drain = s.current p.drain.1 ∧
    ∃ tx, s.db.txns p.drain.1 = some tx ∧ tx.writes p.message.id ≠ none

/-- What an open transaction has written: new rows, or unpublished ones that it may have marked
after publishing them. -/
def Relay.Pending (s : Relay) (t : Tid) (tx : Txn (fun _ : Uuid => OutboxRow) Unit) : Prop :=
  ∀ id v, tx.writes id = some v → ∃ row, v = some row ∧ row.message.id = id ∧
    (∀ old, s.row id = some old → old.publishedAt = none ∧ old.message = row.message) ∧
    (row.publishedAt ≠ none → ⟨s.current t, row.message, true⟩ ∈ s.sent)

structure Inv (s : Relay) : Prop where
  keyed : ∀ id row, s.row id = some row → row.message.id = id
  sent : ∀ p ∈ s.sent, ∃ row, s.row p.message.id = some row ∧ row.message = p.message
  drains : ∀ p ∈ s.sent, p.drain.2 ≤ s.finished p.drain.1
  marked : ∀ id row, s.row id = some row → row.publishedAt ≠ none →
    ∃ d, (d, true) ∈ s.ended ∧ ⟨d, row.message, true⟩ ∈ s.sent
  ended : ∀ d b, (d, b) ∈ s.ended → d.2 < s.finished d.1
  pending : ∀ t tx, s.db.txns t = some tx → s.Pending t tx
  settled : s.Quiet → ∀ p ∈ s.delivered, s.Done p.message.id ∨ s.Held p
  once : s.Quiet → (s.delivered.map (·.message.id)).Nodup

/-- What a committed row may become: published, by the drain that ends in this step. -/
structure RowStep (s s' : Relay) : Prop where
  kept : ∀ id row, s.row id = some row → ∃ row', s'.row id = some row' ∧
    row'.message = row.message ∧ (row.publishedAt ≠ none → row'.publishedAt = row.publishedAt) ∧
    (row.publishedAt = none → row'.publishedAt ≠ none → ∃ d, (d, true) ∈ s'.ended ∧
      (∀ b, (d, b) ∉ s.ended) ∧ ⟨d, row.message, true⟩ ∈ s.sent)
  fresh : ∀ id row, s.row id = none → s'.row id = some row → row.publishedAt = none

/-- One step of thread `t`. -/
structure Moves (t : Tid) (s s' : Relay) : Prop where
  frame : Store.Frame t s.db s'.db
  finished : ∀ t', t' ≠ t → s'.finished t' = s.finished t'
  sent : ∃ ps, s'.sent = s.sent ++ ps ∧ ∀ p ∈ ps, p.drain.1 = t
  rows : RowStep s s'

theorem Moves.current (h : Moves t s s') {t' : Tid} (ht : t' ≠ t) : s'.current t' = s.current t' := by
  simp [Relay.current, h.finished t' ht]

theorem RowStep.of_same (h : s'.row = s.row) : RowStep s s' where
  kept id row hr := ⟨row, h ▸ hr, rfl, fun _ => rfl, fun hn hm => absurd hn hm⟩
  fresh id row hn hr := by
    rw [h, hn] at hr
    cases hr

/-! ### Statements inside a transaction -/

/-- A statement that only writes into the transaction of `t`, or spoils it. -/
structure Quietly (t : Tid) (s s' : Relay) : Prop where
  same : Store.SameCommitted s.db s'.db
  frame : Store.Frame t s.db s'.db
  sent : s'.sent = s.sent
  finished : s'.finished = s.finished
  ended : s'.ended = s.ended
  held : ∀ tx id, s.db.txns t = some tx → tx.writes id ≠ none →
    ∃ tx', s'.db.txns t = some tx' ∧ tx'.writes id ≠ none

namespace Quietly

variable (h : Quietly t s s')

include h

theorem row : s'.row = s.row := funext fun id => congrFun h.same.1 id

theorem current (t' : Tid) : s'.current t' = s.current t' := by
  simp [Relay.current, h.finished]

theorem quiet : s'.Quiet ↔ s.Quiet := by simp [Relay.Quiet, h.sent, h.ended]

theorem delivered : s'.delivered = s.delivered := by simp [Relay.delivered, h.sent]

theorem pending_of {tx : Txn (fun _ : Uuid => OutboxRow) Unit} {t' : Tid} (hp : s.Pending t' tx) :
    s'.Pending t' tx := by
  intro id v hw
  obtain ⟨row, hv, hid, hold, hnew⟩ := hp id v hw
  rw [h.row, h.current, h.sent]
  exact ⟨row, hv, hid, hold, hnew⟩

theorem held_of {p : Publication} (hp : s.Held p) : s'.Held p := by
  obtain ⟨hd, tx, htx, hw⟩ := hp
  refine ⟨hd.trans (h.current _).symm, ?_⟩
  by_cases e : p.drain.1 = t
  · rw [e] at htx ⊢
    exact h.held tx _ htx hw
  · exact ⟨tx, (h.frame.txns _ e).trans htx, hw⟩

theorem moves : Moves t s s' where
  frame := h.frame
  finished t' _ := congrFun h.finished t'
  sent := ⟨[], by simp [h.sent]⟩
  rows := .of_same h.row

/-- It is enough to look at what the transaction has written. -/
theorem inv (hi : Inv s) (hp : ∀ tx, s'.db.txns t = some tx → s.Pending t tx) : Inv s' where
  keyed := by
    rw [h.row]
    exact hi.keyed
  sent := by
    rw [h.row, h.sent]
    exact hi.sent
  drains := by
    rw [h.sent, h.finished]
    exact hi.drains
  marked := by
    rw [h.row, h.sent, h.ended]
    exact hi.marked
  ended := by
    rw [h.ended, h.finished]
    exact hi.ended
  pending := by
    intro t' tx htx
    apply h.pending_of
    by_cases e : t' = t
    · subst e
      exact hp tx htx
    · rw [h.frame.txns t' e] at htx
      exact hi.pending t' tx htx
  settled := by
    intro hq p hm
    rw [h.delivered] at hm
    rcases hi.settled (h.quiet.mp hq) p hm with hd | hd
    · left
      obtain ⟨row, hr, hne⟩ := hd
      exact ⟨row, by rw [h.row, hr], hne⟩
    · exact .inr (h.held_of hd)
  once := by
    intro hq
    rw [h.delivered]
    exact hi.once (h.quiet.mp hq)

end Quietly

/-- Nothing but a transaction is opened. -/
theorem quietly_begin (ht : s.db.txns t = none) : Quietly t s { s with db := s.db.begin t } where
  same := Store.begin_same
  frame := Store.begin_frame
  sent := rfl
  finished := rfl
  ended := rfl
  held _ _ htx := nomatch ht.symm.trans htx

theorem quietly_abort : Quietly t s { s with db := s.db.abort t } where
  same := Store.abort_same
  frame := Store.abort_frame
  sent := rfl
  finished := rfl
  ended := rfl
  held tx id htx hw := by
    refine ⟨{ tx with aborted := true }, ?_, hw⟩
    rw [Store.abort_txn, htx]
    rfl

theorem inv_begin (ht : s.db.txns t = none) (hi : Inv s) : Inv { s with db := s.db.begin t } := by
  apply (quietly_begin ht).inv hi
  intro tx htx id v hw
  rw [Store.begin_txn ht] at htx
  cases htx
  cases hw

theorem inv_abort (hi : Inv s) : Inv { s with db := s.db.abort t } := by
  apply quietly_abort.inv hi
  intro tx htx
  rw [Store.abort_txn] at htx
  obtain ⟨tx', ht', rfl⟩ := Option.map_eq_some_iff.mp htx
  exact hi.pending t tx' ht'

/-- A batched write: the rows it touches must be as `Pending` says. -/
theorem quietly_batched {db : Store (fun _ : Uuid => OutboxRow) Unit} {ks : List Uuid}
    {f : Uuid → OutboxRow → OutboxRow} {tx tx' : Txn (fun _ : Uuid => OutboxRow) Unit}
    (ht : s.db.txns t = some tx) (hb : Store.Batched t ks f s.db db tx tx') :
    Quietly t s { s with db := db } where
  same := hb.same
  frame := hb.frame
  sent := rfl
  finished := rfl
  ended := rfl
  held tx₁ id htx hw := by
    rw [ht] at htx
    cases htx
    refine ⟨tx', hb.txn, ?_⟩
    by_cases hm : id ∈ ks
    · rw [hb.wrote id hm]
      split
      · exact hw
      · exact Option.some_ne_none _
    · rw [hb.other id hm]
      exact hw

theorem inv_batched {db : Store (fun _ : Uuid => OutboxRow) Unit} {ks : List Uuid}
    {f : Uuid → OutboxRow → OutboxRow} {tx tx' : Txn (fun _ : Uuid => OutboxRow) Unit} (hi : Inv s)
    (ht : s.db.txns t = some tx) (hb : Store.Batched t ks f s.db db tx tx')
    (hp : ∀ id ∈ ks, ∀ row, s.db.view t id = some row → (f id row).message.id = id ∧
      (∀ old, s.row id = some old → old.publishedAt = none ∧ old.message = (f id row).message) ∧
      ((f id row).publishedAt ≠ none → ⟨s.current t, (f id row).message, true⟩ ∈ s.sent)) :
    Inv { s with db := db } := by
  apply (quietly_batched ht hb).inv hi
  intro tx₁ htx id v hw
  have he : tx₁ = tx' := Option.some.inj (htx.symm.trans hb.txn)
  subst he
  by_cases hm : id ∈ ks
  · rw [hb.wrote id hm] at hw
    split at hw
    · exact hi.pending t tx ht id v hw
    · next row hv =>
      cases hw
      exact ⟨f id row, rfl, hp id hm row hv⟩
  · rw [hb.other id hm] at hw
    exact hi.pending t tx ht id v hw

/-- `INSERT` of a new event. -/
theorem inv_insert {row : OutboxRow} {db : Store (fun _ : Uuid => OutboxRow) Unit}
    {tx : Txn (fun _ : Uuid => OutboxRow) Unit} (hi : Inv s) (ht : s.db.txns t = some tx)
    (hn : row.publishedAt = none)
    (h : s.db.insert t row.message.id row [] = some (true, db)) :
    Quietly t s { s with db := db } ∧ Inv { s with db := db } ∧
      ∃ tx', db.txns t = some tx' ∧ tx'.aborted = tx.aborted := by
  rcases Store.insert_cases h with ⟨hb, -, -⟩ | ⟨-, hv, hf, rfl⟩
  · exact nomatch hb
  · obtain ⟨hsame, htx⟩ := Store.put_txn (some row) [] hf ht
    have hq : Quietly t s { s with db := s.db.put t row.message.id (some row) [] hf } := by
      refine ⟨hsame, Store.put_frame (h := hf), rfl, rfl, rfl, fun tx₁ id h₁ hw => ⟨_, htx, ?_⟩⟩
      rw [ht] at h₁
      cases h₁
      by_cases e : id = row.message.id
      · simp [Store.Txn.write, e]
      · simpa [Store.Txn.write, Function.update_of_ne e] using hw
    refine ⟨hq, hq.inv hi ?_, _, htx, rfl⟩
    intro tx₁ h₁ id v hw
    have he := Option.some.inj (h₁.symm.trans htx)
    subst he
    by_cases e : id = row.message.id
    · subst e
      simp only [Store.Txn.write, Function.update_self, Option.some.injEq] at hw
      refine ⟨row, hw.symm, rfl, fun old hold => ?_, fun hne => absurd hn hne⟩
      rw [Store.view_txn ht] at hv
      cases hw' : tx.writes row.message.id with
      | none =>
        rw [hw', Option.getD_none] at hv
        exact nomatch hv.symm.trans hold
      | some v' =>
        obtain ⟨row', rfl, -⟩ := hi.pending t tx ht _ v' hw'
        rw [hw', Option.getD_some] at hv
        exact nomatch hv
    · simp only [Store.Txn.write, Function.update_of_ne e] at hw
      exact hi.pending t tx ht id v hw

/-! ### Publishing -/

/-- Two transactions do not hold one row. -/
theorem Relay.Held.same_drain {p : Publication} {id : Uuid}
    {tx : Txn (fun _ : Uuid => OutboxRow) Unit} (h : s.Held p) (ht : s.db.txns t = some tx)
    (hw : tx.writes id ≠ none) (hid : p.message.id = id) : p.drain = s.current t := by
  obtain ⟨hd, tx', htx', hw'⟩ := h
  rw [hid] at hw'
  have hlock := Store.locked_of_write ht hw
  rw [Store.locked_of_write htx' hw'] at hlock
  rw [hd, Option.some.inj hlock]

/-- A drain may publish a row that it holds, that is unpublished, and that it has not
successfully published before. -/
theorem inv_publish {tx : Txn (fun _ : Uuid => OutboxRow) Unit} {row : OutboxRow} (ok : Bool)
    (hi : Inv s) (ht : s.db.txns t = some tx) (hw : tx.writes row.message.id ≠ none)
    (hr : s.row row.message.id = some row) (hn : row.publishedAt = none)
    (hnew : ∀ p ∈ s.delivered, p.drain = s.current t → p.message.id ≠ row.message.id) :
    Inv { s with sent := s.sent ++ [⟨s.current t, row.message, ok⟩] } := by
  have hquiet (hq : Relay.Quiet { s with sent := s.sent ++ [⟨s.current t, row.message, ok⟩] }) :
      s.Quiet := fun p hp => hq p (List.mem_append_left _ hp)
  have hdelivered : Relay.delivered { s with sent := s.sent ++ [⟨s.current t, row.message, ok⟩] } =
      s.delivered ++ if ok then [⟨s.current t, row.message, ok⟩] else [] := by
    cases ok <;> simp [Relay.delivered]
  constructor
  · exact hi.keyed
  · intro p hp
    rcases List.mem_append.mp hp with hp | hp
    · exact hi.sent p hp
    · rw [List.mem_singleton.mp hp]
      exact ⟨row, hr, rfl⟩
  · intro p hp
    rcases List.mem_append.mp hp with hp | hp
    · exact hi.drains p hp
    · rw [List.mem_singleton.mp hp]
      exact Nat.le_refl _
  · intro id row' hr' hne
    obtain ⟨d, hd, hs⟩ := hi.marked id row' hr' hne
    exact ⟨d, hd, List.mem_append_left _ hs⟩
  · exact hi.ended
  · intro t' tx' htx' id v hv
    obtain ⟨row', he, hid, hold, hs⟩ := hi.pending t' tx' htx' id v hv
    exact ⟨row', he, hid, hold, fun hne => List.mem_append_left _ (hs hne)⟩
  · intro hq p hp
    rw [hdelivered] at hp
    rcases List.mem_append.mp hp with hp | hp
    · exact hi.settled (hquiet hq) p hp
    · have he : p = ⟨s.current t, row.message, ok⟩ := by
        cases ok with
        | false => exact nomatch hp
        | true => exact List.mem_singleton.mp hp
      subst he
      exact .inr ⟨rfl, tx, ht, hw⟩
  · intro hq
    rw [hdelivered, List.map_append, List.nodup_append]
    refine ⟨hi.once (hquiet hq), by cases ok <;> simp, ?_⟩
    intro id hid id' hid' he
    obtain ⟨p, hp, rfl⟩ := List.mem_map.mp hid
    have hid' : id' = row.message.id := by cases ok <;> simp_all
    rw [hid'] at he
    rcases hi.settled (hquiet hq) p hp with ⟨row', hr', hne⟩ | hh
    · rw [he, hr] at hr'
      cases hr'
      exact hne hn
    · exact hnew p hp (hh.same_drain ht hw he) he

theorem moves_publish (p : Publication) (hp : p.drain.1 = t) :
    Moves t s { s with sent := s.sent ++ [p] } where
  frame := .refl
  finished _ _ := rfl
  sent := ⟨[p], rfl, by simpa using hp⟩
  rows := .of_same rfl

/-! ### The end of a transaction -/

section close

variable {tx : Txn (fun _ : Uuid => OutboxRow) Unit}

theorem close_eq (ht : s.db.txns t = some tx) (db : Store (fun _ : Uuid => OutboxRow) Unit)
    (committed : Bool) : s.close t db committed =
      { s with
        db := db
        finished := Function.update s.finished t (s.finished t + 1)
        ended := s.ended ++ [(s.current t, committed)] } := by
  simp [Relay.close, ht]

theorem close_idle (ht : s.db.txns t = none) (db : Store (fun _ : Uuid => OutboxRow) Unit)
    (committed : Bool) : s.close t db committed = s := by
  simp [Relay.close, ht]

/-- The transaction of `t` ends with the rows of `db`. -/
structure Closes (t : Tid) (s s' : Relay) (committed : Bool) : Prop where
  open_ : ∃ tx, s.db.txns t = some tx
  frame : Store.Frame t s.db s'.db
  txn : s'.db.txns t = none
  sent : s'.sent = s.sent
  finished : s'.finished = Function.update s.finished t (s.finished t + 1)
  ended : s'.ended = s.ended ++ [(s.current t, committed)]

theorem closes_rollback (ht : s.db.txns t = some tx) : Closes t s (s.rollback t) false := by
  rw [Relay.rollback, close_eq ht]
  exact ⟨⟨tx, ht⟩, Store.rollback_frame, Store.rollback_txn, rfl, rfl, rfl⟩

theorem closes_commit (ht : s.db.txns t = some tx) (ha : tx.aborted = false) :
    Closes t s (s.commit t) true := by
  have hab : s.db.aborted t = false := by simp [Store.aborted, ht, ha]
  rw [Relay.commit, close_eq ht, hab]
  exact ⟨⟨tx, ht⟩, Store.commit_frame, Store.commit_txn, rfl, rfl, rfl⟩

namespace Closes

variable {committed : Bool} (h : Closes t s s' committed)

include h

theorem current {t' : Tid} (ht : t' ≠ t) : s'.current t' = s.current t' := by
  simp [Relay.current, h.finished, Function.update_of_ne ht]

theorem le_finished (t' : Tid) : s.finished t' ≤ s'.finished t' := by
  rw [h.finished]
  by_cases e : t' = t
  · subst e
    simp
  · simp [Function.update_of_ne e]

theorem quiet (hq : s'.Quiet) : s.Quiet := by
  intro p hp hok hm
  apply hq p (h.sent ▸ hp) hok
  rw [h.ended]
  exact List.mem_append_left _ hm

/-- After an abort that leaves the run quiet, the aborted drain had delivered nothing. -/
theorem quiet_of_abort (hc : committed = false) (hq : s'.Quiet) {p : Publication}
    (hp : p ∈ s.delivered) : p.drain ≠ s.current t := by
  intro he
  obtain ⟨hp, hok⟩ := List.mem_filter.mp hp
  apply hq p (h.sent ▸ hp) (by simpa using hok)
  rw [h.ended, he, hc]
  exact List.mem_append_right _ (List.mem_singleton.mpr rfl)

/-- What is to be shown of the rows for the invariant to last. -/
theorem inv (hi : Inv s) (hrows : RowStep s s')
    (hkeyed : ∀ id row, s'.row id = some row → row.message.id = id)
    (hmarked : ∀ id row, s'.row id = some row → row.publishedAt ≠ none →
      ∃ d, (d, true) ∈ s'.ended ∧ ⟨d, row.message, true⟩ ∈ s.sent)
    (hlocked : ∀ t' tx' id, t' ≠ t → s.db.txns t' = some tx' → tx'.writes id ≠ none →
      s'.row id = s.row id)
    (hdone : s'.Quiet → ∀ p ∈ s.delivered, p.drain = s.current t → s'.Done p.message.id) :
    Inv s' := by
  have hdelivered : s'.delivered = s.delivered := by simp [Relay.delivered, h.sent]
  constructor
  · exact hkeyed
  · intro p hp
    rw [h.sent] at hp
    obtain ⟨row, hr, hm⟩ := hi.sent p hp
    obtain ⟨row', hr', hm', -⟩ := hrows.kept _ _ hr
    exact ⟨row', hr', hm'.trans hm⟩
  · intro p hp
    rw [h.sent] at hp
    exact Nat.le_trans (hi.drains p hp) (h.le_finished _)
  · intro id row hr hne
    rw [h.sent]
    exact hmarked id row hr hne
  · intro d b hd
    rw [h.ended] at hd
    rcases List.mem_append.mp hd with hd | hd
    · exact Nat.lt_of_lt_of_le (hi.ended d b hd) (h.le_finished _)
    · cases List.mem_singleton.mp hd
      simp [h.finished, Relay.current]
  · intro t' tx' htx' id v hv
    have hne : t' ≠ t := by
      intro e
      subst e
      exact nomatch htx'.symm.trans h.txn
    rw [h.frame.txns t' hne] at htx'
    obtain ⟨row, he, hid, hold, hs⟩ := hi.pending t' tx' htx' id v hv
    rw [hlocked t' tx' id hne htx' (by simp [hv]), h.sent, h.current hne]
    exact ⟨row, he, hid, hold, hs⟩
  · intro hq p hp
    rw [hdelivered] at hp
    rcases hi.settled (h.quiet hq) p hp with ⟨row, hr, hne⟩ | ⟨hd, tx', htx', hw⟩
    · left
      obtain ⟨row', hr', -, hk, -⟩ := hrows.kept _ _ hr
      exact ⟨row', hr', by rwa [hk hne]⟩
    · by_cases e : p.drain.1 = t
      · rw [e] at hd
        exact .inl (hdone hq p hp hd)
      · right
        refine ⟨hd.trans (h.current e).symm, tx', ?_, hw⟩
        rwa [h.frame.txns _ e]
  · intro hq
    rw [hdelivered]
    exact hi.once (h.quiet hq)

theorem moves (hrows : RowStep s s') : Moves t s s' where
  frame := h.frame
  finished t' ht := by rw [h.finished, Function.update_of_ne ht]
  sent := ⟨[], by simp [h.sent]⟩
  rows := hrows

end Closes

theorem rollback_step (hi : Inv s) : Inv (s.rollback t) ∧ Moves t s (s.rollback t) := by
  cases ht : s.db.txns t with
  | none =>
    rw [Relay.rollback, close_idle ht]
    exact ⟨hi, .refl, fun _ _ => rfl, ⟨[], by simp⟩, .of_same rfl⟩
  | some tx =>
    have h := closes_rollback ht
    have hrow : (s.rollback t).row = s.row := by
      rw [Relay.rollback, close_eq ht]
      rfl
    have hrows := RowStep.of_same hrow
    refine ⟨?_, h.moves hrows⟩
    apply h.inv hi hrows
    · rw [hrow]
      exact hi.keyed
    · intro id row hr hne
      rw [hrow] at hr
      obtain ⟨d, hd, hs⟩ := hi.marked id row hr hne
      refine ⟨d, ?_, hs⟩
      rw [h.ended]
      exact List.mem_append_left _ hd
    · intro _ _ id _ _ _
      rw [hrow]
    · intro hq p hp he
      exact absurd he (h.quiet_of_abort rfl hq hp)

/-- A drain may commit once it has marked what it published. -/
theorem commit_step (hi : Inv s) (ht : s.db.txns t = some tx) (ha : tx.aborted = false)
    (hmark : ∀ p ∈ s.delivered, p.drain = s.current t →
      ∃ row, tx.writes p.message.id = some (some row) ∧ row.publishedAt ≠ none) :
    Inv (s.commit t) ∧ Moves t s (s.commit t) := by
  have h := closes_commit ht ha
  have hrow (id : Uuid) : (s.commit t).row id = (tx.writes id).getD (s.row id) := by
    rw [Relay.commit, close_eq ht]
    exact Store.commit_rows ht ha
  have hended (d : TxnId) (hd : (d, true) ∈ s.ended) : (d, true) ∈ (s.commit t).ended := by
    rw [h.ended]
    exact List.mem_append_left _ hd
  have hnow : (s.current t, true) ∈ (s.commit t).ended := by
    rw [h.ended]
    exact List.mem_append_right _ (List.mem_singleton.mpr rfl)
  -- a committed row is one the transaction wrote or one as before
  have hcases (id : Uuid) (row : OutboxRow) (hr : (s.commit t).row id = some row) :
      s.row id = some row ∨ tx.writes id = some (some row) := by
    rw [hrow] at hr
    cases hw : tx.writes id with
    | none =>
      rw [hw] at hr
      exact .inl hr
    | some v =>
      rw [hw, Option.getD_some] at hr
      exact .inr (by rw [hr])
  have hrows : RowStep s (s.commit t) := by
    constructor
    · intro id row hr
      cases hw : tx.writes id with
      | none =>
        refine ⟨row, ?_, rfl, fun _ => rfl, fun hn hm => absurd hn hm⟩
        rw [hrow, hw, Option.getD_none, hr]
      | some v =>
        obtain ⟨row', rfl, -, hold, hs⟩ := hi.pending t tx ht id v hw
        obtain ⟨hn, hm⟩ := hold row hr
        refine ⟨row', by rw [hrow, hw, Option.getD_some], hm.symm, fun hne => absurd hn hne, ?_⟩
        intro _ hne
        refine ⟨s.current t, hnow, fun b hb => ?_, hm ▸ hs hne⟩
        exact Nat.lt_irrefl _ (hi.ended _ b hb)
    · intro id row hn hr
      rcases hcases id row hr with hr | hw
      · exact nomatch hn.symm.trans hr
      · obtain ⟨row', he, hid, -, hs⟩ := hi.pending t tx ht id _ hw
        cases he
        by_contra hne
        obtain ⟨old, hold, -⟩ := hi.sent _ (hs hne)
        rw [hid] at hold
        exact nomatch hn.symm.trans hold
  refine ⟨?_, h.moves hrows⟩
  apply h.inv hi hrows
  · intro id row hr
    rcases hcases id row hr with hr | hw
    · exact hi.keyed id row hr
    · obtain ⟨row', he, hid, -⟩ := hi.pending t tx ht id _ hw
      cases he
      exact hid
  · intro id row hr hne
    rcases hcases id row hr with hr | hw
    · obtain ⟨d, hd, hs⟩ := hi.marked id row hr hne
      exact ⟨d, hended d hd, hs⟩
    · obtain ⟨row', he, -, -, hs⟩ := hi.pending t tx ht id _ hw
      cases he
      exact ⟨_, hnow, hs hne⟩
  · intro t' tx' id hne htx' hw'
    exact h.frame.held id t' hne (Store.locked_of_write htx' hw')
  · intro _ p hp he
    obtain ⟨row, hw, hne⟩ := hmark p hp he
    exact ⟨row, by rw [hrow, hw, Option.getD_some], hne⟩

end close

end OrderLifecycle.Outbox

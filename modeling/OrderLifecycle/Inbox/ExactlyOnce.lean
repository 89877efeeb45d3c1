import OrderLifecycle.Framework.History
import OrderLifecycle.Inbox.Work
import OrderLifecycle.Lifecycle.Logic

open Framework

namespace OrderLifecycle

/-! ### Calls of `runOnce` -/

structure InboxCall (ω : Type) where
  messageId : Uuid
  consumer : Consumer
  work : ω
  deriving DecidableEq

/-- The inbox row of the message. -/
def InboxCall.key {ω : Type} (k : InboxCall ω) : Key := .inbox k.messageId k.consumer

/-- Any number of calls, each with one of the given works; a call that returns `true` returns
`some` here. -/
def inboxSystem {ω α : Type} (works : ω → InboxWork α) :
    System World Choice (InboxCall ω) Empty (Except AppError (Option α)) where
  body k := (runOnce k.messageId k.consumer (works k.work).run).run
  enabled _ _ := true
  env e _ := nomatch e
  crash t w := { w with db := w.db.rollback t }

/-- A step that commits the transaction of `t`, all of it, and with it the inbox record. -/
structure CommitsOnce {ω : Type} (t : Tid) (k : InboxCall ω) (w w' : World) : Prop where
  unprocessed : w.db.rows k.key = none
  whole : ∃ tx, w.db.txns t = some tx ∧ tx.aborted = false ∧
    (∀ key, w'.db.rows key = (tx.writes key).getD (w.db.rows key)) ∧
    w'.db.journal = w.db.journal ++ tx.journal
  record : w'.db.rows k.key ≠ none
  alone : ∀ key, key.inInbox = true → key ≠ k.key → w'.db.rows key = w.db.rows key

section logic

variable {ω α β : Type} {works : ω → InboxWork α} {t : Tid} {k : InboxCall ω} {w w' : World}
  {h : Past World} {x : Service α}

def inboxLogic (ω : Type) : Logic World Choice (InboxCall ω) where
  inv _ := True
  guar t k w w' := w.db.Frame t w'.db ∧ (w.db.SameCommitted w'.db ∨ CommitsOnce t k w w')
  envGuar _ _ := False
  choice _ := True

/-- Nothing asked of single steps beyond the guarantee. -/
def Unremarked (_ : Past World) (_ _ : World) : Prop := True

/-- Nothing committed so far. -/
def Quietly (h : Past World) : Prop := ∀ x ∈ h, x.1.db.SameCommitted x.2.db

theorem Quietly.snoc (hq : Quietly h) (hs : w.db.SameCommitted w'.db) :
    Quietly (h ++ [(w, w')]) := by
  intro x hx
  rcases List.mem_append.mp hx with hx | hx
  · exact hq x hx
  · obtain rfl := List.mem_singleton.mp hx
    exact hs

/-- The transaction is open, and has not touched the inbox table. -/
def InWork (t : Tid) (w : World) : Prop :=
  ∃ tx, w.db.txns t = some tx ∧ ∀ key, key.inInbox = true → tx.writes key = none

/-- The transaction is open and has done nothing. -/
def Begun (t : Tid) (w : World) : Prop := w.db.txns t = some ⟨fun _ => none, [], false⟩

/-- The transaction is about to commit the inbox record of `k`, and no other. -/
structure Recorded (t : Tid) (k : InboxCall ω) (w : World) : Prop where
  unprocessed : w.db.rows k.key = none
  txn : ∃ tx, w.db.txns t = some tx ∧ tx.aborted = false ∧
    (∃ row, tx.writes k.key = some (some row)) ∧
    ∀ key, key.inInbox = true → key ≠ k.key → tx.writes key = none

theorem stable_inbox {P : World → Prop}
    (hP : ∀ t' (w w' : World), t' ≠ t → w.db.Frame t' w'.db → P w → P w') :
    (inboxLogic ω).Stable t P := by
  rintro w w' ⟨-, -, ⟨t', k, ht, hf, -⟩ | hfalse⟩ hp
  · exact hP t' w w' ht hf hp
  · exact hfalse.elim

theorem stable_inWork : (inboxLogic ω).Stable t (InWork t) :=
  stable_inbox fun _ _ _ ht hf ⟨tx, htx, hw⟩ => ⟨tx, (hf.txns _ ht.symm).trans htx, hw⟩

theorem stable_begun : (inboxLogic ω).Stable t (Begun t) :=
  stable_inbox fun _ _ _ ht hf hb => (hf.txns _ ht.symm).trans hb

theorem stable_inbox_idle : (inboxLogic ω).Stable t (Idle t) :=
  stable_inbox fun _ _ _ ht hf hi => (hf.txns _ ht.symm).trans hi

theorem stable_recorded : (inboxLogic ω).Stable t (Recorded t k) := by
  refine stable_inbox fun t' w w' ht hf ⟨hnone, tx, htx, ha, ⟨row, hrow⟩, hother⟩ => ?_
  have hwrote : tx.writes k.key ≠ none := by simp [hrow]
  exact ⟨(hf.rows_of_write ht.symm htx hwrote).trans hnone, tx, (hf.txns _ ht.symm).trans htx, ha,
    ⟨row, hrow⟩, hother⟩

/-- A record stays as it is. -/
theorem stable_processed {key : Key} (hkey : key.inInbox = true) :
    (inboxLogic ω).Stable t fun w => w.db.rows key ≠ none := by
  rintro w w' ⟨-, -, ⟨t', k, ht, -, hs | hc⟩ | hfalse⟩ hp
  · rwa [hs.1]
  · by_cases e : key = k.key
    · rw [e]
      exact hc.record
    · rwa [hc.alone key hkey e]
  · exact hfalse.elim

theorem Within.frame (hw : Within t w w') : w.db.Frame t w'.db :=
  ⟨hw.others, fun key t' _ _ => by rw [hw.same.1]⟩

theorem Within.inWork (hw : Within t w w') (hi : InWork t w) : InWork t w' := by
  obtain ⟨tx, htx, hnone⟩ := hi
  obtain ⟨tx', htx', hsame⟩ := hw.own tx htx
  exact ⟨tx', htx', fun key hk => (hsame key hk).trans (hnone key hk)⟩

/-- Managed statements, whatever they do, commit nothing and stay in their transaction. -/
theorem wpPast_managed {p : Prog World Choice β} {R : β → Prop} (hp : p.All Managed R)
    (hq : Quietly h) (hi : InWork t w) : wpPast (inboxLogic ω) Unremarked t k p
      (fun b h w => R b ∧ Quietly h ∧ InWork t w) h w := by
  induction hp generalizing h w with
  | ret hr => exact ⟨hr, hq, hi⟩
  | act hf _ ih =>
    intro w₁ hrely _ ch _ b w₂ hfs
    have hi₁ : InWork t w₁ := stable_inWork.star hrely hi
    obtain ⟨tx, htx, -⟩ := id hi₁
    have hw : Within t w₁ w₂ := hf t ch w₁ b w₂ (by simp [htx]) hfs
    exact ⟨trivial, ⟨hw.frame, .inl hw.same⟩, trivial,
      ih b ⟨t, ch, w₁, w₂, hfs⟩ (hq.snoc hw.same) (hw.inWork hi₁)⟩

theorem recalls_work (work : InboxWork α) :
    Recalls (inboxLogic ω) Unremarked t k (fun h w => Quietly h ∧ InWork t w) work.run
      (fun _ h w => Quietly h ∧ InWork t w)
      (fun e h _ => Quietly h ∧ isInboxDuplicate e = false) := by
  intro h w hp
  apply wpPast_mono _ (wpPast_managed work.managed hp.1 hp.2)
  rintro r h w ⟨hr, hq, hi⟩
  cases r with
  | ok a => exact ⟨hq, hi⟩
  | error e => exact ⟨hq, hr e rfl⟩

/-! ### The statements of `runOnce` -/

/-- What a call knows when an error reaches it. -/
def InboxError (k : InboxCall ω) (e : AppError) (h : Past World) (w : World) : Prop :=
  Quietly h ∧ (isInboxDuplicate e = true → w.db.rows k.key ≠ none)

theorem recalls_startTransaction :
    Recalls (inboxLogic ω) Unremarked t k (fun h w => Quietly h ∧ Idle t w) startTransaction
      (fun _ h w => Quietly h ∧ Begun t w) (InboxError k) := by
  apply recalls_stmt fun h => .and (.const _) stable_inbox_idle
  intro h w ch r w' _ _ ⟨hq, hi⟩ hf
  split at hf
  · cases hf
    exact ⟨trivial, ⟨.refl, .inl .refl⟩, trivial, hq.snoc .refl, nofun⟩
  · cases hf
    exact ⟨trivial, ⟨Store.begin_frame, .inl Store.begin_same⟩, trivial, hq.snoc Store.begin_same,
      Store.begin_txn hi⟩

theorem Begun.inWork (hb : Begun t w) : InWork t w := ⟨_, hb, fun _ _ => rfl⟩

theorem recalls_selectInbox :
    Recalls (inboxLogic ω) Unremarked t k (fun h w => Quietly h ∧ Begun t w)
      (selectRow (.inbox k.messageId k.consumer))
      (fun r h w => (r.isSome = true → w.db.rows k.key ≠ none) ∧ Quietly h ∧ Begun t w)
      (InboxError k) := by
  apply recalls_stmt fun h => .and (.const _) stable_begun
  intro h w ch r w' _ _ ⟨hq, hb⟩ hf
  rcases sql_cases hf with ⟨-, rfl, rfl⟩ | ⟨-, -, rfl, rfl⟩ |
    ⟨-, -, ⟨b, rfl, hf'⟩ | ⟨e, w₁, -, hf', -⟩⟩
  · exact ⟨trivial, ⟨.refl, .inl .refl⟩, trivial, hq.snoc .refl, nofun⟩
  · exact ⟨trivial, ⟨Store.abort_frame, .inl Store.abort_same⟩, trivial, hq.snoc Store.abort_same,
      nofun⟩
  · cases hf'
    refine ⟨trivial, ⟨.refl, .inl .refl⟩, trivial, fun hsome => ?_, hq.snoc .refl, hb⟩
    rw [Store.view_txn hb] at hsome
    exact Option.isSome_iff_ne_none.mp hsome
  · cases hf'

/-- The insert of the record decides between overlapping calls. -/
theorem recalls_insertInbox (row : Choice → ProcessedMessageEntity) :
    Recalls (inboxLogic ω) Unremarked t k (fun h w => Quietly h ∧ InWork t w)
      (insertRow (.inbox k.messageId k.consumer) inboxTable row)
      (fun _ h w => Quietly h ∧ Recorded t k w) (InboxError k) := by
  apply recalls_stmt fun h => .and (.const _) stable_inWork
  rintro h w ch r w' - - ⟨hq, tx, htx, hnone⟩ hf
  have hview : w.db.view t k.key = w.db.rows k.key := by
    rw [Store.view_txn htx, hnone _ rfl]
    rfl
  rcases sql_cases hf with ⟨-, rfl, rfl⟩ | ⟨-, -, rfl, rfl⟩ |
    ⟨ha, -, ⟨b, rfl, hf'⟩ | ⟨e, w₁, rfl, hf', rfl⟩⟩
  · exact ⟨trivial, ⟨.refl, .inl .refl⟩, trivial, hq.snoc .refl, nofun⟩
  · exact ⟨trivial, ⟨Store.abort_frame, .inl Store.abort_same⟩, trivial, hq.snoc Store.abort_same,
      nofun⟩
  · obtain ⟨⟨inserted, db⟩, hins, he⟩ := Option.map_eq_some_iff.mp hf'
    rcases Store.insert_cases hins with ⟨rfl, -, -⟩ | ⟨rfl, hfresh, hfree, rfl⟩
    · cases he
    · cases he
      have hput := Store.put_txn (k := k.key) (some (row ch)) [] hfree htx
      have haborted : tx.aborted = false := by simpa [Store.aborted, htx] using ha
      refine ⟨trivial, ⟨Store.put_frame (h := hfree), .inl hput.1⟩, trivial, hq.snoc hput.1, ?_, _, hput.2,
        haborted, ⟨row ch, ?_⟩, fun key hkey hne => ?_⟩
      · exact (congrFun hput.1.1 _).trans (hview.symm.trans hfresh)
      · exact Function.update_self ..
      · exact (Function.update_of_ne hne ..).trans (hnone key hkey)
  · obtain ⟨⟨inserted, db⟩, hins, he⟩ := Option.map_eq_some_iff.mp hf'
    rcases Store.insert_cases hins with ⟨rfl, rfl, htaken⟩ | ⟨rfl, -, hfree, rfl⟩
    · cases he
      refine ⟨trivial, ⟨Store.abort_frame, .inl Store.abort_same⟩, trivial,
        hq.snoc Store.abort_same, fun _ => ?_⟩
      rw [Store.abort_same.1]
      exact hview ▸ htaken
    · cases he

/-- The commit of a transaction with the record. -/
theorem recalls_commitRecorded :
    Recalls (inboxLogic ω) Unremarked t k (fun h w => Quietly h ∧ Recorded t k w) commitTransaction
      (fun _ h _ => ∃ x ∈ h, CommitsOnce t k x.1 x.2) (InboxError k) := by
  apply recalls_stmt fun h => .and (.const _) stable_recorded
  rintro h w ch r w' - - ⟨hq, hnone, tx, htx, ha, ⟨row, hrow⟩, hother⟩ hf
  split at hf
  · cases hf
    exact ⟨trivial, ⟨Store.rollback_frame, .inl Store.rollback_same⟩, trivial,
      hq.snoc Store.rollback_same, nofun⟩
  · cases hf
    have hrows (key : Key) : (w.db.commit t).rows key = (tx.writes key).getD (w.db.rows key) :=
      Store.commit_rows htx ha
    have hc : CommitsOnce t k w { w with db := w.db.commit t } := by
      refine ⟨hnone, ⟨tx, htx, ha, hrows, Store.commit_journal htx ha⟩, ?_, fun key hkey hne => ?_⟩
      · rw [hrows, hrow]
        exact Option.some_ne_none _
      · rw [hrows, hother key hkey hne]
        rfl
    exact ⟨trivial, ⟨Store.commit_frame, .inr hc⟩, trivial, _,
      List.mem_append_right _ (List.mem_singleton.mpr rfl), hc⟩

/-- The commit of a transaction that has done nothing. -/
theorem recalls_commitBegun :
    Recalls (inboxLogic ω) Unremarked t k
      (fun h w => w.db.rows k.key ≠ none ∧ Quietly h ∧ Begun t w) commitTransaction
      (fun _ h w => w.db.rows k.key ≠ none ∧ Quietly h) (InboxError k) := by
  apply recalls_stmt fun h => .and (stable_processed rfl) (.and (.const _) stable_begun)
  intro h w ch r w' _ _ ⟨hsome, hq, hb⟩ hf
  split at hf
  · cases hf
    exact ⟨trivial, ⟨Store.rollback_frame, .inl Store.rollback_same⟩, trivial,
      hq.snoc Store.rollback_same, nofun⟩
  · cases hf
    have hsame : w.db.SameCommitted (w.db.commit t) :=
      ⟨funext fun key => Store.commit_rows hb rfl, by rw [Store.commit_journal hb rfl]; simp⟩
    refine ⟨trivial, ⟨Store.commit_frame, .inl hsame⟩, trivial, ?_, hq.snoc hsame⟩
    rwa [hsame.1]

theorem recalls_rollback {e : AppError} :
    Recalls (inboxLogic ω) Unremarked t k (InboxError k e)
      (do
        rollbackTransaction
        throw e : Service α) (fun _ _ _ => False) (InboxError k) := by
  apply recalls_bind (Q := fun _ => InboxError k e)
  · apply recalls_stmt fun h => .and (.const _) (.imp fun _ => stable_processed rfl)
    intro h w ch r w' _ _ ⟨hq, hdup⟩ hf
    cases hf
    exact ⟨trivial, ⟨Store.rollback_frame, .inl Store.rollback_same⟩, trivial,
      hq.snoc Store.rollback_same, hdup⟩
  · intro _
    exact recalls_throw fun _ _ h => h

/-! ### The call -/

/-- What a call has done, by what it returns. -/
def RanOnce (t : Tid) (k : InboxCall ω) (r : Except AppError (Option α)) (h : Past World)
    (w : World) : Prop :=
  match r with
  | .ok (some _) => ∃ x ∈ h, CommitsOnce t k x.1 x.2
  | .ok none => w.db.rows k.key ≠ none ∧ Quietly h
  | .error _ => Quietly h

theorem recalls_runOnce (work : InboxWork α) :
    Recalls (inboxLogic ω) Unremarked t k (fun h w => Quietly h ∧ Idle t w)
      (runOnce k.messageId k.consumer work.run)
      (fun r => RanOnce t k (.ok r)) (fun e => RanOnce (α := α) t k (.error e)) := by
  apply recalls_tryCatch (E := InboxError k)
  · apply recalls_tryCatch (E := InboxError k)
    · apply recalls_bind recalls_startTransaction
      intro _
      apply recalls_bind (Q := fun r h w => match r with
        | some _ => Quietly h ∧ Recorded t k w
        | none => w.db.rows k.key ≠ none ∧ Quietly h ∧ Begun t w)
      · apply recalls_bind recalls_selectInbox
        intro existing
        apply recalls_ite
        · intro hsome
          exact recalls_pure fun h w hp => ⟨hp.1 hsome, hp.2⟩
        · intro _
          apply recalls_bind
          · apply recalls_conseq (recalls_work work)
            · exact fun h w hp => ⟨hp.2.1, hp.2.2.inWork⟩
            · exact fun _ _ _ h => h
            · exact fun e h w hp => ⟨hp.1, fun hdup => by simp [hp.2] at hdup⟩
          · intro result
            apply recalls_bind (recalls_insertInbox _)
            intro _
            exact recalls_pure fun h w hp => hp
      · intro r
        cases r with
        | some a =>
          apply recalls_bind recalls_commitRecorded
          intro _
          exact recalls_pure fun h w hp => hp
        | none =>
          apply recalls_bind recalls_commitBegun
          intro _
          exact recalls_pure fun h w hp => hp
    · intro e
      exact recalls_conseq recalls_rollback (fun _ _ h => h) (fun _ _ _ h => h.elim)
        (fun _ _ _ h => h)
  · intro e
    apply recalls_ite
    · intro hdup
      exact recalls_pure fun h w hp => ⟨hp.2 hdup, hp.1⟩
    · intro _
      exact recalls_throw fun h w hp => hp.1

/-! ### Runs -/

theorem stable_ranOnce (r : Except AppError (Option α)) (h : Past World) :
    (inboxLogic ω).Stable t (RanOnce t k r h) := by
  cases r with
  | error e => exact .const _
  | ok r =>
    cases r with
    | some a => exact .const _
    | none => exact .and (stable_processed rfl) (.const _)

theorem recalled_inboxSystem (works : ω → InboxWork α) :
    Recalled (inboxSystem works) (inboxLogic ω) (fun _ _ => Unremarked) Idle
      (fun t k r => RanOnce t k r) where
  idle_stable _ := stable_inbox_idle
  post_stable _ _ r h := stable_ranOnce r h
  body t k w _ hi _ := by
    apply wpPast_mono _ (recalls_runOnce (works k.work) [] w ⟨fun _ hx => (nomatch hx), hi⟩)
    intro r h w hr
    cases r with
    | ok a => exact hr
    | error e => exact hr
  env e := nomatch e
  crash _ _ _ _ := ⟨trivial, Store.rollback_frame, .inl Store.rollback_same⟩

end logic

section runs

variable {ω α : Type} {works : ω → InboxWork α} {w : World}
  {ls : List (Label Choice (InboxCall ω) Empty)}
  {c c' : Config World Choice (InboxCall ω) (Except AppError (Option α))}

/-- The work of call `t` was committed in the run. -/
def Committed (works : ω → InboxWork α) (w : World) (ls : List (Label Choice (InboxCall ω) Empty))
    (t : Tid) (k : InboxCall ω) : Prop :=
  ∃ x ∈ (inboxSystem works).past t (.init w) ls, CommitsOnce t k x.1 x.2

/-- Who is responsible for the inbox records. -/
structure Accounted (w : World) (past : Tid → Past World)
    (c : Config World Choice (InboxCall ω) (Except AppError (Option α))) : Prop where
  kept : ∀ key, key.inInbox = true → w.db.rows key ≠ none → c.shared.db.rows key ≠ none
  made : ∀ t k th, c.threads t = some (k, th) → ∀ x ∈ past t, CommitsOnce t k x.1 x.2 →
    w.db.rows k.key = none ∧ c.shared.db.rows k.key ≠ none
  known : ∀ id s, c.shared.db.rows (.inbox id s) ≠ none → w.db.rows (.inbox id s) ≠ none ∨
    ∃ t k th, c.threads t = some (k, th) ∧ k.key = .inbox id s ∧
      ∃ x ∈ past t, CommitsOnce t k x.1 x.2
  once : ∀ t t' k k' th th', c.threads t = some (k, th) → c.threads t' = some (k', th') →
    k.key = k'.key → (∃ x ∈ past t, CommitsOnce t k x.1 x.2) →
    (∃ x ∈ past t', CommitsOnce t' k' x.1 x.2) → t = t'

/-- A step commits nothing, or is the commit of the call that makes it. -/
theorem inbox_step {l : Label Choice (InboxCall ω) Empty} {past : Tid → Past World}
    (hrec : Recollects (inboxSystem works) (inboxLogic ω) (fun _ _ => Unremarked) Idle
      (fun t k r => RanOnce t k r) past c)
    (hn : (inboxSystem works).next c l = some c') :
    c.shared.db.SameCommitted c'.shared.db ∨ ∃ t ch k th, l = .step t ch ∧
      c.threads t = some (k, th) ∧ CommitsOnce t k c.shared c'.shared := by
  have hl : (inboxLogic ω).Admits l := by
    cases l <;> exact trivial
  obtain ⟨-, hm⟩ := hrec.sound.next (recalled_inboxSystem works).verified hl hn
  cases l with
  | start t k =>
    left
    rw [show c'.shared = c.shared from hm]
    exact .refl
  | step t ch =>
    obtain ⟨k, th, ht, -, -, hs | hc⟩ := hm
    · exact .inl hs
    · exact .inr ⟨t, ch, k, th, rfl, ht, hc⟩
  | crash t =>
    left
    simp only [System.next] at hn
    split at hn
    · cases hn
      exact Store.rollback_same
    · cases hn
  | env e => cases e

/-- A call with a past was there before the step. -/
theorem thread_of_past {l : Label Choice (InboxCall ω) Empty} {past : Tid → Past World} {t : Tid}
    {k : InboxCall ω} {th : Thread World Choice (Except AppError (Option α))} {x : World × World}
    (hrec : Recollects (inboxSystem works) (inboxLogic ω) (fun _ _ => Unremarked) Idle
      (fun t k r => RanOnce t k r) past c)
    (hn : (inboxSystem works).next c l = some c') (ht : c'.threads t = some (k, th))
    (hx : x ∈ past t) : ∃ th, c.threads t = some (k, th) := by
  cases hc : c.threads t with
  | none =>
    rw [hrec.fresh t hc] at hx
    cases hx
  | some y =>
    obtain ⟨k', th'⟩ := y
    obtain ⟨th'', ht'⟩ := (inboxSystem works).next_call hn hc
    cases ht.symm.trans ht'
    exact ⟨th', rfl⟩

theorem CommitsOnce.not_same {ω : Type} {t : Tid} {k : InboxCall ω} {w w' : World}
    (hc : CommitsOnce t k w w') : ¬w.db.SameCommitted w'.db :=
  fun hs => hc.record (by rw [hs.1]; exact hc.unprocessed)

theorem Accounted.next {l : Label Choice (InboxCall ω) Empty} {past : Tid → Past World}
    (hrec : Recollects (inboxSystem works) (inboxLogic ω) (fun _ _ => Unremarked) Idle
      (fun t k r => RanOnce t k r) past c)
    (hn : (inboxSystem works).next c l = some c') (ha : Accounted w past c) :
    Accounted w (fun t => past t ++ System.own t c c' l) c' := by
  have old (t : Tid) (k : InboxCall ω) {th} (ht : c'.threads t = some (k, th)) {x : World × World}
      (hx : x ∈ past t) : ∃ th, c.threads t = some (k, th) := thread_of_past hrec hn ht hx
  have own {t : Tid} {x : World × World} (hx : x ∈ System.own t c c' l) :
      x = (c.shared, c'.shared) ∧ ∃ ch, l = .step t ch := by
    cases l with
    | step t' ch =>
      by_cases e : t' = t
      · subst e
        simp only [System.own, if_true, List.mem_singleton] at hx
        exact ⟨hx, ch, rfl⟩
      · simp [System.own, e] at hx
    | _ => cases hx
  have kept (t : Tid) (k : InboxCall ω) {th} (ht : c.threads t = some (k, th)) :
      ∃ th, c'.threads t = some (k, th) := (inboxSystem works).next_call hn ht
  rcases inbox_step hrec hn with hs | ⟨t₀, ch, k₀, th₀, rfl, ht₀, hc⟩
  · have inPast {t : Tid} {k : InboxCall ω} {x : World × World}
        (hx : x ∈ past t ++ System.own t c c' l) (hcx : CommitsOnce t k x.1 x.2) : x ∈ past t := by
      rcases List.mem_append.mp hx with hx | hx
      · exact hx
      · obtain ⟨rfl, -⟩ := own hx
        exact absurd hs hcx.not_same
    refine ⟨fun key hkey hw => ?_, fun t k th ht x hx hcx => ?_, fun id s hs' => ?_,
      fun t t' k k' th th' ht ht' hkey => ?_⟩
    · rw [hs.1]
      exact ha.kept key hkey hw
    · obtain ⟨th', ht'⟩ := old t k ht (inPast hx hcx)
      rw [hs.1]
      exact ha.made t k th' ht' x (inPast hx hcx) hcx
    · rw [hs.1] at hs'
      rcases ha.known id s hs' with hw | ⟨t, k, th, ht, hkey, x, hx, hcx⟩
      · exact .inl hw
      · obtain ⟨th', ht'⟩ := kept t k ht
        exact .inr ⟨t, k, th', ht', hkey, x, List.mem_append_left _ hx, hcx⟩
    · rintro ⟨x, hx, hcx⟩ ⟨y, hy, hcy⟩
      obtain ⟨th₁, ht₁⟩ := old t k ht (inPast hx hcx)
      obtain ⟨th₂, ht₂⟩ := old t' k' ht' (inPast hy hcy)
      exact ha.once t t' k k' th₁ th₂ ht₁ ht₂ hkey ⟨x, inPast hx hcx, hcx⟩ ⟨y, inPast hy hcy, hcy⟩
  · -- The new commit found no record; every earlier one left its own.
    have inPast {t : Tid} {x : World × World} (hx : x ∈ past t ++ System.own t c c'
        (Label.step t₀ ch : Label Choice (InboxCall ω) Empty)) : x ∈ past t ∨ t = t₀ := by
      rcases List.mem_append.mp hx with hx | hx
      · exact .inl hx
      · obtain ⟨-, ch', he⟩ := own hx
        cases he
        exact .inr rfl
    have call {k : InboxCall ω} {th} (ht : c'.threads t₀ = some (k, th)) : k = k₀ := by
      obtain ⟨th', ht'⟩ := kept t₀ k₀ ht₀
      cases ht.symm.trans ht'
      rfl
    have grows {key : Key} (hkey : key.inInbox = true) (hsome : c.shared.db.rows key ≠ none) :
        c'.shared.db.rows key ≠ none := by
      rw [hc.alone key hkey fun e => hsome (e ▸ hc.unprocessed)]
      exact hsome
    have first : w.db.rows k₀.key = none := by
      by_contra hw
      exact ha.kept _ rfl hw hc.unprocessed
    refine ⟨fun key hkey hw => grows hkey (ha.kept key hkey hw), fun t k th ht x hx hcx => ?_,
      fun id s hs' => ?_, fun t t' k k' th th' ht ht' hkey => ?_⟩
    · rcases inPast hx with hx | rfl
      · obtain ⟨th', ht'⟩ := old t k ht hx
        obtain ⟨hw, hsome⟩ := ha.made t k th' ht' x hx hcx
        exact ⟨hw, grows rfl hsome⟩
      · rw [call ht]
        exact ⟨first, hc.record⟩
    · by_cases e : Key.inbox id s = k₀.key
      · obtain ⟨th', ht'⟩ := kept t₀ k₀ ht₀
        refine .inr ⟨t₀, k₀, th', ht', e.symm, (c.shared, c'.shared), ?_, hc⟩
        simp [System.own]
      · rw [hc.alone _ rfl e] at hs'
        rcases ha.known id s hs' with hw | ⟨t, k, th, ht, hkey, x, hx, hcx⟩
        · exact .inl hw
        · obtain ⟨th', ht'⟩ := kept t k ht
          exact .inr ⟨t, k, th', ht', hkey, x, List.mem_append_left _ hx, hcx⟩
    · rintro ⟨x, hx, hcx⟩ ⟨y, hy, hcy⟩
      have clash {t : Tid} {k : InboxCall ω} {th} {x : World × World} (ht : c'.threads t = some (k, th))
          (hx : x ∈ past t) (hcx : CommitsOnce t k x.1 x.2) (hkey : k.key = k₀.key) : False := by
        obtain ⟨th', ht'⟩ := old t k ht hx
        exact (ha.made t k th' ht' x hx hcx).2 (hkey ▸ hc.unprocessed)
      rcases inPast hx with hx' | rfl
      · rcases inPast hy with hy' | rfl
        · obtain ⟨th₁, ht₁⟩ := old t k ht hx'
          obtain ⟨th₂, ht₂⟩ := old t' k' ht' hy'
          exact ha.once t t' k k' th₁ th₂ ht₁ ht₂ hkey ⟨x, hx', hcx⟩ ⟨y, hy', hcy⟩
        · exact (clash ht hx' hcx (hkey.trans (congrArg _ (call ht')))).elim
      · rcases inPast hy with hy' | rfl
        · exact (clash ht' hy' hcy (hkey.symm.trans (congrArg _ (call ht)))).elim
        · rfl

theorem recollects_run (hidle : ∀ t, w.db.txns t = none)
    (h : (inboxSystem works).run (.init w) ls = some c) :
    Recollects (inboxSystem works) (inboxLogic ω) (fun _ _ => Unremarked) Idle
      (fun t k r => RanOnce t k r) (fun t => (inboxSystem works).past t (.init w) ls) c :=
  (recalled_inboxSystem works).run (fun l _ => by cases l <;> exact trivial) h trivial hidle

theorem accounted_run (hidle : ∀ t, w.db.txns t = none)
    (h : (inboxSystem works).run (.init w) ls = some c) :
    Accounted w (fun t => (inboxSystem works).past t (.init w) ls) c := by
  induction ls using List.reverseRecOn generalizing c with
  | nil =>
    cases h
    exact ⟨fun _ _ h => h, fun _ _ _ h => (nomatch h), fun _ _ h => .inl h,
      fun _ _ _ _ _ _ h => (nomatch h)⟩
  | append_singleton ls l ih =>
    obtain ⟨d, hd, hn⟩ := System.run_snoc _ |>.mp h
    have hnext := (ih hd).next (recollects_run hidle hd) hn
    simpa only [System.past_snoc _ hd hn] using hnext

/-- Whatever overlaps and whatever fails, the work of at most one call is committed, together with
the inbox record, and what a call returns says what became of its work. -/
theorem inbox_exactly_once (hidle : ∀ t, w.db.txns t = none)
    (h : (inboxSystem works).run (.init w) ls = some c) :
    (∀ l c', (inboxSystem works).next c l = some c' → c.shared.db.SameCommitted c'.shared.db ∨
      ∃ t ch k th, l = .step t ch ∧ c.threads t = some (k, th) ∧
        CommitsOnce t k c.shared c'.shared) ∧
    (∀ t t' k k' th th', c.threads t = some (k, th) → c.threads t' = some (k', th') →
      k.key = k'.key → Committed works w ls t k → Committed works w ls t' k' → t = t') ∧
    ∀ t k r, c.threads t = some (k, .running (.ret r)) →
      ((∃ a, r = .ok (some a)) ↔ Committed works w ls t k) ∧
      (r = .ok none → w.db.rows k.key ≠ none ∨
        ∃ t' k' th, t' ≠ t ∧ c.threads t' = some (k', th) ∧ k'.key = k.key ∧
          Committed works w ls t' k') := by
  have hrec := recollects_run hidle h
  have hacc := accounted_run hidle h
  refine ⟨fun l c' hn => inbox_step hrec hn, hacc.once, fun t k r ht => ?_⟩
  have hr := hrec.result ht
  have quiet (hq : Quietly ((inboxSystem works).past t (.init w) ls)) :
      ¬Committed works w ls t k := fun ⟨x, hx, hcx⟩ => hcx.not_same (hq x hx)
  match r with
  | .ok (some a) => exact ⟨⟨fun _ => hr, fun _ => ⟨a, rfl⟩⟩, fun he => nomatch he⟩
  | .error e =>
    exact ⟨⟨fun ⟨a, he⟩ => (nomatch he), fun hc => absurd hc (quiet hr)⟩, fun he => nomatch he⟩
  | .ok none =>
    obtain ⟨hsome, hq⟩ := hr
    refine ⟨⟨fun ⟨a, he⟩ => (nomatch he), fun hc => absurd hc (quiet hq)⟩, fun _ => ?_⟩
    rcases hacc.known _ _ hsome with hw | ⟨t', k', th, ht', hkey, hc⟩
    · exact .inl hw
    · refine .inr ⟨t', k', th, fun e => ?_, ht', hkey, hc⟩
      subst e
      cases ht.symm.trans ht'
      exact quiet hq hc

/-! ### Two overlapping deliveries -/

/-- Work that announces something. -/
def announcing : InboxWork Unit where
  run := enqueue .failed (.failed ⟨1, 9, "insufficient_stock"⟩)
  managed := managed_covers.enqueue _ _

def announcement : InboxCall Unit := ⟨5, .inventory, ()⟩

/-- Both calls run the work; the record of call 0 is committed before that of call 1 goes in. -/
def overlapping : List (Label Choice (InboxCall Unit) Empty) :=
  [.start 0 announcement, .start 1 announcement] ++
    List.replicate 4 (.step 0 { fresh := 1 }) ++ List.replicate 3 (.step 1 { fresh := 2 }) ++
    [.step 0 {}, .step 1 {}, .step 1 {}]

/-- What a call that has not thrown has returned. -/
def inboxReply (c : Config World Choice (InboxCall Unit) (Except AppError (Option Unit))) (t : Tid) :
    Option (InboxCall Unit × Bool) :=
  match c.threads t with
  | some (k, .running (.ret (.ok r))) => some (k, r.isSome)
  | _ => none

theorem thread_of_inboxReply {c : Config World Choice (InboxCall Unit) (Except AppError (Option Unit))}
    {t : Tid} {k : InboxCall Unit} {b : Bool} (h : inboxReply c t = some (k, b)) :
    ∃ r, c.threads t = some (k, .running (.ret (.ok r))) ∧ r.isSome = b := by
  unfold inboxReply at h
  split at h
  · next k r ht =>
    cases h
    exact ⟨r, ht, rfl⟩
  · cases h

theorem inbox_exactly_once_overlapping : ∃ c,
    (inboxSystem fun _ => announcing).run (.init (.initial ⟨[], .nil, nofun⟩ true)) overlapping =
      some c ∧
    Committed (fun _ => announcing) (.initial ⟨[], .nil, nofun⟩ true) overlapping 0 announcement ∧
    ¬Committed (fun _ => announcing) (.initial ⟨[], .nil, nofun⟩ true) overlapping 1
      announcement := by
  have hout : ((inboxSystem fun _ => announcing).run (.init (.initial ⟨[], .nil, nofun⟩ true))
      overlapping).map (fun c => (inboxReply c 0, inboxReply c 1)) =
      some (some (announcement, true), some (announcement, false)) := by decide +kernel
  obtain ⟨c, hc, hout⟩ := Option.map_eq_some_iff.mp hout
  simp only [Prod.mk.injEq] at hout
  obtain ⟨r, h0, hr⟩ := thread_of_inboxReply hout.1
  obtain ⟨r', h1, hr'⟩ := thread_of_inboxReply hout.2
  obtain ⟨-, -, hreturned⟩ := inbox_exactly_once (fun _ => rfl) hc
  refine ⟨c, hc, ?_, fun hcommitted => ?_⟩
  · obtain ⟨a, rfl⟩ := Option.isSome_iff_exists.mp hr
    exact (hreturned 0 announcement _ h0).1.mp ⟨a, rfl⟩
  · obtain ⟨a, ha⟩ := (hreturned 1 announcement _ h1).1.mpr hcommitted
    cases ha
    cases hr'

end runs

end OrderLifecycle

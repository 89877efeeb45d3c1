import OrderLifecycle.Pipeline.Record

open Framework

namespace OrderLifecycle.Pipeline

variable {t : Tid} {k : Request} {w w' : World} {α : Type} {m : OutboxMessageEntity} {c : Consumer}
  {o : OrderId} {l : List OrderStatus} {id : Uuid}

/-! ### The inbox -/

/-- An inbox duplicate is one of a row that is there. -/
def Told (id : Uuid) (c : Consumer) (e : AppError) (w : World) : Prop :=
  isInboxDuplicate e = true → Filed id c w

theorem Spoilt.told {e : AppError} (h : Spoilt t e w) : Told id c e w :=
  fun hd => nomatch h.1.symm.trans hd

theorem stable_told (e : AppError) : filingLogic.Stable t (Told id c e) :=
  .imp fun _ => lasting_filed.stable

theorem InTxn.inbox (h : InTxn NoInbox t w) (id : Uuid) (c : Consumer) :
    w.db.view t (.inbox id c) = w.db.rows (.inbox id c) := by
  apply h.clear.view
  intro hk
  cases hk

theorem inTxn_start :
    Hoare filingLogic t k (Clear t) startTransaction (fun _ => InTxn NoInbox t) (Told id c) := by
  apply hoare_stmt stable_clear
  intro w ch r w' _ _ hc hs
  split at hs
  · cases hs
    refine ⟨trivial, guar_aside rfl, ?_⟩
    intro hd
    cases hd
  · cases hs
    refine ⟨trivial, guar_footprint .begin hc, ?_⟩
    have hin := Store.Footprint.begin.within hc
    cases htx : (w.db.begin t).txns t with
    | some tx =>
      refine ⟨tx, htx, fun id c => hin tx htx _ ?_⟩
      intro hk
      cases hk
    | none =>
      cases ht : w.db.txns t with
      | none => exact nomatch htx.symm.trans (Store.begin_txn ht)
      | some tx =>
        have hsame : w.db.begin t = w.db := by
          unfold Store.begin
          split
          · rfl
          · next h => exact nomatch h.symm.trans ht
        rw [hsame, ht] at htx
        cases htx

theorem inTxn_selectInbox :
    Hoare filingLogic t k (InTxn NoInbox t) (selectRow (.inbox id c))
      (fun r w => InTxn NoInbox t w ∧ (r.isSome = true → Filed id c w)) (Spoilt t) := by
  apply hoare_sqlInTxn fun _ h => h
  intro w ch r w' hp hs
  cases hs
  have hno : InTxn NoInbox t w := hp.mono fun _ h => h.1
  refine ⟨.refl, .refl, _, rfl, hno, ?_⟩
  intro hr
  rw [hno.inbox] at hr
  exact Option.isSome_iff_ne_none.mp hr

theorem done_insertInbox {row : Choice → ProcessedMessageEntity} :
    Hoare filingLogic t k (InTxn (Working o l) t) (insertRow (.inbox id c) inboxTable row)
      (fun _ => InTxn (Done id c o l) t) (Told id c) := by
  apply hoare_stmt stable_inTxn
  intro w ch r w' _ _ hp hs
  have hno : InTxn NoInbox t w := hp.mono fun _ h => h.1
  rcases sql_cases hs with ⟨-, rfl, rfl⟩ | ⟨-, -, rfl, rfl⟩ | ⟨ha, -, hr⟩
  · refine ⟨trivial, guar_aside rfl, ?_⟩
    intro hd
    cases hd
  · refine ⟨trivial, guar_same Store.abort_same Store.abort_frame, ?_⟩
    intro hd
    cases hd
  · rcases hr with ⟨b, rfl, hs'⟩ | ⟨e, w₁, rfl, hs', rfl⟩
    · obtain ⟨⟨b', db⟩, hins, he⟩ := Option.map_eq_some_iff.mp hs'
      rcases Store.insert_cases hins with ⟨rfl, -, -⟩ | ⟨rfl, -, hfree, rfl⟩
      · cases he
      · cases he
        obtain ⟨tx, htx, hn, hm⟩ := hp
        obtain ⟨hsame, htx'⟩ := Store.put_txn (some (row ch)) [] hfree htx
        have hsound : tx.aborted = false := by simpa [Store.aborted, htx] using ha
        refine ⟨trivial, guar_same hsame (Store.put_frame (h := hfree)), _, htx', ?_, ?_, hsound, ?_⟩
        · intro id' c' hw
          by_contra hne
          have hkey : Key.inbox id' c' ≠ .inbox id c := by
            intro h
            cases h
            exact hne ⟨rfl, rfl⟩
          exact hw ((Store.write_other _ _ hkey).trans (hn id' c'))
        · exact ⟨_, Store.write_self ..⟩
        · exact hm.write (by simp) _ _
    · obtain ⟨⟨b', db⟩, hins, he⟩ := Option.map_eq_some_iff.mp hs'
      rcases Store.insert_cases hins with ⟨rfl, rfl, hv⟩ | ⟨rfl, -, -, -⟩
      · cases he
        refine ⟨trivial, guar_same Store.abort_same Store.abort_frame, ?_⟩
        intro _
        rw [hno.inbox] at hv
        have hrows : (w.db.abort t).rows = w.db.rows := Store.abort_same.1
        rw [Filed]
        dsimp only
        rwa [hrows]
      · cases he

theorem filed_commit :
    Hoare filingLogic t k (fun w => InTxn NoInbox t w ∧ Filed id c w) commitTransaction
      (fun _ => Filed id c) (Told id c) := by
  apply hoare_stmt (stable_inTxn.and lasting_filed.stable)
  intro w ch r w' _ _ hp hs
  split at hs
  · cases hs
    refine ⟨trivial, guar_same Store.rollback_same Store.rollback_frame, ?_⟩
    intro hd
    cases hd
  · cases hs
    have hg : filingLogic.guar t k w { w with db := w.db.commit t } :=
      guar_footprint .commit hp.1.clear
    exact ⟨trivial, hg, hg.2.kept id c hp.2⟩

/-- The commit that records the message, with what its consumer has made of the order. -/
theorem files_commit (hm : consumerOf m.payload = c) :
    Hoare filingLogic t (.deliver m)
      (InTxn (Done m.id c m.payload.orderId (outcomes m.payload)) t) commitTransaction
      (fun _ => Filed m.id c) (Told m.id c) := by
  apply hoare_stmt stable_inTxn
  intro w ch r w' _ _ hp hs
  split at hs
  · cases hs
    refine ⟨trivial, guar_same Store.rollback_same Store.rollback_frame, ?_⟩
    intro hd
    cases hd
  · cases hs
    obtain ⟨tx, htx, honly, ⟨inbox, hinbox⟩, hsound, hmoves⟩ := hp
    have hrows (key : Key) : (w.db.commit t).rows key = (tx.writes key).getD (w.db.rows key) :=
      Store.commit_rows htx hsound
    have hfiled : Filed m.id c { w with db := w.db.commit t } := by
      have he := hrows (.inbox m.id c)
      rw [hinbox] at he
      exact fun hn => nomatch he.symm.trans hn
    have hmoved : Moved m.payload { w with db := w.db.commit t } := by
      intro hne
      obtain ⟨row, hrow, hst⟩ := hmoves hne
      refine ⟨row, ?_, hst⟩
      have he := hrows (.order m.payload.orderId)
      rw [hrow] at he
      exact he
    have hother (id' : Uuid) (c' : Consumer) (hne : ¬(id' = m.id ∧ c' = c)) :
        (w.db.commit t).rows (.inbox id' c') = w.db.rows (.inbox id' c') := by
      have hnone : tx.writes (.inbox id' c') = none := by
        by_contra hw
        exact hne (honly id' c' hw)
      rw [hrows, hnone, Option.getD_none]
    refine ⟨trivial, ⟨Store.commit_frame, ?_, ?_⟩, hfiled⟩
    · intro id' c' hf
      by_cases e : id' = m.id ∧ c' = c
      · rw [e.1, e.2]
        exact hfiled
      · rw [Filed, hother id' c' e]
        exact hf
    · intro id' c' hf hn
      by_cases e : id' = m.id ∧ c' = c
      · exact ⟨m, rfl, e.1.symm, e.2 ▸ hm, hmoved⟩
      · rw [Filed, hother id' c' e] at hf
        exact absurd hf hn

theorem keeps_rollback {P : World → Prop} {E : AppError → World → Prop} (hP : filingLogic.Stable t P)
    (hrows : ∀ w, P w → P { w with db := w.db.rollback t }) :
    Hoare filingLogic t k P rollbackTransaction (fun _ => P) E := by
  apply hoare_stmt hP
  intro w ch r w' _ _ hp hs
  cases hs
  exact ⟨trivial, guar_same Store.rollback_same Store.rollback_frame, hrows w hp⟩

/-- Whichever way `runOnce` returns, the message is recorded. -/
theorem files_runOnce {work : Service α} (hm : consumerOf m.payload = c)
    (hwork : Works t (.deliver m) m.payload work) :
    Hoare filingLogic t (.deliver m) (Clear t) (runOnce m.id c work) (fun _ => Filed m.id c)
      (fun _ _ => True) := by
  apply hoare_tryCatch (E := Told m.id c)
  · apply hoare_tryCatch (E := Told m.id c)
    · apply hoare_bind inTxn_start
      intro _
      apply hoare_bind (Q := fun _ w => InTxn NoInbox t w ∧ Filed m.id c w ∨
        InTxn (Done m.id c m.payload.orderId (outcomes m.payload)) t w)
      · apply hoare_bind (hoare_conseq inTxn_selectInbox (fun _ h => h) (fun _ _ h => h)
          fun _ _ h => h.told)
        intro existing
        apply hoare_ite
        · intro hsome
          apply hoare_pure
          intro w hw
          exact .inl ⟨hw.1, hw.2 hsome⟩
        · intro _
          apply hoare_bind (hoare_conseq hwork (fun _ h => h.1) (fun _ _ h => h) fun _ _ h => h.told)
          intro _
          apply hoare_bind done_insertInbox
          intro _
          exact hoare_pure fun _ h => .inr h
      · intro result
        apply hoare_bind (hoare_or filed_commit (files_commit hm))
        intro _
        exact hoare_pure fun _ h => h
    · intro e
      apply hoare_bind (keeps_rollback (stable_told e) fun w h => h)
      intro _
      exact hoare_throw fun _ h => h
  · intro e
    apply hoare_ite
    · intro hd
      exact hoare_pure fun _ h => h hd
    · intro _
      exact hoare_throw fun _ _ => trivial

/-! ### The handlers -/

/-- The handler acknowledges and the message is recorded. -/
def Recorded (m : OutboxMessageEntity) (c : Consumer) (r : Handled) (w : World) : Prop :=
  r = .ack ∧ Filed m.id c w

theorem hoare_ack : Hoare filingLogic t k (Filed m.id c) (return .ack : Service Handled)
    (Recorded m c) (fun _ _ => True) :=
  hoare_pure fun _ h => ⟨rfl, h⟩

theorem files_processEventOnce {work : Service α} (hm : consumerOf m.payload = c)
    (hwork : Works t (.deliver m) m.payload work) :
    Hoare filingLogic t (.deliver m) (Clear t) (processEventOnce (some m.id) c work)
      (fun r w => (∃ a, r = .processed a) ∧ Filed m.id c w ∨ r = .skipped ∧ Filed m.id c w)
      (fun _ _ => True) := by
  apply hoare_bind (files_runOnce hm hwork)
  intro ran
  cases ran with
  | none =>
    apply hoare_bind (keeps_record lasting_filed.stable _)
    intro _
    exact hoare_pure fun _ h => .inr ⟨rfl, h⟩
  | some result =>
    apply hoare_bind (keeps_record lasting_filed.stable _)
    intro _
    exact hoare_pure fun _ h => .inl ⟨⟨_, rfl⟩, h⟩

theorem files_reserve {e : OrderCreatedEvent} (hm : m.payload = .created e) :
    Hoare filingLogic t (.deliver m) (Clear t) (reserve e (some m.id)) (Recorded m .inventory)
      (fun _ _ => True) := by
  have hc : consumerOf m.payload = .inventory := by rw [hm]; rfl
  have hwork : Works t (.deliver m) m.payload (reserveWork e) := by
    rw [hm]
    exact works_reserve e
  apply hoare_bind (files_processEventOnce hc hwork)
  intro outcome
  apply hoare_or
  · apply hoare_fact
    intro ha
    obtain ⟨a, rfl⟩ := ha
    cases a with
    | none => exact hoare_ack
    | some p =>
      apply hoare_bind (keeps_record lasting_filed.stable _)
      intro _
      exact hoare_ack
  · apply hoare_fact
    intro ha
    subst ha
    exact hoare_ack

theorem files_authorizeAndAdvance {e : InventoryReservedEvent}
    (hm : m.payload = .inventoryReserved e) :
    Hoare filingLogic t (.deliver m) (Clear t) (authorizeAndAdvance e (some m.id))
      (Recorded m .payment) (fun _ _ => True) := by
  have hc : consumerOf m.payload = .payment := by rw [hm]; rfl
  apply hoare_bind (hoare_conseq (hoare_clear ((writes_gateway fun _ h => h).authorize e)) (fun _ h => h) (fun _ _ h => h)
    fun _ _ _ => trivial)
  intro result
  have hwork : Works t (.deliver m) m.payload (advance e result) := by
    rw [hm]
    exact works_advance e result
  apply hoare_bind (files_runOnce hc hwork)
  intro processed
  cases processed with
  | none =>
    apply hoare_bind (keeps_record lasting_filed.stable _)
    intro _
    exact hoare_ack
  | some _ =>
    apply hoare_bind (keeps_record lasting_filed.stable _)
    intro _
    exact hoare_ack

theorem files_complete {e : PaymentProcessedEvent} (hm : m.payload = .paymentProcessed e) :
    Hoare filingLogic t (.deliver m) (Clear t) (complete e (some m.id)) (Recorded m .completion)
      (fun _ _ => True) := by
  have hc : consumerOf m.payload = .completion := by rw [hm]; rfl
  have hwork : Works t (.deliver m) m.payload (completeWork e) := by
    rw [hm]
    exact works_complete e
  apply hoare_bind (files_processEventOnce hc hwork)
  intro outcome
  apply hoare_or
  · apply hoare_fact
    intro ha
    obtain ⟨a, rfl⟩ := ha
    exact hoare_ack
  · apply hoare_fact
    intro ha
    subst ha
    exact hoare_ack

theorem files_notify (hm : outcomes m.payload = []) :
    Hoare filingLogic t (.deliver m) (Clear t) (notify (some m.id)) (Recorded m email)
      (fun _ _ => True) := by
  have hc : consumerOf m.payload = email := by
    cases he : m.payload with
    | completed e => rfl
    | failed e => rfl
    | _ =>
      rw [he] at hm
      cases hm
  apply hoare_bind (files_processEventOnce hc (works_notify hm))
  intro outcome
  apply hoare_or
  · apply hoare_fact
    intro ha
    obtain ⟨a, rfl⟩ := ha
    exact hoare_ack
  · apply hoare_fact
    intro ha
    subst ha
    exact hoare_ack

/-! ### The whole system -/

/-- A delivery that has returned has acknowledged, and its message is recorded. -/
def Handles : Tid → Request → Except AppError Reply → World → Prop
  | _, .deliver m, .ok r, w => r = .handled .ack ∧ Filed m.id (consumerOf m.payload) w
  | _, _, _, _ => True

theorem files_handle : Hoare filingLogic t (.deliver m) (Clear t) (handle m)
    (Recorded m (consumerOf m.payload)) (fun _ _ => True) := by
  unfold handle
  split
  · next e he =>
    rw [he]
    exact files_reserve he
  · next e he =>
    rw [he]
    exact files_authorizeAndAdvance he
  · next e he =>
    rw [he]
    exact files_complete he
  · next e he =>
    rw [he]
    exact files_notify (by rw [he]; rfl)
  · next e he =>
    rw [he]
    exact files_notify (by rw [he]; rfl)

theorem stable_handles (k : Request) (r : Except AppError Reply) :
    filingLogic.Stable t (Handles t k r) := by
  intro w w' hr hh
  cases k with
  | deliver m =>
    cases r with
    | ok r => exact ⟨hh.1, lasting_filed.stable w w' hr hh.2⟩
    | error e => trivial
  | _ => trivial

theorem filed_orderSystem : Verified orderSystem filingLogic Idle Handles where
  idle_stable t := stable_own fun _ _ _ hne hf h => (hf.txns _ hne).trans h
  post_stable _ := stable_handles
  body := by
    intro t k w _ hidle _
    have hclear : Clear t w := .of_idle hidle
    by_cases hk : ∃ m, k = .deliver m
    · obtain ⟨m, rfl⟩ := hk
      apply wp_mono _ (hoare_bind files_handle (R := fun r w => Handles t (.deliver m) (.ok r) w)
        (fun a => hoare_pure fun w hw => ⟨congrArg Reply.handled hw.1, hw.2⟩) w hclear)
      intro r w hr
      cases r with
      | ok a => exact hr
      | error e => trivial
    · have hx := writes_respond (k := k) (fun _ h => h) fun m hm => hk ⟨m, hm⟩
      apply wp_mono _ (hoare_clear hx w hclear)
      intro r w _
      cases k with
      | deliver m => exact absurd ⟨m, rfl⟩ hk
      | _ => trivial
  env := by
    intro e w w' _ h
    refine ⟨trivial, ?_⟩
    cases e with
    | relay id =>
      obtain ⟨row, -, rfl⟩ := Option.map_eq_some_iff.mp h
      rfl
    | expire key =>
      cases h
      rfl
  crash t k w _ := ⟨trivial, guar_same Store.rollback_same Store.rollback_frame⟩

end OrderLifecycle.Pipeline

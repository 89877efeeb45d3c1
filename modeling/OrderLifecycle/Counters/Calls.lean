import OrderLifecycle.Counters.Tally

open Framework

namespace OrderLifecycle

/-- What the counter itself counts when an order reaches the status: all but the failures, which
wait for the commit. -/
def counted (status : OrderStatus) (b : Counter) : Int :=
  if b = .failures then 0 else unit status b

/-- What is missing once the order is committed. -/
def owed (status : OrderStatus) (b : Counter) : Int := counted status b - unit status b

/-- The table and the counters agree, as far as `t` goes. -/
abbrev Tallied (t : Tid) : Assertion := Closed t fun _ => 0

/-- The transaction has brought an order into the status, and counted it. -/
abbrev Reached (t : Tid) (status : OrderStatus) : Assertion :=
  Opened t (unit status) (counted status)

variable {t : Tid} {k : Request} {h : Past World} {w w' : World} {α β : Type} {b : Counter}
  {g d n : Counter → Int} {P : Assertion} {Q : β → Assertion} {E : AppError → Assertion}
  {s status source target : OrderStatus}

/-! ### What is counted -/

theorem unit_nonneg (status : OrderStatus) (b : Counter) : 0 ≤ unit status b := by
  unfold unit
  split <;> decide

theorem unit_open (hs : isTerminalStatus status = false) (b : Counter) : unit status b = 0 := by
  unfold unit
  rw [if_neg]
  intro e
  rw [← e, b.status_terminal] at hs
  cases hs

theorem counted_open (hs : isTerminalStatus status = false) (b : Counter) :
    counted status b = 0 := by
  unfold counted
  split
  · rfl
  · exact unit_open hs b

theorem counted_of_unit (hu : unit status b = 0) : counted status b = 0 := by
  unfold counted
  split
  · rfl
  · exact hu

theorem owed_eq (status : OrderStatus) (b : Counter) :
    owed status b = if b = .failures ∧ status = .failed then -1 else 0 := by
  cases b <;> cases status <;> decide

theorem owed_other (hs : status ≠ .failed) : owed status = fun _ => 0 := by
  funext b
  rw [owed_eq, if_neg fun he => hs he.2]

theorem owed_pending : owed .pending = fun _ => 0 := owed_other (by decide)

/-- An order that may still change is not terminal. -/
theorem open_of_allowed (ha : isTransitionAllowed source target = true) :
    isTerminalStatus source = false := by
  cases hs : isTerminalStatus source with
  | false => rfl
  | true =>
    rw [not_allowed_of_terminal hs] at ha
    cases ha

theorem mem_stageTimings {order : OrderEntity} {now : Nat} {m : Metric}
    (hm : m ∈ stageTimings order source target now) : ∃ stage ms, m = .orderStage stage ms := by
  unfold stageTimings at hm
  dsimp only at hm
  split at hm
  · exact ⟨_, _, List.mem_singleton.mp hm⟩
  · obtain ⟨ms, -, rfl⟩ := List.mem_map.mp hm
    exact ⟨_, _, rfl⟩
  · obtain he | hm := List.mem_cons.mp hm
    · exact ⟨_, _, he⟩
    · obtain ⟨ms, -, rfl⟩ := List.mem_map.mp hm
      exact ⟨_, _, rfl⟩
  · cases hm

theorem countP_terminal (order : OrderEntity) (source target : OrderStatus) (now : Nat)
    (b : Counter) :
    (((terminalStateLabel target).toList.map Metric.terminalState ++
      stageTimings order source target now).countP b.counts : Int) = counted target b := by
  have hstage : (stageTimings order source target now).countP b.counts = 0 := by
    rw [List.countP_eq_zero]
    intro m hm
    obtain ⟨stage, ms, rfl⟩ := mem_stageTimings hm
    cases b <;> exact nofun
  rw [List.countP_append, hstage]
  cases target <;> cases b <;> decide

/-! ### Statements -/

/-- An `UPDATE`, which changes a row or leaves everything as it is. -/
theorem tallies_updateRow {key : Key} {p : Row key → Bool} {f : Choice → Row key → Row key}
    {deeds : Row key → List Deed} {Q : Nat → Assertion} (hP : Steady t P)
    (hnone : ∀ h w, P h w → Q 0 (h ++ [(w, w)]) w)
    (hone : ∀ h w ch row hfree, P h w → w.db.view t key = some row → p row = true →
      let w' := { w with
        db := w.db.put t key (some (f ch row)) ((deeds row).map (Prod.mk t)) hfree }
      Q 1 (h ++ [(w, w')]) w') :
    Tallies t k P (updateRow key p f deeds) Q fun _ => P := by
  apply tallies_stmt (calm_covers.updateRow trivial p f deeds) hP.stable
  intro h w ch r w' hp _ hs
  have hsame : Neutral t w w := .of_db rfl fun _ => rfl
  obtain ⟨-, rfl, rfl⟩ | ⟨-, -, rfl, rfl⟩ | ⟨-, -, ⟨a, rfl, hs'⟩ | ⟨e, w₁, rfl, hs', rfl⟩⟩ :=
    sql_cases hs
  · exact hP.neutral h _ _ hsame hp
  · exact hP.neutral h _ _ .abort hp
  · obtain ⟨he, rfl, -⟩ | ⟨he, row, hfree, hv, hrow, rfl⟩ := updateRow_cases hs'
    · cases he
      exact hnone h _ hp
    · cases he
      exact hone h w ch row hfree hp hv hrow
  · obtain ⟨he, -, -⟩ | ⟨he, -⟩ := updateRow_cases hs'
    · cases he
    · cases he

/-- The cache reports no errors. -/
theorem tallies_cacheDel (hP : Steady t P) (keys : List CacheKey) :
    Tallies t k P (cacheDel keys) (fun _ => P) E := by
  apply tallies_stmt (calm_cacheDel keys) hP.stable
  intro h w ch r w' hp _ hs
  cases hs
  apply hP.neutral h w _ _ hp
  split
  · exact .of_db rfl fun _ => rfl
  · exact .of_db rfl fun _ => rfl

theorem drift_record (ms : List Metric) (b : Counter) :
    (h ++ [(w, { w with metrics := w.metrics ++ ms })]).drift (imbalance b) =
      h.drift (imbalance b) + ms.countP b.counts := by
  rw [drift_snoc]
  simp only [imbalance, List.countP_append]
  push_cast
  omega

theorem tallies_record_closed {f : Nat → List Metric}
    (hf : ∀ now b, ((f now).countP b.counts : Int) = n b) :
    Tallies t k (Closed t d) (record f) (fun _ => Closed t fun b => d b + n b) E := by
  apply tallies_stmt (calm_covers.record f) steady_closed.stable
  intro h w ch r w' hp _ hs
  cases hs
  refine ⟨hp.idle, ?_⟩
  intro b
  rw [drift_record, hp.drift, hf]

theorem tallies_record_opened {f : Nat → List Metric}
    (hf : ∀ now b, ((f now).countP b.counts : Int) = n b) :
    Tallies t k (Opened t g d) (record f) (fun _ => Opened t g fun b => d b + n b) E := by
  apply tallies_stmt (calm_covers.record f) steady_opened.stable
  intro h w ch r w' hp _ hs
  cases hs
  refine ⟨hp.txn, hp.gain, ?_⟩
  intro b
  rw [drift_record, hp.drift, hf]

/-! ### Transactions -/

theorem tallies_start :
    Tallies t k (Tallied t) startTransaction (fun _ => Reached t .pending) fun _ => Tallied t := by
  apply tallies_stmt calm_transaction.start steady_closed.stable
  intro h w ch r w' hp _ hs
  split at hs
  · cases hs
    have hsame : Neutral t w w := .of_db rfl fun _ => rfl
    exact steady_closed.neutral h _ _ hsame hp
  · cases hs
    have hrows : (w.db.begin t).rows = w.db.rows := Store.begin_same.1
    have hview : (w.db.begin t).view t = w.db.rows := by
      funext key
      rw [Store.begin_view, Store.view_idle hp.idle]
    refine ⟨?_, ?_, ?_⟩
    · simp [Store.begin_txn hp.idle]
    · intro b
      rw [unit_open rfl]
      simp [gain, hrows, hview]
    · intro b
      have hb : imbalance b { w with db := w.db.begin t } = imbalance b w := by
        simp [imbalance, hrows]
      rw [drift_still hb, hp.drift, counted_open rfl]

/-- A terminal order of a transaction that ends is there afterwards. -/
theorem kept_terminal (hsane : rollsBackTerminal t w w' = false) (htxn : w.db.txns t ≠ none)
    (hend : w'.db.txns t = none) : b.orders (w.db.view t) ⊆ b.orders w'.db.rows := by
  intro o ho
  obtain ⟨row, hrow, hst⟩ := ho
  have hview : w.db.view t (.order o) ≠ none := by
    rw [hrow]
    exact Option.some_ne_none row
  have hopen : (w.db.txns t).isSome = true := Option.isSome_iff_ne_none.mpr htxn
  have hnone := hsane
  simp only [rollsBackTerminal, hopen, hend, Option.isNone_none, Bool.true_and,
    List.any_eq_false] at hnone
  have hkept := hnone _ (mem_keys_of_view hview)
  simp only [hrow, losesTerminal, hst, b.status_terminal, Bool.true_and, decide_eq_true_eq,
    not_not] at hkept
  exact ⟨row, hkept, hst⟩

/-- So a transaction that is rolled back has made none terminal. -/
theorem unit_undone (hp : Opened t (unit status) d h w)
    (hsane : rollsBackTerminal t w w' = false) (hend : w'.db.txns t = none)
    (hrows : w'.db.rows = w.db.rows) (b : Counter) : unit status b = 0 := by
  have hsub := kept_terminal (b := b) hsane hp.txn hend
  rw [hrows] at hsub
  have hle := Set.ncard_le_ncard hsub (rows_finite b w)
  have hgain := hp.gain b
  have hpos := unit_nonneg status b
  unfold gain at hgain
  omega

theorem tallies_commit :
    Tallies t k (Reached t status) commitTransaction (fun _ => Closed t (owed status))
      fun _ => Tallied t := by
  apply tallies_stmt calm_transaction.commit steady_opened.stable
  intro h w ch r w' hp hsane hs
  split at hs
  · cases hs
    have hzero := unit_undone hp hsane Store.rollback_txn rfl
    refine ⟨Store.rollback_txn, ?_⟩
    intro b
    have hb : imbalance b { w with db := w.db.rollback t } = imbalance b w := rfl
    rw [drift_still hb, hp.drift, counted_of_unit (hzero b)]
  · cases hs
    have hend : (w.db.commit t).txns t = none := Store.commit_txn
    refine ⟨hend, ?_⟩
    intro b
    obtain hrows | hrows := Store.commit_cases (s := w.db) (t := t)
    · have hzero := unit_undone hp hsane hend hrows b
      have hb : imbalance b { w with db := w.db.commit t } = imbalance b w := by
        simp [imbalance, hrows]
      rw [drift_still hb, hp.drift, owed, hzero]
      omega
    · have hgain := hp.gain b
      unfold gain at hgain
      rw [drift_snoc, hp.drift, owed]
      simp only [imbalance, hrows]
      omega

theorem tallies_rollback :
    Tallies t k (fun h w => Tallied t h w ∨ ∃ status, Reached t status h w) rollbackTransaction
      (fun _ => Tallied t) E := by
  have hstable (h : Past World) :
      readLogic.Stable t fun w => Tallied t h w ∨ ∃ status, Reached t status h w := by
    intro w w' hr hp
    obtain hp | ⟨status, hp⟩ := hp
    · exact .inl (steady_closed.stable h w w' hr hp)
    · exact .inr ⟨status, steady_opened.stable h w w' hr hp⟩
  apply tallies_stmt calm_transaction.rollback hstable
  intro h w ch r w' hp hsane hs
  cases hs
  refine ⟨Store.rollback_txn, ?_⟩
  intro b
  have hb : imbalance b { w with db := w.db.rollback t } = imbalance b w := rfl
  rw [drift_still hb]
  obtain hp | ⟨status, hp⟩ := hp
  · exact hp.drift b
  · have hzero := unit_undone hp hsane Store.rollback_txn rfl b
    rw [hp.drift, counted_of_unit hzero]

theorem tallies_transaction {work : Service α} {f : α → OrderStatus}
    (hwork : Tallies t k (Reached t .pending) work (fun a => Reached t (f a))
      fun _ h w => ∃ status, Reached t status h w) :
    Tallies t k (Tallied t) (transaction work) (fun a => Closed t (owed (f a)))
      fun _ => Tallied t := by
  apply tallies_tryCatch (E := fun _ h w => Tallied t h w ∨ ∃ status, Reached t status h w)
  · apply tallies_bind (tallies_raise tallies_start fun _ _ _ he => .inl he)
    intro _
    apply tallies_bind (tallies_raise hwork fun _ _ _ he => .inr he)
    intro a
    apply tallies_bind (tallies_raise tallies_commit fun _ _ _ he => .inl he)
    intro _
    exact tallies_pure fun _ _ hp => hp
  · intro e
    apply tallies_bind tallies_rollback
    intro _
    exact tallies_throw fun _ _ hp => hp

/-! ### Transitions -/

/-- The order changes its status in the transaction; it is counted by the next statement. -/
theorem tallies_updateStatus (o : OrderId) (hs : isTerminalStatus source = false) :
    Tallies t k (Reached t .pending) (updateStatus o source target)
      (fun n => if n = 0 then Reached t .pending else Opened t (unit target) fun _ => 0)
      fun _ => Reached t .pending := by
  apply tallies_updateRow steady_opened
  · intro h w hp
    have hsame : Neutral t w w := .of_db rfl fun _ => rfl
    exact steady_opened.neutral h w w hsame hp
  · intro h w ch row hfree hp hv hrow
    have hst : OrderEntity.status row = source := by simpa using hrow
    cases htx : w.db.txns t with
    | none => exact absurd htx hp.txn
    | some tx =>
      let moved : OrderEntity :=
        { (row : OrderEntity) with status := target, updatedAt := .date ch.now }
      obtain ⟨hsame, htxn⟩ := Store.put_txn (k := .order o) (some moved) [] hfree htx
      refine ⟨?_, ?_, ?_⟩
      · intro hnone
        cases htxn.symm.trans hnone
      · intro b
        have hold : ∀ old : OrderEntity, w.db.view t (.order o) = some old →
            isTerminalStatus old.status = false := by
          intro old hold
          cases hv.symm.trans hold
          rw [hst, hs]
        have hup : ((b.orders (Function.update (w.db.view t) (.order o) (some moved))).ncard : Int) =
            (b.orders (w.db.view t)).ncard + unit target b :=
          ncard_update (view_finite b t w) hold
        have hgain := hp.gain b
        rw [unit_open rfl] at hgain
        change ((b.orders ((w.db.put t (.order o) (some moved) [] hfree).view t)).ncard : Int) -
          (b.orders (w.db.put t (.order o) (some moved) [] hfree).rows).ncard = _
        rw [hsame.1, Store.put_view, hup]
        unfold gain at hgain
        omega
      · intro b
        have hb : imbalance b { w with db := w.db.put t (.order o) (some moved) [] hfree } =
            imbalance b w := by
          simp only [imbalance, hsame.1]
        exact (drift_still hb).trans ((hp.drift b).trans (counted_open rfl b))

theorem tallies_transitionOrder (o : OrderId) (target : OrderStatus) :
    Tallies t k (Reached t .pending) (transitionOrder o target) (fun _ => Reached t target)
      fun _ => Reached t .pending := by
  apply tallies_bind (tallies_neutral (permits_neutral.selectRow _) steady_opened)
  intro order
  cases (order : Option OrderEntity) with
  | none => exact tallies_throw fun _ _ hp => hp
  | some order =>
    apply tallies_ite
    · intro _
      exact tallies_throw fun _ _ hp => hp
    · intro hallowed
      have hedge : isTransitionAllowed order.status target = true := by simpa using hallowed
      have hs : isTerminalStatus order.status = false := open_of_allowed hedge
      apply tallies_bind (tallies_updateStatus o hs)
      intro affected
      apply tallies_ite
      · intro hnone
        rw [if_pos hnone]
        exact tallies_throw fun _ _ hp => hp
      · intro hone
        rw [if_neg hone]
        have hcount := tallies_record_opened (t := t) (k := k) (g := unit target)
          (d := fun _ => 0) (n := counted target) (E := fun _ => Reached t .pending)
          fun now b => countP_terminal order order.status target now b
        simp only [zero_add] at hcount
        apply tallies_bind hcount
        intro _
        apply tallies_bind (tallies_cacheDel steady_opened _)
        intro _
        exact tallies_pure fun _ _ hp => hp

/-! ### Consumers -/

/-- How far a transaction has come when it fails. -/
abbrev Somewhere (t : Tid) (_ : AppError) : Assertion := fun h w => ∃ status, Reached t status h w

theorem tallies_enqueue (key : RoutingKey) (payload : OrderEvent) :
    Tallies t k (Reached t status) (enqueue key payload) (fun _ => Reached t status)
      (Somewhere t) :=
  tallies_raise (tallies_neutral (neutral_enqueue key payload) steady_opened)
    fun _ _ _ hp => ⟨status, hp⟩

theorem tallies_reserveWork (event : OrderCreatedEvent) :
    Tallies t k (Reached t .pending) (reserveWork event)
      (fun short => Reached t (if short.isSome then .failed else .reserved)) (Somewhere t) := by
  apply tallies_tryCatch (E := fun _ => Reached t .pending)
  · apply tallies_bind (tallies_neutral (neutral_stock.reserveLines _ _ _) steady_opened)
    intro _
    apply tallies_bind (tallies_transitionOrder _ _)
    intro _
    exact tallies_pure fun _ _ hp => hp
  · intro e
    split
    · apply tallies_bind (tallies_raise (tallies_transitionOrder _ _) fun _ _ _ hp => ⟨.pending, hp⟩)
      intro _
      apply tallies_bind (tallies_enqueue _ _)
      intro _
      exact tallies_pure fun _ _ hp => hp
    · exact tallies_throw fun _ _ hp => ⟨.pending, hp⟩

theorem tallies_advance (event : InventoryReservedEvent) (result : PaymentResult) :
    Tallies t k (Reached t .pending) (advance event result)
      (fun _ => Reached t (if result.authorized then .paid else .failed)) (Somewhere t) := by
  apply tallies_bind (tallies_raise (tallies_transitionOrder _ _) fun _ _ _ hp => ⟨.pending, hp⟩)
  intro _
  apply tallies_ite
  · intro _
    exact tallies_enqueue _ _
  · intro _
    exact tallies_enqueue _ _

theorem tallies_completeWork (event : PaymentProcessedEvent) :
    Tallies t k (Reached t .pending) (completeWork event) (fun _ => Reached t .completed)
      (Somewhere t) := by
  apply tallies_bind (tallies_raise (tallies_transitionOrder _ _) fun _ _ _ hp => ⟨.pending, hp⟩)
  intro _
  exact tallies_enqueue _ _

theorem tallies_runOnce {messageId : Uuid} {consumer : Consumer} {work : Service α}
    {f : α → OrderStatus}
    (hwork : Tallies t k (Reached t .pending) work (fun a => Reached t (f a)) (Somewhere t)) :
    Tallies t k (Tallied t) (runOnce messageId consumer work)
      (fun ran => Closed t (owed (ran.elim .pending f))) fun _ => Tallied t := by
  apply tallies_tryCatch (E := fun _ => Tallied t)
  · apply tallies_transaction
    apply tallies_bind
    · exact tallies_raise (tallies_neutral (permits_neutral.selectRow _) steady_opened)
        fun _ _ _ hp => ⟨.pending, hp⟩
    · intro existing
      apply tallies_ite
      · intro _
        exact tallies_pure fun _ _ hp => hp
      · intro _
        apply tallies_bind hwork
        intro a
        have hkey : NoOrder (.inbox messageId consumer) := fun _ => nofun
        apply tallies_bind
        · exact tallies_raise
            (tallies_neutral (permits_neutral.insertRow hkey inboxTable _) steady_opened)
            fun _ _ _ hp => ⟨f a, hp⟩
        · intro _
          exact tallies_pure fun _ _ hp => hp
  · intro e
    apply tallies_ite
    · intro _
      apply tallies_pure
      intro h w hp
      rw [Option.elim_none, owed_pending]
      exact hp
    · intro _
      exact tallies_throw fun _ _ hp => hp

theorem tallies_outcome (consumer : Consumer) (outcome : String) :
    Tallies t k (Closed t d) (recordMetric (.consumerOutcome consumer outcome))
      (fun _ => Closed t d) fun _ => Tallied t := by
  have hcount := tallies_record_closed (t := t) (k := k) (d := d) (n := fun _ => 0)
    (f := fun _ => [.consumerOutcome consumer outcome]) (E := fun _ => Tallied t)
    fun _ b => by cases b <;> rfl
  simp only [add_zero] at hcount
  exact hcount

theorem tallies_processEventOnce {messageId : Uuid} {consumer : Consumer} {work : Service α}
    {f : α → OrderStatus}
    (hwork : Tallies t k (Reached t .pending) work (fun a => Reached t (f a)) (Somewhere t)) :
    Tallies t k (Tallied t) (processEventOnce (some messageId) consumer work)
      (fun outcome => match outcome with
        | .processed a => Closed t (owed (f a))
        | _ => Tallied t) fun _ => Tallied t := by
  apply tallies_bind (tallies_runOnce hwork)
  intro ran
  cases ran with
  | none =>
    rw [Option.elim_none, owed_pending]
    apply tallies_bind (tallies_outcome _ _)
    intro _
    exact tallies_pure fun _ _ hp => hp
  | some a =>
    apply tallies_bind (tallies_outcome _ _)
    intro _
    exact tallies_pure fun _ _ hp => hp

/-- The reason is counted once the `FAILED` order is committed. -/
theorem owed_failed (b : Counter) :
    owed .failed b + (if b = .failures then 1 else 0) = 0 := by
  cases b <;> decide

theorem tallies_reserve (event : OrderCreatedEvent) (messageId : Uuid) :
    Tallies t k (Tallied t) (reserve event (some messageId)) (fun _ => Tallied t)
      fun _ => Tallied t := by
  apply tallies_bind (tallies_processEventOnce (tallies_reserveWork event))
  intro outcome
  match outcome with
  | .nack => exact tallies_pure fun _ _ hp => hp
  | .skipped => exact tallies_pure fun _ _ hp => hp
  | .processed none =>
    apply tallies_pure
    intro h w hp
    have hp' : Closed t (owed .reserved) h w := hp
    rw [owed_other (by decide)] at hp'
    exact hp'
  | .processed (some _) =>
    change Tallies t k (Closed t (owed .failed)) _ _ _
    apply tallies_bind
    · exact tallies_record_closed (n := fun b => if b = .failures then 1 else 0)
        fun _ b => by cases b <;> rfl
    · intro _
      apply tallies_pure
      intro h w hp
      simpa only [owed_failed] using hp

theorem tallies_authorizeAndAdvance (event : InventoryReservedEvent) (messageId : Uuid) :
    Tallies t k (Tallied t) (authorizeAndAdvance event (some messageId)) (fun _ => Tallied t)
      fun _ => Tallied t := by
  apply tallies_bind (tallies_neutral (neutral_gateway.authorize event) steady_closed)
  intro result
  apply tallies_bind (tallies_runOnce (tallies_advance event result))
  intro processed
  cases processed with
  | none =>
    rw [Option.elim_none, owed_pending]
    apply tallies_bind (tallies_outcome _ _)
    intro _
    exact tallies_pure fun _ _ hp => hp
  | some _ =>
    rw [Option.elim_some]
    apply tallies_bind
    · exact tallies_record_closed
        (n := fun b => if b = .failures ∧ result.authorized = false then 1 else 0)
        fun _ b => by
          cases ha : result.authorized <;> cases b <;> rfl
    · intro _
      apply tallies_pure
      intro h w hp
      cases ha : result.authorized with
      | true => simpa [ha, owed_other] using hp
      | false => simpa [ha, owed_failed] using hp

theorem tallies_complete (event : PaymentProcessedEvent) (messageId : Uuid) :
    Tallies t k (Tallied t) (complete event (some messageId)) (fun _ => Tallied t)
      fun _ => Tallied t := by
  apply tallies_bind (tallies_processEventOnce (tallies_completeWork event))
  intro outcome
  match outcome with
  | .nack => exact tallies_pure fun _ _ hp => hp
  | .skipped => exact tallies_pure fun _ _ hp => hp
  | .processed _ =>
    apply tallies_pure
    intro h w hp
    have hp' : Closed t (owed .completed) h w := hp
    rw [owed_other (by decide)] at hp'
    exact hp'

theorem tallies_notify (messageId : Uuid) :
    Tallies t k (Tallied t) (notify (some messageId)) (fun _ => Tallied t) fun _ => Tallied t := by
  have hwork : Tallies t k (Reached t .pending) (pure () : Service Unit)
      (fun _ => Reached t .pending) (Somewhere t) := tallies_pure fun _ _ hp => hp
  apply tallies_bind (tallies_processEventOnce hwork)
  intro outcome
  match outcome with
  | .nack => exact tallies_pure fun _ _ hp => hp
  | .skipped => exact tallies_pure fun _ _ hp => hp
  | .processed _ =>
    apply tallies_pure
    intro h w hp
    have hp' : Closed t (owed .pending) h w := hp
    rw [owed_pending] at hp'
    exact hp'

theorem tallies_handle (message : OutboxMessageEntity) :
    Tallies t k (Tallied t) (handle message) (fun _ => Tallied t) fun _ => Tallied t := by
  unfold handle
  split
  · exact tallies_reserve _ _
  · exact tallies_authorizeAndAdvance _ _
  · exact tallies_complete _ _
  · exact tallies_notify _
  · exact tallies_notify _

end OrderLifecycle

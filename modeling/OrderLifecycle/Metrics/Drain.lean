import OrderLifecycle.Metrics.Buffer

namespace OrderLifecycle.Metrics.Service

variable {s s' : Service} {m : Move}

/-- Whenever `onModuleDestroy`, called now, has returned, the inserts hold the samples, each once and in
order, and all have settled. -/
def DrainsOnShutdown (s : Service) (samples : List MetricEventEntity) : Prop :=
  ∀ later s', s.run (.destroy :: later) = some s' → s'.shutdown = .done →
    s'.inserts.flatten = samples ∧ s'.pending = []

/-! ### The shutdown of a service that no flush overtakes -/

/-- The shutdown awaits the only flush, after which less than a batch is left. -/
structure Awaiting (s : Service) (id : Nat) : Prop where
  shutdown : s.shutdown = .flush id
  live : s.live = [.flush id]
  armed : s.armed = []
  buffer : s.buffer.length < 500

/-- The loop alone writes. A timer may be set for what one batch holds, before the loop goes on. -/
structure Looping (s : Service) : Prop where
  shutdown : s.shutdown = .loop
  live : s.live = [.shutdown]
  timer : s.armed = [] ∨ s.jobs ≠ [] ∧ s.buffer.length < 500

/-- The loop has taken the last rows. A timer may still fire, and finds none. -/
structure Emptied (s : Service) : Prop where
  buffer : s.buffer = []
  pending : ∀ p ∈ s.pending, p.2 = .shutdown
  shutdown : s.shutdown = .loop ∧ s.live.count .shutdown = 1 ∨
    s.shutdown = .done ∧ s.live.count .shutdown = 0

def Closing (s : Service) : Prop := (∃ id, Awaiting s id) ∨ Looping s ∨ Emptied s

/-- What holds from the call of `onModuleDestroy` on. -/
structure Draining (s : Service) : Prop where
  sink : s.sink = false
  phase : Closing s

theorem onModuleDestroy_draining (h : Buffered s)
    (hfree : ¬ (s.flushing.isSome ∧ 500 ≤ s.buffer.length)) : Draining s.onModuleDestroy := by
  unfold onModuleDestroy
  obtain ⟨id, h⟩ | h | ⟨id, h⟩ := h.phase
  · have hless : s.buffer.length < 500 := by
      have hsome : s.flushing.isSome := by simp [h.flushing]
      exact Nat.lt_of_not_le fun hle => hfree ⟨hsome, hle⟩
    simp only [clearTimeout, h.flushing]
    refine ⟨rfl, Or.inl ⟨id, rfl, h.live, ?_, hless⟩⟩
    simp [h.armed]
  · have hlive := List.append_eq_nil_iff.mp h.live
    simp only [clearTimeout, h.flushing]
    refine ⟨rfl, Or.inr (Or.inl ⟨rfl, ?_, Or.inl ?_⟩)⟩
    · simp [live, enqueue, Job.owner, hlive]
    · simp [enqueue, h.armed]
  · have hlive := List.append_eq_nil_iff.mp h.live
    simp only [clearTimeout, h.flushing]
    refine ⟨rfl, Or.inr (Or.inl ⟨rfl, ?_, Or.inl ?_⟩)⟩
    · simp [live, enqueue, Job.owner, hlive]
    · simp [enqueue, h.armed, h.timer]

theorem jobs_nil (hlive : s.live = []) : s.jobs = [] ∧ s.pending = [] := by
  obtain ⟨hjobs, hpending⟩ := List.append_eq_nil_iff.mp hlive
  exact ⟨List.map_eq_nil_iff.mp hjobs, List.map_eq_nil_iff.mp hpending⟩

/-- The awaited flush returns: its callback finds less than a batch, and the loop begins. -/
theorem Awaiting.onFinally {id flush : Nat} (h : Awaiting s id) (hjob : .onFinally flush ∈ s.jobs) :
    Looping ({ s with jobs := s.jobs.erase (.onFinally flush) }.runJob (.onFinally flush)) := by
  obtain ⟨howner, hlive⟩ := live_single h.live hjob
  obtain ⟨hjobs, hpending⟩ := jobs_nil hlive
  have hid : flush = id := by simpa [Job.owner] using howner
  have hless : ¬ flushAtRows ≤ s.buffer.length := Nat.not_le_of_lt h.buffer
  subst hid
  simp only at hjobs hpending
  simp only [runJob, onFinally_eq, if_neg hless]
  split
  · simp only [setTimeout, h.shutdown, if_true]
    refine ⟨rfl, ?_, Or.inr ⟨?_, h.buffer⟩⟩
    · simp [Service.live, enqueue, hjobs, hpending, Job.owner]
    · simp [enqueue]
  · simp only [h.shutdown, if_true]
    refine ⟨rfl, ?_, Or.inr ⟨?_, h.buffer⟩⟩
    · simp [Service.live, enqueue, hjobs, hpending, Job.owner]
    · simp [enqueue]

theorem Awaiting.next {id : Nat} (h : Awaiting s id) (hsink : s.sink = false)
    (hnext : s.next m = some s') : Closing s' := by
  cases m with
  | record metric value labels => simp [Service.next, hsink] at hnext
  | clock ms =>
    cases hnext
    exact Or.inl ⟨id, h.1, h.2, h.3, h.4⟩
  | fire timer =>
    have harmed := (fire_cases hnext).1
    simp [h.armed] at harmed
  | settle i ok =>
    obtain ⟨p, -, rfl, hperm⟩ := settle_cases hnext
    rw [h.live] at hperm
    exact Or.inl ⟨id, h.shutdown, List.perm_singleton.mp hperm, h.armed, h.buffer⟩
  | job job =>
    obtain ⟨hjob, rfl⟩ := job_cases hnext
    cases job with
    | written w =>
      have hperm := written_live hjob
      rw [h.live] at hperm
      exact Or.inl ⟨id, h.shutdown, List.perm_singleton.mp hperm, h.armed, h.buffer⟩
    | onFinally flush => exact Or.inr (Or.inl (h.onFinally hjob))
    | resume => cases (live_single h.live hjob).1
  | destroy =>
    simp [Service.next, h.shutdown] at hnext

/-- The loop writes a batch, the last one when a timer may be set, or has nothing left to write. -/
theorem Looping.resume (h : Looping s) (hjob : .resume ∈ s.jobs) :
    Closing ({ s with jobs := s.jobs.erase .resume }.runJob .resume) := by
  obtain ⟨-, hlive⟩ := live_single h.live hjob
  obtain ⟨hjobs, hpending⟩ := jobs_nil hlive
  simp only at hjobs hpending
  simp only [runJob, onResume]
  split
  · next hsome =>
    have hperm : (Service.writeBatch { s with jobs := s.jobs.erase .resume } .shutdown).live.Perm
        (.shutdown :: Service.live { s with jobs := s.jobs.erase .resume }) := writeBatch_live
    rw [hlive] at hperm
    have hsingle := List.perm_singleton.mp hperm
    refine Or.inr ?_
    obtain harmed | ⟨-, hless⟩ := h.timer
    · exact Or.inl ⟨by simp [h.shutdown], hsingle, Or.inl (by simp [harmed])⟩
    · refine Or.inr ⟨?_, ?_, Or.inl ⟨by simp [h.shutdown], by simp [hsingle]⟩⟩
      · rw [writeBatch_buffer]
        exact List.drop_eq_nil_of_le (Nat.le_of_lt hless)
      intro p hp
      have hmem : p.2 ∈ [Writer.shutdown] := by
        rw [← hsingle]
        exact List.mem_append_right _ (List.mem_map_of_mem hp)
      exact List.mem_singleton.mp hmem
  · next hnone =>
    have hnil : s.buffer = [] := List.length_eq_zero_iff.mp (Nat.eq_zero_of_not_pos hnone)
    refine Or.inr (Or.inr ⟨hnil, ?_, Or.inr ⟨rfl, ?_⟩⟩)
    · simp [hpending]
    · simp [Service.live, hjobs, hpending]

theorem Looping.next (h : Looping s) (hsink : s.sink = false) (hnext : s.next m = some s') :
    Closing s' := by
  cases m with
  | record metric value labels => simp [Service.next, hsink] at hnext
  | clock ms =>
    cases hnext
    exact Or.inr (Or.inl ⟨h.1, h.2, h.3⟩)
  | fire timer =>
    obtain ⟨harmed, hjobs, -⟩ := fire_cases hnext
    obtain hnil | ⟨hne, -⟩ := h.timer
    · simp [hnil] at harmed
    · exact absurd hjobs hne
  | settle i ok =>
    obtain ⟨p, hp, rfl, hperm⟩ := settle_cases hnext
    rw [h.live] at hperm
    refine Or.inr (Or.inl ⟨h.shutdown, List.perm_singleton.mp hperm, ?_⟩)
    exact h.timer.imp_right fun hor => ⟨by simp [enqueue], hor.2⟩
  | job job =>
    obtain ⟨hjob, rfl⟩ := job_cases hnext
    cases job with
    | written w =>
      have hperm := written_live hjob
      rw [h.live] at hperm
      refine Or.inr (Or.inl ⟨h.shutdown, List.perm_singleton.mp hperm, ?_⟩)
      exact h.timer.imp_right fun hor => ⟨by simp [runJob, enqueue], hor.2⟩
    | onFinally flush => cases (live_single h.live hjob).1
    | resume => exact h.resume hjob
  | destroy =>
    simp [Service.next, h.shutdown] at hnext

/-- A flush that finds no rows only makes its callback ready. -/
theorem Emptied.flushNow (h : Emptied s) : Emptied s.flushNow := by
  have hlive := flushNow_live (s := s)
  have hcount : s.flushNow.live.count .shutdown = s.live.count .shutdown := by
    rw [hlive.count_eq]
    exact List.count_cons_of_ne (by simp)
  refine ⟨by simp [h.buffer], ?_, ?_⟩
  · simpa [flushNow_eq, flushed, clearTimeout, writeBatch, h.buffer, enqueue] using h.pending
  · rw [hcount, flushNow_shutdown]
    exact h.shutdown

theorem Emptied.congr (h : Emptied s) (hbuffer : s'.buffer = s.buffer)
    (hpending : ∀ p ∈ s'.pending, p ∈ s.pending) (hshutdown : s'.shutdown = s.shutdown)
    (hcount : s'.live.count .shutdown = s.live.count .shutdown) : Emptied s' := by
  refine ⟨hbuffer.trans h.buffer, fun p hp => h.pending p (hpending p hp), ?_⟩
  rw [hshutdown, hcount]
  exact h.shutdown

/-- The loop finds nothing and returns; nothing else of it is under way. -/
theorem Emptied.resume (h : Emptied s) (hjob : .resume ∈ s.jobs) :
    Emptied ({ s with jobs := s.jobs.erase .resume }.runJob .resume) := by
  have hcount := (live_erase hjob).count_eq .shutdown
  simp only [Job.owner, List.count_cons_self] at hcount
  simp only [runJob, onResume, h.buffer, List.length_nil, Nat.lt_irrefl, if_false]
  refine ⟨rfl, h.pending, Or.inr ⟨rfl, ?_⟩⟩
  have hone : s.live.count .shutdown ≤ 1 := by
    obtain ⟨-, h⟩ | ⟨-, h⟩ := h.shutdown <;> omega
  change { s with jobs := s.jobs.erase .resume }.live.count Writer.shutdown = 0
  omega

theorem Emptied.onFinally {flush : Nat} (h : Emptied s) (hjob : .onFinally flush ∈ s.jobs) :
    Emptied ({ s with jobs := s.jobs.erase (.onFinally flush) }.runJob (.onFinally flush)) := by
  have hcount := (live_erase hjob).count_eq .shutdown
  rw [List.count_cons_of_ne (by simp [Job.owner])] at hcount
  have hnot : s.shutdown ≠ .flush flush := by
    obtain ⟨h, -⟩ | ⟨h, -⟩ := h.shutdown <;> simp [h]
  have hless : ¬ flushAtRows ≤ s.buffer.length := by simp [h.buffer, flushAtRows]
  have hnone : ¬ 0 < s.buffer.length := by simp [h.buffer]
  simp only [runJob, onFinally_eq, if_neg hless, if_neg hnone, if_neg hnot]
  exact h.congr rfl (fun p hp => hp) rfl hcount.symm

theorem Emptied.next (h : Emptied s) (hsink : s.sink = false) (hnext : s.next m = some s') :
    Emptied s' := by
  cases m with
  | record metric value labels => simp [Service.next, hsink] at hnext
  | clock ms =>
    cases hnext
    exact h.congr rfl (fun p hp => hp) rfl rfl
  | fire timer =>
    obtain ⟨-, -, rfl⟩ := fire_cases hnext
    have herase : Emptied { s with armed := s.armed.erase timer } :=
      h.congr rfl (fun p hp => hp) rfl rfl
    exact herase.flushNow
  | settle i ok =>
    obtain ⟨p, -, rfl, hperm⟩ := settle_cases hnext
    exact h.congr rfl (fun q hq => List.mem_of_mem_erase hq) rfl (hperm.count_eq _)
  | job job =>
    obtain ⟨hjob, rfl⟩ := job_cases hnext
    cases job with
    | written w => exact h.congr rfl (fun p hp => hp) rfl ((written_live hjob).count_eq _)
    | onFinally flush => exact h.onFinally hjob
    | resume => exact h.resume hjob
  | destroy =>
    obtain ⟨hs, -⟩ | ⟨hs, -⟩ := h.shutdown
    · simp [Service.next, hs] at hnext
    · simp [Service.next, hs] at hnext

theorem next_sink (hsink : s.sink = false) (hnext : s.next m = some s') : s'.sink = false := by
  cases m with
  | record metric value labels => simp [Service.next, hsink] at hnext
  | clock ms =>
    cases hnext
    exact hsink
  | fire timer =>
    obtain ⟨-, -, rfl⟩ := fire_cases hnext
    exact flushNow_sink.trans hsink
  | settle i ok =>
    obtain ⟨p, -, rfl, -⟩ := settle_cases hnext
    exact hsink
  | job job =>
    obtain ⟨-, rfl⟩ := job_cases hnext
    cases job with
    | written w => exact hsink
    | onFinally flush =>
      have hkeeps := onFinally_keeps (s := { s with jobs := s.jobs.erase (.onFinally flush) })
      simp only [runJob]
      split <;> exact hkeeps.sink.trans hsink
    | resume =>
      simp only [runJob, onResume]
      split
      · exact writeBatch_sink.trans hsink
      · exact hsink
  | destroy =>
    simp only [Service.next] at hnext
    split at hnext
    · cases hnext
      unfold onModuleDestroy
      dsimp only
      split <;> rfl
    · cases hnext

theorem Draining.next (h : Draining s) (hnext : s.next m = some s') :
    Draining s' ∧ s'.taken = s.taken := by
  have htaken := next_taken hnext
  have hnone : s.accepts m = [] := by
    cases m with
    | record metric value labels => simp [accepts, h.sink]
    | _ => rfl
  rw [hnone, List.append_nil] at htaken
  refine ⟨⟨next_sink h.sink hnext, ?_⟩, htaken⟩
  obtain ⟨id, hphase⟩ | hphase | hphase := h.phase
  · exact hphase.next h.sink hnext
  · exact hphase.next h.sink hnext
  · exact Or.inr (Or.inr (hphase.next h.sink hnext))

theorem Draining.run {ms : List Move} (h : Draining s) (hrun : s.run ms = some s') :
    Draining s' ∧ s'.taken = s.taken := by
  induction ms generalizing s with
  | nil =>
    cases hrun
    exact ⟨h, rfl⟩
  | cons m ms ih =>
    obtain ⟨s₁, hm, hrest⟩ := run_cons.mp hrun
    obtain ⟨h₁, htaken⟩ := h.next hm
    obtain ⟨h', htaken'⟩ := ih h₁ hrest
    exact ⟨h', htaken'.trans htaken⟩

theorem Draining.done (h : Draining s) (hdone : s.shutdown = .done) :
    s.buffer = [] ∧ s.pending = [] := by
  obtain ⟨id, hphase⟩ | hphase | hphase := h.phase
  · cases hdone.symm.trans hphase.shutdown
  · cases hdone.symm.trans hphase.shutdown
  · obtain ⟨hloop, -⟩ | ⟨-, hcount⟩ := hphase.shutdown
    · cases hdone.symm.trans hloop
    · refine ⟨hphase.buffer, List.eq_nil_iff_forall_not_mem.mpr ?_⟩
      intro p hp
      have hmem : Writer.shutdown ∈ s.live := by
        rw [← hphase.pending p hp]
        exact List.mem_append_right _ (List.mem_map_of_mem hp)
      exact List.count_eq_zero.mp hcount hmem

theorem drains (h : Buffered s) (hfree : ¬ (s.flushing.isSome ∧ 500 ≤ s.buffer.length)) :
    DrainsOnShutdown s s.taken := by
  intro later s' hrun hdone
  obtain ⟨s₁, hm, hrest⟩ := run_cons.mp hrun
  have hs₁ : s₁ = s.onModuleDestroy := by simpa [Service.next, h.up] using hm.symm
  subst hs₁
  have htaken := next_taken hm
  obtain ⟨hdraining, hsame⟩ := (onModuleDestroy_draining h hfree).run hrest
  obtain ⟨hbuffer, hpending⟩ := hdraining.done hdone
  refine ⟨?_, hpending⟩
  calc s'.inserts.flatten = s'.taken := by simp [taken, hbuffer]
    _ = s.onModuleDestroy.taken := hsame
    _ = s.taken := by simpa [accepts] using htaken

/-! ### A flush that starts another one before the shutdown goes on -/

theorem run_append {ms ms' : List Move} {s₁ : Service} (h : s.run ms = some s₁)
    (h' : s₁.run ms' = some s') : s.run (ms ++ ms') = some s' := by
  induction ms generalizing s with
  | nil =>
    cases h
    exact h'
  | cons m ms ih =>
    obtain ⟨s₂, hm, hrest⟩ := run_cons.mp h
    exact run_cons.mpr ⟨s₂, hm, ih hrest⟩

/-- The loop is ready to go on while an insert of a flush is in flight. -/
structure Overtaken (s : Service) (insert flush : Nat) : Prop where
  shutdown : s.shutdown = .loop
  jobs : s.jobs = [.resume]
  pending : s.pending = [(insert, .flush flush)]
  insert : insert < s.inserts.length

theorem writeBatch_some {writer : Writer} (hsome : 0 < s.buffer.length) :
    s.writeBatch writer = { s with
      buffer := s.buffer.drop 500
      inserts := s.inserts ++ [s.buffer.take 500]
      pending := s.pending ++ [(s.inserts.length, writer)] } := by
  have hrows : (s.buffer.take flushAtRows).length ≠ 0 := by
    rw [List.length_take]
    have hpos : 0 < min flushAtRows s.buffer.length := Nat.lt_min.mpr ⟨by decide, hsome⟩
    omega
  unfold writeBatch
  simp only [hrows, if_false]
  rfl

/-- The loop writes a batch, which settles before the flush's insert does. -/
theorem Overtaken.batch {insert flush : Nat} (h : Overtaken s insert flush)
    (hsome : 0 < s.buffer.length) :
    ∃ moves s', s.run moves = some s' ∧ Overtaken s' insert flush ∧
      s'.buffer = s.buffer.drop 500 := by
  have hne : insert ≠ s.inserts.length := Nat.ne_of_lt h.insert
  let s' : Service := { s with
    buffer := s.buffer.drop 500
    inserts := s.inserts ++ [s.buffer.take 500] }
  have hwrite : s.next (.job .resume) = some { s' with
      jobs := []
      pending := [(insert, .flush flush), (s.inserts.length, .shutdown)] } := by
    simp [Service.next, runJob, onResume, hsome, h.jobs, writeBatch_some, h.pending, s']
  have hsettle : { s' with
      jobs := []
      pending := [(insert, .flush flush), (s.inserts.length, .shutdown)] }.next
        (.settle s.inserts.length true) = some { s' with jobs := [.written .shutdown] } := by
    simp [Service.next, enqueue, hne, s', h.pending]
  have hwritten : { s' with jobs := [.written .shutdown] }.next (.job (.written .shutdown)) =
      some s' := by
    simp [Service.next, runJob, enqueue, Writer.next, s', h.jobs]
  have hrun : s.run [.job .resume, .settle s.inserts.length true, .job (.written .shutdown)] =
      some s' := by
    simp only [Service.run, hwrite, hsettle, hwritten, Option.bind_some]
  have hinsert : insert < s'.inserts.length := by
    have hlen : s'.inserts.length = s.inserts.length + 1 := by simp [s']
    rw [hlen]
    exact Nat.lt_succ_of_lt h.insert
  exact ⟨_, s', hrun, ⟨h.shutdown, h.jobs, h.pending, hinsert⟩, rfl⟩

/-- The shutdown returns and the insert has not settled. -/
theorem Overtaken.returns {insert flush : Nat} (h : Overtaken s insert flush) :
    ∃ moves s', s.run moves = some s' ∧ s'.shutdown = .done ∧ s'.pending ≠ [] := by
  induction hlen : s.buffer.length using Nat.strongRecOn generalizing s with
  | ind n ih =>
    by_cases hsome : 0 < s.buffer.length
    · obtain ⟨moves, s₁, hrun, h₁, hbuffer⟩ := h.batch hsome
      have hless : s₁.buffer.length < n := by
        rw [hbuffer, List.length_drop]
        omega
      obtain ⟨moves', s', hrun', hdone, hpending⟩ := ih _ hless h₁ rfl
      exact ⟨moves ++ moves', s', run_append hrun hrun', hdone, hpending⟩
    · refine ⟨[.job .resume], { s with jobs := [], shutdown := .done }, ?_, rfl, ?_⟩
      · simp [Service.run, Service.next, runJob, onResume, h.jobs, hsome]
      · simp [h.pending]

/-- What is under way of the awaited flush is its insert, the rest of its `writeBatch`, or its callback. -/
theorem single_cases {id : Nat} (hlive : s.live = [.flush id]) :
    s.jobs = [.onFinally id] ∧ s.pending = [] ∨ s.jobs = [.written (.flush id)] ∧ s.pending = [] ∨
      s.jobs = [] ∧ ∃ i, s.pending = [(i, .flush id)] := by
  obtain ⟨hjobs, hpending⟩ | ⟨hjobs, hpending⟩ := List.append_eq_singleton_iff.mp hlive
  · right; right
    obtain ⟨p, hp, hsnd⟩ := List.map_eq_singleton_iff.mp hpending
    refine ⟨List.map_eq_nil_iff.mp hjobs, p.1, ?_⟩
    rw [hp, ← hsnd]
  · obtain ⟨job, hjob, howner⟩ := List.map_eq_singleton_iff.mp hjobs
    have hnil := List.map_eq_nil_iff.mp hpending
    cases job with
    | written w =>
      simp only [Job.owner] at howner
      rw [howner] at hjob
      exact Or.inr (Or.inl ⟨hjob, hnil⟩)
    | onFinally flush =>
      simp only [Job.owner, Writer.flush.injEq] at howner
      rw [howner] at hjob
      exact Or.inl ⟨hjob, hnil⟩
    | resume => cases howner

/-- The awaited flush can always come to its callback. -/
theorem reaches_callback {id : Nat} (hlive : s.live = [.flush id]) :
    ∃ moves, s.run moves = some { s with jobs := [.onFinally id], pending := [] } := by
  obtain ⟨hjobs, hpending⟩ | ⟨hjobs, hpending⟩ | ⟨hjobs, i, hpending⟩ := single_cases hlive
  · refine ⟨[], ?_⟩
    rw [← hjobs, ← hpending]
    rfl
  · refine ⟨[.job (.written (.flush id))], ?_⟩
    simp [Service.run, Service.next, runJob, enqueue, Writer.next, hjobs, hpending]
  · refine ⟨[.settle i true, .job (.written (.flush id))], ?_⟩
    simp [Service.run, Service.next, runJob, enqueue, Writer.next, hjobs, hpending]

/-- The callback of the awaited flush starts the next one, which nobody awaits. -/
theorem callback_overtakes {id : Nat} (hjobs : s.jobs = [.onFinally id]) (hpending : s.pending = [])
    (hshutdown : s.shutdown = .flush id) (hfull : 500 ≤ s.buffer.length) :
    ∃ s', s.next (.job (.onFinally id)) = some s' ∧ Overtaken s' s.inserts.length s.flushes := by
  have hsome : 0 < s.buffer.length := Nat.lt_of_lt_of_le (by decide) hfull
  let t : Service := { s with jobs := [], flushing := none }
  have hflush : t.flushNow = { t.flushed with
      buffer := s.buffer.drop 500
      inserts := s.inserts ++ [s.buffer.take 500]
      pending := [(s.inserts.length, .flush s.flushes)]
      flushing := some s.flushes } := by
    rw [flushNow_eq, writeBatch_some (by exact hsome)]
    simp [t, flushed, clearTimeout, hpending]
  refine ⟨{ t.flushNow.enqueue .resume with shutdown := .loop }, ?_, ?_⟩
  · have hfinally : { s with jobs := [] }.onFinally = t.flushNow := by
      rw [onFinally_eq, if_pos (by exact hfull)]
    simp only [Service.next, hjobs, List.mem_singleton, if_true, List.erase_cons_head, runJob,
      hfinally]
    simp [t, hshutdown]
  · rw [hflush]
    exact ⟨rfl, rfl, rfl, by simp [enqueue]⟩

theorem not_drains (h : Buffered s) (hbusy : s.flushing.isSome) (hfull : 500 ≤ s.buffer.length)
    (samples : List MetricEventEntity) : ¬ DrainsOnShutdown s samples := by
  intro hdrains
  have hne : s.buffer ≠ [] := by
    intro hnil
    simp [hnil] at hfull
  obtain ⟨id, hw⟩ | hidle | ⟨id, hw⟩ := h.phase
  · have hdestroy : s.next .destroy = some s.onModuleDestroy := by simp [Service.next, h.up]
    have hclosed : s.onModuleDestroy = { s.clearTimeout with sink := false, shutdown := .flush id } := by
      simp [onModuleDestroy, clearTimeout, hw.flushing]
    have hlive : s.onModuleDestroy.live = [.flush id] := by
      rw [hclosed]
      exact hw.live
    obtain ⟨ms₁, hrun₁⟩ := reaches_callback hlive
    obtain ⟨s₂, hnext, hover⟩ := callback_overtakes
      (s := { s.onModuleDestroy with jobs := [.onFinally id], pending := [] }) rfl rfl
      (by simp [hclosed]) (by simpa [hclosed, clearTimeout] using hfull)
    obtain ⟨ms₂, s', hrun₂, hdone, hpending⟩ := hover.returns
    have hrun := run_append hrun₁ (run_cons.mpr ⟨s₂, hnext, hrun₂⟩)
    exact hpending (hdrains _ s' (run_cons.mpr ⟨_, hdestroy, hrun⟩) hdone).2
  · exact hne hidle.buffer
  · simp [hw.flushing] at hbusy

/-- The shutdown drains the service unless it is called while a flush is in progress and a whole batch
waits behind it: the flush's callback then starts an insert before the shutdown goes on. -/
theorem drains_on_shutdown_iff (moves : List Move) (s : Service)
    (hrun : Service.run {} moves = some s) (hup : .destroy ∉ moves) :
    DrainsOnShutdown s (Service.accepted {} moves) ↔
      ¬ (s.flushing.isSome ∧ 500 ≤ s.buffer.length) := by
  have h := run_buffered buffered_start hup hrun
  have htaken : s.taken = Service.accepted {} moves := run_taken hrun
  constructor
  · intro hdrains hbusy
    exact not_drains h hbusy.1 hbusy.2 _ hdrains
  · intro hfree
    rw [← htaken]
    exact drains h hfree

/-- A sample that waits for its timer is written. -/
theorem drains_on_shutdown_one_sample :
    let moves := [Move.record "orders_terminal" 1 (some [("state", "completed")])]
    ∃ s, Service.run {} moves = some s ∧ DrainsOnShutdown s (Service.accepted {} moves) := by
  intro moves
  let s : Service := (Service.run {} moves).getD {}
  have hrun : Service.run {} moves = some s := by rfl
  have hup : .destroy ∉ moves := by decide
  have hfree : ¬ (s.flushing.isSome ∧ 500 ≤ s.buffer.length) := by decide
  exact ⟨s, hrun, (drains_on_shutdown_iff moves s hrun hup).mpr hfree⟩

/-- While a flush is in progress, samples only wait. -/
theorem run_records {n : Nat} {metric : String} {value : ℚ} (hsink : s.sink)
    (hbusy : s.flushing.isSome) (hsize : s.buffer.length + n ≤ 50000) :
    s.run (List.replicate n (.record metric value none)) =
      some { s with buffer := s.buffer ++ List.replicate n ⟨metric, value, none, s.now⟩ } := by
  induction n generalizing s with
  | zero => simp [Service.run]
  | succ n ih =>
    have hfull : s.buffer.length < maxBufferedRows := by
      have hmax : maxBufferedRows = 50000 := rfl
      omega
    have hrecord : s.next (.record metric value none) = some (s.pushed metric value none) := by
      simp [Service.next, hsink, record_eq hfull, hbusy]
    have hlen : (s.pushed metric value none).buffer.length + n ≤ 50000 := by
      simp only [pushed, List.length_append, List.length_singleton]
      omega
    rw [List.replicate_succ, List.replicate_succ, Service.run, hrecord, Option.bind_some]
    rw [ih (by exact hsink) (by exact hbusy) hlen]
    simp [pushed]

/-- One sample is being inserted, 500 more wait, and the service shuts down. -/
theorem not_drains_on_shutdown :
    let moves := [Move.record "orders_created" 1 none, .fire 0] ++
      List.replicate 500 (.record "cpu_percent" 40 none)
    ¬ ∀ s, Service.run {} moves = some s → DrainsOnShutdown s (Service.accepted {} moves) := by
  intro moves hall
  let s₁ : Service := (Service.run {} [.record "orders_created" 1 none, .fire 0]).getD {}
  have hfirst : Service.run {} [.record "orders_created" 1 none, .fire 0] = some s₁ := by rfl
  have hrest : s₁.run (List.replicate 500 (.record "cpu_percent" 40 none)) = some _ :=
    run_records rfl rfl (by decide)
  have hrun := run_append hfirst hrest
  have hup : .destroy ∉ moves := by
    intro hmem
    obtain hmem | hmem := List.mem_append.mp hmem
    · exact absurd hmem (by decide)
    · cases List.eq_of_mem_replicate hmem
  have hfull : 500 ≤ (s₁.buffer ++ List.replicate 500
      (⟨"cpu_percent", 40, none, s₁.now⟩ : MetricEventEntity)).length := by
    rw [List.length_append, List.length_replicate]
    omega
  exact not_drains (run_buffered buffered_start hup hrun) rfl hfull _ (hall _ hrun)

end OrderLifecycle.Metrics.Service

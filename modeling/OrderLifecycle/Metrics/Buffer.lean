import Mathlib.Data.List.Perm.Basic
import OrderLifecycle.Metrics.Persistence

namespace OrderLifecycle.Metrics

/-- Whose continuation a job is. -/
def Job.owner : Job → Writer
  | .written writer => writer
  | .onFinally id => .flush id
  | .resume => .shutdown

@[simp] theorem Writer.owner_next (writer : Writer) : writer.next.owner = writer := by
  cases writer <;> rfl

namespace Service

variable {s s' : Service} {writer : Writer} {job : Job} {m : Move}

/-- What is under way: one entry for each job that is ready and each insert that has not settled. -/
def live (s : Service) : List Writer := s.jobs.map Job.owner ++ s.pending.map Prod.snd

/-- All rows that the service has taken, in order. -/
def taken (s : Service) : List MetricEventEntity := s.inserts.flatten ++ s.buffer

theorem pending_le_live (s : Service) : s.pending.length ≤ s.live.length := by
  simp [live]

/-! ### What the methods do -/

@[simp] theorem writeBatch_buffer : (s.writeBatch writer).buffer = s.buffer.drop 500 := by
  unfold writeBatch
  dsimp only
  split <;> rfl

@[simp] theorem writeBatch_timer : (s.writeBatch writer).timer = s.timer := by
  unfold writeBatch
  dsimp only
  split <;> rfl

@[simp] theorem writeBatch_armed : (s.writeBatch writer).armed = s.armed := by
  unfold writeBatch
  dsimp only
  split <;> rfl

@[simp] theorem writeBatch_sink : (s.writeBatch writer).sink = s.sink := by
  unfold writeBatch
  dsimp only
  split <;> rfl

@[simp] theorem writeBatch_shutdown : (s.writeBatch writer).shutdown = s.shutdown := by
  unfold writeBatch
  dsimp only
  split <;> rfl

theorem writeBatch_live : (s.writeBatch writer).live.Perm (writer :: s.live) := by
  unfold writeBatch
  dsimp only
  split
  · simp only [live, enqueue, List.map_append, List.map_cons, List.map_nil, Writer.owner_next,
      List.append_assoc, List.singleton_append]
    exact List.perm_middle
  · simp only [live, List.map_append, List.map_cons, List.map_nil]
    rw [← List.append_assoc]
    exact List.perm_append_singleton writer _

theorem writeBatch_taken : (s.writeBatch writer).taken = s.taken := by
  unfold writeBatch
  dsimp only
  split
  · next h =>
    have hnil : s.buffer = [] := by
      have hlen := List.length_eq_zero_iff.mp h
      rcases List.take_eq_nil_iff.mp hlen with h | h
      · cases h
      · exact h
    simp [taken, enqueue, hnil]
  · simp [taken]

theorem writeBatch_rows (h : ∀ rows ∈ s.inserts, rows.length ≤ 500) :
    ∀ rows ∈ (s.writeBatch writer).inserts, rows.length ≤ 500 := by
  unfold writeBatch
  dsimp only
  split
  · exact h
  · intro rows hrows
    rcases List.mem_append.mp hrows with hrows | hrows
    · exact h rows hrows
    · rw [List.mem_singleton.mp hrows]
      exact List.length_take_le _ _

/-- The service as `flushNow` hands it to `writeBatch`. -/
def flushed (s : Service) : Service :=
  { s.clearTimeout with timer := none, flushes := s.flushes + 1 }

theorem flushNow_eq : s.flushNow =
    { s.flushed.writeBatch (.flush s.flushes) with flushing := some s.flushes } := rfl

@[simp] theorem flushNow_buffer : s.flushNow.buffer = s.buffer.drop 500 := by
  simp [flushNow_eq, flushed, clearTimeout]

@[simp] theorem flushNow_timer : s.flushNow.timer = none := by
  simp [flushNow_eq, flushed]

@[simp] theorem flushNow_armed :
    s.flushNow.armed = s.armed.filter fun id => some id ≠ s.timer := by
  simp [flushNow_eq, flushed, clearTimeout]

@[simp] theorem flushNow_sink : s.flushNow.sink = s.sink := by
  simp [flushNow_eq, flushed, clearTimeout]

@[simp] theorem flushNow_shutdown : s.flushNow.shutdown = s.shutdown := by
  simp [flushNow_eq, flushed, clearTimeout]

@[simp] theorem flushNow_flushing : s.flushNow.flushing = some s.flushes := rfl

theorem flushNow_live : s.flushNow.live.Perm (.flush s.flushes :: s.live) :=
  writeBatch_live (s := s.flushed)

theorem flushNow_taken : s.flushNow.taken = s.taken :=
  writeBatch_taken (s := s.flushed)

theorem flushNow_rows (h : ∀ rows ∈ s.inserts, rows.length ≤ 500) :
    ∀ rows ∈ s.flushNow.inserts, rows.length ≤ 500 :=
  writeBatch_rows (s := s.flushed) h

/-- `s'` is `s` after code that takes no sample: the same rows are taken, in inserts of at most 500. -/
structure Keeps (s s' : Service) : Prop where
  sink : s'.sink = s.sink
  shutdown : s'.shutdown = s.shutdown
  taken : s'.taken = s.taken
  rows : (∀ rows ∈ s.inserts, rows.length ≤ 500) → ∀ rows ∈ s'.inserts, rows.length ≤ 500
  size : s'.buffer.length ≤ s.buffer.length

theorem Keeps.trans {s₁ s₂ s₃ : Service} (h : Keeps s₁ s₂) (h' : Keeps s₂ s₃) : Keeps s₁ s₃ where
  sink := h'.sink.trans h.sink
  shutdown := h'.shutdown.trans h.shutdown
  taken := h'.taken.trans h.taken
  rows := fun hrows => h'.rows (h.rows hrows)
  size := Nat.le_trans h'.size h.size

theorem flushNow_keeps : Keeps s s.flushNow where
  sink := flushNow_sink
  shutdown := flushNow_shutdown
  taken := flushNow_taken
  rows := flushNow_rows
  size := by simp

theorem onFinally_eq : s.onFinally =
    if flushAtRows ≤ s.buffer.length then { s with flushing := none }.flushNow
    else if 0 < s.buffer.length then { s with flushing := none }.setTimeout
    else { s with flushing := none } := rfl

theorem onFinally_keeps : Keeps s s.onFinally := by
  have hnone : Keeps s { s with flushing := none } := ⟨rfl, rfl, rfl, fun h => h, Nat.le_refl _⟩
  rw [onFinally_eq]
  split
  · exact hnone.trans flushNow_keeps
  · split
    · exact ⟨rfl, rfl, rfl, fun h => h, Nat.le_refl _⟩
    · exact hnone

/-- The service with one more sample in its buffer. -/
def pushed (s : Service) (metric : String) (value : ℚ) (labels : Option (List (String × String))) :
    Service :=
  { s with buffer := s.buffer ++ [⟨metric, value, labels, s.now⟩] }

theorem record_full {metric : String} {value : ℚ} {labels : Option (List (String × String))}
    (h : maxBufferedRows ≤ s.buffer.length) : s.record metric value labels = s := by
  unfold record
  rw [if_pos h]

/-- What `record` does with a sample that it accepts. -/
theorem record_eq {metric : String} {value : ℚ} {labels : Option (List (String × String))}
    (h : s.buffer.length < maxBufferedRows) : s.record metric value labels =
      if s.flushing.isSome then s.pushed metric value labels
      else if flushAtRows ≤ s.buffer.length + 1 then (s.pushed metric value labels).flushNow
      else if s.timer.isSome then s.pushed metric value labels
      else (s.pushed metric value labels).setTimeout := by
  have hlen : (s.pushed metric value labels).buffer.length = s.buffer.length + 1 := by
    simp [pushed]
  unfold record
  rw [if_neg (Nat.not_le_of_lt h), ← hlen]
  rfl

theorem record_keeps {metric : String} {value : ℚ} {labels : Option (List (String × String))}
    (h : s.buffer.length < maxBufferedRows) :
    Keeps (s.pushed metric value labels) (s.record metric value labels) := by
  have hsame : Keeps (s.pushed metric value labels) (s.pushed metric value labels) :=
    ⟨rfl, rfl, rfl, fun h => h, Nat.le_refl _⟩
  rw [record_eq h]
  split
  · exact hsame
  · split
    · exact flushNow_keeps
    · split
      · exact hsame
      · exact ⟨rfl, rfl, rfl, fun h => h, Nat.le_refl _⟩

/-! ### One turn -/

theorem live_erase (h : job ∈ s.jobs) :
    s.live.Perm (job.owner :: { s with jobs := s.jobs.erase job }.live) := by
  have hp := (List.perm_cons_erase h).map Job.owner
  exact hp.append_right _

/-- An insert that settles goes on as a job. -/
theorem settle_cases {i : Nat} {ok : Bool} (h : s.next (.settle i ok) = some s') :
    ∃ p ∈ s.pending, s' = { s with pending := s.pending.erase p }.enqueue (.written p.2) ∧
      s'.live.Perm s.live := by
  obtain ⟨p, hfind, rfl⟩ := Option.map_eq_some_iff.mp h
  have hp : p ∈ s.pending := List.mem_of_find?_eq_some hfind
  refine ⟨p, hp, rfl, ?_⟩
  have hpend := (List.perm_cons_erase hp).map Prod.snd
  simp only [live, enqueue, List.map_append, List.map_cons, List.map_nil, Job.owner,
    List.append_assoc, List.singleton_append]
  exact (hpend.append_left (s.jobs.map Job.owner)).symm

/-- The rest of a `writeBatch` makes its caller's continuation ready. -/
theorem written_live (h : .written writer ∈ s.jobs) :
    ({ s with jobs := s.jobs.erase (.written writer) }.runJob (.written writer)).live.Perm s.live := by
  refine List.Perm.trans ?_ (live_erase h).symm
  simp only [runJob, live, enqueue, List.map_append, List.map_cons, List.map_nil,
    Writer.owner_next, List.append_assoc, List.singleton_append]
  exact List.perm_middle

theorem fire_cases {id : Nat} (h : s.next (.fire id) = some s') :
    id ∈ s.armed ∧ s.jobs = [] ∧ s' = { s with armed := s.armed.erase id }.flushNow := by
  simp only [next] at h
  split at h
  · next hc =>
    cases h
    exact ⟨hc.1, hc.2, rfl⟩
  · cases h

theorem job_cases (h : s.next (.job job) = some s') :
    job ∈ s.jobs ∧ s' = { s with jobs := s.jobs.erase job }.runJob job := by
  simp only [next] at h
  split at h
  · next hc =>
    cases h
    exact ⟨hc, rfl⟩
  · cases h

/-! ### What is taken -/

/-- The sample that a turn accepts. -/
def accepts (s : Service) : Move → List MetricEventEntity
  | .record metric value labels =>
    if s.sink ∧ s.buffer.length < maxBufferedRows then [⟨metric, value, labels, s.now⟩] else []
  | _ => []

theorem accepted_cons {ms : List Move} (h : s.next m = some s') :
    s.accepted (m :: ms) = s.accepts m ++ s'.accepted ms := by
  cases m with
  | record metric value labels =>
    simp only [accepted, accepts, h, Option.map_some, Option.getD_some]
    split <;> rfl
  | _ => simp [accepted, accepts, h]

theorem record_taken (metric : String) (value : ℚ) (labels : Option (List (String × String))) :
    (s.record metric value labels).taken = s.taken ++
      if s.buffer.length < maxBufferedRows then [⟨metric, value, labels, s.now⟩] else [] := by
  by_cases hfull : s.buffer.length < maxBufferedRows
  · rw [(record_keeps hfull).taken, if_pos hfull]
    simp [taken, pushed]
  · rw [record_full (Nat.le_of_not_lt hfull), if_neg hfull, List.append_nil]

theorem runJob_taken : (s.runJob job).taken = s.taken := by
  cases job with
  | written writer => rfl
  | onFinally id =>
    simp only [runJob]
    split
    · exact onFinally_keeps.taken
    · exact onFinally_keeps.taken
  | resume =>
    simp only [runJob, onResume]
    split
    · exact writeBatch_taken
    · rfl

/-- A turn takes the sample it accepts, and loses none. -/
theorem next_taken (h : s.next m = some s') : s'.taken = s.taken ++ s.accepts m := by
  cases m with
  | record metric value labels =>
    simp only [next] at h
    split at h
    · next hsink =>
      cases h
      rw [record_taken]
      simp [accepts, hsink]
    · cases h
  | clock ms =>
    cases h
    simp [taken, accepts]
  | fire id =>
    obtain ⟨-, -, rfl⟩ := fire_cases h
    rw [flushNow_taken]
    simp [taken, accepts]
  | settle i ok =>
    obtain ⟨p, -, rfl, -⟩ := settle_cases h
    simp [taken, accepts, enqueue]
  | job job =>
    obtain ⟨-, rfl⟩ := job_cases h
    rw [runJob_taken]
    simp [taken, accepts]
  | destroy =>
    simp only [next] at h
    split at h
    · cases h
      simp only [accepts, List.append_nil]
      unfold onModuleDestroy
      dsimp only
      split <;> rfl
    · cases h

theorem run_cons {ms : List Move} : s.run (m :: ms) = some s' ↔
    ∃ s₁, s.next m = some s₁ ∧ s₁.run ms = some s' := by
  simp [run, Option.bind_eq_some_iff]

/-- What a run has taken is what it accepted. -/
theorem run_taken {ms : List Move} (h : s.run ms = some s') :
    s'.taken = s.taken ++ s.accepted ms := by
  induction ms generalizing s with
  | nil =>
    cases h
    simp [accepted]
  | cons m ms ih =>
    obtain ⟨s₁, hm, hms⟩ := run_cons.mp h
    rw [ih hms, next_taken hm, accepted_cons hm, List.append_assoc]

/-! ### Before the shutdown -/

/-- A flush is in progress: it alone is under way, and no timer is set. -/
structure Writing (s : Service) (id : Nat) : Prop where
  flushing : s.flushing = some id
  live : s.live = [.flush id]
  timer : s.timer = none
  armed : s.armed = []

/-- Nothing is under way and nothing waits. -/
structure Idle (s : Service) : Prop where
  flushing : s.flushing = none
  live : s.live = []
  timer : s.timer = none
  armed : s.armed = []
  buffer : s.buffer = []

/-- Nothing is under way, and a timer is set for the samples that wait. -/
structure Waiting (s : Service) (id : Nat) : Prop where
  flushing : s.flushing = none
  live : s.live = []
  timer : s.timer = some id
  armed : s.armed = [id]
  buffer : s.buffer ≠ []

def Phase (s : Service) : Prop := (∃ id, Writing s id) ∨ Idle s ∨ ∃ id, Waiting s id

/-- What holds until `onModuleDestroy` is called. -/
structure Buffered (s : Service) : Prop where
  sink : s.sink = true
  up : s.shutdown = .no
  rows : ∀ rows ∈ s.inserts, rows.length ≤ 500
  size : s.buffer.length ≤ 50000
  phase : Phase s

theorem buffered_start : Buffered {} where
  sink := rfl
  up := rfl
  rows := by simp
  size := by simp
  phase := Or.inr (Or.inl ⟨rfl, rfl, rfl, rfl, rfl⟩)

theorem flushNow_writing (hlive : s.live = []) (harmed : ∀ id ∈ s.armed, s.timer = some id) :
    Writing s.flushNow s.flushes where
  flushing := flushNow_flushing
  live := by
    have hperm := flushNow_live (s := s)
    rw [hlive] at hperm
    exact List.perm_singleton.mp hperm
  timer := flushNow_timer
  armed := by
    rw [flushNow_armed]
    apply List.filter_eq_nil_iff.mpr
    intro id hid
    simp [harmed id hid]

theorem setTimeout_waiting (hflushing : s.flushing = none) (hlive : s.live = [])
    (harmed : s.armed = []) (hbuffer : s.buffer ≠ []) : Waiting s.setTimeout s.timers where
  flushing := hflushing
  live := hlive
  timer := rfl
  armed := by simp [setTimeout, harmed]
  buffer := hbuffer

/-- The callback of the only flush decides what is next. -/
theorem onFinally_phase (hlive : s.live = []) (htimer : s.timer = none) (harmed : s.armed = []) :
    Phase s.onFinally := by
  rw [onFinally_eq]
  by_cases hfull : flushAtRows ≤ s.buffer.length
  · rw [if_pos hfull]
    refine Or.inl ⟨s.flushes, flushNow_writing (s := { s with flushing := none }) hlive ?_⟩
    simp [harmed]
  · rw [if_neg hfull]
    by_cases hsome : 0 < s.buffer.length
    · rw [if_pos hsome]
      have hne : s.buffer ≠ [] := List.length_pos_iff.mp hsome
      exact Or.inr (Or.inr ⟨s.timers,
        setTimeout_waiting (s := { s with flushing := none }) rfl hlive harmed hne⟩)
    · rw [if_neg hsome]
      have hnil : s.buffer = [] := List.length_eq_zero_iff.mp (by omega)
      exact Or.inr (Or.inl ⟨rfl, hlive, htimer, harmed, hnil⟩)

theorem record_phase {metric : String} {value : ℚ} {labels : Option (List (String × String))}
    (h : Phase s) : Phase (s.record metric value labels) := by
  by_cases hfull : s.buffer.length < maxBufferedRows
  · have hne : (s.pushed metric value labels).buffer ≠ [] := by simp [pushed]
    rw [record_eq hfull]
    obtain ⟨id, h⟩ | h | ⟨id, h⟩ := h
    · rw [if_pos (by simp [h.flushing])]
      exact Or.inl ⟨id, h.flushing, h.live, h.timer, h.armed⟩
    · rw [if_neg (by simp [h.flushing])]
      split
      · refine Or.inl ⟨s.flushes, flushNow_writing (s := s.pushed metric value labels) h.live ?_⟩
        simp [pushed, h.armed]
      · rw [if_neg (by simp [h.timer])]
        exact Or.inr (Or.inr ⟨s.timers, setTimeout_waiting h.flushing h.live h.armed hne⟩)
    · rw [if_neg (by simp [h.flushing])]
      split
      · refine Or.inl ⟨s.flushes, flushNow_writing (s := s.pushed metric value labels) h.live ?_⟩
        simp [pushed, h.armed, h.timer]
      · rw [if_pos (by simp [h.timer])]
        exact Or.inr (Or.inr ⟨id, h.flushing, h.live, h.timer, h.armed, hne⟩)
  · rw [record_full (Nat.le_of_not_lt hfull)]
    exact h

/-- A job that is ready when one writer is under way is that writer's, and the only one. -/
theorem live_single (hlive : s.live = [writer]) (hjob : job ∈ s.jobs) :
    job.owner = writer ∧ { s with jobs := s.jobs.erase job }.live = [] := by
  have hperm := live_erase hjob
  rw [hlive] at hperm
  exact List.cons_eq_cons.mp (List.perm_singleton.mp hperm.symm)

theorem live_ne_nil (hjob : job ∈ s.jobs) : s.live ≠ [] := by
  intro hnil
  have hmem : job.owner ∈ s.live :=
    List.mem_append_left _ (List.mem_map_of_mem hjob)
  rw [hnil] at hmem
  cases hmem

/-- Only the flush in progress has something ready. -/
theorem writing_of_job (h : Phase s) (hjob : job ∈ s.jobs) : ∃ id, Writing s id := by
  obtain h | h | ⟨id, h⟩ := h
  · exact h
  · exact absurd h.live (live_ne_nil hjob)
  · exact absurd h.live (live_ne_nil hjob)

theorem runJob_phase (h : Phase s) (hup : s.shutdown = .no) (hjob : job ∈ s.jobs) :
    Phase ({ s with jobs := s.jobs.erase job }.runJob job) := by
  obtain ⟨id, h⟩ := writing_of_job h hjob
  obtain ⟨howner, hlive⟩ := live_single h.live hjob
  cases job with
  | written w =>
    have hperm := written_live hjob
    rw [h.live] at hperm
    exact Or.inl ⟨id, h.flushing, List.perm_singleton.mp hperm, h.timer, h.armed⟩
  | onFinally flush =>
    have hphase := onFinally_phase hlive h.timer h.armed
    simp only [runJob]
    rw [if_neg (by simp [onFinally_keeps.shutdown, hup])]
    exact hphase
  | resume => cases howner

theorem next_phase (h : Phase s) (hup : s.shutdown = .no) (hm : m ≠ .destroy)
    (hnext : s.next m = some s') : Phase s' := by
  cases m with
  | record metric value labels =>
    simp only [next] at hnext
    split at hnext
    · cases hnext
      exact record_phase h
    · cases hnext
  | clock ms =>
    cases hnext
    exact h.imp (fun ⟨id, h⟩ => ⟨id, h.1, h.2, h.3, h.4⟩)
      (Or.imp (fun h => ⟨h.1, h.2, h.3, h.4, h.5⟩) fun ⟨id, h⟩ => ⟨id, h.1, h.2, h.3, h.4, h.5⟩)
  | fire id =>
    obtain ⟨harmed, -, rfl⟩ := fire_cases hnext
    obtain ⟨id', h⟩ | h | ⟨id', h⟩ := h
    · simp [h.armed] at harmed
    · simp [h.armed] at harmed
    · have hid : id = id' := by simpa [h.armed] using harmed
      have hnil : s.armed.erase id = [] := by simp [h.armed, hid]
      refine Or.inl ⟨s.flushes,
        flushNow_writing (s := { s with armed := s.armed.erase id }) h.live ?_⟩
      simp [hnil]
  | settle i ok =>
    obtain ⟨p, hp, rfl, hperm⟩ := settle_cases hnext
    obtain ⟨id, h⟩ | h | ⟨id, h⟩ := h
    · rw [h.live] at hperm
      exact Or.inl ⟨id, h.flushing, List.perm_singleton.mp hperm, h.timer, h.armed⟩
    · rw [h.live] at hperm
      exact Or.inr (Or.inl ⟨h.flushing, hperm.eq_nil, h.timer, h.armed, h.buffer⟩)
    · rw [h.live] at hperm
      exact Or.inr (Or.inr ⟨id, h.flushing, hperm.eq_nil, h.timer, h.armed, h.buffer⟩)
  | job job =>
    obtain ⟨hjob, rfl⟩ := job_cases hnext
    exact runJob_phase h hup hjob
  | destroy => exact absurd rfl hm

/-- Before the shutdown a turn keeps the bounds, the sink and the phase. -/
theorem next_buffered (h : Buffered s) (hm : m ≠ .destroy) (hnext : s.next m = some s') :
    Buffered s' := by
  have hphase := next_phase h.phase h.up hm hnext
  have of_keeps (hkeeps : Keeps s s') : Buffered s' :=
    ⟨hkeeps.sink.trans h.sink, hkeeps.shutdown.trans h.up, hkeeps.rows h.rows,
      Nat.le_trans hkeeps.size h.size, hphase⟩
  cases m with
  | record metric value labels =>
    simp only [next, h.sink, if_true] at hnext
    cases hnext
    by_cases hfull : s.buffer.length < maxBufferedRows
    · have hkeeps : Keeps (s.pushed metric value labels) (s.record metric value labels) :=
        record_keeps hfull
      have hlen : (s.pushed metric value labels).buffer.length = s.buffer.length + 1 := by
        simp [pushed]
      have hsize := hkeeps.size
      rw [hlen] at hsize
      exact ⟨hkeeps.sink.trans h.sink, hkeeps.shutdown.trans h.up, hkeeps.rows h.rows,
        Nat.le_trans hsize hfull, hphase⟩
    · rw [record_full (Nat.le_of_not_lt hfull)]
      exact h
  | clock ms =>
    cases hnext
    exact of_keeps ⟨rfl, rfl, rfl, fun h => h, Nat.le_refl _⟩
  | fire id =>
    obtain ⟨-, -, rfl⟩ := fire_cases hnext
    have herase : Keeps s { s with armed := s.armed.erase id } :=
      ⟨rfl, rfl, rfl, fun h => h, Nat.le_refl _⟩
    exact of_keeps (herase.trans flushNow_keeps)
  | settle i ok =>
    obtain ⟨p, -, rfl, -⟩ := settle_cases hnext
    exact of_keeps ⟨rfl, rfl, rfl, fun h => h, Nat.le_refl _⟩
  | job job =>
    obtain ⟨hjob, rfl⟩ := job_cases hnext
    have herase : Keeps s { s with jobs := s.jobs.erase job } :=
      ⟨rfl, rfl, rfl, fun h => h, Nat.le_refl _⟩
    cases job with
    | written w => exact of_keeps ⟨rfl, rfl, rfl, fun h => h, Nat.le_refl _⟩
    | onFinally flush =>
      have hkeeps := herase.trans onFinally_keeps
      have hdown := hkeeps.shutdown.trans h.up
      apply of_keeps
      simp only [runJob]
      rw [if_neg (by rw [hdown]; simp)]
      exact hkeeps
    | resume =>
      obtain ⟨id, hid⟩ := writing_of_job h.phase hjob
      have howner := (live_single hid.live hjob).1
      cases howner
  | destroy => exact absurd rfl hm

theorem run_buffered {ms : List Move} (h : Buffered s) (hms : .destroy ∉ ms)
    (hrun : s.run ms = some s') : Buffered s' := by
  induction ms generalizing s with
  | nil =>
    cases hrun
    exact h
  | cons m ms ih =>
    obtain ⟨s₁, hm, hrest⟩ := run_cons.mp hrun
    have hne : m ≠ .destroy := by
      intro he
      exact hms (List.mem_cons.mpr (Or.inl he.symm))
    have htail : .destroy ∉ ms := by
      intro hmem
      exact hms (List.mem_cons_of_mem _ hmem)
    exact ih (next_buffered h hne hm) htail hrest

theorem Phase.pending_le (h : Phase s) : s.pending.length ≤ 1 := by
  have hle := pending_le_live (s := s)
  obtain ⟨id, h⟩ | h | ⟨id, h⟩ := h
  · rwa [h.live] at hle
  · rw [h.live] at hle
    exact Nat.le_trans hle (Nat.zero_le 1)
  · rw [h.live] at hle
    exact Nat.le_trans hle (Nat.zero_le 1)

/-- What waits is either being flushed or has a timer, which is the one that is set. -/
theorem Phase.waits (h : Phase s) (hbuffer : s.buffer ≠ []) :
    (s.flushing.isSome ∧ s.timer = none ∧ s.armed = []) ∨
      s.flushing = none ∧ ∃ id, s.timer = some id ∧ s.armed = [id] := by
  obtain ⟨id, h⟩ | h | ⟨id, h⟩ := h
  · have hsome : s.flushing.isSome := by simp [h.flushing]
    exact Or.inl ⟨hsome, h.timer, h.armed⟩
  · exact absurd h.buffer hbuffer
  · exact Or.inr ⟨h.flushing, id, h.timer, h.armed⟩

/-- Until the shutdown one insert at a time is in flight, with at most 500 rows; every accepted sample
is in one insert or in the buffer, in order, and what waits is flushed by one thing. -/
theorem buffer_keeps_samples (moves : List Move) (s : Service)
    (hrun : Service.run {} moves = some s) (hup : .destroy ∉ moves) :
    s.pending.length ≤ 1 ∧ (∀ rows ∈ s.inserts, rows.length ≤ 500) ∧ s.buffer.length ≤ 50000 ∧
      s.inserts.flatten ++ s.buffer = Service.accepted {} moves ∧
      (s.buffer ≠ [] → (s.flushing.isSome ∧ s.timer = none ∧ s.armed = []) ∨
        s.flushing = none ∧ ∃ id, s.timer = some id ∧ s.armed = [id]) := by
  have h := run_buffered buffered_start hup hrun
  have htaken := run_taken hrun
  exact ⟨h.phase.pending_le, h.rows, h.size, htaken, h.phase.waits⟩

/-- One sample is being inserted, a second one waits. -/
theorem buffer_keeps_two_samples :
    let moves := [Move.clock 7, .record "orders_created" 1 none, .fire 0, .clock 9,
      .record "cpu_percent" 40 none]
    ∃ s, Service.run {} moves = some s ∧ s.pending.length = 1 ∧
      s.inserts.flatten ++ s.buffer =
        [⟨"orders_created", 1, none, 7⟩, ⟨"cpu_percent", 40, none, 9⟩] ∧
      s.flushing.isSome := by
  intro moves
  let s : Service := ((Service.run {} moves).getD {})
  have hrun : Service.run {} moves = some s := by rfl
  have hup : .destroy ∉ moves := by decide
  obtain ⟨-, -, -, htaken, -⟩ := buffer_keeps_samples moves s hrun hup
  exact ⟨s, hrun, rfl, htaken, rfl⟩

end Service

end OrderLifecycle.Metrics

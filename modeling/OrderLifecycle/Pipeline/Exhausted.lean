import OrderLifecycle.Pipeline.Lossless

open Framework

namespace OrderLifecycle.Pipeline

variable {base : Nat} {c : Catalog} {b : Bool} {moves : List Move} {s s' : State} {t : Tid}
  {queue : ConsumerQueue} {m : OutboxMessageEntity} {msg : Message}

/-! ### Failed deliveries -/

/-- Thread `t` was given the message, and its handler threw. -/
def Failed (m : OutboxMessageEntity) (s : State) (t : Tid) : Prop :=
  ∃ e, Returns s.services t (.deliver m) (.error e)

/-- The message was delivered at least `n` times in vain. -/
def FailedTimes (m : OutboxMessageEntity) (n : Nat) (s : State) (ts : List Tid) : Prop :=
  ts.Nodup ∧ n ≤ ts.length ∧ ∀ t ∈ ts, Failed m s t

theorem Step.failed (h : Step base s s') (hf : Failed m s t) : Failed m s' t := by
  obtain ⟨e, hr⟩ := hf
  rcases h.services with he | ⟨l, hl⟩
  · exact ⟨e, by rwa [Returns, he]⟩
  · exact ⟨e, orderSystem.next_inactive hl hr id⟩

theorem FailedTimes.next {n : Nat} {ts : List Tid} (hf : FailedTimes m n s ts)
    (h : Step base s s') : FailedTimes m n s' ts :=
  ⟨hf.1, hf.2.1, fun t ht => h.failed (hf.2.2 t ht)⟩

/-- Retries are counted: every copy has failed as often as its header says, `t` not among the threads
of the copy it handles, and only what has failed too often is rejected. -/
structure Counted (s : State) : Prop where
  queued : ∀ x ∈ s.broker.queues, attempts x.2 ≤ defaultMaxRetries ∧
    ∃ ts, FailedTimes x.2.content (attempts x.2) s ts
  inHand : ∀ t d, s.inHand t = some d → attempts d.message ≤ defaultMaxRetries ∧
    ∃ ts, FailedTimes d.message.content (attempts d.message) s ts ∧ t ∉ ts
  failed : ∀ t d calls, s.inHand t = some d → d.todo = some calls →
    (∀ name copy, .sendToQueue name copy ∈ calls →
      Failed d.message.content s t ∧ attempts d.message < defaultMaxRetries) ∧
    (.nack false ∈ calls → Failed d.message.content s t ∧ defaultMaxRetries ≤ attempts d.message)
  dead : ∀ msg ∈ s.broker.deadLetters, ∃ ts, FailedTimes msg.content (defaultMaxRetries + 1) s ts

/-- One more failure. -/
theorem FailedTimes.snoc {n : Nat} {ts : List Tid} (hf : FailedTimes m n s ts) (ht : Failed m s t)
    (hn : t ∉ ts) : FailedTimes m (n + 1) s (t :: ts) := by
  refine ⟨List.nodup_cons.mpr ⟨hn, hf.1⟩, Nat.succ_le_succ hf.2.1, fun t' ht' => ?_⟩
  rcases List.mem_cons.mp ht' with rfl | ht'
  · exact ht
  · exact hf.2.2 t' ht'

theorem Step.counted_inHand (h : Step base s s') (hs : Counted s) {d : Delivery}
    (hd : s'.inHand t = some d) : attempts d.message ≤ defaultMaxRetries ∧
      ∃ ts, FailedTimes d.message.content (attempts d.message) s' ts ∧ t ∉ ts := by
  rcases h.inHand hd with ⟨d₀, hd₀, -, hm⟩ | ⟨hmem, -, hrun⟩
  · obtain ⟨hle, ts, hf, hn⟩ := hs.inHand t d₀ hd₀
    rw [hm]
    exact ⟨hle, ts, hf.next h, hn⟩
  · obtain ⟨hle, ts, hf⟩ := hs.queued _ hmem
    refine ⟨hle, ts, hf.next h, fun hmem' => ?_⟩
    -- the thread is new, so it has not failed before
    obtain ⟨e, hr⟩ := hf.2.2 t hmem'
    have hsome : s.services.threads t = some (.deliver d.message.content, .running (.ret (.error e))) :=
      hr
    simp [System.next, hsome] at hrun

theorem Step.counted_queued (h : Step base s s') (hl : Lossless s) (hs : Counted s)
    {x : String × Message} (hx : x ∈ s'.broker.queues) : attempts x.2 ≤ defaultMaxRetries ∧
      ∃ ts, FailedTimes x.2.content (attempts x.2) s' ts := by
  have now : attempts x.2 ≤ defaultMaxRetries ∧
      ∃ ts, FailedTimes x.2.content (attempts x.2) s ts := by
    cases h.source hl hx with
    | old mem => exact hs.queued x mem
    | published row queue key relayed =>
      exact ⟨Nat.zero_le _, [], List.nodup_nil, Nat.zero_le _, by simp⟩
    | parked t queue msg delayMs hand known =>
      obtain ⟨hf, hlt⟩ := (hs.failed t _ _ hand rfl).1 _ _ List.mem_cons_self
      obtain ⟨-, ts, hts, hn⟩ := hs.inHand t _ hand
      exact ⟨hlt, t :: ts, hts.snoc hf hn⟩
    | expired waitQueue msg arguments mem declared => exact hs.queued (waitQueue, msg) mem
    | back t d hand =>
      obtain ⟨hle, ts, hf, -⟩ := hs.inHand t d hand
      exact ⟨hle, ts, hf⟩
  obtain ⟨hle, ts, hf⟩ := now
  exact ⟨hle, ts, hf.next h⟩

theorem failed_reaction {r : Except AppError Reply}
    (hh : Handles t (.deliver msg.content) r s.services.shared)
    (ht : Returns s.services t (.deliver msg.content) r) :
    (∀ name copy, .sendToQueue name copy ∈ reaction base queue msg r →
      Failed msg.content s t ∧ attempts msg < defaultMaxRetries) ∧
    (.nack false ∈ reaction base queue msg r →
      Failed msg.content s t ∧ defaultMaxRetries ≤ attempts msg) := by
  cases r with
  | ok r =>
    obtain ⟨rfl, -⟩ := hh
    simp [reaction]
  | error e =>
    have hf : Failed msg.content s t := ⟨e, ht⟩
    rcases errorHandler_eq base queue.name msg with ⟨hlt, delayMs, he⟩ | ⟨hle, he⟩
    · simp [reaction, he, hf, hlt]
    · simp [reaction, he, hf, hle]

theorem Step.counted_failed (h : Step base s s') (hcert : Certificates (c := c) s.services)
    (hl : Lossless s) (hs : Counted s) {d : Delivery} {calls : List ChannelCall}
    (hd : s'.inHand t = some d) (hcalls : d.todo = some calls) :
    (∀ name copy, .sendToQueue name copy ∈ calls →
      Failed d.message.content s' t ∧ attempts d.message < defaultMaxRetries) ∧
    (.nack false ∈ calls → Failed d.message.content s' t ∧ defaultMaxRetries ≤ attempts d.message) := by
  have later (hf : (∀ name copy, .sendToQueue name copy ∈ calls →
        Failed d.message.content s t ∧ attempts d.message < defaultMaxRetries) ∧
      (.nack false ∈ calls → Failed d.message.content s t ∧ defaultMaxRetries ≤ attempts d.message)) :
      (∀ name copy, .sendToQueue name copy ∈ calls →
        Failed d.message.content s' t ∧ attempts d.message < defaultMaxRetries) ∧
      (.nack false ∈ calls → Failed d.message.content s' t ∧ defaultMaxRetries ≤ attempts d.message) :=
    ⟨fun name copy hm => ⟨h.failed (hf.1 name copy hm).1, (hf.1 name copy hm).2⟩,
      fun hm => ⟨h.failed (hf.2 hm).1, (hf.2 hm).2⟩⟩
  have old (hd : s.inHand t = some d) := later (hs.failed t d calls hd hcalls)
  cases h with
  | deliver t' q msg front back services queues run =>
    by_cases e : t = t'
    · subst e
      cases (Function.update_self t _ _).symm.trans hd
      cases hcalls
    · exact old ((Function.update_of_ne e ..).symm.trans hd)
  | settle t' q msg k r hand thread =>
    by_cases e : t = t'
    · subst e
      cases (Function.update_self t _ _).symm.trans hd
      cases hcalls
      obtain ⟨th, ht⟩ := hl.handled t _ hand
      cases ht.symm.trans thread
      exact later (failed_reaction (hcert.filings.result thread) thread)
    · exact old ((Function.update_of_ne e ..).symm.trans hd)
  | channel t' q msg call rest broker hand perform =>
    by_cases e : t = t'
    · subst e
      have hd' := (Function.update_self t _ _).symm.trans hd
      split at hd'
      · cases hd'
      · cases hd'
        cases hcalls
        obtain ⟨hsend, hnack⟩ := hs.failed t _ _ hand rfl
        exact later ⟨fun name copy hm => hsend name copy (List.mem_cons_of_mem _ hm),
          fun hm => hnack (List.mem_cons_of_mem _ hm)⟩
    · exact old ((Function.update_of_ne e ..).symm.trans hd)
  | requeue t' d' hand =>
    by_cases e : t = t'
    · subst e
      cases (Function.update_self t _ _).symm.trans hd
    · exact old ((Function.update_of_ne e ..).symm.trans hd)
  | _ => exact old hd

theorem Step.counted_dead (h : Step base s s') (hl : Lossless s) (hs : Counted s)
    (hm : msg ∈ s'.broker.deadLetters) :
    ∃ ts, FailedTimes msg.content (defaultMaxRetries + 1) s' ts := by
  have old (hm : msg ∈ s.broker.deadLetters) :
      ∃ ts, FailedTimes msg.content (defaultMaxRetries + 1) s' ts := by
    obtain ⟨ts, hf⟩ := hs.dead msg hm
    exact ⟨ts, hf.next h⟩
  cases h with
  | channel t q msg' call rest broker hand perform =>
    have hset : Settling q msg' s (call :: rest) := hl.settling t _ _ hand rfl
    have hfailed := hs.failed t _ _ hand rfl
    cases hset with
    | parking delayMs =>
      simp only [Amqp.perform] at perform
      split at perform
      · cases perform
        exact old hm
      · split at perform
        · cases perform
          exact old hm
        · cases perform
    | rejected =>
      cases perform
      rcases List.mem_append.mp hm with hm | hm
      · exact old hm
      · cases List.mem_singleton.mp hm
        obtain ⟨hf, hle⟩ := hfailed.2 List.mem_cons_self
        obtain ⟨-, ts, hts, hn⟩ := hs.inHand t _ hand
        obtain ⟨hnodup, hlen, hall⟩ := hts.snoc hf hn
        exact ⟨t :: ts, hnodup, (Nat.succ_le_succ hle).trans hlen, hall⟩
    | _ =>
      cases perform
      exact old hm
  | _ => exact old hm

theorem Counted.next (hs : Counted s) (hcert : Certificates (c := c) s.services) (hl : Lossless s)
    (h : Step base s s') : Counted s' where
  queued _ hx := h.counted_queued hl hs hx
  inHand _ _ hd := h.counted_inHand hs hd
  failed _ _ _ hd hcalls := h.counted_failed hcert hl hs hd hcalls
  dead _ hm := h.counted_dead hl hs hm

theorem counted_init : Counted (.init c b) where
  queued _ hx := by cases hx
  inHand _ _ hd := by cases hd
  failed _ _ _ hd := by cases hd
  dead _ hm := by cases hm

theorem Reaches.counted (h : Reaches base c b moves s) : Counted s :=
  (h.induct (P := fun s => Lossless s ∧ Counted s) ⟨lossless_init, counted_init⟩
    fun _ _ hcert hstep hs => ⟨hs.1.next hcert hstep, hs.2.next hcert hs.1 hstep⟩).2.2

end OrderLifecycle.Pipeline

import Mathlib.Data.List.Induction
import OrderLifecycle.Messaging.Broker

namespace OrderLifecycle.Amqp

variable {α : Type}

/-- The message once it has been parked `j` times and has come back. -/
def redelivered (queue : String) (m : Message α) : Nat → Message α
  | 0 => m
  | j + 1 =>
    { m with
      routingKey := queue
      headers := { m.headers with attempts := some (j + 1) }
      deaths := m.deaths + (j + 1) }

/-- The copy that is parked after the `j`-th failure. -/
def parkedCopy (queue : String) (m : Message α) (j : Nat) : Message α :=
  { redelivered queue m (j - 1) with headers := { m.headers with attempts := some j } }

/-- The wait queue of the `j`-th retry. -/
def waitQueue (queue : String) (base j : Nat) : String := retryQueueName queue (base * 2 ^ (j - 1))

/-- What is called on the channel in the `j`-th invocation. -/
def callsAt (queue : String) (maxRetries base : Nat) (m : Message α) (ok : Nat → Bool) (j : Nat) :
    List (ChannelCall α) :=
  if ok j then [.ack]
  else if j ≤ maxRetries then
    [.assertQueue (waitQueue queue base j) ⟨base * 2 ^ (j - 1), "", queue⟩,
      .sendToQueue (waitQueue queue base j) (parkedCopy queue m j), .ack]
  else [.nack false]

/-- Where the message is after `d` invocations and `steps` events. -/
inductive Place (queue : String) (maxRetries base : Nat) (m : Message α) (ok : Nat → Bool)
    (s : Broker α) (d steps : Nat) : Prop
  | ready (queues : s.queues = [(queue, redelivered queue m d)]) (few : d ≤ maxRetries)
      (failed : ∀ j, 1 ≤ j → j ≤ d → ok j = false) (dead : s.deadLetters = [])
      (events : steps = 2 * d)
  | parked (queues : s.queues = [(waitQueue queue base d,
        { parkedCopy queue m d with routingKey := waitQueue queue base d })])
      (declared : s.declared (waitQueue queue base d) = some ⟨base * 2 ^ (d - 1), "", queue⟩)
      (pos : 1 ≤ d) (few : d ≤ maxRetries) (failed : ∀ j, 1 ≤ j → j ≤ d → ok j = false)
      (dead : s.deadLetters = []) (events : steps + 1 = 2 * d)
  | handled (queues : s.queues = []) (pos : 1 ≤ d) (few : d ≤ maxRetries + 1)
      (failed : ∀ j, 1 ≤ j → j < d → ok j = false) (success : ok d = true)
      (dead : s.deadLetters = []) (events : steps + 1 = 2 * d)
  | dead (queues : s.queues = []) (exhausted : d = maxRetries + 1)
      (failed : ∀ j, 1 ≤ j → j ≤ d → ok j = false)
      (dead : s.deadLetters = [redelivered queue m maxRetries]) (events : steps + 1 = 2 * d)

structure Track (queue : String) (maxRetries base : Nat) (m : Message α) (ok : Nat → Bool)
    (steps : Nat) (s : Broker α) : Prop where
  delivered : s.delivered = (List.range s.delivered.length).map (redelivered queue m)
  calls : s.calls = (List.range s.delivered.length).flatMap fun j =>
    callsAt queue maxRetries base m ok (j + 1)
  declared : ∀ q arguments, s.declared q = some arguments →
    ∃ delayMs, q = retryQueueName queue delayMs ∧ arguments = waitQueueArguments queue delayMs
  place : Place queue maxRetries base m ok s s.delivered.length steps

variable {queue : String} {maxRetries base steps : Nat} {m : Message α} {ok : Nat → Bool}
  {s s' : Broker α}

theorem redelivered_attempts (hm : m.headers.attempts = none) (j : Nat) :
    (redelivered queue m j).headers.attempts.getD 0 = j := by
  cases j with
  | zero => simp [redelivered, hm]
  | succ j => rfl

/-- The error handler in the invocation after `d` failures. -/
theorem errorHandler_redelivered (hm : m.headers.attempts = none) {d : Nat}
    (hfail : ok (d + 1) = false) :
    errorHandler queue maxRetries base (redelivered queue m d) =
      callsAt queue maxRetries base m ok (d + 1) := by
  have hattempts : (redelivered queue m d).headers.attempts.getD 0 = d := redelivered_attempts hm d
  unfold errorHandler createRetryErrorHandler callsAt
  rw [hattempts, hfail]
  by_cases h : d < maxRetries
  · have hothers : (redelivered queue m d).headers.others = m.headers.others := by cases d <;> rfl
    simp only [if_pos h, if_pos (Nat.succ_le_of_lt h), parkedCopy, Nat.add_sub_cancel, ← hothers]
    rfl
  · have h' : ¬d + 1 ≤ maxRetries := fun h' => h h'
    simp only [if_neg h, if_neg h']
    rfl

theorem Track.start (m : Message α) (queue : String) (maxRetries base : Nat) (ok : Nat → Bool) :
    Track queue maxRetries base m ok 0 (start queue m) where
  delivered := rfl
  calls := rfl
  declared := nofun
  place := .ready rfl (Nat.zero_le _) (fun _ hj hd => nomatch Nat.le_trans hj hd) rfl rfl

/-! ### One event -/

theorem take_self (name : String) (msg : Message α) : take name [(name, msg)] = some (msg, []) :=
  if_pos rfl

theorem take_other {name name' : String} (msg : Message α) (h : name' ≠ name) :
    take name [(name', msg)] = none := by
  simp only [take, if_neg h, Option.map_none]

theorem take_wait {j : Nat} {msg : Message α} : take queue [(waitQueue queue base j, msg)] = none :=
  take_other msg (waitQueue_ne queue _)

/-- Whatever was declared before, the wait queue can be declared. -/
theorem perform_assertQueue (h : Track queue maxRetries base m ok steps s) (s' : Broker α)
    (hs' : s'.declared = s.declared) (msg : Message α) (j : Nat) :
    ∃ declared, perform queue msg s' (.assertQueue (waitQueue queue base j)
        ⟨base * 2 ^ (j - 1), "", queue⟩) = some { s' with
          declared := declared
          calls := s'.calls ++ [.assertQueue (waitQueue queue base j) ⟨base * 2 ^ (j - 1), "", queue⟩] } ∧
      declared (waitQueue queue base j) = some ⟨base * 2 ^ (j - 1), "", queue⟩ ∧
      ∀ q arguments, declared q = some arguments →
        ∃ delayMs, q = retryQueueName queue delayMs ∧ arguments = waitQueueArguments queue delayMs := by
  cases hd : s.declared (waitQueue queue base j) with
  | none =>
    refine ⟨Function.update s.declared (waitQueue queue base j)
      (some ⟨base * 2 ^ (j - 1), "", queue⟩), ?_, Function.update_self .., ?_⟩
    · simp only [perform, hs', hd]
    · intro q arguments hq
      by_cases e : q = waitQueue queue base j
      · subst e
        rw [Function.update_self] at hq
        cases hq
        exact ⟨base * 2 ^ (j - 1), rfl, rfl⟩
      · rw [Function.update_of_ne e] at hq
        exact h.declared q arguments hq
  | some existing =>
    obtain ⟨delayMs, hname, rfl⟩ := h.declared _ _ hd
    obtain ⟨-, rfl⟩ := retryQueueName_inj hname
    refine ⟨s.declared, ?_, hd, h.declared⟩
    simp only [perform, hs', hd, waitQueueArguments, if_true]

/-- The history after one more invocation. -/
theorem Track.history (h : Track queue maxRetries base m ok steps s)
    {calls : List (ChannelCall α)}
    (hcalls : calls = s.calls ++ callsAt queue maxRetries base m ok (s.delivered.length + 1)) :
    s.delivered ++ [redelivered queue m s.delivered.length] =
        (List.range (s.delivered.length + 1)).map (redelivered queue m) ∧
      calls = (List.range (s.delivered.length + 1)).flatMap fun j =>
        callsAt queue maxRetries base m ok (j + 1) := by
  constructor
  · rw [List.range_succ, List.map_append, ← h.delivered]
    rfl
  · rw [hcalls, List.range_succ, List.flatMap_append, ← h.calls, List.flatMap_singleton]

theorem Track.deliver (h : Track queue maxRetries base m ok steps s)
    (hm : m.headers.attempts = none)
    (hn : next queue maxRetries base ok s .deliver = some s') :
    Track queue maxRetries base m ok (steps + 1) s' := by
  have hidle (msg : Message α) (hq : s.queues = [] ∨
      s.queues = [(waitQueue queue base s.delivered.length, msg)]) : False := by
    simp only [next] at hn
    rcases hq with hq | hq
    · rw [hq] at hn
      cases hn
    · rw [hq, take_wait] at hn
      cases hn
  cases h.place with
  | parked queues => exact (hidle _ (.inr queues)).elim
  | handled queues => exact (hidle m (.inl queues)).elim
  | dead queues => exact (hidle m (.inl queues)).elim
  | ready queues few failed dead events =>
    have hlength : (s.delivered ++ [redelivered queue m s.delivered.length]).length =
        s.delivered.length + 1 := List.length_append
    simp only [next, queues, take_self, Option.bind_some, hlength] at hn
    by_cases hok : ok (s.delivered.length + 1) = true
    · rw [if_pos hok] at hn
      have hcalls : callsAt queue maxRetries base m ok (s.delivered.length + 1) = [.ack] := if_pos hok
      have hnow : s.calls ++ [.ack] =
          s.calls ++ callsAt queue maxRetries base m ok (s.delivered.length + 1) := by rw [hcalls]
      obtain ⟨hdelivered, hhistory⟩ := h.history hnow
      cases hn
      refine ⟨?_, ?_, h.declared, ?_⟩
      · dsimp only
        rw [hlength, hdelivered]
      · dsimp only
        rw [hlength, hhistory]
      · dsimp only
        rw [hlength]
        exact .handled rfl (Nat.le_add_left ..) (Nat.succ_le_succ few)
          (fun j hj hd => failed j hj (Nat.le_of_lt_succ hd)) hok dead (by omega)
    · have hfail : ok (s.delivered.length + 1) = false := Bool.eq_false_iff.mpr hok
      have hfailed : ∀ j, 1 ≤ j → j ≤ s.delivered.length + 1 → ok j = false := by
        intro j hj hd
        rcases Nat.le_succ_iff.mp hd with hd | rfl
        · exact failed j hj hd
        · exact hfail
      rw [if_neg hok, errorHandler_redelivered hm hfail] at hn
      by_cases hn' : s.delivered.length + 1 ≤ maxRetries
      · have hcalls : callsAt queue maxRetries base m ok (s.delivered.length + 1) = _ :=
          (if_neg hok).trans (if_pos hn')
        rw [hcalls] at hn
        obtain ⟨declared, hassert, hself, hdeclared⟩ := perform_assertQueue h
          { s with
            queues := []
            delivered := s.delivered ++ [redelivered queue m s.delivered.length] }
          rfl (redelivered queue m s.delivered.length) (s.delivered.length + 1)
        rw [List.foldlM_cons, hassert] at hn
        obtain ⟨hdelivered, hhistory⟩ := h.history rfl
        cases hn
        refine ⟨?_, ?_, hdeclared, ?_⟩
        · dsimp only
          rw [hlength, hdelivered]
        · dsimp only
          rw [hlength, ← hhistory, hcalls]
          simp
        · dsimp only
          rw [hlength]
          exact .parked rfl hself (Nat.le_add_left ..) hn' hfailed dead (by omega)
      · have hcalls : callsAt queue maxRetries base m ok (s.delivered.length + 1) = [.nack false] :=
          (if_neg hok).trans (if_neg hn')
        have hnow : s.calls ++ [.nack false] =
            s.calls ++ callsAt queue maxRetries base m ok (s.delivered.length + 1) := by rw [hcalls]
        obtain ⟨hdelivered, hhistory⟩ := h.history hnow
        rw [hcalls] at hn
        cases hn
        have hlast : s.delivered.length = maxRetries := by omega
        refine ⟨?_, ?_, h.declared, ?_⟩
        · dsimp only
          rw [hlength, hdelivered]
        · dsimp only
          rw [hlength, hhistory]
        · dsimp only
          rw [hlength]
          exact .dead rfl (by omega) hfailed (by rw [dead, hlast]; rfl) (by omega)

/-- Back in its work queue, the parked copy is the message once more. -/
theorem redelivered_parkedCopy {d : Nat} (hd : 1 ≤ d) (name : String) :
    { ({ parkedCopy queue m d with routingKey := name } : Message α) with
      routingKey := queue
      deaths := (parkedCopy queue m d).deaths + 1 } = redelivered queue m d := by
  obtain ⟨e, rfl⟩ := Nat.exists_eq_add_of_le' hd
  cases e <;> rfl

theorem Track.expire (h : Track queue maxRetries base m ok steps s) {name : String}
    (hn : next queue maxRetries base ok s (.expire name) = some s') :
    Track queue maxRetries base m ok (steps + 1) s' := by
  obtain ⟨arguments, hargs, hn⟩ := Option.bind_eq_some_iff.mp hn
  obtain ⟨⟨msg, rest⟩, htake, hn⟩ := Option.bind_eq_some_iff.mp hn
  cases h.place with
  | ready queues =>
    obtain ⟨delayMs, rfl, -⟩ := h.declared name arguments hargs
    rw [queues, take_other _ (waitQueue_ne queue delayMs).symm] at htake
    cases htake
  | handled queues =>
    rw [queues] at htake
    cases htake
  | dead queues =>
    rw [queues] at htake
    cases htake
  | parked queues declared pos few failed dead events =>
    by_cases e : waitQueue queue base s.delivered.length = name
    · subst e
      rw [queues, take_self] at htake
      cases htake
      cases hargs.symm.trans declared
      cases hn
      refine ⟨h.delivered, h.calls, h.declared, ?_⟩
      exact .ready (congrArg (fun copy => [(queue, copy)]) (redelivered_parkedCopy pos _)) few failed
        dead (by dsimp only; omega)
    · rw [queues, take_other _ e] at htake
      cases htake

theorem Track.run (hm : m.headers.attempts = none) {events : List Event}
    (hrun : run queue maxRetries base ok (Amqp.start queue m) events = some s) :
    Track queue maxRetries base m ok events.length s := by
  induction events using List.reverseRecOn generalizing s with
  | nil =>
    cases hrun
    exact .start m queue maxRetries base ok
  | append_singleton events event ih =>
    rw [Amqp.run, List.foldlM_append] at hrun
    obtain ⟨d, hd, hn⟩ := Option.bind_eq_some_iff.mp hrun
    rw [List.foldlM_cons] at hn
    obtain ⟨d', hn, he⟩ := Option.bind_eq_some_iff.mp hn
    cases he
    rw [List.length_append, List.length_singleton]
    cases event with
    | deliver => exact (ih hd).deliver hm hn
    | expire name => exact (ih hd).expire hn

/-! ### Bounded and lossless -/

/-- The `k`-th invocation is the first one that succeeds. -/
def FirstSuccess (ok : Nat → Bool) (k : Nat) : Prop :=
  1 ≤ k ∧ ok k = true ∧ ∀ j, 1 ≤ j → j < k → ok j = false

/-- What holds in any state that a message can get into. -/
structure BoundedLossless (queue : String) (maxRetries base : Nat) (m : Message α) (ok : Nat → Bool)
    (s : Broker α) : Prop where
  /-- Never two copies. -/
  single : s.queues.length ≤ 1
  bounded : s.delivered.length ≤ maxRetries + 1
  /-- Every delivery is of the message as it was published, but for the count of attempts. -/
  same : ∀ msg ∈ s.delivered, msg.content = m.content ∧ msg.messageId = m.messageId ∧
    msg.headers.others = m.headers.others
  /-- One copy parked and the original acknowledged after each failure but the last, which is nacked. -/
  calls : s.calls = (List.range s.delivered.length).flatMap fun j =>
    callsAt queue maxRetries base m ok (j + 1)
  /-- A parked copy is in the wait queue of its attempt, which leads back to the work queue. -/
  parked : ∀ name msg, (name, msg) ∈ s.queues → name ≠ queue →
    ∃ j, 1 ≤ j ∧ j ≤ maxRetries ∧ name = waitQueue queue base j ∧
      s.declared name = some ⟨base * 2 ^ (j - 1), "", queue⟩ ∧ msg.headers.attempts = some j ∧
      msg.content = m.content ∧ msg.messageId = m.messageId ∧ msg.headers.others = m.headers.others
  /-- It is not lost on the way. -/
  lossless : s.queues ≠ [] → s.deadLetters = [] ∧
    ∃ event s', next queue maxRetries base ok s event = some s'
  succeeded : ∀ k, FirstSuccess ok k → s.queues = [] →
    s.delivered.length = min k (maxRetries + 1)
  exhausted : (∀ k, 1 ≤ k → k ≤ maxRetries + 1 → ok k = false) → s.queues = [] →
    s.delivered.length = maxRetries + 1
  /-- Dead-lettered, once, just if every invocation failed. -/
  dead : (∀ k, 1 ≤ k → k ≤ maxRetries + 1 → ok k = false) → s.queues = [] →
    s.deadLetters = [redelivered queue m maxRetries]
  alive : ∀ k, 1 ≤ k → k ≤ maxRetries + 1 → ok k = true → s.deadLetters = []

theorem redelivered_same (queue : String) (m : Message α) (j : Nat) :
    (redelivered queue m j).content = m.content ∧ (redelivered queue m j).messageId = m.messageId ∧
      (redelivered queue m j).headers.others = m.headers.others := by
  cases j <;> exact ⟨rfl, rfl, rfl⟩

theorem Track.delivers (h : Track queue maxRetries base m ok steps s)
    (hm : m.headers.attempts = none)
    (queues : s.queues = [(queue, redelivered queue m s.delivered.length)]) :
    ∃ s', next queue maxRetries base ok s .deliver = some s' := by
  have hlength : (s.delivered ++ [redelivered queue m s.delivered.length]).length =
      s.delivered.length + 1 := List.length_append
  simp only [next, queues, take_self, Option.bind_some, hlength]
  by_cases hok : ok (s.delivered.length + 1) = true
  · rw [if_pos hok]
    exact ⟨_, rfl⟩
  · rw [if_neg hok, errorHandler_redelivered hm (Bool.eq_false_iff.mpr hok), callsAt, if_neg hok]
    split
    · obtain ⟨declared, hassert, -, -⟩ := perform_assertQueue h
        { s with
          queues := []
          delivered := s.delivered ++ [redelivered queue m s.delivered.length] }
        rfl (redelivered queue m s.delivered.length) (s.delivered.length + 1)
      rw [List.foldlM_cons, hassert]
      exact ⟨_, rfl⟩
    · exact ⟨_, rfl⟩

theorem next_expire {name : String} {msg : Message α} {ttl : Nat} (queues : s.queues = [(name, msg)])
    (declared : s.declared name = some ⟨ttl, "", queue⟩) :
    ∃ s', next queue maxRetries base ok s (.expire name) = some s' := by
  simp only [next, declared, queues, take_self, Option.bind_some, if_true]
  exact ⟨_, rfl⟩

theorem Track.bounded (h : Track queue maxRetries base m ok steps s)
    (hm : m.headers.attempts = none) :
    steps ≤ 2 * maxRetries + 1 ∧ BoundedLossless queue maxRetries base m ok s := by
  have hsame : ∀ msg ∈ s.delivered, msg.content = m.content ∧ msg.messageId = m.messageId ∧
      msg.headers.others = m.headers.others := by
    intro msg hmsg
    rw [h.delivered] at hmsg
    obtain ⟨j, -, rfl⟩ := List.mem_map.mp hmsg
    exact redelivered_same queue m j
  cases h.place with
  | ready queues few failed dead events =>
    refine ⟨by omega, by simp [queues], by omega, hsame, h.calls, ?_, fun _ => ⟨dead, .deliver,
      h.delivers hm queues⟩, ?_, ?_, ?_, fun _ _ _ _ => dead⟩
    · intro name msg hmem hne
      rw [queues, List.mem_singleton] at hmem
      cases hmem
      exact absurd rfl hne
    all_goals
      intros
      simp [queues] at *
  | parked queues declared pos few failed dead events =>
    refine ⟨by omega, by simp [queues], by omega, hsame, h.calls, ?_, fun _ => ⟨dead,
      .expire (waitQueue queue base s.delivered.length), ?_⟩, ?_, ?_, ?_, fun _ _ _ _ => dead⟩
    · intro name msg hmem _
      rw [queues, List.mem_singleton] at hmem
      cases hmem
      obtain ⟨hcontent, hid, -⟩ := redelivered_same queue m (s.delivered.length - 1)
      exact ⟨_, pos, few, rfl, declared, rfl, hcontent, hid, rfl⟩
    · exact next_expire queues declared
    all_goals
      intros
      simp [queues] at *
  | handled queues pos few failed success dead events =>
    refine ⟨by omega, by simp [queues], few, hsame, h.calls, by simp [queues],
      fun hne => absurd queues hne, ?_, ?_, ?_, fun _ _ _ _ => dead⟩
    · rintro k ⟨hpos, hok, hfirst⟩ -
      have hle : s.delivered.length ≤ k := by
        by_contra hlt
        exact nomatch hok.symm.trans (failed k hpos (Nat.lt_of_not_le hlt))
      have hge : k ≤ s.delivered.length := by
        by_contra hlt
        exact nomatch success.symm.trans (hfirst _ pos (Nat.lt_of_not_le hlt))
      omega
    · intro hall _
      exact nomatch success.symm.trans (hall _ pos few)
    · intro hall _
      exact nomatch success.symm.trans (hall _ pos few)
  | dead queues exhausted failed dead events =>
    refine ⟨by omega, by simp [queues], by omega, hsame, h.calls, by simp [queues],
      fun hne => absurd queues hne, ?_, fun _ _ => exhausted, fun _ _ => dead, ?_⟩
    · rintro k ⟨hpos, hok, -⟩ -
      have hlt : ¬k ≤ s.delivered.length := fun hle => nomatch hok.symm.trans (failed k hpos hle)
      omega
    · intro k hpos hle hok
      exact nomatch hok.symm.trans (failed k hpos (by omega))

/-- Retries are bounded and lose nothing, and a wait queue is declared with the same arguments
whenever and by whichever consumer. -/
theorem bounded_lossless_retries (queue : String) (maxRetries base : Nat) (m : Message α)
    (hm : m.headers.attempts = none) (ok : Nat → Bool) :
    (∀ events s, run queue maxRetries base ok (start queue m) events = some s →
      events.length ≤ 2 * maxRetries + 1 ∧ BoundedLossless queue maxRetries base m ok s) ∧
    ∀ queue' delayMs delayMs', retryQueueName queue delayMs = retryQueueName queue' delayMs' →
      waitQueueArguments queue delayMs = waitQueueArguments queue' delayMs' := by
  constructor
  · intro events s hrun
    exact (Track.run hm hrun).bounded hm
  · intro queue' delayMs delayMs' hname
    obtain ⟨rfl, rfl⟩ := retryQueueName_inj hname
    rfl

/-- The third invocation succeeds. -/
theorem bounded_lossless_retries_third : ∃ s,
    run "email.notifications" 3 1000 (· == 3)
      (start "email.notifications" ⟨"order.failed", (), some 5, ⟨none, fun _ => none⟩, 0⟩)
      [.deliver, .expire "email.notifications.retry.1000ms", .deliver,
        .expire "email.notifications.retry.2000ms", .deliver] = some s ∧
    s.delivered.length = 3 ∧ s.deadLetters = [] := by
  have hrun : (run "email.notifications" 3 1000 (· == 3)
      (start "email.notifications" ⟨"order.failed", (), some 5, ⟨none, fun _ => none⟩, 0⟩)
      [.deliver, .expire "email.notifications.retry.1000ms", .deliver,
        .expire "email.notifications.retry.2000ms", .deliver]).map (fun s => s.queues.isEmpty) =
      some true := by decide +kernel
  obtain ⟨s, hs, hempty⟩ := Option.map_eq_some_iff.mp hrun
  have hqueues : s.queues = [] := List.isEmpty_iff.mp hempty
  obtain ⟨-, hb⟩ := (bounded_lossless_retries "email.notifications" 3 1000
    ⟨"order.failed", (), some 5, ⟨none, fun _ => none⟩, 0⟩ rfl (· == 3)).1 _ s hs
  have hfirst : FirstSuccess (· == 3) 3 := by
    refine ⟨by decide, by decide, fun j _ hj => ?_⟩
    simp only [beq_eq_false_iff_ne]
    omega
  exact ⟨s, hs, hb.succeeded 3 hfirst hqueues, hb.alive 3 (by decide) (by decide) rfl⟩

end OrderLifecycle.Amqp

import OrderLifecycle.Pipeline.System

open Framework

namespace OrderLifecycle.Pipeline

variable {base n : Nat} {c : Catalog} {b : Bool} {moves : List Move} {s s' : State} {t : Tid}
  {queue : ConsumerQueue} {m : OutboxMessageEntity} {broker broker' : Broker} {msg : Message}

/-! ### Queue names -/

theorem name_inj {q q' : ConsumerQueue} (h : q.name = q'.name) : q = q' := by
  cases q <;> cases q' <;> first | rfl | exact absurd h (by decide)

/-- No consumer listens to a wait queue. -/
theorem waitQueue_ne_name (q q' : ConsumerQueue) (delayMs : Nat) :
    retryQueueName q.name delayMs ≠ q'.name := by
  intro h
  have hend := congrArg (fun name => name.toList.reverse.take 2) h
  have hms : "ms".toList.reverse = ['s', 'm'] := rfl
  simp only [Amqp.toList_retryQueueName, List.reverse_append, hms, List.cons_append,
    List.take_succ_cons, List.take_zero] at hend
  cases q' <;> exact absurd hend (by decide)

/-- An event is recorded for the consumer of the queue that it is routed to. -/
theorem consumerOf_routed {e : OrderEvent} (h : e.routingKey ∈ queue.routingKeys) :
    consumerOf e = queue.consumer := by
  cases queue <;> cases e <;> first | rfl | simp [ConsumerQueue.routingKeys, OrderEvent.routingKey] at h

/-- The queue that a key is bound to. -/
def queueOf : RoutingKey → ConsumerQueue
  | .created => .inventory
  | .inventoryReserved => .payment
  | .paymentProcessed => .completion
  | .completed => .email
  | .failed => .email

theorem mem_routingKeys {key : RoutingKey} : key ∈ queue.routingKeys ↔ queueOf key = queue := by
  cases queue <;> cases key <;> decide

/-! ### Where a message is -/

/-- How often the message has been retried. -/
def attempts (msg : Message) : Nat := msg.headers.attempts.getD 0

/-- The name is that of the queue, or of a wait queue that leads back to it. -/
def LeadsTo (queue : ConsumerQueue) (broker : Broker) (name : String) : Prop :=
  name = queue.name ∨ ∃ delayMs, name = retryQueueName queue.name delayMs ∧
    broker.declared name = some (Amqp.waitQueueArguments queue.name delayMs)

/-- A copy waits, after `n` retries at least, for the consumer of the queue. -/
def Waiting (queue : ConsumerQueue) (m : OutboxMessageEntity) (n : Nat) (s : State) : Prop :=
  ∃ name msg, (name, msg) ∈ s.broker.queues ∧ LeadsTo queue s.broker name ∧ msg.content = m ∧
    n ≤ attempts msg

/-- A copy is being handled by the consumer of the queue. -/
def InHand (queue : ConsumerQueue) (m : OutboxMessageEntity) (n : Nat) (s : State) : Prop :=
  ∃ t d, s.inHand t = some d ∧ d.queue = queue ∧ d.message.content = m ∧ n ≤ attempts d.message

/-- A copy is in the dead-letter queue. -/
def DeadLettered (m : OutboxMessageEntity) (s : State) : Prop :=
  ∃ msg ∈ s.broker.deadLetters, msg.content = m

/-- A copy that has been retried `n` times at least is still there, or is not needed any more. -/
def Held (queue : ConsumerQueue) (m : OutboxMessageEntity) (n : Nat) (s : State) : Prop :=
  Waiting queue m n s ∨ InHand queue m n s ∨ DeadLettered m s ∨
    Filed m.id queue.consumer s.services.shared

theorem Held.mono {n' : Nat} (h : Held queue m n s) (hn : n' ≤ n) : Held queue m n' s := by
  rcases h with ⟨name, msg, hmem, hlead, hm, hle⟩ | ⟨t, d, hd, hq, hm, hle⟩ | hdead | hfiled
  · exact .inl ⟨name, msg, hmem, hlead, hm, hn.trans hle⟩
  · exact .inr (.inl ⟨t, d, hd, hq, hm, hn.trans hle⟩)
  · exact .inr (.inr (.inl hdead))
  · exact .inr (.inr (.inr hfiled))

theorem LeadsTo.declared {name : String} (h : LeadsTo queue broker name)
    (hd : ∀ name arguments, broker.declared name = some arguments →
      broker'.declared name = some arguments) : LeadsTo queue broker' name := by
  rcases h with h | ⟨delayMs, hname, hargs⟩
  · exact .inl h
  · exact .inr ⟨delayMs, hname, hd _ _ hargs⟩

/-! ### Channel calls -/

/-- What a call leaves alone. -/
structure Grows (broker broker' : Broker) : Prop where
  queues : ∀ x ∈ broker.queues, x ∈ broker'.queues
  declared : ∀ name arguments, broker.declared name = some arguments →
    broker'.declared name = some arguments
  dead : ∀ x ∈ broker.deadLetters, x ∈ broker'.deadLetters

theorem grows_perform {call : ChannelCall}
    (h : Amqp.perform queue.name msg broker call = some broker') : Grows broker broker' := by
  cases call with
  | assertQueue name arguments =>
    simp only [Amqp.perform] at h
    split at h
    · next hnone =>
      cases h
      refine ⟨fun _ hx => hx, fun name' arguments' hd => ?_, fun _ hx => hx⟩
      have hne : name' ≠ name := by
        rintro rfl
        exact nomatch hnone.symm.trans hd
      exact (Function.update_of_ne hne ..).trans hd
    · split at h
      · cases h
        exact ⟨fun _ hx => hx, fun _ _ hd => hd, fun _ hx => hx⟩
      · cases h
  | sendToQueue name copy =>
    cases h
    exact ⟨fun _ hx => List.mem_append_left _ hx, fun _ _ hd => hd, fun _ hx => hx⟩
  | ack =>
    cases h
    exact ⟨fun _ hx => hx, fun _ _ hd => hd, fun _ hx => hx⟩
  | nack requeue =>
    cases requeue with
    | true =>
      cases h
      exact ⟨fun _ hx => List.mem_cons_of_mem _ hx, fun _ _ hd => hd, fun _ hx => hx⟩
    | false =>
      cases h
      exact ⟨fun _ hx => hx, fun _ _ hd => hd, fun _ hx => List.mem_append_left _ hx⟩

/-- Once declared, a queue is what it was declared as. -/
theorem declared_perform {name : String} {arguments : Amqp.QueueArguments}
    (h : Amqp.perform queue.name msg broker (.assertQueue name arguments) = some broker') :
    broker'.declared name = some arguments := by
  simp only [Amqp.perform] at h
  split at h
  · cases h
    exact Function.update_self ..
  · next existing he =>
    split at h
    · next heq =>
      cases h
      rw [heq] at he
      exact he
    · cases h

/-- The copy that is parked. -/
def parked (msg : Message) : Message :=
  { msg with headers := { msg.headers with attempts := some (attempts msg + 1) } }

/-- The calls of the error handler: the message is parked and acknowledged, or dead-lettered. -/
theorem errorHandler_eq (base : Nat) (queue : String) (msg : Message) :
    (attempts msg < defaultMaxRetries ∧ ∃ delayMs,
      Amqp.errorHandler queue defaultMaxRetries base msg =
        [.assertQueue (retryQueueName queue delayMs) (Amqp.waitQueueArguments queue delayMs),
          .sendToQueue (retryQueueName queue delayMs) (parked msg), .ack]) ∨
    (defaultMaxRetries ≤ attempts msg ∧
      Amqp.errorHandler queue defaultMaxRetries base msg = [.nack false]) := by
  by_cases hlt : attempts msg < defaultMaxRetries
  · refine .inl ⟨hlt, retryDelayMs (attempts msg + 1) base, ?_⟩
    have hretry : createRetryErrorHandler queue defaultMaxRetries base msg.headers.attempts =
        .retry (retryQueueName queue (retryDelayMs (attempts msg + 1) base))
          (retryDelayMs (attempts msg + 1) base) (attempts msg + 1) := if_pos hlt
    rw [Amqp.errorHandler, hretry]
    rfl
  · have hle : defaultMaxRetries ≤ attempts msg := Nat.le_of_not_lt hlt
    refine .inr ⟨hle, ?_⟩
    rw [Amqp.errorHandler, createRetryErrorHandler_deadLetter hle]

/-- How far the handling of a message has got once its handler has ended: recorded; to be parked,
declared, sent; or to be dead-lettered. -/
inductive Settling (queue : ConsumerQueue) (msg : Message) (s : State) : List ChannelCall → Prop
  | recorded (filed : Filed msg.content.id queue.consumer s.services.shared) :
      Settling queue msg s [.ack]
  | parking (delayMs : Nat) :
      Settling queue msg s
        [.assertQueue (retryQueueName queue.name delayMs) (Amqp.waitQueueArguments queue.name delayMs),
          .sendToQueue (retryQueueName queue.name delayMs) (parked msg), .ack]
  | declared (delayMs : Nat) (known : s.broker.declared (retryQueueName queue.name delayMs) =
        some (Amqp.waitQueueArguments queue.name delayMs)) :
      Settling queue msg s [.sendToQueue (retryQueueName queue.name delayMs) (parked msg), .ack]
  | sent (held : Held queue msg.content (attempts msg + 1) s) : Settling queue msg s [.ack]
  | rejected : Settling queue msg s [.nack false]

/-- Every message in a queue is one that its consumer may be given. -/
def Queued (broker : Broker) (x : String × Message) : Prop :=
  ∃ queue, LeadsTo queue broker x.1 ∧ x.2.content.routingKey ∈ queue.routingKeys

/-- What keeps messages from getting lost. -/
structure Lossless (s : State) : Prop where
  handled : ∀ t d, s.inHand t = some d →
    ∃ th, s.services.threads t = some (.deliver d.message.content, th)
  routed : ∀ t d, s.inHand t = some d → d.message.content.routingKey ∈ d.queue.routingKeys
  queued : ∀ x ∈ s.broker.queues, Queued s.broker x
  declared : ∀ name arguments, s.broker.declared name = some arguments → ∃ queue delayMs,
    name = retryQueueName (ConsumerQueue.name queue) delayMs ∧
      arguments = Amqp.waitQueueArguments (ConsumerQueue.name queue) delayMs
  settling : ∀ t d calls, s.inHand t = some d → d.todo = some calls →
    Settling d.queue d.message s calls
  held : ∀ m ∈ s.published, ∀ queue, m.routingKey ∈ ConsumerQueue.routingKeys queue → Held queue m 0 s

/-! ### Each step keeps what is held -/

theorem Step.filed (h : Step base s s') (hcert : Certificates (c := c) s.services) {id : Uuid}
    {consumer : Consumer} (hf : Filed id consumer s.services.shared) :
    Filed id consumer s'.services.shared := by
  rcases h.services with he | ⟨l, hl⟩
  · rwa [he]
  · have hadmits : filingLogic.Admits l := by
      cases l <;> exact trivial
    rcases (hcert.filings.next filed_orderSystem hadmits hl).2.cases with he | hd | ⟨t, k, th, -, -, hg⟩
    · rwa [he]
    · have hd' : s'.services.shared.db = s.services.shared.db := hd
      rwa [Filed, hd']
    · exact hg.2.kept id consumer hf

/-- What waits goes on waiting where queues and declarations only grow. -/
theorem Waiting.grows (h : Waiting queue m n s)
    (hq : ∀ x ∈ s.broker.queues, x ∈ s'.broker.queues)
    (hd : ∀ name arguments, s.broker.declared name = some arguments →
      s'.broker.declared name = some arguments) : Waiting queue m n s' := by
  obtain ⟨name, msg, hmem, hlead, hm, hle⟩ := h
  exact ⟨name, msg, hq _ hmem, hlead.declared hd, hm, hle⟩

/-- The last call on a message that is parked or recorded may give the copy in hand away. -/
theorem held_channel {call : ChannelCall} {rest : List ChannelCall}
    (hand : s.inHand t = some ⟨queue, msg, some (call :: rest)⟩)
    (perform : Amqp.perform queue.name msg s.broker call = some broker)
    (hset : Settling queue msg s (call :: rest)) {q : ConsumerQueue}
    (h : Held q m n s) :
    Held q m n { s with
      broker := broker
      inHand := Function.update s.inHand t
        (if rest.isEmpty then none else some ⟨queue, msg, some rest⟩) } ∨
    (call = .ack ∧ rest = [] ∧ queue = q ∧ msg.content = m ∧ n ≤ attempts msg) := by
  have hgrows := grows_perform perform
  rcases h with h | ⟨t', d, hd, hq, hm, hle⟩ | ⟨x, hx, hm⟩ | hfiled
  · exact .inl (.inl (h.grows hgrows.queues hgrows.declared))
  · by_cases e : t' = t
    · subst e
      cases hand.symm.trans hd
      have hkeep (hne : rest.isEmpty = false) : Held q m n { s with
          broker := broker
          inHand := Function.update s.inHand t'
            (if rest.isEmpty then none else some ⟨queue, msg, some rest⟩) } := by
        refine .inr (.inl ⟨t', ⟨queue, msg, some rest⟩, ?_, hq, hm, hle⟩)
        dsimp only
        rw [Function.update_self, hne]
        rfl
      cases hset with
      | recorded => exact .inr ⟨rfl, rfl, hq, hm, hle⟩
      | parking => exact .inl (hkeep rfl)
      | declared => exact .inl (hkeep rfl)
      | sent => exact .inr ⟨rfl, rfl, hq, hm, hle⟩
      | rejected =>
        cases perform
        exact .inl (.inr (.inr (.inl ⟨msg, List.mem_append_right _ (List.mem_singleton.mpr rfl), hm⟩)))
    · refine .inl (.inr (.inl ⟨t', d, ?_, hq, hm, hle⟩))
      exact (Function.update_of_ne e ..).trans hd
  · exact .inl (.inr (.inr (.inl ⟨x, hgrows.dead x hx, hm⟩)))
  · exact .inl (.inr (.inr (.inr hfiled)))

theorem Step.held (h : Step base s s') (hcert : Certificates (c := c) s.services) (hs : Lossless s)
    (hheld : Held queue m n s) : Held queue m n s' := by
  have hrecorded (hf : Filed m.id queue.consumer s.services.shared) : Held queue m n s' :=
    .inr (.inr (.inr (h.filed hcert hf)))
  cases h with
  | serve l services run =>
    rcases hheld with hw | hd | hdead | hf
    · exact .inl (hw.grows (fun _ hx => hx) fun _ _ hd => hd)
    · exact .inr (.inl hd)
    · exact .inr (.inr (.inl hdead))
    · exact hrecorded hf
  | publish row services row_eq run =>
    rcases hheld with hw | hd | hdead | hf
    · exact .inl (hw.grows (fun _ hx => List.mem_append_left _ hx) fun _ _ hd => hd)
    · exact .inr (.inl hd)
    · exact .inr (.inr (.inl hdead))
    · exact hrecorded hf
  | deliver t q msg front back services queues run =>
    rcases hheld with ⟨name, msg', hmem, hlead, hm, hle⟩ | ⟨t', d, hd, hq, hm, hle⟩ | hdead | hf
    · rw [queues, List.mem_append, List.mem_cons] at hmem
      have hrest (hmem : (name, msg') ∈ front ++ back) : Waiting queue m n { s with
          services := services
          broker := { s.broker with
            queues := front ++ back
            delivered := s.broker.delivered ++ [msg] }
          inHand := Function.update s.inHand t (some ⟨q, msg, none⟩) } :=
        ⟨name, msg', hmem, hlead.declared fun _ _ hd => hd, hm, hle⟩
      rcases hmem with hmem | he | hmem
      · exact .inl (hrest (List.mem_append_left _ hmem))
      · cases he
        have hq : q = queue := by
          rcases hlead with hname | ⟨delayMs, hname, -⟩
          · exact name_inj hname
          · exact absurd hname.symm (waitQueue_ne_name queue q delayMs)
        exact .inr (.inl ⟨t, _, Function.update_self .., hq, hm, hle⟩)
      · exact .inl (hrest (List.mem_append_right _ hmem))
    · have hne : t' ≠ t := by
        rintro rfl
        obtain ⟨th, ht⟩ := hs.handled t' d hd
        simp [System.next, ht] at run
      exact .inr (.inl ⟨t', d, (Function.update_of_ne hne ..).trans hd, hq, hm, hle⟩)
    · exact .inr (.inr (.inl hdead))
    · exact hrecorded hf
  | settle t q msg k r hand thread =>
    rcases hheld with hw | ⟨t', d, hd, hq, hm, hle⟩ | hdead | hf
    · exact .inl (hw.grows (fun _ hx => hx) fun _ _ hd => hd)
    · by_cases e : t' = t
      · subst e
        cases hand.symm.trans hd
        exact .inr (.inl ⟨t', _, Function.update_self .., hq, hm, hle⟩)
      · exact .inr (.inl ⟨t', d, (Function.update_of_ne e ..).trans hd, hq, hm, hle⟩)
    · exact .inr (.inr (.inl hdead))
    · exact hrecorded hf
  | channel t q msg call rest broker hand perform =>
    have hset := hs.settling t _ _ hand rfl
    rcases held_channel hand perform hset hheld with hh | ⟨rfl, rfl, rfl, rfl, hle⟩
    · exact hh
    · cases hset with
      | recorded filed => exact hrecorded filed
      | sent held =>
        rcases held_channel hand perform (hs.settling t _ _ hand rfl) held with hh | ⟨-, -, -, -, hlt⟩
        · exact hh.mono (by dsimp only; omega)
        · dsimp only at hlt
          omega
  | expire front back waitQueue msg arguments declared queues =>
    rcases hheld with ⟨name, msg', hmem, hlead, hm, hle⟩ | hd | hdead | hf
    · left
      rw [queues, List.mem_append, List.mem_cons] at hmem
      have hlead' : LeadsTo queue s.broker name := hlead
      rcases hmem with hmem | he | hmem
      · exact ⟨name, msg', List.mem_append_left _ (List.mem_append_left _ hmem), hlead', hm, hle⟩
      · cases he
        obtain ⟨q', delayMs', hname', hargs'⟩ := hs.declared _ _ declared
        have hback : arguments.deadLetterRoutingKey = queue.name := by
          rcases hlead with hname | ⟨delayMs, hname, hargs⟩
          · exact absurd (hname'.symm.trans hname) (waitQueue_ne_name q' queue delayMs')
          · cases declared.symm.trans hargs
            rfl
        exact ⟨_, _, List.mem_append_right _ (List.mem_singleton.mpr rfl), .inl hback, hm, hle⟩
      · exact ⟨name, msg', List.mem_append_left _ (List.mem_append_right _ hmem), hlead', hm, hle⟩
    · exact .inr (.inl hd)
    · exact .inr (.inr (.inl hdead))
    · exact hrecorded hf
  | requeue t d hand =>
    rcases hheld with hw | ⟨t', d', hd, hq, hm, hle⟩ | hdead | hf
    · exact .inl (hw.grows (fun _ hx => List.mem_cons_of_mem _ hx) fun _ _ hd => hd)
    · by_cases e : t' = t
      · subst e
        cases hand.symm.trans hd
        exact .inl ⟨_, _, List.mem_cons_self, .inl (congrArg ConsumerQueue.name hq), hm, hle⟩
      · exact .inr (.inl ⟨t', d', (Function.update_of_ne e ..).trans hd, hq, hm, hle⟩)
    · exact .inr (.inr (.inl hdead))
    · exact hrecorded hf

theorem Step.declared (h : Step base s s') {name : String} {arguments : Amqp.QueueArguments}
    (hd : s.broker.declared name = some arguments) : s'.broker.declared name = some arguments := by
  cases h with
  | channel t q msg call rest broker hand perform =>
    exact (grows_perform perform).declared name arguments hd
  | _ => exact hd

theorem Settling.next {calls : List ChannelCall} (hset : Settling queue msg s calls)
    (h : Step base s s') (hcert : Certificates (c := c) s.services) (hs : Lossless s) :
    Settling queue msg s' calls := by
  cases hset with
  | recorded filed => exact .recorded (h.filed hcert filed)
  | parking delayMs => exact .parking delayMs
  | declared delayMs known => exact .declared delayMs (h.declared known)
  | sent held => exact .sent (h.held hcert hs held)
  | rejected => exact .rejected

/-- Where a delivery comes from: it was in hand before, or has just been taken out of its queue. -/
theorem Step.inHand (h : Step base s s') {d : Delivery} (hd : s'.inHand t = some d) :
    (∃ d₀, s.inHand t = some d₀ ∧ d.queue = d₀.queue ∧ d.message = d₀.message) ∨
    ((d.queue.name, d.message) ∈ s.broker.queues ∧ d.todo = none ∧
      orderSystem.next s.services (.start t (.deliver d.message.content)) = some s'.services) := by
  cases h with
  | deliver t' q msg front back services queues run =>
    by_cases e : t = t'
    · subst e
      cases (Function.update_self t _ _).symm.trans hd
      exact .inr ⟨by simp [queues], rfl, run⟩
    · exact .inl ⟨d, (Function.update_of_ne e ..).symm.trans hd, rfl, rfl⟩
  | settle t' q msg k r hand thread =>
    by_cases e : t = t'
    · subst e
      cases (Function.update_self t _ _).symm.trans hd
      exact .inl ⟨_, hand, rfl, rfl⟩
    · exact .inl ⟨d, (Function.update_of_ne e ..).symm.trans hd, rfl, rfl⟩
  | channel t' q msg call rest broker hand perform =>
    by_cases e : t = t'
    · subst e
      have hd' := (Function.update_self t _ _).symm.trans hd
      split at hd'
      · cases hd'
      · cases hd'
        exact .inl ⟨_, hand, rfl, rfl⟩
    · exact .inl ⟨d, (Function.update_of_ne e ..).symm.trans hd, rfl, rfl⟩
  | requeue t' d' hand =>
    by_cases e : t = t'
    · subst e
      cases (Function.update_self t _ _).symm.trans hd
    · exact .inl ⟨d, (Function.update_of_ne e ..).symm.trans hd, rfl, rfl⟩
  | _ => exact .inl ⟨d, hd, rfl, rfl⟩

theorem Lossless.routed_of_name (hs : Lossless s)
    (hmem : (queue.name, msg) ∈ s.broker.queues) : msg.content.routingKey ∈ queue.routingKeys := by
  obtain ⟨q, hlead, hkey⟩ := hs.queued _ hmem
  rcases hlead with hname | ⟨delayMs, hname, -⟩
  · rw [name_inj hname]
    exact hkey
  · exact absurd hname.symm (waitQueue_ne_name q queue delayMs)

theorem Step.handled (h : Step base s s') (hs : Lossless s) {d : Delivery}
    (hd : s'.inHand t = some d) :
    (∃ th, s'.services.threads t = some (.deliver d.message.content, th)) ∧
      d.message.content.routingKey ∈ d.queue.routingKeys := by
  rcases h.inHand hd with ⟨d₀, hd₀, hq, hm⟩ | ⟨hmem, -, hrun⟩
  · rw [hq, hm]
    refine ⟨?_, hs.routed t d₀ hd₀⟩
    obtain ⟨th, ht⟩ := hs.handled t d₀ hd₀
    rcases h.services with he | ⟨l, hl⟩
    · rw [he]
      exact ⟨th, ht⟩
    · exact orderSystem.next_call hl ht
  · refine ⟨?_, hs.routed_of_name hmem⟩
    simp only [System.next] at hrun
    split at hrun
    · split at hrun
      · rw [← Option.some.inj hrun]
        exact ⟨_, Function.update_self ..⟩
      · cases hrun
    · cases hrun

theorem mem_publish {row : OutboxMessageEntity} {x : String × Message} :
    x ∈ (publish row broker).queues ↔ x ∈ broker.queues ∨
      ∃ queue : ConsumerQueue, row.routingKey ∈ queue.routingKeys ∧ x = (queue.name, published row) := by
  simp only [publish, List.mem_append, List.mem_map, List.mem_filter, List.contains_iff_mem]
  constructor
  · rintro (h | ⟨q, ⟨-, hkey⟩, rfl⟩)
    · exact .inl h
    · exact .inr ⟨q, hkey, rfl⟩
  · rintro (h | ⟨q, hkey, rfl⟩)
    · exact .inl h
    · refine .inr ⟨q, ⟨?_, hkey⟩, rfl⟩
      cases q <;> simp [ConsumerQueue.all]

/-- Where a message in a queue comes from: it was there, has been published, parked or put back, or
has been in a wait queue for its time. -/
inductive Source (s s' : State) : String × Message → Prop
  | old {x : String × Message} (mem : x ∈ s.broker.queues) : Source s s' x
  | published (row : OutboxMessageEntity) (queue : ConsumerQueue)
      (key : row.routingKey ∈ queue.routingKeys) (relayed : row ∈ s'.services.shared.messages) :
      Source s s' (queue.name, published row)
  | parked (t : Tid) (queue : ConsumerQueue) (msg : Message) (delayMs : Nat)
      (hand : s.inHand t = some ⟨queue, msg,
        some [.sendToQueue (retryQueueName queue.name delayMs) (parked msg), .ack]⟩)
      (known : s.broker.declared (retryQueueName queue.name delayMs) =
        some (Amqp.waitQueueArguments queue.name delayMs)) :
      Source s s' (retryQueueName queue.name delayMs,
        { parked msg with routingKey := retryQueueName queue.name delayMs })
  | expired (waitQueue : String) (msg : Message) (arguments : Amqp.QueueArguments)
      (mem : (waitQueue, msg) ∈ s.broker.queues)
      (declared : s.broker.declared waitQueue = some arguments) :
      Source s s' (arguments.deadLetterRoutingKey, { msg with
        routingKey := arguments.deadLetterRoutingKey
        deaths := msg.deaths + 1 })
  | back (t : Tid) (d : Delivery) (hand : s.inHand t = some d) : Source s s' (d.queue.name, d.message)

/-- The calls that a message is settled with: one copy is sent, or nothing gets into a queue. -/
theorem perform_queues {call : ChannelCall} {rest : List ChannelCall}
    (hand : s.inHand t = some ⟨queue, msg, some (call :: rest)⟩)
    (hset : Settling queue msg s (call :: rest))
    (perform : Amqp.perform queue.name msg s.broker call = some broker) {x : String × Message}
    (hx : x ∈ broker.queues) : Source s s' x := by
  cases hset with
  | parking delayMs =>
    simp only [Amqp.perform] at perform
    split at perform
    · cases perform
      exact .old hx
    · split at perform
      · cases perform
        exact .old hx
      · cases perform
  | declared delayMs known =>
    cases perform
    rcases List.mem_append.mp hx with hx | hx
    · exact .old hx
    · cases List.mem_singleton.mp hx
      exact .parked t queue msg delayMs hand known
  | _ =>
    cases perform
    exact .old hx

theorem Step.source (h : Step base s s') (hs : Lossless s) {x : String × Message}
    (hx : x ∈ s'.broker.queues) : Source s s' x := by
  have without {front back : List (String × Message)} {y : String × Message}
      (queues : s.broker.queues = front ++ y :: back) (hx : x ∈ front ++ back) :
      x ∈ s.broker.queues := by
    rw [queues]
    rcases List.mem_append.mp hx with hx | hx
    · exact List.mem_append_left _ hx
    · exact List.mem_append_right _ (List.mem_cons_of_mem _ hx)
  cases h with
  | serve => exact .old hx
  | publish row services row_eq run =>
    rcases mem_publish.mp hx with hx | ⟨q, hkey, rfl⟩
    · exact .old hx
    · refine .published row q hkey ?_
      obtain ⟨w, hw, rfl⟩ := Option.map_eq_some_iff.mp run
      obtain ⟨row', hrow', rfl⟩ := Option.map_eq_some_iff.mp hw
      cases row_eq.symm.trans hrow'
      exact List.mem_cons_self
  | deliver t q msg front back services queues run => exact .old (without queues hx)
  | settle => exact .old hx
  | channel t q msg call rest broker hand perform =>
    exact perform_queues hand (hs.settling t _ _ hand rfl) perform hx
  | expire front back waitQueue msg arguments declared queues =>
    rcases List.mem_append.mp hx with hx | hx
    · exact .old (without queues hx)
    · cases List.mem_singleton.mp hx
      exact .expired waitQueue msg arguments (by simp [queues]) declared
  | requeue t d hand =>
    rcases List.mem_cons.mp hx with rfl | hx
    · exact .back t d hand
    · exact .old hx

theorem Step.queued (h : Step base s s') (hs : Lossless s) {x : String × Message}
    (hx : x ∈ s'.broker.queues) : Queued s'.broker x := by
  have later {queue : ConsumerQueue} {name : String} (hlead : LeadsTo queue s.broker name) :
      LeadsTo queue s'.broker name := hlead.declared fun _ _ hd => h.declared hd
  cases h.source hs hx with
  | old mem =>
    obtain ⟨q, hlead, hkey⟩ := hs.queued x mem
    exact ⟨q, later hlead, hkey⟩
  | published row queue key relayed => exact ⟨queue, .inl rfl, key⟩
  | parked t queue msg delayMs hand known =>
    exact ⟨queue, later (.inr ⟨delayMs, rfl, known⟩), hs.routed t _ hand⟩
  | expired waitQueue msg arguments mem declared =>
    obtain ⟨q, hlead, hkey⟩ := hs.queued _ mem
    refine ⟨q, .inl ?_, hkey⟩
    obtain ⟨q', delayMs', hname', -⟩ := hs.declared _ _ declared
    rcases hlead with hname | ⟨delayMs, -, hargs⟩
    · exact absurd (hname'.symm.trans hname) (waitQueue_ne_name q' q delayMs')
    · cases declared.symm.trans hargs
      rfl
  | back t d hand => exact ⟨d.queue, .inl rfl, hs.routed t d hand⟩

theorem Step.named (h : Step base s s') (hs : Lossless s) {name : String}
    {arguments : Amqp.QueueArguments} (hd : s'.broker.declared name = some arguments) :
    ∃ queue delayMs, name = retryQueueName (ConsumerQueue.name queue) delayMs ∧
      arguments = Amqp.waitQueueArguments (ConsumerQueue.name queue) delayMs := by
  cases h with
  | channel t q msg call rest broker hand perform =>
    have hset : Settling q msg s (call :: rest) := hs.settling t _ _ hand rfl
    cases hset with
    | parking delayMs =>
      by_cases e : name = retryQueueName q.name delayMs
      · subst e
        have hnow := declared_perform perform
        cases hnow.symm.trans hd
        exact ⟨q, delayMs, rfl, rfl⟩
      · simp only [Amqp.perform] at perform
        split at perform
        · cases perform
          exact hs.declared _ _ ((Function.update_of_ne e ..).symm.trans hd)
        · split at perform
          · cases perform
            exact hs.declared _ _ hd
          · cases perform
    | _ =>
      cases perform
      exact hs.declared _ _ hd
  | _ => exact hs.declared _ _ hd

/-- What the library calls once the handler has returned. -/
theorem settling_reaction (hcert : Certificates (c := c) s.services) {r : Except AppError Reply}
    (hkey : msg.content.routingKey ∈ queue.routingKeys)
    (ht : s.services.threads t = some (.deliver msg.content, .running (.ret r))) :
    Settling queue msg s (reaction base queue msg r) := by
  cases r with
  | ok r =>
    obtain ⟨rfl, hfiled⟩ := hcert.filings.result ht
    have hpub := hcert.delivering t msg.content _ ht
    obtain ⟨row, -, hp, -⟩ := hpub.order hcert.orders.inv
    have hpayload := hp.events.key ((World.mem_events _).mp hpub)
    rw [← hpayload] at hkey
    refine .recorded ?_
    rwa [← consumerOf_routed hkey]
  | error e =>
    rcases errorHandler_eq base queue.name msg with ⟨-, delayMs, he⟩ | ⟨-, he⟩
    · simp only [reaction, he]
      exact .parking delayMs
    · simp only [reaction, he]
      exact .rejected

theorem Step.settling (h : Step base s s') (hcert : Certificates (c := c) s.services)
    (hs : Lossless s) {d : Delivery} {calls : List ChannelCall} (hd : s'.inHand t = some d)
    (hcalls : d.todo = some calls) : Settling d.queue d.message s' calls := by
  have old (hd : s.inHand t = some d) : Settling d.queue d.message s' calls :=
    (hs.settling t d calls hd hcalls).next h hcert hs
  cases h with
  | deliver t' q msg front back services queues run =>
    by_cases e : t = t'
    · subst e
      cases (Function.update_self t _ _).symm.trans hd
      cases hcalls
    · exact old ((Function.update_of_ne e ..).symm.trans hd)
  | settle t' q msg k r hand thread =>
    by_cases e : t = t'
    · subst e
      cases (Function.update_self t _ _).symm.trans hd
      cases hcalls
      obtain ⟨th, ht⟩ := hs.handled t _ hand
      cases ht.symm.trans thread
      exact (settling_reaction hcert (hs.routed t _ hand) thread).next
        (.settle t q msg _ r hand thread) hcert hs
    · exact old ((Function.update_of_ne e ..).symm.trans hd)
  | channel t' q msg call rest broker hand perform =>
    by_cases e : t = t'
    · subst e
      have hd' := (Function.update_self t _ _).symm.trans hd
      have hset : Settling q msg s (call :: rest) := hs.settling t _ _ hand rfl
      cases hset with
      | parking delayMs =>
        cases hd'
        cases hcalls
        exact .declared delayMs (declared_perform perform)
      | declared delayMs known =>
        cases hd'
        cases hcalls
        cases perform
        refine .sent (.inl ⟨_, _, List.mem_append_right _ (List.mem_singleton.mpr rfl),
          .inr ⟨delayMs, rfl, known⟩, rfl, ?_⟩)
        exact Nat.le_refl _
      | _ => cases hd'
    · exact old ((Function.update_of_ne e ..).symm.trans hd)
  | requeue t' d' hand =>
    by_cases e : t = t'
    · subst e
      cases (Function.update_self t _ _).symm.trans hd
    · exact old ((Function.update_of_ne e ..).symm.trans hd)
  | _ => exact old hd

theorem Step.published (h : Step base s s') (hcert : Certificates (c := c) s.services)
    (hs : Lossless s) (hm : m ∈ s'.published) (hkey : m.routingKey ∈ queue.routingKeys) :
    Held queue m 0 s' := by
  have old (hm : m ∈ s.published) : Held queue m 0 s' :=
    h.held hcert hs (hs.held m hm queue hkey)
  cases h with
  | publish row services row_eq run =>
    rcases List.mem_cons.mp hm with rfl | hm
    · exact .inl ⟨queue.name, published m, mem_publish.mpr (.inr ⟨queue, hkey, rfl⟩), .inl rfl, rfl,
        Nat.zero_le _⟩
    · exact old hm
  | _ => exact old hm

theorem Lossless.next (hs : Lossless s) (hcert : Certificates (c := c) s.services)
    (h : Step base s s') : Lossless s' where
  handled _ _ hd := (h.handled hs hd).1
  routed _ _ hd := (h.handled hs hd).2
  queued _ hx := h.queued hs hx
  declared _ _ hd := h.named hs hd
  settling _ _ _ hd hcalls := h.settling hcert hs hd hcalls
  held _ hm _ hkey := h.published hcert hs hm hkey

theorem lossless_init : Lossless (.init c b) where
  handled _ _ hd := by cases hd
  routed _ _ hd := by cases hd
  queued _ hx := by cases hx
  declared _ _ hd := by cases hd
  settling _ _ _ hd := by cases hd
  held _ hm := by cases hm

theorem Reaches.lossless (h : Reaches base c b moves s) :
    Certificates (c := c) s.services ∧ Lossless s :=
  h.induct lossless_init fun _ _ hcert hstep hs => hs.next hcert hstep

end OrderLifecycle.Pipeline

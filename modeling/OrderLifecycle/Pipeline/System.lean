import OrderLifecycle.Messaging.Broker
import OrderLifecycle.Pipeline.Certified

open Framework

namespace OrderLifecycle.Pipeline

/-! ### Queues and messages -/

inductive ConsumerQueue
  | inventory
  | payment
  | completion
  | email
  deriving DecidableEq, Repr

namespace ConsumerQueue

def name : ConsumerQueue → String
  | inventory => "inventory.order_created"
  | payment => "payment.inventory_reserved"
  | completion => "completion.payment_processed"
  | email => "email.notifications"

/-- The keys that the queue is bound to the exchange with. -/
def routingKeys : ConsumerQueue → List RoutingKey
  | inventory => [.created]
  | payment => [.inventoryReserved]
  | completion => [.paymentProcessed]
  | email => [.completed, .failed]

/-- The name that its consumer has in the inbox. -/
def consumer : ConsumerQueue → Consumer
  | inventory => .inventory
  | payment => .payment
  | completion => .completion
  | email => OrderLifecycle.email

def all : List ConsumerQueue := [inventory, payment, completion, email]

end ConsumerQueue

/-- The content of a message is the outbox row it was published from. -/
abbrev Message := Amqp.Message OutboxMessageEntity
abbrev ChannelCall := Amqp.ChannelCall OutboxMessageEntity
abbrev Broker := Amqp.Broker OutboxMessageEntity

/-- `EventPublisher.publish`. -/
def published (row : OutboxMessageEntity) : Message where
  routingKey := toString row.routingKey
  content := row
  messageId := some row.id
  headers := ⟨none, fun name => if name = "x-correlation-id" then some (toString row.correlationId) else none⟩
  deaths := 0

/-- The exchange copies a message to every queue that is bound with its key. -/
def publish (row : OutboxMessageEntity) (b : Broker) : Broker :=
  { b with
    queues := b.queues ++
      (ConsumerQueue.all.filter fun q => q.routingKeys.contains row.routingKey).map fun q =>
        (q.name, published row) }

/-- A message has been in a wait queue for its time; this has nothing to do with a consumer. -/
def expire (waitQueue : String) (b : Broker) : Option Broker :=
  Amqp.next waitQueue 0 0 (fun _ => true) b (.expire waitQueue)

/-! ### The system -/

/-- A message that is given to a handler and not yet acknowledged; `todo` are the channel calls
left once the handler has ended. -/
structure Delivery where
  queue : ConsumerQueue
  message : Message
  todo : Option (List ChannelCall)

/-- The services, the broker, the deliveries by the thread that handles them, and the history of
what the relay has published. -/
structure State where
  services : Shop
  broker : Broker
  inHand : Tid → Option Delivery
  published : List OutboxMessageEntity

def State.init (c : Catalog) (cacheEnabled : Bool) : State where
  services := .init (.initial c cacheEnabled)
  broker := ⟨fun _ => none, [], [], [], []⟩
  inHand := fun _ => none
  published := []

inductive Move
  | serve (l : OrderLifecycle.Move)
  | publish (id : Uuid)
  | deliver (t : Tid) (queue : ConsumerQueue)
  | settle (t : Tid)
  | channel (t : Tid)
  | expire (waitQueue : String)
  | requeue (t : Tid)

/-- What the services do without the broker. -/
def ownMove : OrderLifecycle.Move → Bool
  | .start _ (.deliver _) => false
  | .env (.relay _) => false
  | _ => true

/-- What the library calls once a handler has ended: it acknowledges, honours a `Nack`, or leaves
the message to the error handler. -/
def reaction (base : Nat) (queue : ConsumerQueue) (msg : Message) :
    Except AppError Reply → List ChannelCall
  | .ok (.handled .nack) => [.nack false]
  | .ok _ => [.ack]
  | .error _ => Amqp.errorHandler queue.name defaultMaxRetries base msg

/-- One step, with the delay `base` before a first retry; `none` when it is not possible. A lost
connection puts an unacknowledged message back, whatever becomes of the thread. -/
def next (base : Nat) (s : State) : Move → Option State
  | .serve l =>
    if ownMove l then (orderSystem.next s.services l).map fun services => { s with services := services }
    else none
  | .publish id =>
    (s.services.shared.outbox id).bind fun row =>
      (orderSystem.next s.services (.env (.relay id))).map fun services =>
        { s with
          services := services
          broker := publish row s.broker
          published := row :: s.published }
  | .deliver t queue =>
    (Amqp.take queue.name s.broker.queues).bind fun r =>
      (orderSystem.next s.services (.start t (.deliver r.1.content))).map fun services =>
        { s with
          services := services
          broker := { s.broker with queues := r.2, delivered := s.broker.delivered ++ [r.1] }
          inHand := Function.update s.inHand t (some ⟨queue, r.1, none⟩) }
  | .settle t =>
    match s.inHand t, s.services.threads t with
    | some ⟨queue, msg, none⟩, some (_, .running (.ret r)) =>
      some { s with
        inHand := Function.update s.inHand t (some ⟨queue, msg, some (reaction base queue msg r)⟩) }
    | _, _ => none
  | .channel t =>
    match s.inHand t with
    | some ⟨queue, msg, some (call :: rest)⟩ =>
      (Amqp.perform queue.name msg s.broker call).map fun broker =>
        { s with
          broker := broker
          inHand := Function.update s.inHand t
            (if rest.isEmpty then none else some ⟨queue, msg, some rest⟩) }
    | _ => none
  | .expire waitQueue =>
    (expire waitQueue s.broker).map fun broker => { s with broker := broker }
  | .requeue t =>
    (s.inHand t).map fun d =>
      { s with
        broker := { s.broker with queues := (d.queue.name, d.message) :: s.broker.queues }
        inHand := Function.update s.inHand t none }

def run (base : Nat) (s : State) (moves : List Move) : Option State := moves.foldlM (next base) s

/-- A run from an empty shop and an empty broker. -/
def Reaches (base : Nat) (c : Catalog) (cacheEnabled : Bool) (moves : List Move) (s : State) : Prop :=
  run base (.init c cacheEnabled) moves = some s

/-! ### Runs -/

variable {base : Nat} {c : Catalog} {b : Bool} {moves : List Move} {s s' : State}

theorem run_cons {m : Move} {ms : List Move} (h : run base s (m :: ms) = some s') :
    ∃ d, next base s m = some d ∧ run base d ms = some s' := by
  rw [run, List.foldlM_cons] at h
  exact Option.bind_eq_some_iff.mp h

/-- All that a step can do. -/
inductive Step (base : Nat) (s : State) : State → Prop
  | serve (l : OrderLifecycle.Move) (services : Shop)
      (run : orderSystem.next s.services l = some services) :
      Step base s { s with services := services }
  | publish (row : OutboxMessageEntity) (services : Shop)
      (row_eq : s.services.shared.outbox row.id = some row)
      (run : orderSystem.next s.services (.env (.relay row.id)) = some services) :
      Step base s { s with
        services := services
        broker := publish row s.broker
        published := row :: s.published }
  | deliver (t : Tid) (queue : ConsumerQueue) (msg : Message) (front back : List (String × Message))
      (services : Shop) (queues : s.broker.queues = front ++ (queue.name, msg) :: back)
      (run : orderSystem.next s.services (.start t (.deliver msg.content)) = some services) :
      Step base s { s with
        services := services
        broker := { s.broker with
          queues := front ++ back
          delivered := s.broker.delivered ++ [msg] }
        inHand := Function.update s.inHand t (some ⟨queue, msg, none⟩) }
  | settle (t : Tid) (queue : ConsumerQueue) (msg : Message) (k : Request)
      (r : Except AppError Reply) (hand : s.inHand t = some ⟨queue, msg, none⟩)
      (thread : s.services.threads t = some (k, .running (.ret r))) :
      Step base s { s with
        inHand := Function.update s.inHand t (some ⟨queue, msg, some (reaction base queue msg r)⟩) }
  | channel (t : Tid) (queue : ConsumerQueue) (msg : Message) (call : ChannelCall)
      (rest : List ChannelCall) (broker : Broker)
      (hand : s.inHand t = some ⟨queue, msg, some (call :: rest)⟩)
      (perform : Amqp.perform queue.name msg s.broker call = some broker) :
      Step base s { s with
        broker := broker
        inHand := Function.update s.inHand t
          (if rest.isEmpty then none else some ⟨queue, msg, some rest⟩) }
  | expire (front back : List (String × Message)) (waitQueue : String) (msg : Message)
      (arguments : Amqp.QueueArguments) (declared : s.broker.declared waitQueue = some arguments)
      (queues : s.broker.queues = front ++ (waitQueue, msg) :: back) :
      Step base s { s with
        broker := { s.broker with
          queues := front ++ back ++ [(arguments.deadLetterRoutingKey, { msg with
            routingKey := arguments.deadLetterRoutingKey
            deaths := msg.deaths + 1 })] } }
  | requeue (t : Tid) (d : Delivery) (hand : s.inHand t = some d) :
      Step base s { s with
        broker := { s.broker with queues := (d.queue.name, d.message) :: s.broker.queues }
        inHand := Function.update s.inHand t none }

theorem take_eq {queue : String} {queues rest : List (String × Message)} {msg : Message}
    (h : Amqp.take queue queues = some (msg, rest)) :
    ∃ front back, queues = front ++ (queue, msg) :: back ∧ rest = front ++ back := by
  induction queues generalizing rest with
  | nil => cases h
  | cons x queues ih =>
    obtain ⟨name, msg'⟩ := x
    simp only [Amqp.take] at h
    split at h
    · next he =>
      cases h
      exact ⟨[], queues, by rw [he]; rfl, rfl⟩
    · obtain ⟨⟨msg₁, rest₁⟩, htake, he⟩ := Option.map_eq_some_iff.mp h
      cases he
      obtain ⟨front, back, hq, hr⟩ := ih htake
      exact ⟨(name, msg') :: front, back, by rw [hq]; rfl, by rw [hr]; rfl⟩

theorem next_step {m : Move} (hid : ∀ id (row : OutboxMessageEntity),
    s.services.shared.outbox id = some row → row.id = id) (h : next base s m = some s') :
    Step base s s' := by
  cases m with
  | serve l =>
    simp only [next] at h
    split at h
    · obtain ⟨services, hn, rfl⟩ := Option.map_eq_some_iff.mp h
      exact .serve l services hn
    · cases h
  | publish id =>
    obtain ⟨row, hrow, h⟩ := Option.bind_eq_some_iff.mp h
    obtain ⟨services, hn, rfl⟩ := Option.map_eq_some_iff.mp h
    cases hid id row hrow
    exact .publish row services hrow hn
  | deliver t queue =>
    obtain ⟨⟨msg, rest⟩, htake, h⟩ := Option.bind_eq_some_iff.mp h
    obtain ⟨services, hn, rfl⟩ := Option.map_eq_some_iff.mp h
    obtain ⟨front, back, hq, rfl⟩ := take_eq htake
    exact .deliver t queue msg front back services hq hn
  | settle t =>
    simp only [next] at h
    split at h
    · next hd ht =>
      cases h
      exact .settle t _ _ _ _ hd ht
    · cases h
  | channel t =>
    simp only [next] at h
    split at h
    · next hd =>
      obtain ⟨broker, hp, rfl⟩ := Option.map_eq_some_iff.mp h
      exact .channel t _ _ _ _ broker hd hp
    · cases h
  | expire waitQueue =>
    obtain ⟨broker, hb, rfl⟩ := Option.map_eq_some_iff.mp h
    obtain ⟨arguments, hdeclared, hb⟩ := Option.bind_eq_some_iff.mp hb
    obtain ⟨⟨msg, rest⟩, htake, hb⟩ := Option.bind_eq_some_iff.mp hb
    split at hb
    · cases hb
      obtain ⟨front, back, hq, rfl⟩ := take_eq htake
      exact .expire front back waitQueue msg arguments hdeclared hq
    · cases hb
  | requeue t =>
    obtain ⟨d, hd, rfl⟩ := Option.map_eq_some_iff.mp h
    exact .requeue t d hd

/-- What a step does to the services: nothing, or a step of theirs. -/
theorem Step.services (h : Step base s s') :
    s'.services = s.services ∨ ∃ l, orderSystem.next s.services l = some s'.services := by
  cases h with
  | serve l services run => exact .inr ⟨l, run⟩
  | publish row services row_eq run => exact .inr ⟨_, run⟩
  | deliver t queue msg front back services queues run => exact .inr ⟨_, run⟩
  | settle => exact .inl rfl
  | channel => exact .inl rfl
  | expire => exact .inl rfl
  | requeue => exact .inl rfl

/-- The services keep what they keep on their own. -/
theorem Step.certificates (h : Step base s s') (hs : Certificates (c := c) s.services) :
    Certificates (c := c) s'.services := by
  rcases h.services with he | ⟨l, hl⟩
  · rw [he]
    exact hs
  · exact hs.next hl

/-- What every step keeps, every run keeps. -/
theorem Reaches.induct {P : State → Prop} (h : Reaches base c b moves s) (hinit : P (.init c b))
    (hstep : ∀ s s', Certificates (c := c) s.services → Step base s s' → P s → P s') :
    Certificates (c := c) s.services ∧ P s := by
  have go : ∀ (moves : List Move) (s₀ : State), Certificates (c := c) s₀.services ∧ P s₀ →
      run base s₀ moves = some s → Certificates (c := c) s.services ∧ P s := by
    intro moves
    induction moves with
    | nil =>
      intro s₀ h₀ hr
      cases hr
      exact h₀
    | cons m ms ih =>
      intro s₀ ⟨hcert, hp⟩ hr
      obtain ⟨d, hd, hr⟩ := run_cons hr
      have hstep' := next_step hcert.orders.inv.outbox hd
      exact ih d ⟨hstep'.certificates hcert, hstep s₀ d hcert hstep' hp⟩ hr
  exact go moves _ ⟨certificates_initial, hinit⟩ h

end OrderLifecycle.Pipeline

import OrderLifecycle.Pipeline.Outcome
import OrderLifecycle.Pipeline.Settled

open Framework

namespace OrderLifecycle.Pipeline

/-! ### Healthy runs -/

/-- No statement fails with an error of the database or of the provider, and no thread dies. -/
def Harmless (s : Shop) : OrderLifecycle.Move → Prop
  | .step t ch => ∀ k β f g r w, s.threads t = some (k, .running (.act β f g)) →
      f t ch s.shared = some (r, w) → Sane β ch r
  | .crash _ => False
  | _ => True

/-- A step in which nothing goes wrong: nor is a connection to the broker lost. -/
def Healthy (s : State) : Move → Prop
  | .serve l => Harmless s.services l
  | .requeue _ => False
  | _ => True

/-- Every step of the run is healthy. -/
def HealthyRun (base : Nat) : State → List Move → Prop
  | _, [] => True
  | s, m :: ms => Healthy s m ∧ ∀ s', next base s m = some s' → HealthyRun base s' ms

variable {base : Nat} {c : Catalog} {b : Bool} {moves : List Move} {s s' : State} {t : Tid}
  {owner : Uuid → Tid} {m : OutboxMessageEntity} {shop shop' : Shop} {l : OrderLifecycle.Move}

/-! ### The services -/

/-- Messages are handled by their owners. -/
def Owns (owner : Uuid → Tid) (s : Shop) : Prop :=
  ∀ t m th, s.threads t = some (.deliver m, th) → owner m.id = t

/-- Whoever owns the messages, deliveries by the owners do not fail. -/
def Undisturbed (c : Catalog) (s : Shop) : Prop :=
  ∀ owner, Owns owner s → Sound (healthyLogic c owner)
    (fun t w => Idle t w ∧ Awaits owner t w) (Settles owner)
    (s.restrict ((healthyLogic c owner).kept Sane))

theorem undisturbed_initial : Undisturbed c (.init (.initial c b)) := by
  intro owner _
  have hspared : Spared (.initial c b) := by
    intro t o seen h
    cases h
  have hawaits (t : Tid) : Awaits owner t (.initial c b) := by
    intro m hm
    cases hm
  exact .init ⟨inv_initial (.any c) b, hspared, fun _ _ h => absurd rfl h⟩ fun t => ⟨rfl, hawaits t⟩

/-- A harmless step keeps the logic. -/
theorem permits (h : Certificates (c := c) shop) (hn : orderSystem.next shop l = some shop')
    (hl : Harmless shop l) (hspared : Spared shop'.shared) (hown : Owns owner shop) :
    shop.Permits ((healthyLogic c owner).kept Sane) l := by
  cases l with
  | step t ch =>
    intro k β f g r w ht hf
    obtain ⟨horders, hmoves⟩ := h.orders.next (verified_orderSystem (.any c)) (admits_any _) hn
    obtain ⟨-, hfiles⟩ := h.filings.next filed_orderSystem (l := .step t ch) trivial hn
    have hcert := (h.next hn).certified
    simp only [System.next, ht, hf, Option.map_some, Option.some.injEq] at hn
    subst hn
    obtain ⟨k₁, th₁, ht₁, -, hguar⟩ := hmoves
    cases ht.symm.trans ht₁
    obtain ⟨k₂, th₂, ht₂, -, hfiled⟩ := hfiles
    cases ht.symm.trans ht₂
    refine ⟨hl k β f g r w ht hf, ⟨horders.inv, hspared, hcert⟩, hguar.frame, .inr ?_⟩
    refine ⟨hguar.changes, hfiled.2, ?_⟩
    rintro m rfl
    exact hown t m _ ht
  | _ => trivial

theorem Undisturbed.next (h : Undisturbed c shop) (hcert : Certificates (c := c) shop)
    (hn : orderSystem.next shop l = some shop') (hl : Harmless shop l)
    (hspared : Spared shop'.shared) : Undisturbed c shop' := by
  intro owner hown'
  have hown : Owns owner shop := by
    intro t m th ht
    obtain ⟨th', ht'⟩ := orderSystem.next_call hn ht
    exact hown' t m th' ht'
  have hrun := next_restrict hn (permits hcert hn hl hspared hown)
  have hadmits : (healthyLogic c owner).Admits l := by
    cases l <;> exact trivial
  exact ((h owner hown).next healthy_orderSystem hadmits hrun).1

/-- No delivery by the owner of a message has failed. -/
theorem Undisturbed.result (h : Undisturbed c shop) (hown : Owns owner shop)
    {r : Except AppError Reply} (ht : shop.threads t = some (.deliver m, .running (.ret r))) :
    ∃ reply, r = .ok reply := by
  have hsettles := (h owner hown).result (restrict_thread ht)
  cases r with
  | ok reply => exact ⟨reply, rfl⟩
  | error e => exact absurd (hown t m _ ht) hsettles

/-- A thread handles a message if it did before, or has just been given it. -/
theorem next_delivering {th : Thread World Choice (Except AppError Reply)}
    (hn : orderSystem.next shop l = some shop') (ht : shop'.threads t = some (.deliver m, th)) :
    l = .start t (.deliver m) ∨ ∃ th, shop.threads t = some (.deliver m, th) := by
  rcases orderSystem.next_thread hn t with he | ⟨⟨k, rfl⟩, -⟩ | ⟨k, th₁, th₂, ht₁, -, ht₂⟩
  · exact .inr ⟨th, he.symm.trans ht⟩
  · simp only [System.next] at hn
    split at hn
    · split at hn
      · cases hn
        simp only [Config.set, Function.update_self, Option.some.injEq, Prod.mk.injEq] at ht
        exact .inl (congrArg _ ht.1)
      · cases hn
    · cases hn
  · cases ht.symm.trans ht₂
    exact .inr ⟨th₁, ht₁⟩

/-! ### The broker -/

/-- The messages that are in queues, and those that consumers have been given. -/
def copies (broker : Broker) : List OutboxMessageEntity :=
  broker.queues.map (·.2.content) ++ broker.delivered.map (·.content)

/-- Nothing has gone wrong yet: there is one copy of each message, and one delivery at most. -/
structure Calm (s : State) : Prop where
  deadLetters : s.broker.deadLetters = []
  declared : ∀ name, s.broker.declared name = none
  copies : (copies s.broker).Perm s.published
  todo : ∀ t d, s.inHand t = some d → d.todo = none ∨ d.todo = some [.ack]
  delivering : ∀ t m th, s.services.threads t = some (.deliver m, th) →
    m ∈ s.broker.delivered.map (·.content)
  once : ∀ t t' m th th', s.services.threads t = some (.deliver m, th) →
    s.services.threads t' = some (.deliver m, th') → t = t'

theorem calm_initial : Calm (.init c b) where
  deadLetters := rfl
  declared _ := rfl
  copies := .nil
  todo _ _ h := by cases h
  delivering _ _ _ h := by cases h
  once _ _ _ _ _ h := by cases h

theorem Calm.todo_update (h : Calm s) {x : Option Delivery}
    (hx : ∀ d, x = some d → d.todo = none ∨ d.todo = some [.ack]) (t' : Tid) (d : Delivery)
    (hd : Function.update s.inHand t x t' = some d) : d.todo = none ∨ d.todo = some [.ack] := by
  by_cases e : t' = t
  · subst e
    rw [Function.update_self] at hd
    exact hx d hd
  · rw [Function.update_of_ne e] at hd
    exact h.todo t' d hd

/-- Steps of the services that start no delivery. -/
theorem Calm.services (h : Calm s) (hn : orderSystem.next s.services l = some shop)
    (hl : ∀ t m, l ≠ .start t (.deliver m)) : Calm { s with services := shop } where
  deadLetters := h.deadLetters
  declared := h.declared
  copies := h.copies
  todo := h.todo
  delivering t m th ht := by
    obtain ⟨th', ht'⟩ := (next_delivering hn ht).resolve_left (hl t m)
    exact h.delivering t m th' ht'
  once t t' m th th' ht ht' := by
    obtain ⟨th₁, ht₁⟩ := (next_delivering hn ht).resolve_left (hl t m)
    obtain ⟨th₂, ht₂⟩ := (next_delivering hn ht').resolve_left (hl t' m)
    exact h.once t t' m th₁ th₂ ht₁ ht₂

theorem copies_publish (row : OutboxMessageEntity) (broker : Broker) :
    (copies (publish row broker)).Perm (row :: copies broker) := by
  have hone : (ConsumerQueue.all.filter fun q => q.routingKeys.contains row.routingKey) =
      [queueOf row.routingKey] := by
    cases row.routingKey <;> rfl
  simp only [copies, publish, hone, List.map_append, List.map_cons, List.map_nil, List.append_assoc]
  exact List.perm_middle

theorem copies_deliver {front back : List (String × Message)} {name : String} {msg : Message}
    (broker : Broker) (h : broker.queues = front ++ (name, msg) :: back) :
    (copies { broker with queues := front ++ back, delivered := broker.delivered ++ [msg] }).Perm
      (copies broker) := by
  simp only [copies, h, List.map_append, List.map_cons, List.map_nil, List.append_assoc]
  apply List.Perm.append_left
  rw [← List.append_assoc]
  exact List.perm_append_singleton _ _ |>.trans (by rfl)

theorem Calm.publish (h : Calm s) {row : OutboxMessageEntity}
    (hn : orderSystem.next s.services (.env (.relay row.id)) = some shop) :
    Calm { s with
      services := shop
      broker := publish row s.broker
      published := row :: s.published } :=
  have hs := h.services hn fun _ _ he => by cases he
  { hs with copies := (copies_publish row s.broker).trans (h.copies.cons row) }

theorem Calm.deliver (h : Calm s) (hnodup : s.published.Nodup) {queue : ConsumerQueue}
    {msg : Message} {front back : List (String × Message)}
    (hqueues : s.broker.queues = front ++ (queue.name, msg) :: back)
    (hn : orderSystem.next s.services (.start t (.deliver msg.content)) = some shop) :
    Calm { s with
      services := shop
      broker := { s.broker with
        queues := front ++ back
        delivered := s.broker.delivered ++ [msg] }
      inHand := Function.update s.inHand t (some ⟨queue, msg, none⟩) } := by
  have hfresh : msg.content ∉ s.broker.delivered.map (·.content) := by
    have hcopies := h.copies.nodup_iff.mpr hnodup
    intro hmem
    apply (List.nodup_append.mp hcopies).2.2 _ _ _ hmem rfl
    simp [hqueues]
  have hnew {t' : Tid} {m : OutboxMessageEntity}
      {th : Thread World Choice (Except AppError Reply)}
      (ht' : shop.threads t' = some (.deliver m, th)) :
      t' = t ∧ m = msg.content ∨ m ∈ s.broker.delivered.map (·.content) ∧
        ∃ th, s.services.threads t' = some (.deliver m, th) := by
    rcases next_delivering hn ht' with he | ⟨th₁, ht₁⟩
    · cases he
      exact .inl ⟨rfl, rfl⟩
    · exact .inr ⟨h.delivering t' m th₁ ht₁, th₁, ht₁⟩
  refine ⟨h.deadLetters, h.declared, (copies_deliver s.broker hqueues).trans h.copies, ?_, ?_, ?_⟩
  · apply h.todo_update
    intro d hd
    cases hd
    exact .inl rfl
  · intro t' m th ht'
    rw [List.map_append]
    rcases hnew ht' with ⟨-, rfl⟩ | ⟨hmem, -⟩
    · exact List.mem_append_right _ (List.mem_singleton.mpr rfl)
    · exact List.mem_append_left _ hmem
  · -- what is being delivered was in a queue, so nobody has been given it before
    intro t₁ t₂ m th₁ th₂ ht₁ ht₂
    rcases hnew ht₁ with ⟨h₁, hm₁⟩ | ⟨hmem₁, th₁', hold₁⟩
    · rcases hnew ht₂ with ⟨h₂, -⟩ | ⟨hmem₂, -⟩
      · exact h₁.trans h₂.symm
      · exact absurd (hm₁ ▸ hmem₂) hfresh
    · rcases hnew ht₂ with ⟨-, hm₂⟩ | ⟨-, th₂', hold₂⟩
      · exact absurd (hm₂ ▸ hmem₁) hfresh
      · exact h.once t₁ t₂ m th₁' th₂' hold₁ hold₂

/-- No two threads have the same message, so each message has an owner. -/
theorem Calm.exists_owner (h : Calm s) (hcert : Certificates (c := c) s.services) :
    ∃ owner, Owns owner s.services := by
  have hid : ∀ id : Uuid, ∃ t₀, ∀ t m th, s.services.threads t = some (.deliver m, th) →
      m.id = id → t₀ = t := by
    intro id
    by_cases hex : ∃ t m th, s.services.threads t = some (.deliver m, th) ∧ m.id = id
    · obtain ⟨t₀, m₀, th₀, ht₀, rfl⟩ := hex
      refine ⟨t₀, fun t m th ht hm => ?_⟩
      have hpub₀ := hcert.delivering t₀ m₀ th₀ ht₀
      have hpub := hcert.delivering t m th ht
      rw [Published, hm, hpub₀] at hpub
      cases hpub
      exact h.once t₀ t m₀ th₀ th ht₀ ht
    · exact ⟨0, fun t m th ht hm => absurd ⟨t, m, th, ht, hm⟩ hex⟩
  choose owner howner using hid
  exact ⟨owner, fun t m th ht => howner m.id t m th ht rfl⟩

/-! ### Each step -/

/-- What steps of healthy runs keep. -/
structure Wholesome (c : Catalog) (s : State) : Prop where
  certificates : Certificates (c := c) s.services
  lossless : Lossless s
  calm : Calm s
  undisturbed : Undisturbed c s.services

/-- The handler has not failed, so the message is acknowledged. -/
theorem Wholesome.reaction (h : Wholesome c s) {queue : ConsumerQueue} {msg : Message}
    {r : Except AppError Reply}
    (ht : s.services.threads t = some (.deliver msg.content, .running (.ret r))) :
    reaction base queue msg r = [.ack] := by
  obtain ⟨owner, hown⟩ := h.calm.exists_owner h.certificates
  obtain ⟨reply, rfl⟩ := h.undisturbed.result hown ht
  obtain ⟨rfl, -⟩ := h.certificates.filings.result ht
  rfl

theorem Wholesome.calm_next (h : Wholesome c s) {move : Move} (hnodup : s.published.Nodup)
    (hn : next base s move = some s') (hmove : Healthy s move) : Calm s' := by
  have hcalm := h.calm
  have hid := h.certificates.orders.inv.outbox
  cases move with
  | serve l =>
    simp only [next] at hn
    split at hn
    · next hown =>
      obtain ⟨services, hrun, rfl⟩ := Option.map_eq_some_iff.mp hn
      refine hcalm.services hrun fun t m he => ?_
      rw [he] at hown
      cases hown
    · cases hn
  | publish id =>
    obtain ⟨row, hrow, hn⟩ := Option.bind_eq_some_iff.mp hn
    obtain ⟨services, hrun, rfl⟩ := Option.map_eq_some_iff.mp hn
    cases hid id row hrow
    exact hcalm.publish hrun
  | deliver t queue =>
    obtain ⟨⟨msg, rest⟩, htake, hn⟩ := Option.bind_eq_some_iff.mp hn
    obtain ⟨services, hrun, rfl⟩ := Option.map_eq_some_iff.mp hn
    obtain ⟨front, back, hqueues, rfl⟩ := take_eq htake
    exact hcalm.deliver hnodup hqueues hrun
  | settle t =>
    simp only [next] at hn
    split at hn
    · next queue msg k r hd ht =>
      cases hn
      obtain ⟨th, hthread⟩ := h.lossless.handled t _ hd
      cases ht.symm.trans hthread
      rw [h.reaction ht]
      have htodo := hcalm.todo_update (t := t) (x := some ⟨queue, msg, some [.ack]⟩) (by
        intro d hd
        cases hd
        exact .inr rfl)
      exact { hcalm with todo := htodo }
    · cases hn
  | channel t =>
    simp only [next] at hn
    split at hn
    · next queue msg call rest hd =>
      obtain ⟨broker, hperform, rfl⟩ := Option.map_eq_some_iff.mp hn
      rcases hcalm.todo t _ hd with htodo | htodo
      · cases htodo
      · cases htodo
        cases hperform
        have hnone := hcalm.todo_update (t := t) (x := none) (by
          intro d hd
          cases hd)
        exact { hcalm with todo := hnone }
    · cases hn
  | expire waitQueue =>
    obtain ⟨broker, hexpire, -⟩ := Option.map_eq_some_iff.mp hn
    obtain ⟨arguments, hdeclared, -⟩ := Option.bind_eq_some_iff.mp hexpire
    cases (hcalm.declared waitQueue).symm.trans hdeclared
  | requeue t => exact hmove.elim

/-- What a healthy step does to the services: nothing, or a harmless step of theirs. -/
theorem Healthy.services {move : Move} (hmove : Healthy s move) (hn : next base s move = some s') :
    s'.services = s.services ∨
      ∃ l, Harmless s.services l ∧ orderSystem.next s.services l = some s'.services := by
  cases move with
  | serve l =>
    simp only [next] at hn
    split at hn
    · obtain ⟨services, hrun, rfl⟩ := Option.map_eq_some_iff.mp hn
      exact .inr ⟨l, hmove, hrun⟩
    · cases hn
  | publish id =>
    obtain ⟨row, -, hn⟩ := Option.bind_eq_some_iff.mp hn
    obtain ⟨services, hrun, rfl⟩ := Option.map_eq_some_iff.mp hn
    exact .inr ⟨.env (.relay id), trivial, hrun⟩
  | deliver t queue =>
    obtain ⟨⟨msg, rest⟩, -, hn⟩ := Option.bind_eq_some_iff.mp hn
    obtain ⟨services, hrun, rfl⟩ := Option.map_eq_some_iff.mp hn
    exact .inr ⟨.start t (.deliver msg.content), trivial, hrun⟩
  | settle t =>
    simp only [next] at hn
    split at hn
    · cases hn
      exact .inl rfl
    · cases hn
  | channel t =>
    simp only [next] at hn
    split at hn
    · obtain ⟨broker, -, rfl⟩ := Option.map_eq_some_iff.mp hn
      exact .inl rfl
    · cases hn
  | expire waitQueue =>
    obtain ⟨broker, -, rfl⟩ := Option.map_eq_some_iff.mp hn
    exact .inl rfl
  | requeue t => exact hmove.elim

theorem Wholesome.next (h : Wholesome c s) {move : Move} (hnodup : s.published.Nodup)
    (hn : next base s move = some s') (hmove : Healthy s move)
    (hspared : Spared s'.services.shared) : Wholesome c s' := by
  have hstep := next_step h.certificates.orders.inv.outbox hn
  refine ⟨hstep.certificates h.certificates, h.lossless.next h.certificates hstep,
    h.calm_next hnodup hn hmove, ?_⟩
  rcases hmove.services hn with he | ⟨l, hl, hrun⟩
  · rw [he]
    exact h.undisturbed
  · exact h.undisturbed.next h.certificates hrun hl hspared

/-! ### Each run -/

theorem Step.spared (h : Step base s s') (hcert : Certificates (c := c) s.services)
    (hspared : Spared s'.services.shared) : Spared s.services.shared := by
  rcases h.services with he | ⟨l, hl⟩
  · rwa [he] at hspared
  · have hev := evolves_of_moves
      (hcert.orders.next (verified_orderSystem (.any c)) (admits_any l) hl).2
    intro t o seen hmem
    apply hspared.claims (o := o) t seen
    apply (hev o).claims.subset
    exact List.mem_filter.mpr ⟨hmem, beq_self_eq_true o⟩

theorem Step.nodup (h : Step base s s') (hnodup : s'.published.Nodup) : s.published.Nodup := by
  cases h with
  | publish row services row_eq run => exact hnodup.of_cons
  | _ => exact hnodup

/-- A run takes back neither what it has published nor what a cancel has claimed. -/
theorem run_back {moves : List Move} {s₀ : State} (hcert : Certificates (c := c) s₀.services)
    (hr : run base s₀ moves = some s) (hnodup : s.published.Nodup)
    (hspared : Spared s.services.shared) :
    s₀.published.Nodup ∧ Spared s₀.services.shared := by
  induction moves generalizing s₀ with
  | nil =>
    cases hr
    exact ⟨hnodup, hspared⟩
  | cons move moves ih =>
    obtain ⟨d, hd, hr⟩ := run_cons hr
    have hstep := next_step hcert.orders.inv.outbox hd
    obtain ⟨hnodup', hspared'⟩ := ih (hstep.certificates hcert) hr
    exact ⟨hstep.nodup hnodup', hstep.spared hcert hspared'⟩

theorem Wholesome.run {moves : List Move} {s₀ : State} (h : Wholesome c s₀)
    (hr : run base s₀ moves = some s) (hhealthy : HealthyRun base s₀ moves)
    (hnodup : s.published.Nodup) (hspared : Spared s.services.shared) : Wholesome c s := by
  induction moves generalizing s₀ with
  | nil =>
    cases hr
    exact h
  | cons move moves ih =>
    have hnodup₀ := (run_back h.certificates hr hnodup hspared).1
    obtain ⟨d, hd, hr⟩ := run_cons hr
    obtain ⟨hmove, hrest⟩ := hhealthy
    have hcert := (next_step h.certificates.orders.inv.outbox hd).certificates h.certificates
    have hspared' := (run_back hcert hr hnodup hspared).2
    exact ih (h.next hnodup₀ hd hmove hspared') hr (hrest d hd)

/-- In a healthy run, with each row published once and no order cancelled while it was `PENDING`, no
message ever gets into the dead-letter queue. -/
theorem healthy_never_dead_letters (h : Reaches base c b moves s)
    (hhealthy : HealthyRun base (.init c b) moves) (honce : s.published.Nodup)
    (hspared : Spared s.services.shared) : s.broker.deadLetters = [] := by
  have hinit : Wholesome c (.init c b) :=
    ⟨certificates_initial, lossless_init, calm_initial, undisturbed_initial⟩
  exact (hinit.run h hhealthy honce hspared).calm.deadLetters

/-! ### A healthy run, and one with an early cancel -/

/-- Nothing is to fail. -/
def quiet : Move → Bool
  | .serve (.step _ ch) => !ch.fail && !ch.throws
  | .serve (.crash _) => false
  | .requeue _ => false
  | _ => true

theorem healthy_of_quiet {move : Move} (h : quiet move = true) : Healthy s move := by
  cases move with
  | serve l =>
    cases l with
    | step t ch =>
      simp only [quiet, Bool.and_eq_true, Bool.not_eq_true'] at h
      exact fun _ _ _ _ _ _ _ _ => .inl h
    | crash t => cases h
    | _ => trivial
  | requeue t => cases h
  | _ => trivial

theorem healthyRun_of_quiet (h : moves.all quiet = true) : HealthyRun base s moves := by
  induction moves generalizing s with
  | nil => trivial
  | cons move moves ih =>
    rw [List.all_cons, Bool.and_eq_true] at h
    exact ⟨healthy_of_quiet h.1, fun _ _ => ih h.2⟩

def whilePending : Deed → Bool
  | .cancelClaimed _ _ .pending => true
  | _ => false

theorem spared_of_journal {w : World} (h : (w.db.journal.any fun d => whilePending d.2) = false) :
    Spared w := by
  intro t o seen hmem
  exact absurd rfl (List.any_eq_false.mp h _ hmem)

/-- An order of three pieces is cancelled once it is reserved; one of two pieces is paid for and
completed, and its user is told. -/
def healthyMoves : List Move :=
  ordering 3 ++ handling 1 .inventory 10 1 { fresh := 2 } ++
    serving (call 2 (.cancelOrder 1 9) 6 accept) ++
    serving (call 10 (.createOrder 8 [⟨7, "Widget", 2⟩]) 7 accept) ++ .publish 11 ::
    handling 11 .inventory 10 1 { fresh := 12 } ++
    serving (call 12 (.initiatePayment 11 8) 8 accept) ++ .publish 13 ::
    handling 14 .payment 14 1 { fresh := 15, answer := fun _ => accept } ++ .publish 15 ::
    handling 16 .completion 10 1 { fresh := 17 } ++ .publish 17 :: handling 18 .email 5 1 {}

/-- All four consumers have handled their messages. -/
theorem healthy_never_dead_letters_completed : ∃ s,
    Reaches 1000 oneProduct true healthyMoves s ∧
    ((s.services.shared.order 1).map (·.status), (s.services.shared.order 11).map (·.status),
      s.broker.delivered.length) = (some .cancelled, some .completed, 5) ∧
    s.broker.deadLetters = [] := by
  obtain ⟨s, hs, hobs⟩ := reaches_of_trial healthyMoves (fun s =>
    ((s.services.shared.order 1).map (·.status), (s.services.shared.order 11).map (·.status),
      s.broker.delivered.length, decide s.published.Nodup,
      s.services.shared.db.journal.any fun d => whilePending d.2))
    (some .cancelled, some .completed, 5, true, false) (by decide +kernel)
  simp only [Prod.mk.injEq] at hobs ⊢
  obtain ⟨hcancelled, hcompleted, hdelivered, honce, hspared⟩ := hobs
  exact ⟨s, hs, ⟨hcancelled, hcompleted, hdelivered⟩,
    healthy_never_dead_letters hs (healthyRun_of_quiet (by decide)) (of_decide_eq_true honce)
      (spared_of_journal hspared)⟩

/-- The order is cancelled before inventory gets its event. -/
def cancelledEarly : List Move :=
  serving (call 0 (.createOrder 9 [⟨7, "Widget", 3⟩]) 7 accept ++
    call 5 (.cancelOrder 1 9) 5 accept) ++ .publish 1 :: handling 1 .inventory 5 3 {} ++
    .expire "inventory.order_created.retry.1000ms" :: handling 2 .inventory 5 3 {} ++
    .expire "inventory.order_created.retry.2000ms" :: handling 3 .inventory 5 3 {} ++
    .expire "inventory.order_created.retry.4000ms" :: handling 4 .inventory 5 1 {}

/-- The event of the cancelled order is dead-lettered, although nothing has failed. -/
theorem not_healthy_never_dead_letters : ¬∀ (moves : List Move) (s : State),
    Reaches 1000 oneProduct true moves s → HealthyRun 1000 (.init oneProduct true) moves →
    s.published.Nodup → s.broker.deadLetters = [] := by
  intro hall
  obtain ⟨s, hs, hobs⟩ := reaches_of_trial cancelledEarly
    (fun s => (s.broker.deadLetters.isEmpty, decide s.published.Nodup)) (false, true)
    (by decide +kernel)
  simp only [Prod.mk.injEq] at hobs
  obtain ⟨hdead, honce⟩ := hobs
  have hnone := hall cancelledEarly s hs (healthyRun_of_quiet (by decide)) (of_decide_eq_true honce)
  rw [hnone] at hdead
  cases hdead

end OrderLifecycle.Pipeline

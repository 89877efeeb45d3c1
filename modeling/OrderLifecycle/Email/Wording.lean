import OrderLifecycle.Confinement
import OrderLifecycle.Email.Service
import OrderLifecycle.Messaging.BoundedRetry

open Framework

namespace OrderLifecycle.Email

/-- A step of `t` in a delivery of `msg`: a notification it sends is the one the consumer makes of
that message. -/
def Adds (t : Tid) (msg : Amqp.Message OrderEvent) (s s' : Mailer) : Prop :=
  ∃ ds, s'.deeds = s.deeds ++ ds ∧ ∀ d ∈ ds, d.1 = t ∧
    ∀ id x, d.2 = .sent id x → id = msg.messageId ∧ x = notification msg

/-- The statement is such a step. -/
def AddsStmt (msg : Amqp.Message OrderEvent) (β : Type) (f : Stmt Mailer Choice β) : Prop :=
  ∀ t ch s b s', f t ch s = some (b, s') → Adds t msg s s'

variable {t : Tid} {msg : Amqp.Message OrderEvent} {s s' : Mailer} {α : Type}

theorem Adds.same (h : s'.deeds = s.deeds) : Adds t msg s s' := by
  refine ⟨[], ?_, nofun⟩
  rw [h, List.append_nil]

theorem Adds.trans {s'' : Mailer} (h : Adds t msg s s') (h' : Adds t msg s' s'') :
    Adds t msg s s'' := by
  obtain ⟨ds, hds, hall⟩ := h
  obtain ⟨ds', hds', hall'⟩ := h'
  refine ⟨ds ++ ds', ?_, fun d hd => ?_⟩
  · rw [hds', hds, List.append_assoc]
  · rcases List.mem_append.mp hd with hd | hd
    · exact hall d hd
    · exact hall' d hd

/-- What only concerns the database sends nothing. -/
theorem adds_onWorld (x : Service α) : Confined (AddsStmt msg) AnyError (onWorld x) := by
  have hprog {β : Type} (p : Prog World Choice β) {R : β → Prop} (hR : ∀ b, R b) :
      (p.zoom worldPart).All (AddsStmt msg) R := by
    induction p with
    | ret b => exact .ret (hR b)
    | act γ f g ih =>
      refine .act ?_ fun b _ => ih b
      intro t ch s b s' hs
      obtain ⟨r, -, he⟩ := Option.map_eq_some_iff.mp hs
      cases he
      exact .same rfl
  exact hprog x.run fun _ _ _ => trivial

theorem adds_findProcessed (messageId : Uuid) (consumer : Consumer) :
    Confined (AddsStmt msg) AnyError (findProcessed messageId consumer) := by
  apply confined_stmt _ fun _ _ _ _ _ _ => trivial
  intro t ch s r s' hs
  dsimp only at hs
  split at hs
  · cases hs
    exact .same rfl
  · split at hs
    · cases hs
      exact .same rfl
    · split at hs
      · cases hs
        refine ⟨_, rfl, fun d hd => ?_⟩
        cases List.mem_singleton.mp hd
        exact ⟨rfl, nofun⟩
      · cases hs
        exact .same rfl

theorem adds_send : Confined (AddsStmt msg) AnyError (send msg.messageId (notification msg)) := by
  apply confined_stmt _ fun _ _ _ _ _ _ => trivial
  intro t ch s r s' hs
  cases hs
  refine ⟨_, rfl, fun d hd => ?_⟩
  cases List.mem_singleton.mp hd
  refine ⟨rfl, fun id x he => ?_⟩
  cases he
  exact ⟨rfl, rfl⟩

theorem adds_runOnce (messageId : Uuid) (consumer : Consumer) :
    Confined (AddsStmt msg) AnyError
      (runOnce messageId consumer (send msg.messageId (notification msg))) := by
  apply confined_runOnceBy _ (adds_findProcessed _ _) (adds_onWorld _) adds_send
  intro work hw
  exact confined_within (adds_onWorld _) hw (adds_onWorld _) (adds_onWorld _)

theorem adds_notify (msg : Amqp.Message OrderEvent) :
    Confined (AddsStmt msg) AnyError (notify msg) := by
  have houtcome : Confined (AddsStmt msg) AnyError
      (processEventOnce msg.messageId email (send msg.messageId (notification msg))) :=
    confined_processOnceBy (fun _ => adds_onWorld _) (fun _ => adds_runOnce _ _) _ _
  apply confined_bind houtcome
  intro outcome
  cases outcome <;> exact confined_pure

/-! ### What the notification says -/

/-- The notification says failed with the reason of the event just if the event says so, and completed
just if the order was completed. -/
def Truthful (event : OrderEvent) (x : Notification) : Prop :=
  (∀ reason, x.suffix = .failed (some reason) ↔ ∃ e, event = .failed e ∧ e.reason = reason) ∧
    (x.suffix = .completed ↔ ∃ e, event = .completed e)

/-- The events that the queue of the consumer is bound to. -/
def Terminal (event : OrderEvent) : Prop :=
  (∃ e, event = .completed e) ∨ ∃ e, event = .failed e

/-- After `j` failed attempts the consumer takes the event for what it is just if it is a completion or
there was no failure: the wait queue sends the message back under the name of the work queue. -/
theorem truthful_redelivered {row : OutboxMessageEntity} (hterm : Terminal row.payload)
    (hkey : row.routingKey = row.payload.routingKey) (j : Nat) :
    Truthful row.payload (notification (Amqp.redelivered emailQueue (published row) j)) ↔
      (∃ e, row.payload = .completed e) ∨ j = 0 := by
  have hlater (k : Nat) :
      (notification (Amqp.redelivered emailQueue (published row) (k + 1))).suffix = .completed := rfl
  rcases hterm with ⟨e, he⟩ | ⟨e, he⟩
  · have hsuffix : (notification (Amqp.redelivered emailQueue (published row) j)).suffix =
        .completed := by
      cases j with
      | zero =>
        have hrouting : row.routingKey = .completed := by rw [hkey, he]; rfl
        unfold notification Amqp.redelivered published
        rw [hrouting]
        rfl
      | succ k => exact hlater k
    simp [Truthful, hsuffix, he]
  · cases j with
    | zero =>
      have hrouting : row.routingKey = .failed := by rw [hkey, he]; rfl
      have hsuffix : (notification (Amqp.redelivered emailQueue (published row) 0)).suffix =
          .failed (some e.reason) := by
        unfold notification Amqp.redelivered published
        rw [hrouting, he]
        rfl
      simp [Truthful, hsuffix, he]
    | succ k => simp [Truthful, hlater k, he]

/-- The attempts of the consumer at the messages it was given; `ok` is what became of them. -/
def Attempts (ok : Nat → Bool) (msgs : List (Amqp.Message OrderEvent)) (before after : Nat → Mailer) :
    Prop :=
  ∀ i msg, msgs[i]? = some msg → ∃ t ch r k,
    (notify msg).run.solo t ch none 0 (before i) = some (after i, some (r, k)) ∧
      (ok (i + 1) = true ↔ r = .ok .ack)

/-- The notification was sent in between. -/
def Sends (before after : Mailer) (x : Notification) : Prop :=
  ∃ t id, (t, .sent id x) ∈ after.deeds.drop before.deeds.length

theorem Attempts.sends {ok : Nat → Bool} {msgs : List (Amqp.Message OrderEvent)}
    {before after : Nat → Mailer} (h : Attempts ok msgs before after) {j : Nat}
    (hj : msgs[j]? = some msg) {x : Notification} (hx : Sends (before j) (after j) x) :
    x = notification msg := by
  obtain ⟨t, ch, r, k, hrun, -⟩ := h j msg hj
  have hadds : Adds t msg (before j) (after j) :=
    (adds_notify msg).solo (fun _ => .same rfl) (fun _ _ _ => .trans)
      (fun _ _ hf _ _ _ _ hs => hf _ _ _ _ _ hs) hrun
  obtain ⟨ds, hds, hall⟩ := hadds
  obtain ⟨t', id, hmem⟩ := hx
  rw [hds, List.drop_left] at hmem
  exact ((hall _ hmem).2 id x rfl).2

/-- The notification sent after `j` failed attempts is truthful just if the order was completed or
`j = 0`. -/
theorem notification_truthful {row : OutboxMessageEntity} (hterm : Terminal row.payload)
    (hkey : row.routingKey = row.payload.routingKey) {maxRetries base : Nat} {ok : Nat → Bool}
    {events : List Amqp.Event} {b : Amqp.Broker OrderEvent}
    (hrun : Amqp.run emailQueue maxRetries base ok (Amqp.start emailQueue (published row)) events =
      some b)
    {before after : Nat → Mailer} (hattempts : Attempts ok b.delivered before after) {j : Nat}
    (hj : j < b.delivered.length) {x : Notification} (hx : Sends (before j) (after j) x) :
    Truthful row.payload x ↔ (∃ e, row.payload = .completed e) ∨ j = 0 := by
  have htrack := Amqp.Track.run rfl hrun
  have hmsg : b.delivered[j]? = some (Amqp.redelivered emailQueue (published row) j) := by
    rw [htrack.delivered, List.getElem?_map, List.getElem?_range hj]
    rfl
  rw [hattempts.sends hmsg hx]
  exact truthful_redelivered hterm hkey j

/-- The event of an order of user 9 that failed. -/
def failedRow : OutboxMessageEntity :=
  ⟨5, orderExchange, .failed, .failed ⟨1, 9, "card_declined"⟩, 0⟩

/-- A database that nobody has written to yet. -/
def freshMailer : Mailer := ⟨.initial ⟨[], .nil, nofun⟩ true, []⟩

/-- An attempt in the fresh database, seen by its history and its result. -/
theorem attempt_of (msg : Amqp.Message OrderEvent) (ch : Nat → Choice) (ds : List (Tid × MailDeed))
    (r : Except AppError Handled)
    (h : ((notify msg).run.solo 0 ch none 0 freshMailer).bind
      (fun x => x.2.map fun a => (x.1.deeds, a.1)) = some (ds, r)) :
    ∃ s k, (notify msg).run.solo 0 ch none 0 freshMailer = some (s, some (r, k)) ∧ s.deeds = ds := by
  obtain ⟨⟨s, a⟩, hrun, ha⟩ := Option.bind_eq_some_iff.mp h
  obtain ⟨⟨r', k⟩, rfl, he⟩ := Option.map_eq_some_iff.mp ha
  cases he
  exact ⟨s, k, hrun, rfl⟩

/-- What the consumer was given, by the number of deliveries. -/
theorem delivered_of (ok : Nat → Bool) (events : List Amqp.Event) (d : Nat)
    (h : (Amqp.run emailQueue 3 1000 ok (Amqp.start emailQueue (published failedRow)) events).map
      (fun b => b.delivered.length) = some d) :
    ∃ b, Amqp.run emailQueue 3 1000 ok (Amqp.start emailQueue (published failedRow)) events = some b ∧
      b.delivered = (List.range d).map (Amqp.redelivered emailQueue (published failedRow)) := by
  obtain ⟨b, hrun, rfl⟩ := Option.map_eq_some_iff.mp h
  exact ⟨b, hrun, (Amqp.Track.run rfl hrun).delivered⟩

/-- The first delivery succeeds. -/
theorem notification_truthful_first : ∃ b before after x,
    Amqp.run emailQueue 3 1000 (fun _ => true) (Amqp.start emailQueue (published failedRow))
      [.deliver] = some b ∧ Attempts (fun _ => true) b.delivered before after ∧
    Sends (before 0) (after 0) x ∧ Truthful failedRow.payload x := by
  obtain ⟨b, hrun, hdelivered⟩ := delivered_of (fun _ => true) [.deliver] 1 (by decide +kernel)
  obtain ⟨s, k, hsolo, hdeeds⟩ := attempt_of (published failedRow) (fun _ => {})
    [(0, .unprocessed 5), (0, .sent (some 5) ⟨9, 1, .failed (some "card_declined")⟩)]
    (.ok .ack) (by decide +kernel)
  have hattempts : Attempts (fun _ => true) b.delivered (fun _ => freshMailer) fun _ => s := by
    intro i msg hmsg
    rw [hdelivered] at hmsg
    match i with
    | 0 =>
      cases hmsg
      exact ⟨0, fun _ => {}, _, k, hsolo, by simp⟩
  have hsends : Sends freshMailer s ⟨9, 1, .failed (some "card_declined")⟩ := by
    refine ⟨0, some 5, ?_⟩
    rw [hdeeds]
    simp [freshMailer]
  have hlength : 0 < b.delivered.length := by simp [hdelivered]
  have htruthful := (notification_truthful (.inr ⟨_, rfl⟩) rfl hrun hattempts hlength hsends).mpr
    (.inr rfl)
  exact ⟨b, _, _, _, hrun, hattempts, hsends, htruthful⟩

/-- The `BEGIN` of the first attempt fails; the second attempt reports the failed order as completed. -/
theorem not_notification_truthful : ¬∀ row maxRetries base ok events b before after j x,
    Terminal row.payload → row.routingKey = row.payload.routingKey →
    Amqp.run emailQueue maxRetries base ok (Amqp.start emailQueue (published row)) events = some b →
    Attempts ok b.delivered before after → j < b.delivered.length →
    Sends (before j) (after j) x → Truthful row.payload x := by
  intro hall
  obtain ⟨b, hrun, hdelivered⟩ := delivered_of (· == 2)
    [.deliver, .expire "email.notifications.retry.1000ms", .deliver] 2 (by decide +kernel)
  obtain ⟨s₁, k₁, hsolo₁, -⟩ := attempt_of (published failedRow) (fun i => { fail := i == 0 }) []
    (.error .database) (by decide +kernel)
  obtain ⟨s₂, k₂, hsolo₂, hdeeds⟩ := attempt_of
    (Amqp.redelivered emailQueue (published failedRow) 1) (fun _ => {})
    [(0, .unprocessed 5), (0, .sent (some 5) ⟨9, 1, .completed⟩)] (.ok .ack) (by decide +kernel)
  have hattempts : Attempts (· == 2) b.delivered (fun _ => freshMailer)
      fun i => if i = 0 then s₁ else s₂ := by
    intro i msg hmsg
    rw [hdelivered] at hmsg
    match i with
    | 0 =>
      cases hmsg
      exact ⟨0, _, _, k₁, hsolo₁, by simp⟩
    | 1 =>
      cases hmsg
      exact ⟨0, _, _, k₂, hsolo₂, by simp⟩
  have hsends : Sends freshMailer s₂ ⟨9, 1, .completed⟩ := by
    refine ⟨0, some 5, ?_⟩
    rw [hdeeds]
    simp [freshMailer]
  obtain ⟨-, hcompleted⟩ := hall failedRow 3 1000 (· == 2) _ b _ _ 1 _ (.inr ⟨_, rfl⟩) rfl hrun
    hattempts (by simp [hdelivered]) hsends
  obtain ⟨e, he⟩ := hcompleted.mp rfl
  cases he

end OrderLifecycle.Email

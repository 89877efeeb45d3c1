import OrderLifecycle.Inventory.Reservation
import OrderLifecycle.Lifecycle.Runs

open Framework

namespace OrderLifecycle.Alone

/-- The rows after a transition of `order`, at instant `now`. -/
def stepped (V : Rows) (order : OrderEntity) (target : OrderStatus) (now : Nat)
    (orderId : OrderId) : Rows :=
  Function.update V (.order orderId)
    (some ({ order with status := target, updatedAt := .date now } : OrderEntity))

/-- The event of an order that could not be reserved. -/
structure RefusalEvent (event : OrderCreatedEvent) (m : OutboxMessageEntity) : Prop where
  routingKey : m.routingKey = .failed
  payload : m.payload = .failed
    { orderId := event.orderId, userId := event.userId, reason := "insufficient_stock" }

/-- What the transaction of a reservation writes: the rows `V`, by its result. -/
inductive Written (event : OrderCreatedEvent) (order : OrderEntity) (V₀ : Rows) :
    Option ProductId → Rows → Prop
  | reserved {now} (fits : Fits V₀ event.items) :
    Written event order V₀ none
      (stepped (restocked (sold event.items) V₀) order .reserved now event.orderId)
  | refused {p now m} (short : ¬Fits V₀ event.items) (fresh : V₀ (.outbox m.id) = none)
      (refusal : RefusalEvent event m) :
    Written event order V₀ (some p)
      (Function.update (stepped V₀ order .failed now event.orderId) (.outbox m.id) (some m))

/-- As committed, with the row of the inbox. -/
def Recorded (event : OrderCreatedEvent) (order : OrderEntity) (messageId : Uuid) (V₀ : Rows)
    (short : Option ProductId) (V : Rows) : Prop :=
  ∃ V' x, Written event order V₀ short V' ∧
    V = Function.update V' (.inbox messageId .inventory) (some x)

section rows

variable {V₀ V : Rows} {order : OrderEntity} {target : OrderStatus} {now : Nat} {orderId : OrderId}
  {event : OrderCreatedEvent} {short : Option ProductId}

theorem stepped_outbox (id : Uuid) : stepped V order target now orderId (.outbox id) = V (.outbox id) :=
  Function.update_of_ne (by simp) ..

theorem stepped_inbox (messageId : Uuid) (consumer : Consumer) :
    stepped V order target now orderId (.inbox messageId consumer) = V (.inbox messageId consumer) :=
  Function.update_of_ne (by simp) ..

theorem Written.inbox (h : Written event order V₀ short V) (messageId : Uuid) (consumer : Consumer) :
    V (.inbox messageId consumer) = V₀ (.inbox messageId consumer) := by
  cases h with
  | reserved fits =>
    rw [stepped_inbox]
    rfl
  | refused short fresh refusal =>
    rw [Function.update_of_ne (by simp), stepped_inbox]

end rows

section solo

variable {w₀ : World} {t : Tid} {ch : Nat → Choice} {dies : Option Nat} {D : Nat → World → Prop}
  {i : Nat} {orderId : OrderId} {V : Rows} {event : OrderCreatedEvent} {order : OrderEntity}
  {messageId : Uuid}

section within

variable (hD : ∀ j w, Outside t w₀ w → D j w)

include hD

theorem solo_transitionOrder {target : OrderStatus} (hrow : V (.order orderId) = some order)
    (hallowed : isTransitionAllowed order.status target = true) :
    Solo t ch dies D i (Within t w₀ V) (transitionOrder orderId target)
      (fun _ _ w => ∃ now, Within t w₀ (stepped V order target now orderId) w)
      fun e _ w => e = .database ∧ Fails ch ∧ Spoilt t w₀ w := by
  have hfail {β : Type} {P : World → Prop} {Q : β → Nat → World → Prop} {x : Service β} {j : Nat}
      (h : Solo t ch dies D j P x Q
        fun e _ w => e = .database ∧ (ch j).fail = true ∧ Spoilt t w₀ w) :
      Solo t ch dies D j P x Q fun e _ w => e = .database ∧ Fails ch ∧ Spoilt t w₀ w :=
    solo_conseq h (fun _ hw => hw) (fun _ _ _ _ hw => hw)
      (fun _ _ _ _ ⟨he, hf, hw⟩ => ⟨he, ⟨j, hf⟩, hw⟩) fun _ _ _ _ hw => hw
  apply solo_bind (hfail (solo_selectRow hD (.order orderId)))
  intro found j _
  apply solo_fact
  rintro rfl
  rw [hrow]
  apply solo_ite
  · intro hnot
    exact nomatch hallowed.symm.trans hnot
  · intro _
    apply solo_bind (hfail (solo_updateRow_hit hD hrow (beq_self_eq_true order.status)))
    intro affected j' _
    apply solo_fact
    rintro rfl
    apply solo_ite
    · intro hzero
      cases hzero
    · intro _
      apply solo_bind (Q := fun _ _ w => Within t w₀ (stepped V order target (ch j).now orderId) w)
      · exact solo_conseq (solo_record hD _) (fun _ hw => hw) (fun _ _ _ _ hw => hw)
          (fun _ _ _ _ hw => hw.elim) fun _ _ _ _ hw => hw
      · intro _ j'' _
        apply solo_bind (Q := fun _ _ w => Within t w₀ (stepped V order target (ch j).now orderId) w)
        · exact solo_conseq (solo_cacheWrite hD _) (fun _ hw => hw) (fun _ _ _ _ hw => hw)
            (fun _ _ _ _ hw => hw.elim) fun _ _ _ _ hw => hw
        · intro _ _ _
          exact solo_pure fun w hw => ⟨_, hw⟩

theorem solo_enqueue {routingKey : RoutingKey} {payload : OrderEvent}
    (hfresh : V (.outbox (ch i).fresh) = none) :
    Solo t ch dies D i (Within t w₀ V) (enqueue routingKey payload)
      (fun _ _ w => ∃ m : OutboxMessageEntity, V (.outbox m.id) = none ∧ m.routingKey = routingKey ∧
        m.payload = payload ∧ Within t w₀ (Function.update V (.outbox m.id) (some m)) w)
      fun e _ w => e = .database ∧ Fails ch ∧ Spoilt t w₀ w := by
  apply solo_bind
  · apply solo_conseq (solo_insertFresh hD hfresh) (fun _ hw => hw) (fun _ _ _ _ hw => hw) ?_
      (fun _ _ _ _ hw => hw)
    intro e _ w _ ⟨he, hf, hw⟩
    exact ⟨he, ⟨i, hf⟩, hw⟩
  · intro _ _ _
    apply solo_pure
    intro w ⟨_, hw⟩
    exact ⟨⟨(ch i).fresh, orderExchange, routingKey, payload, (ch i).correlationId⟩, hfresh, rfl, rfl,
      hw⟩

theorem solo_reserveWork (hrow : V (.order event.orderId) = some order)
    (hpending : order.status = .pending) (hfresh : ∀ i, V (.outbox (ch i).fresh) = none) :
    Solo t ch dies D i (Within t w₀ V) (reserveWork event)
      (fun short _ w => ∃ V', Written event order V short V' ∧ Within t w₀ V' w)
      fun e _ w => (e = .database ∧ Fails ch) ∧ Outside t w₀ w := by
  apply solo_tryCatch (E := fun e _ w =>
    ((∃ p, e = .insufficientStock p) ∧ ¬Fits V event.items ∧ Within t w₀ V w) ∨
      (e = .database ∧ Fails ch ∧ Spoilt t w₀ w))
  · apply solo_bind
    · have hlines : Solo t ch dies D i (Within t w₀ (restocked (sold []) V))
          (reserveLines event.orderId [] event.items) _ _ :=
        solo_reserveLines hD [] event.items nofun
      rw [sold_nil, restocked_zero] at hlines
      exact hlines
    · intro _ j _
      apply solo_fact
      intro hfits
      have hallowed : isTransitionAllowed order.status .reserved = true := by
        rw [hpending]
        rfl
      have htaken : restocked (sold event.items) V (.order event.orderId) = some order := hrow
      apply solo_bind
      · apply solo_conseq (solo_transitionOrder hD htaken hallowed) (fun _ hw => hw)
          (fun _ _ _ _ hw => hw) ?_ (fun _ _ _ _ hw => hw)
        intro e _ w _ hw
        exact .inr hw
      · intro _ _ _
        apply solo_pure
        intro w ⟨now, hw⟩
        exact ⟨_, .reserved hfits, hw⟩
  · intro e j _ w hw
    rcases hw with ⟨⟨p, rfl⟩, hshort, hw⟩ | ⟨rfl, hf, hw⟩
    · have hrefuse : Solo t ch dies D j (Within t w₀ V)
          (do
            let _ ← transitionOrder event.orderId .failed
            enqueue .failed (.failed
              { orderId := event.orderId, userId := event.userId, reason := "insufficient_stock" })
            return some p)
          (fun short _ w => ∃ V', Written event order V short V' ∧ Within t w₀ V' w)
          fun e _ w => (e = .database ∧ Fails ch) ∧ Outside t w₀ w := by
        have hfail : ∀ (e : AppError) (w : World), (e = .database ∧ Fails ch ∧ Spoilt t w₀ w) →
            (e = .database ∧ Fails ch) ∧ Outside t w₀ w :=
          fun _ _ ⟨he, hf, hw⟩ => ⟨⟨he, hf⟩, hw.outside⟩
        have hallowed : isTransitionAllowed order.status .failed = true := by
          rw [hpending]
          rfl
        apply solo_bind
        · exact solo_conseq (solo_transitionOrder hD hrow hallowed) (fun _ hw => hw)
            (fun _ _ _ _ hw => hw) (fun e _ w _ hw => hfail e w hw) fun _ _ _ _ hw => hw
        · intro _ j' _
          apply solo_exists
          intro now
          apply solo_bind
          · apply solo_conseq (solo_enqueue hD ?_) (fun _ hw => hw) (fun _ _ _ _ hw => hw)
              (fun e _ w _ hw => hfail e w hw) (fun _ _ _ _ hw => hw)
            exact (stepped_outbox _).trans (hfresh j')
          · intro _ _ _
            apply solo_pure
            intro w ⟨m, hm, hkey, hpayload, hw⟩
            have hm : V (.outbox m.id) = none := (stepped_outbox _).symm.trans hm
            exact ⟨_, .refused hshort hm ⟨hkey, hpayload⟩, hw⟩
      exact hrefuse w hw
    · exact solo_throw (P := fun w => Spoilt t w₀ w) (fun w hw => ⟨⟨rfl, hf⟩, hw.outside⟩) w hw

end within

/-- What a call that ends before or after the commit leaves behind. -/
def Left (event : OrderCreatedEvent) (order : OrderEntity) (messageId : Uuid) (w₀ w : World) : Prop :=
  w.db.rows = w₀.db.rows ∨ ∃ short, Recorded event order messageId w₀.db.rows short w.db.rows

theorem solo_runOnce (hidle : Idle w₀) (hrow : w₀.order event.orderId = some order)
    (hpending : order.status = .pending)
    (hnew : w₀.db.rows (.inbox messageId .inventory) = none)
    (hfresh : ∀ i, w₀.outbox (ch i).fresh = none) :
    Solo t ch dies (fun _ => Left event order messageId w₀) i (fun w => w = w₀)
      (runOnce messageId .inventory (reserveWork event))
      (fun ran _ w => ∃ short, ran = some short ∧
        Recorded event order messageId w₀.db.rows short w.db.rows)
      fun _ _ w => Fails ch ∧ w.db.rows = w₀.db.rows := by
  have hD (j : Nat) (w : World) (hw : Outside t w₀ w) : Left event order messageId w₀ w := .inl hw.rows
  apply solo_tryCatch
  · apply solo_conseq (solo_transaction hD (E := fun e => e = .database ∧ Fails ch)
      (F := fun ran rows => ∃ short, ran = some short ∧
        Recorded event order messageId w₀.db.rows short rows) hidle ?_ ?_)
      (fun _ hw => hw) (fun _ _ _ _ hw => hw.2) (fun _ _ _ _ hw => hw) (fun _ _ _ _ hw => hw)
    · intro i hf
      exact ⟨rfl, i, hf⟩
    · intro i
      apply solo_bind
      · apply solo_conseq (solo_selectRow hD (.inbox messageId .inventory)) (fun _ hw => hw)
          (fun _ _ _ _ hw => hw) ?_ (fun _ _ _ _ hw => hw)
        intro e _ w _ ⟨he, hf, hw⟩
        exact ⟨⟨he, i, hf⟩, hw.outside⟩
      · intro existing j _
        apply solo_fact
        rintro rfl
        rw [hnew]
        apply solo_ite
        · intro hsome
          cases hsome
        · intro _
          apply solo_bind (solo_reserveWork hD hrow hpending hfresh)
          intro short j' _
          apply solo_exists
          intro V'
          apply solo_fact
          intro hwritten
          apply solo_bind
          · apply solo_conseq (solo_insertRow hD ((hwritten.inbox messageId .inventory).trans hnew))
              (fun _ hw => hw) (fun _ _ _ _ hw => hw) ?_ (fun _ _ _ _ hw => hw)
            intro e _ w _ ⟨he, hf, hw⟩
            exact ⟨⟨he, j', hf⟩, hw.outside⟩
          · intro _ _ _
            apply solo_pure
            intro w hw
            exact ⟨_, ⟨short, rfl, V', _, hwritten, rfl⟩, hw⟩
  · intro e j _
    apply solo_fact
    rintro ⟨rfl, hf⟩
    apply solo_throw
    intro w hw
    exact ⟨hf, hw.2⟩

/-- Metrics leave the database alone. -/
theorem solo_recordMetric {P : Rows → Prop} {E : AppError → Nat → World → Prop} (m : Metric)
    (hD : ∀ j w, P w.db.rows → D j w) :
    Solo t ch dies D i (fun w => P w.db.rows) (recordMetric m) (fun _ _ w => P w.db.rows) E := by
  apply solo_stmt
  · intro w hw _
    exact hD i w hw
  · intro w hw
    exact ⟨.ok (), _, rfl, hw⟩

theorem solo_reserve (hidle : Idle w₀) (hrow : w₀.order event.orderId = some order)
    (hpending : order.status = .pending)
    (hnew : w₀.db.rows (.inbox messageId .inventory) = none)
    (hfresh : ∀ i, w₀.outbox (ch i).fresh = none) :
    Solo t ch dies (fun _ => Left event order messageId w₀) i (fun w => w = w₀)
      (reserve event (some messageId))
      (fun _ _ w => ∃ short, Recorded event order messageId w₀.db.rows short w.db.rows)
      fun _ _ w => Fails ch ∧ w.db.rows = w₀.db.rows := by
  have hmetric {j : Nat} {short : Option ProductId} (m : Metric) :
      Solo t ch dies (fun _ => Left event order messageId w₀) j
        (fun w => Recorded event order messageId w₀.db.rows short w.db.rows) (recordMetric m)
        (fun _ _ w => Recorded event order messageId w₀.db.rows short w.db.rows)
        fun _ _ w => Fails ch ∧ w.db.rows = w₀.db.rows :=
    solo_recordMetric m fun _ _ hw => .inr ⟨short, hw⟩
  apply solo_bind (Q := fun outcome _ w => ∃ short, outcome = .processed short ∧
    Recorded event order messageId w₀.db.rows short w.db.rows)
  · apply solo_bind (solo_runOnce hidle hrow hpending hnew hfresh)
    intro ran j _
    apply solo_exists
    intro short
    apply solo_fact
    rintro rfl
    apply solo_bind (hmetric _)
    intro _ _ _
    apply solo_pure
    intro w hw
    exact ⟨short, rfl, hw⟩
  · intro outcome j _
    apply solo_exists
    intro short
    apply solo_fact
    rintro rfl
    cases short with
    | none => exact solo_pure fun w hw => ⟨none, hw⟩
    | some p =>
      apply solo_bind (hmetric _)
      intro _ _ _
      exact solo_pure fun w hw => ⟨some p, hw⟩

end solo

/-- What processing an `OrderCreated` may commit. -/
inductive Verdict
  | reserved
  | failed
  | nothing
  deriving DecidableEq

/-- The order once it has moved to `target`. -/
def Moved (order : OrderEntity) (orderId : OrderId) (target : OrderStatus) (w w' : World) : Prop :=
  ∃ now, w'.order = Function.update w.order orderId
    (some { order with status := target, updatedAt := .date now })

/-- `w'` is `w` with what the verdict says committed: stock taken for every line, or the order
rejected with its event and all stock as it was, or nothing. -/
def Commits (event : OrderCreatedEvent) (order : OrderEntity) (w w' : World) : Verdict → Prop
  | .reserved => Moved order event.orderId .reserved w w' ∧
      (∀ p, w'.product p = withStock (-quantityOf event.items p) (w.product p)) ∧
      w'.outbox = w.outbox
  | .failed => Moved order event.orderId .failed w w' ∧ w'.product = w.product ∧
      ∃ m, w.outbox m.id = none ∧ RefusalEvent event m ∧
        w'.outbox = Function.update w.outbox m.id (some m)
  | .nothing => w'.db.rows = w.db.rows

section verdict

variable {w w' : World} {order : OrderEntity} {event : OrderCreatedEvent} {messageId : Uuid}
  {short : Option ProductId} {v : Verdict}

/-- The status of the order tells the verdicts apart. -/
def Verdict.status : Verdict → OrderStatus
  | .reserved => .reserved
  | .failed => .failed
  | .nothing => .pending

theorem Moved.status {target : OrderStatus} (h : Moved order event.orderId target w w') :
    (w'.order event.orderId).map (·.status) = some target := by
  obtain ⟨now, h⟩ := h
  rw [h, Function.update_self]
  rfl

theorem Commits.status (hrow : w.order event.orderId = some order) (hpending : order.status = .pending)
    (h : Commits event order w w' v) : (w'.order event.orderId).map (·.status) = some v.status := by
  cases v with
  | reserved => exact h.1.status
  | failed => exact h.1.status
  | nothing =>
    have hsame : w'.order event.orderId = w.order event.orderId := congrFun h (.order event.orderId)
    rw [hsame, hrow, Option.map_some, hpending]
    rfl

theorem Commits.unique {v' : Verdict} (hrow : w.order event.orderId = some order)
    (hpending : order.status = .pending) (h : Commits event order w w' v)
    (h' : Commits event order w w' v') : v' = v := by
  have hstatus := (h'.status hrow hpending).symm.trans (h.status hrow hpending)
  cases v <;> cases v' <;> first | rfl | cases hstatus

theorem stepped_order {V : Rows} {target : OrderStatus} {now : Nat} {orderId : OrderId} :
    (fun o => stepped V order target now orderId (.order o)) = Function.update
      (fun o => V (.order o)) orderId
      (some ({ order with status := target, updatedAt := .date now } : OrderEntity)) := by
  funext o
  by_cases ho : o = orderId
  · subst ho
    rw [Function.update_self]
    exact Function.update_self ..
  · rw [Function.update_of_ne ho]
    exact Function.update_of_ne (by simpa using ho) ..

/-- A reservation that was recorded has a verdict, the one the stock asks for. -/
theorem Recorded.commits
    (h : Recorded event order messageId w.db.rows short w'.db.rows) :
    (Commits event order w w' .reserved ∧ Fits w.db.rows event.items) ∨
      (Commits event order w w' .failed ∧ ¬Fits w.db.rows event.items) := by
  obtain ⟨V', x, hwritten, hrows⟩ := h
  have hkey {k : Key} (hk : k ≠ .inbox messageId .inventory) : w'.db.rows k = V' k := by
    rw [hrows, Function.update_of_ne hk]
  have horder : w'.order = fun o => V' (.order o) := funext fun o => hkey (by simp)
  have hproduct : w'.product = fun p => V' (.product p) := funext fun p => hkey (by simp)
  have houtbox : w'.outbox = fun id => V' (.outbox id) := funext fun id => hkey (by simp)
  cases hwritten with
  | @reserved now fits =>
    refine .inl ⟨⟨⟨now, horder.trans stepped_order⟩, ?_, ?_⟩, fits⟩
    · intro p
      rw [hproduct]
      exact Function.update_of_ne (by simp) ..
    · rw [houtbox]
      funext id
      exact stepped_outbox id
  | @refused p now m hshort fresh refusal =>
    refine .inr ⟨⟨⟨now, ?_⟩, ?_, m, fresh, refusal, ?_⟩, hshort⟩
    · rw [horder]
      refine Eq.trans (funext fun o => ?_) stepped_order
      exact Function.update_of_ne (by simp) ..
    · rw [hproduct]
      funext p
      rw [Function.update_of_ne (by simp)]
      exact Function.update_of_ne (by simp) ..
    · rw [houtbox]
      funext id
      by_cases hid : id = m.id
      · have hself : Function.update w.outbox m.id (some m) m.id = some m := Function.update_self ..
        rw [hid, hself]
        exact Function.update_self ..
      · rw [Function.update_of_ne hid, Function.update_of_ne (by simpa using hid)]
        exact stepped_outbox id

/-- Which one it is depends on the stock alone. -/
theorem Recorded.decided (hrow : w.order event.orderId = some order) (hpending : order.status = .pending)
    (h : Recorded event order messageId w.db.rows short w'.db.rows) :
    (Commits event order w w' .reserved ↔ Fits w.db.rows event.items) ∧
      (Commits event order w w' .failed ↔ ¬Fits w.db.rows event.items) ∧
      ¬Commits event order w w' .nothing := by
  rcases h.commits with ⟨hc, hfits⟩ | ⟨hc, hshort⟩
  · refine ⟨⟨fun _ => hfits, fun _ => hc⟩, ⟨fun hc' => ?_, absurd hfits⟩, fun hc' => ?_⟩
    · cases hc.unique hrow hpending hc'
    · cases hc.unique hrow hpending hc'
  · refine ⟨⟨fun hc' => ?_, fun hfits => absurd hfits hshort⟩, ⟨fun _ => hshort, fun _ => hc⟩, fun hc' => ?_⟩
    · cases hc.unique hrow hpending hc'
    · cases hc.unique hrow hpending hc'

theorem Left.commits (h : Left event order messageId w w') :
    ∃ v, Commits event order w w' v := by
  rcases h with hsame | ⟨short, hrec⟩
  · exact ⟨.nothing, hsame⟩
  · rcases hrec.commits with ⟨hc, -⟩ | ⟨hc, -⟩
    · exact ⟨.reserved, hc⟩
    · exact ⟨.failed, hc⟩

end verdict

/-- The message of the outbox row `messageId`, delivered to the consumer. -/
def createdMessage (event : OrderCreatedEvent) (messageId correlationId : Uuid) :
    OutboxMessageEntity :=
  ⟨messageId, orderExchange, .created, .created event, correlationId⟩

theorem solo_deliver {w₀ : World} {t : Tid} {ch : Nat → Choice} {dies : Option Nat}
    {event : OrderCreatedEvent} {order : OrderEntity} {messageId correlationId : Uuid}
    (hidle : Idle w₀) (hrow : w₀.order event.orderId = some order)
    (hpending : order.status = .pending)
    (hnew : w₀.db.rows (.inbox messageId .inventory) = none)
    (hfresh : ∀ i, w₀.outbox (ch i).fresh = none) :
    Solo t ch dies (fun _ => Left event order messageId w₀) 0 (fun w => w = w₀)
      (respond (.deliver (createdMessage event messageId correlationId)))
      (fun _ _ w => ∃ short, Recorded event order messageId w₀.db.rows short w.db.rows)
      fun _ _ w => Fails ch ∧ w.db.rows = w₀.db.rows := by
  apply solo_bind (solo_reserve hidle hrow hpending hnew hfresh)
  intro _ _ _
  exact solo_pure fun _ hw => hw

/-- Processing the `OrderCreated` of a pending order, whatever fails on the way, commits exactly one
of: the reservation, the rejection, nothing. Nothing is left only by an error or a death on the way.
Without these it is the reservation when every product exists and has in stock what all the lines
for it ask for, and the rejection when not. -/
theorem reservation_all_or_nothing {w : World} {t : Tid} {ch : Nat → Choice} {dies : Option Nat}
    {event : OrderCreatedEvent} {order : OrderEntity} {messageId correlationId : Uuid}
    (hidle : ∀ t, w.db.txns t = none) (hrow : w.order event.orderId = some order)
    (hpending : order.status = .pending)
    (hnew : w.db.rows (.inbox messageId .inventory) = none)
    (hfresh : ∀ i, w.outbox (ch i).fresh = none) :
    ∃ s r, (respond (.deliver (createdMessage event messageId correlationId))).run.solo t ch dies 0 w =
        some (s, r) ∧
      (∃! v, Commits event order w (orderSystem.soloShared t s r) v) ∧
      (Commits event order w (orderSystem.soloShared t s r) .nothing →
        (∃ i, (ch i).fail = true) ∨ dies ≠ none) ∧
      ((∀ i, (ch i).fail = false) → dies = none →
        (Commits event order w (orderSystem.soloShared t s r) .reserved ↔
          ∀ line ∈ event.items, ∃ product, w.product line.productId = some product ∧
            (quantityOf event.items line.productId : Int) ≤ product.stock) ∧
        (Commits event order w (orderSystem.soloShared t s r) .failed ↔
          ¬∀ line ∈ event.items, ∃ product, w.product line.productId = some product ∧
            (quantityOf event.items line.productId : Int) ≤ product.stock)) := by
  have hsolo : Solo t ch dies _ 0 (fun w' => w' = w)
      (respond (.deliver (createdMessage event messageId correlationId))) _ _ :=
    solo_deliver hidle hrow hpending hnew hfresh
  obtain ⟨s, r, hrun, hpost⟩ := hsolo w rfl
  have hunique {w' : World} (hleft : Left event order messageId w w') :
      ∃! v, Commits event order w w' v := by
    obtain ⟨v, hv⟩ := hleft.commits
    exact ⟨v, hv, fun v' hv' => hv.unique hrow hpending hv'⟩
  refine ⟨s, r, hrun, ?_⟩
  match r with
  | none =>
    obtain ⟨j, hj, -, hleft⟩ := hpost
    refine ⟨hunique hleft, fun _ => .inr (by rw [hj]; nofun), ?_⟩
    intro _ hdies
    exact nomatch hdies.symm.trans hj
  | some (.error e, j) =>
    obtain ⟨-, ⟨l, hf⟩, hsame⟩ := hpost
    refine ⟨hunique (.inl hsame), fun _ => .inl ⟨l, hf⟩, ?_⟩
    intro hok _
    exact nomatch (hok l).symm.trans hf
  | some (.ok reply, j) =>
    obtain ⟨-, short, hrec⟩ := hpost
    obtain ⟨hreserved, hfailed, hnothing⟩ := hrec.decided hrow hpending
    exact ⟨hunique (.inr ⟨short, hrec⟩), fun hc => absurd hc hnothing, fun _ _ => ⟨hreserved, hfailed⟩⟩

/-- Two lines for the same product. -/
def twoLines (first second : Nat) : OrderCreatedEvent := ⟨1, 9, [⟨7, first⟩, ⟨7, second⟩]⟩

def twoLinesOrder (first second : Nat) : OrderEntity :=
  ⟨1, 9, .pending, none, [⟨7, "Widget", first⟩, ⟨7, "Widget", second⟩], .date 0, .date 0⟩

/-- The order is in the database, and there are five of the product. -/
def placed (first second : Nat) : World :=
  let w := World.initial oneProduct true
  { w with db := w.db.put 0 (.order 1) (some (twoLinesOrder first second)) [] (.inl rfl) }

/-- Two and three of the product are reserved, three and three are too many. -/
theorem reservation_all_or_nothing_two_lines :
    (∃ s r, (respond (.deliver (createdMessage (twoLines 2 3) 2 0))).run.solo 0 (fun _ => {}) none 0
        (placed 2 3) = some (s, r) ∧
      Commits (twoLines 2 3) (twoLinesOrder 2 3) (placed 2 3) (orderSystem.soloShared 0 s r)
        .reserved) ∧
    ∃ s r, (respond (.deliver (createdMessage (twoLines 3 3) 2 0))).run.solo 0 (fun _ => {}) none 0
        (placed 3 3) = some (s, r) ∧
      Commits (twoLines 3 3) (twoLinesOrder 3 3) (placed 3 3) (orderSystem.soloShared 0 s r)
        .failed := by
  constructor
  · obtain ⟨s, r, hrun, -, -, hok⟩ := @reservation_all_or_nothing (placed 2 3) 0 (fun _ => {}) none
      (twoLines 2 3) (twoLinesOrder 2 3) 2 0 (fun _ => rfl) rfl rfl rfl fun _ => rfl
    refine ⟨s, r, hrun, (hok (fun _ => rfl) rfl).1.mpr ?_⟩
    intro line hline
    have hproduct : line.productId = 7 := by
      simp only [twoLines, List.mem_cons, List.not_mem_nil, or_false] at hline
      rcases hline with rfl | rfl <;> rfl
    rw [hproduct]
    exact ⟨⟨"Widget", 5, true⟩, rfl, by decide⟩
  · obtain ⟨s, r, hrun, -, -, hok⟩ := @reservation_all_or_nothing (placed 3 3) 0 (fun _ => {}) none
      (twoLines 3 3) (twoLinesOrder 3 3) 2 0 (fun _ => rfl) rfl rfl rfl fun _ => rfl
    refine ⟨s, r, hrun, (hok (fun _ => rfl) rfl).2.mpr ?_⟩
    intro hfits
    obtain ⟨product, hproduct, hle⟩ := hfits ⟨7, 3⟩ List.mem_cons_self
    cases hproduct
    exact absurd hle (by decide)

end OrderLifecycle.Alone

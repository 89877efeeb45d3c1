import Mathlib.Data.Nat.Find
import Mathlib.Data.List.Nodup
import OrderLifecycle.Ledger.Settlement
import OrderLifecycle.Lifecycle.Runs

open Framework

namespace OrderLifecycle

/-! ### One delivery -/

/-- The process lives to run statement `n`. -/
def Delivery.Reaches (d : Delivery) (n : Nat) : Prop := ∀ j, d.dies = some j → n ≤ j

instance (d : Delivery) (n : Nat) : Decidable (d.Reaches n) :=
  match h : d.dies with
  | none => isTrue fun j hj => by simp [h] at hj
  | some j => decidable_of_iff (n ≤ j) (by simp [Delivery.Reaches, h])

/-- A call that died before statement `j`: before the decision was recorded, or after. -/
def Interrupted (t : Tid) (o : OrderId) (mid : Uuid) (ids : Uuid → Prop)
    (row : PaymentAuthorizationEntity) (answer : PaymentResult) (c : Prop) (n j : Nat) (w : World) :
    Prop :=
  (j < n ∧ Aside t o mid ids (some row) .reserved false w) ∨
    ((c ∧ n ≤ j) ∧ Resolving t o mid ids (row.decide answer) answer.target w)

/-- The message waits or was dead-lettered, after `n` retries were used up. -/
def Slot.Retried (n : Nat) : Slot → Prop
  | queued _ attempts => attempts.getD 0 = n ∧ n ≤ defaultMaxRetries
  | acked => False
  | deadLettered => defaultMaxRetries < n

/-- The payment is decided: the message waits, or it was acknowledged and its order has moved. -/
def Recovering (o : OrderId) (mid : Uuid) (ids : Uuid → Prop) (row : PaymentAuthorizationEntity)
    (target : OrderStatus) (x : World × Slot) : Prop :=
  (x.2 = .acked ∧ Stage o mid ids (some row) target true x.1) ∨
    ∃ since attempts, x.2 = .queued since attempts ∧ Resolved o mid ids row target x.1

section delivery

variable {message : OutboxMessageEntity} {e : InventoryReservedEvent} {ids : Uuid → Prop}
  {row : PaymentAuthorizationEntity} {t : Tid} {d : Delivery} {answer : PaymentResult} {c : Prop}
  {n m : Nat} {P : World → Prop} {w : World}

theorem deliver_survived {w' : World} {since : Nat} {attempts : Option Nat}
    {result : Except AppError Handled} {j : Nat} (hd : d.dies = none)
    (h : (handle message).run.solo t (d.choice answer) d.dies 0 w = some (w', some (result, j))) :
    deliver message answer t d (w, .queued since attempts) =
      some (settle d.ends attempts w' result) := by
  rw [hd] at h
  simp only [deliver, hd, h, Option.map_some]

theorem deliver_died {w' : World} {since j : Nat} {attempts : Option Nat}
    {r : Option (Except AppError Handled × Nat)} (hd : d.dies = some j)
    (h : (handle message).run.solo t (d.choice answer) d.dies 0 w = some (w', r)) :
    deliver message answer t d (w, .queued since attempts) =
      some ({ w' with db := w'.db.rollback t }, .queued d.ends attempts) := by
  rw [hd] at h
  simp only [deliver, hd, h, Option.map_some]

/-- A call of the gateway that may decide, carried to its end. -/
theorem solo_handle_open (hpayload : message.payload = .inventoryReserved e)
    (hids : ∀ i, ids (d.fresh i))
    (hauth : Solo t (d.choice answer) d.dies
      (fun j w => j < n ∧ Aside t e.orderId message.id ids (some row) .reserved false w) 0
      P (authorize e)
      (fun r j w => (c ∧ r = answer ∧ j = n) ∧
        Stage e.orderId message.id ids (some (row.decide answer)) .reserved false w)
      (fun _ _ w => ¬c ∧ Stage e.orderId message.id ids (some row) .reserved false w)) :
    Solo t (d.choice answer) d.dies (Interrupted t e.orderId message.id ids row answer c n) 0
      P (handle message)
      (fun r j w => (c ∧ r = .ack ∧ n ≤ j) ∧
        Stage e.orderId message.id ids (some (row.decide answer)) answer.target true w)
      (fun _ _ w => ¬c ∧ Stage e.orderId message.id ids (some row) .reserved false w) := by
  simp only [handle, hpayload, authorizeAndAdvance]
  apply solo_bind (solo_conseq hauth (fun w h => h) (fun _ _ _ _ h => h) (fun _ _ _ _ h => h)
    fun _ _ _ _ h => .inl h)
  intro result j _
  apply solo_fact
  rintro ⟨hc, rfl, rfl⟩
  apply solo_conseq (solo_finish hids rfl)
  · exact fun w h => .inl h
  · rintro r l w ⟨hl, -⟩ ⟨hr, hw⟩
    exact ⟨⟨hc, hr, hl⟩, hw⟩
  · exact fun _ _ _ _ h => h.elim
  · exact fun l w _ hl h => .inr ⟨⟨hc, hl⟩, h⟩

/-- Either the delivery decides the payment, or one retry is used up unless the process died. -/
theorem deliver_open
    (hsolo : Solo t (d.choice answer) d.dies
      (Interrupted t e.orderId message.id ids row answer c n) 0
      P (handle message)
      (fun r j w => (c ∧ r = .ack ∧ n ≤ j) ∧
        Stage e.orderId message.id ids (some (row.decide answer)) answer.target true w)
      (fun _ _ w => ¬c ∧ Stage e.orderId message.id ids (some row) .reserved false w))
    (hp : P w) {since : Nat} {attempts : Option Nat} (hm : (Slot.queued since attempts).Retried m) :
    ∃ y, deliver message answer t d (w, .queued since attempts) = some y ∧
      (((c ∧ d.Reaches n) ∧
          Recovering e.orderId message.id ids (row.decide answer) answer.target y) ∨
        (¬(c ∧ d.Reaches n) ∧ Stage e.orderId message.id ids (some row) .reserved false y.1 ∧
          y.2.Retried (if d.dies = none then m + 1 else m))) := by
  obtain ⟨w', r, hr, hpost⟩ := hsolo w hp
  match r with
  | none =>
    obtain ⟨j, hj, -, hD⟩ := hpost
    refine ⟨_, deliver_died hj hr, ?_⟩
    rcases hD with ⟨hlt, ha⟩ | ⟨⟨hc, hle⟩, hs⟩
    · refine .inr ⟨fun h => absurd (h.2 j hj) (by omega), ha.rollback, ?_⟩
      simp only [hj, reduceCtorEq, if_false]
      exact hm
    · refine .inl ⟨⟨hc, fun l hl => ?_⟩, .inr ⟨_, _, rfl, hs.rollback⟩⟩
      obtain rfl : j = l := Option.some.inj (hj.symm.trans hl)
      exact hle
  | some (.ok h, j) =>
    obtain ⟨⟨-, hsurvives⟩, ⟨hc, rfl, hle⟩, hs⟩ := hpost
    have hreach : d.Reaches n := fun l hl => Nat.le_trans hle (hsurvives l hl (Nat.zero_le l))
    cases hd : d.dies with
    | none => exact ⟨_, deliver_survived hd hr, .inl ⟨⟨hc, hreach⟩, .inl ⟨rfl, hs⟩⟩⟩
    | some l =>
      exact ⟨_, deliver_died hd hr,
        .inl ⟨⟨hc, hreach⟩, .inr ⟨_, _, rfl, .inr hs.aside.rollback⟩⟩⟩
  | some (.error err, j) =>
    obtain ⟨-, hc, hs⟩ := hpost
    cases hd : d.dies with
    | none =>
      refine ⟨_, deliver_survived hd hr, .inr ⟨fun h => hc h.1, hs.congr rfl, ?_⟩⟩
      obtain ⟨hm, hle⟩ := hm
      by_cases hlt : m < defaultMaxRetries
      · have hleft : attempts.getD 0 < defaultMaxRetries := hm.symm ▸ hlt
        obtain ⟨q, delayMs, hretry⟩ : ∃ q delayMs,
            createRetryErrorHandler paymentQueue defaultMaxRetries defaultBaseDelayMs attempts =
              .retry q delayMs (attempts.getD 0 + 1) := createRetryErrorHandler_retry hleft
        simp only [settle, hretry]
        exact ⟨congrArg (· + 1) hm, hlt⟩
      · have hle' : defaultMaxRetries ≤ attempts.getD 0 := hm.symm ▸ Nat.le_of_not_lt hlt
        simp only [settle, createRetryErrorHandler_deadLetter hle']
        exact Nat.lt_succ_of_le (Nat.le_of_not_lt hlt)
    | some l =>
      exact ⟨_, deliver_died hd hr, .inr ⟨fun h => hc h.1, hs.aside.rollback, hm⟩⟩

/-- A decided payment stays on course, and reaches its order with the first delivery that the
process survives. -/
theorem deliver_recovering (hpayload : message.payload = .inventoryReserved e)
    (hids : ∀ i, ids (d.fresh i)) {x : World × Slot}
    (hx : Recovering e.orderId message.id ids (row.decide answer) answer.target x) :
    ∃ y, deliver message answer t d x = some y ∧
      Recovering e.orderId message.id ids (row.decide answer) answer.target y ∧
      (d.dies = none → y.2 = .acked) := by
  obtain ⟨w, slot⟩ := x
  rcases hx with ⟨hslot, hs⟩ | ⟨since, attempts, hslot, hs⟩ <;> simp only at hslot <;> subst hslot
  · exact ⟨_, rfl, .inl ⟨rfl, hs⟩, fun _ => rfl⟩
  have hdecided : (row.decide answer).authorized ≠ none := Option.some_ne_none _
  have hsolo : Solo t (d.choice answer) d.dies
      (fun _ w => Resolving t e.orderId message.id ids (row.decide answer) answer.target w) 0
      (Resolved e.orderId message.id ids (row.decide answer) answer.target) (handle message)
      (fun r _ w => r = .ack ∧
        Stage e.orderId message.id ids (some (row.decide answer)) answer.target true w)
      (fun _ _ _ => False) := by
    simp only [handle, hpayload, authorizeAndAdvance]
    apply solo_bind (Q := fun r _ w => r = toResult (row.decide answer) ∧
      Resolved e.orderId message.id ids (row.decide answer) answer.target w)
    · intro w hw
      rcases hw with hw | hw
      · exact solo_conseq (solo_authorize_decided hdecided) (fun w h => h)
          (fun _ _ _ _ h => ⟨h.1, .inl h.2⟩) (fun _ _ _ _ h => h) (fun _ _ _ _ h => .inl h) w hw
      · exact solo_conseq (solo_authorize_decided hdecided) (fun w h => h)
          (fun _ _ _ _ h => ⟨h.1, .inr h.2⟩) (fun _ _ _ _ h => h) (fun _ _ _ _ h => .inr h) w hw
    · intro result j _
      apply solo_fact
      rintro rfl
      refine solo_finish hids ?_
      unfold PaymentResult.target toResult PaymentAuthorizationEntity.decide
      cases answer.authorized <;> rfl
  obtain ⟨w', r, hr, hpost⟩ := hsolo w hs
  match r with
  | none =>
    obtain ⟨j, hj, -, hD⟩ := hpost
    exact ⟨_, deliver_died hj hr, .inr ⟨_, _, rfl, hD.rollback⟩, fun hn => by simp [hj] at hn⟩
  | some (.ok h, j) =>
    obtain ⟨-, rfl, hs'⟩ := hpost
    cases hd : d.dies with
    | none => exact ⟨_, deliver_survived hd hr, .inl ⟨rfl, hs'⟩, fun _ => rfl⟩
    | some l =>
      exact ⟨_, deliver_died hd hr, .inr ⟨_, _, rfl, .inr hs'.aside.rollback⟩,
        fun hn => nomatch hn⟩
  | some (.error err, j) => exact hpost.2.elim

end delivery

/-! ### All deliveries of a message -/

/-- Retries used up by the first `n` deliveries, if all of them fail: a death uses up none. -/
def retries (schedule : Nat → Delivery) (n : Nat) : Nat :=
  (List.range n).countP fun k => (schedule k).dies.isNone

/-- The row the first delivery claims. -/
def firstClaim (o : OrderId) (schedule : Nat → Delivery) : PaymentAuthorizationEntity :=
  ⟨o, none, none, (schedule 0).now 0⟩

/-- Delivery `k` gets to record a decision: the provider does not throw, the claim is its own or
stale by then, and the process lives to record it. -/
def Concludes (o : OrderId) (schedule : Nat → Delivery) (k : Nat) : Prop :=
  (schedule k).throws = false ∧
    if k = 0 then (schedule k).Reaches 4
    else (firstClaim o schedule).isStale ((schedule k).now 2) = true ∧ (schedule k).Reaches 7

/-- It does so before the retries are exhausted. -/
def Decides (o : OrderId) (schedule : Nat → Delivery) (k : Nat) : Prop :=
  retries schedule k ≤ defaultMaxRetries ∧ Concludes o schedule k

/-- The message is about to be delivered for the first time: its order is `RESERVED`, nobody is
at work on it, and the ids to be generated are new. -/
def Awaiting (message : OutboxMessageEntity) (schedule : Nat → Delivery) (w : World) : Prop :=
  Stage message.payload.orderId message.id (fun id => ∃ k i, (schedule k).fresh i = id) none
    .reserved false w

section schedule

variable {message : OutboxMessageEntity} {e : InventoryReservedEvent} {ids : Uuid → Prop}
  {row : PaymentAuthorizationEntity} {answer : PaymentResult} {schedule : Nat → Delivery}
  {n m : Nat} {w : World}

theorem target_ne_reserved : answer.target ≠ .reserved := by
  unfold PaymentResult.target
  split <;> exact fun h => nomatch h

theorem retries_succ : retries schedule (n + 1) =
    if (schedule n).dies = none then retries schedule n + 1 else retries schedule n := by
  simp only [retries, List.range_succ, List.countP_append, List.countP_cons, List.countP_nil,
    Option.isNone_iff_eq_none]
  split <;> rfl

theorem retries_mono (h : n ≤ m) : retries schedule n ≤ retries schedule m := by
  induction m, h using Nat.le_induction with
  | base => exact Nat.le_refl _
  | succ m _ ih =>
    rw [retries_succ]
    split <;> omega

theorem redeliver_deadLettered
    (h : (redeliver message answer schedule w n).map Prod.snd = some .deadLettered) (hm : n ≤ m) :
    (redeliver message answer schedule w m).map Prod.snd = some .deadLettered := by
  induction m, hm using Nat.le_induction with
  | base => exact h
  | succ m _ ih =>
    obtain ⟨x, hx, hslot⟩ := Option.map_eq_some_iff.mp ih
    have hnext : deliver message answer m (schedule m) x = some x := by
      obtain ⟨w', slot⟩ := x
      simp only at hslot
      subst hslot
      rfl
    simp [redeliver, hx, hnext, hslot]

/-- What a delivery that finds no decision does. -/
theorem deliver_undecided (answer : PaymentResult)
    (hpayload : message.payload = .inventoryReserved e)
    (hids : ∀ k i, ids ((schedule k).fresh i)) (hclaim : (schedule 0).Reaches 1)
    (hw : Stage e.orderId message.id ids (if n = 0 then none else some (firstClaim e.orderId schedule))
      .reserved false w) {since : Nat} {attempts : Option Nat}
    (hslot : (Slot.queued since attempts).Retried (retries schedule n)) :
    ∃ y, deliver message answer n (schedule n) (w, .queued since attempts) = some y ∧
      ((Concludes e.orderId schedule n ∧
          Recovering e.orderId message.id ids ((firstClaim e.orderId schedule).decide answer)
            answer.target y) ∨
        (¬Concludes e.orderId schedule n ∧
          Stage e.orderId message.id ids (some (firstClaim e.orderId schedule)) .reserved false y.1 ∧
          y.2.Retried (retries schedule (n + 1)))) := by
  rw [retries_succ]
  by_cases h0 : n = 0
  · subst h0
    rw [if_pos rfl] at hw
    have hsolo := solo_handle_open (t := 0) hpayload (hids 0) (solo_authorize_first answer hclaim)
    simpa only [Concludes, if_true, firstClaim] using deliver_open hsolo hw hslot
  · rw [if_neg h0] at hw
    have hopen : (firstClaim e.orderId schedule).authorized = none := rfl
    have hsolo := solo_handle_open (t := n) hpayload (hids n) (solo_authorize_again answer hopen)
    simpa only [Concludes, if_neg h0, and_assoc] using deliver_open hsolo hw hslot

/-- As long as no delivery decides, the row stays undecided and the retries run out. -/
theorem undecided_run (answer : PaymentResult)
    (hpayload : message.payload = .inventoryReserved e)
    (hids : ∀ k i, ids ((schedule k).fresh i)) (hclaim : (schedule 0).Reaches 1)
    (hw : Stage e.orderId message.id ids none .reserved false w)
    (hn : ∀ k < n, ¬Decides e.orderId schedule k) :
    ∃ w' slot, redeliver message answer schedule w n = some (w', slot) ∧
      slot.Retried (retries schedule n) ∧
      Stage e.orderId message.id ids (if n = 0 then none else some (firstClaim e.orderId schedule))
        .reserved false w' := by
  induction n with
  | zero => exact ⟨w, _, rfl, ⟨rfl, Nat.zero_le _⟩, hw⟩
  | succ n ih =>
    obtain ⟨w', slot, hrun, hslot, hs⟩ := ih fun k hk => hn k (Nat.lt_succ_of_lt hk)
    have hnot := hn n (Nat.lt_succ_self n)
    simp only [redeliver, hrun, Option.bind_some, Nat.succ_ne_zero, if_false]
    cases slot with
    | acked => exact hslot.elim
    | deadLettered =>
      have hn0 : n ≠ 0 := by
        rintro rfl
        exact absurd hslot (Nat.not_lt_zero _)
      rw [if_neg hn0] at hs
      exact ⟨w', _, rfl, Nat.lt_of_lt_of_le hslot (retries_mono (Nat.le_succ n)), hs⟩
    | queued since attempts =>
      obtain ⟨y, hy, ⟨hc, -⟩ | ⟨-, hs', hslot'⟩⟩ :=
        deliver_undecided answer hpayload hids hclaim hs hslot
      · exact absurd ⟨hslot.2, hc⟩ hnot
      · exact ⟨y.1, y.2, hy, hslot', hs'⟩

/-- Once it is decided, every delivery keeps it on course. -/
theorem recovering_run (hpayload : message.payload = .inventoryReserved e)
    (hids : ∀ k i, ids ((schedule k).fresh i)) {x : World × Slot}
    (hx : redeliver message answer schedule w n = some x)
    (hr : Recovering e.orderId message.id ids (row.decide answer) answer.target x) (h : n ≤ m) :
    ∃ y, redeliver message answer schedule w m = some y ∧
      Recovering e.orderId message.id ids (row.decide answer) answer.target y := by
  induction m, h using Nat.le_induction with
  | base => exact ⟨x, hx, hr⟩
  | succ m _ ih =>
    obtain ⟨y, hy, hry⟩ := ih
    obtain ⟨z, hz, hrz, -⟩ := deliver_recovering (t := m) hpayload (hids m) hry
    exact ⟨z, by simp [redeliver, hy, hz], hrz⟩

/-- With finitely many faults some delivery is survived. -/
theorem exists_survived (hfaults : Faults schedule m) (n : Nat) :
    ∃ k, n ≤ k ∧ (schedule k).dies = none := by
  by_contra hno
  have hall : ∀ k, n ≤ k → ((schedule k).throws || (schedule k).dies.isSome) = true := by
    intro k hk
    cases hd : (schedule k).dies with
    | none => exact absurd ⟨k, hk, hd⟩ hno
    | some j => simp
  have hcount := hfaults (n + (m + 1))
  rw [List.range_add, List.countP_append] at hcount
  have htail : (List.map (n + ·) (List.range (m + 1))).countP
      (fun k => (schedule k).throws || (schedule k).dies.isSome) = m + 1 := by
    rw [List.countP_eq_length.mpr]
    · simp
    · intro k hk
      obtain ⟨l, -, rfl⟩ := List.mem_map.mp hk
      exact hall _ (Nat.le_add_right n l)
  omega

/-- The message recovers exactly when some delivery records a decision in time. -/
theorem recovers_iff (hpayload : message.payload = .inventoryReserved e)
    (hw : Awaiting message schedule w) (hclaim : (schedule 0).Reaches 1)
    (hfaults : Faults schedule defaultMaxRetries) :
    Recovers message answer schedule w ↔ ∃ k, Decides e.orderId schedule k := by
  have horder : message.payload.orderId = e.orderId := by rw [hpayload]; rfl
  have hids : ∀ k i, ∃ k' i', (schedule k').fresh i' = (schedule k).fresh i :=
    fun k i => ⟨k, i, rfl⟩
  rw [Awaiting, horder] at hw
  constructor
  · rintro ⟨-, n, w', slot, row, hrun, hrow, hstatus⟩
    by_contra hno
    have hnone : ∀ k < n, ¬Decides e.orderId schedule k := fun k _ hk => hno ⟨k, hk⟩
    obtain ⟨w'', slot', hrun', -, hs⟩ :=
      undecided_run answer hpayload hids hclaim hw hnone
    cases hrun.symm.trans hrun'
    obtain ⟨row', hrow', hreserved⟩ := hs.rows.order
    rw [horder] at hrow
    cases hrow.symm.trans hrow'
    rw [hstatus] at hreserved
    exact target_ne_reserved hreserved
  · intro hex
    classical
    obtain ⟨hleft, hc⟩ := Nat.find_spec hex
    have hbefore : ∀ k < Nat.find hex, ¬Decides e.orderId schedule k :=
      fun k hk => Nat.find_min hex hk
    obtain ⟨w', slot, hrun, hslot, hs⟩ :=
      undecided_run answer hpayload hids hclaim hw hbefore
    have hafter : ∃ y, redeliver message answer schedule w (Nat.find hex + 1) = some y ∧
        Recovering e.orderId message.id (fun id => ∃ k i, (schedule k).fresh i = id)
          ((firstClaim e.orderId schedule).decide answer) answer.target y := by
      simp only [redeliver, hrun, Option.bind_some]
      cases slot with
      | acked => exact hslot.elim
      | deadLettered => exact absurd hleft (Nat.not_le.mpr hslot)
      | queued since attempts =>
        obtain ⟨y, hy, ⟨-, hry⟩ | ⟨hnot, -⟩⟩ :=
          deliver_undecided answer hpayload hids hclaim hs hslot
        · exact ⟨y, hy, hry⟩
        · exact absurd hc hnot
    obtain ⟨x, hx, hrx⟩ := hafter
    refine ⟨fun n w₁ slot₁ hn => ?_, ?_⟩
    · rcases Nat.lt_or_ge (Nat.find hex) n with hlt | hge
      · obtain ⟨y, hy, hry⟩ := recovering_run hpayload hids hx hrx hlt
        cases hn.symm.trans hy
        rcases hry with ⟨hslot', -⟩ | ⟨_, _, hslot', -⟩ <;> simp only at hslot' <;>
          simp [hslot']
      · obtain ⟨w₂, slot₂, hrun₂, hslot₂, -⟩ := undecided_run answer hpayload hids hclaim hw
          fun k hk => hbefore k (Nat.lt_of_lt_of_le hk hge)
        cases hn.symm.trans hrun₂
        rintro rfl
        exact absurd (Nat.le_trans (retries_mono hge) hleft) (Nat.not_le.mpr hslot₂)
    · obtain ⟨m, hm, hd⟩ := exists_survived hfaults (Nat.find hex + 1)
      obtain ⟨y, hy, hry⟩ := recovering_run hpayload hids hx hrx hm
      obtain ⟨z, hz, hrz, hacked⟩ := deliver_recovering (t := m) hpayload (hids m) hry
      have hrun' : redeliver message answer schedule w (m + 1) = some z := by
        simp [redeliver, hy, hz]
      rcases hrz with ⟨-, hs'⟩ | ⟨_, _, hslot', -⟩
      · obtain ⟨row, hrow, hst⟩ := hs'.rows.order
        exact ⟨m + 1, z.1, z.2, row, hrun', horder ▸ hrow, hst⟩
      · rw [hacked hd] at hslot'
        cases hslot'

end schedule

/-! ### One charge that throws -/

/-- A delivery all of whose statements run at `time`. -/
def deliveryAt (time : Nat) (throws : Bool) : Delivery where
  now _ := time
  fresh _ := 8
  throws := throws
  dies := none
  ends := time
  now_mono _ _ _ := Nat.le_refl time
  now_le_ends _ := Nat.le_refl time

/-- The provider throws at the first delivery only. -/
def throwingOnce (times : Nat → Nat) (k : Nat) : Delivery := deliveryAt (times k) (k == 0)

/-- Every delivery comes at the end of its backoff. -/
def promptly : Nat → Nat
  | 0 => 0
  | 1 => 1000
  | 2 => 3000
  | _ => 7000

/-- The second delivery had to wait for 40 s. -/
def slowly : Nat → Nat
  | 0 => 0
  | _ => 40000

/-- The order that was paid for in `paying`, and its message. -/
def paymentMessage : OutboxMessageEntity := message 3 (.inventoryReserved ⟨1, 9⟩)

/-- What is looked at: nobody is at work, the order waits for its payment, and where its message
is after each delivery. -/
def Shop.timeline (s : Shop) (schedule : Nat → Delivery) : Bool × Bool × List (Option Slot) :=
  ((List.range 3).all fun t => (s.shared.db.txns t).isNone,
    paymentMessage ∈ s.shared.messages ∧ (s.shared.authorization 1).isNone ∧
      (s.shared.order 1).map (·.status) = some .reserved ∧
      (s.shared.db.rows (.inbox 3 .payment)).isNone ∧ (s.shared.outbox 8).isNone,
    (List.range 5).map fun n =>
      (redeliver paymentMessage decline schedule s.shared n).map Prod.snd)

/-- The retries come after 1 s, 2 s and 4 s; then there are no more. -/
def backoff : List (Option Slot) :=
  [some (.queued 0 none), some (.queued 1000 (some 1)), some (.queued 3000 (some 2)),
    some (.queued 7000 (some 3)), some .deadLettered]

theorem faults_throwingOnce (times : Nat → Nat) :
    Faults (throwingOnce times) defaultMaxRetries := by
  intro m
  have hcount : (List.range m).countP
      (fun k => (throwingOnce times k).throws || (throwingOnce times k).dies.isSome) =
        (List.range m).count 0 := by
    simp [List.count, throwingOnce, deliveryAt]
  rw [hcount]
  have hone := List.nodup_iff_count_le_one.mp (List.nodup_range (n := m)) 0
  exact Nat.le_trans hone (by decide)

theorem exists_awaiting (times : Nat → Nat) : ∃ s, Reaches oneProduct true
    (placing ++ reserving ++ paying) s ∧ paymentMessage ∈ s.shared.messages ∧
    Awaiting paymentMessage (throwingOnce times) s.shared ∧
    (s.timeline (throwingOnce promptly)).2.2 = backoff := by
  obtain ⟨s, hs, hout⟩ := reaches_of_trial (placing ++ reserving ++ paying)
    (fun s => s.timeline (throwingOnce promptly)) (true, true, backoff) (by decide +kernel)
  simp only [Shop.timeline, Prod.mk.injEq, decide_eq_true_eq] at hout
  obtain ⟨hidle, ⟨hm, hledger, horder, hinbox, hunused⟩, hslots⟩ := hout
  obtain ⟨row, hrow, hst⟩ := Option.map_eq_some_iff.mp horder
  refine ⟨s, hs, hm, ⟨hs.idle (by decide) hidle, ⟨?_, ⟨row, hrow, hst⟩, ?_, ?_⟩⟩, hslots⟩
  · exact Option.isNone_iff_eq_none.mp hledger
  · exact congrArg Option.isSome (Option.isNone_iff_eq_none.mp hinbox)
  · rintro - id ⟨k, i, rfl⟩
    exact Option.isNone_iff_eq_none.mp hunused

/-- A charge that throws once can cost the payment: the claim it leaves is not stale before the
retries are over. -/
theorem not_recovers : ¬∀ (c : Catalog) (b : Bool) (moves : List Move) (s : Shop)
    (message : OutboxMessageEntity) (e : InventoryReservedEvent) (answer : PaymentResult)
    (schedule : Nat → Delivery), Reaches c b moves s → message ∈ s.shared.messages →
      message.payload = .inventoryReserved e → Awaiting message schedule s.shared →
      (schedule 0).Reaches 1 → Faults schedule defaultMaxRetries →
      Punctual message answer schedule s.shared → Recovers message answer schedule s.shared := by
  intro h
  obtain ⟨s, hs, hm, hawait, hslots⟩ := exists_awaiting promptly
  let slotAt (n : Nat) : Option Slot :=
    (redeliver paymentMessage decline (throwingOnce promptly) s.shared n).map Prod.snd
  change [slotAt 0, slotAt 1, slotAt 2, slotAt 3, slotAt 4] = backoff at hslots
  simp only [backoff, List.cons.injEq, and_true] at hslots
  obtain ⟨h0, h1, h2, h3, h4⟩ := hslots
  have hpunctual : Punctual paymentMessage decline (throwingOnce promptly) s.shared := by
    intro n w' since attempts hrun
    have hslot : slotAt n = some (.queued since attempts) := congrArg (Option.map Prod.snd) hrun
    match n with
    | 0 =>
      cases h0.symm.trans hslot
      exact Nat.le_refl 0
    | 1 =>
      cases h1.symm.trans hslot
      exact Nat.le_refl 1000
    | 2 =>
      cases h2.symm.trans hslot
      exact Nat.le_refl 3000
    | 3 =>
      cases h3.symm.trans hslot
      exact Nat.le_refl 7000
    | n + 4 =>
      have hdead := redeliver_deadLettered h4 (Nat.le_add_left 4 n)
      exact nomatch hdead.symm.trans hslot
  have hreach : (throwingOnce promptly 0).Reaches 1 := fun j hj => nomatch hj
  obtain ⟨hnever, -⟩ := h oneProduct true _ s paymentMessage ⟨1, 9⟩ decline _ hs hm rfl hawait hreach
    (faults_throwingOnce promptly) hpunctual
  obtain ⟨⟨w', slot⟩, hrun, hslot⟩ := Option.map_eq_some_iff.mp h4
  exact hnever 4 w' slot hrun hslot

/-- A slow queue helps: the second delivery comes 40 s later and takes the claim over. -/
theorem recovers_slowly : ∃ s, Reaches oneProduct true (placing ++ reserving ++ paying) s ∧
    Recovers paymentMessage decline (throwingOnce slowly) s.shared := by
  obtain ⟨s, hs, hm, hawait, -⟩ := exists_awaiting slowly
  have hreach : (throwingOnce slowly 0).Reaches 1 := fun j hj => nomatch hj
  have hiff : Recovers paymentMessage decline (throwingOnce slowly) s.shared ↔ _ :=
    recovers_iff (e := ⟨1, 9⟩) rfl hawait hreach (faults_throwingOnce slowly)
  exact ⟨s, hs, hiff.mpr ⟨1, by decide, rfl, by decide, fun j hj => nomatch hj⟩⟩

end OrderLifecycle

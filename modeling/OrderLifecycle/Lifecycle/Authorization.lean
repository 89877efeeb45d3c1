import OrderLifecycle.Lifecycle.OrderServices

open Framework

namespace OrderLifecycle

variable {S : Setting} {t : Tid} {k : Request} {w w' : World} {o : OrderId} {u : UserId}
  {event : InventoryReservedEvent} {result : PaymentResult}

/-! ### What the payment consumer knows of its order -/

/-- The order exists, belongs to `u`, and its owner has confirmed payment. -/
def Paying (o : OrderId) (u : UserId) (w : World) : Prop :=
  ∃ row, (w.facts o).order = some row ∧ row.userId = u ∧ row.paymentInitiatedAt.isSome = true

def HasLedger (o : OrderId) (w : World) : Prop := (w.facts o).authorization ≠ none

/-- The call delivers an event of the order. -/
def Called (k : Request) (key : RoutingKey) (o : OrderId) (w : World) : Prop :=
  ∃ m ∈ (w.facts o).events key, k = .deliver m

/-- With a provider of fixed answers, the ledger has the decision `result`. -/
def Authorized (S : Setting) (o : OrderId) (result : PaymentResult) (w : World) : Prop :=
  S.provider ≠ none →
    ∃ a, (w.facts o).authorization = some a ∧ a.authorized = some result.authorized

theorem lasting_paying : (orderLogic S).Lasting (Paying o u) := by
  refine lasting_of_evolves fun w w' he ⟨row, hrow, hu, hp⟩ => ?_
  obtain ⟨row', hrow', hf⟩ := (he o).order row hrow
  refine ⟨row', hrow', hf.userId.trans hu, ?_⟩
  rw [hf.paymentInitiatedAt (Option.isSome_iff_ne_none.mp hp)]
  exact hp

theorem lasting_called {key : RoutingKey} : (orderLogic S).Lasting (Called k key o) :=
  lasting_of_evolves fun _ _ he ⟨m, hm, hk⟩ => ⟨m, (he o).events key hm, hk⟩

theorem lasting_hasLedger : (orderLogic S).Lasting (HasLedger o) := by
  refine lasting_of_evolves fun w w' he h => ?_
  obtain ⟨a, ha⟩ := Option.ne_none_iff_exists'.mp h
  obtain ⟨a', ha', -⟩ := (he o).authorization a ha
  exact Option.ne_none_iff_exists'.mpr ⟨a', ha'⟩

/-- A decision stays. -/
theorem lasting_authorized : (orderLogic S).Lasting (Authorized S o result) := by
  refine lasting_of_evolves fun w w' he h hp => ?_
  obtain ⟨a, ha, hd⟩ := h hp
  obtain ⟨a', ha', hk⟩ := (he o).authorization a ha
  exact ⟨a', ha', by rw [hk (by simp [hd])]; exact hd⟩

/-! ### The statements of `authorize` -/

theorem Draft.writes_setAuthorization {a : PaymentAuthorizationEntity} (k' : Key) :
    { Draft.empty with authorization := some (o, a) }.writes k' =
      Function.update Draft.empty.writes (.authorization o) (some (some a)) k' := by
  by_cases e : k' = .authorization o
  · subst e
    rw [Function.update_self]
    exact if_pos rfl
  · rw [Function.update_of_ne e]
    cases k' with
    | authorization o' =>
      have ho : o ≠ o' := fun h => e (by rw [h])
      simp only [writes, if_neg ho]
      rfl
    | _ => rfl

theorem Draft.about_authorization {a : PaymentAuthorizationEntity} :
    { Draft.empty with authorization := some (o, a) }.About o := by
  refine ⟨fun _ h => (nomatch h), fun _ h => (nomatch h), ?_, fun _ h => (nomatch h)⟩
  rintro x ⟨⟩
  rfl

theorem Draft.apply_authorization {a : PaymentAuthorizationEntity} {f : OrderFacts} :
    { Draft.empty with authorization := some (o, a) }.apply o f.reserved f =
      { f with authorization := some a } := by
  refine OrderFacts.mk.injEq .. |>.mpr ⟨rfl, rfl, rfl, if_pos rfl, rfl, ?_, ?_⟩
  · exact funext fun p => Int.add_zero _
  · exact List.append_nil _

/-- A write of the ledger row, outside any transaction. -/
theorem Idle.putAuthorization (h : Idle t w) (hi : Inv S w) {a : PaymentAuthorizationEntity}
    (hfree : w.db.Free t (.authorization o)) (g : GatewayLog)
    (hg : ∀ o, (∃ t key, (t, GatewayDeed.charged o key) ∈ g) ↔
      ∃ t key, (t, GatewayDeed.charged o key) ∈ w.gateway)
    (hs : OrderStep S t k o (w.facts o) { w.facts o with authorization := some a })
    (w' : World) (hw : w' = { w with
      db := w.db.put t (.authorization o) (some a) [] hfree
      gateway := g }) :
    Inv S w' ∧ Guar S t k w w' ∧ Idle t w' ∧ (w'.facts o).authorization = some a := by
  subst hw
  have hc : Commits { Draft.empty with authorization := some (o, a) } w
      { w with db := w.db.put t (.authorization o) (some a) [] hfree, gateway := g } :=
    h.commits_put hfree g hg (fun k' _ => Draft.writes_setAuthorization k') fun _ h => (nomatch h)
  have hr := hc.reserved_same (o := o) (fun _ h => (nomatch h)) fun _ h => (nomatch h)
  obtain ⟨hi', hg'⟩ := hc.next hi Draft.about_authorization (fun _ h => (nomatch h))
    (by rw [hr, Draft.apply_authorization]; exact hs) (Store.put_frame (h := hfree))
    (hi.accounts.put_tracked hfree rfl moved_nil) rfl rfl
  refine ⟨hi', hg', h.put hfree g, ?_⟩
  rw [hc.own o, hr, Draft.apply_authorization]

theorem charged_append {g : GatewayLog} {d : GatewayDeed} (hd : ∀ o key, d ≠ .charged o key)
    (o : OrderId) : (∃ t' key, (t', GatewayDeed.charged o key) ∈ g ++ [(t, d)]) ↔
      ∃ t' key, (t', GatewayDeed.charged o key) ∈ g := by
  simp only [List.mem_append, List.mem_singleton, Prod.mk.injEq]
  constructor
  · rintro ⟨t', key, h | ⟨-, h⟩⟩
    · exact ⟨t', key, h⟩
    · exact absurd h.symm (hd o key)
  · rintro ⟨t', key, h⟩
    exact ⟨t', key, .inl h⟩

theorem hoare_claim :
    Hoare (orderLogic S) t k
      (fun w => Idle t w ∧ Paying o u w ∧ Called k .inventoryReserved o w) (claim o)
      (fun _ w => Idle t w ∧ HasLedger o w) (fun _ _ => True) := by
  refine hoare_sql (stable_idle.and (lasting_paying.stable.and lasting_called.stable))
    (fun w h => h.1.not_aborted) (fun _ _ _ => trivial) ?_
  intro w ch r w' hi _ ⟨hidle, ⟨row, hrow, _, hp⟩, hcall⟩ hf
  obtain ⟨⟨b, db⟩, hins, he⟩ := Option.map_eq_some_iff.mp hf
  cases he
  rcases Store.insert_cases hins with ⟨rfl, rfl, hv⟩ | ⟨rfl, hv, hfree, rfl⟩
  · rw [Store.view_idle hidle] at hv
    exact ⟨hi, ⟨.refl, .inl fun _ => rfl⟩, hidle, hv⟩
  · rw [Store.view_idle hidle] at hv
    obtain ⟨hi', hg, hidle', ha⟩ := hidle.putAuthorization (k := k) hi hfree _
      (charged_append (d := .claimed o) nofun)
      (.claimLedger (w.facts o) row ⟨o, none, none, ch.now⟩ hrow hp hv rfl hcall) _ rfl
    exact ⟨hi', hg, hidle', Option.ne_none_iff_exists'.mpr ⟨_, ha⟩⟩

/-- A note in the gateway's history is no step of an order, unless it is a charge. -/
theorem Inv.note (hi : Inv S w) {d : GatewayDeed} (hd : ∀ o key, d ≠ .charged o key) :
    Inv S { w with gateway := w.gateway ++ [(t, d)] } ∧
      Guar S t k w { w with gateway := w.gateway ++ [(t, d)] } := by
  have hch : Changes S t k w { w with gateway := w.gateway ++ [(t, d)] } := by
    refine .inl fun o => OrderFacts.mk.injEq .. |>.mpr ⟨rfl, rfl, rfl, rfl, ?_, rfl, rfl⟩
    exact propext (charged_append hd o)
  exact ⟨hi.next hch hi.accounts hi.outbox rfl hi.cache, .refl, hch⟩

theorem hoare_isClaimStale :
    Hoare (orderLogic S) t k (Idle t) (isClaimStale o) (fun _ => Idle t) (fun _ _ => True) := by
  refine hoare_sql stable_idle (fun w h => h.not_aborted) (fun _ _ _ => trivial) ?_
  intro w ch r w' hi _ hidle hf
  cases hf
  change Inv S _ ∧ Guar S t k w _ ∧ Idle t _
  split
  · obtain ⟨hi', hg⟩ := hi.note (t := t) (k := k) (d := .sawStale o ch.now) nofun
    exact ⟨hi', hg, hidle⟩
  · exact ⟨hi, ⟨.refl, .inl fun _ => rfl⟩, hidle⟩

theorem hoare_charge {key : OrderId} :
    Hoare (orderLogic S) t k (fun w => Idle t w ∧ HasLedger event.orderId w) (charge event key)
      (fun result w => (∀ p, S.provider = some p → result = p key) ∧ Idle t w)
      (fun _ _ => True) := by
  refine hoare_stmt (stable_idle.and lasting_hasLedger.stable) fun w ch r w' hi hch ⟨hidle, hl⟩ hf => ?_
  cases hf
  have hchanges : Changes S t k w
      { w with gateway := w.gateway ++ [(t, .charged event.orderId key)] } := by
    refine .inr ⟨event.orderId, ?_, fun o' ho => ?_⟩
    · have hf : ({ w with gateway := w.gateway ++ [(t, .charged event.orderId key)] } : World).facts
          event.orderId = { w.facts event.orderId with charged := True } := by
        refine OrderFacts.mk.injEq .. |>.mpr ⟨rfl, rfl, rfl, rfl, ?_, rfl, rfl⟩
        exact eq_true ⟨t, key, by simp⟩
      rw [hf]
      exact .charge _ hl
    · refine OrderFacts.mk.injEq .. |>.mpr ⟨rfl, rfl, rfl, rfl, propext ?_, rfl, rfl⟩
      simp [ho]
  refine ⟨hi.next hchanges hi.accounts hi.outbox rfl hi.cache, ⟨.refl, hchanges⟩, ?_⟩
  cases ch.fail || ch.throws with
  | true => exact trivial
  | false => exact ⟨fun p hp => by rw [hch.1 p hp], hidle⟩

/-- The decision recorded is this one, or one that was there before and agrees with it. -/
theorem hoare_recordDecision (hr : ∀ p, S.provider = some p → result = p o) :
    Hoare (orderLogic S) t k (fun w => Idle t w ∧ HasLedger o w) (recordDecision o result)
      (fun _ w => Idle t w ∧ Authorized S o result w) (fun _ _ => True) := by
  refine hoare_sql (stable_idle.and lasting_hasLedger.stable) (fun w h => h.1.not_aborted)
    (fun _ _ _ => trivial) ?_
  intro w ch r w' hi _ ⟨hidle, hl⟩ hf
  obtain ⟨⟨n, db⟩, hu, he⟩ := Option.map_eq_some_iff.mp hf
  cases he
  obtain ⟨a, ha⟩ := Option.ne_none_iff_exists'.mp hl
  have hview : w.db.view t (.authorization o) = some a := (Store.view_idle hidle).trans ha
  rcases Store.update_cases hu with ⟨rfl, rfl, hn⟩ | ⟨rfl, a', hfree, hv, hp, rfl⟩
  · refine ⟨hi, ⟨.refl, .inl fun _ => rfl⟩, hidle, fun hp => ⟨a, ha, ?_⟩⟩
    obtain ⟨p, hp⟩ := Option.ne_none_iff_exists'.mp hp
    have hsome := hn a hview
    simp only [Option.isNone_eq_false_iff] at hsome
    obtain ⟨b, hb⟩ := Option.isSome_iff_exists.mp hsome
    cases hrow : (w.facts o).order with
    | none => simp [((hi.orders o).absent hrow).authorization] at ha
    | some row =>
      have hd := ((hi.orders o).present row hrow).ledger.decided p hp a ha b hb
      rw [hb, hd, hr p hp]
  · obtain rfl : a' = a := Option.some.inj (hv.symm.trans hview)
    have hnone : a'.authorized = none := Option.isNone_iff_eq_none.mp hp
    obtain ⟨hi', hg, hidle', ha'⟩ := hidle.putAuthorization (k := k) hi hfree w.gateway
      (fun _ => Iff.rfl) (.decide (w.facts o) a' result ha hnone hr) _ rfl
    exact ⟨hi', hg, hidle', fun _ => ⟨_, ha', rfl⟩⟩

/-! ### `authorize` -/

theorem hoare_chargeAndRecord :
    Hoare (orderLogic S) t k (fun w => Idle t w ∧ HasLedger event.orderId w)
      (chargeAndRecord event)
      (fun result w => Idle t w ∧ Authorized S event.orderId result w) (fun _ _ => True) := by
  refine hoare_bind (Q := fun result w => (∀ p, S.provider = some p → result = p event.orderId) ∧
    Idle t w ∧ HasLedger event.orderId w) ?_ fun result => ?_
  · exact hoare_conseq (hoare_frame lasting_hasLedger hoare_charge) (fun w h => ⟨h, h.2⟩)
      (fun _ _ h => ⟨h.1.1, h.1.2, h.2⟩) fun _ _ _ => trivial
  refine hoare_fact fun hr => ?_
  refine hoare_bind (hoare_recordMetric (stable_idle.and lasting_hasLedger.stable) _) fun _ => ?_
  exact hoare_bind (hoare_recordDecision hr) fun _ => hoare_pure fun _ h => h

/-- What `authorize` returns is what the ledger says. -/
theorem hoare_authorize :
    Hoare (orderLogic S) t k
      (fun w => Idle t w ∧ Paying event.orderId u w ∧ Called k .inventoryReserved event.orderId w)
      (authorize event)
      (fun result w => Idle t w ∧ Authorized S event.orderId result w) (fun _ _ => True) := by
  have hstable : (orderLogic S).Stable t fun w => Idle t w ∧ HasLedger event.orderId w :=
    stable_idle.and lasting_hasLedger.stable
  refine hoare_bind hoare_claim fun claimed => hoare_ite (fun _ => hoare_chargeAndRecord) fun _ => ?_
  refine hoare_bind (hoare_conseq (hoare_selectRow hstable (fun _ h => h.1) _) (fun _ h => h)
    (fun _ _ h => h) fun _ _ _ => trivial) fun existing => ?_
  cases hex : (existing : Option PaymentAuthorizationEntity).filter fun a => a.authorized.isSome with
  | some a =>
    obtain ⟨ha, hs⟩ := Option.filter_eq_some_iff.mp hex
    obtain ⟨b, hb⟩ := Option.isSome_iff_exists.mp hs
    have hdecided : a.authorized = some (toResult a).authorized := by
      cases b <;> simp [toResult, hb]
    refine hoare_pre (P := fun w => Idle t w ∧ Authorized S event.orderId (toResult a) w) ?_ ?_
    · exact fun w ⟨h, _, hv⟩ => ⟨h.1, fun _ => ⟨a, hv.symm.trans ha, hdecided⟩⟩
    · exact hoare_bind (hoare_recordMetric (stable_idle.and lasting_authorized.stable) _) fun _ =>
        hoare_pure fun _ h => h
  | none =>
    refine hoare_pre (P := fun w => Idle t w ∧ HasLedger event.orderId w) (fun _ h => h.1) ?_
    refine hoare_bind (hoare_conseq (hoare_frame lasting_hasLedger hoare_isClaimStale)
      (fun _ h => h) (fun _ _ h => h) fun _ _ _ => trivial) fun stale => ?_
    refine hoare_ite (fun _ => ?_) fun _ => ?_
    · exact hoare_bind (hoare_recordMetric hstable _) fun _ => hoare_throw fun _ _ => trivial
    · exact hoare_bind (hoare_recordMetric hstable _) fun _ => hoare_chargeAndRecord

end OrderLifecycle

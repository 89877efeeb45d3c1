import Mathlib.Data.Set.Image
import OrderLifecycle.Lifecycle.Runs

open Framework

namespace OrderLifecycle

variable {c : Catalog} {b : Bool} {moves : List Move} {s s' : Shop} {o : OrderId}
  {row : OrderEntity}

/-! ### Status -/

/-- A payment or a cancel of the order that returned successfully. -/
def Succeeds (s : Shop) (t : Tid) (o : OrderId) : Prop :=
  ∃ k u r, (k = .initiatePayment o u ∨ k = .cancelOrder o u) ∧ Returns s t k (.ok r)

/-- What one step of the system can do to the row of an order. -/
structure Edge (row row' : OrderEntity) : Prop where
  status : row'.status = row.status ∨ isTransitionAllowed row.status row'.status = true
  terminal : isTerminalStatus row.status = true → row'.status = row.status
  cancel : row.status = .reserved → row'.status = .cancelled → row.paymentInitiatedAt = none
  once : row.paymentInitiatedAt ≠ none → row'.paymentInitiatedAt = row.paymentInitiatedAt

theorem Follows.edge {S : Setting} {row' : OrderEntity} {f : OrderFacts} (h : Follows row row')
    (hp : Present S o row' f) : Edge row row' := by
  refine ⟨h.status, fun ht => h.status.resolve_right ?_, fun _ hc => ?_, h.paymentInitiatedAt⟩
  · simp [not_allowed_of_terminal ht]
  · by_contra hn
    have hpaid := h.paymentInitiatedAt hn
    exact (hp.status.paying (by rw [hpaid]; exact Option.isSome_iff_ne_none.mpr hn)).2 hc

theorem Succeeds.claim (h : Reaches c b moves s) {t : Tid} (hs : Succeeds s t o) :
    ∃ d, (t, d) ∈ (s.shared.facts o).claims := by
  obtain ⟨k, u, r, rfl | rfl, hr⟩ := hs
  · exact ⟨_, h.sound_any.result hr⟩
  · obtain ⟨seen, found, hc, -⟩ := h.sound_any.result hr
    exact ⟨.cancelClaimed o seen found, by simp [hc]⟩

/-- There is never more than one claim on an order. -/
theorem Present.one_claim {S : Setting} {f : OrderFacts} (hp : Present S o row f) {t t' : Tid}
    {d d' : Deed} (hd : (t, d) ∈ f.claims) (hd' : (t', d') ∈ f.claims) : t = t' := by
  have hone : f.claims = [] ∨ ∃ x, f.claims = [x] := by
    by_cases hc : row.status = .cancelled
    · obtain ⟨t, seen, found, hclaims, -⟩ := hp.claims.canceller hc
      exact .inr ⟨_, hclaims⟩
    · by_cases hn : row.paymentInitiatedAt = none
      · exact .inl (hp.claims.unclaimed hn hc)
      · obtain ⟨t, hclaims⟩ := hp.claims.payer (Option.isSome_iff_ne_none.mpr hn)
        exact .inr ⟨_, hclaims⟩
  rcases hone with hn | ⟨x, hx⟩
  · simp [hn] at hd
  · rw [hx] at hd hd'
    exact (congrArg Prod.fst (List.mem_singleton.mp hd)).trans
      (congrArg Prod.fst (List.mem_singleton.mp hd')).symm

theorem status_safety (h : Reaches c b moves s) :
    (∀ l s', orderSystem.next s l = some s' →
      (∀ o row, s.shared.order o = some row →
        ∃ row', s'.shared.order o = some row' ∧ Edge row row') ∧
      ∀ o row', s.shared.order o = none → s'.shared.order o = some row' →
        row'.status = .pending) ∧
    ∀ o t t', Succeeds s t o → Succeeds s t' o → t = t' := by
  refine ⟨fun l s' hn => ?_, fun o t t' hs hs' => ?_⟩
  · obtain ⟨hsound, hm⟩ := h.sound_any.next (verified_orderSystem (.any c)) (admits_any l) hn
    have hstep (o : OrderId) : s'.shared.facts o = s.shared.facts o ∨
        ∃ t k, OrderStep (.any c) t k o (s.shared.facts o) (s'.shared.facts o) := by
      rcases hm.cases with he | ⟨hd, hg⟩ | ⟨t, k, th, -, -, hg⟩
      · exact .inl (by rw [he])
      · exact .inl (facts_congr (by rw [hd]) (by rw [hd]) hg o)
      · rcases hg.changes with he | ⟨o', hstep, he⟩
        · exact .inl (he o)
        · by_cases e : o = o'
          · subst e
            exact .inr ⟨t, k, hstep⟩
          · exact .inl (he o e)
    refine ⟨fun o row ho => ?_, fun o row' hn ho => ?_⟩
    · obtain ⟨row', ho', hf⟩ : ∃ row', (s'.shared.facts o).order = some row' ∧ Follows row row' := by
        rcases hstep o with he | ⟨t, k, hs⟩
        · exact ⟨row, by rw [he]; exact ho, .refl row⟩
        · exact hs.follows ho
      exact ⟨row', ho', hf.edge ((hsound.inv.orders o).present row' ho')⟩
    · rcases hstep o with he | ⟨t, k, hs⟩
      · exact nomatch hn.symm.trans ((congrArg OrderFacts.order he).symm.trans ho)
      · exact hs.placed hn ho
  · obtain ⟨d, hd⟩ := hs.claim h
    obtain ⟨d', hd'⟩ := hs'.claim h
    cases ho : s.shared.order o with
    | none => simp [((h.orders o).absent ho).claims] at hd
    | some row => exact (h.present ho).one_claim hd hd'

/-- A payment and a cancel in turn: the cancel comes too late. -/
def payThenCancel : List Move :=
  placing ++ reserving ++ paying ++ call 3 (.cancelOrder 1 9) 2 accept

/-- Whether a thread has paid for order 1. -/
def paidBy (s : Shop) (t : Tid) : Bool :=
  match s.threads t with
  | some (.initiatePayment 1 9, .running (.ret (.ok _))) => true
  | _ => false

theorem status_safety_paid : ∃ s, Reaches oneProduct true payThenCancel s ∧ Succeeds s 2 1 ∧
    ∀ t, Succeeds s t 1 → t = 2 := by
  obtain ⟨s, hs, hobs⟩ := reaches_of_trial payThenCancel (fun s => paidBy s 2) true
    (by decide +kernel)
  have hpay : Succeeds s 2 1 := by
    simp only [paidBy] at hobs
    split at hobs
    · next r ht => exact ⟨_, 9, r, .inl rfl, ht⟩
    · cases hobs
  exact ⟨s, hs, hpay, fun t ht => (status_safety hs).2 1 t 2 ht hpay⟩

/-! ### Events -/

/-- The outbox rows of an order with a routing key. -/
def World.rowsFor (w : World) (o : OrderId) (key : RoutingKey) : Set Uuid :=
  { id | ∃ m, w.outbox id = some m ∧ m.routingKey = key ∧ m.payload.orderId = o }

/-- One row if `p` holds, and otherwise none. -/
def OneIf (p : Prop) (ids : Set Uuid) : Prop := (p → ∃ id, ids = {id}) ∧ (¬p → ids = ∅)

theorem Exactly.oneIf {S : Setting} {w : World} (hi : Inv S w) {p q : Prop} {key : RoutingKey}
    {e : OrderEvent → Prop} (h : Exactly p ((w.facts o).events key) e) (hpq : p ↔ q) :
    OneIf q (w.rowsFor o key) := by
  have hids : w.rowsFor o key = (·.id) '' (w.facts o).events key := by
    ext id
    constructor
    · rintro ⟨m, hm, hk, ho⟩
      obtain rfl := hi.outbox id m hm
      exact ⟨m, ⟨hm, hk, ho⟩, rfl⟩
    · rintro ⟨m, ⟨hm, hk, ho⟩, rfl⟩
      exact ⟨m, hm, hk, ho⟩
  rw [hids]
  constructor
  · intro hq
    obtain ⟨m, hm, -⟩ := h.1 (hpq.mpr hq)
    exact ⟨m.id, by rw [hm, Set.image_singleton]⟩
  · intro hq
    rw [h.2 fun hp => hq (hpq.mp hp), Set.image_empty]

theorem events_agree (h : Reaches c b moves s) :
    (∀ o row, s.shared.order o = some row →
      OneIf True (s.shared.rowsFor o .created) ∧
      OneIf (row.paymentInitiatedAt ≠ none) (s.shared.rowsFor o .inventoryReserved) ∧
      OneIf (row.status = .paid ∨ row.status = .completed) (s.shared.rowsFor o .paymentProcessed) ∧
      OneIf (row.status = .completed) (s.shared.rowsFor o .completed) ∧
      OneIf (row.status = .failed) (s.shared.rowsFor o .failed)) ∧
    ∀ id m, s.shared.outbox id = some m → m.payload.routingKey = m.routingKey ∧
      ∃ row, s.shared.order m.payload.orderId = some row ∧ m.payload.userId = row.userId := by
  have hi := h.sound_any.inv
  refine ⟨fun o row ho => ?_, fun id m hm => ?_⟩
  · have he := (h.present ho).events
    exact ⟨he.created.oneIf hi Iff.rfl, he.inventoryReserved.oneIf hi Option.isSome_iff_ne_none,
      he.paymentProcessed.oneIf hi Iff.rfl, he.completed.oneIf hi Iff.rfl,
      he.failed.oneIf hi Iff.rfl⟩
  · obtain rfl := hi.outbox id m hm
    obtain ⟨row, ho, hp, hmem⟩ := Published.order hm hi
    refine ⟨hp.events.key ((World.mem_events m).mp hm), row, ho, ?_⟩
    exact hp.events.owner hmem

theorem events_agree_paid : ∃ s, Reaches oneProduct true (checkout accept) s ∧
    ∃ id, s.shared.rowsFor 1 .paymentProcessed = {id} := by
  obtain ⟨s, hs, hobs⟩ := reaches_of_trial (checkout accept)
    (fun s => (s.shared.order 1).map (·.status)) (some .paid) (by decide +kernel)
  obtain ⟨row, ho, hst⟩ := Option.map_eq_some_iff.mp hobs
  exact ⟨s, hs, ((events_agree hs).1 1 row ho).2.2.1.1 (.inl hst)⟩

end OrderLifecycle

import OrderLifecycle.Lifecycle.OrderInvariant

open Framework

namespace OrderLifecycle

/-- How the row of one order may change: along one edge of the state machine, or not at all,
and the moment payment was initiated is set once. -/
structure Follows (row row' : OrderEntity) : Prop where
  id : row'.id = row.id
  userId : row'.userId = row.userId
  items : row'.items = row.items
  status : row'.status = row.status ∨ isTransitionAllowed row.status row'.status = true
  paymentInitiatedAt : row.paymentInitiatedAt ≠ none →
    row'.paymentInitiatedAt = row.paymentInitiatedAt

theorem Follows.refl (row : OrderEntity) : Follows row row :=
  ⟨rfl, rfl, rfl, .inl rfl, fun _ => rfl⟩

theorem Follows.move (row : OrderEntity) {s : OrderStatus} (n : Nat)
    (h : isTransitionAllowed row.status s = true) : Follows row (row.move s n) :=
  ⟨rfl, rfl, rfl, .inr h, fun _ => rfl⟩

/-- What no step ever takes back. -/
structure Evolves (f f' : OrderFacts) : Prop where
  order : ∀ row, f.order = some row → ∃ row', f'.order = some row' ∧ Follows row row'
  events : ∀ k, f.events k ⊆ f'.events k
  authorization : ∀ a, f.authorization = some a → ∃ a', f'.authorization = some a' ∧
    (a.authorized ≠ none → a' = a)
  charged : f.charged → f'.charged
  claims : f.claims <+: f'.claims

variable {S : Setting} {t : Tid} {k : Request} {o : OrderId} {f f' : OrderFacts}

theorem Evolves.refl (f : OrderFacts) : Evolves f f :=
  ⟨fun row h => ⟨row, h, .refl row⟩, fun _ => subset_rfl, fun a h => ⟨a, h, fun _ => rfl⟩, id,
    List.prefix_rfl⟩

theorem OrderFacts.events_subset_addEvent (f : OrderFacts) (m : OutboxMessageEntity)
    (k : RoutingKey) : f.events k ⊆ (f.addEvent m).events k := by
  by_cases h : m.routingKey = k
  · rw [f.addEvent_same m h]
    exact Set.subset_insert ..
  · rw [f.addEvent_other m h]

theorem OrderStep.follows (hs : OrderStep S t k o f f') {row : OrderEntity}
    (h : f.order = some row) : ∃ row', f'.order = some row' ∧ Follows row row' := by
  have same {row' : OrderEntity} (h' : f.order = some row') : row' = row :=
    Option.some.inj (h'.symm.trans h)
  cases hs with
  | place row' m r absent => simp [absent] at h
  | reserve row' n order status =>
    obtain rfl := same order
    exact ⟨_, rfl, .move _ n (by rw [status]; rfl)⟩
  | reject row' n m reason order status =>
    obtain rfl := same order
    exact ⟨_, rfl, .move _ n (by rw [status]; rfl)⟩
  | pay row' n m u order status unpaid =>
    obtain rfl := same order
    exact ⟨_, rfl, rfl, rfl, rfl, .inl rfl, fun h => absurd unpaid h⟩
  | cancel row' n seen u order status =>
    obtain rfl := same order
    refine ⟨_, rfl, .move _ n ?_⟩
    rcases status with hs | hs
    · rw [hs]; rfl
    · rw [hs.1]; rfl
  | restore => exact ⟨row, h, .refl row⟩
  | claimLedger => exact ⟨row, h, .refl row⟩
  | charge => exact ⟨row, h, .refl row⟩
  | decide => exact ⟨row, h, .refl row⟩
  | capture row' n m order status =>
    obtain rfl := same order
    exact ⟨_, rfl, .move _ n (by rw [status]; rfl)⟩
  | decline row' n m reason order status =>
    obtain rfl := same order
    exact ⟨_, rfl, .move _ n (by rw [status]; rfl)⟩
  | complete row' n m order status =>
    obtain rfl := same order
    exact ⟨_, rfl, .move _ n (by rw [status]; rfl)⟩

theorem OrderStep.events_mono (hs : OrderStep S t k o f f') (key : RoutingKey) :
    f.events key ⊆ f'.events key := by
  cases hs with
  | place row m => exact (f.setOrder row).events_subset_addEvent m key
  | reject row n m => exact (f.setOrder _).events_subset_addEvent m key
  | pay row n m => exact (f.setOrder _).events_subset_addEvent m key
  | capture row n m => exact (f.setOrder _).events_subset_addEvent m key
  | decline row n m => exact (f.setOrder _).events_subset_addEvent m key
  | complete row n m => exact (f.setOrder _).events_subset_addEvent m key
  | _ => exact subset_rfl

theorem OrderStep.authorization_mono (hs : OrderStep S t k o f f')
    {a : PaymentAuthorizationEntity} (h : f.authorization = some a) :
    ∃ a', f'.authorization = some a' ∧ (a.authorized ≠ none → a' = a) := by
  cases hs with
  | claimLedger row a' order paying free => simp [free] at h
  | decide a' result ledger undecided answer =>
    obtain rfl := Option.some.inj (h.symm.trans ledger)
    exact ⟨_, rfl, fun hn => absurd undecided hn⟩
  | _ => exact ⟨a, h, fun _ => rfl⟩

theorem OrderStep.claims_mono (hs : OrderStep S t k o f f') : f.claims <+: f'.claims := by
  cases hs with
  | pay => exact List.prefix_append ..
  | cancel => exact List.prefix_append ..
  | _ => exact List.prefix_rfl

/-- The request a claim belongs to. -/
def Deed.MadeBy (k : Request) : Deed → Prop
  | .paymentClaimed o => ∃ u, k = .initiatePayment o u
  | .cancelClaimed o _ _ => ∃ u, k = .cancelOrder o u
  | _ => True

/-- New claims are the step's own. -/
theorem OrderStep.claims_by (hs : OrderStep S t k o f f') {d : Tid × Deed} (hd : d ∈ f'.claims) :
    d ∈ f.claims ∨ d.1 = t ∧ d.2.MadeBy k := by
  cases hs with
  | pay row n m u order status unpaid call =>
    rcases List.mem_append.mp hd with hd | hd
    · exact .inl hd
    · rw [List.mem_singleton.mp hd]
      exact .inr ⟨rfl, u, call⟩
  | cancel row n seen u order status seen_le call =>
    rcases List.mem_append.mp hd with hd | hd
    · exact .inl hd
    · rw [List.mem_singleton.mp hd]
      exact .inr ⟨rfl, u, call⟩
  | _ => exact .inl hd

/-- An order starts as `PENDING`. -/
theorem OrderStep.placed (hs : OrderStep S t k o f f') (h : f.order = none) {row : OrderEntity}
    (h' : f'.order = some row) : row.status = .pending := by
  cases hs with
  | place row' m r absent id status =>
    obtain rfl := Option.some.inj h'
    exact status
  | restore => exact nomatch h.symm.trans h'
  | claimLedger => exact nomatch h.symm.trans h'
  | charge => exact nomatch h.symm.trans h'
  | decide => exact nomatch h.symm.trans h'
  | reserve row' n order => exact nomatch h.symm.trans order
  | reject row' n m reason order => exact nomatch h.symm.trans order
  | pay row' n m u order => exact nomatch h.symm.trans order
  | cancel row' n seen u order => exact nomatch h.symm.trans order
  | capture row' n m order => exact nomatch h.symm.trans order
  | decline row' n m reason order => exact nomatch h.symm.trans order
  | complete row' n m order => exact nomatch h.symm.trans order

theorem OrderStep.evolves (hs : OrderStep S t k o f f') : Evolves f f' := by
  refine ⟨fun _ h => hs.follows h, hs.events_mono, fun _ h => hs.authorization_mono h, ?_,
    hs.claims_mono⟩
  cases hs with
  | charge => exact fun _ => trivial
  | _ => exact id

/-- Only the call that cancelled an order moves stock for it from then on. -/
theorem OrderStep.net_of_cancelled (hs : OrderStep S t k o f f') {row : OrderEntity}
    (hp : Present S o row f) (ho : f.order = some row) {t' : Tid} {seen found : OrderStatus}
    (hc : f.claims = [(t', .cancelClaimed o seen found)]) (ht : t ≠ t') : f'.net = f.net := by
  have hst := hp.cancelled_of_claim hc
  cases hs with
  | reserve row' n order status =>
    obtain rfl := Option.some.inj (order.symm.trans ho)
    simp [hst] at status
  | restore line claim =>
    rw [hc] at claim
    simp only [List.cons.injEq, Prod.mk.injEq] at claim
    exact absurd claim.1.1.symm ht
  | _ => rfl

/-- Once the order is cancelled, no further claim is made on it. -/
theorem OrderStep.claims_of_cancelled (hs : OrderStep S t k o f f') {row : OrderEntity}
    (ho : f.order = some row) (hst : row.status = .cancelled) : f'.claims = f.claims := by
  have same {row' : OrderEntity} (h' : f.order = some row') : row' = row :=
    Option.some.inj (h'.symm.trans ho)
  cases hs with
  | pay row' n m u order status =>
    obtain rfl := same order
    simp [hst] at status
  | cancel row' n seen u order status =>
    obtain rfl := same order
    simp [hst] at status
  | _ => rfl

end OrderLifecycle

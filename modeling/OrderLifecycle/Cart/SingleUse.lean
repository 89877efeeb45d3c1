import OrderLifecycle.Cart.Verification

open Framework

namespace OrderLifecycle.Cart

variable {s s' : CartWorld} {t : Tid} {k : CartCall} {catalog : Catalog} {cacheEnabled faults : Bool}
  {ls : List CartLabel} {c c' : CartConfig}

/-- The order comes from the cart: one call claimed the cart and placed the order. -/
def CartWorld.GaveRise (s : CartWorld) (cartId : Uuid) (o : OrderId) : Prop :=
  ∃ t items, (t, .claimed cartId items) ∈ s.deeds ∧ (t, .placed o) ∈ s.deeds

/-- What a call was after it claimed a cart. -/
structure ClaimStory (s : CartWorld) (t : Tid) (cartId : Uuid) (items : List CartItemEntity)
    (seen : List CartItemEntity) (l rest : List CartDeed) : Prop where
  own : s.own t = l ++ .saw cartId seen :: .claimed cartId items :: rest
  browses : ∀ d ∈ l, d.Browses
  nonempty : seen ≠ []
  nodup : (seen.map (·.productId)).Nodup
  rest : rest = [] ∨ ∃ order, rest = [.placed order.id] ∧ s.world.order order.id = some order ∧
    HasLines order seen

theorem CartInv.claimStory (hi : CartInv s) {cartId : Uuid} {items : List CartItemEntity}
    (h : (t, .claimed cartId items) ∈ s.deeds) :
    ∃ seen l rest, ClaimStory s t cartId items seen l rest := by
  have hmem := mem_own.mpr h
  have hstory := hi.story t
  generalize hown : s.own t = own at hmem hstory
  cases hstory with
  | browsing hl => exact (hl _ hmem).elim
  | claimed hl hne hnd =>
    rcases List.mem_append.mp hmem with hm | hm
    · exact (hl _ hm).elim
    · simp only [List.mem_cons, reduceCtorEq, CartDeed.claimed.injEq, List.not_mem_nil, or_false,
        false_or] at hm
      obtain ⟨rfl, rfl⟩ := hm
      exact ⟨_, _, [], hown, hl, hne, hnd, .inl rfl⟩
  | placed hl hne hnd ho hlines =>
    rcases List.mem_append.mp hmem with hm | hm
    · exact (hl _ hm).elim
    · simp only [List.mem_cons, reduceCtorEq, CartDeed.claimed.injEq, List.not_mem_nil, or_false,
        false_or] at hm
      obtain ⟨rfl, rfl⟩ := hm
      exact ⟨_, _, _, hown, hl, hne, hnd, .inr ⟨_, rfl, ho, hlines⟩⟩

/-- Who placed an order had claimed a cart. -/
theorem CartInv.placedStory (hi : CartInv s) {o : OrderId} (h : (t, .placed o) ∈ s.deeds) :
    ∃ cartId items seen l order, ClaimStory s t cartId items seen l [.placed o] ∧
      order.id = o ∧ s.world.order o = some order ∧ HasLines order seen := by
  have hmem := mem_own.mpr h
  have hstory := hi.story t
  generalize hown : s.own t = own at hmem hstory
  cases hstory with
  | browsing hl => exact (hl _ hmem).elim
  | claimed hl hne hnd =>
    rcases List.mem_append.mp hmem with hm | hm
    · exact (hl _ hm).elim
    · simp at hm
  | placed hl hne hnd ho hlines =>
    rcases List.mem_append.mp hmem with hm | hm
    · exact (hl _ hm).elim
    · simp only [List.mem_cons, reduceCtorEq, CartDeed.placed.injEq, List.not_mem_nil, or_false,
        false_or] at hm
      subst hm
      exact ⟨_, _, _, _, _, ⟨hown, hl, hne, hnd, .inr ⟨_, rfl, ho, hlines⟩⟩, rfl, ho, hlines⟩

/-- A call has placed at most one order. -/
theorem CartInv.placed_unique (hi : CartInv s) {o o' : OrderId} (h : (t, .placed o) ∈ s.deeds)
    (h' : (t, .placed o') ∈ s.deeds) : o = o' := by
  obtain ⟨cartId, items, seen, l, -, hs, -⟩ := hi.placedStory h
  have hmem := mem_own.mpr h'
  rw [hs.own] at hmem
  rcases List.mem_append.mp hmem with hm | hm
  · exact (hs.browses _ hm).elim
  · simpa [eq_comm] using hm

theorem HasLines.products {order : OrderEntity} {items : List CartItemEntity}
    (h : HasLines order items) : order.items.map (·.productId) = items.map (·.productId) := by
  have hfst := congrArg (List.map Prod.fst) h
  rwa [List.map_map, List.map_map] at hfst

/-! ### Which call does what -/

/-- Every deed is of a call that may do it. -/
def Attributed (c : CartConfig) : Prop :=
  ∀ t d, (t, d) ∈ c.shared.deeds → ∃ k th, c.threads t = some (k, th) ∧ d.AllowedBy k c.shared

theorem CartDeed.AllowedBy.mono {d : CartDeed} {k' : CartCall} (h : d.AllowedBy k' s)
    (hm : Moves t k s s') : d.AllowedBy k' s' := by
  cases d with
  | saw => trivial
  | wrote => trivial
  | claimed cartId items =>
    obtain ⟨userId, hk, ho⟩ := h
    exact ⟨userId, hk, hm.owner ho⟩
  | placed o =>
    obtain ⟨row, hk, ho⟩ := h
    exact ⟨row, hk, hm.orders o row ho⟩

theorem attributed (h : CartRun faults catalog cacheEnabled ls c) : Attributed c := by
  have hinit : CartSound true (.init (.initial catalog cacheEnabled)) :=
    .init (inv_initial catalog cacheEnabled) fun _ => ⟨rfl, rfl⟩
  apply cart_run_induct hinit h.run (fun _ _ hd => nomatch hd)
  intro d d' l _ _ hn hmoves hd t x hx
  have hthread {k : CartCall} {th : Thread CartWorld Choice (Except AppError CartReply)}
      (ht : d.threads t = some (k, th)) := cartSystem.next_call hn ht
  rcases hmoves with he | ⟨t', k', th', ht', hm⟩
  · rw [he] at hx
    obtain ⟨k, th, ht, ha⟩ := hd t x hx
    obtain ⟨th₁, ht₁⟩ := hthread ht
    exact ⟨k, th₁, ht₁, he ▸ ha⟩
  · obtain ⟨ds, hds, hallowed⟩ := hm.deeds
    rw [hds] at hx
    rcases List.mem_append.mp hx with hx | hx
    · obtain ⟨k, th, ht, ha⟩ := hd t x hx
      obtain ⟨th₁, ht₁⟩ := hthread ht
      exact ⟨k, th₁, ht₁, ha.mono hm⟩
    · obtain ⟨x', hx', he⟩ := List.mem_map.mp hx
      cases he
      obtain ⟨th₁, ht₁⟩ := hthread ht'
      exact ⟨k', th₁, ht₁, hallowed x hx'⟩

/-- What was checked out stays so. -/
theorem checkedOut_kept (h : CartSound true c) (hr : cartSystem.run c ls = some c')
    {cart : CartEntity} (hc : cart ∈ c.shared.carts) (hne : cart.checkedOutAt ≠ none) :
    cart ∈ c'.shared.carts := by
  apply cart_run_induct (P := fun d => cart ∈ d.shared.carts) h hr hc
  intro d d' l _ _ _ hmoves hd
  rcases hmoves with he | ⟨t, k, th, -, hm⟩
  · rwa [he]
  · obtain ⟨cart', hc', -, -, hkeep⟩ := hm.carts cart hd
    rwa [hkeep hne] at hc'

/-- One open cart for each user; a cart is checked out for good, by one call; an order comes from
the call that had claimed a cart of its owner, with at least one line and no product twice; a
cart gives rise to at most one order. -/
theorem carts_single_use (h : CartRun faults catalog cacheEnabled ls c) :
    (∀ a ∈ c.shared.carts, ∀ b ∈ c.shared.carts, a.userId = b.userId → a.checkedOutAt = none →
      b.checkedOutAt = none → a = b) ∧
    (∀ ls' c', cartSystem.run c ls' = some c' → ∀ cart ∈ c.shared.carts,
      cart.checkedOutAt ≠ none → cart ∈ c'.shared.carts ∧
        ∀ cart' ∈ c'.shared.carts, cart'.id = cart.id → cart' = cart) ∧
    (∀ cart ∈ c.shared.carts, cart.checkedOutAt ≠ none ↔
      ∃ t items, (t, .claimed cart.id items) ∈ c.shared.deeds) ∧
    (∀ t t' cartId items items', (t, .claimed cartId items) ∈ c.shared.deeds →
      (t', .claimed cartId items') ∈ c.shared.deeds → t = t') ∧
    (∀ o order, c.shared.world.order o = some order → ∃ t th cart l seen items,
      c.threads t = some (.checkout order.userId, th) ∧
      c.shared.own t = l ++ [.saw cart.id seen, .claimed cart.id items, .placed o] ∧
      cart ∈ c.shared.carts ∧ cart.userId = order.userId ∧ cart.checkedOutAt ≠ none ∧
      order.items ≠ [] ∧ (order.items.map (·.productId)).Nodup) ∧
    ∀ cartId o o', c.shared.GaveRise cartId o → c.shared.GaveRise cartId o' → o = o' := by
  have hs := h.any.sound
  have hi : CartInv c.shared := hs.inv
  refine ⟨hi.oneOpen, ?_, ?_, hi.claimOnce, ?_, ?_⟩
  · intro ls' c' hr cart hc hne
    have hkept := checkedOut_kept hs hr hc hne
    refine ⟨hkept, fun cart' hc' hid => ?_⟩
    have hs' : CartSound true c' := cart_run_induct (P := CartSound true) hs hr hs
      fun _ _ _ _ hd' _ _ _ => hd'
    exact List.inj_on_of_nodup_map hs'.inv.ids hc' hkept hid
  · intro cart hc
    refine ⟨hi.claimant cart hc, ?_⟩
    rintro ⟨t, items, hm⟩
    obtain ⟨cart', hc', hid, hne⟩ := hi.claimed t cart.id items hm
    rwa [List.inj_on_of_nodup_map hi.ids hc' hc hid] at hne
  · intro o order ho
    obtain ⟨t, hp⟩ := hi.orders o (by simp [ho])
    obtain ⟨cartId, items, seen, l, row, hst, rfl, hrow, hlines⟩ := hi.placedStory hp
    cases hrow.symm.trans ho
    have hclaim : (t, .claimed cartId items) ∈ c.shared.deeds := by
      apply mem_own.mp
      rw [hst.own]
      simp
    obtain ⟨k, th, ht, ⟨row', hk, hrow'⟩⟩ := attributed h t _ hp
    cases hrow'.symm.trans hrow
    obtain ⟨k', th', ht', ⟨userId, hk', cart, hc, hid, hu⟩⟩ := attributed h t _ hclaim
    cases ht.symm.trans ht'
    cases hk.symm.trans hk'
    obtain ⟨cart', hc', hid', hne⟩ := hi.claimed t cartId items hclaim
    have he : cart' = cart := List.inj_on_of_nodup_map hi.ids hc' hc (hid'.trans hid.symm)
    subst he hid
    refine ⟨t, th, cart', l, seen, items, hk ▸ ht, hst.own, hc, hu, hne, ?_, ?_⟩
    · intro hnil
      apply hst.nonempty
      have hp := hlines.products
      rw [hnil] at hp
      exact List.map_eq_nil_iff.mp hp.symm
    · rw [hlines.products]
      exact hst.nodup
  · rintro cartId o o' ⟨t, items, hc, hp⟩ ⟨t', items', hc', hp'⟩
    cases hi.claimOnce t t' cartId items items' hc hc'
    exact hi.placed_unique hp hp'

/-! ### A double click -/

def shopCatalog : Catalog where
  products := [(1, ⟨"Widget", 20, true⟩), (2, ⟨"Gadget", 20, true⟩)]
  nodup := by decide
  stock_nonneg := by decide

/-- Calls 0 and 1 race for the first cart of user 7; then two checkouts race for it. -/
def doubleClick : List CartLabel :=
  [.start 0 (.setItem 7 1 2), .start 1 (.setItem 7 2 3), .step 0 {}, .step 1 {},
    .step 0 { fresh := 10 }, .step 1 { fresh := 11 }] ++ List.replicate 3 (.step 0 {}) ++
  List.replicate 4 (.step 1 {}) ++ [.start 2 (.checkout 7), .start 3 (.checkout 7), .step 2 {},
    .step 3 {}, .step 3 {}, .step 2 {}] ++ List.replicate 7 (.step 3 { fresh := 40 })

theorem carts_single_use_double_click : ∃ c, CartRun true shopCatalog true doubleClick c ∧
    ∃ order, c.shared.world.order 40 = some order ∧ order.items ≠ [] ∧
      (order.items.map (·.productId)).Nodup := by
  have hout : (cartSystem.run (.init (.initial shopCatalog true)) doubleClick).map
      (fun c => (c.shared.world.order 40).isSome) = some true := by decide +kernel
  obtain ⟨c, hc, hsome⟩ := Option.map_eq_some_iff.mp hout
  obtain ⟨order, ho⟩ := Option.isSome_iff_exists.mp hsome
  have h : CartRun true shopCatalog true doubleClick c := ⟨hc, fun he => nomatch he⟩
  obtain ⟨-, -, -, -, horders, -⟩ := carts_single_use h
  obtain ⟨-, -, -, -, -, -, -, -, -, -, -, hne, hnd⟩ := horders 40 order ho
  exact ⟨c, h, order, ho, hne, hnd⟩

end OrderLifecycle.Cart

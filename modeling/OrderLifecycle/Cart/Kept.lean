import OrderLifecycle.Cart.SingleUse

open Framework

namespace OrderLifecycle.Cart

variable {s s' : CartWorld} {t : Tid} {k : CartCall} {catalog : Catalog} {cacheEnabled faults : Bool}
  {ls ls' : List CartLabel} {c c' : CartConfig}

/-! ### What it takes for cart operations not to be lost -/

/-- No call changes a line of a cart that a checkout has read and goes on to claim. -/
def Untouched (deeds : List (Tid × CartDeed)) : Prop :=
  ∀ l t cartId seen r items, deeds = l ++ (t, .saw cartId seen) :: r →
    (t, .claimed cartId items) ∈ r → Undisturbed cartId r

/-- `Undisturbed`, by computation. -/
def undisturbed (cartId : Uuid) (deeds : List (Tid × CartDeed)) : Bool :=
  deeds.all fun d =>
    match d.2 with
    | .wrote c _ found quantity => c != cartId || found == quantity
    | _ => true

def claims (t : Tid) (cartId : Uuid) (d : Tid × CartDeed) : Bool :=
  match d with
  | (t', .claimed c _) => t' == t && c == cartId
  | _ => false

/-- `Untouched`, by computation. -/
def untouched : List (Tid × CartDeed) → Bool
  | [] => true
  | (t, .saw cartId _) :: r => (!r.any (claims t cartId) || undisturbed cartId r) && untouched r
  | _ :: r => untouched r

theorem undisturbed_iff {cartId : Uuid} {deeds : List (Tid × CartDeed)} :
    undisturbed cartId deeds = true ↔ Undisturbed cartId deeds := by
  simp only [undisturbed, List.all_eq_true]
  constructor
  · intro h t p found quantity hm
    simpa using h _ hm
  · rintro h ⟨t, d⟩ hm
    cases d with
    | wrote c p found quantity =>
      by_cases e : c = cartId
      · subst e
        simpa using h t p found quantity hm
      · simp [e]
    | _ => rfl

theorem untouched_sound {deeds : List (Tid × CartDeed)} (h : untouched deeds = true) :
    Untouched deeds := by
  induction deeds with
  | nil =>
    intro l t cartId seen r items he
    simp at he
  | cons d ds ih =>
    have hrest : untouched ds = true := by
      unfold untouched at h
      split at h
      · next he => cases he
      · next he =>
        cases he
        exact (Bool.and_eq_true _ _ ▸ h : _ ∧ _).2
      · next he =>
        cases he
        exact h
    intro l t cartId seen r items he hm
    cases l with
    | nil =>
      obtain ⟨rfl, rfl⟩ := List.cons.inj he
      simp only [untouched, Bool.and_eq_true, Bool.or_eq_true, Bool.not_eq_true'] at h
      rcases h.1 with hn | hq
      · have hc := List.any_eq_false.mp hn _ hm
        simp [claims] at hc
      · exact undisturbed_iff.mp hq
    | cons x l =>
      obtain ⟨rfl, htail⟩ := List.cons.inj he
      exact ih hrest l t cartId seen r items htail hm

/-- The quantity of a product in an order. -/
def orderLine (order : OrderEntity) (productId : ProductId) : Option Nat :=
  (order.items.find? fun item => item.productId == productId).map (·.quantity)

/-- The line as it was last set is in an open cart of the user, or in the order made from the
cart, or the checkout that claimed the cart has not ended yet. -/
def Present (c : CartConfig) (userId : UserId) (cartId : Uuid) (productId : ProductId) : Prop :=
  ∃ quantity, lastWrite cartId productId c.shared.deeds = some quantity ∧
    ((∃ cart ∈ c.shared.carts, cart.id = cartId ∧ cart.userId = userId ∧ cart.checkedOutAt = none ∧
        lineOf (c.shared.cartItems cartId) productId = quantity) ∨
      ∃ t items, (t, .claimed cartId items) ∈ c.shared.deeds ∧
        ((∃ order, (t, .placed order.id) ∈ c.shared.deeds ∧
            c.shared.world.order order.id = some order ∧ orderLine order productId = quantity) ∨
          ∃ k th, c.threads t = some (k, th) ∧ th.Active))

/-- The call sets this line of its user's cart. -/
def CartCall.Sets (userId : UserId) (productId : ProductId) (quantity : Option Nat) (k : CartCall) :
    Prop :=
  (∃ n, quantity = some n ∧ k = .setItem userId productId n) ∨
    (quantity = none ∧ k = .removeItem userId productId)

/-- Cart operations are not lost in this run, which ends in `c`. -/
structure CartsKept (catalog : Catalog) (cacheEnabled : Bool) (ls : List CartLabel) (c : CartConfig) :
    Prop where
  ordered : ∀ t cartId items o, (t, .claimed cartId items) ∈ c.shared.deeds →
    (t, .placed o) ∈ c.shared.deeds →
    ∃ order, c.shared.world.order o = some order ∧ HasLines order items
  frozen : ∀ ls₁ ls₂ d cartId, ls = ls₁ ++ ls₂ →
    cartSystem.run (.init (.initial catalog cacheEnabled)) ls₁ = some d →
    d.shared.CheckedOut cartId → c.shared.cartItems cartId = d.shared.cartItems cartId
  effects : ∀ t k reply userId productId quantity,
    c.threads t = some (k, .running (.ret (.ok reply))) → k.Sets userId productId quantity →
    ∃ cartId found, (t, .wrote cartId productId found quantity) ∈ c.shared.deeds ∧
      Present c userId cartId productId

/-! ### Lines of orders -/

theorem orderLine_eq {order : OrderEntity} {items : List CartItemEntity} (h : HasLines order items)
    (p : ProductId) : orderLine order p = lineOf items p := by
  have hpairs (xs : List (ProductId × Nat)) {α : Type} (l : List α) (f : α → ProductId × Nat)
      (hx : l.map f = xs) : (l.find? fun a => (f a).1 == p).map (fun a => (f a).2) =
        (xs.find? fun x => x.1 == p).map (·.2) := by
    rw [← hx, List.find?_map, Option.map_map]
    rfl
  have ho := hpairs _ order.items (fun item => (item.productId, item.quantity)) h
  have hi := hpairs _ items (fun item => (item.productId, item.quantity)) rfl
  exact ho.trans hi.symm

/-! ### From what a call did to where it stands in the history -/

theorem own_split {x : CartDeed} {deeds : List (Tid × CartDeed)} {l m : List CartDeed}
    (h : (deeds.filter fun d => d.1 == t).map Prod.snd = l ++ x :: m) :
    ∃ before after, deeds = before ++ (t, x) :: after ∧
      (after.filter fun d => d.1 == t).map Prod.snd = m := by
  obtain ⟨l', m', hf, -, hm'⟩ := List.map_eq_append_iff.mp h
  obtain ⟨⟨t', x'⟩, m'', rfl, hx, hm''⟩ := List.map_eq_cons_iff.mp hm'
  obtain ⟨before, rest, rfl, -, hrest⟩ := List.filter_eq_append_iff.mp hf
  obtain ⟨skipped, after, rfl, -, hp, hafter⟩ := List.filter_eq_cons_iff.mp hrest
  have ht : t' = t := by simpa using hp
  obtain rfl : x' = x := hx
  subst ht
  exact ⟨before ++ skipped, after, by simp, hafter ▸ hm''⟩

/-- In an untouched history the rows of a checked-out cart are those that the checkout read and
those that it claimed. -/
theorem CartInv.settled (hi : CartInv s) (hu : Untouched s.deeds) {cartId : Uuid}
    {items seen : List CartItemEntity} {l rest : List CartDeed}
    (hs : ClaimStory s t cartId items seen l rest) :
    s.cartItems cartId = seen ∧ s.cartItems cartId = items := by
  obtain ⟨before, after, he, hown⟩ := own_split hs.own
  obtain ⟨before', after', he', -⟩ := own_split (l := []) hown
  have hclaim : (t, .claimed cartId items) ∈ after := by
    rw [he']
    simp
  have hquiet : Undisturbed cartId after := hu before t cartId seen after items he hclaim
  have hquiet' : Undisturbed cartId after' := fun t p found quantity hm =>
    hquiet t p found quantity (by rw [he']; simp [hm])
  refine ⟨hi.recorded.kept before t _ after cartId seen he (.inl rfl) hquiet, ?_⟩
  refine hi.recorded.kept (before ++ (t, .saw cartId seen) :: before') t _ after' cartId items ?_
    (.inr rfl) hquiet'
  rw [he, he']
  simp

theorem deeds_grow (h : CartSound true c) (hr : cartSystem.run c ls = some c') :
    ∃ deeds, c'.shared.deeds = c.shared.deeds ++ deeds := by
  apply cart_run_induct (P := fun d => ∃ deeds, d.shared.deeds = c.shared.deeds ++ deeds) h hr
    ⟨[], by simp⟩
  rintro d d' l - - - hmoves ⟨deeds, hd⟩
  rcases hmoves with he | ⟨t, k, th, -, hm⟩
  · exact ⟨deeds, by rw [he, hd]⟩
  · obtain ⟨ds, hds, -⟩ := hm.deeds
    exact ⟨deeds ++ ds.map (Prod.mk t), by rw [hds, hd, List.append_assoc]⟩

theorem Untouched.of_append {deeds deeds' : List (Tid × CartDeed)} (h : Untouched (deeds ++ deeds')) :
    Untouched deeds := by
  intro l t cartId seen r items he hm
  have hall : Undisturbed cartId (r ++ deeds') := by
    apply h l t cartId seen (r ++ deeds') items
    · rw [he]
      simp
    · exact List.mem_append_left _ hm
  exact hall.of_append

/-- No thread of a faultless run has died. -/
theorem not_crashed (h : CartRun false catalog cacheEnabled ls c) (t : Tid) (k : CartCall) :
    c.threads t ≠ some (k, .crashed) := by
  refine cartSystem.run_induct (P := fun c => ∀ t k, c.threads t ≠ some (k, .crashed))
    (A := fun l => ∀ t, l ≠ .crash t) ?_ ?_ h.run (fun t k he => nomatch he) t k
  · intro c c' l hl hn hc t k he
    rcases cartSystem.next_crashed hn he with he | he
    · exact hc t k he
    · exact hl t he
  · intro l hl t he
    subst he
    exact nomatch h.healthy rfl _ hl

theorem lastWrite_of_mem {deeds : List (Tid × CartDeed)} {cartId : Uuid} {p : ProductId}
    {found quantity : Option Nat} (h : (t, .wrote cartId p found quantity) ∈ deeds) :
    ∃ q, lastWrite cartId p deeds = some q := by
  apply Option.ne_none_iff_exists'.mp
  intro hn
  have hall := List.findSome?_eq_none_iff.mp hn _ (List.mem_reverse.mpr h)
  simp [CartDeed.writes] at hall

/-- The order of a claimed cart, or the call that is still at it. -/
theorem claimed_outcome (h : CartRun false catalog cacheEnabled ls c)
    (hu : Untouched c.shared.deeds) {cartId : Uuid} {items : List CartItemEntity}
    (hclaim : (t, .claimed cartId items) ∈ c.shared.deeds) (p : ProductId) :
    (∃ order, (t, .placed order.id) ∈ c.shared.deeds ∧
      c.shared.world.order order.id = some order ∧
      orderLine order p = lineOf (c.shared.cartItems cartId) p) ∨
    ∃ k th, c.threads t = some (k, th) ∧ th.Active := by
  have hs := h.sound
  have hi : CartInv c.shared := hs.inv
  obtain ⟨seen, l, rest, hst⟩ := hi.claimStory hclaim
  obtain ⟨hseen, -⟩ := hi.settled hu hst
  rcases hst.rest with rfl | ⟨order, rfl, ho, hlines⟩
  · right
    obtain ⟨k, th, ht, ⟨userId, rfl, -⟩⟩ := attributed h t _ hclaim
    refine ⟨_, th, ht, ?_⟩
    cases th with
    | crashed => exact absurd ht (not_crashed h t _)
    | running p =>
      cases p with
      | act β f g => trivial
      | ret r =>
        have hpost := hs.result ht
        cases r with
        | error e =>
          rcases hpost with hb | hf
          · exact (hb.own _ (mem_own.mpr hclaim)).elim
          · exact nomatch hf
        | ok reply =>
          cases reply with
          | cart cart => exact hpost.elim
          | order order =>
            obtain ⟨-, l', cartId', seen', items', -, hown⟩ := hpost
            have hplaced : (.placed order.id : CartDeed) ∈ c.shared.own t := by simp [hown]
            rw [hst.own] at hplaced
            rcases List.mem_append.mp hplaced with hm | hm
            · exact (hst.browses _ hm).elim
            · simp at hm
  · left
    refine ⟨order, ?_, ho, ?_⟩
    · apply mem_own.mp
      rw [hst.own]
      simp
    · rw [orderLine_eq hlines, hseen]

/-- When no call changes a line of a cart that a checkout has read and goes on to claim, no cart
operation is lost. -/
theorem carts_kept (h : CartRun false catalog cacheEnabled ls c) (hu : Untouched c.shared.deeds) :
    CartsKept catalog cacheEnabled ls c := by
  have hs := h.sound
  have hi : CartInv c.shared := hs.inv
  constructor
  · intro t cartId items o hclaim hplaced
    obtain ⟨seen, l, rest, hst⟩ := hi.claimStory hclaim
    obtain ⟨hseen, hitems⟩ := hi.settled hu hst
    have hplaced' := mem_own.mpr hplaced
    rw [hst.own] at hplaced'
    rcases List.mem_append.mp hplaced' with hm | hm
    · exact (hst.browses _ hm).elim
    · rcases hst.rest with rfl | ⟨order, rfl, ho, hlines⟩
      · simp at hm
      · have hid : o = order.id := by simpa using hm
        subst hid
        exact ⟨order, ho, hitems ▸ hseen ▸ hlines⟩
  · intro ls₁ ls₂ d cartId he hd hout
    subst he
    obtain ⟨d', hd', hc⟩ : ∃ d', cartSystem.run (.init (.initial catalog cacheEnabled)) ls₁ = some d' ∧
        cartSystem.run d' ls₂ = some c := by
      have hr := h.run
      rw [cartSystem.run_append] at hr
      exact Option.bind_eq_some_iff.mp hr
    cases hd.symm.trans hd'
    have hdrun : CartRun true catalog cacheEnabled ls₁ d := ⟨hd, fun he => nomatch he⟩
    have hds : CartSound true d := hdrun.sound
    have hdi : CartInv d.shared := hds.inv
    obtain ⟨deeds, hgrow⟩ := deeds_grow hds hc
    obtain ⟨cart, hcart, rfl, hne⟩ := hout
    obtain ⟨t, items, hclaim⟩ := hdi.claimant cart hcart hne
    obtain ⟨seen, l, rest, hst⟩ := hdi.claimStory hclaim
    have hclaim' : (t, .claimed cart.id items) ∈ c.shared.deeds := by
      rw [hgrow]
      exact List.mem_append_left _ hclaim
    obtain ⟨seen', l', rest', hst'⟩ := hi.claimStory hclaim'
    rw [(hi.settled hu hst').2, (hdi.settled (hgrow ▸ hu).of_append hst).2]
  · intro t k reply userId p quantity ht hk
    have hwrote : Wrote t userId p quantity c.shared := by
      rcases hk with ⟨n, rfl, rfl⟩ | ⟨rfl, rfl⟩
      · exact hs.result ht
      · exact hs.result ht
    obtain ⟨cartId, found, hw, cart, hcart, hid, huser⟩ := hwrote
    refine ⟨cartId, found, hw, ?_⟩
    obtain ⟨q, hq⟩ := lastWrite_of_mem hw
    have hline := hi.recorded.last cartId p q hq
    refine ⟨q, hq, ?_⟩
    by_cases hopen : cart.checkedOutAt = none
    · exact .inl ⟨cart, hcart, hid, huser, hopen, hline⟩
    · right
      obtain ⟨t', items, hclaim⟩ := hi.claimant cart hcart hopen
      rw [hid] at hclaim
      refine ⟨t', items, hclaim, ?_⟩
      rcases claimed_outcome h hu hclaim p with ⟨order, hp, ho, hl⟩ | hrun
      · exact .inl ⟨order, hp, ho, hl.trans hline⟩
      · exact .inr hrun

/-- The double click loses nothing. -/
theorem carts_kept_double_click : ∃ c, CartRun false shopCatalog true doubleClick c ∧
    CartsKept shopCatalog true doubleClick c := by
  have hout : (cartSystem.run (.init (.initial shopCatalog true)) doubleClick).map
      (fun c => untouched c.shared.deeds) = some true := by decide +kernel
  obtain ⟨c, hc, hu⟩ := Option.map_eq_some_iff.mp hout
  have h : CartRun false shopCatalog true doubleClick c := ⟨hc, fun _ => by decide +kernel⟩
  exact ⟨c, h, carts_kept h (untouched_sound hu)⟩

/-- Call 2 adds product 2 after checkout 1 has read the cart and before it claims it. -/
def lateItem : List CartLabel :=
  [.start 0 (.setItem 7 1 3), .step 0 {}, .step 0 { fresh := 10 }] ++ List.replicate 3 (.step 0 {}) ++
  [.start 1 (.checkout 7), .step 1 {}, .start 2 (.setItem 7 2 1)] ++ List.replicate 4 (.step 2 {}) ++
  [.step 1 {}] ++ List.replicate 7 (.step 1 { fresh := 40 })

/-- The order has one line, and the cart had two when it was claimed. -/
theorem not_carts_kept : ¬∀ catalog cacheEnabled ls c, CartRun false catalog cacheEnabled ls c →
    CartsKept catalog cacheEnabled ls c := by
  intro hall
  have hout : (cartSystem.run (.init (.initial shopCatalog true)) lateItem).map (fun c =>
      (c.shared.deeds.filter fun d => d.2 == .claimed 10 [⟨10, 1, 3⟩, ⟨10, 2, 1⟩] || d.2 == .placed 40,
        (c.shared.world.order 40).map fun order => order.items.length)) =
      some ([(1, .claimed 10 [⟨10, 1, 3⟩, ⟨10, 2, 1⟩]), (1, .placed 40)], some 1) := by
    decide +kernel
  obtain ⟨c, hc, hout⟩ := Option.map_eq_some_iff.mp hout
  obtain ⟨hdeeds, hlength⟩ := Prod.mk.inj hout
  have h : CartRun false shopCatalog true lateItem c := ⟨hc, fun _ => by decide +kernel⟩
  have hmem {d : Tid × CartDeed} (hd : d ∈ [((1, .claimed 10 [⟨10, 1, 3⟩, ⟨10, 2, 1⟩]) : Tid × CartDeed),
      (1, .placed 40)]) : d ∈ c.shared.deeds := by
    rw [← hdeeds] at hd
    exact (List.mem_filter.mp hd).1
  obtain ⟨order, ho, hlines⟩ := (hall _ _ _ _ h).ordered 1 10 [⟨10, 1, 3⟩, ⟨10, 2, 1⟩] 40
    (hmem (by simp)) (hmem (by simp))
  have hone : order.items.length = 1 := by simpa [ho] using hlength
  have htwo : order.items.length = 2 := by simpa using congrArg List.length hlines
  omega

end OrderLifecycle.Cart

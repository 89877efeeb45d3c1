import OrderLifecycle.Cart.Steps
import OrderLifecycle.Seed.Invariant

open Framework

namespace OrderLifecycle.Seed

open Cart Auth

variable {s₀ s s' : SeedWorld} {t : Tid} {p : ProductId} {cartId : Uuid}

/-! ### `setItem` -/

/-- What the calls promise each other. -/
def seedLogic (s₀ : SeedWorld) : Logic SeedWorld SeedChoice SeedCall where
  inv := SeedInv s₀
  guar t _ s s' := Evolves s s' ∧ ∀ t', t' ≠ t → t' ∉ s.unswept → t' ∉ s'.unswept
  envGuar _ _ := False
  choice _ := True

variable {k : SeedCall} {α : Type} {userId : UserId}

theorem stable_of_evolves {P : SeedWorld → Prop}
    (h : ∀ s s', Evolves s s' → (t ∉ s.unswept → t ∉ s'.unswept) → P s → P s') :
    (seedLogic s₀).Stable t P := by
  rintro s s' ⟨-, -, ⟨t', k, hne, hev, hun⟩ | hf⟩ hp
  · exact h s s' hev (hun t hne.symm) hp
  · exact hf.elim

/-- The call retires nothing. -/
def Bystander (t : Tid) (s : SeedWorld) : Prop := t ∉ s.unswept

theorem bystander_stable : (seedLogic s₀).Stable t (Bystander t) :=
  stable_of_evolves fun _ _ _ hun h => hun h

theorem open_stable : (seedLogic s₀).Stable t fun s => s.Open cartId :=
  stable_of_evolves fun _ _ hev _ h => hev.open_cart h

theorem sold_stable : (seedLogic s₀).Stable t (Sold p) :=
  stable_of_evolves fun _ _ hev _ h => hev.sold h

/-- One statement on the cart tables. -/
theorem hoare_cart {P : SeedWorld → Prop} {R : α → SeedWorld → Prop}
    {f : Tid → Choice → CartWorld → Option (Except AppError α × CartWorld)}
    (hP : (seedLogic s₀).Stable t P)
    (hf : ∀ s ch r c, SeedInv s₀ s → P s → f t ch s.cart = some (r, c) →
      (SeedInv s₀ { s with cart := c } ∧ Evolves s { s with cart := c }) ∧
        ∀ a, r = .ok a → R a { s with cart := c }) :
    Hoare (seedLogic s₀) t k (fun s => P s ∧ Bystander t s)
      (Action.embed cartPart SeedChoice.base (cartSql f)) (fun a s => R a s ∧ Bystander t s)
      fun _ => Bystander t := by
  refine hoare_stmt (hP.and bystander_stable) ?_
  intro s ch r s' hi _ ⟨hp, hb⟩ hs
  obtain ⟨⟨r', c⟩, hrun, he⟩ := Option.map_eq_some_iff.mp hs
  cases he
  beta_reduce at hrun
  split at hrun
  · cases hrun
    exact ⟨hi, ⟨.refl, fun _ _ h => h⟩, hb⟩
  · obtain ⟨⟨hi', hev⟩, hr⟩ := hf s ch.base r' c hi hp hrun
    refine ⟨hi', ⟨hev, fun _ _ h => h⟩, ?_⟩
    cases r' with
    | ok a => exact ⟨hr a rfl, hb⟩
    | error e => exact hb

/-- Reading leaves a note. -/
theorem SeedInv.saw (hi : SeedInv s₀ s) (items : List CartItemEntity) :
    SeedInv s₀ { s with cart := s.cart.note t (.saw cartId items) } ∧
      Evolves s { s with cart := s.cart.note t (.saw cartId items) } := by
  apply hi.cart_step _ (c := s.cart.note t (.saw cartId items)) rfl rfl (fun _ h => h) hi.ids
    hi.owned rfl
    (fun _ _ h => h) (fun _ _ h => Or.inl h) (fun _ h => Or.inl h)
  intro t' c p q n hm
  cases List.mem_singleton.mp hm

theorem findOpenCart_hoare :
    Hoare (seedLogic s₀) t k (Bystander t)
      (Action.embed cartPart SeedChoice.base (findOpenCart userId))
      (fun cart s => (∀ cart', cart = some cart' → s.Open cart'.cart.id) ∧ Bystander t s)
      fun _ => Bystander t := by
  refine hoare_pre (fun s h => ⟨trivial, h⟩) (hoare_cart (P := fun _ => True) .true ?_)
  intro s ch r c hi _ hrun
  split at hrun
  · cases hrun
    refine ⟨⟨hi, .refl⟩, fun a ha => ?_⟩
    cases ha
    intro cart' hcart
    cases hcart
  · next cart hcart =>
    cases hrun
    refine ⟨hi.saw _, fun a ha => ?_⟩
    cases ha
    intro cart' hcart'
    cases hcart'
    obtain ⟨hmem, -, hopen⟩ := openCart_some hcart
    exact ⟨cart, hmem, rfl, hopen⟩

/-- A new cart is open and has no lines. -/
theorem SeedInv.save (hi : SeedInv s₀ s) {id : Uuid} (hid : ∀ cart ∈ s.cart.carts, cart.id ≠ id) :
    SeedInv s₀ { s with cart := { s.cart with carts := s.cart.carts ++ [⟨id, userId, none⟩] } } ∧
      Evolves s { s with cart := { s.cart with carts := s.cart.carts ++ [⟨id, userId, none⟩] } } := by
  have hitems : s.cart.cartItems id = [] := by
    by_contra hne
    obtain ⟨cart, hcart, he⟩ := List.mem_map.mp (hi.owned id hne)
    exact hid cart hcart he
  apply hi.cart_step [] (c := { s.cart with carts := s.cart.carts ++ [⟨id, userId, none⟩] })
    rfl (List.append_nil _).symm (fun _ h => List.mem_append_left _ h)
  · rw [List.map_append, List.nodup_append]
    refine ⟨hi.ids, by simp, ?_⟩
    intro a ha b hb e
    obtain ⟨cart, hcart, rfl⟩ := List.mem_map.mp ha
    exact hid cart hcart (e.trans (by simpa using hb))
  · intro cartId hne
    rw [List.map_append]
    exact List.mem_append_left _ (hi.owned cartId hne)
  · simp [SeedWorld.history]
  · intro _ _ h
    exact h
  · intro _ _ h
    exact Or.inl h
  · rintro cartId ⟨cart, hcart, he, ho⟩
    obtain hcart | hcart := List.mem_append.mp hcart
    · exact Or.inl ⟨cart, hcart, he, ho⟩
    · rw [List.mem_singleton.mp hcart] at he
      exact Or.inr (he ▸ hitems)
  · intro _ _ _ _ _ hm
    cases hm

theorem saveCart_hoare :
    Hoare (seedLogic s₀) t k (Bystander t)
      (Action.embed cartPart SeedChoice.base (saveCart userId))
      (fun cart s => s.Open cart.id ∧ Bystander t s) fun _ => Bystander t := by
  refine hoare_pre (fun s h => ⟨trivial, h⟩) (hoare_cart (P := fun _ => True) .true ?_)
  intro s ch r c hi _ hrun
  split at hrun
  · cases hrun
    exact ⟨⟨hi, .refl⟩, nofun⟩
  · split at hrun
    · cases hrun
    · next hfresh =>
      cases hrun
      have hid : ∀ cart ∈ s.cart.carts, cart.id ≠ ch.fresh := by
        intro cart hcart he
        exact hfresh (List.any_eq_true.mpr ⟨cart, hcart, by simpa using he⟩)
      refine ⟨hi.save hid, fun a ha => ?_⟩
      cases ha
      exact ⟨_, List.mem_append_right _ (List.mem_singleton.mpr rfl), rfl, rfl⟩

theorem getOpenCart_hoare :
    Hoare (seedLogic s₀) t k (Bystander t)
      (Action.embed cartPart SeedChoice.base (getOpenCart userId))
      (fun cart s => s.Open cart.cart.id ∧ Bystander t s) fun _ => Bystander t := by
  unfold getOpenCart
  rw [Action.embed_bind]
  refine hoare_bind findOpenCart_hoare fun existing => ?_
  cases existing with
  | some existing => exact hoare_pure fun s h => ⟨h.1 existing rfl, h.2⟩
  | none =>
    refine hoare_pre (P := Bystander t) (fun s h => h.2) ?_
    dsimp only
    rw [Action.embed_tryCatch]
    refine hoare_tryCatch (E := fun _ => Bystander t) ?_ fun error => ?_
    · rw [Action.embed_bind]
      exact hoare_bind saveCart_hoare fun created => hoare_pure fun s h => h
    · cases hu : isUniqueViolation error with
      | false => exact hoare_throw fun s h => h
      | true =>
        simp only [if_true]
        rw [Action.embed_bind]
        refine hoare_bind findOpenCart_hoare fun winner => ?_
        cases winner with
        | some winner => exact hoare_pure fun s h => ⟨h.1 winner rfl, h.2⟩
        | none => exact hoare_throw fun s h => h.2

theorem findProduct_hoare {P : SeedWorld → Prop} (hP : (seedLogic s₀).Stable t P) :
    Hoare (seedLogic s₀) t k (fun s => P s ∧ Bystander t s)
      (Action.embed cartPart SeedChoice.base (findProduct p))
      (fun product s => (P s ∧ (product ≠ none → Sold p s)) ∧ Bystander t s) fun _ => Bystander t := by
  apply hoare_cart hP
  intro s ch r c hi hp hrun
  cases hrun
  refine ⟨⟨hi, .refl⟩, fun a ha => ⟨hp, fun hne => ?_⟩⟩
  cases ha
  obtain ⟨row, hrow⟩ := Option.ne_none_iff_exists'.mp hne
  obtain ⟨hrow, hact⟩ := Option.filter_eq_some_iff.mp hrow
  exact ⟨row, hrow, Or.inl hact⟩

theorem products_setLine {items : List CartItemEntity} {n : Nat} {q : ProductId} :
    q ∈ (setLine cartId p n items).map (·.productId) ↔ q ∈ items.map (·.productId) ∨ q = p := by
  unfold setLine
  split
  · next hany =>
    have hsame : (items.map fun item => if item.productId == p then { item with quantity := n } else item).map
        (·.productId) = items.map (·.productId) := by
      rw [List.map_map]
      apply List.map_congr_left
      intro item _
      simp only [Function.comp_apply]
      split <;> rfl
    rw [hsame]
    obtain ⟨item, hitem, he⟩ := List.any_eq_true.mp hany
    have hp : p ∈ items.map (·.productId) := List.mem_map.mpr ⟨item, hitem, by simpa using he⟩
    constructor
    · intro h
      exact Or.inl h
    · rintro (h | rfl)
      · exact h
      · exact hp
  · simp

theorem open_unique (hi : SeedInv s₀ s) {cart : CartEntity} (hcart : cart ∈ s.cart.carts)
    (hopen : s.Open cart.id) : cart.checkedOutAt = none := by
  obtain ⟨cart', hcart', hid, hnone⟩ := hopen
  have he : cart' = cart := List.inj_on_of_nodup_map hi.ids hcart' hcart hid
  rw [← he]
  exact hnone

/-- Writing the items of an open cart leaves the others alone. -/
theorem history_write (hi : SeedInv s₀ s) {items : List CartItemEntity} (ho : s.Open cartId)
    (d : CartDeed) :
    SeedWorld.history { s with cart := (s.cart.writeItems cartId items).note t d } = s.history := by
  apply List.map_congr_left
  intro cart hcart
  obtain ⟨hmem, hsome⟩ := List.mem_filter.mp hcart
  have hne : cart.id ≠ cartId := by
    intro he
    have hnone := open_unique hi hmem (he ▸ ho)
    simp [hnone] at hsome
  exact congrArg (Prod.mk cart) (writeItems_other hne)

/-- A line is set in an open cart, for a product that was found on sale. -/
theorem SeedInv.wrote (hi : SeedInv s₀ s) (ho : s.Open cartId) (hs : Sold p s) {n : Nat} {c : CartWorld}
    (hc : c = (s.cart.writeItems cartId (setLine cartId p n (s.cart.cartItems cartId))).note t
      (.wrote cartId p (lineOf (s.cart.cartItems cartId) p) (some n))) :
    SeedInv s₀ { s with cart := c } ∧ Evolves s { s with cart := c } := by
  have hself : c.cartItems cartId = setLine cartId p n (s.cart.cartItems cartId) := by
    rw [hc]
    exact writeItems_self
  have hother (c' : Uuid) (hne : c' ≠ cartId) : c.cartItems c' = s.cart.cartItems c' := by
    rw [hc]
    exact writeItems_other hne
  have hcarts : c.carts = s.cart.carts := by rw [hc]; rfl
  have hmem : cartId ∈ s.cart.carts.map (·.id) := by
    obtain ⟨cart, hcart, hid, -⟩ := ho
    exact List.mem_map.mpr ⟨cart, hcart, hid⟩
  apply hi.cart_step [(t, .wrote cartId p (lineOf (s.cart.cartItems cartId) p) (some n))]
    (by rw [hc]; rfl) (by rw [hc]; rfl)
  · intro cart h
    rwa [hcarts]
  · rw [hcarts]
    exact hi.ids
  · intro c' hne
    rw [hcarts]
    by_cases e : c' = cartId
    · rwa [e]
    · rw [hother c' e] at hne
      exact hi.owned c' hne
  · rw [hc]
    exact history_write hi ho _
  · intro c' q hq
    by_cases e : c' = cartId
    · subst e
      rw [hself]
      exact products_setLine.mpr (Or.inl hq)
    · rwa [hother c' e]
  · intro c' q hq
    by_cases e : c' = cartId
    · subst e
      rw [hself] at hq
      obtain hq | rfl := products_setLine.mp hq
      · exact Or.inl hq
      · exact Or.inr ⟨hs, t, _, n, List.mem_singleton.mpr rfl⟩
    · rw [hother c' e] at hq
      exact Or.inl hq
  · intro c' h
    have ho' : s.Open c' := by simpa only [SeedWorld.Open, hcarts] using h
    exact Or.inl ho'
  · intro t' c' q m n' hm
    cases List.mem_singleton.mp hm
    refine ⟨?_, ?_⟩
    · simpa only [SeedWorld.Open, hcarts] using ho
    · simp only [hself]
      exact products_setLine.mpr (Or.inr rfl)

theorem upsertItem_hoare {n : Nat} :
    Hoare (seedLogic s₀) t k (fun s => (s.Open cartId ∧ Sold p s) ∧ Bystander t s)
      (Action.embed cartPart SeedChoice.base (upsertItem cartId p n))
      (fun _ => Bystander t) fun _ => Bystander t := by
  have hstable : (seedLogic s₀).Stable t fun s => s.Open cartId ∧ Sold p s := open_stable.and sold_stable
  refine hoare_conseq (hoare_cart (R := fun _ _ => True) hstable ?_) (fun s h => h) (fun a s h => h.2)
    fun e s h => h
  intro s ch r c hi ⟨ho, hs⟩ hrun
  split at hrun
  · cases hrun
    exact ⟨hi.wrote ho hs rfl, fun _ _ => trivial⟩
  · cases hrun
    exact ⟨⟨hi, .refl⟩, fun _ _ => trivial⟩

theorem setItem_hoare {n : Nat} :
    Hoare (seedLogic s₀) t k (Bystander t)
      (Action.embed cartPart SeedChoice.base (setItem userId p n))
      (fun _ => Bystander t) fun _ => Bystander t := by
  unfold setItem
  rw [Action.embed_bind]
  refine hoare_bind getOpenCart_hoare fun cart => ?_
  rw [Action.embed_bind]
  refine hoare_bind (findProduct_hoare open_stable) fun product => ?_
  cases product with
  | none => exact hoare_throw fun s h => h.2
  | some product =>
    dsimp only
    rw [Action.embed_bind]
    refine hoare_bind (Q := fun _ => Bystander t) ?_ fun _ => ?_
    · exact hoare_pre (fun s h => ⟨⟨h.1.1, h.1.2 (by simp)⟩, h.2⟩) upsertItem_hoare
    · exact hoare_conseq getOpenCart_hoare (fun s h => h) (fun a s h => h.2) fun e s h => h

end OrderLifecycle.Seed

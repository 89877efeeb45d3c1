import OrderLifecycle.Seed.Rows

open Framework

namespace OrderLifecycle.Seed

open Cart Auth

variable {s s' : SeedWorld} {t : Tid} {p : ProductId} {cartId : Uuid}

namespace SeedWorld

def Open (s : SeedWorld) (cartId : Uuid) : Prop :=
  ∃ cart ∈ s.cart.carts, cart.id = cartId ∧ cart.checkedOutAt = none

def Line (s : SeedWorld) (cartId : Uuid) (p : ProductId) : Prop :=
  s.Open cartId ∧ p ∈ (s.cart.cartItems cartId).map (·.productId)

/-- An open cart has a line for an inactive product. -/
def Stale (s : SeedWorld) (cartId : Uuid) (p : ProductId) : Prop :=
  s.Line cartId p ∧ ∃ row, s.product p = some row ∧ row.active = false

/-- A product to be retired is still on sale. -/
def RetiresSome (s : SeedWorld) : Prop := ∃ p, OnSale s.sku s.cart.world.db p

/-- The products of the lines set since the last `DELETE` of a boot. -/
def linesSet (s : SeedWorld) : List ProductId :=
  (s.cart.deeds.drop (s.swept.getD 0)).filterMap fun
    | (_, .wrote _ p _ (some _)) => some p
    | _ => none

/-- The carts that are checked out, with their items. -/
def history (s : SeedWorld) : List (CartEntity × List CartItemEntity) :=
  (s.cart.carts.filter fun cart => cart.checkedOutAt.isSome).map fun cart =>
    (cart, s.cart.cartItems cart.id)

end SeedWorld

/-- A database no call has begun to work on, with the keys of the cart tables. -/
structure Start (s : SeedWorld) : Prop where
  quiet : Quiet s.cart.world.db
  ids : (s.cart.carts.map (·.id)).Nodup
  owned : ∀ cartId, s.cart.cartItems cartId ≠ [] → cartId ∈ s.cart.carts.map (·.id)
  known : ∀ cartId p, p ∈ (s.cart.cartItems cartId).map (·.productId) → s.product p ≠ none
  deeds : s.cart.deeds = []
  unswept : s.unswept = []
  swept : s.swept = none

/-- What happens to the products and the carts. -/
structure Evolves (s s' : SeedWorld) : Prop where
  kept : ∀ p row, s.product p = some row → s'.sku p = s.sku p ∧ ∃ row', s'.product p = some row' ∧
    (row'.active = row.active ∨ s.sku p ∈ retiredSkus ∧ row'.active = false)
  added : ∀ p row, s.product p = none → s'.product p = some row →
    row.active = true ∧ s'.sku p ∉ retiredSkus
  carts : ∀ cart ∈ s.cart.carts, cart ∈ s'.cart.carts

theorem Evolves.refl : Evolves s s where
  kept _ row h := ⟨rfl, row, h, Or.inl rfl⟩
  added _ _ h h' := nomatch h.symm.trans h'
  carts _ h := h

theorem Evolves.trans {s₁ s₂ s₃ : SeedWorld} (h : Evolves s₁ s₂) (h' : Evolves s₂ s₃) :
    Evolves s₁ s₃ where
  kept p row hrow := by
    obtain ⟨hsku, row₂, hrow₂, hact⟩ := h.kept p row hrow
    obtain ⟨hsku', row₃, hrow₃, hact'⟩ := h'.kept p row₂ hrow₂
    refine ⟨hsku'.trans hsku, row₃, hrow₃, ?_⟩
    rw [hsku] at hact'
    grind
  added p row hnone hrow := by
    cases hp : s₂.product p with
    | none => exact h'.added p row hp hrow
    | some row₂ =>
      obtain ⟨hact, hsku⟩ := h.added p row₂ hnone hp
      obtain ⟨hsku', row₃, hrow₃, hact'⟩ := h'.kept p row₂ hp
      rw [hrow] at hrow₃
      cases hrow₃
      rw [hsku']
      refine ⟨?_, hsku⟩
      obtain he | ⟨hret, -⟩ := hact'
      · exact he.trans hact
      · exact absurd hret hsku
  carts cart hcart := h'.carts cart (h.carts cart hcart)

theorem Evolves.open_cart (h : Evolves s s') (ho : s.Open cartId) : s'.Open cartId := by
  obtain ⟨cart, hcart, hid⟩ := ho
  exact ⟨cart, h.carts cart hcart, hid⟩

/-- A product that was found on sale: it is, or it is one to retire. -/
def Sold (p : ProductId) (s : SeedWorld) : Prop :=
  ∃ row, s.product p = some row ∧ (row.active = true ∨ s.sku p ∈ retiredSkus)

theorem Evolves.sold (h : Evolves s s') (hs : Sold p s) : Sold p s' := by
  obtain ⟨row, hrow, hact⟩ := hs
  obtain ⟨hsku, row', hrow', hact'⟩ := h.kept p row hrow
  refine ⟨row', hrow', ?_⟩
  rw [hsku]
  obtain he | ⟨hret, -⟩ := hact'
  · rwa [he]
  · exact Or.inr hret

/-- Every product to be retired is off sale. -/
def AllRetired (s : SeedWorld) : Prop := ¬s.RetiresSome

theorem Evolves.allRetired (h : Evolves s s') (hs : AllRetired s) : AllRetired s' := by
  rintro ⟨p, hret, row', hrow', hact'⟩
  cases hp : s.product p with
  | none => exact (h.added p row' hp hrow').2 hret
  | some row =>
    obtain ⟨hsku, row₂, hrow₂, hact⟩ := h.kept p row hp
    rw [show s'.product p = some row' from hrow'] at hrow₂
    cases hrow₂
    rw [hsku] at hret
    obtain he | ⟨-, hoff⟩ := hact
    · exact hs ⟨p, hret, row, hp, he.symm.trans hact'⟩
    · rw [hact'] at hoff
      cases hoff

/-! ### The invariant -/

/-- What holds while boots and calls of `setItem` run from `s₀`. -/
structure SeedInv (s₀ s : SeedWorld) : Prop where
  quiet : Quiet s.cart.world.db
  ids : (s.cart.carts.map (·.id)).Nodup
  owned : ∀ cartId, s.cart.cartItems cartId ≠ [] → cartId ∈ s.cart.carts.map (·.id)
  known : ∀ cartId p, p ∈ (s.cart.cartItems cartId).map (·.productId) → s.product p ≠ none
  since : s.swept.getD 0 ≤ s.cart.deeds.length
  orders : ∀ o, s.cart.world.order o = s₀.cart.world.order o
  history : s.history = s₀.history
  evolved : Evolves s₀ s
  /-- A product that was switched off is remembered until the `DELETE`. -/
  marked : ∀ p, OnSale s₀.sku s₀.cart.world.db p → ¬OnSale s.sku s.cart.world.db p →
    s.swept ≠ none ∨ s.unswept ≠ []
  /-- Where a line for an inactive product comes from. -/
  stale : ∀ cartId p, s.Stale cartId p → (p ∈ s.linesSet ∧ s.sku p ∈ retiredSkus) ∨ s.unswept ≠ [] ∨
    s.swept = none ∧ s₀.Stale cartId p
  present : ∀ p ∈ s.linesSet, ∃ cartId, s.Line cartId p
  untouched : ¬s₀.RetiresSome → s.swept = none ∧ ∀ cartId p, s₀.Stale cartId p → s.Stale cartId p

theorem Start.inv (h : Start s) : SeedInv s s where
  quiet := h.quiet
  ids := h.ids
  owned := h.owned
  known := h.known
  since := by simp [h.swept]
  orders _ := rfl
  history := rfl
  evolved := .refl
  marked p hsale hnot := absurd hsale hnot
  stale cartId p hs := Or.inr (Or.inr ⟨h.swept, hs⟩)
  present := by simp [SeedWorld.linesSet, h.deeds]
  untouched _ := ⟨h.swept, fun _ _ hs => hs⟩

variable {s₀ : SeedWorld}

theorem linesSet_append {c : CartWorld} {ds : List (Tid × CartDeed)}
    (h : s.swept.getD 0 ≤ s.cart.deeds.length) (hd : c.deeds = s.cart.deeds ++ ds) :
    SeedWorld.linesSet { s with cart := c } = s.linesSet ++ ds.filterMap fun
      | (_, .wrote _ p _ (some _)) => some p
      | _ => none := by
  simp only [SeedWorld.linesSet, hd]
  rw [List.drop_append_of_le_length h, List.filterMap_append]

/-- A call changes the carts: it sets lines of products that it found on sale, and no line goes. -/
theorem SeedInv.cart_step {c : CartWorld} (ds : List (Tid × CartDeed)) (hi : SeedInv s₀ s)
    (hworld : c.world = s.cart.world) (hdeeds : c.deeds = s.cart.deeds ++ ds)
    (hcarts : ∀ cart ∈ s.cart.carts, cart ∈ c.carts) (hids : (c.carts.map (·.id)).Nodup)
    (howned : ∀ cartId, c.cartItems cartId ≠ [] → cartId ∈ c.carts.map (·.id))
    (hhist : SeedWorld.history { s with cart := c } = s.history)
    (hkeep : ∀ cartId p, p ∈ (s.cart.cartItems cartId).map (·.productId) →
      p ∈ (c.cartItems cartId).map (·.productId))
    (hnew : ∀ cartId p, p ∈ (c.cartItems cartId).map (·.productId) →
      p ∈ (s.cart.cartItems cartId).map (·.productId) ∨
        Sold p s ∧ ∃ t q n, (t, .wrote cartId p q (some n)) ∈ ds)
    (hopen : ∀ cartId, SeedWorld.Open { s with cart := c } cartId →
      s.Open cartId ∨ s.cart.cartItems cartId = [])
    (hset : ∀ t cartId p q n, (t, .wrote cartId p q (some n)) ∈ ds →
      SeedWorld.Line { s with cart := c } cartId p) :
    SeedInv s₀ { s with cart := c } ∧ Evolves s { s with cart := c } := by
  have hproduct (p : ProductId) : SeedWorld.product { s with cart := c } p = s.product p := by
    simp only [SeedWorld.product, hworld]
  have hev : Evolves s { s with cart := c } := by
    refine ⟨fun p row h => ⟨rfl, row, (hproduct p).trans h, Or.inl rfl⟩, fun p row h h' => ?_, hcarts⟩
    rw [hproduct, h] at h'
    cases h'
  have hlines := linesSet_append hi.since hdeeds
  have hline (cartId : Uuid) (p : ProductId) (h : s.Line cartId p) :
      SeedWorld.Line { s with cart := c } cartId p := ⟨hev.open_cart h.1, hkeep cartId p h.2⟩
  refine ⟨⟨?_, hids, howned, ?_, ?_, ?_, hhist.trans hi.history, hi.evolved.trans hev, ?_, ?_, ?_, ?_⟩,
    hev⟩
  · simpa only [hworld] using hi.quiet
  · intro cartId p hp
    rw [hproduct]
    obtain hold | ⟨⟨row, hrow, -⟩, -⟩ := hnew cartId p hp
    · exact hi.known cartId p hold
    · simp [hrow]
  · simp only [hdeeds, List.length_append]
    exact Nat.le_add_right_of_le hi.since
  · simpa only [hworld] using hi.orders
  · simpa only [hworld] using hi.marked
  · rintro cartId p ⟨⟨ho, hp⟩, row, hrow, hoff⟩
    rw [hproduct] at hrow
    obtain hold | ⟨⟨row', hrow', hact⟩, t, q, n, hwrote⟩ := hnew cartId p hp
    · have hopened : s.Open cartId := by
        obtain h | h := hopen cartId ho
        · exact h
        · simp [h] at hold
      obtain ⟨hset, hret⟩ | h | ⟨hnone, h⟩ := hi.stale cartId p ⟨⟨hopened, hold⟩, row, hrow, hoff⟩
      · rw [hlines]
        exact Or.inl ⟨List.mem_append_left _ hset, hret⟩
      · exact Or.inr (Or.inl h)
      · exact Or.inr (Or.inr ⟨hnone, h⟩)
    · rw [hrow] at hrow'
      cases hrow'
      rw [hlines]
      refine Or.inl ⟨List.mem_append_right _ ?_, ?_⟩
      · exact List.mem_filterMap.mpr ⟨_, hwrote, rfl⟩
      · simpa [hoff] using hact
  · intro p hp
    rw [hlines] at hp
    obtain hp | hp := List.mem_append.mp hp
    · obtain ⟨cartId, h⟩ := hi.present p hp
      exact ⟨cartId, hline cartId p h⟩
    · obtain ⟨⟨t, d⟩, hd, he⟩ := List.mem_filterMap.mp hp
      split at he
      · next hdeed =>
        cases he
        cases hdeed
        exact ⟨_, hset _ _ _ _ _ hd⟩
      · cases he
  · intro hnot
    obtain ⟨hnone, hstale⟩ := hi.untouched hnot
    refine ⟨hnone, fun cartId p h => ?_⟩
    obtain ⟨hl, row, hrow, hoff⟩ := hstale cartId p h
    exact ⟨hline cartId p hl, row, (hproduct p).trans hrow, hoff⟩

end OrderLifecycle.Seed

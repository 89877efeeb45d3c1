import OrderLifecycle.Auth.OnePassword
import OrderLifecycle.Seed.SetItem

open Framework

namespace OrderLifecycle.Seed

open Cart Auth

variable {s₀ s s' : SeedWorld} {t : Tid} {k : SeedCall} {p : ProductId} {cartId : Uuid} {α : Type}

/-! ### The boot -/

theorem SeedInv.auth (hi : SeedInv s₀ s) (a : AuthWorld) :
    SeedInv s₀ { s with auth := a } ∧ Evolves s { s with auth := a } := by
  have hev : Evolves s { s with auth := a } :=
    ⟨fun p row h => ⟨rfl, row, h, Or.inl rfl⟩, fun p row h h' => (nomatch h.symm.trans h'), fun _ h => h⟩
  exact ⟨⟨hi.quiet, hi.ids, hi.owned, hi.known, hi.since, hi.orders, hi.history, hi.evolved.trans hev,
    hi.marked, hi.stale, hi.present, hi.untouched⟩, hev⟩

/-- The users have nothing to do with it. -/
theorem seedAdminUser_hoare {B : Bcrypt} {C : Crypto} {credentials : AdminCredentials} :
    Hoare (seedLogic s₀) t k (Bystander t) (seedAdminUser B C credentials)
      (fun _ => Bystander t) fun _ => Bystander t := by
  have hwp {β : Type} (x : Prog AuthWorld AuthChoice β) (s : SeedWorld) (hs : Bystander t s) :
      wp (seedLogic s₀) t k (x.embed authPart SeedChoice.auth) (fun _ => Bystander t) s := by
    induction x generalizing s with
    | ret a => exact hs
    | act γ f h ih =>
      intro s₁ hr hi ch _ r s₂ hrun
      obtain ⟨⟨b, a⟩, -, he⟩ := Option.map_eq_some_iff.mp hrun
      cases he
      obtain ⟨hi', hev⟩ := SeedInv.auth hi a
      have hb := bystander_stable.star hr hs
      exact ⟨hi', ⟨hev, fun _ _ h => h⟩, ih b _ hb⟩
  intro s hs
  apply wp_bind
  refine wp_mono ?_ (hwp _ s hs)
  intro r s' hs'
  cases r with
  | ok a => exact hs'
  | error e => exact hs'

theorem mem_products : p ∈ s.products ↔ s.product p ≠ none := by
  unfold SeedWorld.products
  rw [List.mem_filterMap]
  constructor
  · rintro ⟨key, -, he⟩
    split at he
    · split at he
      · next hsome =>
        cases he
        exact Option.isSome_iff_ne_none.mp hsome
      · cases he
    · cases he
  · intro hne
    refine ⟨.product p, s.cart.world.db.listed _ (Or.inl hne), ?_⟩
    simp only [Option.isSome_iff_ne_none.mpr hne, if_true]

/-- One statement of a boot. -/
theorem hoare_seedSql {P : SeedWorld → Prop} {R : α → SeedWorld → Prop}
    {f : Tid → SeedChoice → SeedWorld → Option (Except AppError α × SeedWorld)}
    (hP : (seedLogic s₀).Stable t P)
    (hf : ∀ s ch r s', SeedInv s₀ s → P s → f t ch s = some (r, s') →
      SeedInv s₀ s' ∧ Evolves s s' ∧ (∀ t', t' ≠ t → t' ∉ s.unswept → t' ∉ s'.unswept) ∧
        ∀ a, r = .ok a → R a s') :
    Hoare (seedLogic s₀) t k P (seedSql f) R fun _ _ => True := by
  refine hoare_stmt hP ?_
  intro s ch r s' hi _ hp hrun
  split at hrun
  · cases hrun
    exact ⟨hi, ⟨.refl, fun _ _ h => h⟩, trivial⟩
  · obtain ⟨hi', hev, hun, hr⟩ := hf s ch r s' hi hp hrun
    refine ⟨hi', ⟨hev, hun⟩, ?_⟩
    cases r with
    | ok a => exact hr a rfl
    | error e => trivial

/-- A boot changes the products. Either it leaves alone those that are known, or it is remembered. -/
theorem SeedInv.product_step {db : Db} (sku : ProductId → String) (unswept : List Tid)
    (hi : SeedInv s₀ s) (hs' : s' = { s.withDb db with sku := sku, unswept := unswept })
    (honly : OnlyProducts s.cart.world.db db) (hev : Evolves s s')
    (hsame : (∀ p, s.product p ≠ none → s'.product p = s.product p) ∧ unswept = s.unswept ∨
      unswept ≠ [] ∧ s.RetiresSome) : SeedInv s₀ s' := by
  have hsku {p : ProductId} (hp : s.product p ≠ none) : s'.sku p = s.sku p := by
    obtain ⟨row, hrow⟩ := Option.ne_none_iff_exists'.mp hp
    exact (hev.kept p row hrow).1
  have hline {cartId : Uuid} {p : ProductId} : s'.Line cartId p ↔ s.Line cartId p := by rw [hs']; rfl
  have hlines : s'.linesSet = s.linesSet := by rw [hs']; rfl
  have hswept : s'.swept = s.swept := by rw [hs']; rfl
  have hunswept : s'.unswept = unswept := by rw [hs']
  constructor
  · rw [hs']
    exact honly.quiet
  · rw [hs']
    exact hi.ids
  · rw [hs']
    exact hi.owned
  · intro cartId p hp
    have hp' : p ∈ (s.cart.cartItems cartId).map (·.productId) := by rw [hs'] at hp; exact hp
    obtain ⟨row, hrow⟩ := Option.ne_none_iff_exists'.mp (hi.known cartId p hp')
    obtain ⟨-, row', hrow', -⟩ := hev.kept p row hrow
    simp [hrow']
  · rw [hs']
    exact hi.since
  · intro o
    rw [hs']
    exact (honly.rest (.order o) nofun).trans (hi.orders o)
  · rw [hs']
    exact hi.history
  · exact hi.evolved.trans hev
  · intro p hsale hnot
    rw [hswept, hunswept]
    obtain ⟨hkept, rfl⟩ | ⟨hne, -⟩ := hsame
    · refine hi.marked p hsale fun hsale' => hnot ?_
      obtain ⟨hret, row, hrow, hact⟩ := hsale'
      have hp : s.product p ≠ none := by simp [show s.product p = some row from hrow]
      exact ⟨(hsku hp).symm ▸ hret, row, (hkept p hp).trans hrow, hact⟩
    · exact Or.inr hne
  · rintro cartId p ⟨hl, row, hrow, hoff⟩
    rw [hlines, hswept, hunswept]
    have hl' := hline.mp hl
    have hp := hi.known cartId p hl'.2
    obtain ⟨hkept, rfl⟩ | ⟨hne, -⟩ := hsame
    · rw [hkept p hp] at hrow
      rw [hsku hp]
      exact hi.stale cartId p ⟨hl', row, hrow, hoff⟩
    · exact Or.inr (Or.inl hne)
  · intro p hp
    rw [hlines] at hp
    obtain ⟨cartId, h⟩ := hi.present p hp
    exact ⟨cartId, hline.mpr h⟩
  · intro hnot
    obtain ⟨hkept, -⟩ | ⟨-, hsome⟩ := hsame
    · obtain ⟨hnone, hstale⟩ := hi.untouched hnot
      refine ⟨hswept.trans hnone, fun cartId p h => ?_⟩
      obtain ⟨hl, row, hrow, hoff⟩ := hstale cartId p h
      exact ⟨hline.mpr hl, row, (hkept p (hi.known cartId p hl.2)).trans hrow, hoff⟩
    · exact absurd hsome (hi.evolved.allRetired hnot)

theorem insert_evolves {rows : List (ProductId × CatalogProduct)} {db : Db} (hi : SeedInv s₀ s)
    (hcat : ∀ row ∈ rows, row.2 ∈ catalog) (hrun : insertRows t rows s.cart.world.db = some db) :
    OnlyProducts s.cart.world.db db ∧
      Evolves s { s.withDb db with sku := insertSkus rows s.sku } ∧
      ∀ p, s.product p ≠ none → productRow db p = s.product p := by
  obtain ⟨honly, hnew, hold⟩ := insertRows_spec hi.quiet hrun
  have hother {p : ProductId} (hp : s.product p ≠ none) : ∀ row ∈ rows, row.1 ≠ p := by
    intro row hrow he
    have hnone := (hnew row hrow).1
    rw [he] at hnone
    exact hp hnone
  refine ⟨honly, ⟨?_, ?_, fun _ h => h⟩, fun p hp => hold p (hother hp)⟩
  · intro p row hrow
    have hp : s.product p ≠ none := by simp [hrow]
    exact ⟨insertSkus_old (hother hp), row, (hold p (hother hp)).trans hrow, Or.inl rfl⟩
  · intro p row hnone hrow
    by_cases hin : ∃ r ∈ rows, r.1 = p
    · obtain ⟨r, hr, rfl⟩ := hin
      obtain ⟨e, he, hact⟩ := (hnew r hr).2
      have heq : some e = some row := he.symm.trans hrow
      cases heq
      obtain ⟨r', hr', hsku⟩ : ∃ row' ∈ rows, insertSkus rows s.sku r.1 = row'.2.sku :=
        insertSkus_new hr rfl
      refine ⟨hact, ?_⟩
      change insertSkus rows s.sku r.1 ∉ retiredSkus
      rw [hsku]
      exact catalog_not_retired _ (hcat r' hr')
    · have hsame := hold p fun r hr he => hin ⟨r, hr, he⟩
      have hsome : productRow s.cart.world.db p = some row := hsame.symm.trans hrow
      cases hnone.symm.trans hsome

theorem seedProducts_hoare :
    Hoare (seedLogic s₀) t k (Bystander t) seedProducts (fun _ => Bystander t) fun _ _ => True := by
  refine hoare_bind (Q := fun _ => Bystander t) (hoare_seedSql bystander_stable ?_) fun existing => ?_
  · intro s ch r s' hi hb hrun
    cases hrun
    exact ⟨hi, .refl, fun _ _ h => h, fun _ _ => hb⟩
  · refine hoare_ite (fun _ => hoare_pure fun s h => h) fun _ => ?_
    refine hoare_seedSql bystander_stable ?_
    intro s ch r s' hi hb hrun
    split at hrun
    · cases hrun
      exact ⟨hi, .refl, fun _ _ h => h, nofun⟩
    · split at hrun
      · obtain ⟨db, hins, he⟩ := Option.map_eq_some_iff.mp hrun
        cases he
        obtain ⟨honly, hev, hsame⟩ := insert_evolves hi (fun row hrow =>
          (List.mem_filter.mp (List.of_mem_zip hrow).2).1) hins
        have hi' := hi.product_step (insertSkus _ s.sku) s.unswept rfl honly hev
          (Or.inl ⟨hsame, rfl⟩)
        exact ⟨hi', hev, fun _ _ h => h, fun _ _ => hb⟩
      · cases hrun

/-- The `UPDATE` leaves nothing to retire, and counts nothing when there was nothing. -/
theorem deactivate_evolves {n : Nat} {db : Db} (hi : SeedInv s₀ s)
    (hrun : deactivateRows t s.sku s.products s.cart.world.db = some (n, db)) :
    OnlyProducts s.cart.world.db db ∧ Evolves s (s.withDb db) ∧ AllRetired (s.withDb db) ∧
      (n = 0 → ∀ p, productRow db p = s.product p) ∧ (n ≠ 0 → s.RetiresSome) := by
  obtain ⟨honly, hrows, hcount⟩ := deactivateRows_spec hi.quiet hrun
  have hrow (p : ProductId) : productRow db p =
      if s.sku p ∈ retiredSkus then (s.product p).map switchOff else s.product p := by
    rw [hrows p]
    by_cases hp : s.product p = none
    · rw [show productRow s.cart.world.db p = none from hp, hp]
      simp
    · simp only [mem_products.mpr hp, true_and]
      rfl
  refine ⟨honly, ⟨?_, ?_, fun _ h => h⟩, ?_, ?_, ?_⟩
  · intro p row hp
    refine ⟨rfl, ?_⟩
    by_cases hret : s.sku p ∈ retiredSkus
    · refine ⟨switchOff row, ?_, Or.inr ⟨hret, rfl⟩⟩
      exact (hrow p).trans (by rw [if_pos hret, hp]; rfl)
    · exact ⟨row, (hrow p).trans (by rw [if_neg hret, hp]), Or.inl rfl⟩
  · intro p row hnone hp
    have hp' := (hrow p).symm.trans hp
    rw [hnone] at hp'
    split at hp' <;> cases hp'
  · rintro ⟨p, hret, row, hp, hact⟩
    have hp' := (hrow p).symm.trans hp
    rw [if_pos (by exact hret)] at hp'
    obtain ⟨row', -, rfl⟩ := Option.map_eq_some_iff.mp hp'
    cases hact
  · intro hn p
    rw [hrow p]
    split
    · next hret =>
      cases hp : s.product p with
      | none => rfl
      | some row =>
        have hnot := hcount.mp hn p (mem_products.mpr (by simp [hp]))
        have hoff : row.active = false := by
          by_contra hact
          exact hnot ⟨hret, row, hp, by simpa using hact⟩
        simp [switchOff, ← hoff]
    · rfl
  · intro hn
    by_contra hnot
    exact hn (hcount.mpr fun p _ hsale => hnot ⟨p, hsale⟩)

theorem deactivateRetired_hoare :
    Hoare (seedLogic s₀) t k (Bystander t) deactivateRetired
      (fun n s => (n = 0 → Bystander t s) ∧ (n ≠ 0 → s₀.RetiresSome) ∧ AllRetired s)
      fun _ _ => True := by
  refine hoare_seedSql bystander_stable ?_
  intro s ch r s' hi hb hrun
  obtain ⟨⟨n, db⟩, hup, he⟩ := Option.map_eq_some_iff.mp hrun
  cases he
  obtain ⟨honly, hev, hall, hsame, hsome⟩ := deactivate_evolves hi hup
  dsimp only
  by_cases hn : n = 0
  · rw [if_pos hn]
    have hi' := hi.product_step s.sku s.unswept rfl honly
      ⟨hev.kept, hev.added, hev.carts⟩ (Or.inl ⟨fun p _ => hsame hn p, rfl⟩)
    refine ⟨hi', ⟨hev.kept, hev.added, hev.carts⟩, fun _ _ h => h, fun a ha => ?_⟩
    cases ha
    exact ⟨fun _ => hb, fun hne => absurd hn hne, hall⟩
  · rw [if_neg hn]
    have hi' := hi.product_step s.sku (s.unswept ++ [t]) rfl honly
      ⟨hev.kept, hev.added, hev.carts⟩ (Or.inr ⟨by simp, hsome hn⟩)
    refine ⟨hi', ⟨hev.kept, hev.added, hev.carts⟩, fun t' hne h => ?_, fun a ha => ?_⟩
    · simp [h, hne]
    · cases ha
      refine ⟨fun h => absurd h hn, fun _ => ?_, hall⟩
      by_contra hnot
      exact hi.evolved.allRetired hnot (hsome hn)

/-- The `DELETE` takes every line of an inactive product out of the open carts. -/
theorem SeedInv.swept (hi : SeedInv s₀ s) (hsome : s₀.RetiresSome)
    (hs' : s' = { s with
      cart := { s.cart with
        cartItems := fun cartId => (s.cart.cartItems cartId).filter fun item => !s.retires cartId item }
      unswept := []
      swept := some s.cart.deeds.length }) : SeedInv s₀ s' ∧ Evolves s s' := by
  have hsub {cartId : Uuid} {p : ProductId} (hp : p ∈ (s'.cart.cartItems cartId).map (·.productId)) :
      p ∈ (s.cart.cartItems cartId).map (·.productId) := by
    rw [hs'] at hp
    obtain ⟨item, hitem, he⟩ := List.mem_map.mp hp
    exact List.mem_map.mpr ⟨item, (List.mem_filter.mp hitem).1, he⟩
  have hev : Evolves s s' := by
    rw [hs']
    exact ⟨fun p row h => ⟨rfl, row, h, Or.inl rfl⟩, fun p row h h' => (nomatch h.symm.trans h'),
      fun _ h => h⟩
  have hlines : s'.linesSet = [] := by simp [hs', SeedWorld.linesSet]
  refine ⟨⟨?_, ?_, ?_, ?_, ?_, ?_, ?_, hi.evolved.trans hev, ?_, ?_, ?_, ?_⟩, hev⟩
  · rw [hs']
    exact hi.quiet
  · rw [hs']
    exact hi.ids
  · intro cartId hne
    have hne' : s.cart.cartItems cartId ≠ [] := by
      intro hnil
      exact hne (by simp [hs', hnil])
    rw [hs']
    exact hi.owned cartId hne'
  · intro cartId p hp
    rw [hs']
    exact hi.known cartId p (hsub hp)
  · simp [hs']
  · rw [hs']
    exact hi.orders
  · refine Eq.trans ?_ hi.history
    rw [hs']
    apply List.map_congr_left
    intro cart hcart
    obtain ⟨hmem, hclosed⟩ := List.mem_filter.mp hcart
    refine congrArg (Prod.mk cart) (List.filter_eq_self.mpr fun item _ => ?_)
    have hnot : ¬s.Open cart.id := by
      intro hopen
      simp [open_unique hi hmem hopen] at hclosed
    have hany : (s.cart.carts.any fun c => c.id == cart.id && c.checkedOutAt.isNone) = false := by
      apply List.any_eq_false.mpr
      intro c hc he
      exact hnot ⟨c, hc, by simpa using he⟩
    simp [SeedWorld.retires, hany]
  · intro p _ _
    simp [hs']
  · rintro cartId p ⟨⟨ho, hp⟩, row, hrow, hoff⟩
    exfalso
    rw [hs'] at ho hp hrow
    obtain ⟨item, hitem, rfl⟩ := List.mem_map.mp hp
    have hnot := (List.mem_filter.mp hitem).2
    have hopen : (s.cart.carts.any fun c => c.id == cartId && c.checkedOutAt.isNone) = true := by
      obtain ⟨c, hc, he⟩ := ho
      exact List.any_eq_true.mpr ⟨c, hc, by simpa using he⟩
    have hprod : s.product item.productId = some row := hrow
    simp [SeedWorld.retires, hopen, hprod, hoff] at hnot
  · rw [hlines]
    simp
  · intro hnot
    exact absurd hsome hnot

theorem allRetired_stable : (seedLogic s₀).Stable t AllRetired :=
  stable_of_evolves fun _ _ hev _ h => hev.allRetired h

theorem deleteRetiredLines_hoare (hsome : s₀.RetiresSome) :
    Hoare (seedLogic s₀) t k AllRetired deleteRetiredLines
      (fun _ s => Bystander t s ∧ AllRetired s) fun _ _ => True := by
  refine hoare_seedSql allRetired_stable ?_
  intro s ch r s' hi hall hrun
  cases hrun
  obtain ⟨hi', hev⟩ := hi.swept hsome rfl
  exact ⟨hi', hev, fun _ _ _ => by simp, fun _ _ => ⟨by simp [Bystander], hev.allRetired hall⟩⟩

theorem onApplicationBootstrap_hoare {B : Bcrypt} {C : Crypto} {email password : Option String} :
    Hoare (seedLogic s₀) t k (Bystander t) (onApplicationBootstrap B C email password)
      (fun _ s => Bystander t s ∧ AllRetired s) fun _ _ => True := by
  refine hoare_bind (Q := fun _ => Bystander t) ?_ fun _ => ?_
  · exact hoare_conseq seedAdminUser_hoare (fun s h => h) (fun _ s h => h) fun _ _ _ => trivial
  · refine hoare_bind seedProducts_hoare fun _ => ?_
    refine hoare_bind deactivateRetired_hoare fun retired => ?_
    refine hoare_ite (fun hz => hoare_pure fun s h => ⟨h.1 hz, h.2.2⟩) fun hz => ?_
    intro s h
    exact deleteRetiredLines_hoare (h.2.1 hz) s h.2.2

/-- What is left to do when a call has ended: nothing, but for a boot that failed. -/
def seedPost (t : Tid) (k : SeedCall) (r : Except AppError SeedReply) (s : SeedWorld) : Prop :=
  match k, r with
  | .onApplicationBootstrap _ _, .ok _ => Bystander t s ∧ AllRetired s
  | .onApplicationBootstrap _ _, .error _ => True
  | .setItem _ _ _, _ => Bystander t s

theorem seed_verified (B : Bcrypt) (C : Crypto) (s₀ : SeedWorld) :
    Verified (seedSystem B C) (seedLogic s₀) Bystander seedPost where
  idle_stable _ := bystander_stable
  post_stable t k r := by
    cases k with
    | onApplicationBootstrap email password =>
      cases r with
      | ok reply => exact bystander_stable.and allRetired_stable
      | error e => exact .true
    | setItem userId p n => exact bystander_stable
  body t k s _ hb _ := by
    cases k with
    | onApplicationBootstrap email password =>
      have h : Hoare (seedLogic s₀) t (.onApplicationBootstrap email password) (Bystander t)
          (serveSeed B C (.onApplicationBootstrap email password))
          (fun _ s => Bystander t s ∧ AllRetired s) fun _ _ => True :=
        hoare_bind onApplicationBootstrap_hoare fun _ => hoare_pure fun s h => h
      refine wp_mono ?_ (h s hb)
      intro r s' hr
      cases r <;> exact hr
    | setItem userId p n =>
      have h : Hoare (seedLogic s₀) t (.setItem userId p n) (Bystander t)
          (serveSeed B C (.setItem userId p n)) (fun _ => Bystander t) fun _ => Bystander t :=
        hoare_bind setItem_hoare fun _ => hoare_pure fun s h => h
      refine wp_mono ?_ (h s hb)
      intro r s' hr
      cases r <;> exact hr
  env e := nomatch e
  crash _ _ _ hi := ⟨hi, .refl, fun _ _ h => h⟩

/-! ### Boots and calls that have completed -/

/-- No open cart has a line for an inactive product; the orders and the carts that are checked out are
as they were. -/
structure Converged (s₀ s : SeedWorld) : Prop where
  clean : ∀ cartId p, ¬s.Stale cartId p
  orders : ∀ o, s.cart.world.order o = s₀.cart.world.order o
  history : s.history = s₀.history

variable {B : Bcrypt} {C : Crypto} {c : Config SeedWorld SeedChoice SeedCall (Except AppError SeedReply)}

/-- All calls have completed, the boots without an error. -/
def Completed (c : Config SeedWorld SeedChoice SeedCall (Except AppError SeedReply)) : Prop :=
  ∀ t k th, c.threads t = some (k, th) → ∃ r, th = .running (.ret r) ∧
    ∀ email password, k = .onApplicationBootstrap email password → r = .ok .booted

theorem unswept_nil (h : Sound (seedLogic s₀) Bystander seedPost c) (hdone : Completed c) :
    c.shared.unswept = [] := by
  apply List.eq_nil_iff_forall_not_mem.mpr
  intro t ht
  cases hth : c.threads t with
  | none => exact h.fresh t hth ht
  | some kth =>
    obtain ⟨k, th⟩ := kth
    obtain ⟨r, rfl, hr⟩ := hdone t k th hth
    have hpost := h.result hth
    cases k with
    | onApplicationBootstrap email password =>
      rw [hr email password rfl] at hpost
      exact hpost.1 ht
    | setItem userId p n => exact hpost ht

theorem converged_iff {email password : Option String} (h : Sound (seedLogic s₀) Bystander seedPost c)
    (hdone : Completed c)
    (hboot : c.threads t = some (.onApplicationBootstrap email password, .running (.ret (.ok .booted)))) :
    Converged s₀ c.shared ↔ (s₀.RetiresSome ∨ ∀ cartId p, ¬s₀.Stale cartId p) ∧
      ∀ p ∈ c.shared.linesSet, c.shared.sku p ∉ retiredSkus := by
  have hi : SeedInv s₀ c.shared := h.inv
  have hall : AllRetired c.shared := (h.result hboot).2
  have hunswept := unswept_nil h hdone
  constructor
  · intro hconv
    constructor
    · by_contra hnot
      obtain ⟨hnone, hstale⟩ := not_or.mp hnot
      apply hstale
      intro cartId p hs
      exact hconv.clean cartId p ((hi.untouched hnone).2 cartId p hs)
    · intro p hp hret
      obtain ⟨cartId, hl⟩ := hi.present p hp
      obtain ⟨row, hrow⟩ := Option.ne_none_iff_exists'.mp (hi.known cartId p hl.2)
      have hoff : row.active = false := by
        by_contra hact
        exact hall ⟨p, hret, row, hrow, by simpa using hact⟩
      exact hconv.clean cartId p ⟨hl, row, hrow, hoff⟩
  · rintro ⟨hstart, hlate⟩
    refine ⟨fun cartId p hs => ?_, hi.orders, hi.history⟩
    obtain ⟨hset, hret⟩ | hun | ⟨hnone, hs₀⟩ := hi.stale cartId p hs
    · exact hlate p hset hret
    · exact hun hunswept
    · obtain ⟨q, hq⟩ | hclean := hstart
      · obtain hswept | hun := hi.marked q hq fun hq' => hall ⟨q, hq'⟩
        · exact hswept hnone
        · exact hun hunswept
      · exact hclean cartId p hs₀

theorem seed_sound (h₀ : Start s₀) {ls : List (Label SeedChoice SeedCall Empty)}
    (hrun : (seedSystem B C).run (.init s₀) ls = some c) :
    Sound (seedLogic s₀) Bystander seedPost c := by
  have hinit : Sound (κ := SeedCall) (χ := SeedChoice) (seedLogic s₀) Bystander seedPost
      (.init s₀) :=
    Sound.init h₀.inv fun t => by simp [Bystander, h₀.unswept]
  exact Sound.run (seed_verified B C s₀) (fun l _ => by cases l <;> trivial) hrun hinit

/-- When boots and calls of `setItem` have completed, the open carts are clean if and only if a product
to retire was on sale at the start, or no cart was left with a line for an inactive one, and no line
for a product to retire was set after the boots' `DELETE`. -/
theorem boot_cleans_open_carts_iff (B : Bcrypt) (C : Crypto) (s₀ : SeedWorld) (h₀ : Start s₀)
    (ls : List (Label SeedChoice SeedCall Empty))
    (c : Config SeedWorld SeedChoice SeedCall (Except AppError SeedReply))
    (hrun : (seedSystem B C).run (.init s₀) ls = some c) (hdone : Completed c) (t : Tid)
    (email password : Option String)
    (hboot : c.threads t = some (.onApplicationBootstrap email password, .running (.ret (.ok .booted)))) :
    Converged s₀ c.shared ↔ (s₀.RetiresSome ∨ ∀ cartId p, ¬s₀.Stale cartId p) ∧
      ∀ p ∈ c.shared.linesSet, c.shared.sku p ∉ retiredSkus :=
  converged_iff (seed_sound h₀ hrun) hdone hboot

/-! ### One boot -/

/-- A shop with one old product, in the open cart of user 1, and with its admin. -/
def widgetShop (active : Bool) : SeedWorld where
  cart :=
    { world :=
        { db := .ofRows [.product 0]
            (fun
              | .product 0 => some (⟨"Widget", 5, active⟩ : ProductEntity)
              | _ => none)
            (by simp)
            (by
              intro key h
              split at h
              · simp
              · exact absurd rfl h)
          cacheEnabled := false
          cache := ⟨fun _ => none, fun _ => none⟩
          messages := []
          gateway := []
          metrics := [] }
      carts := [⟨0, 1, none⟩]
      cartItems := fun cartId => if cartId = 0 then [⟨0, 0, 2⟩] else []
      deeds := [] }
  auth :=
    { users := [⟨0, "admin@example.com", "hash", .admin, false⟩]
      tokens := []
      families := []
      revocations := []
      calls := fun _ => .start }
  sku := fun _ => "WIDGET-001"
  unswept := []
  swept := none

theorem widgetShop_start (active : Bool) : Start (widgetShop active) where
  quiet _ := rfl
  ids := List.nodup_singleton 0
  owned cartId h := by
    by_cases e : cartId = 0
    · simp [widgetShop, e]
    · simp [widgetShop, e] at h
  known cartId p h := by
    by_cases e : cartId = 0
    · have hp : p = 0 := by simpa [widgetShop, e] using h
      rw [hp]
      exact Option.some_ne_none (⟨"Widget", 5, active⟩ : ProductEntity)
    · simp [widgetShop, e] at h
  deeds := rfl
  unswept := rfl
  swept := rfl

/-- A boot of `n` statements; the admin is there, the catalog is not. -/
def bootLabels (n : Nat) : List (Label SeedChoice SeedCall Empty) :=
  .start 0 (.onApplicationBootstrap none none) ::
    List.replicate n (.step 0 { ids := (List.range 18).map (· + 1) })

abbrev SeedConfig := Config SeedWorld SeedChoice SeedCall (Except AppError SeedReply)

def booted (c : SeedConfig) : Bool :=
  match c.threads 0 with
  | some (.onApplicationBootstrap none none, .running (.ret (.ok .booted))) => true
  | _ => false

theorem boot_completed {n : Nat} {s : SeedWorld} {c : SeedConfig}
    (hrun : (seedSystem B C).run (.init s) (bootLabels n) = some c) (h : booted c = true) :
    c.threads 0 = some (.onApplicationBootstrap none none, .running (.ret (.ok .booted))) ∧
      Completed c := by
  have hboot : c.threads 0 =
      some (.onApplicationBootstrap none none, .running (.ret (.ok .booted))) := by
    unfold booted at h
    split at h
    · assumption
    · cases h
  refine ⟨hboot, fun t k th hth => ?_⟩
  by_cases e : t = 0
  · rw [e, hboot] at hth
    cases hth
    exact ⟨_, rfl, fun _ _ _ => rfl⟩
  · have hnone : c.threads t = none := by
      refine (seedSystem B C).run_thread_none ?_ hrun rfl
      intro k' hm
      obtain hm | hm := List.mem_cons.mp hm
      · cases hm
        exact e rfl
      · cases List.eq_of_mem_replicate hm
    rw [hnone] at hth
    cases hth

/-- The boot retires the product and empties the cart. -/
theorem boot_cleans_open_carts_widget : ∃ c : SeedConfig,
    (seedSystem plainBcrypt plainCrypto).run (.init (widgetShop true)) (bootLabels 5) = some c ∧
      Converged (widgetShop true) c.shared := by
  have hout : ((seedSystem plainBcrypt plainCrypto).run (.init (widgetShop true)) (bootLabels 5)).map
      (fun c => (booted c, c.shared.linesSet)) = some (true, []) := by decide +kernel
  obtain ⟨c, hrun, he⟩ := Option.map_eq_some_iff.mp hout
  obtain ⟨hbooted, hlines⟩ := Prod.mk.inj he
  obtain ⟨hboot, hdone⟩ := boot_completed hrun hbooted
  refine ⟨c, hrun, (boot_cleans_open_carts_iff _ _ _ (widgetShop_start true) _ c hrun hdone 0 none none
    hboot).mpr ⟨Or.inl ⟨0, by decide, _, rfl, rfl⟩, ?_⟩⟩
  rw [hlines]
  simp

/-- The shop that a boot leaves which stops between its `UPDATE` and its `DELETE`. -/
theorem not_boot_cleans_open_carts : ¬∀ (c : SeedConfig),
    (seedSystem plainBcrypt plainCrypto).run (.init (widgetShop false)) (bootLabels 4) = some c →
      Completed c → Converged (widgetShop false) c.shared := by
  intro hall
  have hout : ((seedSystem plainBcrypt plainCrypto).run (.init (widgetShop false)) (bootLabels 4)).map
      booted = some true := by decide +kernel
  obtain ⟨c, hrun, hbooted⟩ := Option.map_eq_some_iff.mp hout
  obtain ⟨hboot, hdone⟩ := boot_completed hrun hbooted
  have hsound := seed_sound (widgetShop_start false) hrun
  obtain ⟨hstart, -⟩ := (converged_iff hsound hdone hboot).mp (hall c hrun hdone)
  obtain ⟨p, -, row, hrow, hact⟩ | hclean := hstart
  · cases p with
    | zero =>
      cases hrow
      cases hact
    | succ n => cases hrow
  · exact hclean 0 0 ⟨⟨⟨⟨0, 1, none⟩, by simp [widgetShop], rfl, rfl⟩, by simp [widgetShop]⟩, _, rfl, rfl⟩

end OrderLifecycle.Seed

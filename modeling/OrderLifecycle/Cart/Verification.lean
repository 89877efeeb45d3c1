import OrderLifecycle.Cart.Steps
import OrderLifecycle.Consumers

open Framework

namespace OrderLifecycle.Cart

/-- What the cart calls promise each other; without `faults` no statement fails. -/
def cartLogic (faults : Bool) : Logic CartWorld Choice CartCall where
  inv := CartInv
  guar := Moves
  envGuar _ _ := False
  choice ch := ch.fail = true → faults = true

variable {faults : Bool} {s s' : CartWorld} {t : Tid} {k : CartCall} {α β : Type}
  {userId : UserId}

theorem stable_of_moves {P : CartWorld → Prop}
    (h : ∀ s s' t' k, t ≠ t' → Moves t' k s s' → P s → P s') : (cartLogic faults).Stable t P := by
  rintro s s' ⟨-, -, ⟨t', k, hne, hm⟩ | hf⟩ hp
  · exact h s s' t' k (Ne.symm hne) hm hp
  · exact hf.elim

theorem lasting_of_moves {P : CartWorld → Prop} (h : ∀ s s' t k, Moves t k s s' → P s → P s') :
    (cartLogic faults).Lasting P := by
  rintro s s' - - (⟨t, k, hm⟩ | hf) hp
  · exact h s s' t k hm hp
  · exact hf.elim

/-! ### Assertions -/

/-- No transaction, and no cart claimed. -/
structure Browsing (t : Tid) (s : CartWorld) : Prop where
  idle : s.world.db.txns t = none
  own : ∀ d ∈ s.own t, d.Browses

/-- The cart that `getOpenCart` has returned: its lines are those that the call read last. -/
structure Found (t : Tid) (userId : UserId) (cart : LoadedCart) (s : CartWorld) : Prop where
  browsing : Browsing t s
  owner : s.Owner cart.cart.id userId
  read : cart.items ≠ [] → ∃ l, s.own t = l ++ [.saw cart.cart.id (cart.items.map (·.item))]
  nodup : ((cart.items.map (·.item)).map (·.productId)).Nodup
  loaded : ∀ item ∈ cart.items, item.product ≠ none

/-- The call has claimed the cart in which it had read the lines `seen`. -/
structure Claimed (t : Tid) (cartId : Uuid) (seen : List CartItemEntity) (s : CartWorld) : Prop where
  nonempty : seen ≠ []
  nodup : (seen.map (·.productId)).Nodup
  own : ∃ l items, (∀ d ∈ l, d.Browses) ∧ s.own t = l ++ [.saw cartId seen, .claimed cartId items]

/-- The transaction of `createOrder` so far: one new order. -/
structure Draft (o : OrderId) (row : OrderEntity) (tx : Txn Row (Tid × Deed)) : Prop where
  clean : tx.aborted = false
  order : tx.writes (.order o) = some (some row)
  rest : ∀ key, key ≠ .order o → (∀ id, key ≠ .outbox id) → tx.writes key = none

structure Drafted (t : Tid) (cartId : Uuid) (seen : List CartItemEntity) (o : OrderId)
    (row : OrderEntity) (s : CartWorld) : Prop where
  claimed : Claimed t cartId seen s
  txn : ∃ tx, s.world.db.txns t = some tx ∧ Draft o row tx
  new : s.world.order o = none

/-- The call has placed its order. -/
def Placed (t : Tid) (order : OrderEntity) (s : CartWorld) : Prop :=
  s.world.order order.id = some order ∧ ∃ l cartId seen items, (∀ d ∈ l, d.Browses) ∧
    s.own t = l ++ [.saw cartId seen, .claimed cartId items, .placed order.id]

/-- The call has set the line of `p`. -/
def Wrote (t : Tid) (userId : UserId) (p : ProductId) (quantity : Option Nat) (s : CartWorld) : Prop :=
  ∃ cartId found, (t, .wrote cartId p found quantity) ∈ s.deeds ∧ s.Owner cartId userId

theorem Moves.browsing {t' : Tid} (h : Moves t' k s s') (hne : t ≠ t') (hb : Browsing t s) :
    Browsing t s' :=
  ⟨(h.frame.txns t hne).trans hb.idle, (h.own hne).symm ▸ hb.own⟩

theorem Moves.claimed {t' : Tid} {cartId : Uuid} {seen : List CartItemEntity}
    (h : Moves t' k s s') (hne : t ≠ t') (hc : Claimed t cartId seen s) : Claimed t cartId seen s' :=
  ⟨hc.nonempty, hc.nodup, (h.own hne).symm ▸ hc.own⟩

theorem browsing_stable : (cartLogic faults).Stable t (Browsing t) := by
  apply stable_of_moves
  intro s s' t' k hne hm hb
  exact hm.browsing hne hb

theorem found_stable {cart : LoadedCart} : (cartLogic faults).Stable t (Found t userId cart) := by
  apply stable_of_moves
  intro s s' t' k hne hm h
  exact ⟨hm.browsing hne h.browsing, hm.owner h.owner, (hm.own hne).symm ▸ h.read, h.nodup, h.loaded⟩

theorem claimed_stable {cartId : Uuid} {seen : List CartItemEntity} :
    (cartLogic faults).Stable t (Claimed t cartId seen) := by
  apply stable_of_moves
  intro s s' t' k hne hm h
  exact hm.claimed hne h

theorem idle_stable : (cartLogic faults).Stable t fun s => s.world.db.txns t = none := by
  apply stable_of_moves
  intro s s' t' k hne hm h
  exact (hm.frame.txns t hne).trans h

theorem drafted_stable {cartId : Uuid} {seen : List CartItemEntity} {o : OrderId}
    {row : OrderEntity} : (cartLogic faults).Stable t (Drafted t cartId seen o row) := by
  apply stable_of_moves
  intro s s' t' k hne hm h
  obtain ⟨tx, htx, hd⟩ := h.txn
  refine ⟨hm.claimed hne h.claimed, ⟨tx, (hm.frame.txns t hne).trans htx, hd⟩, ?_⟩
  have hw : tx.writes (.order o) ≠ none := fun he => nomatch hd.order.symm.trans he
  exact (hm.frame.rows_of_write hne htx hw).trans h.new

theorem placed_stable {order : OrderEntity} : (cartLogic faults).Stable t (Placed t order) := by
  apply stable_of_moves
  intro s s' t' k hne hm h
  exact ⟨hm.orders _ _ h.1, (hm.own hne).symm ▸ h.2⟩

theorem wrote_lasting {p : ProductId} {quantity : Option Nat} :
    (cartLogic faults).Lasting (Wrote t userId p quantity) := by
  apply lasting_of_moves
  rintro s s' t' k hm ⟨cartId, found, hw, ho⟩
  obtain ⟨ds, hd, -⟩ := hm.deeds
  exact ⟨cartId, found, hd ▸ List.mem_append_left _ hw, hm.owner ho⟩

/-! ### Statements on the cart tables -/

theorem Moves.refl : Moves t k s s :=
  ⟨.refl, ⟨[], by simp⟩, fun cart hc => ⟨cart, hc, rfl, rfl, fun _ => rfl⟩, fun _ _ h => h⟩

theorem hoare_cartSql {P : CartWorld → Prop} {R : α → CartWorld → Prop}
    {E : AppError → CartWorld → Prop}
    {f : Tid → Choice → CartWorld → Option (Except AppError α × CartWorld)}
    (hP : (cartLogic faults).Stable t P) (hE : ∀ s, P s → faults = true → E .database s)
    (hf : ∀ s ch r s', CartInv s → P s → f t ch s = some (r, s') → CartInv s' ∧ Moves t k s s' ∧
      match r with | .ok a => R a s' | .error e => E e s') :
    Hoare (cartLogic faults) t k P (cartSql f) R E := by
  apply hoare_stmt hP
  intro s ch r s' hi hc hp hs
  split at hs
  · next hfail =>
    cases hs
    exact ⟨hi, .refl, hE s hp (hc hfail)⟩
  · cases r with
    | ok a => exact hf s ch _ s' hi hp hs
    | error e => exact hf s ch _ s' hi hp hs

theorem hoare_findOpenCart :
    Hoare (cartLogic faults) t k (Browsing t) (findOpenCart userId)
      (fun r s => match r with
        | none => Browsing t s
        | some cart => Found t userId cart s)
      fun _ => Browsing t := by
  apply hoare_cartSql browsing_stable fun _ hb _ => hb
  intro s ch r s' hi hb hf
  cases ho : s.openCart userId with
  | none =>
    simp only [ho] at hf
    cases hf
    exact ⟨hi, .refl, hb⟩
  | some cart =>
    simp only [ho] at hf
    cases hf
    obtain ⟨hc, hu, -⟩ := openCart_some ho
    obtain ⟨hinv, hm⟩ := look_step (k := k) hi hb.own cart.id
    have hown := own_note (s := s) (t := t) (d := .saw cart.id (s.cartItems cart.id))
    have hmap : ((s.cartItems cart.id).map fun item =>
        (⟨item, s.world.product item.productId⟩ : LoadedItem)).map (·.item) =
          s.cartItems cart.id := by
      rw [List.map_map]
      exact List.map_id _
    refine ⟨hinv, hm, ⟨hb.idle, ?_⟩, ⟨cart, hc, rfl, hu⟩, ?_, ?_, ?_⟩
    · intro d hd
      rw [hown] at hd
      rcases List.mem_append.mp hd with hd | hd
      · exact hb.own d hd
      · rw [List.mem_singleton.mp hd]
        trivial
    · intro _
      exact ⟨s.own t, by rw [hown, hmap]⟩
    · rw [hmap]
      exact hi.lines cart.id
    · intro item hm
      obtain ⟨item', hm', rfl⟩ := List.mem_map.mp hm
      exact hi.known cart.id item' hm'

theorem hoare_saveCart :
    Hoare (cartLogic faults) t k (Browsing t) (saveCart userId)
      (fun cart => Found t userId ⟨cart, []⟩) fun _ => Browsing t := by
  apply hoare_cartSql browsing_stable fun _ hb _ => hb
  intro s ch r s' hi hb hf
  split at hf
  · cases hf
    exact ⟨hi, .refl, hb⟩
  · next hn =>
    split at hf
    · cases hf
    · next hid =>
      cases hf
      have hfree : ∀ cart ∈ s.carts, cart.id ≠ ch.fresh := by
        intro cart hc he
        exact hid (List.any_eq_true.mpr ⟨cart, hc, by simp [he]⟩)
      obtain ⟨hinv, hm⟩ := open_step (t := t) (k := k) hi (by simpa using hn) hfree
      refine ⟨hinv, hm, ⟨hb.idle, hb.own⟩, ⟨_, List.mem_append_right _ (List.mem_singleton.mpr rfl), rfl, rfl⟩,
        fun h => absurd rfl h, .nil, nofun⟩

theorem hoare_getOpenCart :
    Hoare (cartLogic faults) t k (Browsing t) (getOpenCart userId)
      (fun cart => Found t userId cart) fun _ => Browsing t := by
  apply hoare_bind hoare_findOpenCart
  intro existing
  cases existing with
  | some cart => exact hoare_pure fun _ h => h
  | none =>
    apply hoare_tryCatch (E := fun _ => Browsing t)
    · apply hoare_bind hoare_saveCart
      intro created
      exact hoare_pure fun _ h => h
    · intro error
      apply hoare_ite
      · intro _
        apply hoare_bind hoare_findOpenCart
        intro winner
        cases winner with
        | some cart => exact hoare_pure fun _ h => h
        | none => exact hoare_throw fun _ h => h
      · intro _
        exact hoare_throw fun _ h => h

theorem browsing_write {cartId : Uuid} {its : List CartItemEntity} {p : ProductId}
    {found quantity : Option Nat} (hb : Browsing t s) :
    Browsing t ((s.writeItems cartId its).note t (.wrote cartId p found quantity)) := by
  refine ⟨hb.idle, ?_⟩
  intro d hd
  rw [own_note] at hd
  rcases List.mem_append.mp hd with hd | hd
  · exact hb.own d hd
  · rw [List.mem_singleton.mp hd]
    trivial

theorem hoare_setItem {p : ProductId} {quantity : Nat} :
    Hoare (cartLogic faults) t k (Browsing t) (setItem userId p quantity)
      (fun _ => Wrote t userId p (some quantity)) fun _ => Browsing t := by
  apply hoare_bind hoare_getOpenCart
  intro cart
  apply hoare_bind (Q := fun product s => (product = none ∨ s.world.product p ≠ none) ∧
    Found t userId cart s)
  · apply hoare_cartSql found_stable fun _ h _ => h.browsing
    intro s ch r s' hi h hf
    cases hf
    refine ⟨hi, .refl, ?_, h⟩
    cases s.world.product p with
    | none => exact .inl rfl
    | some row => exact .inr (Option.some_ne_none row)
  · intro product
    cases product with
    | none => exact hoare_throw fun _ h => h.2.browsing
    | some row =>
      have hwrite : Hoare (cartLogic faults) t k (Found t userId cart)
          (upsertItem cart.cart.id p quantity)
          (fun _ s => Browsing t s ∧ Wrote t userId p (some quantity) s) fun _ => Browsing t := by
        apply hoare_cartSql found_stable fun _ h _ => h.browsing
        intro s ch r s' hi h hf
        split at hf
        · next hfk =>
          cases hf
          simp only [Bool.and_eq_true, Option.isSome_iff_ne_none] at hfk
          obtain ⟨hinv, hm⟩ := upsert_step (k := k) hi h.browsing.own cart.cart.id hfk.2 quantity
          refine ⟨hinv, hm, browsing_write h.browsing, cart.cart.id,
            lineOf (s.cartItems cart.cart.id) p, ?_, h.owner⟩
          exact List.mem_append_right _ (List.mem_singleton.mpr rfl)
        · cases hf
          exact ⟨hi, .refl, h.browsing⟩
      apply hoare_bind (hoare_pre (fun _ h => h.2) hwrite)
      intro _
      apply hoare_conseq (hoare_frame wrote_lasting hoare_getOpenCart)
      · exact fun _ h => h
      · exact fun _ _ h => h.2
      · exact fun _ _ h => h.1

theorem hoare_removeItem {p : ProductId} :
    Hoare (cartLogic faults) t k (Browsing t) (removeItem userId p)
      (fun _ => Wrote t userId p none) fun _ => Browsing t := by
  apply hoare_bind hoare_getOpenCart
  intro cart
  apply hoare_bind (Q := fun _ s => Browsing t s ∧ Wrote t userId p none s)
  · apply hoare_cartSql found_stable fun _ h _ => h.browsing
    intro s ch r s' hi h hf
    cases hf
    obtain ⟨hinv, hm⟩ := delete_step (k := k) hi h.browsing.own cart.cart.id p
    refine ⟨hinv, hm, browsing_write h.browsing, cart.cart.id, lineOf (s.cartItems cart.cart.id) p, ?_,
      h.owner⟩
    exact List.mem_append_right _ (List.mem_singleton.mpr rfl)
  · intro _
    apply hoare_conseq (hoare_frame wrote_lasting hoare_getOpenCart)
    · exact fun _ h => h
    · exact fun _ _ h => h.2
    · exact fun _ _ h => h.1

/-- The claim: at most one call gets it. -/
theorem hoare_claimCart {cart : LoadedCart} (hne : cart.items ≠ []) :
    Hoare (cartLogic faults) t (.checkout userId) (Found t userId cart) (claimCart cart.cart.id)
      (fun n s => (n = 0 ∧ Browsing t s) ∨ (n ≠ 0 ∧ s.world.db.txns t = none ∧
        Claimed t cart.cart.id (cart.items.map (·.item)) s))
      fun _ => Browsing t := by
  apply hoare_cartSql found_stable fun _ h _ => h.browsing
  intro s ch r s' hi h hf
  split at hf
  · next hany =>
    cases hf
    obtain ⟨row, hrow, hopen⟩ := List.any_eq_true.mp hany
    simp only [Bool.and_eq_true, beq_iff_eq, Option.isNone_iff_eq_none] at hopen
    obtain ⟨hid, hopen⟩ := hopen
    obtain ⟨row', hrow', hid', hu⟩ := h.owner
    have he : row' = row := List.inj_on_of_nodup_map hi.ids hrow' hrow (hid'.trans hid.symm)
    subst he
    obtain ⟨l, hown⟩ := h.read hne
    have hl : ∀ d ∈ l, d.Browses := fun d hd =>
      h.browsing.own d (hown ▸ List.mem_append_left _ hd)
    have hseen : cart.items.map (·.item) ≠ [] := fun he => hne (List.map_eq_nil_iff.mp he)
    rw [← hid] at hown ⊢
    obtain ⟨hinv, hm⟩ := claim_step ch.now hi hl hown hseen h.nodup hrow hu hopen
    refine ⟨hinv, hm, .inr ⟨Nat.one_ne_zero, h.browsing.idle, hseen, h.nodup, l,
      s.cartItems row'.id, hl, ?_⟩⟩
    rw [own_note]
    change s.own t ++ _ = _
    rw [hown, List.append_assoc]
    rfl
  · cases hf
    exact ⟨hi, .refl, .inl ⟨rfl, h.browsing⟩⟩

/-! ### `createOrder` in the shop -/

/-- A statement of the orders service that commits nothing. -/
theorem hoare_quiet {P : CartWorld → Prop} {R : β → CartWorld → Prop} {E : AppError → CartWorld → Prop}
    {f : Stmt World Choice (Except AppError β)} (hP : (cartLogic faults).Stable t P)
    (hf : ∀ s ch r w, CartInv s → (ch.fail = true → faults = true) → P s →
      f t ch s.world = some (r, w) → Store.SameCommitted s.world.db w.db ∧
      Store.Frame t s.world.db w.db ∧
      ∀ s' : CartWorld, s'.world = w → s'.own t = s.own t →
        (match r with | .ok a => R a | .error e => E e) s') :
    Hoare (cartLogic faults) t k P (Action.zoom ordersPart (stmt f)) R E := by
  rw [Action.zoom_stmt]
  apply hoare_stmt hP
  intro s ch r s' hi hc hp hs
  obtain ⟨⟨r', w⟩, hfs, he⟩ := Option.map_eq_some_iff.mp hs
  cases he
  obtain ⟨hsame, hframe, hpost⟩ := hf s ch r' w hi hc hp hfs
  obtain ⟨hinv, hm, hown⟩ := quiet_step (k := k) hi hsame hframe
  refine ⟨hinv, hm, ?_⟩
  cases r' with
  | ok a => exact hpost _ rfl hown
  | error e => exact hpost _ rfl hown

theorem hoare_zoom_bind {P : CartWorld → Prop} {Q : α → CartWorld → Prop} {R : β → CartWorld → Prop}
    {E : AppError → CartWorld → Prop} {x : Service α} {f : α → Service β}
    (hx : Hoare (cartLogic faults) t k P (Action.zoom ordersPart x) Q E)
    (hf : ∀ a, Hoare (cartLogic faults) t k (Q a) (Action.zoom ordersPart (f a)) R E) :
    Hoare (cartLogic faults) t k P (Action.zoom ordersPart (x >>= f)) R E := by
  rw [Action.zoom_bind]
  exact hoare_bind hx hf

theorem hoare_zoom_pure {P : CartWorld → Prop} {Q : α → CartWorld → Prop}
    {E : AppError → CartWorld → Prop} {a : α} (h : ∀ s, P s → Q a s) :
    Hoare (cartLogic faults) t k P (Action.zoom ordersPart (pure a : Service α)) Q E :=
  hoare_pure h

theorem Claimed.of_own {cartId : Uuid} {seen : List CartItemEntity} (h : Claimed t cartId seen s)
    (hown : s'.own t = s.own t) : Claimed t cartId seen s' :=
  ⟨h.nonempty, h.nodup, hown ▸ h.own⟩

section createOrder

variable {cartId : Uuid} {seen : List CartItemEntity} {o : OrderId} {row : OrderEntity}

/-- An SQL statement of the transaction of `createOrder`. -/
theorem hoare_drafting {P : CartWorld → Prop} {R : β → CartWorld → Prop}
    {f : Tid → Choice → World → Option (Except AppError β × World)}
    (hP : (cartLogic faults).Stable t P)
    (hopen : ∀ s, P s → ∃ tx, s.world.db.txns t = some tx ∧ tx.aborted = false)
    (hf : ∀ s ch r w, CartInv s → P s → f t ch s.world = some (r, w) →
      ∃ a, r = .ok a ∧ Store.SameCommitted s.world.db w.db ∧ Store.Frame t s.world.db w.db ∧
        ∀ s' : CartWorld, s'.world = w → s'.own t = s.own t → R a s') :
    Hoare (cartLogic faults) t k P (Action.zoom ordersPart (sql f)) R fun _ _ => faults = true := by
  apply hoare_quiet hP
  intro s ch r w hi hc hp hs
  obtain ⟨tx, htx, ha⟩ := hopen s hp
  rcases sql_cases hs with ⟨hab, -, -⟩ | ⟨-, hfail, rfl, rfl⟩ |
    ⟨-, -, ⟨a, rfl, hr⟩ | ⟨e, w₁, -, hr, -⟩⟩
  · simp [Store.aborted, htx, ha] at hab
  · exact ⟨Store.abort_same, Store.abort_frame, fun _ _ _ => hc hfail⟩
  · obtain ⟨a', he, hsame, hframe, hpost⟩ := hf s ch _ w hi hp hr
    cases he
    exact ⟨hsame, hframe, hpost⟩
  · obtain ⟨a', he, -⟩ := hf s ch _ w₁ hi hp hr
    cases he

theorem Drafted.open (h : Drafted t cartId seen o row s) :
    ∃ tx, s.world.db.txns t = some tx ∧ tx.aborted = false := by
  obtain ⟨tx, htx, hd⟩ := h.txn
  exact ⟨tx, htx, hd.clean⟩

/-- A new transaction. -/
def Begun (t : Tid) (cartId : Uuid) (seen : List CartItemEntity) (s : CartWorld) : Prop :=
  Claimed t cartId seen s ∧ s.world.db.txns t = some ⟨fun _ => none, [], false⟩

theorem begun_stable : (cartLogic faults).Stable t (Begun t cartId seen) := by
  apply stable_of_moves
  intro s s' t' k hne hm h
  exact ⟨hm.claimed hne h.1, (hm.frame.txns t hne).trans h.2⟩

theorem hoare_insertFresh {P : CartWorld → Prop} {key : Uuid → Key}
    {R : (Σ id, Row (key id)) → CartWorld → Prop} (row : Choice → (id : Uuid) → Row (key id))
    (hP : (cartLogic faults).Stable t P)
    (hopen : ∀ s, P s → ∃ tx, s.world.db.txns t = some tx ∧ tx.aborted = false)
    (hf : ∀ s s' ch tx, P s → s.world.db.txns t = some tx →
      s.world.db.view t (key ch.fresh) = none →
      s'.world.db.txns t = some (Store.Txn.write tx (key ch.fresh) (some (row ch ch.fresh)) []) →
      s'.world.db.rows = s.world.db.rows → s'.own t = s.own t → R ⟨ch.fresh, row ch ch.fresh⟩ s') :
    Hoare (cartLogic faults) t k P (Action.zoom ordersPart (insertFresh key row)) R
      fun _ _ => faults = true := by
  apply hoare_drafting hP hopen
  intro s ch r w hi hp hs
  obtain ⟨tx, htx, -⟩ := hopen s hp
  obtain ⟨rfl, hv, hfree, rfl⟩ := insertFresh_cases hs
  obtain ⟨hsame, htx'⟩ := Store.put_txn (some (row ch ch.fresh)) [] hfree htx
  refine ⟨_, rfl, hsame, Store.put_frame (h := hfree), ?_⟩
  intro s' hw hown
  exact hf s s' ch tx hp htx hv (hw ▸ htx') (hw ▸ hsame.1) hown

theorem hoare_insertOrder :
    Hoare (cartLogic faults) t k (Begun t cartId seen) (Action.zoom ordersPart (insertOrder userId))
      (fun created s => created.userId = userId ∧ Drafted t cartId seen created.id created s)
      fun _ _ => faults = true := by
  unfold insertOrder
  apply hoare_zoom_bind (Q := fun created s => OrderEntity.userId created.2 = userId ∧
    Drafted t cartId seen (OrderEntity.id created.2) created.2 s)
  · apply hoare_insertFresh _ begun_stable
    · intro s h
      exact ⟨_, h.2, rfl⟩
    · intro s s' ch tx h htx hv htx' hrows hown
      cases htx.symm.trans h.2
      refine ⟨rfl, h.1.of_own hown, ⟨_, htx', ⟨rfl, Function.update_self .., ?_⟩⟩, ?_⟩
      · intro key hkey _
        exact Store.write_other _ _ hkey
      · rw [Store.view_txn h.2] at hv
        exact (congrFun hrows _).trans hv
  · intro created
    exact hoare_zoom_pure fun _ h => h

theorem hoare_saveItems (items : List OrderItemEntity) :
    Hoare (cartLogic faults) t k (Drafted t cartId seen o row)
      (Action.zoom ordersPart (saveItems o items))
      (fun _ => Drafted t cartId seen o { row with items := items }) fun _ _ => faults = true := by
  apply hoare_drafting drafted_stable fun _ h => h.open
  intro s ch r w hi h hf
  obtain ⟨tx, htx, hd⟩ := h.txn
  have hview : s.world.db.view t (.order o) = some row := by
    rw [Store.view_txn htx, hd.order]
    rfl
  rcases updateRow_cases hf with ⟨-, -, hno⟩ | ⟨rfl, row', hfree, hv, -, rfl⟩
  · exact nomatch hno row hview
  · cases hview.symm.trans hv
    obtain ⟨hsame, htx'⟩ := Store.put_txn (k := .order o)
      (some ({ row with items := items } : OrderEntity)) [] hfree htx
    refine ⟨_, rfl, hsame, Store.put_frame (h := hfree), ?_⟩
    rintro s' hw hown
    have htx'' := (congrArg (fun w : World => w.db.txns t) hw).trans htx'
    refine ⟨h.claimed.of_own hown, ⟨_, htx'', ⟨hd.clean, Function.update_self .., ?_⟩⟩, ?_⟩
    · intro key hkey hout
      rw [Store.write_other _ _ hkey, hd.rest key hkey hout]
    · rw [hw]
      exact (congrFun hsame.1 _).trans h.new

theorem hoare_enqueueCreated (routingKey : RoutingKey) (payload : OrderEvent) :
    Hoare (cartLogic faults) t k (Drafted t cartId seen o row)
      (Action.zoom ordersPart (enqueue routingKey payload))
      (fun _ => Drafted t cartId seen o row) fun _ _ => faults = true := by
  unfold enqueue
  apply hoare_zoom_bind (Q := fun _ => Drafted t cartId seen o row)
  · apply hoare_insertFresh _ drafted_stable fun _ h => h.open
    intro s s' ch tx h htx hv htx' hrows hown
    obtain ⟨tx₁, htx₁, hd⟩ := h.txn
    cases htx.symm.trans htx₁
    refine ⟨h.claimed.of_own hown, ⟨_, htx', ⟨hd.clean, ?_, ?_⟩⟩, (congrFun hrows _).trans h.new⟩
    · have hne : Key.order o ≠ .outbox ch.fresh := nofun
      rw [Store.write_other _ _ hne, hd.order]
    · intro key hkey hout
      rw [Store.write_other _ _ (hout _), hd.rest key hkey hout]
  · intro _
    exact hoare_zoom_pure fun _ h => h

theorem hoare_begin :
    Hoare (cartLogic faults) t k (fun s => s.world.db.txns t = none ∧ Claimed t cartId seen s)
      (Action.zoom ordersPart startTransaction) (fun _ => Begun t cartId seen)
      fun _ _ => faults = true := by
  apply hoare_quiet (idle_stable.and claimed_stable)
  rintro s ch r w hi hc ⟨hidle, hclaimed⟩ hf
  split at hf
  · next hfail =>
    cases hf
    exact ⟨.refl, .refl, fun _ _ _ => hc hfail⟩
  · cases hf
    refine ⟨Store.begin_same, Store.begin_frame, ?_⟩
    rintro s' hw hown
    refine ⟨hclaimed.of_own hown, ?_⟩
    rw [hw]
    exact Store.begin_txn hidle

/-- The commit makes the order and the order's place in the history. -/
theorem hoare_commit (hid : row.id = o) (hlines : HasLines row seen) :
    Hoare (cartLogic faults) t (.checkout row.userId) (Drafted t cartId seen o row)
      (Action.zoom ordersPart commitTransaction) (fun _ => Placed t row) fun _ _ => faults = true := by
  subst hid
  change Hoare _ _ _ _ (stmt _) _ _
  apply hoare_stmt drafted_stable
  intro s ch r s' hi hc h hf
  obtain ⟨⟨r', w⟩, hfs, he⟩ := Option.map_eq_some_iff.mp hf
  cases he
  obtain ⟨tx, htx, hd⟩ := h.txn
  dsimp only at hfs
  split at hfs
  · next hfail =>
    cases hfs
    obtain ⟨hinv, hm, -⟩ := quiet_step (t := t) (k := .checkout row.userId)
      (w := { s.world with db := s.world.db.rollback t }) hi Store.rollback_same Store.rollback_frame
    exact ⟨hinv, hm, hc hfail⟩
  · cases hfs
    obtain ⟨l, items, hl, hown⟩ := h.claimed.own
    have horder : (World.order { s.world with db := s.world.db.commit t }) =
        Function.update s.world.order row.id (some row) := by
      funext o
      change (s.world.db.commit t).rows (.order o) = _
      rw [Store.commit_rows htx hd.clean]
      by_cases e : o = row.id
      · subst e
        rw [hd.order, Function.update_self]
        rfl
      · have hne : Key.order o ≠ .order row.id := fun he => e (Key.order.inj he)
        rw [hd.rest (.order o) hne nofun, Function.update_of_ne e]
        rfl
    have hproduct : (World.product { s.world with db := s.world.db.commit t }) =
        s.world.product := by
      funext p
      change (s.world.db.commit t).rows (.product p) = _
      rw [Store.commit_rows htx hd.clean, hd.rest (.product p) nofun nofun]
      rfl
    obtain ⟨hinv, hm, hown'⟩ := place_step (w := { s.world with db := s.world.db.commit t }) hi
      Store.commit_frame hl hown h.claimed.nonempty h.claimed.nodup h.new horder hproduct hlines
    refine ⟨hinv, hm, ?_, l, cartId, seen, items, hl, hown'⟩
    change World.order { s.world with db := s.world.db.commit t } row.id = _
    rw [horder, Function.update_self]

theorem hoare_rollback : Hoare (cartLogic faults) t k (fun _ => faults = true)
    (Action.zoom ordersPart rollbackTransaction) (fun _ _ => faults = true)
    fun _ _ => faults = true := by
  apply hoare_quiet (.const _)
  intro s ch r w hi hc hp hf
  cases hf
  exact ⟨Store.rollback_same, Store.rollback_frame, fun _ _ _ => hp⟩

/-- A statement after the commit that touches neither the database nor the history. -/
theorem hoare_afterwards {order : OrderEntity} {f : Stmt World Choice (Except AppError Unit)}
    (hf : ∀ ch w r w', f t ch w = some (r, w') → r = .ok () ∧ w'.db = w.db) :
    Hoare (cartLogic faults) t k (Placed t order) (Action.zoom ordersPart (stmt f))
      (fun _ => Placed t order) fun _ _ => faults = true := by
  apply hoare_quiet placed_stable
  intro s ch r w hi hc hp hs
  obtain ⟨rfl, hdb⟩ := hf ch _ r w hs
  refine ⟨hdb ▸ .refl, hdb ▸ .refl, ?_⟩
  intro s' hw hown
  refine ⟨?_, hown ▸ hp.2⟩
  rw [← hp.1, World.order, World.order, hw, hdb]

theorem hoare_createOrder {lines : List OrderLine}
    (hlines : lines.map (fun line => (line.productId, line.quantity)) =
      seen.map fun item => (item.productId, item.quantity)) :
    Hoare (cartLogic faults) t (.checkout userId)
      (fun s => s.world.db.txns t = none ∧ Claimed t cartId seen s)
      (Action.zoom ordersPart (createOrder userId lines)) (fun order => Placed t order)
      fun _ _ => faults = true := by
  unfold createOrder
  apply hoare_zoom_bind (Q := fun order => Placed t order)
  · unfold transaction Action.within
    rw [Action.zoom_tryCatch]
    apply hoare_tryCatch (E := fun _ _ => faults = true)
    · apply hoare_zoom_bind hoare_begin
      intro _
      apply hoare_zoom_bind (Q := fun order s => order.userId = userId ∧ HasLines order seen ∧
        Drafted t cartId seen order.id order s)
      · apply hoare_zoom_bind hoare_insertOrder
        intro created
        apply hoare_fact
        intro hu
        apply hoare_zoom_bind (hoare_saveItems _)
        intro _
        apply hoare_zoom_bind (hoare_enqueueCreated _ _)
        intro _
        apply hoare_zoom_pure
        intro s h
        refine ⟨hu, ?_, h⟩
        unfold HasLines
        rw [← hlines, List.map_map]
        rfl
      · intro order
        apply hoare_fact
        intro hu
        apply hoare_fact
        intro hl
        subst hu
        apply hoare_zoom_bind (hoare_commit rfl hl)
        intro _
        exact hoare_zoom_pure fun _ h => h
    · intro error
      apply hoare_zoom_bind hoare_rollback
      intro _
      exact hoare_throw fun _ h => h
  · intro order
    apply hoare_zoom_bind (Q := fun _ => Placed t order)
    · apply hoare_afterwards
      intro ch w r w' hf
      cases hf
      exact ⟨rfl, rfl⟩
    · intro _
      apply hoare_zoom_bind (Q := fun _ => Placed t order)
      · apply hoare_afterwards
        intro ch w r w' hf
        cases hf
        refine ⟨rfl, ?_⟩
        split <;> rfl
      · intro _
        exact hoare_zoom_pure fun _ h => h

end createOrder

theorem lines_of_mapM {items : List LoadedItem} {lines : List OrderLine}
    (h : items.mapM LoadedItem.line = some lines) :
    lines.map (fun line => (line.productId, line.quantity)) =
      (items.map (·.item)).map fun item => (item.productId, item.quantity) := by
  induction items generalizing lines with
  | nil =>
    cases h
    rfl
  | cons item items ih =>
    simp only [List.mapM_cons, Option.bind_eq_bind, Option.bind_eq_some_iff] at h
    obtain ⟨line, hline, rest, hrest, he⟩ := h
    cases he
    obtain ⟨product, -, rfl⟩ := Option.map_eq_some_iff.mp hline
    simp [ih hrest]

theorem mapM_line_ne_none {items : List LoadedItem} (h : ∀ item ∈ items, item.product ≠ none) :
    items.mapM LoadedItem.line ≠ none := by
  induction items with
  | nil => exact Option.some_ne_none _
  | cons item items ih =>
    obtain ⟨product, hp⟩ := Option.ne_none_iff_exists'.mp (h item List.mem_cons_self)
    obtain ⟨rest, hrest⟩ := Option.ne_none_iff_exists'.mp
      (ih fun item hm => h item (List.mem_cons_of_mem _ hm))
    simp [List.mapM_cons, LoadedItem.line, hp, hrest]

/-- Before the claim an error leaves nothing behind; after it only a fault makes one. -/
theorem hoare_checkout :
    Hoare (cartLogic faults) t (.checkout userId) (Browsing t) (checkout userId)
      (fun order => Placed t order) fun _ s => Browsing t s ∨ faults = true := by
  apply hoare_bind (Q := fun cart => Found t userId cart)
  · apply hoare_conseq hoare_getOpenCart (fun _ h => h) (fun _ _ h => h)
    exact fun _ _ h => .inl h
  · intro cart
    apply hoare_pre (P := fun s => (∀ item ∈ cart.items, item.product ≠ none) ∧ Found t userId cart s)
      fun _ h => ⟨h.loaded, h⟩
    apply hoare_fact
    intro hloaded
    apply hoare_ite
    · intro _
      exact hoare_throw fun _ h => .inl h.browsing
    · intro hlen
      have hne : cart.items ≠ [] := fun he => hlen (by rw [he]; rfl)
      have hclaim : Hoare (cartLogic faults) t (.checkout userId) (Found t userId cart)
          (claimCart cart.cart.id)
          (fun n s => (n = 0 ∧ Browsing t s) ∨ (n ≠ 0 ∧ s.world.db.txns t = none ∧
            Claimed t cart.cart.id (cart.items.map (·.item)) s))
          fun _ s => Browsing t s ∨ faults = true :=
        hoare_conseq (hoare_claimCart hne) (fun _ h => h) (fun _ _ h => h) fun _ _ h => .inl h
      apply hoare_bind hclaim
      intro affected
      apply hoare_ite
      · intro he
        apply hoare_throw
        rintro s (⟨-, hb⟩ | ⟨hn, -⟩)
        · exact .inl hb
        · exact absurd he hn
      · intro hn
        cases hm : cart.items.mapM LoadedItem.line with
        | none => exact absurd hm (mapM_line_ne_none hloaded)
        | some lines =>
          apply hoare_conseq (hoare_createOrder (lines_of_mapM hm))
          · rintro s (⟨he, -⟩ | ⟨-, h⟩)
            · exact absurd he hn
            · exact h
          · exact fun _ _ h => h
          · exact fun _ _ h => .inr h

/-! ### The system -/

/-- What a call that has ended says. -/
def cartPost (faults : Bool) (t : Tid) : CartCall → Except AppError CartReply → CartWorld → Prop
  | .setItem userId p quantity, .ok _, s => Wrote t userId p (some quantity) s
  | .removeItem userId p, .ok _, s => Wrote t userId p none s
  | .checkout _, .ok (.order order), s => Placed t order s
  | .checkout _, .error _, s => Browsing t s ∨ faults = true
  | .checkout _, .ok (.cart _), _ => False
  | _, _, _ => True

theorem hoare_serveCart : Hoare (cartLogic faults) t k (Browsing t) (serveCart k)
    (fun reply s => cartPost faults t k (.ok reply) s)
    fun e s => cartPost faults t k (.error e) s := by
  cases k with
  | getOpenCart userId =>
    apply hoare_bind (E := fun _ _ => True) (hoare_conseq hoare_getOpenCart (fun _ h => h)
      (fun _ _ h => h) fun _ _ _ => trivial)
    intro _
    exact hoare_pure fun _ _ => trivial
  | setItem userId p quantity =>
    apply hoare_bind (E := fun _ _ => True) (hoare_conseq hoare_setItem (fun _ h => h)
      (fun _ _ h => h) fun _ _ _ => trivial)
    intro _
    exact hoare_pure fun _ h => h
  | removeItem userId p =>
    apply hoare_bind (E := fun _ _ => True) (hoare_conseq hoare_removeItem (fun _ h => h)
      (fun _ _ h => h) fun _ _ _ => trivial)
    intro _
    exact hoare_pure fun _ h => h
  | checkout userId =>
    apply hoare_bind hoare_checkout
    intro _
    exact hoare_pure fun _ h => h

theorem cart_verified :
    Verified cartSystem (cartLogic faults) (fun t s => s.world.db.txns t = none ∧ s.own t = [])
      (cartPost faults) where
  idle_stable t := by
    apply idle_stable.and
    apply stable_of_moves
    intro s s' t' k hne hm h
    exact (hm.own hne).trans h
  post_stable t k r := by
    have hwrote {userId : UserId} {p : ProductId} {quantity : Option Nat} :
        (cartLogic faults).Stable t (Wrote t userId p quantity) := wrote_lasting.stable
    cases k <;> cases r <;> try exact .true
    · exact hwrote
    · exact hwrote
    · next e =>
      apply stable_of_moves
      intro s s' t' k hne hm h
      exact h.imp_left fun h => hm.browsing hne h
    · next reply =>
      cases reply with
      | cart cart => exact .const _
      | order order => exact placed_stable
  body t k s hi hs _ := by
    apply wp_mono _ (hoare_serveCart s ⟨hs.1, hs.2 ▸ nofun⟩)
    intro r s hr
    cases r with
    | ok _ => exact hr
    | error _ => exact hr
  env e := e.elim
  crash t k s hi := by
    have hput := put_same (t := t) (s := s) (w := { s.world with db := s.world.db.rollback t })
      Store.rollback_same
    have hstep := quiet_step (t := t) (k := k) (w := { s.world with db := s.world.db.rollback t }) hi
      Store.rollback_same Store.rollback_frame
    rw [hput] at hstep
    exact ⟨hstep.1, hstep.2.1⟩

/-- A catalogue, no carts and no orders. -/
def CartWorld.initial (c : Catalog) (cacheEnabled : Bool) : CartWorld where
  world := .initial c cacheEnabled
  carts := []
  cartItems := fun _ => []
  deeds := []

theorem inv_initial (c : Catalog) (cacheEnabled : Bool) : CartInv (.initial c cacheEnabled) where
  ids := .nil
  oneOpen _ h := nomatch h
  lines _ := .nil
  known _ _ h := nomatch h
  recorded :=
    { kept := fun l _ _ _ _ _ h => by
        cases l <;> cases h
      last := fun _ _ _ h => nomatch h }
  claimed _ _ _ h := nomatch h
  claimant _ h := nomatch h
  claimOnce _ _ _ _ _ h := nomatch h
  story _ := .browsing nofun
  orders _ h := absurd rfl h

abbrev CartConfig := Config CartWorld Choice CartCall (Except AppError CartReply)

abbrev CartLabel := Label Choice CartCall Empty

/-- The statement does not fail and the call does not die. -/
def faultless : CartLabel → Bool
  | .step _ ch => !ch.fail
  | .crash _ => false
  | _ => true

/-- A run of the shop from a catalogue; without `faults` nothing fails or dies. -/
structure CartRun (faults : Bool) (catalog : Catalog) (cacheEnabled : Bool) (ls : List CartLabel)
    (c : CartConfig) : Prop where
  run : cartSystem.run (.init (.initial catalog cacheEnabled)) ls = some c
  healthy : faults = false → ∀ l ∈ ls, faultless l = true

section runs

variable {catalog : Catalog} {cacheEnabled : Bool} {ls : List CartLabel} {c c' : CartConfig}

/-- Every call is as the logic says. -/
abbrev CartSound (faults : Bool) (c : CartConfig) : Prop :=
  Sound (cartLogic faults) (fun t s => s.world.db.txns t = none ∧ s.own t = []) (cartPost faults) c

theorem CartRun.admits (h : CartRun faults catalog cacheEnabled ls c) :
    ∀ l ∈ ls, (cartLogic faults).Admits l := by
  intro l hl
  cases l with
  | step t ch =>
    intro hfail
    cases faults with
    | true => rfl
    | false =>
      have hok := h.healthy rfl _ hl
      simp [faultless, hfail] at hok
  | _ => trivial

theorem CartRun.sound (h : CartRun faults catalog cacheEnabled ls c) : CartSound faults c :=
  Sound.run cart_verified h.admits h.run (.init (inv_initial catalog cacheEnabled)
    fun _ => ⟨rfl, rfl⟩)

/-- A faultless run is a run. -/
theorem CartRun.any (h : CartRun faults catalog cacheEnabled ls c) :
    CartRun true catalog cacheEnabled ls c :=
  ⟨h.run, fun he => nomatch he⟩

theorem cart_moves {l : CartLabel} (h : CartSound true c) (hn : cartSystem.next c l = some c') :
    CartSound true c' ∧ (c'.shared = c.shared ∨
      ∃ t k th, c.threads t = some (k, th) ∧ Moves t k c.shared c'.shared) := by
  have hl : (cartLogic true).Admits l := by
    cases l with
    | step t ch => exact fun _ => rfl
    | _ => trivial
  obtain ⟨hs, hm⟩ := h.next cart_verified hl hn
  refine ⟨hs, ?_⟩
  rcases hm.cases with he | hf | ⟨t, k, th, ht, -, hg⟩
  · exact .inl he
  · exact hf.elim
  · exact .inr ⟨t, k, th, ht, hg⟩

/-- What every step keeps, a run keeps. -/
theorem cart_run_induct {P : CartConfig → Prop} (h : CartSound true c)
    (hr : cartSystem.run c ls = some c') (hc : P c)
    (hstep : ∀ d d' l, CartSound true d → CartSound true d' → cartSystem.next d l = some d' →
      (d'.shared = d.shared ∨ ∃ t k th, d.threads t = some (k, th) ∧ Moves t k d.shared d'.shared) →
      P d → P d') : P c' := by
  have hboth := cartSystem.run_induct (P := fun d => CartSound true d ∧ P d) (A := fun _ => True)
    (fun d d' l _ hn hd => by
      obtain ⟨hs, hm⟩ := cart_moves hd.1 hn
      exact ⟨hs, hstep d d' l hd.1 hs hn hm hd.2⟩) (fun _ _ => trivial) hr ⟨h, hc⟩
  exact hboth.2

end runs

end OrderLifecycle.Cart

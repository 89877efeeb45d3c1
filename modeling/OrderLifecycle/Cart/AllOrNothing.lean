import OrderLifecycle.Cart.SingleUse
import OrderLifecycle.Framework.SoloEnds

open Framework

namespace OrderLifecycle.Cart

/-- Statement `i` fails, or the process stops before it. -/
def Faulty (ch : Nat → Choice) (dies : Option Nat) (i : Nat) : Prop :=
  (ch i).fail = true ∨ dies = some i

/-- Carts, orders and outbox are as they were. -/
structure Unsold (s₀ s : CartWorld) : Prop where
  carts : s.carts = s₀.carts
  items : s.cartItems = s₀.cartItems
  rows : s.world.db.rows = s₀.world.db.rows

/-- The cart is checked out, and nothing else has happened. -/
structure Gone (cartId : Uuid) (s₀ s : CartWorld) : Prop where
  carts : ∃ now, s.carts = s₀.carts.map (claimCarts cartId now)
  items : s.cartItems = s₀.cartItems
  rows : s.world.db.rows = s₀.world.db.rows

/-- There is a new order with the lines of the cart, and its event. -/
def Ordered (userId : UserId) (cartId : Uuid) (s₀ s : CartWorld) : Prop :=
  ∃ order message, s₀.world.order order.id = none ∧ s.world.order order.id = some order ∧
    order.userId = userId ∧ HasLines order (s₀.cartItems cartId) ∧
    s₀.world.outbox message.id = none ∧ s.world.outbox message.id = some message ∧
    message.payload = .created
      { orderId := order.id
        userId := userId
        items := (s₀.cartItems cartId).map fun item => ⟨item.productId, item.quantity⟩ }

/-- The cart is checked out and sold. -/
structure Sold (userId : UserId) (cartId : Uuid) (s₀ s : CartWorld) : Prop where
  carts : ∃ now, s.carts = s₀.carts.map (claimCarts cartId now)
  ordered : Ordered userId cartId s₀ s

/-- Either the cart is checked out and ordered, or it is open with all its items and there is no
new order or outbox row. -/
def AllOrNothing (userId : UserId) (cart : CartEntity) (s₀ s : CartWorld) : Prop :=
  (s.CheckedOut cart.id ∧ Ordered userId cart.id s₀ s) ∨
    (cart ∈ s.carts ∧ cart.checkedOutAt = none ∧ s.cartItems cart.id = s₀.cartItems cart.id ∧
      s.world.order = s₀.world.order ∧ s.world.outbox = s₀.world.outbox)

section solo

variable {s₀ : CartWorld} {t : Tid} {ch : Nat → Choice} {dies : Option Nat} {userId : UserId}
  {cart : CartEntity} {cartId : Uuid} {β : Type} {i : Nat}

/-- After the claim: lost by a fault on the way to the commit, or sold without one. -/
def AfterClaim (ch : Nat → Choice) (dies : Option Nat) (userId : UserId) (cartId : Uuid)
    (s₀ s : CartWorld) : Prop :=
  (Gone cartId s₀ s ∧ ∃ i, 2 ≤ i ∧ i ≤ 6 ∧ Faulty ch dies i) ∨
    (Sold userId cartId s₀ s ∧ ∀ i, 2 ≤ i → i ≤ 6 → ¬Faulty ch dies i)

/-- Statement `j` is the `n`-th, and none before it was at fault. -/
def Reached (ch : Nat → Choice) (dies : Option Nat) (n j : Nat) : Prop :=
  j = n ∧ ∀ i, 2 ≤ i → i < n → ¬Faulty ch dies i

theorem Reached.next (h : Reached ch dies i i) (hd : dies ≠ some i) (hf : (ch i).fail = false) :
    Reached ch dies (i + 1) (i + 1) := by
  refine ⟨rfl, fun l hl hlt => ?_⟩
  rcases Nat.lt_succ_iff_lt_or_eq.mp hlt with hlt | rfl
  · exact h.2 l hl hlt
  · rintro (hfail | hdies)
    · exact nomatch hf.symm.trans hfail
    · exact hd hdies

/-- A statement of the orders service that commits nothing. -/
theorem ends_quiet {P : CartWorld → Prop} {D : Nat → CartWorld → Prop}
    {R : β → Nat → CartWorld → Prop} {E : AppError → Nat → CartWorld → Prop}
    {f : Stmt World Choice (Except AppError β)} (hd : ∀ s, P s → dies = some i → D i s)
    (hf : ∀ s r w, P s → dies ≠ some i → f t (ch i) s.world = some (r, w) →
      Store.SameCommitted s.world.db w.db ∧
        (match r with | .ok a => R a (i + 1) | .error e => E e (i + 1)) { s with world := w }) :
    SoloEnds t ch dies D i P (Action.zoom ordersPart (stmt f)) R E := by
  rw [Action.zoom_stmt]
  apply ends_stmt hd
  intro s r s' hp hdies hs
  obtain ⟨⟨r', w⟩, hfs, he⟩ := Option.map_eq_some_iff.mp hs
  cases he
  obtain ⟨hsame, hpost⟩ := hf s r' w hp hdies hfs
  simp only [put_same hsame]
  cases r' with
  | ok a => exact hpost
  | error e => exact hpost

theorem ends_zoom_bind {α : Type} {P : CartWorld → Prop} {D : Nat → CartWorld → Prop}
    {Q : α → Nat → CartWorld → Prop} {R : β → Nat → CartWorld → Prop}
    {E : AppError → Nat → CartWorld → Prop} {x : Service α} {f : α → Service β}
    (hx : SoloEnds t ch dies D i P (Action.zoom ordersPart x) Q E)
    (hf : ∀ a j, SoloEnds t ch dies D j (Q a j) (Action.zoom ordersPart (f a)) R E) :
    SoloEnds t ch dies D i P (Action.zoom ordersPart (x >>= f)) R E := by
  rw [Action.zoom_bind]
  exact ends_bind hx hf

theorem ends_zoom_pure {P : CartWorld → Prop} {D : Nat → CartWorld → Prop}
    {Q : β → Nat → CartWorld → Prop} {E : AppError → Nat → CartWorld → Prop} {a : β}
    (h : ∀ s, P s → Q a i s) :
    SoloEnds t ch dies D i P (Action.zoom ordersPart (pure a : Service β)) Q E :=
  ends_pure h

theorem Gone.of_same {s : CartWorld} {w : World} (h : Gone cartId s₀ s)
    (hsame : Store.SameCommitted s.world.db w.db) : Gone cartId s₀ { s with world := w } :=
  ⟨h.carts, h.items, hsame.1.trans h.rows⟩

/-- The cart is gone and the transaction is at this point. -/
structure Selling (t : Tid) (cartId : Uuid) (s₀ : CartWorld)
    (T : Txn Row (Tid × Deed) → Prop) (s : CartWorld) : Prop where
  gone : Gone cartId s₀ s
  txn : ∃ tx, s.world.db.txns t = some tx ∧ tx.aborted = false ∧ T tx

theorem Selling.fact {p : Prop} {T : Txn Row (Tid × Deed) → Prop} {s : CartWorld}
    (h : Selling t cartId s₀ (fun tx => p ∧ T tx) s) : p ∧ Selling t cartId s₀ T s := by
  obtain ⟨tx, htx, ha, hp, hT⟩ := h.txn
  exact ⟨hp, h.gone, tx, htx, ha, hT⟩

/-- An SQL statement of the transaction of `createOrder`. -/
theorem ends_selling {T : Txn Row (Tid × Deed) → Prop} {R : β → CartWorld → Prop}
    {f : Tid → Choice → World → Option (Except AppError β × World)} (hi : 2 ≤ i) (hi' : i ≤ 6)
    (hr : Reached ch dies i i)
    (hf : ∀ s tx r w, Gone cartId s₀ s → s.world.db.txns t = some tx → tx.aborted = false → T tx →
      f t (ch i) s.world = some (r, w) → ∃ a, r = .ok a ∧
        Store.SameCommitted s.world.db w.db ∧ R a { s with world := w }) :
    SoloEnds t ch dies (fun _ => AfterClaim ch dies userId cartId s₀) i (Selling t cartId s₀ T)
      (Action.zoom ordersPart (sql f))
      (fun a j s => Reached ch dies (i + 1) j ∧ R a s)
      fun _ _ s => Gone cartId s₀ s ∧ ∃ i, 2 ≤ i ∧ i ≤ 6 ∧ Faulty ch dies i := by
  apply ends_quiet
  · intro s hp hdies
    exact .inl ⟨hp.gone, i, hi, hi', .inr hdies⟩
  · intro s r w hp hdies hs
    obtain ⟨tx, htx, ha, hT⟩ := hp.txn
    rcases sql_cases hs with ⟨hab, -, -⟩ | ⟨-, hfail, rfl, rfl⟩ |
      ⟨-, hfail, ⟨a, rfl, hr'⟩ | ⟨e, w₁, -, hr', -⟩⟩
    · simp [Store.aborted, htx, ha] at hab
    · exact ⟨Store.abort_same, hp.gone.of_same Store.abort_same, i, hi, hi', .inl hfail⟩
    · obtain ⟨a', he, hsame, hpost⟩ := hf s tx _ w hp.gone htx ha hT hr'
      cases he
      exact ⟨hsame, hr.next hdies hfail, hpost⟩
    · obtain ⟨a', he, -⟩ := hf s tx _ w₁ hp.gone htx ha hT hr'
      cases he

/-- What the transaction holds: the order, and its event once it is there. -/
structure Sale (s₀ : CartWorld) (order : OrderEntity) (message : Option OutboxMessageEntity)
    (tx : Txn Row (Tid × Deed)) : Prop where
  placed : tx.writes (.order order.id) = some (some order)
  new : s₀.world.order order.id = none
  event : ∀ m, message = some m → tx.writes (.outbox m.id) = some (some m) ∧
    s₀.world.outbox m.id = none
  rest : message = none → ∀ id, tx.writes (.outbox id) = none

theorem Gone.order {s : CartWorld} (h : Gone cartId s₀ s) (o : OrderId) :
    s.world.db.rows (.order o) = s₀.world.order o := congrFun h.rows _

theorem Gone.outbox {s : CartWorld} (h : Gone cartId s₀ s) (id : Uuid) :
    s.world.db.rows (.outbox id) = s₀.world.outbox id := congrFun h.rows _

/-- `INSERT` with a generated key: the row is new to the transaction, which goes on. -/
theorem ends_insertFresh {T : Txn Row (Tid × Deed) → Prop} {key : Uuid → Key}
    {U : (Σ id, Row (key id)) → Txn Row (Tid × Deed) → Prop}
    (row : Choice → (id : Uuid) → Row (key id)) (hi : 2 ≤ i) (hi' : i ≤ 6)
    (hr : Reached ch dies i i)
    (hf : ∀ s tx, Gone cartId s₀ s → T tx → s.world.db.txns t = some tx →
      s.world.db.view t (key (ch i).fresh) = none →
      U ⟨(ch i).fresh, row (ch i) (ch i).fresh⟩
        (Store.Txn.write tx (key (ch i).fresh) (some (row (ch i) (ch i).fresh)) [])) :
    SoloEnds t ch dies (fun _ => AfterClaim ch dies userId cartId s₀) i (Selling t cartId s₀ T)
      (Action.zoom ordersPart (insertFresh key row))
      (fun created j s => Reached ch dies (i + 1) j ∧ Selling t cartId s₀ (U created) s)
      fun _ _ s => Gone cartId s₀ s ∧ ∃ i, 2 ≤ i ∧ i ≤ 6 ∧ Faulty ch dies i := by
  apply ends_selling hi hi' hr
  intro s tx r w hg htx ha hT hs
  obtain ⟨rfl, hv, hfree, rfl⟩ := insertFresh_cases hs
  obtain ⟨hsame, htx'⟩ := Store.put_txn (some (row (ch i) (ch i).fresh)) [] hfree htx
  exact ⟨_, rfl, hsame, hg.of_same hsame, _, htx', ha, hf s tx hg hT htx hv⟩

theorem ends_insertOrder (hr : Reached ch dies 3 3) :
    SoloEnds t ch dies (fun _ => AfterClaim ch dies userId cartId s₀) 3
      (Selling t cartId s₀ fun tx => tx = ⟨fun _ => none, [], false⟩)
      (Action.zoom ordersPart (insertOrder userId))
      (fun created j s => Reached ch dies 4 j ∧ Selling t cartId s₀
        (fun tx => created.userId = userId ∧ Sale s₀ created none tx) s)
      fun _ _ s => Gone cartId s₀ s ∧ ∃ i, 2 ≤ i ∧ i ≤ 6 ∧ Faulty ch dies i := by
  unfold insertOrder
  apply ends_zoom_bind (Q := fun created j s => Reached ch dies 4 j ∧ Selling t cartId s₀
    (fun tx => OrderEntity.userId created.2 = userId ∧ Sale s₀ created.2 none tx) s)
  · apply ends_insertFresh _ (by decide) (by decide) hr
    intro s tx hg hT htx hv
    subst hT
    rw [Store.view_txn htx] at hv
    refine ⟨rfl, Store.write_self .., (hg.order _).symm.trans hv, nofun, fun _ id => ?_⟩
    exact Store.write_other _ _ nofun
  · intro created j
    exact ends_zoom_pure fun _ h => h

theorem ends_saveItems {order : OrderEntity} (items : List OrderItemEntity)
    (hr : Reached ch dies 4 4) :
    SoloEnds t ch dies (fun _ => AfterClaim ch dies userId cartId s₀) 4
      (Selling t cartId s₀ (Sale s₀ order none))
      (Action.zoom ordersPart (saveItems order.id items))
      (fun _ j s => Reached ch dies 5 j ∧
        Selling t cartId s₀ (Sale s₀ { order with items := items } none) s)
      fun _ _ s => Gone cartId s₀ s ∧ ∃ i, 2 ≤ i ∧ i ≤ 6 ∧ Faulty ch dies i := by
  apply ends_selling (by decide) (by decide) hr
  intro s tx r w hg htx ha hT hs
  have hview : s.world.db.view t (.order order.id) = some order := by
    rw [Store.view_txn htx, hT.placed]
    rfl
  rcases updateRow_cases hs with ⟨-, -, hno⟩ | ⟨rfl, row', hfree, hv, -, rfl⟩
  · exact nomatch hno order hview
  · cases hview.symm.trans hv
    obtain ⟨hsame, htx'⟩ := Store.put_txn (k := .order order.id)
      (some ({ order with items := items } : OrderEntity)) [] hfree htx
    refine ⟨_, rfl, hsame, hg.of_same hsame, _, htx', ha, Store.write_self .., hT.new, nofun, ?_⟩
    intro _ id
    have hne : Key.outbox id ≠ .order order.id := nofun
    rw [Store.write_other _ _ hne]
    exact hT.rest rfl id

theorem ends_enqueue {order : OrderEntity} (payload : OrderEvent) (hr : Reached ch dies 5 5) :
    SoloEnds t ch dies (fun _ => AfterClaim ch dies userId cartId s₀) 5
      (Selling t cartId s₀ (Sale s₀ order none))
      (Action.zoom ordersPart (enqueue .created payload))
      (fun _ j s => Reached ch dies 6 j ∧ Selling t cartId s₀
        (fun tx => ∃ message, message.payload = payload ∧ Sale s₀ order (some message) tx) s)
      fun _ _ s => Gone cartId s₀ s ∧ ∃ i, 2 ≤ i ∧ i ≤ 6 ∧ Faulty ch dies i := by
  unfold enqueue
  apply ends_zoom_bind (Q := fun _ j s => Reached ch dies 6 j ∧ Selling t cartId s₀
    (fun tx => ∃ message, message.payload = payload ∧ Sale s₀ order (some message) tx) s)
  · apply ends_insertFresh (U := fun _ tx => ∃ message, message.payload = payload ∧
      Sale s₀ order (some message) tx) _ (by decide) (by decide) hr
    intro s tx hg hT htx hv
    rw [Store.view_txn htx, hT.rest rfl] at hv
    refine ⟨⟨(ch 5).fresh, orderExchange, .created, payload, (ch 5).correlationId⟩, rfl, ?_,
      hT.new, ?_, nofun⟩
    · have hne : Key.order order.id ≠ .outbox (ch 5).fresh := nofun
      rw [Store.write_other _ _ hne]
      exact hT.placed
    · intro m hm
      cases hm
      exact ⟨Store.write_self .., (hg.outbox _).symm.trans hv⟩
  · intro created j
    exact ends_zoom_pure fun _ h => h

theorem ends_begin (hr : Reached ch dies 2 2) :
    SoloEnds t ch dies (fun _ => AfterClaim ch dies userId cartId s₀) 2
      (fun s => Gone cartId s₀ s ∧ s.world.db.txns t = none)
      (Action.zoom ordersPart startTransaction)
      (fun _ j s => Reached ch dies 3 j ∧
        Selling t cartId s₀ (fun tx => tx = ⟨fun _ => none, [], false⟩) s)
      fun _ _ s => Gone cartId s₀ s ∧ ∃ i, 2 ≤ i ∧ i ≤ 6 ∧ Faulty ch dies i := by
  apply ends_quiet
  · intro s hp hdies
    exact .inl ⟨hp.1, 2, by decide, by decide, .inr hdies⟩
  · rintro s r w ⟨hg, hidle⟩ hdies hf
    split at hf
    · next hfail =>
      cases hf
      exact ⟨.refl, hg, 2, by decide, by decide, .inl hfail⟩
    · next hfail =>
      cases hf
      have hok : (ch 2).fail = false := by simpa using hfail
      exact ⟨Store.begin_same, hr.next hdies hok, hg.of_same Store.begin_same, _,
        Store.begin_txn hidle, rfl, rfl⟩

/-- What the event says. -/
def createdEvent (o : OrderId) (userId : UserId) (items : List CartItemEntity) : OrderEvent :=
  .created
    { orderId := o
      userId := userId
      items := items.map fun item => ⟨item.productId, item.quantity⟩ }

theorem ends_commit {order : OrderEntity} (hr : Reached ch dies 6 6) (hu : order.userId = userId)
    (hlines : HasLines order (s₀.cartItems cartId)) :
    SoloEnds t ch dies (fun _ => AfterClaim ch dies userId cartId s₀) 6
      (Selling t cartId s₀ fun tx => ∃ message,
        message.payload = createdEvent order.id userId (s₀.cartItems cartId) ∧
          Sale s₀ order (some message) tx)
      (Action.zoom ordersPart commitTransaction)
      (fun _ j s => Reached ch dies 7 j ∧ Sold userId cartId s₀ s)
      fun _ _ s => Gone cartId s₀ s ∧ ∃ i, 2 ≤ i ∧ i ≤ 6 ∧ Faulty ch dies i := by
  change SoloEnds _ _ _ _ _ _ (stmt _) _ _
  apply ends_stmt
  · intro s hp hdies
    exact .inl ⟨hp.gone, 6, by decide, by decide, .inr hdies⟩
  · intro s r s' hp hdies hf
    obtain ⟨⟨r', w⟩, hfs, he⟩ := Option.map_eq_some_iff.mp hf
    cases he
    obtain ⟨tx, htx, ha, message, hpayload, hsale⟩ := hp.txn
    dsimp only at hfs
    split at hfs
    · next hfail =>
      cases hfs
      have hput := put_same (t := t) (s := s) (w := { s.world with db := s.world.db.rollback t })
        Store.rollback_same
      change Gone cartId s₀ (ordersPart.put t s { s.world with db := s.world.db.rollback t }) ∧ _
      rw [hput]
      exact ⟨hp.gone.of_same Store.rollback_same, 6, by decide, by decide, .inl hfail⟩
    · next hfail =>
      cases hfs
      have hok : (ch 6).fail = false := by simpa using hfail
      obtain ⟨hevent, hnew⟩ := hsale.event message rfl
      refine ⟨hr.next hdies hok, hp.gone.carts, order, message, hsale.new, ?_, hu, hlines, hnew, ?_,
        hpayload⟩
      · change (s.world.db.commit t).rows (.order order.id) = _
        rw [Store.commit_rows htx ha, hsale.placed]
        rfl
      · change (s.world.db.commit t).rows (.outbox message.id) = _
        rw [Store.commit_rows htx ha, hevent]
        rfl

theorem Sold.of_db {s : CartWorld} {w : World} (h : Sold userId cartId s₀ s)
    (hdb : w.db = s.world.db) : Sold userId cartId s₀ { s with world := w } := by
  obtain ⟨order, message, hnew, ho, hu, hl, hnew', hm, hp⟩ := h.ordered
  refine ⟨h.carts, order, message, hnew, ?_, hu, hl, hnew', ?_, hp⟩
  · rw [← ho, World.order, World.order, hdb]
  · rw [← hm, World.outbox, World.outbox, hdb]

/-- After the commit nothing can go wrong any more. -/
theorem ends_afterwards {f : Stmt World Choice (Except AppError Unit)}
    (hf : ∀ ch w r w', f t ch w = some (r, w') → r = .ok () ∧ w'.db = w.db) :
    SoloEnds t ch dies (fun _ => AfterClaim ch dies userId cartId s₀) i
      (fun s => Sold userId cartId s₀ s ∧ ∀ i, 2 ≤ i → i ≤ 6 → ¬Faulty ch dies i)
      (Action.zoom ordersPart (stmt f))
      (fun _ _ s => Sold userId cartId s₀ s ∧ ∀ i, 2 ≤ i → i ≤ 6 → ¬Faulty ch dies i)
      fun _ _ => AfterClaim ch dies userId cartId s₀ := by
  apply ends_quiet
  · intro s hp _
    exact .inr hp
  · intro s r w hp _ hs
    obtain ⟨rfl, hdb⟩ := hf _ _ r w hs
    exact ⟨hdb ▸ .refl, hp.1.of_db hdb, hp.2⟩

theorem ends_createOrder {lines : List OrderLine} (hr : Reached ch dies 2 2)
    (hlines : lines.map (fun line => (line.productId, line.quantity)) =
      (s₀.cartItems cartId).map fun item => (item.productId, item.quantity)) :
    SoloEnds t ch dies (fun _ => AfterClaim ch dies userId cartId s₀) 2
      (fun s => Gone cartId s₀ s ∧ s.world.db.txns t = none)
      (Action.zoom ordersPart (createOrder userId lines))
      (fun _ _ => AfterClaim ch dies userId cartId s₀)
      fun _ _ => AfterClaim ch dies userId cartId s₀ := by
  unfold createOrder
  apply ends_zoom_bind (Q := fun _ _ s => Sold userId cartId s₀ s ∧
    ∀ i, 2 ≤ i → i ≤ 6 → ¬Faulty ch dies i)
  · unfold transaction Action.within
    rw [Action.zoom_tryCatch]
    apply ends_tryCatch (E := fun _ _ s => Gone cartId s₀ s ∧
      ∃ i, 2 ≤ i ∧ i ≤ 6 ∧ Faulty ch dies i)
    · apply ends_zoom_bind (ends_begin hr)
      intro _ j
      apply ends_fact
      intro h3
      obtain rfl := h3.1
      apply ends_zoom_bind (Q := fun order j s => Reached ch dies 6 j ∧ order.userId = userId ∧
        HasLines order (s₀.cartItems cartId) ∧ Selling t cartId s₀ (fun tx => ∃ message,
          message.payload = createdEvent order.id userId (s₀.cartItems cartId) ∧
            Sale s₀ order (some message) tx) s)
      · apply ends_zoom_bind (ends_insertOrder h3)
        intro created j
        apply ends_fact
        intro h4
        obtain rfl := h4.1
        apply ends_pre (P := fun s => created.userId = userId ∧
          Selling t cartId s₀ (Sale s₀ created none) s) fun _ h => h.fact
        apply ends_fact
        intro hu
        apply ends_zoom_bind (ends_saveItems _ h4)
        intro _ j
        apply ends_fact
        intro h5
        obtain rfl := h5.1
        apply ends_zoom_bind (ends_enqueue _ h5)
        intro _ j
        apply ends_fact
        intro h6
        apply ends_zoom_pure
        intro s hs
        refine ⟨h6, hu, ?_, hs.gone, ?_⟩
        · unfold HasLines
          rw [← hlines, List.map_map]
          rfl
        · obtain ⟨tx, htx, ha, message, hp, hsale⟩ := hs.txn
          refine ⟨tx, htx, ha, message, ?_, hsale⟩
          have hitems : (lines.map fun line => (⟨line.productId, line.quantity⟩ : StockLine)) =
              (s₀.cartItems cartId).map fun item => ⟨item.productId, item.quantity⟩ := by
            have hpair := congrArg (List.map fun x => (⟨x.1, x.2⟩ : StockLine)) hlines
            rwa [List.map_map, List.map_map] at hpair
          rw [hp, createdEvent, ← hitems]
          simp only [hu]
      · intro order j
        apply ends_fact
        intro h6
        obtain rfl := h6.1
        apply ends_fact
        intro hu
        apply ends_fact
        intro hl
        apply ends_zoom_bind (ends_commit h6 hu hl)
        intro _ j
        apply ends_zoom_pure
        rintro s ⟨h7, hs⟩
        exact ⟨hs, fun i hi hi' => h7.2 i hi (Nat.lt_succ_of_le hi')⟩
    · intro error j
      apply ends_zoom_bind (Q := fun _ _ => AfterClaim ch dies userId cartId s₀)
      · apply ends_quiet
        · intro s hp _
          exact .inl hp
        · intro s r w hp _ hf
          cases hf
          exact ⟨Store.rollback_same, .inl ⟨hp.1.of_same Store.rollback_same, hp.2⟩⟩
      · intro _ j
        exact ends_throw fun _ h => h
  · intro order j
    apply ends_zoom_bind (Q := fun _ _ s => Sold userId cartId s₀ s ∧
      ∀ i, 2 ≤ i → i ≤ 6 → ¬Faulty ch dies i)
    · apply ends_afterwards
      intro ch w r w' hf
      cases hf
      exact ⟨rfl, rfl⟩
    · intro _ j
      apply ends_zoom_bind (Q := fun _ _ s => Sold userId cartId s₀ s ∧
        ∀ i, 2 ≤ i → i ≤ 6 → ¬Faulty ch dies i)
      · apply ends_afterwards
        intro ch w r w' hf
        cases hf
        refine ⟨rfl, ?_⟩
        split <;> rfl
      · intro _ j
        exact ends_zoom_pure fun _ h => .inr h

/-- How the checkout of an open cart ends. -/
def CheckoutEnd (ch : Nat → Choice) (dies : Option Nat) (userId : UserId) (cart : CartEntity)
    (s₀ s : CartWorld) : Prop :=
  (Unsold s₀ s ∧ (s₀.cartItems cart.id = [] ∨ Faulty ch dies 0 ∨ Faulty ch dies 1)) ∨
    (AfterClaim ch dies userId cart.id s₀ s ∧ s₀.cartItems cart.id ≠ [] ∧ ¬Faulty ch dies 0 ∧
      ¬Faulty ch dies 1)

/-- What `findOpenCart` returns. -/
def CartWorld.load (s : CartWorld) (cart : CartEntity) : LoadedCart :=
  ⟨cart, (s.cartItems cart.id).map fun item => ⟨item, s.world.product item.productId⟩⟩

theorem ends_getOpenCart (hopen : s₀.openCart userId = some cart) :
    SoloEnds t ch dies (fun _ => CheckoutEnd ch dies userId cart s₀) 0 (fun s => s = s₀)
      (getOpenCart userId)
      (fun found j s => j = 1 ∧ found = s₀.load cart ∧ ¬Faulty ch dies 0 ∧ Unsold s₀ s ∧
        s.world = s₀.world)
      fun _ _ => CheckoutEnd ch dies userId cart s₀ := by
  apply ends_bind (Q := fun found j s => j = 1 ∧ found = some (s₀.load cart) ∧ ¬Faulty ch dies 0 ∧
    Unsold s₀ s ∧ s.world = s₀.world)
  · apply ends_stmt
    · rintro s rfl hdies
      exact .inl ⟨⟨rfl, rfl, rfl⟩, .inr (.inl (.inr hdies))⟩
    · rintro s r s' rfl hdies hf
      split at hf
      · next hfail =>
        cases hf
        exact .inl ⟨⟨rfl, rfl, rfl⟩, .inr (.inl (.inl hfail))⟩
      · next hfail =>
        simp only [hopen] at hf
        cases hf
        exact ⟨rfl, rfl, fun h => h.elim hfail hdies, ⟨rfl, rfl, rfl⟩, rfl⟩
  · intro found j
    apply ends_fact
    rintro rfl
    apply ends_fact
    rintro rfl
    exact ends_pure fun s h => ⟨rfl, rfl, h⟩

theorem ends_claimCart (hopen : s₀.openCart userId = some cart) :
    SoloEnds t ch dies (fun _ => CheckoutEnd ch dies userId cart s₀) 1
      (fun s => Unsold s₀ s ∧ s.world = s₀.world) (claimCart cart.id)
      (fun n j s => j = 2 ∧ n ≠ 0 ∧ ¬Faulty ch dies 1 ∧ Gone cart.id s₀ s ∧ s.world = s₀.world)
      fun _ _ => CheckoutEnd ch dies userId cart s₀ := by
  apply ends_stmt
  · rintro s ⟨hs, -⟩ hdies
    exact .inl ⟨hs, .inr (.inr (.inr hdies))⟩
  · rintro s r s' ⟨hs, hw⟩ hdies hf
    obtain ⟨hc, -, hnull⟩ := openCart_some hopen
    split at hf
    · next hfail =>
      cases hf
      exact .inl ⟨hs, .inr (.inr (.inl hfail))⟩
    · next hfail =>
      have hany : (s.carts.any fun c => c.id == cart.id && c.checkedOutAt.isNone) = true := by
        rw [hs.carts]
        exact List.any_eq_true.mpr ⟨cart, hc, by simp [hnull]⟩
      simp only [hany, if_true] at hf
      cases hf
      refine ⟨rfl, Nat.one_ne_zero, fun h => h.elim hfail hdies, ⟨⟨(ch 1).now, ?_⟩, hs.items, hs.rows⟩, hw⟩
      change s.carts.map (claimCarts cart.id (ch 1).now) = _
      rw [hs.carts]

theorem ends_checkout (hi : CartInv s₀) (hopen : s₀.openCart userId = some cart)
    (hidle : s₀.world.db.txns t = none) :
    SoloEnds t ch dies (fun _ => CheckoutEnd ch dies userId cart s₀) 0 (fun s => s = s₀)
      (checkout userId) (fun _ _ => CheckoutEnd ch dies userId cart s₀)
      fun _ _ => CheckoutEnd ch dies userId cart s₀ := by
  apply ends_bind (ends_getOpenCart hopen)
  intro found j
  apply ends_fact
  rintro rfl
  apply ends_fact
  rintro rfl
  apply ends_fact
  intro h0
  have hitems : (s₀.load cart).items.map (·.item) = s₀.cartItems cart.id := by
    rw [CartWorld.load, List.map_map]
    exact List.map_id _
  apply ends_ite
  · intro hlen
    have hnil : s₀.cartItems cart.id = [] := by
      rw [← hitems, List.length_eq_zero_iff.mp hlen]
      rfl
    exact ends_throw fun s h => .inl ⟨h.1, .inl hnil⟩
  · intro hlen
    have hne : s₀.cartItems cart.id ≠ [] := by
      intro he
      apply hlen
      rw [← List.length_map (f := (·.item)), hitems, he]
      rfl
    apply ends_bind (ends_claimCart hopen)
    intro n j
    apply ends_fact
    rintro rfl
    apply ends_fact
    intro hn
    apply ends_fact
    intro h1
    rw [if_neg hn]
    have hloaded : ∀ item ∈ (s₀.load cart).items, item.product ≠ none := by
      intro item hm
      obtain ⟨item', hm', rfl⟩ := List.mem_map.mp hm
      exact hi.known cart.id item' hm'
    cases hm : (s₀.load cart).items.mapM LoadedItem.line with
    | none => exact absurd hm (mapM_line_ne_none hloaded)
    | some lines =>
      have hlines := lines_of_mapM hm
      rw [hitems] at hlines
      have hstart : Reached ch dies 2 2 := ⟨rfl, fun i hi hlt => absurd hlt (Nat.not_lt.mpr hi)⟩
      have hend (s : CartWorld) (h : AfterClaim ch dies userId cart.id s₀ s) :
          CheckoutEnd ch dies userId cart s₀ s := .inr ⟨h, hne, h0, h1⟩
      apply ends_pre (P := fun s => Gone cart.id s₀ s ∧ s.world.db.txns t = none)
      · rintro s ⟨hg, hw⟩
        exact ⟨hg, hw ▸ hidle⟩
      · apply ends_conseq (ends_createOrder hstart hlines)
        · exact fun _ _ => hend
        · exact fun _ _ => hend
        · exact fun _ => hend

theorem Ordered.not_of_rows {s : CartWorld} (hrows : s.world.db.rows = s₀.world.db.rows) :
    ¬Ordered userId cartId s₀ s := by
  rintro ⟨order, -, hnew, ho, -⟩
  have hsame : s.world.order order.id = s₀.world.order order.id := congrFun hrows _
  rw [hnew, ho] at hsame
  exact nomatch hsame

theorem Gone.not_allOrNothing {s : CartWorld} (h : Gone cart.id s₀ s) :
    ¬AllOrNothing userId cart s₀ s := by
  rintro (⟨-, hordered⟩ | ⟨hcart, hopen, -⟩)
  · exact Ordered.not_of_rows h.rows hordered
  · obtain ⟨now, hcarts⟩ := h.carts
    rw [hcarts] at hcart
    obtain ⟨before, -, he⟩ := List.mem_map.mp hcart
    rcases claimCarts_cases cart.id now before with hsame | ⟨-, -, hout⟩
    · have hb : before = cart := hsame.symm.trans he
      subst hb
      rw [claimCarts] at he
      simp only [hopen, beq_self_eq_true, Option.isNone_none, Bool.and_self, if_true] at he
      have hat := congrArg CartEntity.checkedOutAt he
      rw [hopen] at hat
      cases hat
    · apply hout
      rw [he]
      exact hopen

theorem Sold.allOrNothing {s : CartWorld} (hopen : s₀.openCart userId = some cart)
    (h : Sold userId cart.id s₀ s) : AllOrNothing userId cart s₀ s := by
  obtain ⟨hc, -, hnull⟩ := openCart_some hopen
  obtain ⟨now, hcarts⟩ := h.carts
  refine .inl ⟨⟨claimCarts cart.id now cart, ?_, claimCarts_id .., ?_⟩, h.ordered⟩
  · rw [hcarts]
    exact List.mem_map_of_mem hc
  · simp [claimCarts, hnull]

theorem Unsold.allOrNothing {s : CartWorld} (hopen : s₀.openCart userId = some cart)
    (h : Unsold s₀ s) : AllOrNothing userId cart s₀ s := by
  obtain ⟨hc, -, hnull⟩ := openCart_some hopen
  refine .inr ⟨h.carts ▸ hc, hnull, by rw [h.items], ?_, ?_⟩
  · funext o
    exact congrFun h.rows _
  · funext id
    exact congrFun h.rows _

theorem CheckoutEnd.allOrNothing_iff {s : CartWorld} (hopen : s₀.openCart userId = some cart)
    (h : CheckoutEnd ch dies userId cart s₀ s) :
    AllOrNothing userId cart s₀ s ↔
      s₀.cartItems cart.id = [] ∨ Faulty ch dies 0 ∨ Faulty ch dies 1 ∨
        ∀ i, 2 ≤ i → i ≤ 6 → ¬Faulty ch dies i := by
  rcases h with ⟨hu, hearly⟩ | ⟨⟨hg, i, hi, hi', hfault⟩ | ⟨hs, hnone⟩, hne, h0, h1⟩
  · constructor
    · intro _
      exact hearly.imp_right (Or.imp_right .inl)
    · exact fun _ => hu.allOrNothing hopen
  · constructor
    · intro hall
      exact absurd hall hg.not_allOrNothing
    · rintro (he | he | he | hnone)
      · exact absurd he hne
      · exact absurd he h0
      · exact absurd he h1
      · exact absurd hfault (hnone i hi hi')
  · constructor
    · exact fun _ => .inr (.inr (.inr hnone))
    · exact fun _ => hs.allOrNothing hopen

/-- The death of the call ends its transaction and commits nothing. -/
theorem allOrNothing_soloShared {s : CartWorld} {r : Option (Except AppError CartReply × Nat)} :
    AllOrNothing userId cart s₀ (cartSystem.soloShared t s r) ↔ AllOrNothing userId cart s₀ s := by
  cases r with
  | none => exact Iff.rfl
  | some _ => exact Iff.rfl

end solo

variable {catalog : Catalog} {cacheEnabled : Bool} {ls : List CartLabel} {c : CartConfig} {t : Tid}
  {ch : Nat → Choice} {dies : Option Nat} {userId : UserId} {cart : CartEntity} {s : CartWorld}
  {r : Option (Except AppError CartReply × Nat)}

theorem checkout_ends (h : CartRun true catalog cacheEnabled ls c) (ht : c.threads t = none)
    (hopen : c.shared.openCart userId = some cart)
    (hrun : (serveCart (.checkout userId)).run.solo t ch dies 0 c.shared = some (s, r)) :
    CheckoutEnd ch dies userId cart c.shared s := by
  have hi : CartInv c.shared := h.sound.inv
  have hidle : c.shared.world.db.txns t = none := (h.sound.fresh t ht).1
  have hends : SoloEnds t ch dies (fun _ => CheckoutEnd ch dies userId cart c.shared) 0
      (fun s => s = c.shared) (serveCart (.checkout userId))
      (fun _ _ => CheckoutEnd ch dies userId cart c.shared)
      fun _ _ => CheckoutEnd ch dies userId cart c.shared := by
    apply ends_bind (ends_checkout hi hopen hidle)
    intro order j
    exact ends_pure fun _ h => h
  have hpost := hends c.shared rfl s r hrun
  match r with
  | none =>
    obtain ⟨j, hj⟩ := hpost
    exact hj
  | some (.ok _, _) => exact hpost
  | some (.error _, _) => exact hpost

/-- `checkout` in any state that the shop can reach, with a fault at any statement: statement 0
reads the cart, 1 claims it, 2 to 6 are the transaction of `createOrder` from `BEGIN` to `COMMIT`. -/
theorem checkout_all_or_nothing (h : CartRun true catalog cacheEnabled ls c)
    (ht : c.threads t = none) (hopen : c.shared.openCart userId = some cart)
    (hrun : (serveCart (.checkout userId)).run.solo t ch dies 0 c.shared = some (s, r)) :
    AllOrNothing userId cart c.shared (cartSystem.soloShared t s r) ↔
      c.shared.cartItems cart.id = [] ∨ Faulty ch dies 0 ∨ Faulty ch dies 1 ∨
        ∀ i, 2 ≤ i → i ≤ 6 → ¬Faulty ch dies i := by
  rw [allOrNothing_soloShared]
  exact (checkout_ends h ht hopen hrun).allOrNothing_iff hopen

/-- User 7 puts product 1 into a cart. -/
def fillCart : List CartLabel :=
  [.start 0 (.setItem 7 1 3), .step 0 {}, .step 0 { fresh := 10 }] ++ List.replicate 3 (.step 0 {})

/-- The choices of a checkout in which statement `i` fails. -/
def failAt (i : Nat) : Nat → Choice :=
  fun j => { fresh := 40, fail := j == i }

/-- What the two runs below need: the cart is open with one line, and the checkout ends. -/
theorem fillCart_checkout {i : Nat} (hout : (cartSystem.run (.init (.initial shopCatalog true)) fillCart).map
    (fun c => ((c.threads 1).isNone, c.shared.openCart 7, (c.shared.cartItems 10).length,
      ((serveCart (.checkout 7)).run.solo 1 (failAt i) none 0 c.shared).isSome)) =
      some (true, some ⟨10, 7, none⟩, 1, true)) :
    ∃ c s r, CartRun true shopCatalog true fillCart c ∧ c.threads 1 = none ∧
      c.shared.openCart 7 = some ⟨10, 7, none⟩ ∧ c.shared.cartItems 10 ≠ [] ∧
      (serveCart (.checkout 7)).run.solo 1 (failAt i) none 0 c.shared = some (s, r) := by
  obtain ⟨c, hc, hout⟩ := Option.map_eq_some_iff.mp hout
  obtain ⟨hnew, hout⟩ := Prod.mk.inj hout
  obtain ⟨hopen, hout⟩ := Prod.mk.inj hout
  obtain ⟨hlength, hsome⟩ := Prod.mk.inj hout
  obtain ⟨⟨s, r⟩, hrun⟩ := Option.isSome_iff_exists.mp hsome
  refine ⟨c, s, r, ⟨hc, fun he => nomatch he⟩, Option.isNone_iff_eq_none.mp hnew, hopen, ?_, hrun⟩
  intro he
  rw [he] at hlength
  exact nomatch hlength

theorem checkout_all_or_nothing_claim_fails : ∃ c s r cart,
    CartRun true shopCatalog true fillCart c ∧ c.shared.openCart 7 = some cart ∧
    (serveCart (.checkout 7)).run.solo 1 (failAt 1) none 0 c.shared = some (s, r) ∧
    AllOrNothing 7 cart c.shared (cartSystem.soloShared 1 s r) := by
  obtain ⟨c, s, r, h, ht, hopen, -, hrun⟩ := fillCart_checkout (i := 1) (by decide +kernel)
  have hfault : Faulty (failAt 1) none 1 := .inl rfl
  exact ⟨c, s, r, _, h, hopen, hrun,
    (checkout_all_or_nothing h ht hopen hrun).mpr (.inr (.inr (.inl hfault)))⟩

/-- The `INSERT` of the order fails after the claim: the cart is checked out and there is no
order. -/
theorem not_checkout_all_or_nothing : ¬∀ catalog cacheEnabled ls c t userId cart ch dies s r,
    CartRun true catalog cacheEnabled ls c → c.threads t = none →
    c.shared.openCart userId = some cart →
    (serveCart (.checkout userId)).run.solo t ch dies 0 c.shared = some (s, r) →
    AllOrNothing userId cart c.shared (cartSystem.soloShared t s r) := by
  intro hall
  obtain ⟨c, s, r, h, ht, hopen, hne, hrun⟩ := fillCart_checkout (i := 3) (by decide +kernel)
  have hnot {i : Nat} (hi : i ≠ 3) : ¬Faulty (failAt 3) none i := by
    rintro (hfail | hdies)
    · exact hi (by simpa [failAt] using hfail)
    · exact nomatch hdies
  have hkept := hall _ _ _ _ _ _ _ _ _ _ _ h ht hopen hrun
  rw [allOrNothing_soloShared, (checkout_ends h ht hopen hrun).allOrNothing_iff hopen] at hkept
  rcases hkept with he | he | he | hnone
  · exact hne he
  · exact hnot (by decide) he
  · exact hnot (by decide) he
  · exact hnone 3 (by decide) (by decide) (.inl rfl)

end OrderLifecycle.Cart

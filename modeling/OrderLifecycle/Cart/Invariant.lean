import OrderLifecycle.Cart.Lines
import OrderLifecycle.Database.Sql

open Framework

namespace OrderLifecycle.Cart

variable {s s' : CartWorld} {t : Tid} {k : CartCall}

/-! ### The history of the carts -/

/-- What a call does before it claims a cart. -/
def CartDeed.Browses : CartDeed → Prop
  | .saw _ _ => True
  | .wrote _ _ _ _ => True
  | .claimed _ _ => False
  | .placed _ => False

/-- The deed tells what the rows of the cart were. -/
def CartDeed.Shows (d : CartDeed) (cartId : Uuid) (items : List CartItemEntity) : Prop :=
  d = .saw cartId items ∨ d = .claimed cartId items

/-- No call changes a line of the cart. -/
def Undisturbed (cartId : Uuid) (deeds : List (Tid × CartDeed)) : Prop :=
  ∀ t p found quantity, (t, .wrote cartId p found quantity) ∈ deeds → found = quantity

def CartDeed.writes (cartId : Uuid) (productId : ProductId) : CartDeed → Option (Option Nat)
  | .wrote c p _ quantity => if c = cartId ∧ p = productId then some quantity else none
  | _ => none

/-- What a line was last set to. -/
def lastWrite (cartId : Uuid) (productId : ProductId) (deeds : List (Tid × CartDeed)) :
    Option (Option Nat) :=
  deeds.reverse.findSome? fun d => d.2.writes cartId productId

theorem lastWrite_snoc {cartId : Uuid} {p : ProductId} {deeds : List (Tid × CartDeed)} {d : CartDeed} :
    lastWrite cartId p (deeds ++ [(t, d)]) = (d.writes cartId p).or (lastWrite cartId p deeds) := by
  simp only [lastWrite, List.reverse_append, List.reverse_singleton, List.singleton_append,
    List.findSome?_cons]
  cases d.writes cartId p <;> rfl

/-- The last entry of a list and one before it. -/
theorem snoc_eq_append_cons {α : Type} {xs l r : List α} {x y : α} (h : xs ++ [x] = l ++ y :: r) :
    (xs = l ∧ x = y ∧ r = []) ∨ ∃ r', r = r' ++ [x] ∧ xs = l ++ y :: r' := by
  rcases List.eq_nil_or_concat r with rfl | ⟨r', z, rfl⟩
  · obtain ⟨hl, hx⟩ := List.append_inj' h rfl
    cases hx
    exact .inl ⟨hl, rfl, rfl⟩
  · rw [List.concat_eq_append] at h ⊢
    have h' : xs ++ [x] = (l ++ y :: r') ++ [z] := by simpa using h
    obtain ⟨hl, hx⟩ := List.append_inj' h' rfl
    cases hx
    exact .inr ⟨r', rfl, hl⟩

/-- The rows are what the history says. -/
structure Recorded (items : Uuid → List CartItemEntity) (deeds : List (Tid × CartDeed)) : Prop where
  kept : ∀ l t d r cartId its, deeds = l ++ (t, d) :: r → CartDeed.Shows d cartId its →
    Undisturbed cartId r → items cartId = its
  last : ∀ cartId p quantity, lastWrite cartId p deeds = some quantity →
    lineOf (items cartId) p = quantity

section recorded

variable {items : Uuid → List CartItemEntity} {deeds : List (Tid × CartDeed)} {d : CartDeed}

theorem Undisturbed.of_append {cartId : Uuid} {r r' : List (Tid × CartDeed)}
    (h : Undisturbed cartId (r ++ r')) : Undisturbed cartId r :=
  fun t p found quantity hm => h t p found quantity (List.mem_append_left _ hm)

/-- A deed that writes nothing and shows the rows as they are. -/
theorem Recorded.look (h : Recorded items deeds) (hw : ∀ cartId p, d.writes cartId p = none)
    (hd : ∀ cartId its, d.Shows cartId its → items cartId = its) :
    Recorded items (deeds ++ [(t, d)]) where
  kept l t' d' r cartId its he hs hu := by
    rcases snoc_eq_append_cons he with ⟨-, hd', -⟩ | ⟨r', rfl, hold⟩
    · cases hd'
      exact hd cartId its hs
    · exact h.kept l t' d' r' cartId its hold hs hu.of_append
  last cartId p quantity hq := by
    rw [lastWrite_snoc, hw, Option.none_or] at hq
    exact h.last cartId p quantity hq

theorem Recorded.write {cartId : Uuid} {p : ProductId} {found quantity : Option Nat}
    {its : List CartItemEntity} (h : Recorded items deeds)
    (hsame : found = quantity → its = items cartId)
    (hline : ∀ q, lineOf its q = if q = p then quantity else lineOf (items cartId) q) :
    Recorded (Function.update items cartId its)
      (deeds ++ [(t, .wrote cartId p found quantity)]) where
  kept l t' d' r cartId' its' he hs hu := by
    rcases snoc_eq_append_cons he with ⟨-, hd', -⟩ | ⟨r', rfl, hold⟩
    · cases hd'
      rcases hs with hs | hs <;> cases hs
    · have hkept := h.kept l t' d' r' cartId' its' hold hs hu.of_append
      by_cases e : cartId' = cartId
      · subst e
        have hw := hu t p found quantity (List.mem_append_right _ (List.mem_singleton.mpr rfl))
        rw [Function.update_self, hsame hw, hkept]
      · rw [Function.update_of_ne e, hkept]
  last cartId' q quantity' hq := by
    rw [lastWrite_snoc] at hq
    by_cases e : cartId' = cartId
    · subst e
      rw [Function.update_self, hline]
      by_cases eq : q = p
      · simpa [CartDeed.writes, eq] using hq
      · rw [if_neg eq]
        refine h.last cartId' q quantity' ?_
        simpa [CartDeed.writes, Ne.symm eq] using hq
    · rw [Function.update_of_ne e]
      refine h.last cartId' q quantity' ?_
      simpa [CartDeed.writes, Ne.symm e] using hq

end recorded

/-! ### The invariant -/

namespace CartWorld

/-- What thread `t` did. -/
def own (s : CartWorld) (t : Tid) : List CartDeed :=
  (s.deeds.filter fun d => d.1 == t).map Prod.snd

def Owner (s : CartWorld) (cartId : Uuid) (userId : UserId) : Prop :=
  ∃ cart ∈ s.carts, cart.id = cartId ∧ cart.userId = userId

def CheckedOut (s : CartWorld) (cartId : Uuid) : Prop :=
  ∃ cart ∈ s.carts, cart.id = cartId ∧ cart.checkedOutAt ≠ none

end CartWorld

/-- The order has these lines. -/
def HasLines (order : OrderEntity) (items : List CartItemEntity) : Prop :=
  order.items.map (fun item => (item.productId, item.quantity)) =
    items.map fun item => (item.productId, item.quantity)

/-- How far a call has come: it looks around and sets lines; a checkout claims the cart that it
read last; it places one order with the lines it read. -/
inductive Story (s : CartWorld) : List CartDeed → Prop
  | browsing {l : List CartDeed} (hl : ∀ d ∈ l, d.Browses) : Story s l
  | claimed {l : List CartDeed} {cartId : Uuid} {seen items : List CartItemEntity}
    (hl : ∀ d ∈ l, d.Browses) (hne : seen ≠ []) (hnd : (seen.map (·.productId)).Nodup) :
    Story s (l ++ [.saw cartId seen, .claimed cartId items])
  | placed {l : List CartDeed} {cartId : Uuid} {seen items : List CartItemEntity}
    {order : OrderEntity} (hl : ∀ d ∈ l, d.Browses) (hne : seen ≠ [])
    (hnd : (seen.map (·.productId)).Nodup) (ho : s.world.order order.id = some order)
    (hlines : HasLines order seen) :
    Story s (l ++ [.saw cartId seen, .claimed cartId items, .placed order.id])

structure CartInv (s : CartWorld) : Prop where
  ids : (s.carts.map (·.id)).Nodup
  oneOpen : ∀ a ∈ s.carts, ∀ b ∈ s.carts, a.userId = b.userId → a.checkedOutAt = none →
    b.checkedOutAt = none → a = b
  lines : ∀ cartId, ((s.cartItems cartId).map (·.productId)).Nodup
  known : ∀ cartId, ∀ item ∈ s.cartItems cartId, s.world.product item.productId ≠ none
  recorded : Recorded s.cartItems s.deeds
  claimed : ∀ t cartId items, (t, .claimed cartId items) ∈ s.deeds → s.CheckedOut cartId
  claimant : ∀ cart ∈ s.carts, cart.checkedOutAt ≠ none →
    ∃ t items, (t, .claimed cart.id items) ∈ s.deeds
  claimOnce : ∀ t t' cartId items items', (t, .claimed cartId items) ∈ s.deeds →
    (t', .claimed cartId items') ∈ s.deeds → t = t'
  story : ∀ t, Story s (s.own t)
  orders : ∀ o, s.world.order o ≠ none → ∃ t, (t, .placed o) ∈ s.deeds

/-- What the call may note. -/
def CartDeed.AllowedBy (k : CartCall) (s : CartWorld) : CartDeed → Prop
  | .saw _ _ => True
  | .wrote _ _ _ _ => True
  | .claimed cartId _ => ∃ userId, k = .checkout userId ∧ s.Owner cartId userId
  | .placed o => ∃ row, k = .checkout row.userId ∧ s.world.order o = some row

/-- One step of thread `t` in call `k`. -/
structure Moves (t : Tid) (k : CartCall) (s s' : CartWorld) : Prop where
  frame : Store.Frame t s.world.db s'.world.db
  deeds : ∃ ds : List CartDeed, s'.deeds = s.deeds ++ ds.map (Prod.mk t) ∧ ∀ d ∈ ds, d.AllowedBy k s'
  carts : ∀ cart ∈ s.carts, ∃ cart' ∈ s'.carts, cart'.id = cart.id ∧ cart'.userId = cart.userId ∧
    (cart.checkedOutAt ≠ none → cart' = cart)
  orders : ∀ o row, s.world.order o = some row → s'.world.order o = some row

theorem Moves.owner (h : Moves t k s s') {cartId : Uuid} {userId : UserId}
    (ho : s.Owner cartId userId) : s'.Owner cartId userId := by
  obtain ⟨cart, hc, rfl, rfl⟩ := ho
  obtain ⟨cart', hc', hid, hu, -⟩ := h.carts cart hc
  exact ⟨cart', hc', hid, hu⟩

theorem own_append {deeds : List (Tid × CartDeed)} {ds : List CartDeed}
    (h : s'.deeds = deeds ++ ds.map (Prod.mk t)) :
    s'.own t = ((deeds.filter fun d => d.1 == t).map Prod.snd) ++ ds := by
  have hf : (ds.map (Prod.mk t)).filter (fun d => d.1 == t) = ds.map (Prod.mk t) := by
    apply List.filter_eq_self.mpr
    intro d hd
    obtain ⟨d', -, rfl⟩ := List.mem_map.mp hd
    simp
  rw [CartWorld.own, h, List.filter_append, hf, List.map_append, List.map_map]
  congr 1
  exact List.map_id _

theorem own_note {d : CartDeed} : (s.note t d).own t = s.own t ++ [d] := by
  simp [CartWorld.own, CartWorld.note]

theorem own_append_other {ds : List CartDeed} (h : s'.deeds = s.deeds ++ ds.map (Prod.mk t))
    {t' : Tid} (ht : t' ≠ t) : s'.own t' = s.own t' := by
  have hf : (ds.map (Prod.mk t)).filter (fun d => d.1 == t') = [] := by
    apply List.filter_eq_nil_iff.mpr
    intro d hd
    obtain ⟨d', -, rfl⟩ := List.mem_map.mp hd
    simpa using Ne.symm ht
  rw [CartWorld.own, h, List.filter_append, hf, List.append_nil, CartWorld.own]

theorem Moves.own (h : Moves t k s s') {t' : Tid} (ht : t' ≠ t) : s'.own t' = s.own t' := by
  obtain ⟨ds, hd, -⟩ := h.deeds
  exact own_append_other hd ht

theorem mem_own {d : CartDeed} : d ∈ s.own t ↔ (t, d) ∈ s.deeds := by
  simp [CartWorld.own]

/-- A story goes on being true when the orders stay. -/
theorem Story.mono {l : List CartDeed} (h : Story s l)
    (ho : ∀ o row, s.world.order o = some row → s'.world.order o = some row) : Story s' l := by
  cases h with
  | browsing hl => exact .browsing hl
  | claimed hl hne hnd => exact .claimed hl hne hnd
  | placed hl hne hnd horder hlines => exact .placed hl hne hnd (ho _ _ horder) hlines

end OrderLifecycle.Cart

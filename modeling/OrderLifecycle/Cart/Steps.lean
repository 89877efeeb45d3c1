import Mathlib.Data.List.Nodup
import OrderLifecycle.Cart.Invariant

open Framework

namespace OrderLifecycle.Cart

variable {s s' : CartWorld} {t : Tid} {k : CartCall}

theorem stories (ds : List CartDeed) (h : ∀ t, Story s (s.own t))
    (hd : s'.deeds = s.deeds ++ ds.map (Prod.mk t))
    (ho : ∀ o row, s.world.order o = some row → s'.world.order o = some row)
    (hown : Story s' (s.own t ++ ds)) (t' : Tid) : Story s' (s'.own t') := by
  by_cases e : t' = t
  · subst e
    rw [own_append hd]
    exact hown
  · rw [own_append_other hd e]
    exact (h t').mono ho

/-- A call that has not claimed a cart reads or writes the rows of one. -/
theorem browse_step {d : CartDeed} {items : Uuid → List CartItemEntity} (hi : CartInv s)
    (hd : d.Browses) (hb : ∀ d ∈ s.own t, d.Browses)
    (hlines : ∀ cartId, ((items cartId).map (·.productId)).Nodup)
    (hknown : ∀ cartId, ∀ item ∈ items cartId, s.world.product item.productId ≠ none)
    (hrec : Recorded items (s.deeds ++ [(t, d)])) :
    CartInv { s with cartItems := items, deeds := s.deeds ++ [(t, d)] } ∧
      Moves t k s { s with cartItems := items, deeds := s.deeds ++ [(t, d)] } := by
  have hold {t' : Tid} {d' : CartDeed} (hn : ¬d'.Browses) (hm : (t', d') ∈ s.deeds ++ [(t, d)]) :
      (t', d') ∈ s.deeds := by
    rcases List.mem_append.mp hm with hm | hm
    · exact hm
    · cases List.mem_singleton.mp hm
      exact absurd hd hn
  constructor
  · refine ⟨hi.ids, hi.oneOpen, hlines, hknown, hrec, ?_, ?_, ?_, ?_, ?_⟩
    · intro t' cartId its hm
      exact hi.claimed t' cartId its (hold (fun h => h) hm)
    · intro cart hc hne
      obtain ⟨t', its, hm⟩ := hi.claimant cart hc hne
      exact ⟨t', its, List.mem_append_left _ hm⟩
    · intro t₁ t₂ cartId its its' h₁ h₂
      exact hi.claimOnce t₁ t₂ cartId its its' (hold (fun h => h) h₁) (hold (fun h => h) h₂)
    · refine stories (t := t) [d] hi.story ?_ (fun _ _ h => h) ?_
      · rfl
      · apply Story.browsing
        intro d' hd'
        rcases List.mem_append.mp hd' with hd' | hd'
        · exact hb d' hd'
        · rw [List.mem_singleton.mp hd']
          exact hd
    · intro o ho
      obtain ⟨t', hm⟩ := hi.orders o ho
      exact ⟨t', List.mem_append_left _ hm⟩
  · refine ⟨.refl, ⟨[d], rfl, ?_⟩, fun cart hc => ⟨cart, hc, rfl, rfl, fun _ => rfl⟩, fun _ _ h => h⟩
    intro d' hd'
    rw [List.mem_singleton.mp hd']
    cases d with
    | saw => trivial
    | wrote => trivial
    | claimed => exact hd.elim
    | placed => exact hd.elim

theorem look_step (hi : CartInv s) (hb : ∀ d ∈ s.own t, d.Browses) (cartId : Uuid) :
    CartInv (s.note t (.saw cartId (s.cartItems cartId))) ∧
      Moves t k s (s.note t (.saw cartId (s.cartItems cartId))) := by
  apply browse_step (d := .saw cartId (s.cartItems cartId)) hi trivial hb hi.lines hi.known
  apply hi.recorded.look
  · intro _ _
    rfl
  · intro cartId' its hs
    rcases hs with hs | hs <;> cases hs
    rfl

theorem writeItems_self {cartId : Uuid} {its : List CartItemEntity} :
    (s.writeItems cartId its).cartItems cartId = its := Function.update_self ..

theorem writeItems_other {cartId cartId' : Uuid} {its : List CartItemEntity} (h : cartId' ≠ cartId) :
    (s.writeItems cartId its).cartItems cartId' = s.cartItems cartId' := Function.update_of_ne h ..

theorem write_step {cartId : Uuid} {p : ProductId} {quantity : Option Nat}
    {its : List CartItemEntity} (hi : CartInv s) (hb : ∀ d ∈ s.own t, d.Browses)
    (hnd : (its.map (·.productId)).Nodup)
    (hknown : ∀ item ∈ its, s.world.product item.productId ≠ none)
    (hsame : lineOf (s.cartItems cartId) p = quantity → its = s.cartItems cartId)
    (hline : ∀ q, lineOf its q = if q = p then quantity else lineOf (s.cartItems cartId) q) :
    CartInv ((s.writeItems cartId its).note t
      (.wrote cartId p (lineOf (s.cartItems cartId) p) quantity)) ∧
    Moves t k s ((s.writeItems cartId its).note t
      (.wrote cartId p (lineOf (s.cartItems cartId) p) quantity)) := by
  apply browse_step (d := .wrote cartId p (lineOf (s.cartItems cartId) p) quantity) hi trivial hb
  · intro cartId'
    by_cases e : cartId' = cartId
    · subst e
      rwa [writeItems_self]
    · rw [writeItems_other e]
      exact hi.lines cartId'
  · intro cartId' item hm
    by_cases e : cartId' = cartId
    · subst e
      rw [writeItems_self] at hm
      exact hknown item hm
    · rw [writeItems_other e] at hm
      exact hi.known cartId' item hm
  · exact hi.recorded.write hsame hline

theorem mem_setLine {cartId : Uuid} {p : ProductId} {n : Nat} {items : List CartItemEntity}
    {item : CartItemEntity} (h : item ∈ setLine cartId p n items) :
    item.productId = p ∨ ∃ old ∈ items, old.productId = item.productId := by
  unfold setLine at h
  split at h
  · obtain ⟨old, hold, rfl⟩ := List.mem_map.mp h
    refine .inr ⟨old, hold, ?_⟩
    split <;> rfl
  · rcases List.mem_append.mp h with h | h
    · exact .inr ⟨item, h, rfl⟩
    · rw [List.mem_singleton.mp h]
      exact .inl rfl

theorem upsert_step (hi : CartInv s) (hb : ∀ d ∈ s.own t, d.Browses) (cartId : Uuid)
    {p : ProductId} (hp : s.world.product p ≠ none) (n : Nat) :
    CartInv ((s.writeItems cartId (setLine cartId p n (s.cartItems cartId))).note t
      (.wrote cartId p (lineOf (s.cartItems cartId) p) (some n))) ∧
    Moves t k s ((s.writeItems cartId (setLine cartId p n (s.cartItems cartId))).note t
      (.wrote cartId p (lineOf (s.cartItems cartId) p) (some n))) := by
  apply write_step hi hb (setLine_nodup (hi.lines cartId))
  · intro item hm
    rcases mem_setLine hm with he | ⟨old, hold, he⟩
    · rwa [he]
    · rw [← he]
      exact hi.known cartId old hold
  · exact setLine_same (hi.lines cartId)
  · intro q
    exact lineOf_setLine

theorem delete_step (hi : CartInv s) (hb : ∀ d ∈ s.own t, d.Browses) (cartId : Uuid)
    (p : ProductId) :
    CartInv ((s.writeItems cartId (removeLine p (s.cartItems cartId))).note t
      (.wrote cartId p (lineOf (s.cartItems cartId) p) none)) ∧
    Moves t k s ((s.writeItems cartId (removeLine p (s.cartItems cartId))).note t
      (.wrote cartId p (lineOf (s.cartItems cartId) p) none)) := by
  apply write_step hi hb (removeLine_nodup (hi.lines cartId))
  · intro item hm
    exact hi.known cartId item (List.mem_filter.mp hm).1
  · exact removeLine_same
  · intro q
    exact lineOf_removeLine

/-! ### The carts table -/

theorem openCart_some {userId : UserId} {cart : CartEntity} (h : s.openCart userId = some cart) :
    cart ∈ s.carts ∧ cart.userId = userId ∧ cart.checkedOutAt = none := by
  have hp := List.find?_some h
  simp only [Bool.and_eq_true, beq_iff_eq, Option.isNone_iff_eq_none] at hp
  exact ⟨List.mem_of_find?_eq_some h, hp⟩

theorem openCart_none {userId : UserId} (h : s.openCart userId = none) {cart : CartEntity}
    (hc : cart ∈ s.carts) (hu : cart.userId = userId) : cart.checkedOutAt ≠ none := by
  intro hn
  have hp := List.find?_eq_none.mp h cart hc
  simp [hu, hn] at hp

theorem open_step {userId : UserId} {id : Uuid} (hi : CartInv s) (hn : s.openCart userId = none)
    (hid : ∀ cart ∈ s.carts, cart.id ≠ id) :
    CartInv { s with carts := s.carts ++ [⟨id, userId, none⟩] } ∧
      Moves t k s { s with carts := s.carts ++ [⟨id, userId, none⟩] } := by
  constructor
  · refine ⟨?_, ?_, hi.lines, hi.known, hi.recorded, ?_, ?_, hi.claimOnce, ?_, hi.orders⟩
    · rw [List.map_append, List.nodup_append]
      refine ⟨hi.ids, by simp, ?_⟩
      intro a ha b hb e
      obtain ⟨cart, hc, rfl⟩ := List.mem_map.mp ha
      have hb' : b = id := by simpa using hb
      exact hid cart hc (e.trans hb')
    · intro a ha b hb hu ha₀ hb₀
      rcases List.mem_append.mp ha with ha | ha <;> rcases List.mem_append.mp hb with hb | hb
      · exact hi.oneOpen a ha b hb hu ha₀ hb₀
      · rw [List.mem_singleton.mp hb] at hu
        exact absurd ha₀ (openCart_none hn ha hu)
      · rw [List.mem_singleton.mp ha] at hu
        exact absurd hb₀ (openCart_none hn hb hu.symm)
      · rw [List.mem_singleton.mp ha, List.mem_singleton.mp hb]
    · intro t' cartId its hm
      obtain ⟨cart, hc, hcid, hne⟩ := hi.claimed t' cartId its hm
      exact ⟨cart, List.mem_append_left _ hc, hcid, hne⟩
    · intro cart hc hne
      rcases List.mem_append.mp hc with hc | hc
      · exact hi.claimant cart hc hne
      · rw [List.mem_singleton.mp hc] at hne
        exact absurd rfl hne
    · intro t'
      exact (hi.story t').mono fun _ _ h => h
  · refine ⟨.refl, ⟨[], by simp⟩, ?_, fun _ _ h => h⟩
    intro cart hc
    exact ⟨cart, List.mem_append_left _ hc, rfl, rfl, fun _ => rfl⟩

/-- The carts after the claim. -/
def claimCarts (cartId : Uuid) (now : Nat) (cart : CartEntity) : CartEntity :=
  if cart.id == cartId && cart.checkedOutAt.isNone then
    { cart with checkedOutAt := some (.date now) }
  else cart

@[simp] theorem claimCarts_id (cartId : Uuid) (now : Nat) (cart : CartEntity) :
    (claimCarts cartId now cart).id = cart.id := by
  unfold claimCarts
  split <;> rfl

@[simp] theorem claimCarts_userId (cartId : Uuid) (now : Nat) (cart : CartEntity) :
    (claimCarts cartId now cart).userId = cart.userId := by
  unfold claimCarts
  split <;> rfl

theorem claimCarts_cases (cartId : Uuid) (now : Nat) (cart : CartEntity) :
    claimCarts cartId now cart = cart ∨
      (cart.id = cartId ∧ cart.checkedOutAt = none ∧
        (claimCarts cartId now cart).checkedOutAt ≠ none) := by
  unfold claimCarts
  split
  · next h =>
    simp only [Bool.and_eq_true, beq_iff_eq, Option.isNone_iff_eq_none] at h
    exact .inr ⟨h.1, h.2, Option.some_ne_none _⟩
  · exact .inl rfl

/-- The checkout of the cart that the call has read last. -/
theorem claim_step {userId : UserId} {cart : CartEntity} {seen : List CartItemEntity}
    {l : List CartDeed} (now : Nat) (hi : CartInv s) (hl : ∀ d ∈ l, d.Browses)
    (hown : s.own t = l ++ [.saw cart.id seen]) (hne : seen ≠ [])
    (hnd : (seen.map (·.productId)).Nodup) (hc : cart ∈ s.carts) (hu : cart.userId = userId)
    (hopen : cart.checkedOutAt = none) :
    CartInv ({ s with carts := s.carts.map (claimCarts cart.id now) }.note t
      (.claimed cart.id (s.cartItems cart.id))) ∧
    Moves t (.checkout userId) s ({ s with carts := s.carts.map (claimCarts cart.id now) }.note t
      (.claimed cart.id (s.cartItems cart.id))) := by
  have hout : ∀ a ∈ s.carts, a.checkedOutAt ≠ none → claimCarts cart.id now a = a := by
    intro a _ hne
    rcases claimCarts_cases cart.id now a with he | ⟨-, hn, -⟩
    · exact he
    · exact absurd hn hne
  have hnew : (claimCarts cart.id now cart).checkedOutAt ≠ none := by
    simp [claimCarts, hopen]
  have hfree (t' : Tid) (its : List CartItemEntity) :
      (t', .claimed cart.id its) ∉ s.deeds := by
    intro hm
    obtain ⟨a, ha, hid, hne⟩ := hi.claimed t' cart.id its hm
    have he : a = cart := List.inj_on_of_nodup_map hi.ids ha hc hid
    exact hne (he ▸ hopen)
  constructor
  · refine ⟨?_, ?_, hi.lines, hi.known, ?_, ?_, ?_, ?_, ?_, ?_⟩
    · have he : (s.carts.map (claimCarts cart.id now)).map (·.id) = s.carts.map (·.id) := by
        rw [List.map_map]
        exact List.map_congr_left fun a _ => claimCarts_id ..
      exact he ▸ hi.ids
    · intro a ha b hb hab ha₀ hb₀
      obtain ⟨a', ha', rfl⟩ := List.mem_map.mp ha
      obtain ⟨b', hb', rfl⟩ := List.mem_map.mp hb
      rcases claimCarts_cases cart.id now a' with he | ⟨-, -, hne'⟩
      · rcases claimCarts_cases cart.id now b' with he' | ⟨-, -, hne'⟩
        · rw [he] at hab ha₀ ⊢
          rw [he'] at hab hb₀ ⊢
          exact hi.oneOpen a' ha' b' hb' hab ha₀ hb₀
        · exact absurd hb₀ hne'
      · exact absurd ha₀ hne'
    · apply hi.recorded.look
      · intro _ _
        rfl
      · intro cartId its hs
        rcases hs with hs | hs <;> cases hs
        rfl
    · intro t' cartId its hm
      rcases List.mem_append.mp hm with hm | hm
      · obtain ⟨a, ha, hid, hne⟩ := hi.claimed t' cartId its hm
        exact ⟨a, List.mem_map.mpr ⟨a, ha, hout a ha hne⟩, hid, hne⟩
      · cases List.mem_singleton.mp hm
        exact ⟨_, List.mem_map_of_mem hc, claimCarts_id .., hnew⟩
    · intro a ha hne
      obtain ⟨a', ha', rfl⟩ := List.mem_map.mp ha
      rcases claimCarts_cases cart.id now a' with he | ⟨hid, -, -⟩
      · rw [he] at hne ⊢
        obtain ⟨t', its, hm⟩ := hi.claimant a' ha' hne
        exact ⟨t', its, List.mem_append_left _ hm⟩
      · refine ⟨t, s.cartItems cart.id, ?_⟩
        rw [claimCarts_id, hid]
        exact List.mem_append_right _ (List.mem_singleton.mpr rfl)
    · intro t₁ t₂ cartId its its' h₁ h₂
      rcases List.mem_append.mp h₁ with h₁ | h₁ <;> rcases List.mem_append.mp h₂ with h₂ | h₂
      · exact hi.claimOnce t₁ t₂ cartId its its' h₁ h₂
      · cases List.mem_singleton.mp h₂
        exact (hfree t₁ its h₁).elim
      · cases List.mem_singleton.mp h₁
        exact (hfree t₂ its' h₂).elim
      · cases List.mem_singleton.mp h₁
        cases List.mem_singleton.mp h₂
        rfl
    · refine stories (t := t) [.claimed cart.id (s.cartItems cart.id)] hi.story ?_ (fun _ _ h => h) ?_
      · rfl
      · rw [hown, List.append_assoc]
        exact .claimed hl hne hnd
    · intro o ho
      obtain ⟨t', hm⟩ := hi.orders o ho
      exact ⟨t', List.mem_append_left _ hm⟩
  · refine ⟨.refl, ⟨[.claimed cart.id (s.cartItems cart.id)], rfl, ?_⟩, ?_, fun _ _ h => h⟩
    · intro d hd
      rw [List.mem_singleton.mp hd]
      exact ⟨userId, rfl, _, List.mem_map_of_mem hc, claimCarts_id .., by simpa using hu⟩
    · intro a ha
      exact ⟨_, List.mem_map_of_mem ha, claimCarts_id .., claimCarts_userId .., hout a ha⟩

/-! ### The orders side -/

theorem mem_newOrders {before after : World} {o : OrderId} :
    o ∈ newOrders before after ↔ before.order o = none ∧ after.order o ≠ none := by
  have hkey (h : after.order o ≠ none) : Key.order o ∈ after.db.keys := after.db.listed _ (.inl h)
  simp only [newOrders, List.mem_filterMap]
  constructor
  · rintro ⟨key, -, hk⟩
    cases key with
    | order o' =>
      simp only [Option.ite_none_right_eq_some, Bool.and_eq_true, Option.isNone_iff_eq_none,
        Option.isSome_iff_ne_none, Option.some.injEq] at hk
      obtain ⟨h, rfl⟩ := hk
      exact h
    | _ => cases hk
  · rintro ⟨hb, ha⟩
    refine ⟨.order o, hkey ha, ?_⟩
    simp [hb, Option.isSome_iff_ne_none.mpr ha]

theorem newOrders_nodup (before after : World) : (newOrders before after).Nodup := by
  apply after.db.nodup.filterMap
  intro key key' o ho ho'
  cases key <;> cases key' <;> simp_all

theorem newOrders_same {before after : World} (h : Store.SameCommitted before.db after.db) :
    newOrders before after = [] := by
  apply List.eq_nil_iff_forall_not_mem.mpr
  intro o ho
  obtain ⟨hb, ha⟩ := mem_newOrders.mp ho
  apply ha
  rw [World.order, h.1]
  exact hb

theorem put_same {w : World} (h : Store.SameCommitted s.world.db w.db) :
    ordersPart.put t s w = { s with world := w } := by
  simp [ordersPart, newOrders_same h]

/-- A statement of the orders service that commits nothing. -/
theorem quiet_step {w : World} (hi : CartInv s) (hsame : Store.SameCommitted s.world.db w.db)
    (hframe : Store.Frame t s.world.db w.db) :
    CartInv (ordersPart.put t s w) ∧ Moves t k s (ordersPart.put t s w) ∧
      (ordersPart.put t s w).own t = s.own t := by
  rw [put_same hsame]
  have horder : w.order = s.world.order := funext fun o => congrFun hsame.1 (.order o)
  have hproduct : w.product = s.world.product := funext fun p => congrFun hsame.1 (.product p)
  refine ⟨⟨hi.ids, hi.oneOpen, hi.lines, ?_, hi.recorded, hi.claimed, hi.claimant, hi.claimOnce, ?_,
    ?_⟩, ⟨hframe, ⟨[], by simp⟩, fun cart hc => ⟨cart, hc, rfl, rfl, fun _ => rfl⟩, ?_⟩, rfl⟩
  · intro cartId item hm
    rw [hproduct]
    exact hi.known cartId item hm
  · intro t'
    apply (hi.story t').mono
    intro o row ho
    rwa [horder]
  · intro o ho
    rw [horder] at ho
    exact hi.orders o ho
  · intro o row ho
    rwa [horder]

/-- The commit of one order with the lines that the call read. -/
theorem place_step {w : World} {order : OrderEntity} {l : List CartDeed} {cartId : Uuid}
    {seen items : List CartItemEntity} (hi : CartInv s)
    (hframe : Store.Frame t s.world.db w.db) (hl : ∀ d ∈ l, d.Browses)
    (hown : s.own t = l ++ [.saw cartId seen, .claimed cartId items]) (hne : seen ≠ [])
    (hnd : (seen.map (·.productId)).Nodup) (hnew : s.world.order order.id = none)
    (horder : w.order = Function.update s.world.order order.id (some order))
    (hproduct : w.product = s.world.product) (hlines : HasLines order seen) :
    CartInv (ordersPart.put t s w) ∧ Moves t (.checkout order.userId) s (ordersPart.put t s w) ∧
      (ordersPart.put t s w).own t =
        l ++ [.saw cartId seen, .claimed cartId items, .placed order.id] := by
  have hnews : newOrders s.world w = [order.id] := by
    have hmem (o : OrderId) : o ∈ newOrders s.world w ↔ o = order.id := by
      rw [mem_newOrders, horder]
      by_cases e : o = order.id
      · simp [e, hnew]
      · simp [e]
    have hperm := (List.perm_ext_iff_of_nodup (newOrders_nodup s.world w)
      (List.nodup_singleton order.id)).mpr fun o => by simp [hmem]
    exact List.perm_singleton.mp hperm
  have hput : ordersPart.put t s w =
      { s with world := w, deeds := s.deeds ++ [CartDeed.placed order.id].map (Prod.mk t) } := by
    simp [ordersPart, hnews]
  have hkeep : ∀ o row, s.world.order o = some row → w.order o = some row := by
    intro o row ho
    rw [horder]
    by_cases e : o = order.id
    · rw [e, hnew] at ho
      cases ho
    · rwa [Function.update_of_ne e]
  have hplaced : w.order order.id = some order := by rw [horder, Function.update_self]
  rw [hput]
  refine ⟨⟨hi.ids, hi.oneOpen, hi.lines, ?_, ?_, ?_, ?_, ?_, ?_, ?_⟩, ⟨hframe, ⟨_, rfl, ?_⟩,
    fun cart hc => ⟨cart, hc, rfl, rfl, fun _ => rfl⟩, hkeep⟩, ?_⟩
  · intro cartId item hm
    rw [hproduct]
    exact hi.known cartId item hm
  · apply hi.recorded.look
    · intro _ _
      rfl
    · intro cartId its hs
      rcases hs with hs | hs <;> cases hs
  · intro t' cartId its hm
    exact hi.claimed t' cartId its (by simpa using hm)
  · intro cart hc hn
    obtain ⟨t', its, hm⟩ := hi.claimant cart hc hn
    exact ⟨t', its, List.mem_append_left _ hm⟩
  · intro t₁ t₂ cartId its its' h₁ h₂
    exact hi.claimOnce t₁ t₂ cartId its its' (by simpa using h₁) (by simpa using h₂)
  · refine stories (t := t) [.placed order.id] hi.story ?_ hkeep ?_
    · rfl
    · rw [hown, List.append_assoc]
      exact .placed hl hne hnd hplaced hlines
  · intro o ho
    by_cases e : o = order.id
    · exact ⟨t, by simp [e]⟩
    · have ho' : s.world.order o ≠ none := by
        intro hn
        apply ho
        change w.order o = none
        rw [horder, Function.update_of_ne e, hn]
      obtain ⟨t', hm⟩ := hi.orders o ho'
      exact ⟨t', List.mem_append_left _ hm⟩
  · intro d hd
    rw [List.mem_singleton.mp hd]
    exact ⟨order, rfl, hplaced⟩
  · rw [own_append (t := t) rfl]
    change s.own t ++ _ = _
    rw [hown, List.append_assoc]
    rfl

end OrderLifecycle.Cart

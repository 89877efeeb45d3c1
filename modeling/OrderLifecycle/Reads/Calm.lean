import OrderLifecycle.StepKinds

open Framework

namespace OrderLifecycle

/-- A step of `t` that stays in its own rows and puts nothing into the cache. -/
structure Calm (t : Tid) (w w' : World) : Prop where
  frame : w.db.Frame t w'.db
  keys : w.db.keys <+: w'.db.keys
  order : ∀ o entry, w'.cache.order o = some entry → w.cache.order o = some entry
  userOrders : ∀ u list, w'.cache.userOrders u = some list → w.cache.userOrders u = some list

/-- The statement is such a step. -/
abbrev CalmStmt := Takes Calm

variable {t : Tid} {w w' : World} {α β : Type}

theorem Calm.of_cache (hf : w.db.Frame t w'.db) (hk : w.db.keys <+: w'.db.keys)
    (hc : w'.cache = w.cache) : Calm t w w' :=
  ⟨hf, hk, fun _ _ h => hc ▸ h, fun _ _ h => hc ▸ h⟩

theorem Calm.of_same (hd : w'.db = w.db) (hc : w'.cache = w.cache) : Calm t w w' := by
  apply Calm.of_cache _ _ hc
  · rw [hd]
    exact .refl
  · exact hd.symm ▸ List.prefix_rfl

theorem Calm.trans {w'' : World} (h : Calm t w w') (h' : Calm t w' w'') : Calm t w w'' where
  frame := h.frame.trans h'.frame
  keys := h.keys.trans h'.keys
  order o entry he := h.order o entry (h'.order o entry he)
  userOrders u list he := h.userOrders u list (h'.userOrders u list he)

theorem Calm.abort : Calm t w { w with db := w.db.abort t } := by
  have he : (w.db.abort t).keys = w.db.keys := Store.abort_keys ..
  have hkeys : w.db.keys <+: (w.db.abort t).keys := he.symm ▸ List.prefix_rfl
  exact .of_cache Store.abort_frame hkeys rfl

theorem Calm.rollback : Calm t w { w with db := w.db.rollback t } :=
  .of_cache Store.rollback_frame List.prefix_rfl rfl

theorem Calm.put {key : Key} {v : Option (Row key)} {js : List (Tid × Deed)}
    (hfree : w.db.Free t key) : Calm t w { w with db := w.db.put t key v js hfree } :=
  .of_cache (Store.put_frame (h := hfree)) (Store.put_keys (h := hfree)) rfl

theorem Cache.del_order {c : Cache} {key : CacheKey} {o : OrderId} {entry : OrderEntity}
    (h : (c.del key).order o = some entry) : c.order o = some entry := by
  cases key with
  | userOrders u => exact h
  | order id =>
    by_cases e : o = id
    · simp [del, e] at h
    · simpa [del, Function.update_of_ne e] using h

theorem Cache.del_userOrders {c : Cache} {key : CacheKey} {u : UserId} {list : List OrderEntity}
    (h : (c.del key).userOrders u = some list) : c.userOrders u = some list := by
  cases key with
  | order id => exact h
  | userOrders u' =>
    by_cases e : u = u'
    · simp [del, e] at h
    · simpa [del, Function.update_of_ne e] using h

theorem Calm.del (keys : List CacheKey) :
    Calm t w { w with cache := keys.foldl Cache.del w.cache } := by
  refine ⟨.refl, List.prefix_rfl, ?_, ?_⟩
  · intro o entry h
    dsimp only at h
    induction keys generalizing w with
    | nil => exact h
    | cons key keys ih => exact Cache.del_order (ih (w := { w with cache := w.cache.del key }) h)
  · intro u list h
    dsimp only at h
    induction keys generalizing w with
    | nil => exact h
    | cons key keys ih =>
      exact Cache.del_userOrders (ih (w := { w with cache := w.cache.del key }) h)

theorem permits_calm : Permits Calm (fun _ => True) fun _ => True where
  aside hd hc _ _ := .of_same hd hc
  trans := Calm.trans
  abort := .abort
  put _ hfree := .put hfree
  metrics _ _ := .of_same rfl rfl

/-! ### Statements -/

theorem calm_cacheDel (keys : List CacheKey) : Confined CalmStmt AnyError (cacheDel keys) := by
  apply takes_stmt
  intro t ch w r w' hs
  cases hs
  split
  · exact .of_same rfl rfl
  · exact .del keys

theorem calm_transaction : CoversTransaction CalmStmt where
  start := by
    apply takes_stmt
    intro t ch w r w' hs
    dsimp only at hs
    split at hs
    · cases hs
      exact .of_same rfl rfl
    · cases hs
      have he : (w.db.begin t).keys = w.db.keys := Store.begin_keys ..
      have hkeys : w.db.keys <+: (w.db.begin t).keys := he.symm ▸ List.prefix_rfl
      exact .of_cache Store.begin_frame hkeys rfl
  commit := by
    apply takes_stmt
    intro t ch w r w' hs
    dsimp only at hs
    split at hs
    · cases hs
      exact .rollback
    · cases hs
      have he : (w.db.commit t).keys = w.db.keys := Store.commit_keys ..
      have hkeys : w.db.keys <+: (w.db.commit t).keys := he.symm ▸ List.prefix_rfl
      exact .of_cache Store.commit_frame hkeys rfl
  rollback := by
    apply takes_stmt
    intro t ch w r w' hs
    cases hs
    exact .rollback

/-! ### Services -/

theorem calm_covers : Covers CalmStmt AnyError fun _ => True :=
  permits_calm.covers (fun _ => trivial) (fun _ => trivial) (fun _ => trivial) (fun _ => trivial)
    calm_cacheDel

theorem calm_handle (message : OutboxMessageEntity) : Confined CalmStmt AnyError (handle message) :=
  (permits_calm.coversInbox calm_transaction (fun _ _ => trivial) fun _ => trivial).handle calm_covers
    (permits_calm.coversGateway (fun _ => trivial) fun _ => trivial) message

theorem calm_replenishLowStock : Confined CalmStmt AnyError replenishLowStock :=
  (permits_calm.coversReplenishment (fun _ => trivial) fun _ _ => trivial).replenishLowStock

end OrderLifecycle

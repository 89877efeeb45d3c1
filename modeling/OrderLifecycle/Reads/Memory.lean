import Mathlib.Data.List.Basic
import OrderLifecycle.Framework.History
import OrderLifecycle.Lifecycle.Logic
import OrderLifecycle.Reads.Calm

open Framework

namespace OrderLifecycle

/-- The committed orders of a user, in the order of the table. -/
def World.ordersOf (w : World) (u : UserId) : List OrderEntity :=
  w.orders.filter fun order => order.userId == u

/-- What the query of `listOrdersForUser` finds. -/
def World.listOf (w : World) (u : UserId) : List OrderEntity := newestFirst (w.ordersOf u)

/-- What everybody keeps to: the own rows. -/
def readLogic : Logic World Choice Request where
  inv _ := True
  guar t _ w w' := w.db.Frame t w'.db ∧ w.db.keys <+: w'.db.keys
  envGuar w w' := w'.db = w.db
  choice _ := True

/-- What a step puts into the cache, the call has read before: an order or the list of a user, of
terminal orders only. The list was read by the second of three statements. -/
structure Fills (k : Request) (h : Past World) (w w' : World) : Prop where
  order : ∀ o entry, w'.cache.order o = some entry → w.cache.order o = some entry ∨
    ∃ x ∈ h, ∃ row, x.1.order o = some row ∧ isTerminalStatus row.status = true ∧
      entry = row.toJson
  userOrders : ∀ u list, w'.cache.userOrders u = some list → w.cache.userOrders u = some list ∨
    k = .listOrdersForUser u ∧ ∃ x y, h = [x, y] ∧
      (∀ order ∈ y.1.listOf u, isTerminalStatus order.status = true) ∧
      list = (y.1.listOf u).map (·.toJson)

variable {t : Tid} {k : Request} {w w' : World} {α β : Type} {u : UserId}

theorem select_orders (hidle : Idle t w) : w.db.select t (orderOfUser u) = w.ordersOf u := by
  unfold Store.select World.ordersOf World.orders
  rw [List.filter_filterMap]
  apply List.filterMap_congr
  intro key _
  rw [Store.view_idle hidle]
  cases key with
  | order o =>
    have hfilter (row : Option OrderEntity) :
        (row.bind fun order => if order.userId = u then some order else none) =
          row.filter fun order => order.userId == u := by
      cases row with
      | none => rfl
      | some order => simp [Option.filter_some]
    exact hfilter _
  | _ => cases w.db.rows _ <;> rfl

/-! ### Rules -/

theorem Calm.fills {h : Past World} (hc : Calm t w w') : Fills k h w w' :=
  ⟨fun o entry he => .inl (hc.order o entry he), fun u list he => .inl (hc.userOrders u list he)⟩

theorem stable_read {P : World → Prop}
    (h : ∀ t' (w w' : World), t' ≠ t → w.db.Frame t' w'.db → P w → P w') :
    readLogic.Stable t P := by
  rintro w w' ⟨-, -, ⟨t', k, ht, hf, -⟩ | hd⟩ hp
  · exact h t' w w' ht hf hp
  · apply h (t + 1) w w' (Nat.succ_ne_self t) _ hp
    rw [hd]
    exact .refl

theorem stable_read_idle : readLogic.Stable t (Idle t) :=
  stable_read fun _ _ _ ht hf h => (hf.txns _ ht.symm).trans h

section rules

variable {P : Past World → World → Prop} {Q : β → Past World → World → Prop}
  {E : AppError → Past World → World → Prop}

theorem calm_of_confined {f : Stmt World Choice (Except AppError β)}
    (h : Confined CalmStmt AnyError (stmt f)) : CalmStmt _ f := by
  cases h with
  | act hf _ => exact hf

/-- A calm statement. -/
theorem recalls_calm {f : Stmt World Choice (Except AppError β)}
    (hc : Confined CalmStmt AnyError (stmt f)) (hP : ∀ h, readLogic.Stable t (P h))
    (hf : ∀ h w ch r w', P h w → f t ch w = some (r, w') →
      match r with
      | .ok a => Q a (h ++ [(w, w')]) w'
      | .error e => E e (h ++ [(w, w')]) w') :
    Recalls readLogic (Fills k) t k P (Framework.stmt f) Q E := by
  apply recalls_stmt hP
  intro h w ch r w' _ _ hp hs
  have hcalm : Calm t w w' := calm_of_confined hc t ch w r w' hs
  refine ⟨trivial, ⟨hcalm.frame, hcalm.keys⟩, hcalm.fills, ?_⟩
  have hpost := hf h w ch r w' hp hs
  cases r with
  | ok a => exact hpost
  | error e => exact hpost

/-- A calm SQL statement, of which only the success matters. -/
theorem recalls_sql {f : Tid → Choice → World → Option (Except AppError β × World)}
    (hc : Confined CalmStmt AnyError (sql f)) (hP : ∀ h, readLogic.Stable t (P h))
    (hf : ∀ h w ch a w', P h w → w.db.aborted t = false → f t ch w = some (.ok a, w') →
      Q a (h ++ [(w, w')]) w') :
    Recalls readLogic (Fills k) t k P (sql f) Q fun _ _ _ => True := by
  apply recalls_calm hc hP
  intro h w ch r w' hp hs
  rcases sql_cases hs with ⟨-, rfl, -⟩ | ⟨-, -, rfl, -⟩ | ⟨ha, -, ⟨b, rfl, hs'⟩ | ⟨e, w₁, rfl, -⟩⟩
  · trivial
  · trivial
  · exact hf h w ch b w' hp ha hs'
  · trivial

theorem recalls_insertFresh {key : Uuid → Key} (row : Choice → (id : Uuid) → Row (key id))
    {Q : (Σ id, Row (key id)) → Past World → World → Prop} (hP : ∀ h, readLogic.Stable t (P h))
    (hf : ∀ h w ch hfree, P h w → w.db.aborted t = false →
      let w' := { w with db := w.db.put t (key ch.fresh) (some (row ch ch.fresh)) [] hfree }
      Q ⟨ch.fresh, row ch ch.fresh⟩ (h ++ [(w, w')]) w') :
    Recalls readLogic (Fills k) t k P (insertFresh key row) Q fun _ _ _ => True := by
  apply recalls_sql (calm_covers.insertFresh (fun _ => trivial) row) hP
  intro h w ch created w' hp ha hs
  obtain ⟨he, -, hfree, rfl⟩ := insertFresh_cases hs
  cases he
  exact hf h w ch hfree hp ha

/-- What is known of the past stays known. -/
theorem wpPast_confined {p : Prog World Choice β} {R : β → Prop} {M : Past World → Prop}
    (hp : p.All CalmStmt R) (hM : ∀ h x, M h → M (h ++ [x])) {h : Past World} (hm : M h) :
    wpPast readLogic (Fills k) t k p (fun _ h _ => M h) h w := by
  induction hp generalizing h w with
  | ret _ => exact hm
  | act hf _ ih =>
    intro w₁ _ _ ch _ b w₂ hs
    have hcalm : Calm t w₁ w₂ := hf t ch w₁ b w₂ hs
    exact ⟨trivial, ⟨hcalm.frame, hcalm.keys⟩, hcalm.fills, ih b ⟨t, ch, w₁, w₂, hs⟩ (hM _ _ hm)⟩

theorem recalls_confined {x : Service β} {M : Past World → Prop}
    (hx : Confined CalmStmt AnyError x) (hM : ∀ h x, M h → M (h ++ [x])) :
    Recalls readLogic (Fills k) t k (fun h _ => M h) x (fun _ h _ => M h) fun _ _ _ => True := by
  intro h w hm
  apply wpPast_mono _ (wpPast_confined hx hM hm)
  intro r h w hm
  cases r with
  | ok _ => exact hm
  | error _ => trivial

theorem recalls_anything {x : Service β} (hx : Confined CalmStmt AnyError x) :
    Recalls readLogic (Fills k) t k P x (fun _ _ _ => True) fun _ _ _ => True :=
  recalls_pre (fun _ _ _ => trivial) (recalls_confined hx fun _ _ _ => trivial)

end rules

/-! ### `getOrderForUser` -/

/-- `order` was read from its row, or from the cache. -/
def ReadOrder (id : OrderId) (u : UserId) (order : OrderEntity) (h : Past World) : Prop :=
  ∃ x ∈ h, (x.1.order id = some order ∧ order.userId = u) ∨
    ∃ entry, x.1.cache.order id = some entry ∧ entry.userId = u ∧ order = rehydrateOrder entry

theorem recalls_cacheGetOrder (id : OrderId) :
    Recalls readLogic (Fills k) t k (fun _ w => Idle t w) (cacheGetOrder id)
      (fun cached h w => (∀ entry, cached = some entry → ∃ x ∈ h, x.1.cache.order id = some entry) ∧
        Idle t w) fun _ _ _ => True := by
  apply recalls_calm _ fun _ => stable_read_idle
  · intro h w ch r w' hidle hs
    cases hs
    refine ⟨fun entry he => ⟨(w, w), by simp, ?_⟩, hidle⟩
    split at he
    · cases he
    · exact he
  · apply takes_stmt
    intro t ch w r w' hs
    cases hs
    exact .of_same rfl rfl

theorem recalls_findOrderOfUser (id : OrderId) (u : UserId) :
    Recalls readLogic (Fills k) t k (fun _ w => Idle t w) (findOrderOfUser id u)
      (fun found h _ => ∀ order, found = some order → order.userId = u ∧
        ∃ x ∈ h, x.1.order id = some order) fun _ _ _ => True := by
  apply recalls_bind (Q := fun row h _ => ∀ order : OrderEntity, row = some order →
    ∃ x ∈ h, x.1.order id = some order)
  · apply recalls_sql (calm_covers.selectRow _) fun _ => stable_read_idle
    intro h w ch row w' hidle _ hs
    cases hs
    intro order ho
    refine ⟨(w, w), by simp, ?_⟩
    rwa [Store.view_idle hidle] at ho
  · intro row
    apply recalls_pure
    intro h w hrow order ho
    obtain ⟨hmem, hu⟩ := Option.filter_eq_some_iff.mp ho
    exact ⟨by simpa using hu, hrow order hmem⟩

/-- Only what is terminal is cached. -/
theorem recalls_cacheSetOrder {id : OrderId} {order : OrderEntity}
    (ht : isTerminalStatus order.status = true) :
    Recalls readLogic (Fills k) t k (fun h _ => ∃ x ∈ h, x.1.order id = some order)
      (cacheSetOrder id order) (fun _ h _ => ∃ x ∈ h, x.1.order id = some order)
      fun _ _ _ => True := by
  apply recalls_stmt fun h => .const _
  rintro h w ch r w' - - ⟨x, hx, ho⟩ hs
  cases hs
  split
  · exact ⟨trivial, ⟨.refl, List.prefix_rfl⟩, (Calm.of_same (t := t) rfl rfl).fills,
      ⟨x, List.mem_append_left _ hx, ho⟩⟩
  · refine ⟨trivial, ⟨.refl, List.prefix_rfl⟩, ⟨fun o entry he => ?_, fun _ _ he => .inl he⟩,
      ⟨x, List.mem_append_left _ hx, ho⟩⟩
    by_cases e : o = id
    · subst e
      simp only [Cache.setOrder, Function.update_self, Option.some.injEq] at he
      exact .inr ⟨x, hx, order, ho, ht, he.symm⟩
    · simp only [Cache.setOrder, Function.update_of_ne e] at he
      exact .inl he

theorem recalls_fetchOrderForUser (id : OrderId) (u : UserId) :
    Recalls readLogic (Fills k) t k (fun _ w => Idle t w) (fetchOrderForUser id u)
      (fun order h _ => ReadOrder id u order h) fun _ _ _ => True := by
  apply recalls_bind (recalls_findOrderOfUser id u)
  intro found
  cases found with
  | none => exact recalls_throw fun _ _ _ => trivial
  | some order =>
    apply recalls_pre (P := fun h _ => order.userId = u ∧ ∃ x ∈ h, x.1.order id = some order)
    · exact fun h w hp => hp order rfl
    · apply recalls_fact
      intro hu
      have hread (h : Past World) (w : World) (hp : ∃ x ∈ h, x.1.order id = some order) :
          ReadOrder id u order h := by
        obtain ⟨x, hx, ho⟩ := hp
        exact ⟨x, hx, .inl ⟨ho, hu⟩⟩
      apply recalls_ite
      · intro ht
        apply recalls_bind (recalls_cacheSetOrder ht)
        intro _
        exact recalls_pure hread
      · intro _
        exact recalls_pure hread

theorem recalls_getOrderForUser (id : OrderId) (u : UserId) :
    Recalls readLogic (Fills k) t k (fun _ w => Idle t w) (getOrderForUser id u)
      (fun order h _ => ReadOrder id u order h) fun _ _ _ => True := by
  apply recalls_bind (recalls_cacheGetOrder id)
  intro cached
  cases cached with
  | none => exact recalls_pre (fun _ _ hp => hp.2) (recalls_fetchOrderForUser id u)
  | some entry =>
    apply recalls_ite
    · intro hu
      apply recalls_pure
      rintro h w ⟨hp, -⟩
      obtain ⟨x, hx, hcached⟩ := hp entry rfl
      exact ⟨x, hx, .inr ⟨entry, hcached, hu, rfl⟩⟩
    · intro _
      exact recalls_pre (fun _ _ hp => hp.2) (recalls_fetchOrderForUser id u)

end OrderLifecycle

import OrderLifecycle.Framework.Solo
import OrderLifecycle.Reads.Coherence

open Framework

namespace OrderLifecycle

/-- A `Date`, not the text of one. -/
def Timestamp.isDate : Timestamp → Bool
  | .date _ => true
  | .iso _ => false

/-- Every timestamp of the entity is a `Date`, as the database driver returns them. -/
structure OrderEntity.Dated (order : OrderEntity) : Prop where
  created : order.createdAt.isDate = true
  updated : order.updatedAt.isDate = true
  initiated : ∀ x, order.paymentInitiatedAt = some x → x.isDate = true

instance (order : OrderEntity) : Decidable order.Dated :=
  decidable_of_iff (order.createdAt.isDate = true ∧ order.updatedAt.isDate = true ∧
    ∀ x ∈ order.paymentInitiatedAt, x.isDate = true)
    ⟨fun h => ⟨h.1, h.2.1, h.2.2⟩, fun h => ⟨h.created, h.updated, h.initiated⟩⟩

variable {t : Tid} {ch : Nat → Choice} {i : Nat} {w : World} {order : OrderEntity} {u : UserId}
  {orders : List OrderEntity}

theorem Timestamp.toDate_toJson {x : Timestamp} (h : x.isDate = true) : x.toJson.toDate = x := by
  cases x with
  | date ms => rfl
  | iso ms => cases h

/-- The fields that `rehydrateOrder` lists are restored; `paymentInitiatedAt` is not one of them. -/
theorem rehydrateOrder_toJson_eq (h : order.Dated) : rehydrateOrder order.toJson =
    { order with paymentInitiatedAt := order.paymentInitiatedAt.map Timestamp.toJson } := by
  simp only [rehydrateOrder, OrderEntity.toJson, Timestamp.toDate_toJson h.created,
    Timestamp.toDate_toJson h.updated]

theorem rehydrated_iff (h : order.Dated) :
    (rehydrateOrder order.toJson = order ∧ (rehydrateOrder order.toJson).Dated) ↔
      order.paymentInitiatedAt = none := by
  rw [rehydrateOrder_toJson_eq h]
  constructor
  · rintro ⟨-, hdated⟩
    cases hp : order.paymentInitiatedAt with
    | none => rfl
    | some x =>
      have htext := hdated.initiated x.toJson (by simp [hp])
      cases htext
  · intro hp
    have hsame : { order with paymentInitiatedAt := order.paymentInitiatedAt.map Timestamp.toJson } =
        order := by
      rw [hp, Option.map_none, ← hp]
    rw [hsame]
    exact ⟨rfl, h⟩

theorem rehydratedList_iff (h : ∀ order ∈ orders, order.Dated) :
    ((orders.map (·.toJson)).map rehydrateOrder = orders ∧
        ∀ order ∈ (orders.map (·.toJson)).map rehydrateOrder, order.Dated) ↔
      ∀ order ∈ orders, order.paymentInitiatedAt = none := by
  induction orders with
  | nil => simp
  | cons order orders ih =>
    have hhead := rehydrated_iff (h order List.mem_cons_self)
    have htail := ih fun order' ho => h order' (List.mem_cons_of_mem _ ho)
    simp only [List.map_cons, List.cons.injEq, List.forall_mem_cons, ← hhead, ← htail]
    tauto

/-- A hit serves the entry. -/
theorem solo_getOrderForUser_hit {entry : OrderEntity} (hen : w.cacheEnabled = true)
    (hok : (ch i).fail = false) (hit : w.cache.order order.id = some entry)
    (hu : entry.userId = order.userId) :
    (getOrderForUser order.id order.userId).run.solo t ch none i w =
      some (w, some (.ok (rehydrateOrder entry), i + 1)) := by
  change Prog.solo t ch none (.act _ _ _) i w = _
  simp only [Prog.solo, reduceCtorEq, if_false, Option.bind_some, hen, hok, hit]
  change Prog.solo t ch none (ExceptT.run (if entry.userId = order.userId then _ else _)) (i + 1) w = _
  rw [if_pos hu]
  rfl

theorem solo_listOrdersForUser_hit {list : List OrderEntity} (hen : w.cacheEnabled = true)
    (hok : (ch i).fail = false) (hit : w.cache.userOrders u = some list) :
    (listOrdersForUser u).run.solo t ch none i w =
      some (w, some (.ok (list.map rehydrateOrder), i + 1)) := by
  change Prog.solo t ch none (.act _ _ _) i w = _
  simp only [Prog.solo, reduceCtorEq, if_false, Option.bind_some, hen, hok, hit]
  rfl

/-- A read that hits what was stored returns the stored entity, every `Date` a `Date` again, just
if its payment was never initiated. -/
theorem cache_round_trip (hen : w.cacheEnabled = true) (hok : (ch i).fail = false) :
    (∀ order, order.Dated →
      (∃ c : Cache, w.cache.order order.id = (c.setOrder order.id order).order order.id) →
      ∃ e, (getOrderForUser order.id order.userId).run.solo t ch none i w =
          some (w, some (.ok e, i + 1)) ∧
        ((e = order ∧ e.Dated) ↔ order.paymentInitiatedAt = none)) ∧
    ∀ u orders, (∀ order ∈ orders, order.Dated) →
      (∃ c : Cache, w.cache.userOrders u = (c.setUserOrders u orders).userOrders u) →
      ∃ es, (listOrdersForUser u).run.solo t ch none i w = some (w, some (.ok es, i + 1)) ∧
        ((es = orders ∧ ∀ e ∈ es, e.Dated) ↔ ∀ order ∈ orders, order.paymentInitiatedAt = none) := by
  constructor
  · rintro order hdated ⟨c, hc⟩
    have hit : w.cache.order order.id = some order.toJson := hc.trans (Function.update_self ..)
    exact ⟨_, solo_getOrderForUser_hit hen hok hit rfl, rehydrated_iff hdated⟩
  · rintro u orders hdated ⟨c, hc⟩
    have hit : w.cache.userOrders u = some (orders.map (·.toJson)) :=
      hc.trans (Function.update_self ..)
    exact ⟨_, solo_listOrdersForUser_hit hen hok hit, rehydratedList_iff hdated⟩

/-- An order of user 9 that was paid for at instant 5. -/
def paidOrder : OrderEntity :=
  ⟨1, 9, .completed, some (.date 5), [⟨7, "Widget", 3⟩], .date 1, .date 8⟩

/-- The shop with one product, once the order is in the cache. -/
def withCached (order : OrderEntity) : World :=
  { World.initial oneProduct true with
    cache := Cache.setOrder ⟨fun _ => none, fun _ => none⟩ order.id order }

theorem cache_round_trip_unpaid : ∃ e,
    (getOrderForUser 1 9).run.solo 0 (fun _ => {}) none 0
      (withCached { paidOrder with status := .failed, paymentInitiatedAt := none }) =
      some (withCached { paidOrder with status := .failed, paymentInitiatedAt := none },
        some (.ok e, 1)) ∧
    e = { paidOrder with status := .failed, paymentInitiatedAt := none } ∧ e.Dated := by
  let w := withCached { paidOrder with status := .failed, paymentInitiatedAt := none }
  let ch : Nat → Choice := fun _ => {}
  have hok : (ch 0).fail = false := rfl
  obtain ⟨horder, -⟩ := cache_round_trip (t := 0) (w := w) rfl hok
  obtain ⟨e, hrun, hiff⟩ := horder { paidOrder with status := .failed, paymentInitiatedAt := none }
    (by decide) ⟨⟨fun _ => none, fun _ => none⟩, rfl⟩
  exact ⟨e, hrun, hiff.mpr rfl⟩

/-- The `paymentInitiatedAt` of a completed order comes back as a text. -/
theorem not_cache_round_trip : ¬∀ (order : OrderEntity) (w : World) (ch : Nat → Choice) e,
    isTerminalStatus order.status = true → order.Dated → w.cacheEnabled = true →
    (ch 0).fail = false → w.cache.order order.id = some order.toJson →
    (getOrderForUser order.id order.userId).run.solo 0 ch none 0 w = some (w, some (.ok e, 1)) →
    e = order ∧ e.Dated := by
  intro hall
  obtain ⟨heq, -⟩ := hall paidOrder (withCached paidOrder) (fun _ => {})
    (rehydrateOrder paidOrder.toJson) rfl (by decide) rfl rfl rfl rfl
  exact absurd heq (by decide)

end OrderLifecycle

import OrderLifecycle.Reads.OrderList

open Framework

namespace OrderLifecycle

/-! ### Sequential histories -/

/-- A call of `OrdersService`; `transitionOrder` without a manager. -/
inductive OrderCall
  | createOrder (userId : UserId) (lines : List OrderLine)
  | initiatePayment (id : OrderId) (userId : UserId)
  | cancelOrder (id : OrderId) (userId : UserId)
  | transitionOrder (id : OrderId) (target : OrderStatus)
  | getOrderForUser (id : OrderId) (userId : UserId)
  | listOrdersForUser (userId : UserId)
  deriving DecidableEq, Repr

def perform : OrderCall → Service Reply
  | .createOrder userId lines => respond (.createOrder userId lines)
  | .initiatePayment id userId => respond (.initiatePayment id userId)
  | .cancelOrder id userId => respond (.cancelOrder id userId)
  | .transitionOrder id target => do
    let order ← transitionOrder id target
    return .order order
  | .getOrderForUser id userId => respond (.getOrderForUser id userId)
  | .listOrdersForUser userId => respond (.listOrdersForUser userId)

/-- Thread `t` makes a call while nobody else does anything, statement `i` of it with the choice
`ch i`; or an entry of Redis reaches its TTL. -/
inductive Event
  | call (t : Tid) (k : OrderCall) (ch : Nat → Choice)
  | expire (key : CacheKey)

def Event.take : Event → World → Option (World × List (Except AppError Reply))
  | .call t k ch, w =>
    ((perform k).run.solo t ch none 0 w).bind fun x => x.2.map fun r => (x.1, [r.1])
  | .expire key, w => some ({ w with cache := w.cache.del key }, [])

/-- A history, and what its calls return. -/
def replay : List Event → World → Option (World × List (Except AppError Reply))
  | [], w => some (w, [])
  | e :: rest, w => (e.take w).bind fun x => (replay rest x.1).map fun y => (y.1, x.2 ++ y.2)

/-- The order data, with timestamps as instants. -/
def Reply.data : Reply → Reply
  | order o => order o.toJson
  | orders os => orders (os.map (·.toJson))
  | handled outcome => handled outcome
  | unit => unit

def answers (rs : List (Except AppError Reply)) : List (Except AppError Reply) :=
  rs.map fun r => r.map Reply.data

/-- The list of `u` in Redis lacks an order of `u` that is in the database. -/
def World.StaleList (w : World) (u : UserId) : Prop :=
  ∃ list, w.cache.userOrders u = some list ∧
    ∃ o row, w.order o = some row ∧ row.userId = u ∧ o ∉ list.map (·.id)

/-- The call lists orders, and a `get` that works finds such a list. -/
def Event.Misled : Event → World → Prop
  | .call _ (.listOrdersForUser u) ch, w =>
    w.cacheEnabled = true ∧ (ch 0).fail = false ∧ w.StaleList u
  | _, _ => False

/-- No call of the history is. -/
def NeverMisled (events : List Event) (w : World) : Prop :=
  ∀ before e after w₁ rs, events = before ++ e :: after → replay before w = some (w₁, rs) →
    ¬e.Misled w₁

/-! ### What a call keeps -/

/-- Every entry of Redis is of committed orders that are terminal: of one order, or of all orders
that the user had when the list was stored. -/
structure AtRest (w : World) : Prop where
  idle : ∀ t, Idle t w
  ids : ∀ o row, w.order o = some row → row.id = o
  order : ∀ o entry, w.cache.order o = some entry →
    ∃ row, w.order o = some row ∧ isTerminalStatus row.status = true ∧ entry = row.toJson
  userOrders : ∀ u list, w.cache.userOrders u = some list →
    ∃ (keys : List Key) (stored : Key → Option OrderEntity), keys <+: w.db.keys ∧
      (∀ key row, stored key = some row →
        w.ownRow u key = some row ∧ isTerminalStatus row.status = true) ∧
      list = (newestFirst (keys.filterMap stored)).map (·.toJson)

/-- The orders after `w₀`: none is lost, and terminal ones are as they were. -/
structure After (w₀ : World) (rows : OrderId → Option OrderEntity) : Prop where
  ids : ∀ o row, rows o = some row → row.id = o
  kept : ∀ o row, w₀.order o = some row → ∃ row', rows o = some row' ∧
    row'.userId = row.userId ∧ (isTerminalStatus row.status = true → row' = row)

/-- The orders that thread `t` sees. -/
def World.viewed (w : World) (t : Tid) (o : OrderId) : Option OrderEntity := w.db.view t (.order o)

/-- Thread `t` has come from `w₀` to `w`. -/
structure Going (t : Tid) (w₀ w : World) : Prop where
  calm : Calm t w₀ w
  rows : After w₀ w.order
  view : After w₀ (w.viewed t)

variable {t : Tid} {ch : Nat → Choice} {i : Nat} {w w' w₀ : World} {α β : Type} {u : UserId}

theorem AtRest.going (h : AtRest w) : Going t w w where
  calm := .of_same rfl rfl
  rows := ⟨h.ids, fun _ row ho => ⟨row, ho, rfl, fun _ => rfl⟩⟩
  view := by
    have hview : w.viewed t = w.order := funext fun o => Store.view_idle (h.idle t)
    rw [hview]
    exact ⟨h.ids, fun _ row ho => ⟨row, ho, rfl, fun _ => rfl⟩⟩

theorem After.terminal {rows : OrderId → Option OrderEntity} (h : After w₀ rows) {o : OrderId}
    {row : OrderEntity} (ho : w₀.order o = some row) (ht : isTerminalStatus row.status = true) :
    rows o = some row := by
  obtain ⟨row', ho', -, hsame⟩ := h.kept o row ho
  rw [ho', hsame ht]

theorem Going.atRest (h : Going t w₀ w) (hidle : Idle t w) (hc : AtRest w₀) : AtRest w where
  idle t' := by
    by_cases e : t' = t
    · exact e ▸ hidle
    · exact (h.calm.frame.txns t' e).trans (hc.idle t')
  ids := h.rows.ids
  order o entry he := by
    obtain ⟨row, ho, ht, rfl⟩ := hc.order o entry (h.calm.order o entry he)
    exact ⟨row, h.rows.terminal ho ht, ht, rfl⟩
  userOrders u list hl := by
    obtain ⟨keys, stored, hk, hs, rfl⟩ := hc.userOrders u list (h.calm.userOrders u list hl)
    refine ⟨keys, stored, hk.trans h.calm.keys, fun key row hrow => ?_, rfl⟩
    obtain ⟨hown, ht⟩ := hs key row hrow
    refine ⟨?_, ht⟩
    cases key with
    | order o =>
      obtain ⟨ho, hu⟩ := Option.filter_eq_some_iff.mp hown
      exact Option.filter_eq_some_iff.mpr ⟨h.rows.terminal ho ht, hu⟩
    | _ => cases hown

/-- A stored list that lacks no order is the list of the user. -/
theorem AtRest.fresh (h : AtRest w) {list : List OrderEntity}
    (hl : w.cache.userOrders u = some list) (hs : ¬w.StaleList u) :
    list = (w.listOf u).map (·.toJson) := by
  obtain ⟨keys, stored, ⟨extra, hkeys⟩, hstored, rfl⟩ := h.userOrders u list hl
  have hall {key : Key} {row : OrderEntity} (hown : w.ownRow u key = some row) :
      stored key = some row ∧ key ∈ keys := by
    cases key with
    | order o =>
      obtain ⟨ho, hu⟩ := Option.filter_eq_some_iff.mp hown
      have hmem : o ∈ ((newestFirst (keys.filterMap stored)).map (·.toJson)).map (·.id) := by
        by_contra hnot
        exact hs ⟨_, hl, o, row, ho, by simpa using hu, hnot⟩
      simp only [List.map_map, List.mem_map, newestFirst, List.mem_mergeSort,
        List.mem_filterMap] at hmem
      obtain ⟨row', ⟨key', hkey', hrow'⟩, hid⟩ := hmem
      obtain ⟨hown', -⟩ := hstored key' row' hrow'
      cases key' with
      | order o' =>
        obtain ⟨ho', -⟩ := Option.filter_eq_some_iff.mp hown'
        have he : o' = o := (h.ids o' row' ho').symm.trans hid
        subst he
        cases ho.symm.trans ho'
        exact ⟨hrow', hkey'⟩
      | _ => cases hown'
    | _ => cases hown
  have hsame : stored = w.ownRow u := by
    funext key
    cases hst : stored key with
    | some row => exact (hstored key row hst).1.symm
    | none =>
      cases hown : w.ownRow u key with
      | none => rfl
      | some row => exact nomatch hst.symm.trans (hall hown).1
  have hextra : extra.filterMap (w.ownRow u) = [] := by
    apply List.filterMap_eq_nil_iff.mpr
    intro key hkey
    cases hown : w.ownRow u key with
    | none => rfl
    | some row =>
      have hnodup := w.db.nodup
      rw [← hkeys, List.nodup_append] at hnodup
      exact absurd rfl (hnodup.2.2 key (hall hown).2 key hkey)
  unfold World.listOf
  rw [ordersOf_eq, ← hkeys, List.filterMap_append, hextra, List.append_nil, hsame]

end OrderLifecycle

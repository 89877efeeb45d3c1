import OrderLifecycle.Confinement
import OrderLifecycle.Database.Sql

open Framework

namespace OrderLifecycle

/-- The statement takes steps in `T` only. -/
def Takes (T : Tid → World → World → Prop) (β : Type) (f : Stmt World Choice β) : Prop :=
  ∀ t ch w b w', f t ch w = some (b, w') → T t w w'

/-- In `T` are the steps that write rows of `K`, record metrics of `M`, or change nothing but the log
of the gateway. -/
structure Permits (T : Tid → World → World → Prop) (K : Key → Prop) (M : Metric → Prop) : Prop where
  aside {t : Tid} {w w' : World} (db : w'.db = w.db) (cache : w'.cache = w.cache)
    (messages : w'.messages = w.messages) (metrics : w'.metrics = w.metrics) : T t w w'
  trans {t : Tid} {w w' w'' : World} : T t w w' → T t w' w'' → T t w w''
  abort {t : Tid} {w : World} : T t w { w with db := w.db.abort t }
  put {t : Tid} {w : World} {key : Key} {v : Option (Row key)} {js : List (Tid × Deed)} (hkey : K key)
    (hfree : w.db.Free t key) : T t w { w with db := w.db.put t key v js hfree }
  metrics {t : Tid} {w : World} (ms : List Metric) (hms : ∀ m ∈ ms, M m) :
    T t w { w with metrics := w.metrics ++ ms }

variable {T : Tid → World → World → Prop} {K : Key → Prop} {M : Metric → Prop} {α β : Type}

theorem takes_stmt {f : Stmt World Choice (Except AppError β)} (hf : Takes T _ f) :
    Confined (Takes T) AnyError (stmt f) :=
  confined_stmt hf fun _ _ _ _ _ _ => trivial

namespace Permits

variable (h : Permits T K M)
include h

/-! ### Statements -/

theorem sql {f : Tid → Choice → World → Option (Except AppError β × World)} (hf : Takes T _ f) :
    Confined (Takes T) AnyError (sql f) := by
  apply takes_stmt
  intro t ch w r w' hs
  rcases sql_cases hs with ⟨-, -, rfl⟩ | ⟨-, -, -, rfl⟩ |
    ⟨-, -, ⟨b, rfl, hs'⟩ | ⟨e, w₁, rfl, hs', rfl⟩⟩
  · exact h.aside rfl rfl rfl rfl
  · exact h.abort
  · exact hf t ch w _ w' hs'
  · exact h.trans (hf t ch w _ w₁ hs') h.abort

theorem selectRow (key : Key) : Confined (Takes T) AnyError (selectRow key) := by
  apply h.sql
  intro t ch w r w' hs
  cases hs
  exact h.aside rfl rfl rfl rfl

theorem selectAll (f : (key : Key) → Row key → Option α) :
    Confined (Takes T) AnyError (selectAll f) := by
  apply h.sql
  intro t ch w r w' hs
  cases hs
  exact h.aside rfl rfl rfl rfl

theorem updateRow {key : Key} (hkey : K key) (p : Row key → Bool) (f : Choice → Row key → Row key)
    (deeds : Row key → List Deed) : Confined (Takes T) AnyError (updateRow key p f deeds) := by
  apply h.sql
  intro t ch w r w' hs
  rcases updateRow_cases hs with ⟨-, rfl, -⟩ | ⟨-, row, hfree, -, -, rfl⟩
  · exact h.aside rfl rfl rfl rfl
  · exact h.put hkey hfree

theorem insertRow {key : Key} (hkey : K key) (table : String) (row : Choice → Row key) :
    Confined (Takes T) AnyError (insertRow key table row) := by
  apply h.sql
  intro t ch w r w' hs
  obtain ⟨⟨b, db⟩, hins, he⟩ := Option.map_eq_some_iff.mp hs
  cases he
  rcases Store.insert_cases hins with ⟨-, rfl, -⟩ | ⟨-, -, hfree, rfl⟩
  · exact h.aside rfl rfl rfl rfl
  · exact h.put hkey hfree

theorem insertFresh {key : Uuid → Key} (hkey : ∀ id, K (key id))
    (row : Choice → (id : Uuid) → Row (key id)) :
    Confined (Takes T) AnyError (insertFresh key row) := by
  apply h.sql
  intro t ch w r w' hs
  obtain ⟨-, -, hfree, rfl⟩ := insertFresh_cases hs
  exact h.put (hkey _) hfree

theorem record (f : Nat → List Metric) (hf : ∀ now, ∀ m ∈ f now, M m) :
    Confined (Takes T) AnyError (record f) := by
  apply takes_stmt
  intro t ch w r w' hs
  cases hs
  exact h.metrics _ (hf _)

theorem recordMetric (m : Metric) (hm : M m) : Confined (Takes T) AnyError (recordMetric m) := by
  apply h.record
  intro now m' hm'
  rw [List.mem_singleton.mp hm']
  exact hm

theorem cacheGetOrder (id : OrderId) : Confined (Takes T) AnyError (cacheGetOrder id) := by
  apply takes_stmt
  intro t ch w r w' hs
  cases hs
  exact h.aside rfl rfl rfl rfl

theorem cacheGetUserOrders (u : UserId) : Confined (Takes T) AnyError (cacheGetUserOrders u) := by
  apply takes_stmt
  intro t ch w r w' hs
  cases hs
  exact h.aside rfl rfl rfl rfl

theorem mathRandom : Confined (Takes T) AnyError mathRandom := by
  apply takes_stmt
  intro t ch w r w' hs
  dsimp only at hs
  split at hs
  · cases hs
    exact h.aside rfl rfl rfl rfl
  · cases hs

/-! ### Services -/

theorem coversStock (hK : ∀ id, K (.product id)) : CoversStock (Takes T) AnyError where
  updateProduct id := h.updateRow (hK id)
  insufficientStock _ := trivial

theorem enqueue (hK : ∀ id, K (.outbox id)) (key : RoutingKey) (payload : OrderEvent) :
    Confined (Takes T) AnyError (enqueue key payload) := by
  apply confined_bind (h.insertFresh hK _)
  intro _
  exact confined_pure

theorem coversReads (hcache : ∀ f, Confined (Takes T) AnyError (cacheWrite f)) :
    CoversReads (Takes T) AnyError where
  selectRow := h.selectRow
  selectAll := h.selectAll
  cacheGetOrder := h.cacheGetOrder
  cacheGetUserOrders := h.cacheGetUserOrders
  cacheWrite := hcache
  notFound _ := trivial

theorem claim (hK : ∀ o, K (.authorization o)) (orderId : OrderId) :
    Confined (Takes T) AnyError (claim orderId) := by
  apply h.sql
  intro t ch w r w' hs
  obtain ⟨⟨b, db⟩, hins, he⟩ := Option.map_eq_some_iff.mp hs
  cases he
  rcases Store.insert_cases hins with ⟨-, rfl, -⟩ | ⟨-, -, hfree, rfl⟩
  · exact h.aside rfl rfl rfl rfl
  · exact h.trans (h.put (hK orderId) hfree) (h.aside rfl rfl rfl rfl)

theorem coversGateway (hK : ∀ o, K (.authorization o)) (hM : ∀ outcome, M (.paymentOutcome outcome)) :
    CoversGateway (Takes T) AnyError where
  selectRow := h.selectRow
  claim := h.claim hK
  isClaimStale _ := by
    apply h.sql
    intro t ch w r w' hs
    cases hs
    exact h.aside rfl rfl rfl rfl
  charge _ _ := by
    apply takes_stmt
    intro t ch w r w' hs
    cases hs
    exact h.aside rfl rfl rfl rfl
  recordDecision o _ := h.updateRow (hK o) _ _ _
  paymentOutcome _ := h.recordMetric _ (hM _)
  paymentInFlight _ := trivial

theorem coversReplenishment (hK : ∀ id, K (.product id))
    (hM : ∀ id amount, M (.stockReplenished id amount)) :
    CoversReplenishment (Takes T) AnyError where
  selectAll := h.selectAll
  mathRandom := h.mathRandom
  restock id _ := h.updateRow (hK id) _ _ _
  stockReplenished _ _ := h.recordMetric _ (hM _ _)

theorem covers (horder : ∀ o, K (.order o)) (hproduct : ∀ id, K (.product id))
    (houtbox : ∀ id, K (.outbox id)) (hM : ∀ m, M m)
    (hcache : ∀ keys, Confined (Takes T) AnyError (cacheDel keys)) : Covers (Takes T) AnyError K where
  selectRow := h.selectRow
  updateRow hkey := h.updateRow hkey
  insertFresh hkey := h.insertFresh hkey
  record f := h.record f fun _ m _ => hM m
  cacheDel := hcache
  order := horder
  product := hproduct
  outbox := houtbox
  notFound _ := trivial
  conflict _ := trivial
  insufficientStock _ := trivial

theorem coversInbox (htx : CoversTransaction (Takes T)) (hK : ∀ id c, K (.inbox id c))
    (hM : ∀ m, M m) : CoversInbox (Takes T) where
  toCoversTransaction := htx
  selectRow := h.selectRow
  insertInbox id c row := h.insertRow (hK id c) _ row
  record f := h.record f fun _ m _ => hM m

end Permits

end OrderLifecycle

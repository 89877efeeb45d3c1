import OrderLifecycle.Reads.Alone
import OrderLifecycle.Reads.ListSafety

open Framework

namespace OrderLifecycle

variable {t : Tid} {ch : Nat → Choice} {i j : Nat} {w w' v : World} {α β : Type} {u : UserId}
  {id : OrderId}

/-- From related worlds a call returns the same, but for a database that fails without Redis
where it was not asked with Redis. -/
def Harmless (x : Service α) (data : α → α) : Prop :=
  ∀ t ch w w' v r j, AtRest w → CacheOff w w' →
    x.run.solo t ch none 0 w = some (v, some (r, j)) →
    AtRest v ∧ ∃ v' r' j', x.run.solo t ch none 0 w' = some (v', some (r', j')) ∧ CacheOff v v' ∧
      (r' ≠ .error .database → r.map data = r'.map data)

theorem Comes.atRest {x : Service α} (hx : Comes t ch AtRest x AtRest) (hw : AtRest w)
    {r : Except AppError α} (h : x.run.solo t ch none i w = some (v, some (r, j))) : AtRest v := by
  have hend := hx i w hw v (some (r, j)) h
  cases r with
  | ok a => exact hend
  | error e => exact hend

theorem harmless_of_twin {x : Service α} {data : α → α} (hx : Confined TwinStmt AnyError x)
    (hc : ∀ t ch, Comes t ch AtRest x AtRest) : Harmless x data := by
  intro t ch w w' v r j hw hoff h
  obtain ⟨v', h', hoff'⟩ := hx.simulates hoff h
  exact ⟨(hc t ch).atRest hw h, v', r, j, h', hoff', fun _ => rfl⟩

theorem harmless_respond {x : Service α} {data : α → α} {f : α → Reply} (hx : Harmless x data)
    (hf : ∀ a b, data a = data b → (f a).data = (f b).data) :
    Harmless (x >>= fun a => pure (f a) : Service Reply) Reply.data := by
  intro t ch w w' v r j hw hoff h
  obtain ⟨v₁, r₁, h₁, hrest⟩ := Prog.solo_bind_some h
  match r₁ with
  | (.ok a, j₁) =>
    cases hrest
    obtain ⟨hv, v', r', j', h', hoff', hsame⟩ := hx t ch w w' _ _ _ hw hoff h₁
    refine ⟨hv, ?_⟩
    cases r' with
    | ok a' =>
      refine ⟨v', .ok (f a'), j', (Prog.solo_bind_ok h').trans rfl, hoff', fun _ => ?_⟩
      exact congrArg Except.ok (hf a a' (Except.ok.inj (hsame nofun)))
    | error e =>
      refine ⟨v', .error e, j', Prog.solo_bind_error h', hoff', fun hne => ?_⟩
      exact nomatch hsame fun he => hne (by cases he; rfl)
  | (.error e, j₁) =>
    obtain ⟨rfl, he⟩ := hrest
    cases he
    obtain ⟨hv, v', r', j', h', hoff', hsame⟩ := hx t ch w w' _ _ _ hw hoff h₁
    refine ⟨hv, ?_⟩
    cases r' with
    | ok a' => exact nomatch hsame nofun
    | error e' =>
      refine ⟨v', .error e', j', Prog.solo_bind_error h', hoff', fun hne => ?_⟩
      have he := hsame fun he => hne (by cases he; rfl)
      cases he
      rfl

/-! ### Reading one order -/

theorem comes_cacheGetOrder :
    Comes t ch AtRest (cacheGetOrder id) AtRest := by
  apply quiet_rest
  apply quiet_stmt
  apply quiet_same
  intro t ch w r w' hs
  cases hs
  exact ⟨rfl, .of_same rfl rfl⟩

theorem AtRest.setOrder {row : OrderEntity} (hw : AtRest w) (ho : w.order id = some row)
    (ht : isTerminalStatus row.status = true) :
    AtRest { w with cache := w.cache.setOrder id row } where
  idle := hw.idle
  ids := hw.ids
  order o entry he := by
    by_cases e : o = id
    · subst e
      simp only [Cache.setOrder, Function.update_self, Option.some.injEq] at he
      exact ⟨row, ho, ht, he.symm⟩
    · simp only [Cache.setOrder, Function.update_of_ne e] at he
      exact hw.order o entry he
  userOrders := hw.userOrders

theorem comes_findOrderOfUser (i : Nat) :
    SoloEnds t ch none (fun _ _ => True) i AtRest (findOrderOfUser id u)
      (fun found _ w => AtRest w ∧ ∀ order, found = some order → w.order id = some order)
      fun _ _ => AtRest := by
  apply ends_bind (Q := fun (row : Option OrderEntity) _ w =>
    AtRest w ∧ ∀ order, row = some order → w.order id = some order)
  · apply ends_stmt fun _ _ _ => trivial
    intro w r w' hw _ hs
    rcases sql_cases hs with ⟨-, rfl, rfl⟩ | ⟨-, -, rfl, rfl⟩ |
      ⟨-, -, ⟨b, rfl, hs'⟩ | ⟨e, w₁, rfl, hs', -⟩⟩
    · exact hw
    · rw [Store.abort_idle (hw.idle t)]
      exact hw
    · cases hs'
      refine ⟨hw, fun order ho => ?_⟩
      exact (Store.view_idle (hw.idle t)).symm.trans ho
    · cases hs'
  · intro row j
    apply ends_pure
    rintro w ⟨hw, hrow⟩
    exact ⟨hw, fun order ho => hrow order (Option.filter_eq_some_iff.mp ho).1⟩

theorem comes_fetchOrderForUser : Comes t ch AtRest (fetchOrderForUser id u) AtRest := by
  intro i
  apply ends_bind (comes_findOrderOfUser i)
  intro found j
  cases found with
  | none => exact ends_throw fun _ h => h.1
  | some order =>
    apply ends_ite
    · intro ht
      apply ends_bind (Q := fun _ _ => AtRest)
      · apply ends_stmt fun _ _ _ => trivial
        rintro w r w' ⟨hw, ho⟩ _ hs
        cases hs
        change AtRest (if _ then _ else _)
        split
        · exact hw
        · exact hw.setOrder (ho order rfl) ht
      · exact fun _ _ => ends_pure fun _ h => h
    · exact fun _ => ends_pure fun _ h => h.1

theorem comes_getOrderForUser : Comes t ch AtRest (getOrderForUser id u) AtRest := by
  intro i
  apply ends_bind (comes_cacheGetOrder i)
  intro cached j
  cases cached with
  | none => exact comes_fetchOrderForUser j
  | some entry =>
    apply ends_ite
    · exact fun _ => ends_pure fun _ h => h
    · exact fun _ => comes_fetchOrderForUser j

/-- `SELECT` of a committed row by a thread that has no transaction open. -/
theorem solo_selectRow (ch : Nat → Choice) (i : Nat) (hidle : Idle t w) (key : Key) :
    (selectRow key).run.solo t ch none i w = some (w, some
      (if (ch i).fail then .error .database else .ok (w.db.rows key), i + 1)) := by
  change Prog.solo t ch none (.act _ _ _) i w = _
  simp only [Prog.solo, reduceCtorEq, if_false, Store.aborted_idle hidle]
  split
  · simp only [Option.bind_some, Store.abort_idle hidle]
  · simp only [Option.map_some, Option.bind_some, Store.view_idle hidle]

theorem solo_findOrderOfUser (ch : Nat → Choice) (i : Nat) (hidle : Idle t w)
    {row : OrderEntity} (ho : w.order id = some row) (hu : row.userId = u) :
    (findOrderOfUser id u).run.solo t ch none i w = some (w, some
      (if (ch i).fail then .error .database else .ok (some row), i + 1)) := by
  have hselect := solo_selectRow ch i hidle (.order id)
  by_cases hfail : (ch i).fail
  · rw [if_pos hfail] at hselect ⊢
    exact Prog.solo_bind_error hselect
  · rw [if_neg hfail] at hselect ⊢
    have hrow : (w.db.rows (.order id) : Option OrderEntity).filter (fun o => o.userId == u) =
        some row := Option.filter_eq_some_iff.mpr ⟨ho, by simpa using hu⟩
    exact (Prog.solo_bind_ok hselect).trans (congrArg (fun found : Option OrderEntity =>
      some (w, some ((.ok found : Except AppError (Option OrderEntity)), i + 1))) hrow)

/-- Without Redis a terminal order is read from its row. -/
theorem solo_fetchTerminal (ch : Nat → Choice) (i : Nat) (hidle : Idle t w)
    {row : OrderEntity} (ho : w.order id = some row) (hu : row.userId = u)
    (ht : isTerminalStatus row.status = true) (hen : w.cacheEnabled = false) :
    ∃ r j, (fetchOrderForUser id u).run.solo t ch none i w = some (w, some (r, j)) ∧
      (r = .error .database ∨ r = .ok row) := by
  have hfind := solo_findOrderOfUser ch i hidle ho hu
  by_cases hfail : (ch i).fail
  · rw [if_pos hfail] at hfind
    exact ⟨_, _, Prog.solo_bind_error hfind, .inl rfl⟩
  · rw [if_neg hfail] at hfind
    refine ⟨.ok row, i + 2, (Prog.solo_bind_ok hfind).trans ?_, .inr rfl⟩
    change Prog.solo t ch none
      (ExceptT.run (if isTerminalStatus row.status then _ else _)) (i + 1) w = _
    rw [if_pos ht]
    change Prog.solo t ch none (.act _ _ _) (i + 1) w = _
    simp only [Prog.solo, reduceCtorEq, if_false, hen, Bool.not_false, Bool.true_or, if_true,
      Option.bind_some]
    rfl

theorem status_of_toJson {order row : OrderEntity} (h : order.toJson = row.toJson) :
    order.status = row.status := by
  have hjson : order.toJson.status = row.toJson.status := by rw [h]
  exact hjson

/-- With Redis and without, an order is read alike; or it is terminal, and Redis has it. -/
theorem getOrderForUser_twins (hw : AtRest w) (hoff : CacheOff w w')
    {r : Except AppError OrderEntity}
    (h : (getOrderForUser id u).run.solo t ch none i w = some (v, some (r, j))) :
    (∃ v', (getOrderForUser id u).run.solo t ch none i w' = some (v', some (r, j)) ∧
      CacheOff v v') ∨
    ∃ order row r' j', v = w ∧ r = .ok order ∧ isTerminalStatus row.status = true ∧
      order.toJson = row.toJson ∧
      (getOrderForUser id u).run.solo t ch none i w' = some (w', some (r', j')) ∧
      (r' = .error .database ∨ r' = .ok row) := by
  have hoff' : (getOrderForUser id u).run.solo t ch none i w' =
      (fetchOrderForUser id u).run.solo t ch none (i + 1) w' := by
    have hget : (cacheGetOrder id).run.solo t ch none i w' = some (w', some (.ok none, i + 1)) := by
      change Prog.solo t ch none (.act _ _ _) i w' = _
      simp only [Prog.solo, reduceCtorEq, if_false, hoff.2, Bool.not_false, Bool.true_or, if_true,
        Option.bind_some]
    exact Prog.solo_bind_ok hget
  rw [hoff']
  obtain ⟨w₁, r₁, hget, hrest⟩ := Prog.solo_bind_some h
  have hcached : ∃ cached, w₁ = w ∧ r₁ = (.ok cached, i + 1) ∧
      ∀ entry, cached = some entry → w.cache.order id = some entry := by
    cases hget
    refine ⟨_, rfl, rfl, fun entry he => ?_⟩
    split at he
    · cases he
    · exact he
  obtain ⟨cached, rfl, rfl, hentry⟩ := hcached
  have hmiss (hfetch : (fetchOrderForUser id u).run.solo t ch none (i + 1) w₁ =
      some (v, some (r, j))) :
      ∃ v', (fetchOrderForUser id u).run.solo t ch none (i + 1) w' = some (v', some (r, j)) ∧
        CacheOff v v' := (twin_fetchOrderForUser id u).simulates hoff hfetch
  cases cached with
  | none => exact .inl (hmiss hrest)
  | some entry =>
    by_cases hu : entry.userId = u
    · right
      obtain ⟨row, ho, ht, rfl⟩ := hw.order id entry (hentry entry rfl)
      have hhit : v = w₁ ∧ r = .ok (rehydrateOrder row.toJson) := by
        change Prog.solo t ch none
          (ExceptT.run (if row.toJson.userId = u then _ else _)) _ _ = _ at hrest
        rw [if_pos hu] at hrest
        cases hrest
        exact ⟨rfl, rfl⟩
      obtain ⟨hv, hr⟩ := hhit
      have hidle' : Idle t w' := by
        change w'.db.txns t = none
        rw [hoff.1]
        exact hw.idle t
      have ho' : w'.order id = some row := by
        unfold World.order
        rw [hoff.1]
        exact ho
      obtain ⟨r', j', hfetch, hr'⟩ := solo_fetchTerminal ch (i + 1) hidle' ho' hu ht hoff.2
      exact ⟨_, row, r', j', hv, hr, ht, rehydrateOrder_toJson row, hfetch, hr'⟩
    · left
      apply hmiss
      change Prog.solo t ch none (ExceptT.run (if entry.userId = u then _ else _)) _ _ = _ at hrest
      rwa [if_neg hu] at hrest

/-- What a call does with the order that it has read. -/
structure Rest (data : β → β) (rest : OrderEntity → Service β) : Prop where
  twin : ∀ order, Confined TwinStmt AnyError (rest order)
  comes : ∀ order t ch, Comes t ch AtRest (rest order) AtRest
  early : ∀ order row : OrderEntity, isTerminalStatus row.status = true →
    order.toJson = row.toJson → ∃ r r', (rest order).run = .ret r ∧ (rest row).run = .ret r' ∧
      r.map data = r'.map data

theorem harmless_reads {data : β → β} {rest : OrderEntity → Service β} (hrest : Rest data rest) :
    Harmless (getOrderForUser id u >>= rest) data := by
  intro t ch w w' v r j hw hoff h
  obtain ⟨v₁, r₁, h₁, hr⟩ := Prog.solo_bind_some h
  have hv₁ : AtRest v₁ := comes_getOrderForUser.atRest hw h₁
  rcases getOrderForUser_twins hw hoff h₁ with ⟨v', h', hoff'⟩ |
    ⟨order, row, r', j', rfl, he, ht, hjson, h', hr'⟩
  · match r₁ with
    | (.ok order, j₁) =>
      refine ⟨(hrest.comes order t ch).atRest hv₁ hr, ?_⟩
      obtain ⟨v'', h'', hoff''⟩ := (hrest.twin order).simulates hoff' hr
      exact ⟨v'', r, j, (Prog.solo_bind_ok h').trans h'', hoff'', fun _ => rfl⟩
    | (.error e, j₁) =>
      obtain ⟨rfl, he⟩ := hr
      cases he
      exact ⟨hv₁, v', .error e, j, Prog.solo_bind_error h', hoff', fun _ => rfl⟩
  · obtain ⟨r₁, j₁⟩ := r₁
    cases he
    obtain ⟨q, q', hq, hq', hsame⟩ := hrest.early order row ht hjson
    have hend : v = v₁ ∧ r = q := by
      change Prog.solo t ch none (rest order).run _ _ = _ at hr
      rw [hq] at hr
      cases hr
      exact ⟨rfl, rfl⟩
    obtain ⟨rfl, rfl⟩ := hend
    refine ⟨hv₁, ?_⟩
    rcases hr' with rfl | rfl
    · exact ⟨w', _, _, Prog.solo_bind_error h', hoff, fun hne => absurd rfl hne⟩
    · refine ⟨w', q', j', (Prog.solo_bind_ok h').trans ?_, hoff, fun _ => hsame⟩
      rw [hq']
      rfl

/-! ### The calls -/

theorem data_order {a b : OrderEntity} (h : a.toJson = b.toJson) :
    (Reply.order a).data = (Reply.order b).data :=
  congrArg Reply.order h

theorem harmless_getOrderForUser (id : OrderId) (u : UserId) :
    Harmless (perform (.getOrderForUser id u)) Reply.data := by
  apply harmless_reads
  refine ⟨fun _ => confined_pure, fun _ _ _ => quiet_rest confined_pure, fun order row _ h => ?_⟩
  exact ⟨_, _, rfl, rfl, congrArg Except.ok (data_order h)⟩

theorem harmless_initiatePayment (id : OrderId) (u : UserId) :
    Harmless (perform (.initiatePayment id u)) Reply.data := by
  apply harmless_respond _ fun _ _ => data_order
  apply harmless_reads
  constructor
  · intro order
    apply confined_ite
    · exact fun _ => confined_throw trivial
    · intro _
      apply confined_bind
      · apply twin_transaction.transaction
        apply confined_bind (twin_updateRow _ _ _ _)
        intro affected
        apply confined_ite
        · exact fun _ => confined_pure
        · intro _
          apply confined_bind (twin_covers.enqueue _ _)
          exact fun _ => confined_pure
      · intro claimed
        apply confined_ite
        · exact fun _ => confined_throw trivial
        · intro _
          apply confined_bind
          · apply twin_stmt
            rintro t ch w w' r v hoff hs
            cases hs
            exact ⟨w', rfl, hoff⟩
          · intro now
            apply confined_bind (twin_cacheWrite _)
            exact fun _ => confined_pure
  · intro order t ch i
    apply ends_ite
    · exact fun _ => ends_throw fun _ h => h
    · intro _
      apply ends_bind (Q := fun _ _ => AtRest)
      · apply transaction_comes
        intro w₀ _
        apply quiet_comes
        apply confined_bind
        · apply quiet_updateOrder
          · intro row hrow
            have hstatus : row.status = .reserved ∧ row.paymentInitiatedAt = none := by
              simpa using hrow
            rw [hstatus.1]
            rfl
          · exact fun _ _ => ⟨rfl, rfl⟩
        · intro affected
          apply confined_ite
          · exact fun _ => confined_pure
          · intro _
            apply confined_bind (quiet_enqueue _ _)
            exact fun _ => confined_pure
      · intro claimed j
        apply quiet_rest
        apply confined_ite
        · exact fun _ => confined_throw trivial
        · intro _
          apply confined_bind
          · apply quiet_stmt
            apply quiet_same
            intro t ch w r w' hs
            cases hs
            exact ⟨rfl, .of_same rfl rfl⟩
          · intro now
            apply confined_bind (quiet_cacheDel _)
            exact fun _ => confined_pure
  · intro order row ht hjson
    have hstatus : order.status = row.status := status_of_toJson hjson
    have hne : row.status ≠ .reserved := by
      intro hr
      rw [hr] at ht
      cases ht
    have hne' : order.status ≠ .reserved := hstatus ▸ hne
    let refused : Except AppError OrderEntity :=
      .error (.conflict s!"Order is not awaiting payment (status: {row.status})")
    refine ⟨refused, refused, ?_, ?_, rfl⟩
    · rw [if_pos hne', hstatus]
      rfl
    · rw [if_pos hne]
      rfl

theorem harmless_cancelOrder (id : OrderId) (u : UserId) :
    Harmless (perform (.cancelOrder id u)) Reply.data := by
  apply harmless_respond _ fun _ _ => data_order
  apply harmless_reads
  constructor
  · intro order
    apply confined_ite
    · exact fun _ => confined_throw trivial
    · intro _
      apply confined_bind (twin_updateRow _ _ _ _)
      intro affected
      apply confined_ite
      · exact fun _ => confined_throw trivial
      · intro _
        apply confined_bind
        · apply confined_ite
          · exact fun _ => twin_covers.stock.restoreStock _ _
          · exact fun _ => confined_pure
        · intro _
          apply confined_bind (twin_record _)
          intro _
          apply confined_bind (twin_cacheWrite _)
          exact fun _ => confined_pure
  · intro order t ch
    apply quiet_rest
    apply confined_ite
    · exact fun _ => confined_throw trivial
    · intro _
      apply confined_bind
      · apply quiet_updateOrder
        · intro row hrow
          have hstatus : row.status = .pending ∨
              row.status = .reserved ∧ row.paymentInitiatedAt = none := by simpa using hrow
          rcases hstatus with hp | ⟨hr, -⟩
          · rw [hp]
            rfl
          · rw [hr]
            rfl
        · exact fun _ _ => ⟨rfl, rfl⟩
      · intro affected
        apply confined_ite
        · exact fun _ => confined_throw trivial
        · intro _
          apply confined_bind
          · apply confined_ite
            · exact fun _ => quiet_restoreStock _ _
            · exact fun _ => confined_pure
          · intro _
            apply confined_bind (quiet_record _)
            intro _
            apply confined_bind (quiet_cacheDel _)
            exact fun _ => confined_pure
  · intro order row ht hjson
    have hstatus : order.status = row.status := status_of_toJson hjson
    have hrefused {x : OrderEntity} (hx : x.status = row.status) :
        (x.status == .pending || (x.status == .reserved && x.paymentInitiatedAt.isNone)) =
          false := by
      rw [hx]
      cases hs : row.status with
      | pending => rw [hs] at ht; cases ht
      | reserved => rw [hs] at ht; cases ht
      | paid => rfl
      | completed => rfl
      | failed => rfl
      | cancelled => rfl
    let refused : Except AppError OrderEntity :=
      .error (.conflict s!"Order cannot be cancelled (status: {row.status})")
    refine ⟨refused, refused, ?_, ?_, rfl⟩
    · dsimp only
      rw [if_pos (hrefused hstatus), hstatus]
      rfl
    · dsimp only
      rw [if_pos (hrefused rfl)]
      rfl

theorem harmless_createOrder (u : UserId) (lines : List OrderLine) :
    Harmless (perform (.createOrder u lines)) Reply.data := by
  have hcreate : Harmless (createOrder u lines) OrderEntity.toJson :=
    harmless_of_twin (twin_createOrder u lines) fun _ _ => comes_createOrder u lines
  exact harmless_respond hcreate fun _ _ => data_order

theorem harmless_transitionOrder (id : OrderId) (target : OrderStatus) :
    Harmless (perform (.transitionOrder id target)) Reply.data := by
  have htransition : Harmless (transitionOrder id target) OrderEntity.toJson :=
    harmless_of_twin (twin_covers.transitionOrder id target) fun _ _ =>
      quiet_rest (quiet_transitionOrder id target)
  exact harmless_respond htransition fun _ _ => data_order

/-! ### Listing orders -/

/-- The second half of `listOrdersForUser`, on a cache miss. -/
def fetchOrdersForUser (userId : UserId) : Service (List OrderEntity) := do
  let found ← selectAll (orderOfUser userId)
  storeList userId (newestFirst found)

theorem listOrdersForUser_eq (u : UserId) : listOrdersForUser u = (do
    let cached ← cacheGetUserOrders u
    match cached with
    | some cached => return cached.map rehydrateOrder
    | none => fetchOrdersForUser u) := rfl

theorem twin_fetchOrdersForUser (u : UserId) :
    Confined TwinStmt AnyError (fetchOrdersForUser u) := by
  apply confined_bind (twin_selectAll _)
  intro found
  apply confined_ite
  · intro _
    apply confined_bind (twin_cacheWrite _)
    exact fun _ => confined_pure
  · exact fun _ => confined_pure

theorem AtRest.setUserOrders (hw : AtRest w)
    (ht : ∀ order ∈ w.listOf u, isTerminalStatus order.status = true) :
    AtRest { w with cache := w.cache.setUserOrders u (w.listOf u) } where
  idle := hw.idle
  ids := hw.ids
  order := hw.order
  userOrders u' list hl := by
    by_cases e : u' = u
    · subst e
      simp only [Cache.setUserOrders, Function.update_self, Option.some.injEq] at hl
      refine ⟨w.db.keys, w.ownRow u', List.prefix_rfl, fun key row hrow => ⟨hrow, ?_⟩, ?_⟩
      · apply ht
        apply mem_listOf.mpr
        cases key with
        | order o =>
          obtain ⟨ho, hu⟩ := Option.filter_eq_some_iff.mp hrow
          exact ⟨⟨o, ho⟩, by simpa using hu⟩
        | _ => cases hrow
      · rw [← ordersOf_eq]
        exact hl.symm
    · simp only [Cache.setUserOrders, Function.update_of_ne e] at hl
      exact hw.userOrders u' list hl

theorem comes_fetchOrdersForUser : Comes t ch AtRest (fetchOrdersForUser u) AtRest := by
  intro i
  apply ends_bind (Q := fun found _ w => AtRest w ∧ newestFirst found = w.listOf u)
  · apply ends_stmt fun _ _ _ => trivial
    intro w r w' hw _ hs
    rcases sql_cases hs with ⟨-, rfl, rfl⟩ | ⟨-, -, rfl, rfl⟩ |
      ⟨-, -, ⟨b, rfl, hs'⟩ | ⟨e, w₁, rfl, hs', -⟩⟩
    · exact hw
    · rw [Store.abort_idle (hw.idle t)]
      exact hw
    · cases hs'
      exact ⟨hw, congrArg newestFirst (select_orders (hw.idle t))⟩
    · cases hs'
  · intro found j
    apply ends_ite
    · intro hall
      apply ends_bind (Q := fun _ _ => AtRest)
      · apply ends_stmt fun _ _ _ => trivial
        rintro w r w' ⟨hw, hf⟩ _ hs
        cases hs
        change AtRest (if _ then _ else _)
        split
        · exact hw
        · rw [hf] at hall ⊢
          exact hw.setUserOrders (List.all_eq_true.mp hall)
      · exact fun _ _ => ends_pure fun _ h => h
    · exact fun _ => ends_pure fun _ h => h.1

/-- Without Redis the list is read from the table. -/
theorem solo_fetchOrders (ch : Nat → Choice) (i : Nat) (hidle : Idle t w)
    (hen : w.cacheEnabled = false) :
    ∃ r j, (fetchOrdersForUser u).run.solo t ch none i w = some (w, some (r, j)) ∧
      (r = .error .database ∨ r = .ok (w.listOf u)) := by
  have hselect : (selectAll (orderOfUser u)).run.solo t ch none i w = some (w, some
      (if (ch i).fail then .error .database else .ok (w.ordersOf u), i + 1)) := by
    change Prog.solo t ch none (.act _ _ _) i w = _
    simp only [Prog.solo, reduceCtorEq, if_false, Store.aborted_idle hidle]
    split
    · simp only [Option.bind_some, Store.abort_idle hidle]
    · simp only [Option.map_some, Option.bind_some, select_orders hidle]
  by_cases hfail : (ch i).fail
  · rw [if_pos hfail] at hselect
    exact ⟨_, _, Prog.solo_bind_error hselect, .inl rfl⟩
  · rw [if_neg hfail] at hselect
    have hrest : ∃ j, (storeList u (w.listOf u)).run.solo t ch none (i + 1) w =
        some (w, some (.ok (w.listOf u), j)) := by
      unfold storeList
      split
      · refine ⟨i + 2, ?_⟩
        change Prog.solo t ch none (.act _ _ _) (i + 1) w = _
        simp only [Prog.solo, reduceCtorEq, if_false, hen, Bool.not_false, Bool.true_or, if_true,
          Option.bind_some]
        rfl
      · exact ⟨i + 1, rfl⟩
    obtain ⟨j, hj⟩ := hrest
    exact ⟨_, j, (Prog.solo_bind_ok hselect).trans hj, .inr rfl⟩

theorem AtRest.mem_listOf (hw : AtRest w) {o : OrderId} {row : OrderEntity}
    (ho : w.order o = some row) (hu : row.userId = u) :
    o ∈ ((w.listOf u).map (·.toJson)).map (·.id) := by
  rw [List.map_map]
  have hrow : row ∈ w.listOf u := OrderLifecycle.mem_listOf.mpr ⟨⟨o, ho⟩, hu⟩
  exact List.mem_map.mpr ⟨row, hrow, hw.ids o row ho⟩

/-- The list from Redis is the list of the table just if it lacks no order. -/
theorem AtRest.hit_iff (hw : AtRest w) {list : List OrderEntity}
    (hl : w.cache.userOrders u = some list) :
    (list.map rehydrateOrder).map (·.toJson) = (w.listOf u).map (·.toJson) ↔ ¬w.StaleList u := by
  obtain ⟨keys, stored, -, -, rfl⟩ := hw.userOrders u list hl
  have hsame : ((newestFirst (keys.filterMap stored)).map (·.toJson)).map rehydrateOrder =
      (newestFirst (keys.filterMap stored)).map fun row => rehydrateOrder row.toJson :=
    List.map_map
  have hdata : (((newestFirst (keys.filterMap stored)).map (·.toJson)).map rehydrateOrder).map
      (·.toJson) = (newestFirst (keys.filterMap stored)).map (·.toJson) := by
    rw [hsame, List.map_map]
    exact List.map_congr_left fun row _ => rehydrateOrder_toJson row
  rw [hdata]
  constructor
  · rintro heq ⟨list', hl', o, row, ho, hu, hnot⟩
    cases hl.symm.trans hl'
    apply hnot
    rw [heq]
    exact hw.mem_listOf ho hu
  · exact hw.fresh hl

theorem listOrdersForUser_twins (hw : AtRest w) (hoff : CacheOff w w')
    {r : Except AppError (List OrderEntity)}
    (h : (listOrdersForUser u).run.solo t ch none 0 w = some (v, some (r, j))) :
    AtRest v ∧ ∃ v' r' j',
      (listOrdersForUser u).run.solo t ch none 0 w' = some (v', some (r', j')) ∧
      CacheOff v v' ∧ (r' ≠ .error .database →
        (r.map (List.map OrderEntity.toJson) = r'.map (List.map OrderEntity.toJson) ↔
          ¬(w.cacheEnabled = true ∧ (ch 0).fail = false ∧ w.StaleList u))) := by
  rw [listOrdersForUser_eq] at h ⊢
  have hmissed {r' : Option (World × Option (Except AppError (List OrderEntity) × Nat))}
      (hr' : (fetchOrdersForUser u).run.solo t ch none 1 w' = r') :
      (do let cached ← cacheGetUserOrders u
          match cached with
          | some cached => return cached.map rehydrateOrder
          | none => fetchOrdersForUser u :
        Service (List OrderEntity)).run.solo t ch none 0 w' = r' := by
    have hget : (cacheGetUserOrders u).run.solo t ch none 0 w' = some (w', some (.ok none, 1)) := by
      change Prog.solo t ch none (.act _ _ _) 0 w' = _
      simp only [Prog.solo, reduceCtorEq, if_false, hoff.2, Bool.not_false, Bool.true_or, if_true,
        Option.bind_some]
    exact (Prog.solo_bind_ok hget).trans hr'
  obtain ⟨w₁, r₁, hget, hrest⟩ := Prog.solo_bind_some h
  have hcached : ∃ cached, w₁ = w ∧ r₁ = (.ok cached, 1) ∧
      cached = if !w.cacheEnabled || (ch 0).fail then none else w.cache.userOrders u := by
    cases hget
    exact ⟨_, rfl, rfl, rfl⟩
  obtain ⟨cached, rfl, rfl, hc⟩ := hcached
  cases cached with
  | none =>
    obtain ⟨v', h', hoff'⟩ := (twin_fetchOrdersForUser u).simulates hoff hrest
    refine ⟨comes_fetchOrdersForUser.atRest hw hrest, v', r, j, hmissed h', hoff', fun _ => ?_⟩
    refine iff_of_true rfl ?_
    rintro ⟨hen, hok, list, hl, -⟩
    rw [hen, hok, hl] at hc
    cases hc
  | some list =>
    have hhit : w₁.cacheEnabled = true ∧ (ch 0).fail = false ∧
        w₁.cache.userOrders u = some list := by
      split at hc
      · cases hc
      · next hworks =>
        have hboth : w₁.cacheEnabled = true ∧ (ch 0).fail = false := by simpa using hworks
        exact ⟨hboth.1, hboth.2, hc.symm⟩
    obtain ⟨hen, hok, hl⟩ := hhit
    have hend : v = w₁ ∧ r = .ok (list.map rehydrateOrder) := by
      cases hrest
      exact ⟨rfl, rfl⟩
    obtain ⟨rfl, rfl⟩ := hend
    have hidle' : Idle t w' := by
      change w'.db.txns t = none
      rw [hoff.1]
      exact hw.idle t
    obtain ⟨r', j', hr', hcases⟩ := solo_fetchOrders (u := u) ch 1 hidle' hoff.2
    refine ⟨hw, w', r', j', hmissed hr', hoff, fun hne => ?_⟩
    rcases hcases with rfl | rfl
    · exact absurd rfl hne
    · have hsame : w'.listOf u = v.listOf u := by
        unfold World.listOf World.ordersOf World.orders World.order
        rw [hoff.1]
      rw [hsame]
      have hiff := hw.hit_iff hl
      constructor
      · rintro heq ⟨-, -, hstale⟩
        exact hiff.mp (Except.ok.inj heq) hstale
      · intro hnot
        exact congrArg Except.ok (hiff.mpr fun hstale => hnot ⟨hen, hok, hstale⟩)

end OrderLifecycle

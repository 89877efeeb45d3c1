import OrderLifecycle.Reads.OrderList

open Framework

namespace OrderLifecycle

/-- The order list is as committed at some moment of the call, and has every order whose
`createOrder` returned before the call began. -/
def ListCurrent (c : Catalog) (b : Bool) (moves : List Move) (s : Shop) : Prop :=
  ∀ t u reply, Returns s t (.listOrdersForUser u) (.ok reply) →
    ∃ orders w, reply = .orders orders ∧ During c b moves t w ∧
      orders.map (·.toJson) = (w.listOf u).map (·.toJson) ∧
      ∀ ls ls' d t' lines order, moves = ls ++ ls' → Reaches c b ls d → d.threads t = none →
        Returns d t' (.createOrder u lines) (.ok (.order order)) → order.id ∈ orders.map (·.id)

/-- When the first statement of a call that lists the orders of `u` finds a list in the cache, every
order of `u` that was committed when the call began was committed when that list was read. -/
def ListsInTime (c : Catalog) (b : Bool) (moves : List Move) : Prop :=
  ∀ ls t u ls' ch ls'' d e w,
    moves = ls ++ .start t (.listOrdersForUser u) :: (ls' ++ .step t ch :: ls'') →
    Reaches c b ls d → Reaches c b (ls ++ .start t (.listOrdersForUser u) :: ls') e →
    memory c b (ls ++ .start t (.listOrdersForUser u) :: ls') t = [] →
    e.shared.cache.userOrders u ≠ none →
    CachedFrom c b u (ls ++ .start t (.listOrdersForUser u) :: ls') w →
    ∀ o row, d.shared.order o = some row → row.userId = u → w.order o ≠ none

variable {c : Catalog} {b : Bool} {moves ls ls' : List Move} {s d e : Shop} {t : Tid} {u : UserId}
  {w : World} {k : Request}

/-- A call that is there has begun. -/
theorem Reaches.began {th : Thread World Choice (Except AppError Reply)} (h : Reaches c b moves s)
    (ht : s.threads t = some (k, th)) : ∃ ls ls' d, moves = ls ++ .start t k :: ls' ∧
      Reaches c b ls d ∧ d.threads t = none := by
  induction moves using List.reverseRecOn generalizing s th with
  | nil =>
    cases h
    exact nomatch ht
  | append_singleton ls l ih =>
    obtain ⟨d, hd, hn⟩ := Reaches.snoc.mp h
    have earlier {th' : Thread World Choice (Except AppError Reply)}
        (ht' : d.threads t = some (k, th')) : ∃ ls₁ ls₂ d, ls ++ [l] = ls₁ ++ .start t k :: ls₂ ∧
          Reaches c b ls₁ d ∧ d.threads t = none := by
      obtain ⟨ls₁, ls₂, d', rfl, hd', hnone⟩ := ih hd ht'
      exact ⟨ls₁, ls₂ ++ [l], d', by simp, hd', hnone⟩
    rcases orderSystem.next_thread hn t with he | ⟨⟨k', rfl⟩, hnone⟩ | ⟨k', th₁, th₂, ht', -, hs⟩
    · exact earlier (he ▸ ht)
    · simp only [System.next, hnone] at hn
      split at hn
      · cases hn
        simp only [Config.set, Function.update_self, Option.some.injEq, Prod.mk.injEq] at ht
        obtain ⟨rfl, -⟩ := ht
        exact ⟨ls, [], d, by simp, hd, hnone⟩
      · cases hn
    · cases ht.symm.trans hs
      exact earlier ht'

/-- The first moment of a call that lists orders. -/
theorem Reaches.starting (hd : Reaches c b ls d) (hnone : d.threads t = none)
    (h : Reaches c b (ls ++ .start t (.listOrdersForUser u) :: ls') s) :
    ∃ d' th, Reaches c b (ls ++ [.start t (.listOrdersForUser u)]) d' ∧
      orderSystem.run d' ls' = some s ∧ d'.shared = d.shared ∧
      d'.threads t = some (.listOrdersForUser u, th) ∧ th.Active := by
  obtain ⟨d₁, hd₁, hrun⟩ := Reaches.append.mp h
  cases hd₁.symm.trans hd
  obtain ⟨d', hn, hrun⟩ := orderSystem.run_cons.mp hrun
  refine ⟨d', .running (respond (.listOrdersForUser u)).run, Reaches.snoc.mpr ⟨d, hd, hn⟩, hrun, ?_⟩
  simp only [System.next, hnone] at hn
  split at hn
  · cases hn
    exact ⟨rfl, Function.update_self .., trivial⟩
  · cases hn

/-- Two moments of one run. -/
theorem Reaches.compare {ls₁ ls₂ ls₁' ls₂' : List Move} {d₁ d₂ : Shop}
    (he : ls₁ ++ ls₁' = ls₂ ++ ls₂') (h₁ : Reaches c b ls₁ d₁) (h₂ : Reaches c b ls₂ d₂) :
    (∃ ms, ls₂ = ls₁ ++ ms ∧ orderSystem.run d₁ ms = some d₂) ∨
      ∃ ms, ls₁ = ls₂ ++ ms ∧ orderSystem.run d₂ ms = some d₁ := by
  rcases List.append_eq_append_iff.mp he with ⟨ms, rfl, -⟩ | ⟨ms, rfl, -⟩
  · obtain ⟨d, hd, hrun⟩ := Reaches.append.mp h₂
    cases hd.symm.trans h₁
    exact .inl ⟨ms, rfl, hrun⟩
  · obtain ⟨d, hd, hrun⟩ := Reaches.append.mp h₁
    cases hd.symm.trans h₂
    exact .inr ⟨ms, rfl, hrun⟩

/-- What `createOrder` has returned is committed. -/
theorem Reaches.created {t' : Tid} {lines : List OrderLine} {order : OrderEntity}
    (h : Reaches c b moves s) (hr : Returns s t' (.createOrder u lines) (.ok (.order order))) :
    ∃ row, s.shared.order order.id = some row ∧ row.userId = u := by
  obtain ⟨order', he, x, hx, row, hrow, hu⟩ := h.recollects.result hr
  cases he
  obtain ⟨ls, ch, ls', d, d', rfl, hd, hn, -, hshared⟩ := orderSystem.mem_past hx
  have hd' : Reaches c b (ls ++ [.step t' ch]) d' := Reaches.snoc.mpr ⟨d, hd, hn⟩
  have hrun : orderSystem.run d' ls' = some s := by
    obtain ⟨d₁, hd₁, hrun⟩ := Reaches.append.mp h
    cases hd₁.symm.trans hd
    obtain ⟨d₂, hn₂, hrun⟩ := orderSystem.run_cons.mp hrun
    cases hn₂.symm.trans hn
    exact hrun
  obtain ⟨row', hrow', hu'⟩ := hd'.owner hrun (hshared ▸ hrow)
  exact ⟨row', hrow', hu'.trans hu⟩

/-- An order created before the call began is in the list at every moment of the call. -/
theorem During.created {ls ls' : List Move} {t' : Tid} {lines : List OrderLine} {order : OrderEntity}
    (hw : During c b moves t w) (he : moves = ls ++ ls') (hd : Reaches c b ls d)
    (ht : d.threads t = none) (hr : Returns d t' (.createOrder u lines) (.ok (.order order))) :
    order.id ∈ (w.listOf u).map (·.id) := by
  obtain ⟨ls₁, ls₁', d₁, k, th, he₁, hd₁, ht₁, -, rfl⟩ := hw
  obtain ⟨row, hrow, hu⟩ := hd.created hr
  rcases Reaches.compare (he.symm.trans he₁) hd hd₁ with ⟨ms, -, hrun⟩ | ⟨ms, -, hrun⟩
  · obtain ⟨row', hrow', hu'⟩ := hd.owner hrun hrow
    have hid : row'.id = order.id := (hd₁.present hrow').status.id
    rw [← hid]
    exact List.mem_map_of_mem (mem_listOf.mpr ⟨⟨_, hrow'⟩, hu'.trans hu⟩)
  · obtain ⟨th', ht', -⟩ := orderSystem.run_call hrun ht₁
    exact nomatch ht.symm.trans ht'

/-- A call that is answered from the cache. -/
theorem Reaches.cachedList {x : World × World} {list : List OrderEntity} (h : Reaches c b moves s)
    (hin : ListsInTime c b moves) {th : Thread World Choice (Except AppError Reply)}
    (ht : s.threads t = some (.listOrdersForUser u, th)) (hmem : memory c b moves t = [x])
    (hlist : x.1.cache.userOrders u = some list) :
    ∃ w, During c b moves t w ∧ list = (w.listOf u).map (·.toJson) := by
  have hx : x ∈ orderSystem.past t (.init (.initial c b)) moves := by
    change x ∈ memory c b moves t
    simp [hmem]
  obtain ⟨ms, ch, ms', e, e', rfl, he, hn, hshared, -⟩ := orderSystem.mem_past hx
  -- the statement is the first one of the call
  have hfirst : memory c b ms t = [] := by
    have hpast : memory c b (ms ++ .step t ch :: ms') t =
        memory c b ms t ++ ((e.shared, e'.shared) :: orderSystem.past t e' ms') := by
      rw [memory, orderSystem.past_append he]
      simp [System.past, hn, System.own]
    have hlength := congrArg List.length (hpast.symm.trans hmem)
    simp only [List.length_append, List.length_cons, List.length_nil] at hlength
    exact List.length_eq_zero_iff.mp (by omega)
  obtain ⟨k, th', hte, hact⟩ : ∃ k th', e.threads t = some (k, th') ∧ th'.Active := by
    simp only [System.next] at hn
    split at hn
    · next k β f g hte => exact ⟨k, _, hte, trivial⟩
    · cases hn
  obtain rfl : k = .listOrdersForUser u := by
    have hrun : orderSystem.run e (.step t ch :: ms') = some s := by
      obtain ⟨e₁, he₁, hrun⟩ := Reaches.append.mp h
      cases he₁.symm.trans he
      exact hrun
    obtain ⟨th₁, hts, -⟩ := orderSystem.run_call hrun hte
    cases hts.symm.trans ht
    rfl
  have hreach : Reaches c b ms e := he
  obtain ⟨ls, ls', d, rfl, hd, hnone⟩ := hreach.began hte
  obtain ⟨w, hw⟩ := hreach.listed (hshared ▸ hlist)
  obtain ⟨ls₁, ls₁', d₁, hsplit, hd₁, hrun₁, rfl⟩ := hw.moment
  have hnew := hin ls t u ls' ch ms' d e d₁.shared (by simp) hd hreach hfirst
    (by rw [hshared, hlist]; exact Option.some_ne_none _) hw.source
  obtain ⟨d', th₀, hd', hrun, hsame, ht₀, hact₀⟩ := hd.starting hnone hreach
  -- read before the call began, and still the list then
  have before {qs : List Move} (hq : orderSystem.run d₁ qs = some d) :
      ∃ w, During c b (ls ++ .start t (.listOrdersForUser u) :: ls' ++ .step t ch :: ms') t w ∧
        list = (w.listOf u).map (·.toJson) := by
    refine ⟨d.shared, ⟨ls ++ [.start t (.listOrdersForUser u)], ls' ++ .step t ch :: ms', d', _, th₀,
      by simp, hd', ht₀, hact₀, hsame⟩, ?_⟩
    rw [hw.list, hd₁.listOf_same hq hw.terminal hnew]
  rcases Reaches.compare hsplit hd hd₁ with ⟨qs, rfl, hq⟩ | ⟨qs, rfl, hq⟩
  · cases qs with
    | nil =>
      have hnil : orderSystem.run d [] = some d := rfl
      cases hq
      exact before hnil
    | cons l qs =>
      rw [List.append_assoc, List.append_cancel_left_eq, List.cons_append, List.cons.injEq] at hsplit
      obtain ⟨rfl, rfl⟩ := hsplit
      have hrun' : orderSystem.run d' qs = some d₁ := by
        obtain ⟨d₂, hd₂, hrun₂⟩ := orderSystem.run_cons.mp hq
        have hd₂' : Reaches c b (ls ++ [.start t (.listOrdersForUser u)]) d₂ :=
          Reaches.snoc.mpr ⟨d, hd, hd₂⟩
        cases hd'.symm.trans hd₂'
        exact hrun₂
      obtain ⟨th₁, ht₁, -⟩ := orderSystem.run_call hrun' ht₀
      obtain ⟨th₂, ht₂, hback⟩ := orderSystem.run_call hrun₁ ht₁
      cases ht₂.symm.trans hte
      exact ⟨d₁.shared, ⟨_, ls₁' ++ .step t ch :: ms', d₁, _, th₁, by simp, hd₁, ht₁, hback hact, rfl⟩,
        hw.list⟩
  · exact before hq

theorem order_list_current (h : Reaches c b moves s) (hin : ListsInTime c b moves) :
    ListCurrent c b moves s := by
  intro t u reply hr
  obtain ⟨orders, rfl, hlisted⟩ := h.recollects.result hr
  obtain ⟨w, hduring, hsame⟩ : ∃ w, During c b moves t w ∧
      orders.map (·.toJson) = (w.listOf u).map (·.toJson) := by
    rcases hlisted with ⟨x, list, hmem, hcached, rfl⟩ | ⟨x, y, rest, hmem, rfl⟩
    · obtain ⟨w, hduring, rfl⟩ := h.cachedList hin hr hmem hcached
      refine ⟨w, hduring, ?_⟩
      rw [List.map_map, List.map_map]
      exact List.map_congr_left fun order _ => rehydrateOrder_toJson order
    · have hy : y ∈ memory c b moves t := by simp [hmem]
      obtain ⟨-, -, -, -, -, -, -, hduring⟩ := h.moment hy
      exact ⟨y.1, hduring, rfl⟩
  refine ⟨orders, w, rfl, hduring, hsame, ?_⟩
  intro ls ls' d t' lines order he hd ht hcreated
  have hids : orders.map (·.id) = (w.listOf u).map (·.id) := by
    have hids := congrArg (List.map OrderEntity.id) hsame
    rwa [List.map_map, List.map_map] at hids
  rw [hids]
  exact hduring.created he hd ht hcreated

/-! ### Lists of a user -/

/-- A list that is in the cache after `before`, during which nobody lists orders, was read after it. -/
theorem CachedFrom.after (before after : List Move) (h : CachedFrom c b u ls w)
    (hls : ls <+: before ++ after) (hno : ∀ t, .start t (.listOrdersForUser u) ∉ before) :
    ∃ ms d, Reaches c b (before ++ ms) d ∧ d.shared = w := by
  induction h with
  | keeps _ _ ih => exact ih ((List.prefix_append _ _).trans hls)
  | @caches ls l w h =>
    obtain ⟨d, d', t, ch, th, x, y, -, hd, -, ht, hmem, rfl, -⟩ := h
    have hy : y ∈ memory c b ls t := by simp [hmem]
    obtain ⟨-, -, -, -, -, -, -, ls₁, ls₂, d₁, k, th₁, rfl, hd₁, ht₁, -, hshared⟩ := hd.moment hy
    obtain ⟨d₂, hd₂, hrun⟩ := Reaches.append.mp hd
    cases hd₂.symm.trans hd₁
    obtain ⟨th₂, ht₂, -⟩ := orderSystem.run_call hrun ht₁
    cases ht₂.symm.trans ht
    obtain ⟨ls₃, ls₄, -, rfl, -⟩ := hd₁.began ht₁
    have hprefix : ls₃ ++ .start t (.listOrdersForUser u) :: ls₄ <+: before ++ after :=
      (List.prefix_append _ _).trans ((List.prefix_append _ _).trans hls)
    rcases List.prefix_or_prefix_of_prefix hprefix (List.prefix_append before after) with hle | ⟨ms, he⟩
    · exact absurd (hle.subset (by simp)) (hno t)
    · exact ⟨ms, d₁, he ▸ hd₁, hshared⟩

/-- What `listOrdersForUser` does with the orders it has read. -/
def storeList (u : UserId) (orders : List OrderEntity) : Service (List OrderEntity) :=
  if orders.all fun order => isTerminalStatus order.status then do
    cacheSetUserOrders u orders
    return orders
  else return orders

/-- User 9 lists the orders: up to the `SELECT`. -/
def selecting : List Move := [.start 0 (.listOrdersForUser 9), .step 0 {}, .step 0 {}]

/-- Call 0 has found the orders, and sorted them. -/
def selected (s : Shop) (orders : List OrderEntity) : Shop :=
  s.set s.shared 0 (.listOrdersForUser 9)
    (.running (storeList 9 orders >>= fun orders => pure (.orders orders) : Service Reply).run)

theorem next_of_running {p : Prog World Choice (Except AppError Reply)} {β : Type}
    {f : Stmt World Choice β} {g : β → Prog World Choice (Except AppError Reply)} {ch : Choice} {r : β}
    {w' : World} (hp : p = .act β f g) (hf : f t ch w = some (r, w')) :
    orderSystem.next (s.set w t k (.running p)) (.step t ch) = some (s.set w' t k (.running (g r))) := by
  subst hp
  simp [System.next, Config.set, hf]

theorem run_selecting (ht : s.threads 0 = none) (hc : s.shared.cache.userOrders 9 = none)
    (hidle : Idle 0 s.shared) :
    orderSystem.run s selecting = some (selected s (s.shared.listOf 9)) := by
  have hopen : s.shared.db.aborted 0 = false := by
    have hnone : s.shared.db.txns 0 = none := hidle
    simp [Store.aborted, hnone]
  obtain ⟨f, g, f', g', hcall, hget, hmiss, hselect, hfound⟩ :
      ∃ (f : Stmt World Choice (Except AppError (Option (List OrderEntity)))) (g : _)
        (f' : Stmt World Choice (Except AppError (List OrderEntity))) (g' : _),
        (respond (.listOrdersForUser 9)).run = .act _ f g ∧
        (∀ w, w.cache.userOrders 9 = none → f 0 {} w = some (.ok none, w)) ∧
        g (.ok none) = .act _ f' g' ∧
        (∀ w, w.db.aborted 0 = false →
          f' 0 {} w = some (.ok (w.db.select 0 (orderOfUser 9)), w)) ∧
        ∀ found, g' (.ok found) = (storeList 9 (newestFirst found) >>= fun orders =>
          pure (.orders orders) : Service Reply).run :=
    ⟨_, _, _, _, rfl, fun w hw => by simp [hw], rfl, fun w hw => by simp [hw], fun _ => rfl⟩
  have hstart : orderSystem.next s (.start 0 (.listOrdersForUser 9)) = some (s.set s.shared 0
      (.listOrdersForUser 9) (.running (respond (.listOrdersForUser 9)).run)) := by
    simp [System.next, ht, orderSystem]
  simp only [selecting, System.run, hstart, Option.bind_some, next_of_running hcall (hget _ hc),
    next_of_running hmiss (hselect _ hopen), hfound, select_orders hidle]
  rfl

/-- User 9 orders three of the five pieces and cancels the order. -/
def cancelling : List Move :=
  call 3 (.createOrder 9 [⟨7, "Widget", 3⟩]) 7 accept ++ call 4 (.cancelOrder 4 9) 5 accept

/-- Then the user lists the orders, which caches them, and again. -/
def listingTwice : List Move :=
  cancelling ++ (selecting ++ [.step 0 {}, .start 2 (.listOrdersForUser 9), .step 2 {}])

/-- Whether call 2 has listed order 4. -/
def hasListed (s : Shop) : Bool :=
  match s.threads 2 with
  | some (.listOrdersForUser 9, .running (.ret (.ok (.orders [order])))) => order.id == 4
  | _ => false

/-- The states before the two calls and after them. -/
theorem reaches_listingTwice : ∃ d e s, Reaches oneProduct true cancelling d ∧
    Reaches oneProduct true (cancelling ++ (selecting ++ [.step 0 {}])) e ∧
    Reaches oneProduct true listingTwice s ∧ (d.shared.ordersOf 9).map (·.id) = [4] ∧
    (e.shared.ordersOf 9).map (·.id) = [4] ∧ hasListed s = true := by
  have hobs : (orderSystem.run (.init (.initial oneProduct true)) cancelling).bind (fun d =>
      (orderSystem.run (selected d (d.shared.ordersOf 9)) [.step 0 {}]).bind fun e =>
        (orderSystem.run e [.start 2 (.listOrdersForUser 9), .step 2 {}]).map fun s =>
          decide ((d.threads 0).isNone ∧ d.shared.cache.userOrders 9 = none ∧
            (d.shared.db.txns 0).isNone ∧ (d.shared.ordersOf 9).map (·.id) = [4] ∧
            (e.shared.ordersOf 9).map (·.id) = [4] ∧ hasListed s = true)) = some true := by
    decide +kernel
  obtain ⟨d, hd, hobs⟩ := Option.bind_eq_some_iff.mp hobs
  obtain ⟨e, he, hobs⟩ := Option.bind_eq_some_iff.mp hobs
  obtain ⟨s, hs, hobs⟩ := Option.map_eq_some_iff.mp hobs
  obtain ⟨ht, hc, hidle, hids, hids', hlisted⟩ := of_decide_eq_true hobs
  rw [Option.isNone_iff_eq_none] at ht hidle
  obtain ⟨order, hone, -⟩ := List.map_eq_singleton_iff.mp hids
  have hsorted : d.shared.listOf 9 = d.shared.ordersOf 9 := by
    simp [World.listOf, newestFirst, hone]
  have hrun : orderSystem.run d selecting = some (selected d (d.shared.ordersOf 9)) :=
    hsorted ▸ run_selecting ht hc hidle
  have hd' : Reaches oneProduct true (cancelling ++ (selecting ++ [.step 0 {}])) e := by
    refine Reaches.append.mpr ⟨d, hd, ?_⟩
    rw [orderSystem.run_append, hrun]
    exact he
  refine ⟨d, e, s, hd, hd', ?_, hids, hids', hlisted⟩
  have hsplit : listingTwice = (cancelling ++ (selecting ++ [.step 0 {}])) ++
      [.start 2 (.listOrdersForUser 9), .step 2 {}] := rfl
  rw [hsplit]
  exact Reaches.append.mpr ⟨e, hd', hs⟩

/-- User 9 has order 4 and no other. -/
theorem Reaches.onlyOrder (h : Reaches c b moves s) (hids : (s.shared.ordersOf 9).map (·.id) = [4])
    {o : OrderId} {row : OrderEntity} (ho : s.shared.order o = some row) (hu : row.userId = 9) :
    o = 4 := by
  have hmem : row.id ∈ (s.shared.ordersOf 9).map (·.id) :=
    List.mem_map_of_mem (mem_ordersOf.mpr ⟨⟨o, ho⟩, hu⟩)
  rw [hids, List.mem_singleton] at hmem
  exact (h.present ho).status.id.symm.trans hmem

/-- Both calls begin with order 4 alone, which was there when the first one read the list. -/
theorem listsInTime_listingTwice : ListsInTime oneProduct true listingTwice := by
  intro ls t u ls' ch ls'' d e w he hd _ _ _ hfrom o row ho hu
  obtain ⟨d₀, d₁, -, hd₀, hd₁, -, hids₀, hids₁, -⟩ := reaches_listingTwice
  have hno : ∀ t u, .start t (.listOrdersForUser u) ∉ cancelling := by
    intro t u hmem
    simp [cancelling, call] at hmem
  -- the call begins after the order was cancelled
  obtain ⟨ms, rfl, hms⟩ : ∃ ms, ls = cancelling ++ ms ∧
      selecting ++ [.step 0 {}, .start 2 (.listOrdersForUser 9), .step 2 {}] =
        ms ++ .start t (.listOrdersForUser u) :: (ls' ++ .step t ch :: ls'') := by
    rcases List.append_eq_append_iff.mp he with ⟨ms, rfl, hms⟩ | ⟨ms, hcut, hms⟩
    · exact ⟨ms, rfl, hms⟩
    · cases ms with
      | nil => exact ⟨[], by simpa using hcut.symm, by simpa using hms.symm⟩
      | cons l ms =>
        rw [List.cons_append, List.cons.injEq] at hms
        exact absurd (by rw [hcut, ← hms.1]; simp) (hno t u)
  -- and then order 4 is the only one
  obtain ⟨rfl, hids⟩ : u = 9 ∧ (d.shared.ordersOf 9).map (·.id) = [4] := by
    rcases ms with _ | ⟨_, _ | ⟨_, _ | ⟨_, _ | ⟨_, _ | ⟨_, _ | ⟨_, _⟩⟩⟩⟩⟩⟩
    · rw [List.append_nil] at hd
      cases hd.symm.trans hd₀
      simp only [selecting, List.cons_append, List.nil_append, List.cons.injEq] at hms
      cases hms.1
      exact ⟨rfl, hids₀⟩
    · cases hms
    · cases hms
    · cases hms
    · simp only [selecting, List.cons_append, List.nil_append, List.cons.injEq] at hms
      obtain ⟨rfl, rfl, rfl, rfl, hstart, -⟩ := hms
      cases hstart
      cases hd.symm.trans hd₁
      exact ⟨rfl, hids₁⟩
    · cases hms
    · have hlength := congrArg List.length hms
      simp only [selecting, List.length_append, List.length_cons, List.length_nil] at hlength
      omega
  obtain rfl : o = 4 := hd.onlyOrder hids ho hu
  obtain ⟨ms', d', hd', rfl⟩ := hfrom.after cancelling (ms ++ .start t (.listOrdersForUser 9) :: ls')
    (by simp) fun t => hno t _
  obtain ⟨d₂, hd₂, hrun⟩ := Reaches.append.mp hd'
  cases hd₂.symm.trans hd₀
  obtain ⟨order, hone, hid⟩ := List.map_eq_singleton_iff.mp hids₀
  obtain ⟨⟨o, ho⟩, hu⟩ := mem_ordersOf.mp (hone ▸ List.mem_singleton_self order)
  obtain rfl : o = 4 := hd₀.onlyOrder hids₀ ho hu
  obtain ⟨row', hrow', -⟩ := hd₀.owner hrun ho
  rw [hrow']
  exact Option.some_ne_none _

theorem order_list_current_twice : ∃ s, Reaches oneProduct true listingTwice s ∧
    ∃ order w, order.id = 4 ∧ Returns s 2 (.listOrdersForUser 9) (.ok (.orders [order])) ∧
      During oneProduct true listingTwice 2 w ∧
      [order].map (·.toJson) = (w.listOf 9).map (·.toJson) := by
  obtain ⟨-, -, s, -, -, hs, -, -, hlisted⟩ := reaches_listingTwice
  refine ⟨s, hs, ?_⟩
  simp only [hasListed] at hlisted
  split at hlisted
  · next order ht =>
    obtain ⟨orders, w, he, hduring, hsame, -⟩ :=
      order_list_current hs listsInTime_listingTwice 2 9 _ ht
    cases he
    exact ⟨order, w, beq_iff_eq.mp hlisted, ht, hduring, hsame⟩
  · cases hlisted

/-- Before the first call has cached the empty list, the user orders. -/
def ordering : List Move := call 1 (.createOrder 9 [⟨7, "Widget", 3⟩]) 7 accept

/-- Nobody has ordered yet. -/
abbrev selectedNone : Shop := selected (.init (.initial oneProduct true)) []

theorem reaches_selectedNone : Reaches oneProduct true selecting selectedNone := by
  have hempty : (World.initial oneProduct true).listOf 9 = [] := by
    have hnone : (World.initial oneProduct true).ordersOf 9 = [] := rfl
    simp [World.listOf, newestFirst, hnone]
  have hrun : orderSystem.run (.init (.initial oneProduct true)) selecting =
      some (selected (.init (.initial oneProduct true)) ((World.initial oneProduct true).listOf 9)) :=
    run_selecting rfl rfl rfl
  rw [hempty] at hrun
  exact hrun

/-- Whether call 1 has created an order, before call 2 begins. -/
def hasOrdered (s : Shop) : Bool :=
  match s.threads 1 with
  | some (.createOrder 9 _, .running (.ret (.ok (.order _)))) => (s.threads 2).isNone
  | _ => false

/-- Whether call 2 has listed no order. -/
def hasListedNone (s : Shop) : Bool :=
  match s.threads 2 with
  | some (.listOrdersForUser 9, .running (.ret (.ok (.orders [])))) => true
  | _ => false

/-- The order was created before the last call began, and is not in its list. -/
theorem not_order_list_current : ¬∀ c b moves s, Reaches c b moves s → (∀ l ∈ moves, FaultFree l) →
    ListCurrent c b moves s := by
  intro hall
  have hobs : (orderSystem.run selectedNone ordering).bind (fun d =>
      (orderSystem.run d [.step 0 {}, .start 2 (.listOrdersForUser 9), .step 2 {}]).map fun s =>
        (hasOrdered d, hasListedNone s)) = some (true, true) := by decide +kernel
  obtain ⟨d, hd, hobs⟩ := Option.bind_eq_some_iff.mp hobs
  obtain ⟨s, hrun, hobs⟩ := Option.map_eq_some_iff.mp hobs
  obtain ⟨hcreated, hlisted⟩ := Prod.mk.inj hobs
  have hreach : Reaches oneProduct true (selecting ++ ordering) d :=
    Reaches.append.mpr ⟨_, reaches_selectedNone, hd⟩
  have hs : Reaches oneProduct true (selecting ++ ordering ++
      [.step 0 {}, .start 2 (.listOrdersForUser 9), .step 2 {}]) s :=
    Reaches.append.mpr ⟨d, hreach, hrun⟩
  have hcurrent := hall _ _ _ s hs (by decide +kernel)
  simp only [hasOrdered] at hcreated
  simp only [hasListedNone] at hlisted
  split at hcreated
  · next lines order hcreate =>
    split at hlisted
    · next hlist =>
      obtain ⟨orders, w, he, -, -, hin⟩ := hcurrent 2 9 _ hlist
      cases he
      have hmem := hin _ _ d 1 lines order rfl hreach (Option.isNone_iff_eq_none.mp hcreated) hcreate
      cases hmem
    · cases hlisted
  · cases hcreated

end OrderLifecycle

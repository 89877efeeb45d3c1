import Mathlib.Data.List.Nodup
import OrderLifecycle.Isolation.Calls
import OrderLifecycle.Reads.OrderList

open Framework

namespace OrderLifecycle.Isolation

/-- Two shops of one configuration agree on what is the user's. -/
structure Agree (u : UserId) (w w' : World) : Prop where
  enabled : w.cacheEnabled = w'.cacheEnabled
  orders : ∀ o, own u (w.order o) = own u (w'.order o)
  entries : ∀ o, own u (w.order o) ≠ none → w.cache.order o = w'.cache.order o
  list : w.cache.userOrders u = w'.cache.userOrders u

/-- What is somebody else's is as it was. -/
structure OthersKept (u : UserId) (w w' : World) : Prop where
  orders : ∀ o row, row.userId ≠ u → (w'.order o = some row ↔ w.order o = some row)
  outbox : ∀ id m, m.payload.userId ≠ u → (w'.outbox id = some m ↔ w.outbox id = some m)
  entries : ∀ o entry, entry.userId ≠ u →
    (w'.cache.order o = some entry ↔ w.cache.order o = some entry)
  lists : ∀ u', u' ≠ u → w'.cache.userOrders u' = w.cache.userOrders u'

/-- The calls of user `u` about orders that exist. -/
inductive OwnCall (u : UserId) : Request → Prop
  | getOrderForUser (id : OrderId) : OwnCall u (.getOrderForUser id u)
  | listOrdersForUser : OwnCall u (.listOrdersForUser u)
  | initiatePayment (id : OrderId) : OwnCall u (.initiatePayment id u)
  | cancelOrder (id : OrderId) : OwnCall u (.cancelOrder id u)

/-- The same orders, newest first. -/
def SameOrders (orders orders' : List OrderEntity) : Prop :=
  orders.Perm orders' ∧ orders.map (·.createdAt.ms) = orders'.map (·.createdAt.ms)

/-- The same result; `ORDER BY` leaves open how orders of one instant are listed. -/
def SameResult : Except AppError Reply → Except AppError Reply → Prop
  | .ok (.orders orders), .ok (.orders orders') => SameOrders orders orders'
  | r, r' => r = r'

variable {t : Tid} {u : UserId} {w₀ w₀' w w' : World} {ch : Nat → Choice} {i : Nat} {c c' : Catalog}
  {b b' : Bool} {moves moves' : List Move} {s s' : Shop} {k : Request}

theorem SameOrders.refl (orders : List OrderEntity) : SameOrders orders orders := ⟨.refl _, rfl⟩

theorem SameResult.refl (r : Except AppError Reply) : SameResult r r := by
  unfold SameResult
  split
  · exact .refl _
  · rfl

/-! ### `listOrdersForUser` -/

theorem newestFirst_same {orders orders' : List OrderEntity} (h : orders.Perm orders') :
    SameOrders (newestFirst orders) (newestFirst orders') := by
  have hperm : (newestFirst orders).Perm (newestFirst orders') :=
    (List.mergeSort_perm ..).trans (h.trans (List.mergeSort_perm ..).symm)
  have hsorted (l : List OrderEntity) :
      ((newestFirst l).map (·.createdAt.ms)).Pairwise fun a b => b ≤ a := by
    apply List.pairwise_map.mpr
    have hp : (newestFirst l).Pairwise fun a b => decide (b.createdAt.ms ≤ a.createdAt.ms) = true := by
      apply List.pairwise_mergeSort
      · intro a b c hab hbc
        have hab := of_decide_eq_true hab
        have hbc := of_decide_eq_true hbc
        exact decide_eq_true (hbc.trans hab)
      · intro a b
        have htotal := Nat.le_total b.createdAt.ms a.createdAt.ms
        simpa using htotal
    exact hp.imp fun hab => of_decide_eq_true hab
  have hdates := hperm.map (·.createdAt.ms)
  have hanti (a b : Nat) (_ : a ∈ (newestFirst orders).map (·.createdAt.ms))
      (_ : b ∈ (newestFirst orders').map (·.createdAt.ms)) (hab : b ≤ a) (hba : a ≤ b) : a = b :=
    Nat.le_antisymm hba hab
  exact ⟨hperm, hdates.eq_of_pairwise hanti (hsorted orders) (hsorted orders')⟩

/-- What the two runs of `listOrdersForUser` return. -/
def SameLists (u : UserId) (w₀ w₀' : World) (orders orders' : List OrderEntity) : Prop :=
  SameOrders orders orders' ∧ (w₀.ordersOf u = w₀'.ordersOf u → orders = orders')

theorem lock_cacheGetUserOrders :
    Lockstep t ch i i (fun w w' => w = w₀ ∧ w' = w₀' ∧ Resting t u w₀ w w') (cacheGetUserOrders u)
      (cacheGetUserOrders u)
      (Level fun cached cached' w w' => cached = cached' ∧ w = w₀ ∧ w' = w₀' ∧ Resting t u w₀ w w')
      (Level (Failing t u w₀)) := by
  apply lock_stmt
  rintro w w' r r' v v' ⟨he, he', hr⟩ hs hs'
  cases hs
  cases hs'
  refine ⟨rfl, ?_, he, he', hr⟩
  rw [hr.rel.twins.enabled, hr.rel.twins.list]

theorem lock_selectOrders (hperm : (w₀.ordersOf u).Perm (w₀'.ordersOf u)) :
    Lockstep t ch i i (fun w w' => w = w₀ ∧ w' = w₀' ∧ Resting t u w₀ w w')
      (selectAll (orderOfUser u)) (selectAll (orderOfUser u))
      (Level fun found found' w _ => found.Perm found' ∧
        (w₀.ordersOf u = w₀'.ordersOf u → found = found') ∧ Spared t u w₀ w)
      (Level (Failing t u w₀)) := by
  apply lock_sql fun w w' h => h.2.2.rel
  rintro w w' r r' v v' ⟨rfl, rfl, hr⟩ hs hs'
  cases hs
  cases hs'
  rw [select_orders hr.idle, select_orders hr.idle']
  exact ⟨_, _, rfl, rfl, hperm, fun he => he, hr.rel.spared⟩

theorem lock_cacheSetUserOrders (orders orders' : List OrderEntity) :
    Lockstep t ch i i (fun w _ => Spared t u w₀ w) (cacheSetUserOrders u orders)
      (cacheSetUserOrders u orders') (Level fun _ _ w _ => Spared t u w₀ w)
      (Level (Failing t u w₀)) := by
  apply lock_stmt
  intro w w' r r' v v' hsp hs hs'
  cases hs
  cases hs'
  refine ⟨rfl, ?_⟩
  split
  · exact hsp
  · refine ⟨hsp.rows, hsp.pending, hsp.entries, fun u' hne => ?_⟩
    simp only [Cache.setUserOrders, Function.update_of_ne hne]
    exact hsp.lists u' hne

theorem lock_listOrdersForUser (hperm : (w₀.ordersOf u).Perm (w₀'.ordersOf u)) :
    Lockstep t ch i i (fun w w' => w = w₀ ∧ w' = w₀' ∧ Resting t u w₀ w w') (listOrdersForUser u)
      (listOrdersForUser u)
      (Level fun orders orders' w _ => SameLists u w₀ w₀' orders orders' ∧ Spared t u w₀ w)
      (Level (Failing t u w₀)) := by
  apply lock_seq lock_cacheGetUserOrders
  intro cached cached' j
  apply lock_fact
  rintro rfl
  cases cached with
  | some list =>
    apply lock_pure
    rintro w w' ⟨-, -, hr⟩
    exact ⟨rfl, ⟨.refl _, fun _ => rfl⟩, hr.rel.spared⟩
  | none =>
    apply lock_seq (lock_selectOrders hperm)
    intro found found' j
    apply lock_fact
    intro hfound
    apply lock_fact
    intro hsame
    have hlists : SameLists u w₀ w₀' (newestFirst found) (newestFirst found') :=
      ⟨newestFirst_same hfound, fun he => congrArg newestFirst (hsame he)⟩
    have hall : ((newestFirst found).all fun order => isTerminalStatus order.status) =
        (newestFirst found').all fun order => isTerminalStatus order.status := by
      apply Bool.eq_iff_iff.mpr
      rw [List.all_eq_true, List.all_eq_true]
      constructor
      · exact fun ha order ho => ha order (hlists.1.1.mem_iff.mpr ho)
      · exact fun ha order ho => ha order (hlists.1.1.mem_iff.mp ho)
    apply lock_ite (by rw [hall])
    · intro _
      apply lock_seq (lock_cacheSetUserOrders _ _)
      intro _ _ j
      exact lock_pure fun w w' hsp => ⟨rfl, hlists, hsp⟩
    · intro _
      exact lock_pure fun w w' hsp => ⟨rfl, hlists, hsp⟩

/-! ### One call -/

theorem ordersOf_nodup (h : Reaches c b moves s) (u : UserId) : (s.shared.ordersOf u).Nodup := by
  rw [ordersOf_eq]
  apply List.Nodup.filterMap _ s.shared.db.nodup
  intro key key' order ho ho'
  have hkey {key : Key} (ho : order ∈ s.shared.ownRow u key) : key = .order order.id := by
    cases key with
    | order o =>
      obtain ⟨hrow, -⟩ := Option.filter_eq_some_iff.mp ho
      rw [(h.present hrow).status.id]
    | _ => cases ho
  exact (hkey ho).trans (hkey ho').symm

theorem Agree.perm (h : Reaches c b moves s) (h' : Reaches c' b' moves' s')
    (hagree : Agree u s.shared s'.shared) :
    (s.shared.ordersOf u).Perm (s'.shared.ordersOf u) := by
  apply (List.perm_ext_iff_of_nodup (ordersOf_nodup h u) (ordersOf_nodup h' u)).mpr
  intro order
  have hmem (w : World) : order ∈ w.ordersOf u ↔ ∃ o, own u (w.order o) = some order := by
    simp only [mem_ordersOf, own_some, exists_and_right]
  rw [hmem, hmem]
  simp only [hagree.orders]

theorem Agree.resting (h : Reaches c b moves s) (h' : Reaches c' b' moves' s')
    (hagree : Agree u s.shared s'.shared) (hidle : Idle t s.shared) (hidle' : Idle t s'.shared) :
    Resting t u s.shared s.shared s'.shared := by
  have hnone {c : Catalog} {b : Bool} {moves : List Move} {s : Shop} (h : Reaches c b moves s)
      {o : OrderId} (hno : own u (s.shared.order o) = none) : own u (s.shared.cache.order o) = none := by
    by_contra hne
    obtain ⟨entry, he⟩ := Option.ne_none_iff_exists'.mp hne
    obtain ⟨hentry, hu⟩ := own_some.mp he
    obtain ⟨row, hrow, -, rfl⟩ := h.coherent o entry hentry
    have hown : own u (s.shared.order o) = some row := own_some.mpr ⟨hrow, hu⟩
    exact nomatch hno.symm.trans hown
  refine ⟨⟨⟨fun o => ?_, ?_, hagree.enabled, fun o => ?_, hagree.list⟩, .refl hidle⟩, hidle, hidle'⟩
  · rw [Store.view_idle hidle, Store.view_idle hidle']
    exact hagree.orders o
  · rw [hidle.not_aborted, hidle'.not_aborted]
  · by_cases hno : own u (s.shared.order o) = none
    · rw [hnone h hno, hnone h' ((hagree.orders o).symm.trans hno)]
    · rw [hagree.entries o hno]

/-- The statements of the two runs go together. -/
theorem lock_ownCall (h : Reaches c b moves s) (h' : Reaches c' b' moves' s')
    (hagree : Agree u s.shared s'.shared) (hk : OwnCall u k) :
    Lockstep t ch i i (fun w w' => w = s.shared ∧ w' = s'.shared ∧ Resting t u s.shared w w')
      (respond k) (respond k)
      (Level fun r r' w _ => SameResult (.ok r) (.ok r') ∧
        (s.shared.ordersOf u = s'.shared.ordersOf u → r = r') ∧ Spared t u s.shared w)
      (Level (Failing t u s.shared)) := by
  have hcoh (w w' : World) : w = s.shared ∧ w' = s'.shared ∧ Resting t u s.shared w w' →
      Coherent w ∧ Resting t u s.shared w w' := by
    rintro ⟨rfl, -, hr⟩
    exact ⟨h.coherent, hr⟩
  have hone {x : Service OrderEntity}
      (hx : Lockstep t ch i i (fun w w' => Coherent w ∧ Resting t u s.shared w w') x x
        (Level fun order order' w _ => order = order' ∧ Spared t u s.shared w)
        (Level (Failing t u s.shared))) :
      Lockstep t ch i i (fun w w' => w = s.shared ∧ w' = s'.shared ∧ Resting t u s.shared w w')
        (do let order ← x; return Reply.order order) (do let order ← x; return Reply.order order)
        (Level fun r r' w _ => SameResult (.ok r) (.ok r') ∧
          (s.shared.ordersOf u = s'.shared.ordersOf u → r = r') ∧ Spared t u s.shared w)
        (Level (Failing t u s.shared)) := by
    apply lock_seq (lock_pre hcoh hx)
    intro order order' j
    apply lock_fact
    rintro rfl
    exact lock_pure fun w w' hsp => ⟨rfl, .refl _, fun _ => rfl, hsp⟩
  cases hk with
  | getOrderForUser id =>
    apply hone
    apply lock_conseq (lock_getOrderForUser id)
    · rintro order order' j j' w w' ⟨hj, he, -, -, hr⟩
      exact ⟨hj, he, hr.rel.spared⟩
    · exact fun _ _ _ _ _ _ he => he
  | initiatePayment id => exact hone (lock_initiatePayment id)
  | cancelOrder id => exact hone (lock_cancelOrder id)
  | listOrdersForUser =>
    apply lock_seq (lock_listOrdersForUser (hagree.perm h h'))
    intro orders orders' j
    apply lock_fact
    intro hsame
    exact lock_pure fun w w' hsp => ⟨rfl, hsame.1, fun he => congrArg _ (hsame.2 he), hsp⟩

/-- A call that runs alone is a run of the shop. -/
theorem runs_alone (ht : s.threads t = none) (hk : OwnCall u k)
    {r : Except AppError Reply × Nat}
    (hrun : (respond k).run.solo t ch none i s.shared = some (w, some r)) :
    ∃ ms d, orderSystem.run s ms = some d ∧ d.shared = w := by
  have hen : orderSystem.enabled k s.shared = true := by cases hk <;> rfl
  have hth : (s.set s.shared t k (.running (respond k).run)).threads t =
      some (k, .running (respond k).run) := Function.update_self ..
  obtain ⟨ms, d, hms, -, hd, -⟩ := Prog.solo_run orderSystem hth hrun
  refine ⟨.start t k :: ms, d, orderSystem.run_cons.mpr ⟨_, ?_, hms⟩, hd⟩
  simp only [System.next, ht, hen]
  rfl

theorem Spared.others (hsp : Spared t u s.shared w) (h : Reaches c b moves s) {ms : List Move}
    {d : Shop} (hrun : orderSystem.run s ms = some d) (hd : d.shared = w) :
    OthersKept u s.shared w := by
  subst hd
  have hd : Reaches c b (moves ++ ms) d := Reaches.append.mpr ⟨s, h, hrun⟩
  have howner {o : OrderId} (hown : Owns u s.shared o) :
      ∃ row, d.shared.order o = some row ∧ row.userId = u := by
    obtain ⟨row, hrow, hu⟩ := hown
    obtain ⟨row', hrow', hu'⟩ := h.owner hrun hrow
    exact ⟨row', hrow', hu'.trans hu⟩
  refine ⟨fun o row hne => ?_, fun id m hne => ?_, fun o entry hne => ?_, hsp.lists⟩
  · rcases hsp.rows (.order o) with hsame | hown
    · have hsame : d.shared.order o = s.shared.order o := hsame
      rw [hsame]
    · obtain ⟨row', hrow', hu'⟩ := howner hown
      obtain ⟨row₀, hrow₀, hu₀⟩ := hown
      constructor
      · intro he
        cases hrow'.symm.trans he
        exact absurd hu' hne
      · intro he
        cases hrow₀.symm.trans he
        exact absurd hu₀ hne
  · rcases hsp.rows (.outbox id) with hsame | ⟨hnew, hown⟩
    · have hsame : d.shared.outbox id = s.shared.outbox id := hsame
      rw [hsame]
    · constructor
      · exact fun he => absurd (hown m he) hne
      · exact fun he => nomatch hnew.symm.trans he
  · rcases hsp.entries o with hsame | hown
    · rw [hsame]
    · obtain ⟨row', hrow', hu'⟩ := howner hown
      obtain ⟨row₀, hrow₀, hu₀⟩ := hown
      constructor
      · intro he
        obtain ⟨row, hrow, -, rfl⟩ := hd.coherent o entry he
        cases hrow'.symm.trans hrow
        exact absurd hu' hne
      · intro he
        obtain ⟨row, hrow, -, rfl⟩ := h.coherent o entry he
        cases hrow₀.symm.trans hrow
        exact absurd hu₀ hne

theorem isolated_of_agree (h : Reaches c b moves s) (h' : Reaches c' b' moves' s')
    (hagree : Agree u s.shared s'.shared) (ht : s.threads t = none) (ht' : s'.threads t = none)
    (hk : OwnCall u k) {r r' : Except AppError Reply} {j j' : Nat}
    (hrun : (respond k).run.solo t ch none i s.shared = some (w, some (r, j)))
    (hrun' : (respond k).run.solo t ch none i s'.shared = some (w', some (r', j'))) :
    SameResult r r' ∧ (s.shared.ordersOf u = s'.shared.ordersOf u → r = r') ∧
      OthersKept u s.shared w := by
  have hidle : Idle t s.shared := h.recollects.sound.fresh t ht
  have hidle' : Idle t s'.shared := h'.recollects.sound.fresh t ht'
  have hpost := lock_ownCall h h' hagree hk s.shared s'.shared
    ⟨rfl, rfl, hagree.resting h h' hidle hidle'⟩ w (r, j) w' (r', j') hrun hrun'
  obtain ⟨ms, d, hms, hd⟩ := runs_alone ht hk hrun
  match r, r' with
  | .ok a, .ok a' =>
    obtain ⟨-, hsame, heq, hsp⟩ := hpost
    exact ⟨hsame, fun he => congrArg Except.ok (heq he), hsp.others h hms hd⟩
  | .error e, .error e' =>
    obtain ⟨-, rfl, hsp⟩ := hpost
    exact ⟨.refl _, fun _ => rfl, hsp.others h hms hd⟩
  | .ok _, .error _ => exact hpost.elim
  | .error _, .ok _ => exact hpost.elim

theorem Agree.symm (h : Agree u w w') : Agree u w' w := by
  refine ⟨h.enabled.symm, fun o => (h.orders o).symm, fun o hne => ?_, h.list.symm⟩
  rw [← h.orders o] at hne
  exact (h.entries o hne).symm

/-- In two shops that agree on what is the user's, the user's call has the same result, and it
changes nothing of anybody else's. -/
theorem owner_isolation (h : Reaches c b moves s) (h' : Reaches c' b' moves' s')
    (hagree : Agree u s.shared s'.shared) (ht : s.threads t = none) (ht' : s'.threads t = none)
    (hk : OwnCall u k) {r r' : Except AppError Reply} {j j' : Nat}
    (hrun : (respond k).run.solo t ch none i s.shared = some (w, some (r, j)))
    (hrun' : (respond k).run.solo t ch none i s'.shared = some (w', some (r', j'))) :
    SameResult r r' ∧ (s.shared.ordersOf u = s'.shared.ordersOf u → r = r') ∧
      OthersKept u s.shared w ∧ OthersKept u s'.shared w' := by
  obtain ⟨hsame, heq, hkept⟩ := isolated_of_agree h h' hagree ht ht' hk hrun hrun'
  obtain ⟨-, -, hkept'⟩ := isolated_of_agree h' h hagree.symm ht' ht hk hrun' hrun
  exact ⟨hsame, heq, hkept, hkept'⟩

/-- User 9 has no orders; user 8 has ordered, or nobody has. -/
theorem owner_isolation_foreign : ∃ s s' w w' r r',
    Reaches oneProduct true (call 0 (.createOrder 8 [⟨7, "Widget", 3⟩]) 7 accept) s ∧
    Reaches oneProduct true [] s' ∧ (s.shared.order 1).isSome = true ∧
    (respond (.getOrderForUser 1 9)).run.solo 5 (fun _ => {}) none 0 s.shared = some (w, some r) ∧
    (respond (.getOrderForUser 1 9)).run.solo 5 (fun _ => {}) none 0 s'.shared = some (w', some r') ∧
    SameResult r.1 r'.1 ∧ OthersKept 9 s.shared w := by
  have hshop (moves : List Move) (ordered : Bool) (hobs : (trial moves).map (fun s =>
      ((s.threads 5).isNone, (s.shared.ordersOf 9).isEmpty, s.shared.cacheEnabled,
        (s.shared.cache.userOrders 9).isNone, (s.shared.order 1).isSome,
        (((respond (.getOrderForUser 1 9)).run.solo 5 (fun _ => {}) none 0 s.shared).bind
          Prod.snd).isSome)) = some (true, true, true, true, ordered, true)) :
      ∃ s, Reaches oneProduct true moves s ∧ s.threads 5 = none ∧
        (∀ o, own 9 (s.shared.order o) = none) ∧ s.shared.cacheEnabled = true ∧
        s.shared.cache.userOrders 9 = none ∧ (s.shared.order 1).isSome = ordered ∧ ∃ w r,
        (respond (.getOrderForUser 1 9)).run.solo 5 (fun _ => {}) none 0 s.shared =
          some (w, some r) := by
    obtain ⟨s, hs, hobs⟩ := reaches_of_trial moves _ _ hobs
    simp only [Prod.mk.injEq, Option.isNone_iff_eq_none, List.isEmpty_iff] at hobs
    obtain ⟨hfresh, hnone, hen, hlist, hordered, hsome⟩ := hobs
    refine ⟨s, hs, hfresh, fun o => ?_, hen, hlist, hordered, ?_⟩
    · by_contra hne
      obtain ⟨row, hrow⟩ := Option.ne_none_iff_exists'.mp hne
      obtain ⟨hrow, hu⟩ := own_some.mp hrow
      have hmem : row ∈ s.shared.ordersOf 9 := mem_ordersOf.mpr ⟨⟨o, hrow⟩, hu⟩
      rw [hnone] at hmem
      cases hmem
    · obtain ⟨r, hr⟩ := Option.isSome_iff_exists.mp hsome
      obtain ⟨⟨w, r'⟩, hrun, he⟩ := Option.bind_eq_some_iff.mp hr
      cases he
      exact ⟨w, r, hrun⟩
  obtain ⟨s, hs, hfresh, hown, hen, hlist, hordered, w, r, hrun⟩ :=
    hshop (call 0 (.createOrder 8 [⟨7, "Widget", 3⟩]) 7 accept) true (by decide +kernel)
  obtain ⟨s', hs', hfresh', hown', hen', hlist', -, w', r', hrun'⟩ :=
    hshop [] false (by decide +kernel)
  have hagree : Agree 9 s.shared s'.shared :=
    ⟨hen.trans hen'.symm, fun o => (hown o).trans (hown' o).symm, fun o hne => absurd (hown o) hne,
      hlist.trans hlist'.symm⟩
  obtain ⟨hsame, -, hkept, -⟩ :=
    owner_isolation hs hs' hagree hfresh hfresh' (.getOrderForUser 1) hrun hrun'
  exact ⟨s, s', w, w', r, r', hs, hs', hordered, hrun, hrun', hsame, hkept⟩

end OrderLifecycle.Isolation

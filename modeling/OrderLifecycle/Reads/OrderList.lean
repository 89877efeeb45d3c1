import OrderLifecycle.Reads.Coherence

open Framework

namespace OrderLifecycle

variable {c : Catalog} {b : Bool} {moves ls ls' : List Move} {s d e : Shop} {t : Tid} {u : UserId}
  {w : World} {l : Move}

/-! ### Where the cached list comes from -/

/-- After the moves `ls` a call caches the orders of `u`: its third statement leaves the list there
that its second one read in `w`. -/
def CachesList (c : Catalog) (b : Bool) (u : UserId) (ls : List Move) (l : Move) (w : World) : Prop :=
  ∃ d d' t ch th x y, l = .step t ch ∧ Reaches c b ls d ∧ orderSystem.next d l = some d' ∧
    d.threads t = some (.listOrdersForUser u, th) ∧ memory c b ls t = [x, y] ∧ y.1 = w ∧
    d'.shared.cache.userOrders u = some ((w.listOf u).map (·.toJson))

/-- The list that was last cached for `u` was read in `w`. -/
inductive CachedFrom (c : Catalog) (b : Bool) (u : UserId) : List Move → World → Prop
  | caches {ls : List Move} {l : Move} {w : World} (h : CachesList c b u ls l w) : CachedFrom c b u (ls ++ [l]) w
  | keeps {ls : List Move} {l : Move} {w : World} (h : CachedFrom c b u ls w) (other : ∀ w', ¬CachesList c b u ls l w') :
    CachedFrom c b u (ls ++ [l]) w

/-- A cached list was read at some moment of the run, and all its orders were terminal. -/
structure Listed (c : Catalog) (b : Bool) (u : UserId) (moves : List Move) (s : Shop)
    (list : List OrderEntity) (w : World) : Prop where
  source : CachedFrom c b u moves w
  list : list = (w.listOf u).map (·.toJson)
  terminal : ∀ order ∈ w.listOf u, isTerminalStatus order.status = true
  moment : ∃ ls ls' d, moves = ls ++ ls' ∧ Reaches c b ls d ∧ orderSystem.run d ls' = some s ∧
    d.shared = w

theorem Listed.keeps {list : List OrderEntity} (h : Listed c b u ls d list w)
    (hn : orderSystem.next d l = some s) (hno : ∀ w', ¬CachesList c b u ls l w') :
    Listed c b u (ls ++ [l]) s list w := by
  obtain ⟨ls₁, ls₂, d₁, rfl, hd₁, hrun, hw⟩ := h.moment
  refine ⟨.keeps h.source hno, h.list, h.terminal, ls₁, ls₂ ++ [l], d₁, by simp, hd₁, ?_, hw⟩
  exact orderSystem.run_snoc.mpr ⟨d, hrun, hn⟩

theorem Reaches.listed (h : Reaches c b moves s) {list : List OrderEntity}
    (hl : s.shared.cache.userOrders u = some list) : ∃ w, Listed c b u moves s list w := by
  induction moves using List.reverseRecOn generalizing s list with
  | nil =>
    cases h
    cases hl
  | append_singleton ls l ih =>
    obtain ⟨d, hd, hn⟩ := Reaches.snoc.mp h
    have hother (hstep : ∀ t ch, l ≠ .step t ch) (hsame : d.shared.cache.userOrders u = some list) :
        ∃ w, Listed c b u (ls ++ [l]) s list w := by
      obtain ⟨w, hw⟩ := ih hd hsame
      refine ⟨w, hw.keeps hn ?_⟩
      rintro w' ⟨d₁, d₂, t, ch, th, x, y, he, -⟩
      exact hstep t ch he
    cases l with
    | start t k =>
      obtain ⟨-, hm⟩ := hd.sound_any.next (verified_orderSystem (.any c)) (admits_any _) hn
      have hsame : s.shared = d.shared := hm
      exact hother (by simp) (hsame ▸ hl)
    | step t ch =>
      obtain ⟨k, th, ht, hfills⟩ := hd.recollects.step trivial hn
      by_cases hcaches : ∃ w, CachesList c b u ls (.step t ch) w
      · obtain ⟨w, hw⟩ := hcaches
        obtain ⟨d₁, d₂, t', ch', th', x, y, he, hd₁, hn₁, ht₁, hmem, rfl, hlist⟩ := id hw
        cases he
        cases hd.symm.trans hd₁
        cases hn.symm.trans hn₁
        cases hl.symm.trans hlist
        have hy : y ∈ memory c b ls t := by simp [hmem]
        obtain ⟨ls₁, ls₂, d₁, rfl, hd₁, hrun, hshared, -⟩ := hd.moment hy
        refine ⟨y.1, .caches hw, rfl, ?_, ls₁, ls₂ ++ [.step t ch], d₁, by simp, hd₁,
          orderSystem.run_snoc.mpr ⟨d, hrun, hn⟩, hshared⟩
        rcases hfills.userOrders u _ hl with hold | ⟨-, x', y', hmem', hterm, -⟩
        · -- the entry was there before: its orders have the same statuses
          obtain ⟨w₀, hw₀⟩ := ih hd hold
          intro order ho
          have hjson : order.toJson ∈ (w₀.listOf u).map (·.toJson) := by
            rw [← hw₀.list]
            exact List.mem_map_of_mem ho
          obtain ⟨order', ho', hsame⟩ := List.mem_map.mp hjson
          have hstatus : order'.toJson.status = order.toJson.status := by rw [hsame]
          change order'.status = order.status at hstatus
          rw [← hstatus]
          exact hw₀.terminal order' ho'
        · cases hmem.symm.trans hmem'
          exact hterm
      · rcases hfills.userOrders u list hl with hold | ⟨rfl, x, y, hmem, hterm, hlist⟩
        · obtain ⟨w, hw⟩ := ih hd hold
          exact ⟨w, hw.keeps hn fun w' h' => hcaches ⟨w', h'⟩⟩
        · exact absurd ⟨y.1, d, s, t, ch, th, x, y, rfl, hd, hn, ht, hmem, rfl, hlist ▸ hl⟩ hcaches
    | crash t =>
      have hcache : s.shared.cache = d.shared.cache := by
        simp only [System.next] at hn
        split at hn
        · cases hn
          rfl
        · cases hn
      exact hother (by simp) (hcache ▸ hl)
    | env ev =>
      obtain ⟨w, hw, rfl⟩ := Option.map_eq_some_iff.mp hn
      refine hother (by simp) ?_
      cases ev with
      | relay id =>
        obtain ⟨m, -, rfl⟩ := Option.map_eq_some_iff.mp hw
        exact hl
      | expire key =>
        cases hw
        exact Cache.del_userOrders hl

/-! ### The orders of a user over time -/

theorem Reaches.keys (h : Reaches c b ls d) (hrun : orderSystem.run d ls' = some s) :
    d.shared.db.keys <+: s.shared.db.keys := by
  have hsound := h.recollects.sound
  have hboth := orderSystem.run_induct (A := fun _ => True) (P := fun e : Shop =>
      Sound readLogic Idle (fun _ k r _ => ∃ h, Recounts k r h) e ∧
        d.shared.db.keys <+: e.shared.db.keys) ?_ (fun _ _ => trivial) hrun
    ⟨hsound, List.prefix_rfl⟩
  · exact hboth.2
  · rintro e e' l - hn ⟨hs, hk⟩
    have hl : readLogic.Admits l := by cases l <;> trivial
    obtain ⟨hs', hm⟩ := hs.next recalled_orderSystem.verified hl hn
    refine ⟨hs', ?_⟩
    rcases hm.cases with he | hd | ⟨t, k, th, -, -, -, hg⟩
    · exact he ▸ hk
    · have hdb : e'.shared.db = e.shared.db := hd
      exact hdb ▸ hk
    · exact hk.trans hg

/-- An order stays with its user. -/
theorem Reaches.owner (h : Reaches c b ls d) (hrun : orderSystem.run d ls' = some s) {o : OrderId}
    {row : OrderEntity} (ho : d.shared.order o = some row) :
    ∃ row', s.shared.order o = some row' ∧ row'.userId = row.userId := by
  apply h.keeps (P := fun f => ∃ row', f.order = some row' ∧ row'.userId = row.userId) hrun
    ⟨row, ho, rfl⟩
  rintro t k f f' hs ⟨row', ho', hu⟩
  obtain ⟨row'', ho'', hf⟩ := hs.follows ho'
  exact ⟨row'', ho'', hf.userId.trans hu⟩

/-- The row of a key, if it is an order of the user. -/
def World.ownRow (w : World) (u : UserId) : Key → Option OrderEntity
  | .order o => (w.order o).filter fun order => order.userId == u
  | _ => none

theorem ordersOf_eq (w : World) (u : UserId) : w.ordersOf u = w.db.keys.filterMap (w.ownRow u) := by
  unfold World.ordersOf World.orders
  rw [List.filter_filterMap]
  apply List.filterMap_congr
  intro key _
  cases key <;> rfl

theorem mem_ordersOf {order : OrderEntity} :
    order ∈ w.ordersOf u ↔ (∃ o, w.order o = some order) ∧ order.userId = u := by
  rw [ordersOf_eq, List.mem_filterMap]
  constructor
  · rintro ⟨key, -, hrow⟩
    cases key with
    | order o =>
      obtain ⟨ho, hu⟩ := Option.filter_eq_some_iff.mp hrow
      exact ⟨⟨o, ho⟩, by simpa using hu⟩
    | _ => cases hrow
  · rintro ⟨⟨o, ho⟩, hu⟩
    have hkey : Key.order o ∈ w.db.keys := by
      apply w.db.listed (.order o) (.inl _)
      intro hnone
      exact nomatch hnone.symm.trans ho
    exact ⟨.order o, hkey, Option.filter_eq_some_iff.mpr ⟨ho, by simpa using hu⟩⟩

theorem mem_listOf {order : OrderEntity} :
    order ∈ w.listOf u ↔ (∃ o, w.order o = some order) ∧ order.userId = u := by
  unfold World.listOf newestFirst
  rw [List.mem_mergeSort, mem_ordersOf]

/-- As long as no order of the user is added, a list of terminal orders stays the list. -/
theorem Reaches.listOf_same (h : Reaches c b ls d) (hrun : orderSystem.run d ls' = some s)
    (ht : ∀ order ∈ d.shared.listOf u, isTerminalStatus order.status = true)
    (hnew : ∀ o row, s.shared.order o = some row → row.userId = u → d.shared.order o ≠ none) :
    s.shared.listOf u = d.shared.listOf u := by
  have hown : s.shared.ownRow u = d.shared.ownRow u := by
    funext key
    cases key with
    | order o =>
      change (s.shared.order o).filter (fun order => order.userId == u) =
        (d.shared.order o).filter fun order => order.userId == u
      cases hd : d.shared.order o with
      | some row =>
        by_cases hu : row.userId = u
        · have hterm := ht row (mem_listOf.mpr ⟨⟨o, hd⟩, hu⟩)
          rw [h.terminal hrun hd hterm]
        · obtain ⟨row', hrow', hu'⟩ := h.owner hrun hd
          have hne : ¬row'.userId = u := hu' ▸ hu
          simp [hrow', Option.filter_some, hu, hne]
      | none =>
        cases hs : s.shared.order o with
        | none => rfl
        | some row =>
          have hne : ¬row.userId = u := fun hu => hnew o row hs hu hd
          simp [Option.filter_some, hne]
    | _ => rfl
  obtain ⟨extra, hextra⟩ := h.keys hrun
  have hnone : extra.filterMap (d.shared.ownRow u) = [] := by
    apply List.filterMap_eq_nil_iff.mpr
    intro key hkey
    have hnot : key ∉ d.shared.db.keys := by
      have hnodup := s.shared.db.nodup
      rw [← hextra, List.nodup_append] at hnodup
      exact fun hmem => hnodup.2.2 key hmem key hkey rfl
    have hrow : d.shared.db.rows key = none := by
      by_contra hne
      exact hnot (d.shared.db.listed key (.inl hne))
    cases key with
    | order o =>
      have ho : d.shared.order o = none := hrow
      simp [World.ownRow, ho]
    | _ => rfl
  unfold World.listOf
  rw [ordersOf_eq, ordersOf_eq, hown, ← hextra, List.filterMap_append, hnone, List.append_nil]

end OrderLifecycle

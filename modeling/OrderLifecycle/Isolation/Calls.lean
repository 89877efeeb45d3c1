import OrderLifecycle.Isolation.Twins
import OrderLifecycle.Reads.Coherence

open Framework

namespace OrderLifecycle.Isolation

/-- Two worlds in the middle of a call, the first of which began as `w₀`. -/
structure Rel (t : Tid) (u : UserId) (w₀ w w' : World) : Prop where
  twins : Twins t u w w'
  spared : Spared t u w₀ w

/-- No transaction is open. -/
structure Resting (t : Tid) (u : UserId) (w₀ w w' : World) : Prop where
  rel : Rel t u w₀ w w'
  idle : Idle t w
  idle' : Idle t w'

/-- The transaction is open and sound. -/
def Open (t : Tid) (w : World) : Prop := ∃ tx, w.db.txns t = some tx ∧ tx.aborted = false

structure Working (t : Tid) (u : UserId) (w₀ w w' : World) : Prop where
  rel : Rel t u w₀ w w'
  opened : Open t w
  opened' : Open t w'

/-- The call sees the order, and it is the user's. -/
def Owned (t : Tid) (u : UserId) (id : OrderId) (w : World) : Prop :=
  ∃ row, w.db.view t (.order id) = some row ∧ OrderEntity.userId row = u

/-- The same error. -/
def Failing (t : Tid) (u : UserId) (w₀ : World) (e e' : AppError) (w _w' : World) : Prop :=
  e = e' ∧ Spared t u w₀ w

variable {t : Tid} {u : UserId} {w₀ w w' v v' : World} {key : Key} {α α' β : Type}
  {ch : Nat → Choice} {i : Nat} {id : OrderId} {P : World → World → Prop}

theorem Rel.unseen (h : Rel t u w₀ w w') (hs : Spared t u w₀ v) (hv : Unseen t w v)
    (hv' : Unseen t w' v') : Rel t u w₀ v v' :=
  ⟨h.twins.unseen hv hv', hs⟩

theorem Open.put {value : Option (Row key)} {js : List (Tid × Deed)} {hfree : w.db.Free t key}
    (h : Open t w) : Open t { w with db := w.db.put t key value js hfree } := by
  obtain ⟨tx, htx, ha⟩ := h
  exact ⟨_, (Store.put_txn value js hfree htx).2, ha⟩

theorem Owned.twin (h : Owned t u id w) (hr : Twins t u w w') :
    ∃ row, w.db.view t (.order id) = some row ∧ w'.db.view t (.order id) = some row ∧
      OrderEntity.userId row = u := by
  obtain ⟨row, hrow, hu⟩ := h
  have hown : own u (w.db.view t (.order id)) = some row := own_some.mpr ⟨hrow, hu⟩
  rw [hr.orders id] at hown
  exact ⟨row, hrow, (own_some.mp hown).1, hu⟩

/-! ### Statements -/

/-- An SQL statement that succeeds in both worlds if it can. -/
theorem lock_sql {f : Tid → Choice → World → Option (Except AppError α × World)}
    {f' : Tid → Choice → World → Option (Except AppError α' × World)}
    {Q : α → α' → World → World → Prop} (hP : ∀ w w', P w w' → Rel t u w₀ w w')
    (h : ∀ w w' r r' v v', P w w' → f t (ch i) w = some (r, v) → f' t (ch i) w' = some (r', v') →
      ∃ a a', r = .ok a ∧ r' = .ok a' ∧ Q a a' v v') :
    Lockstep t ch i i P (sql f) (sql f') (Level Q) (Level (Failing t u w₀)) := by
  apply lock_stmt
  intro w w' r r' v v' hp hs hs'
  have hrel := hP w w' hp
  have hsame {b : Bool} (ha : w.db.aborted t = b) : w'.db.aborted t = b :=
    hrel.twins.aborted.symm.trans ha
  rcases sql_cases hs with ⟨ha, rfl, rfl⟩ | ⟨ha, hfail, rfl, rfl⟩ |
    ⟨ha, hfail, ⟨b, rfl, hb⟩ | ⟨e, w₁, -, he, -⟩⟩
  · rcases sql_cases hs' with ⟨-, rfl, -⟩ | ⟨ha', -⟩ | ⟨ha', -⟩
    · exact ⟨rfl, rfl, hrel.spared⟩
    · exact nomatch (hsame ha).symm.trans ha'
    · exact nomatch (hsame ha).symm.trans ha'
  · rcases sql_cases hs' with ⟨ha', -⟩ | ⟨-, -, rfl, -⟩ | ⟨-, hfail', -⟩
    · exact nomatch (hsame ha).symm.trans ha'
    · exact ⟨rfl, rfl, hrel.spared.abort⟩
    · exact nomatch hfail.symm.trans hfail'
  · rcases sql_cases hs' with ⟨ha', -⟩ | ⟨-, hfail', -⟩ | ⟨-, -, ⟨b', rfl, hb'⟩ | ⟨e', w₁, -, he', -⟩⟩
    · exact nomatch (hsame ha).symm.trans ha'
    · exact nomatch hfail.symm.trans hfail'
    · obtain ⟨a, a', ha₁, ha₁', hq⟩ := h w w' _ _ v v' hp hb hb'
      cases ha₁
      cases ha₁'
      exact ⟨rfl, hq⟩
    · obtain ⟨a, a', -, ha₁', -⟩ := h w w' _ _ v w₁ hp hb he'
      cases ha₁'
  · rcases sql_cases hs' with ⟨ha', -⟩ | ⟨-, hfail', -⟩ | ⟨-, -, ⟨b', rfl, hb'⟩ | ⟨e', w₂, -, he', -⟩⟩
    · exact nomatch (hsame ha).symm.trans ha'
    · exact nomatch hfail.symm.trans hfail'
    · obtain ⟨a, a', ha₁, -⟩ := h w w' _ _ w₁ v' hp he hb'
      cases ha₁
    · obtain ⟨a, a', ha₁, -⟩ := h w w' _ _ w₁ w₂ hp he he'
      cases ha₁

/-- A statement beside the database and the cache. -/
theorem lock_aside {f : Stmt World Choice (Except AppError α)} {a : α}
    (hf : ∀ w, ∃ v, f t (ch i) w = some (.ok a, v) ∧ v.db = w.db ∧ v.cache = w.cache) :
    Lockstep t ch i i (fun w _ => Spared t u w₀ w) (stmt f) (stmt f)
      (Level fun b b' w _ => b = b' ∧ Spared t u w₀ w) (Level (Failing t u w₀)) := by
  apply lock_stmt
  intro w w' r r' x x' hp hs hs'
  obtain ⟨v, hv, hdb, hc⟩ := hf w
  obtain ⟨v', hv', -⟩ := hf w'
  cases hs.symm.trans hv
  cases hs'.symm.trans hv'
  exact ⟨rfl, rfl, hp.of_db hdb hc⟩

/-! ### `getOrderForUser` -/

theorem lock_cacheGetOrder (id : OrderId) :
    Lockstep t ch i i (fun w w' => Coherent w ∧ Resting t u w₀ w w') (cacheGetOrder id)
      (cacheGetOrder id)
      (Level fun cached cached' w w' => own u cached = own u cached' ∧
        (∀ entry, own u cached = some entry → isTerminalStatus entry.status = true) ∧
          Resting t u w₀ w w')
      (Level (Failing t u w₀)) := by
  apply lock_stmt
  rintro w w' r r' v v' ⟨hcoh, hr⟩ hs hs'
  cases hs
  cases hs'
  refine ⟨rfl, ?_, ?_, hr⟩
  · rw [← hr.rel.twins.enabled]
    split
    · rfl
    · exact hr.rel.twins.entries id
  · intro entry he
    split at he
    · cases he
    · obtain ⟨hentry, -⟩ := own_some.mp he
      obtain ⟨row, -, ht, rfl⟩ := hcoh id entry hentry
      exact ht

theorem lock_findOrderOfUser (id : OrderId) :
    Lockstep t ch i i (Resting t u w₀) (findOrderOfUser id u) (findOrderOfUser id u)
      (Level fun found found' w w' => found = found' ∧
        (∀ order, found = some order → order.userId = u ∧ Owned t u id w) ∧ Resting t u w₀ w w')
      (Level (Failing t u w₀)) := by
  apply lock_seq (Q := fun row row' w w' => own u row = own u row' ∧
    (∀ order, own u row = some order → Owned t u id w) ∧ Resting t u w₀ w w')
  · apply lock_sql fun _ _ h => h.rel
    intro w w' r r' v v' hr hs hs'
    cases hs
    cases hs'
    refine ⟨_, _, rfl, rfl, hr.rel.twins.orders id, ?_, hr⟩
    intro order ho
    exact ⟨order, own_some.mp ho⟩
  · intro row row' j
    apply lock_pure
    rintro w w' ⟨hsame, howned, hr⟩
    exact ⟨rfl, hsame, fun order ho => ⟨(own_some.mp ho).2, howned order ho⟩, hr⟩

theorem lock_cacheSetOrder (order : OrderEntity) :
    Lockstep t ch i i (fun w w' => Owned t u id w ∧ Resting t u w₀ w w') (cacheSetOrder id order)
      (cacheSetOrder id order)
      (Level fun _ _ w w' => Owned t u id w ∧ Resting t u w₀ w w') (Level (Failing t u w₀)) := by
  apply lock_stmt
  rintro w w' r r' v v' ⟨howned, hr⟩ hs hs'
  have howns : Owns u w₀ id := by
    apply hr.rel.spared.owns
    obtain ⟨row, hrow, hu⟩ := howned
    rw [Store.view_idle hr.idle] at hrow
    exact ⟨row, hrow, hu⟩
  cases hs
  cases hs'
  have hsame : (!w'.cacheEnabled || (ch i).fail) = (!w.cacheEnabled || (ch i).fail) := by
    rw [hr.rel.twins.enabled]
  rw [hsame]
  split
  · exact ⟨rfl, howned, hr⟩
  · refine ⟨rfl, howned, ⟨?_, ?_⟩, hr.idle, hr.idle'⟩
    · have hentries (o : OrderId) : own u ((w.cache.setOrder id order).order o) =
          own u ((w'.cache.setOrder id order).order o) := by
        by_cases e : o = id
        · simp only [Cache.setOrder, e, Function.update_self]
        · simp only [Cache.setOrder, Function.update_of_ne e]
          exact hr.rel.twins.entries o
      exact hr.rel.twins.setCache hentries hr.rel.twins.list
    · refine ⟨hr.rel.spared.rows, hr.rel.spared.pending, fun o => ?_, hr.rel.spared.lists⟩
      by_cases e : o = id
      · exact .inr (e ▸ howns)
      · simp only [Cache.setOrder, Function.update_of_ne e]
        exact hr.rel.spared.entries o

theorem lock_fetchOrderForUser (id : OrderId) :
    Lockstep t ch i i (Resting t u w₀) (fetchOrderForUser id u) (fetchOrderForUser id u)
      (Level fun order order' w w' => order = order' ∧ order.userId = u ∧ Owned t u id w ∧
        Resting t u w₀ w w')
      (Level (Failing t u w₀)) := by
  apply lock_seq (lock_findOrderOfUser id)
  intro found found' j
  apply lock_fact
  rintro rfl
  cases found with
  | none =>
    apply lock_throw
    rintro w w' ⟨-, hr⟩
    exact ⟨rfl, rfl, hr.rel.spared⟩
  | some order =>
    apply lock_pre (P := fun w w' => order.userId = u ∧ Owned t u id w ∧ Resting t u w₀ w w')
    · rintro w w' ⟨hfound, hr⟩
      exact ⟨(hfound order rfl).1, (hfound order rfl).2, hr⟩
    · apply lock_fact
      intro hu
      apply lock_ite Iff.rfl
      · intro _
        apply lock_seq (lock_cacheSetOrder order)
        intro _ _ j
        apply lock_pure
        intro w w' hp
        exact ⟨rfl, rfl, hu, hp⟩
      · intro _
        apply lock_pure
        intro w w' hp
        exact ⟨rfl, rfl, hu, hp⟩

/-- Somebody else's order is like one that does not exist. -/
theorem lock_getOrderForUser (id : OrderId) :
    Lockstep t ch i i (fun w w' => Coherent w ∧ Resting t u w₀ w w') (getOrderForUser id u)
      (getOrderForUser id u)
      (Level fun order order' w w' => order = order' ∧ order.userId = u ∧
        (isTerminalStatus order.status = true ∨ Owned t u id w) ∧ Resting t u w₀ w w')
      (Level (Failing t u w₀)) := by
  apply lock_seq (lock_cacheGetOrder id)
  intro cached cached' j
  apply lock_fact
  intro hsame
  apply lock_fact
  intro hterm
  have hfetch : Lockstep t ch j j (Resting t u w₀) (fetchOrderForUser id u) (fetchOrderForUser id u)
      (Level fun order order' w w' => order = order' ∧ order.userId = u ∧
        (isTerminalStatus order.status = true ∨ Owned t u id w) ∧ Resting t u w₀ w w')
      (Level (Failing t u w₀)) := by
    apply lock_conseq (lock_fetchOrderForUser id)
    · rintro order order' j j' w w' ⟨hj, he, hu, howned, hr⟩
      exact ⟨hj, he, hu, .inr howned, hr⟩
    · exact fun _ _ _ _ _ _ h => h
  have hother {entry : OrderEntity} (hu : ¬entry.userId = u) : own u (some entry) = none := by
    simp [own, Option.filter_some, hu]
  have hmine {entry : OrderEntity} (hu : entry.userId = u) : own u (some entry) = some entry :=
    own_some.mpr ⟨rfl, hu⟩
  match cached, cached' with
  | none, none => exact hfetch
  | none, some entry' =>
    have hu : ¬entry'.userId = u := fun hu => nomatch hsame.trans (hmine hu)
    simp only [if_neg hu]
    exact hfetch
  | some entry, none =>
    have hu : ¬entry.userId = u := fun hu => nomatch (hmine hu).symm.trans hsame
    simp only [if_neg hu]
    exact hfetch
  | some entry, some entry' =>
    by_cases hu : entry.userId = u
    · have he : own u (some entry') = some entry := hsame.symm.trans (hmine hu)
      obtain ⟨he, -⟩ := own_some.mp he
      cases he
      simp only [if_pos hu]
      apply lock_pure
      intro w w' hr
      exact ⟨rfl, rfl, hu, .inl (hterm entry (hmine hu)), hr⟩
    · have hu' : ¬entry'.userId = u := by
        intro hu'
        rw [hother hu, hmine hu'] at hsame
        exact nomatch hsame
      simp only [if_neg hu, if_neg hu']
      exact hfetch

/-! ### The transaction of `initiatePayment` -/

theorem Resting.owns (h : Resting t u w₀ w w') (ho : Owned t u id w) : Owns u w₀ id := by
  apply h.rel.spared.owns
  obtain ⟨row, hrow, hu⟩ := ho
  rw [Store.view_idle h.idle] at hrow
  exact ⟨row, hrow, hu⟩

theorem Unseen.begin (hidle : Idle t w) : Unseen t w { w with db := w.db.begin t } := by
  have htx := Store.begin_txn hidle
  refine ⟨fun o => ?_, ?_, rfl, rfl⟩
  · dsimp only
    rw [Store.view_txn htx, Store.view_idle hidle, Store.begin_same.1]
    rfl
  · rw [hidle.not_aborted]
    simp [Store.aborted, htx]

theorem Unseen.commit (h : Open t w) : Unseen t w { w with db := w.db.commit t } := by
  obtain ⟨tx, htx, ha⟩ := h
  refine ⟨fun o => ?_, ?_, rfl, rfl⟩
  · dsimp only
    rw [Store.view_idle Store.commit_txn, Store.commit_view htx ha]
  · simp [Store.aborted, Store.commit_txn, htx, ha]

theorem lock_begin :
    Lockstep t ch i i (fun w w' => Owned t u id w ∧ Resting t u w₀ w w') startTransaction
      startTransaction (Level fun _ _ w w' => Owned t u id w ∧ Working t u w₀ w w')
      (Level (Failing t u w₀)) := by
  apply lock_stmt
  rintro w w' r r' v v' ⟨howned, hr⟩ hs hs'
  split at hs
  · next hfail =>
    rw [if_pos hfail] at hs'
    cases hs
    cases hs'
    exact ⟨rfl, rfl, hr.rel.spared⟩
  · next hfail =>
    rw [if_neg hfail] at hs'
    cases hs
    cases hs'
    have hunseen := Unseen.begin hr.idle
    refine ⟨rfl, ?_, hr.rel.unseen (hr.rel.spared.begin hr.idle) hunseen (.begin hr.idle'),
      ⟨_, Store.begin_txn hr.idle, rfl⟩, ⟨_, Store.begin_txn hr.idle', rfl⟩⟩
    obtain ⟨row, hrow, hu⟩ := howned
    exact ⟨row, (hunseen.orders id).trans hrow, hu⟩

theorem lock_commit :
    Lockstep t ch i i (Working t u w₀) commitTransaction commitTransaction
      (Level fun _ _ => Resting t u w₀) (Level (Failing t u w₀)) := by
  apply lock_stmt
  rintro w w' r r' v v' hw hs hs'
  split at hs
  · next hfail =>
    rw [if_pos hfail] at hs'
    cases hs
    cases hs'
    exact ⟨rfl, rfl, hw.rel.spared.rollback⟩
  · next hfail =>
    rw [if_neg hfail] at hs'
    cases hs
    cases hs'
    obtain ⟨tx, htx, ha⟩ := hw.opened
    exact ⟨rfl, hw.rel.unseen (hw.rel.spared.commit htx ha) (.commit hw.opened) (.commit hw.opened'),
      Store.commit_txn, Store.commit_txn⟩

theorem lock_transaction {work work' : Service α}
    (hw : ∀ j, Lockstep t ch j j (fun w w' => Owned t u id w ∧ Working t u w₀ w w') work work'
      (Level fun a a' w w' => a = a' ∧ Working t u w₀ w w') (Level (Failing t u w₀))) :
    Lockstep t ch i i (fun w w' => Owned t u id w ∧ Resting t u w₀ w w') (transaction work)
      (transaction work') (Level fun a a' w w' => a = a' ∧ Resting t u w₀ w w')
      (Level (Failing t u w₀)) := by
  apply lock_tryCatch (E := Level (Failing t u w₀))
  · apply lock_seq lock_begin
    intro _ _ j
    apply lock_seq (hw j)
    intro a a' j
    apply lock_fact
    rintro rfl
    apply lock_seq lock_commit
    intro _ _ j
    exact lock_pure fun w w' hr => ⟨rfl, rfl, hr⟩
  · intro e e' j j'
    apply lock_fact
    rintro rfl
    apply lock_fact
    rintro rfl
    apply lock_seq (Q := fun _ _ w _ => Spared t u w₀ w)
    · apply lock_stmt
      intro w w' r r' v v' hsp hs hs'
      cases hs
      cases hs'
      exact ⟨rfl, hsp.rollback⟩
    · intro _ _ j
      exact lock_throw fun w w' hsp => ⟨rfl, rfl, hsp⟩

/-- An `UPDATE` of an order of the user's changes the same row in both worlds. -/
theorem lock_updateOrder {T : World → Prop} (howns : Owns u w₀ id)
    (hT : ∀ w value js hfree, T w → T { w with db := w.db.put t (.order id) value js hfree })
    (p : OrderEntity → Bool) (f : Choice → OrderEntity → OrderEntity)
    (deeds : OrderEntity → List Deed) :
    Lockstep t ch i i (fun w w' => Owned t u id w ∧ Rel t u w₀ w w' ∧ T w ∧ T w')
      (updateRow (.order id) p f deeds) (updateRow (.order id) p f deeds)
      (Level fun n n' w w' => n = n' ∧ Rel t u w₀ w w' ∧ T w ∧ T w') (Level (Failing t u w₀)) := by
  apply lock_sql fun w w' h => h.2.1
  rintro w w' r r' v v' ⟨howned, hr, ht, ht'⟩ hs hs'
  obtain ⟨row, hrow, hrow', -⟩ := howned.twin hr.twins
  rcases updateRow_cases hs with ⟨rfl, rfl, hno⟩ | ⟨rfl, row₁, hfree, hv, hp, rfl⟩
  · rcases updateRow_cases hs' with ⟨rfl, rfl, -⟩ | ⟨-, row₂, -, hv', hp', -⟩
    · exact ⟨0, 0, rfl, rfl, rfl, hr, ht, ht'⟩
    · cases hrow'.symm.trans hv'
      exact nomatch (hno row hrow).symm.trans hp'
  · cases hrow.symm.trans hv
    rcases updateRow_cases hs' with ⟨-, -, hno'⟩ | ⟨rfl, row₂, hfree', hv', -, rfl⟩
    · exact nomatch (hno' row hrow').symm.trans hp
    · cases hrow'.symm.trans hv'
      exact ⟨1, 1, rfl, rfl, rfl, ⟨hr.twins.put hfree hfree', hr.spared.put hfree howns⟩,
        hT w _ _ hfree ht, hT w' _ _ hfree' ht'⟩

/-- An id that the transaction does not see in use was not in use. -/
theorem Spared.unused (h : Spared t u w₀ w) {m : Uuid} (hv : w.db.view t (.outbox m) = none) :
    w₀.outbox m = none := by
  cases htx : w.db.txns t with
  | none =>
    rw [Store.view_idle htx] at hv
    rcases h.rows (.outbox m) with hsame | hfine
    · exact hsame.symm.trans hv
    · exact hfine.1
  | some tx =>
    rw [Store.view_txn htx] at hv
    cases hw : tx.writes (.outbox m) with
    | none =>
      rw [hw] at hv
      rcases h.rows (.outbox m) with hsame | hfine
      · exact hsame.symm.trans hv
      · exact hfine.1
    | some v => exact (h.pending tx htx _ v hw).1

theorem lock_insertFresh {key : Uuid → Key} (row : Choice → (id : Uuid) → Row (key id))
    (hkey : ∀ id o, key id ≠ .order o)
    (hfine : ∀ w id, Spared t u w₀ w → w.db.view t (key id) = none →
      Fine u w₀ (key id) (some (row (ch i) id))) :
    Lockstep t ch i i (Working t u w₀) (insertFresh key row) (insertFresh key row)
      (Level fun _ _ => Working t u w₀) (Level (Failing t u w₀)) := by
  apply lock_sql fun w w' h => h.rel
  intro w w' r r' v v' hw hs hs'
  obtain ⟨rfl, hv, hfree, rfl⟩ := insertFresh_cases hs
  obtain ⟨rfl, hv', hfree', rfl⟩ := insertFresh_cases hs'
  refine ⟨_, _, rfl, rfl, hw.rel.unseen ?_ (.put hfree (hkey _)) (.put hfree' (hkey _)),
    hw.opened.put, hw.opened'.put⟩
  exact hw.rel.spared.put hfree (hfine w _ hw.rel.spared hv)

theorem lock_enqueue (routingKey : RoutingKey) {payload : OrderEvent} (hp : payload.userId = u) :
    Lockstep t ch i i (Working t u w₀) (enqueue routingKey payload) (enqueue routingKey payload)
      (Level fun _ _ => Working t u w₀) (Level (Failing t u w₀)) := by
  apply lock_seq (Q := fun _ _ => Working t u w₀)
  · have hkey (id : Uuid) (o : OrderId) : Key.outbox id ≠ .order o := fun he => nomatch he
    apply lock_insertFresh _ hkey
    intro w m hsp hv
    refine ⟨hsp.unused hv, ?_⟩
    intro message hm
    cases hm
    exact hp
  · intro _ _ j
    exact lock_pure fun w w' hw => ⟨rfl, hw⟩

/-! ### `initiatePayment` -/

theorem Spared.delAll {keys : List CacheKey} (h : Spared t u w₀ w)
    (hkeys : ∀ key ∈ keys, ∀ w, Spared t u w₀ w →
      Spared t u w₀ { w with cache := w.cache.del key }) :
    Spared t u w₀ { w with cache := keys.foldl Cache.del w.cache } := by
  induction keys generalizing w with
  | nil => exact h
  | cons key keys ih =>
    have hdel := hkeys key List.mem_cons_self w h
    exact ih hdel fun key' hmem => hkeys key' (List.mem_cons_of_mem _ hmem)

theorem lock_cacheDel {keys : List CacheKey} (hkeys : ∀ key ∈ keys, ∀ w, Spared t u w₀ w →
    Spared t u w₀ { w with cache := w.cache.del key }) :
    Lockstep t ch i i (fun w _ => Spared t u w₀ w) (cacheDel keys) (cacheDel keys)
      (Level fun _ _ w _ => Spared t u w₀ w) (Level (Failing t u w₀)) := by
  apply lock_stmt
  intro w w' r r' v v' hsp hs hs'
  cases hs
  cases hs'
  refine ⟨rfl, ?_⟩
  split
  · exact hsp
  · exact hsp.delAll hkeys

theorem Spared.delOrder (h : Spared t u w₀ w) (howns : Owns u w₀ id) :
    Spared t u w₀ { w with cache := w.cache.del (.order id) } := by
  refine ⟨h.rows, h.pending, fun o => ?_, h.lists⟩
  by_cases e : o = id
  · exact .inr (e ▸ howns)
  · simp only [Cache.del, Function.update_of_ne e]
    exact h.entries o

theorem Spared.delList (h : Spared t u w₀ w) :
    Spared t u w₀ { w with cache := w.cache.del (.userOrders u) } := by
  refine ⟨h.rows, h.pending, h.entries, fun u' hne => ?_⟩
  simp only [Cache.del, Function.update_of_ne hne]
  exact h.lists u' hne

theorem lock_initiatePayment (id : OrderId) :
    Lockstep t ch i i (fun w w' => Coherent w ∧ Resting t u w₀ w w') (initiatePayment id u)
      (initiatePayment id u) (Level fun order order' w _ => order = order' ∧ Spared t u w₀ w)
      (Level (Failing t u w₀)) := by
  apply lock_seq (lock_getOrderForUser id)
  intro order order' j
  apply lock_fact
  rintro rfl
  apply lock_fact
  intro hu
  apply lock_ite Iff.rfl
  · intro _
    apply lock_throw
    rintro w w' ⟨-, hr⟩
    exact ⟨rfl, rfl, hr.rel.spared⟩
  · intro hstatus
    have hres : order.status = .reserved := by simpa using hstatus
    have hterm : ¬isTerminalStatus order.status = true := by simp [hres, isTerminalStatus, orderTransitions]
    apply lock_pre (P := fun w w' => Owns u w₀ id ∧ Owned t u id w ∧ Resting t u w₀ w w')
    · rintro w w' ⟨hread, hr⟩
      have howned : Owned t u id w := hread.resolve_left hterm
      exact ⟨hr.owns howned, howned, hr⟩
    · apply lock_fact
      intro howns
      apply lock_seq
      · apply lock_transaction
        intro j
        apply lock_seq (Q := fun n n' w w' => n = n' ∧ Working t u w₀ w w')
        · apply lock_pre (P := fun w w' => Owned t u id w ∧ Rel t u w₀ w w' ∧ Open t w ∧ Open t w')
          · rintro w w' ⟨howned, hw⟩
            exact ⟨howned, hw.rel, hw.opened, hw.opened'⟩
          · apply lock_conseq (lock_updateOrder howns (fun _ _ _ _ h => h.put) _ _ _)
            · rintro n n' j j' w w' ⟨hj, he, hrel, ho, ho'⟩
              exact ⟨hj, he, hrel, ho, ho'⟩
            · exact fun _ _ _ _ _ _ h => h
        · intro n n' j
          apply lock_fact
          rintro rfl
          apply lock_ite Iff.rfl
          · intro _
            exact lock_pure fun w w' hw => ⟨rfl, rfl, hw⟩
          · intro _
            have hevent : (OrderEvent.inventoryReserved
                { orderId := order.id, userId := order.userId }).userId = u := hu
            apply lock_seq (lock_enqueue _ hevent)
            intro _ _ j
            exact lock_pure fun w w' hw => ⟨rfl, rfl, hw⟩
      · intro claimed claimed' j
        apply lock_fact
        rintro rfl
        apply lock_pre (P := fun w _ => Spared t u w₀ w) fun w w' hr => hr.rel.spared
        apply lock_ite Iff.rfl
        · intro _
          exact lock_throw fun w w' hsp => ⟨rfl, rfl, hsp⟩
        · intro _
          apply lock_seq
          · exact lock_aside fun w => ⟨w, rfl, rfl, rfl⟩
          · intro now now' j
            apply lock_fact
            rintro rfl
            apply lock_seq
            · apply lock_cacheDel
              intro key hmem w hsp
              cases List.mem_singleton.mp hmem
              exact hsp.delOrder howns
            · intro _ _ j
              exact lock_pure fun w w' hsp => ⟨rfl, rfl, hsp⟩

/-! ### `cancelOrder` -/

theorem lock_restoreStock (lines : List StockLine) :
    Lockstep t ch i i (Resting t u w₀) (restoreStock id lines) (restoreStock id lines)
      (Level fun _ _ => Resting t u w₀) (Level (Failing t u w₀)) := by
  induction lines generalizing i with
  | nil => exact lock_pure fun w w' hr => ⟨rfl, hr⟩
  | cons line lines ih =>
    apply lock_seq (Q := fun _ _ => Resting t u w₀)
    · apply lock_sql fun _ _ h => h.rel
      intro w w' r r' v v' hr hs hs'
      have hkey (o : OrderId) : Key.product line.productId ≠ .order o := fun he => nomatch he
      have hone {w v : World} {r : Except AppError Nat} (hidle : Idle t w)
          (hs : (w.db.update t (.product line.productId) (fun _ => true)
            (fun (p : ProductEntity) => { p with stock := p.stock + line.quantity })
            fun _ => [Deed.stock id line.productId line.quantity].map (Prod.mk t)).map (fun r =>
            ((.ok r.1 : Except AppError Nat), { w with db := r.2 })) = some (r, v)) :
          (∃ n, r = .ok n) ∧ Unseen t w v ∧ Idle t v ∧ (Spared t u w₀ w → Spared t u w₀ v) := by
        rcases updateRow_cases hs with
          ⟨rfl, rfl, -⟩ | ⟨rfl, row, hfree, -, -, rfl⟩
        · exact ⟨⟨0, rfl⟩, .of_db rfl rfl rfl, hidle, fun hsp => hsp⟩
        · exact ⟨⟨1, rfl⟩, .put hfree hkey, hidle.put hfree _, fun hsp => hsp.put hfree trivial⟩
      obtain ⟨⟨n, rfl⟩, hunseen, hidle, hspared⟩ := hone hr.idle hs
      obtain ⟨⟨n', rfl⟩, hunseen', hidle', -⟩ := hone hr.idle' hs'
      exact ⟨n, n', rfl, rfl, hr.rel.unseen (hspared hr.rel.spared) hunseen hunseen', hidle, hidle'⟩
    · intro _ _ j
      exact ih

theorem lock_cancelOrder (id : OrderId) :
    Lockstep t ch i i (fun w w' => Coherent w ∧ Resting t u w₀ w w') (cancelOrder id u)
      (cancelOrder id u) (Level fun order order' w _ => order = order' ∧ Spared t u w₀ w)
      (Level (Failing t u w₀)) := by
  apply lock_seq (lock_getOrderForUser id)
  intro order order' j
  apply lock_fact
  rintro rfl
  apply lock_fact
  intro hu
  apply lock_ite Iff.rfl
  · intro _
    apply lock_throw
    rintro w w' ⟨-, hr⟩
    exact ⟨rfl, rfl, hr.rel.spared⟩
  · intro hcan
    have hterm : ¬isTerminalStatus order.status = true := by
      intro ht
      apply hcan
      cases hs : order.status <;> simp_all [isTerminalStatus, orderTransitions]
    apply lock_pre (P := fun w w' => Owns u w₀ id ∧ Owned t u id w ∧ Resting t u w₀ w w')
    · rintro w w' ⟨hread, hr⟩
      have howned : Owned t u id w := hread.resolve_left hterm
      exact ⟨hr.owns howned, howned, hr⟩
    · apply lock_fact
      intro howns
      apply lock_seq (Q := fun n n' w w' => n = n' ∧ Resting t u w₀ w w')
      · apply lock_pre (P := fun w w' => Owned t u id w ∧ Rel t u w₀ w w' ∧ Idle t w ∧ Idle t w')
        · rintro w w' ⟨howned, hr⟩
          exact ⟨howned, hr.rel, hr.idle, hr.idle'⟩
        · apply lock_conseq (lock_updateOrder howns (fun w _ _ hfree h => h.put hfree w.gateway) _ _ _)
          · rintro n n' j j' w w' ⟨hj, he, hrel, hidle, hidle'⟩
            exact ⟨hj, he, hrel, hidle, hidle'⟩
          · exact fun _ _ _ _ _ _ h => h
      · intro n n' j
        apply lock_fact
        rintro rfl
        apply lock_ite Iff.rfl
        · intro _
          apply lock_throw
          intro w w' hr
          exact ⟨rfl, rfl, hr.rel.spared⟩
        · intro _
          apply lock_seq (Q := fun _ _ => Resting t u w₀)
          · apply lock_ite Iff.rfl
            · intro _
              exact lock_restoreStock _
            · intro _
              exact lock_pure fun w w' hr => ⟨rfl, hr⟩
          · intro _ _ j
            apply lock_pre (P := fun w _ => Spared t u w₀ w) fun w w' hr => hr.rel.spared
            apply lock_seq (Q := fun _ _ w _ => Spared t u w₀ w)
            · have hrecord (w : World) : ∃ v, some (Except.ok (), { w with
                  metrics := w.metrics ++ [Metric.terminalState "cancelled"] }) =
                    some ((.ok () : Except AppError Unit), v) ∧ v.db = w.db ∧ v.cache = w.cache :=
                ⟨_, rfl, rfl, rfl⟩
              apply lock_conseq (lock_aside hrecord)
              · rintro _ _ _ _ w w' ⟨hj, -, hsp⟩
                exact ⟨hj, hsp⟩
              · exact fun _ _ _ _ _ _ h => h
            · intro _ _ j
              apply lock_seq
              · apply lock_cacheDel
                intro key hmem w hsp
                rcases List.mem_cons.mp hmem with rfl | hmem
                · exact hsp.delOrder howns
                · cases List.mem_singleton.mp hmem
                  exact hu ▸ hsp.delList
              · intro _ _ j
                exact lock_pure fun w w' hsp => ⟨rfl, rfl, hsp⟩

end OrderLifecycle.Isolation

import OrderLifecycle.Lifecycle.OrderFacts

open Framework

namespace OrderLifecycle

/-- A set of changes, at most one row of each table: what a transaction is about to commit, or
one statement outside a transaction writes. Product rows are accounted for elsewhere. -/
structure Draft where
  order : Option (OrderId × OrderEntity)
  event : Option OutboxMessageEntity
  inbox : Option (Uuid × Consumer × ProcessedMessageEntity)
  authorization : Option (OrderId × PaymentAuthorizationEntity)
  journal : Journal

def Key.tracked : Key → Bool
  | .product _ => false
  | _ => true

def Deed.About (o : OrderId) : Deed → Prop
  | .stock o' _ _ => o' = o
  | .replenished _ _ => True
  | .paymentClaimed o' => o' = o
  | .cancelClaimed o' _ _ => o' = o

namespace Draft

def empty : Draft := ⟨none, none, none, none, []⟩

/-- The rows of the draft, as a transaction holds them. -/
def writes (D : Draft) : (k : Key) → Option (Option (Row k))
  | .order o =>
    match D.order with
    | some (o', row) => if o' = o then some (some row) else none
    | none => none
  | .product _ => none
  | .outbox id =>
    match D.event with
    | some m => if m.id = id then some (some m) else none
    | none => none
  | .inbox id c =>
    match D.inbox with
    | some (id', c', row) => if id' = id ∧ c' = c then some (some row) else none
    | none => none
  | .authorization o =>
    match D.authorization with
    | some (o', row) => if o' = o then some (some row) else none
    | none => none

/-- The draft makes `rows'` of `rows`. -/
def Turns (D : Draft) (rows rows' : Rows) : Prop :=
  ∀ k, k.tracked = true → rows' k = (D.writes k).getD (rows k)

/-- Everything in the draft is about order `o`. -/
structure About (D : Draft) (o : OrderId) : Prop where
  order : ∀ x ∈ D.order, x.1 = o
  event : ∀ m ∈ D.event, m.payload.orderId = o
  authorization : ∀ x ∈ D.authorization, x.1 = o
  journal : ∀ d ∈ D.journal, d.2.About o

/-- The facts of order `o` once the draft is committed, `r` being the new `reserved`. -/
def apply (D : Draft) (o : OrderId) (r : Prop) (f : OrderFacts) : OrderFacts where
  order :=
    match D.order with
    | some (o', row) => if o' = o then some row else f.order
    | none => f.order
  events k :=
    match D.event with
    | some m => if m.payload.orderId = o ∧ m.routingKey = k then insert m (f.events k) else f.events k
    | none => f.events k
  reserved := r
  authorization :=
    match D.authorization with
    | some (o', row) => if o' = o then some row else f.authorization
    | none => f.authorization
  charged := f.charged
  net p := f.net p + netChange D.journal o p
  claims := f.claims ++ D.journal.filter fun d => d.2.claims o

end Draft

/-! ### History -/

@[simp] theorem netChange_nil (o : OrderId) (p : ProductId) : netChange [] o p = 0 := rfl

@[simp] theorem netChange_append (j j' : Journal) (o : OrderId) (p : ProductId) :
    netChange (j ++ j') o p = netChange j o p + netChange j' o p := by
  simp [netChange]

@[simp] theorem netChange_cons (d : Tid × Deed) (j : Journal) (o : OrderId) (p : ProductId) :
    netChange (d :: j) o p = d.2.delta o p + netChange j o p := by
  simp [netChange]

@[simp] theorem moved_nil (p : ProductId) : moved [] p = 0 := rfl

@[simp] theorem moved_append (j j' : Journal) (p : ProductId) :
    moved (j ++ j') p = moved j p + moved j' p := by
  simp [moved]

@[simp] theorem moved_cons (d : Tid × Deed) (j : Journal) (p : ProductId) :
    moved (d :: j) p = d.2.moved p + moved j p := by
  simp [moved]

theorem Deed.About.other {o o' : OrderId} {d : Deed} (h : d.About o) (ho : o' ≠ o) :
    (∀ p, d.delta o' p = 0) ∧ d.claims o' = false := by
  cases d with
  | stock a p n =>
    cases h
    simp [delta, claims, Ne.symm ho]
  | replenished p n => simp [delta, claims]
  | paymentClaimed a =>
    cases h
    simp [delta, claims, Ne.symm ho]
  | cancelClaimed a s f =>
    cases h
    simp [delta, claims, Ne.symm ho]

theorem netChange_other {o o' : OrderId} {j : Journal} (h : ∀ d ∈ j, d.2.About o) (ho : o' ≠ o)
    (p : ProductId) : netChange j o' p = 0 := by
  induction j with
  | nil => rfl
  | cons d j ih =>
    rw [netChange_cons, (h d (by simp)).other ho |>.1 p,
      ih fun d hd => h d (List.mem_cons_of_mem _ hd)]
    rfl

theorem claims_other {o o' : OrderId} {j : Journal} (h : ∀ d ∈ j, d.2.About o) (ho : o' ≠ o) :
    (j.filter fun d => d.2.claims o') = [] := by
  rw [List.filter_eq_nil_iff]
  intro d hd
  simp [((h d hd).other ho).2]

/-! ### What a draft does to the facts of an order -/

namespace Draft

variable {D : Draft} {rows rows' : Rows} {j : Journal} {g : GatewayLog} {o o' : OrderId}

theorem Turns.order (h : D.Turns rows rows') : rows' (.order o) =
    match D.order with
    | some (o', row) => if o' = o then some row else rows (.order o)
    | none => rows (.order o) := by
  rw [h (.order o) rfl]
  simp only [writes]
  split
  · split <;> rfl
  · rfl

theorem Turns.authorization (h : D.Turns rows rows') : rows' (.authorization o) =
    match D.authorization with
    | some (o', row) => if o' = o then some row else rows (.authorization o)
    | none => rows (.authorization o) := by
  rw [h (.authorization o) rfl]
  simp only [writes]
  split
  · split <;> rfl
  · rfl

/-- A row is in the outbox afterwards if it was before or is the new one. -/
theorem Turns.outbox (h : D.Turns rows rows')
    (fresh : ∀ m ∈ D.event, rows (.outbox m.id) = none) (m : OutboxMessageEntity) :
    rows' (.outbox m.id) = some m ↔ m ∈ D.event ∨ rows (.outbox m.id) = some m := by
  rw [h (.outbox m.id) rfl]
  simp only [writes]
  cases he : D.event with
  | none => simp
  | some m' =>
    have hn := fresh m' he
    simp only [Option.mem_some_iff]
    by_cases hid : m'.id = m.id
    · rw [if_pos hid, Option.getD_some, ← hid, hn]
      exact ⟨fun e => .inl (Option.some.inj e), fun h => h.elim (congrArg some) nofun⟩
    · rw [if_neg hid, Option.getD_none]
      exact ⟨.inr, fun h => h.resolve_left fun e => hid (congrArg _ e)⟩

theorem Turns.inbox_ne_none (h : D.Turns rows rows') {id : Uuid} {c : Consumer} :
    rows' (.inbox id c) ≠ none ↔
      rows (.inbox id c) ≠ none ∨ ∃ x ∈ D.inbox, x.1 = id ∧ x.2.1 = c := by
  rw [h (.inbox id c) rfl]
  simp only [writes]
  cases hi : D.inbox with
  | none => simp
  | some x =>
    obtain ⟨id', c', row⟩ := x
    by_cases e : id' = id ∧ c' = c <;> simp [e]

/-- The facts of `o` itself. -/
theorem facts_own (h : D.Turns rows rows')
    (fresh : ∀ m ∈ D.event, rows (.outbox m.id) = none) :
    factsOf rows' (j ++ D.journal) g o =
      D.apply o (factsOf rows' (j ++ D.journal) g o).reserved (factsOf rows j g o) := by
  have horder := h.order (o := o)
  have hauth := h.authorization (o := o)
  have hevents : (factsOf rows' (j ++ D.journal) g o).events =
      (D.apply o True (factsOf rows j g o)).events := by
    funext k
    ext m
    simp only [factsOf, apply, Set.mem_ofPred_eq]
    rw [h.outbox fresh m]
    cases he : D.event with
    | none => simp
    | some m' =>
      simp only [Option.mem_some_iff]
      by_cases hk : m'.payload.orderId = o ∧ m'.routingKey = k
      · rw [if_pos hk]
        simp only [Set.mem_insert_iff, Set.mem_ofPred_eq]
        constructor
        · rintro ⟨rfl | hm, hk'⟩
          · exact .inl rfl
          · exact .inr ⟨hm, hk'⟩
        · rintro (rfl | ⟨hm, hk'⟩)
          · exact ⟨.inl rfl, hk.2, hk.1⟩
          · exact ⟨.inr hm, hk'⟩
      · rw [if_neg hk]
        simp only [Set.mem_ofPred_eq]
        constructor
        · rintro ⟨rfl | hm, hk'⟩
          · exact absurd hk'.symm hk
          · exact ⟨hm, hk'⟩
        · rintro ⟨hm, hk'⟩
          exact ⟨.inr hm, hk'⟩
  have hnet : netChange (j ++ D.journal) o = fun p => netChange j o p + netChange D.journal o p :=
    funext fun p => netChange_append ..
  refine OrderFacts.mk.injEq .. |>.mpr ⟨horder, hevents, rfl, hauth, rfl, hnet, ?_⟩
  exact List.filter_append ..

theorem apply_other (hD : D.About o) (ho : o' ≠ o) (f : OrderFacts) :
    D.apply o' f.reserved f = f := by
  obtain ⟨order, event, inbox, authorization, journal⟩ := D
  have hnet (p : ProductId) : f.net p + netChange journal o' p = f.net p := by
    rw [netChange_other hD.journal ho, Int.add_zero]
  have horder : ∀ x, order = some x → x.1 ≠ o' := fun x hx => by
    rw [hD.order x hx]; exact ho.symm
  have hevent : ∀ m, event = some m → m.payload.orderId ≠ o' := fun m hm => by
    rw [hD.event m hm]; exact ho.symm
  have hauth : ∀ x, authorization = some x → x.1 ≠ o' := fun x hx => by
    rw [hD.authorization x hx]; exact ho.symm
  refine OrderFacts.mk.injEq .. |>.mpr ⟨?_, funext fun k => ?_, rfl, ?_, rfl, funext hnet, ?_⟩
  · cases order with
    | none => rfl
    | some x => exact if_neg (horder x rfl)
  · cases event with
    | none => rfl
    | some m => exact if_neg fun h => hevent m rfl h.1
  · cases authorization with
    | none => rfl
    | some x => exact if_neg (hauth x rfl)
  · rw [claims_other hD.journal ho, List.append_nil]

theorem apply_inbox (i : Option (Uuid × Consumer × ProcessedMessageEntity)) (o : OrderId)
    (f : OrderFacts) : { empty with inbox := i }.apply o f.reserved f = f := by
  refine OrderFacts.mk.injEq .. |>.mpr ⟨rfl, rfl, rfl, rfl, rfl, ?_, ?_⟩
  · exact funext fun p => Int.add_zero _
  · exact List.append_nil _

/-- Whether inventory has dealt with the order changes through its own inbox row only. -/
theorem reserved_same (h : D.Turns rows rows')
    (fresh : ∀ m ∈ D.event, rows (.outbox m.id) = none)
    (hevent : ∀ m ∈ D.event, m.routingKey = .created → m.payload.orderId ≠ o)
    (hinbox : ∀ x ∈ D.inbox, x.2.1 = .inventory →
      ∀ m, rows (.outbox m.id) = some m → m.id = x.1 → m.payload.orderId ≠ o)
    (j' : Journal) :
    (factsOf rows' j' g o).reserved = (factsOf rows j g o).reserved := by
  simp only [factsOf]
  refine propext ⟨fun hr m hm hk hmo => ?_, fun hr m hm hk hmo => ?_⟩
  · have hm' := (h.outbox fresh m).mpr (.inr hm)
    rcases h.inbox_ne_none.mp (hr m hm' hk hmo) with hi | ⟨x, hx, hid, hc⟩
    · exact hi
    · exact absurd hmo (hinbox x hx hc m hm hid.symm)
  · rcases (h.outbox fresh m).mp hm with hm | hm
    · exact absurd hmo (hevent m hm hk)
    · exact h.inbox_ne_none.mpr (.inl (hr m hm hk hmo))

/-- The facts of every other order. -/
theorem facts_other (h : D.Turns rows rows') (hD : D.About o) (ho : o' ≠ o)
    (fresh : ∀ m ∈ D.event, rows (.outbox m.id) = none)
    (hinbox : ∀ x ∈ D.inbox, x.2.1 = .inventory →
      ∃ m, rows (.outbox m.id) = some m ∧ m.id = x.1 ∧ m.payload.orderId = o) :
    factsOf rows' (j ++ D.journal) g o' = factsOf rows j g o' := by
  have hr := reserved_same (g := g) (j := j) (o := o') h fresh
    (fun m hm _ => by rw [hD.event m hm]; exact ho.symm)
    (fun x hx hc m hm hid => by
      obtain ⟨m', hm', hid', hmo⟩ := hinbox x hx hc
      rw [hid, ← hid', hm'] at hm
      cases hm
      rw [hmo]
      exact ho.symm)
    (j ++ D.journal)
  rw [facts_own h fresh, hr, apply_other hD ho]

/-- The inbox row of the one `order.created` is there now. -/
theorem reserved_done (h : D.Turns rows rows')
    (fresh : ∀ m ∈ D.event, rows (.outbox m.id) = none)
    (hevent : ∀ m ∈ D.event, m.routingKey ≠ .created) {m : OutboxMessageEntity}
    (hm : (factsOf rows j g o).events .created = {m})
    (hinbox : ∃ x ∈ D.inbox, x.1 = m.id ∧ x.2.1 = .inventory) (j' : Journal) :
    (factsOf rows' j' g o).reserved = True := by
  refine eq_true fun m' hm' hk hmo => ?_
  rcases (h.outbox fresh m').mp hm' with he | he
  · exact absurd hk (hevent m' he)
  · have : m' ∈ (factsOf rows j g o).events .created := ⟨he, hk, hmo⟩
    rw [hm] at this
    cases this
    exact h.inbox_ne_none.mpr (.inr hinbox)

end Draft

theorem not_reserved {rows : Rows} {j : Journal} {g : GatewayLog} {o : OrderId}
    {m : OutboxMessageEntity} (hm : m ∈ (factsOf rows j g o).events .created)
    (hi : rows (.inbox m.id .inventory) = none) : ¬(factsOf rows j g o).reserved :=
  fun h => h m hm.1 hm.2.1 hm.2.2 hi

end OrderLifecycle

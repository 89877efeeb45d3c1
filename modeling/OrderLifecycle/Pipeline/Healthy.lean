import OrderLifecycle.Pipeline.Expected

open Framework

namespace OrderLifecycle.Pipeline

/-! ### What is known of the steps of a healthy run -/

/-- The result is this error. -/
inductive Reports (e : AppError) : (β : Type) → β → Prop
  | error {γ : Type} : Reports e (Except AppError γ) (.error e)

/-- Nothing was to fail, or what fails does not show, as in `CacheService`. -/
def Sane (β : Type) (ch : Choice) (b : β) : Prop :=
  ch.fail = false ∧ ch.throws = false ∨ ∀ e, Reports e β b → e ≠ .database ∧ e ≠ .provider

/-- `owner` is the only thread that handles a message. -/
def healthyLogic (c : Catalog) (owner : Uuid → Tid) : Logic World Choice Request where
  inv w := Inv (.any c) w ∧ Spared w ∧ ∀ id consumer, Filed id consumer w → Certified id consumer w
  guar t k w w' := w.db.Frame t w'.db ∧ (w'.db.rows = w.db.rows ∨
    Changes (.any c) t k w w' ∧ Files k w w' ∧ ∀ m, k = .deliver m → owner m.id = t)
  envGuar w w' := w'.db = w.db
  choice _ := True

variable {c : Catalog} {owner : Uuid → Tid} {t : Tid} {k : Request} {w w' : World} {α β : Type}
  {m : OutboxMessageEntity} {o : OrderId} {st target : OrderStatus}

theorem Sane.sound {e : AppError} {ch : Choice}
    (h : Sane (Except AppError β) ch (.error e)) (he : e = .database ∨ e = .provider) :
    ch.fail = false ∧ ch.throws = false := by
  rcases h with h | h
  · exact h
  · obtain ⟨hd, hp⟩ := h e .error
    rcases he with rfl | rfl
    · exact absurd rfl hd
    · exact absurd rfl hp

/-! ### What the others leave alone -/

theorem healthy_rely (h : (healthyLogic c owner).rely t w w') : w'.db.rows = w.db.rows ∨
    ∃ t' k, t' ≠ t ∧ Changes (.any c) t' k w w' ∧ Files k w w' ∧
      ∀ m, k = .deliver m → owner m.id = t' := by
  obtain ⟨-, -, ⟨t', k, hne, -, hr | hr⟩ | hd⟩ := h
  · exact .inl hr
  · exact .inr ⟨t', k, hne, hr⟩
  · have he : w'.db = w.db := hd
    rw [he]
    exact .inl rfl

theorem healthy_own {P : World → Prop}
    (h : ∀ t' (w w' : World), t ≠ t' → w.db.Frame t' w'.db → P w → P w') :
    (healthyLogic c owner).Stable t P := by
  intro w w' hr hp
  obtain ⟨-, -, ⟨t', k, hne, hf, -⟩ | hd⟩ := hr
  · exact h t' w w' hne.symm hf hp
  · have he : w'.db = w.db := hd
    apply h (t + 1) w w' (Nat.succ_ne_self t).symm _ hp
    rw [he]
    exact .refl

theorem Spared.claims (h : Spared w) (t : Tid) (seen : OrderStatus) :
    (t, Deed.cancelClaimed o seen .pending) ∉ (w.facts o).claims :=
  fun hm => h t o seen ((List.mem_filter.mp hm).1)

theorem Expected.of_rows (h : Expected m w) (hr : w'.db.rows = w.db.rows) : Expected m w' := by
  obtain ⟨hpub, hawait, hfiled⟩ := h
  refine ⟨?_, fun st hst => ?_, ?_⟩
  · rwa [Published, hr]
  · rw [World.order, hr]
    exact hawait st hst
  · rwa [Filed, hr]

theorem Uncharged.of_rows (h : Uncharged m w) (hr : w'.db.rows = w.db.rows) : Uncharged m w' := by
  intro hst
  rw [World.authorization, hr]
  exact h hst

/-- Only the delivery of the message records it. -/
theorem unfiled_kept {consumer : Consumer} (hf : Files k w w')
    (hk : ∀ m', k = .deliver m' → m'.id ≠ m.id) (hn : ¬Filed m.id consumer w) :
    ¬Filed m.id consumer w' := by
  intro hfiled
  obtain ⟨m', hk', hid, -⟩ := hf.made _ _ hfiled hn
  exact hk m' hk' hid

theorem Published.event (h : Published m w) (hi : Inv (.any c) w) {row : OrderEntity}
    (hrow : w.order m.payload.orderId = some row) :
    Present (.any c) m.payload.orderId row (w.facts m.payload.orderId) ∧
      m ∈ (w.facts m.payload.orderId).events m.payload.routingKey := by
  obtain ⟨row', hrow', hp, hmem⟩ := h.order hi
  cases hrow.symm.trans hrow'
  exact ⟨hp, hmem⟩

theorem stable_expected (hm : owner m.id = t) : (healthyLogic c owner).Stable t (Expected m) := by
  intro w w' hr h
  rcases healthy_rely hr with hrows | ⟨t', k, hne, hch, hfiles, hown⟩
  · exact h.of_rows hrows
  have hother : ∀ m', k = .deliver m' → m'.id ≠ m.id := by
    rintro m' hk hid
    exact hne ((hown m' hk).symm.trans (hid ▸ hm))
  refine ⟨published_evolves h.published hch.evolves, fun st hst => ?_,
    unfiled_kept hfiles hother h.unfiled⟩
  obtain ⟨row, hrow, rfl⟩ := h.awaited st hst
  rcases hch.step m.payload.orderId with he | hs
  · exact ⟨row, (congrArg OrderFacts.order he).trans hrow, rfl⟩
  · obtain ⟨hp, hmem⟩ := Published.event h.published hr.1.1 hrow
    exact waits_step hs hp hrow hmem (fun hk => hother m hk rfl) hr.2.1.2.1.claims hst

theorem stable_uncharged (hm : owner m.id = t) :
    (healthyLogic c owner).Stable t fun w => Expected m w ∧ Uncharged m w := by
  intro w w' hr ⟨h, hu⟩
  refine ⟨stable_expected hm w w' hr h, fun hst => ?_⟩
  rcases healthy_rely hr with hrows | ⟨t', k, hne, hch, -, hown⟩
  · exact hu.of_rows hrows hst
  rcases hch.step m.payload.orderId with he | hs
  · exact (congrArg OrderFacts.authorization he).trans (hu hst)
  · obtain ⟨row, hrow, -⟩ := h.awaited _ hst
    obtain ⟨hp, hmem⟩ := Published.event h.published hr.1.1 hrow
    refine uncharged_step hs hp hmem ?_ hst (hu hst)
    rintro rfl
    exact hne ((hown m rfl).symm.trans hm)

/-- Nobody has a message yet that `t` is to handle. -/
def Awaits (owner : Uuid → Tid) (t : Tid) (w : World) : Prop :=
  ∀ m, Published m w → owner m.id = t → Expected m w ∧ Uncharged m w

theorem stable_awaits : (healthyLogic c owner).Stable t (Awaits owner t) := by
  intro w w' hr h m hm' hown'
  by_cases hm : Published m w
  · exact stable_uncharged hown' w w' hr (h m hm hown')
  rcases healthy_rely hr with hrows | ⟨t', k, hne, hch, hfiles, hown⟩
  · rw [Published, hrows] at hm'
    exact absurd hm' hm
  rcases hch.step m.payload.orderId with he | hs
  · rw [Published, World.mem_events, he] at hm'
    exact absurd ((World.mem_events m).mpr hm') hm
  · have hn : m ∉ (w.facts m.payload.orderId).events m.routingKey :=
      fun hmem => hm ((World.mem_events m).mpr hmem)
    obtain ⟨hawait, hcharge⟩ := expected_step hs (hr.1.1.orders _) hn ((World.mem_events m).mp hm')
    refine ⟨⟨hm', hawait, unfiled_kept hfiles ?_ ?_⟩, hcharge⟩
    · rintro m' hk hid
      exact hne ((hown m' hk).symm.trans (hid ▸ hown'))
    · -- what is in the inbox is a message that has been published
      intro hfiled
      obtain ⟨m', hpub, hid, -⟩ := hr.1.2.2 _ _ hfiled
      have hpub' := published_evolves hpub hch.evolves
      rw [Published, hid, hm'] at hpub'
      cases hpub'
      exact hm hpub

end OrderLifecycle.Pipeline

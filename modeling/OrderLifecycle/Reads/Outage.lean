import OrderLifecycle.Reads.Harmless

open Framework

namespace OrderLifecycle

variable {t : Tid} {ch : Nat → Choice} {j : Nat} {w w' v : World} {e : Event}
  {rest events : List Event} {rs : List (Except AppError Reply)}

/-! ### Histories -/

theorem perform_twins (k : OrderCall) (hw : AtRest w) (hoff : CacheOff w w')
    {r : Except AppError Reply}
    (h : (perform k).run.solo t ch none 0 w = some (v, some (r, j))) :
    AtRest v ∧ ∃ v' r' j', (perform k).run.solo t ch none 0 w' = some (v', some (r', j')) ∧
      CacheOff v v' ∧ (r' ≠ .error .database →
        (r.map Reply.data = r'.map Reply.data ↔ ¬(Event.call t k ch).Misled w)) := by
  have harmless (hk : Harmless (perform k) Reply.data) (hno : ¬(Event.call t k ch).Misled w) :
      AtRest v ∧ ∃ v' r' j', (perform k).run.solo t ch none 0 w' = some (v', some (r', j')) ∧
        CacheOff v v' ∧ (r' ≠ .error .database →
          (r.map Reply.data = r'.map Reply.data ↔ ¬(Event.call t k ch).Misled w)) := by
    obtain ⟨hv, v', r', j', h', hoff', hsame⟩ := hk t ch w w' v r j hw hoff h
    exact ⟨hv, v', r', j', h', hoff', fun hne => iff_of_true (hsame hne) hno⟩
  cases k with
  | createOrder u lines => exact harmless (harmless_createOrder u lines) id
  | initiatePayment id' u => exact harmless (harmless_initiatePayment id' u) id
  | cancelOrder id' u => exact harmless (harmless_cancelOrder id' u) id
  | transitionOrder id' target => exact harmless (harmless_transitionOrder id' target) id
  | getOrderForUser id' u => exact harmless (harmless_getOrderForUser id' u) id
  | listOrdersForUser u =>
    obtain ⟨v₁, r₁, h₁, hr⟩ := Prog.solo_bind_some h
    obtain ⟨r₁, j₁⟩ := r₁
    obtain ⟨hv, v', r', j', h', hoff', hiff⟩ := listOrdersForUser_twins hw hoff h₁
    cases r₁ with
    | ok orders =>
      cases hr
      cases r' with
      | ok orders' =>
        refine ⟨hv, v', .ok (.orders orders'), j', (Prog.solo_bind_ok h').trans rfl, hoff',
          fun _ => ?_⟩
        refine Iff.trans ?_ (hiff nofun)
        constructor
        · exact fun heq => congrArg Except.ok (Reply.orders.inj (Except.ok.inj heq))
        · exact fun heq => congrArg (Except.ok ∘ Reply.orders) (Except.ok.inj heq)
      | error e =>
        refine ⟨hv, v', .error e, j', Prog.solo_bind_error h', hoff', fun hne => ?_⟩
        refine Iff.trans ?_ (hiff fun he => hne (by cases he; rfl))
        exact ⟨nofun, nofun⟩
    | error e =>
      obtain ⟨rfl, he⟩ := hr
      cases he
      cases r' with
      | ok orders' =>
        refine ⟨hv, v', .ok (.orders orders'), j', (Prog.solo_bind_ok h').trans rfl, hoff',
          fun _ => ?_⟩
        refine Iff.trans ?_ (hiff nofun)
        exact ⟨nofun, nofun⟩
      | error e' =>
        refine ⟨hv, v', .error e', j', Prog.solo_bind_error h', hoff', fun hne => ?_⟩
        refine Iff.trans ?_ (hiff fun he => hne (by cases he; rfl))
        constructor
        · intro heq
          cases heq
          rfl
        · intro heq
          cases heq
          rfl

theorem AtRest.expire (hw : AtRest w) (key : CacheKey) :
    AtRest { w with cache := w.cache.del key } where
  idle := hw.idle
  ids := hw.ids
  order o entry he := hw.order o entry (Cache.del_order he)
  userOrders u list hl := hw.userOrders u list (Cache.del_userOrders hl)

theorem take_twins (hw : AtRest w) (hoff : CacheOff w w') (h : e.take w = some (v, rs)) :
    AtRest v ∧ ∃ v' rs', e.take w' = some (v', rs') ∧ CacheOff v v' ∧ rs.length = rs'.length ∧
      (.error .database ∉ rs' → (answers rs = answers rs' ↔ ¬e.Misled w)) := by
  cases e with
  | call t k ch =>
    obtain ⟨⟨v₁, r⟩, hsolo, hr⟩ := Option.bind_eq_some_iff.mp h
    obtain ⟨⟨r, j⟩, rfl, he⟩ := Option.map_eq_some_iff.mp hr
    cases he
    obtain ⟨hv, v', r', j', hsolo', hoff', hiff⟩ := perform_twins k hw hoff hsolo
    refine ⟨hv, v', [r'], ?_, hoff', rfl, fun hdb => ?_⟩
    · exact Option.bind_eq_some_iff.mpr ⟨_, hsolo', rfl⟩
    · have hne : r' ≠ .error .database := fun he => hdb (by simp [he])
      rw [← hiff hne]
      simp [answers]
  | expire key =>
    cases h
    exact ⟨hw.expire key, _, [], rfl, hoff, rfl, fun _ => iff_of_true rfl id⟩

theorem neverMisled_cons {w₁ : World} (h : e.take w = some (w₁, rs)) :
    NeverMisled (e :: rest) w ↔ ¬e.Misled w ∧ NeverMisled rest w₁ := by
  constructor
  · intro hall
    refine ⟨hall [] e rest w [] rfl rfl, ?_⟩
    rintro before e' after w₂ rs' rfl hr
    refine hall (e :: before) e' after w₂ (rs ++ rs') rfl ?_
    simp [replay, h, hr]
  · rintro ⟨hhead, htail⟩ before e' after w₂ rs' he hr
    cases before with
    | nil =>
      cases he
      cases hr
      exact hhead
    | cons e₁ before =>
      cases he
      obtain ⟨x, hx, hr⟩ := Option.bind_eq_some_iff.mp hr
      cases h.symm.trans hx
      obtain ⟨y, hy, hr⟩ := Option.map_eq_some_iff.mp hr
      cases hr
      exact htail before e' after y.1 y.2 rfl hy

theorem replay_twins (hw : AtRest w) (hoff : CacheOff w w') (h : replay events w = some (v, rs)) :
    ∃ v' rs', replay events w' = some (v', rs') ∧
      (.error .database ∉ rs' → (answers rs = answers rs' ↔ NeverMisled events w)) := by
  induction events generalizing w w' rs with
  | nil =>
    cases h
    refine ⟨w', [], rfl, fun _ => iff_of_true rfl ?_⟩
    intro before e after w₁ rs he
    simp at he
  | cons e rest ih =>
    obtain ⟨⟨w₁, r⟩, htake, hr⟩ := Option.bind_eq_some_iff.mp h
    obtain ⟨⟨v₁, rs₁⟩, hrest, he⟩ := Option.map_eq_some_iff.mp hr
    cases he
    obtain ⟨hw₁, w₁', r', htake', hoff₁, hlen, hhead⟩ := take_twins hw hoff htake
    obtain ⟨v', rs', hrest', htail⟩ := ih hw₁ hoff₁ hrest
    refine ⟨v', r' ++ rs', by simp [replay, htake', hrest'], fun hdb => ?_⟩
    rw [List.mem_append, not_or] at hdb
    have hsplit : answers (r ++ rs₁) = answers (r' ++ rs') ↔
        answers r = answers r' ∧ answers rs₁ = answers rs' := by
      simp only [answers, List.map_append]
      constructor
      · exact fun heq => List.append_inj heq (by simp [hlen])
      · rintro ⟨hl, hr⟩
        rw [hl, hr]
    rw [hsplit, hhead hdb.1, htail hdb.2, neverMisled_cons htake]

theorem atRest_initial (c : Catalog) (b : Bool) : AtRest (.initial c b) where
  idle _ := rfl
  ids _ _ h := nomatch h
  order _ _ h := nomatch h
  userOrders _ _ h := nomatch h

/-- With Redis commands that fail, every call returns the data it returns with
`CACHE_ENABLED=false`, just if no call that lists orders finds a list that lacks one. -/
theorem cache_outage_harmless_iff (c : Catalog) (events : List Event)
    (h : replay events (.initial c true) = some (w, rs)) :
    ∃ w' rs', replay events (.initial c false) = some (w', rs') ∧
      (.error .database ∉ rs' →
        (answers rs = answers rs' ↔ NeverMisled events (.initial c true))) :=
  replay_twins (atRest_initial c true) ⟨rfl, rfl⟩ h

/-! ### A lost invalidation -/

/-- What a call that lists the orders of user 9 does once it has sorted what it found. -/
def storing (t : Tid) (orders : List OrderEntity) (w : World) :
    Option (World × List (Except AppError Reply)) :=
  ((storeList 9 orders >>= fun orders => pure (.orders orders) : Service Reply).run.solo t
    (fun _ => {}) none 2 w).bind fun x => x.2.map fun r => (x.1, [r.1])

/-- A call that lists the orders of user 9. -/
def listing (t : Tid) : Event := .call t (.listOrdersForUser 9) fun _ => {}

/-- User 9 creates an order, and the `del` fails. -/
def creating : Event :=
  .call 1 (.createOrder 9 [⟨7, "Widget", 1⟩]) fun i => { fail := i == 6, fresh := i, now := i }

def createdOrder : OrderEntity := ⟨1, 9, .pending, none, [⟨7, "Widget", 1⟩], .date 1, .date 1⟩

theorem listing_first (b : Bool) :
    (listing 0).take (.initial oneProduct b) = storing 0 [] (.initial oneProduct b) := by
  have hempty : newestFirst [] = [] := by simp [newestFirst]
  have hstored : (listing 0).take (.initial oneProduct b) =
      storing 0 (newestFirst []) (.initial oneProduct b) := by
    cases b
    · rfl
    · rfl
  rw [hstored, hempty]

theorem cache_outage_harmless_creating :
    ∃ w rs, replay [listing 0, creating] (.initial oneProduct true) = some (w, rs) ∧
      NeverMisled [listing 0, creating] (.initial oneProduct true) := by
  have hrun (b : Bool) : ∃ w rs, replay [listing 0, creating] (.initial oneProduct b) =
      some (w, rs) ∧ rs = [.ok (.orders []), .ok (.order createdOrder)] := by
    simp only [replay, listing_first]
    cases b
    · exact ⟨_, _, rfl, rfl⟩
    · exact ⟨_, _, rfl, rfl⟩
  obtain ⟨w, rs, hon, hrs⟩ := hrun true
  obtain ⟨w₁, rs₁, hoff, hrs₁⟩ := hrun false
  obtain ⟨w', rs', hoff', hiff⟩ := cache_outage_harmless_iff oneProduct [listing 0, creating] hon
  cases hoff.symm.trans hoff'
  subst hrs hrs₁
  exact ⟨w, _, hon, (hiff (by decide)).mp rfl⟩

/-- The `del` of `createOrder` fails, and the empty list stays in Redis. -/
theorem not_cache_outage_harmless : ¬∀ (events : List Event) w rs w' rs',
    replay events (.initial oneProduct true) = some (w, rs) →
    replay events (.initial oneProduct false) = some (w', rs') → .error .database ∉ rs' →
    answers rs = answers rs' := by
  intro hall
  obtain ⟨w, rs, hon, hrs⟩ : ∃ w rs,
      replay [listing 0, creating, listing 2] (.initial oneProduct true) = some (w, rs) ∧
        rs = [.ok (.orders []), .ok (.order createdOrder), .ok (.orders [])] := by
    simp only [replay, listing_first]
    exact ⟨_, _, rfl, rfl⟩
  obtain ⟨w', rs', hoff, hrs'⟩ : ∃ w' rs',
      replay [listing 0, creating, listing 2] (.initial oneProduct false) = some (w', rs') ∧
        rs' = [.ok (.orders []), .ok (.order createdOrder), .ok (.orders [createdOrder])] := by
    have hone : newestFirst [createdOrder] = [createdOrder] := by simp [newestFirst]
    obtain ⟨w₁, hcreated, hlisted⟩ : ∃ w₁,
        creating.take (.initial oneProduct false) = some (w₁, [.ok (.order createdOrder)]) ∧
          (listing 2).take w₁ = storing 2 (newestFirst [createdOrder]) w₁ := ⟨_, rfl, rfl⟩
    have hfirst : (listing 0).take (.initial oneProduct false) =
        some (.initial oneProduct false, [.ok (.orders [])]) := listing_first false
    rw [hone] at hlisted
    simp only [replay, hfirst, hcreated, hlisted, Option.bind_some]
    exact ⟨_, _, rfl, rfl⟩
  have hsame := hall _ w rs w' rs' hon hoff (by rw [hrs']; decide)
  rw [hrs, hrs'] at hsame
  exact absurd hsame (by decide)

end OrderLifecycle

import OrderLifecycle.Cart.SingleUse
import OrderLifecycle.Framework.Interval

open Framework

namespace OrderLifecycle.Cart

variable {s s' : CartWorld} {t : Tid} {k : CartCall} {catalog : Catalog} {cacheEnabled faults : Bool}
  {ls ls' : List CartLabel} {c d e : CartConfig} {userId : UserId} {α β : Type}
  {g : β → Prog CartWorld Choice (Except AppError CartReply)}

/-- At some moment of the stretch `ls` the cart was there, the user's and open. -/
def OpenDuring (userId : UserId) (cart : CartEntity) (c : CartConfig) (ls : List CartLabel) : Prop :=
  ∃ ls₁ ls₂ e, ls = ls₁ ++ ls₂ ∧ cartSystem.run c ls₁ = some e ∧ cart ∈ e.shared.carts ∧
    cart.userId = userId ∧ cart.checkedOutAt = none

/-- The call of thread `t` finds no open cart, loses its `INSERT` to another call, and a checkout
claims the winner's cart before the call reads it again; no other cart is open then. -/
def Overtaken (t : Tid) (userId : UserId) (c : CartConfig) (ls : List CartLabel) : Prop :=
  ∃ first insert reread : CartWorld × CartWorld, ∃ winner t' items,
    cartSystem.past t c ls = [first, insert, reread] ∧
    first.1.openCart userId = none ∧ insert.1.openCart userId = some winner ∧
    (t', .claimed winner.id items) ∉ insert.1.deeds ∧
    (t', .claimed winner.id items) ∈ reread.1.deeds ∧ reread.1.openCart userId = none

theorem OpenDuring.append {cart : CartEntity} (h : OpenDuring userId cart e ls')
    (hr : cartSystem.run c ls = some e) : OpenDuring userId cart c (ls ++ ls') := by
  obtain ⟨ls₁, ls₂, e', rfl, hr', ho⟩ := h
  refine ⟨ls ++ ls₁, ls₂, e', by simp, ?_, ho⟩
  rw [cartSystem.run_append, hr]
  exact hr'

/-- One statement of a call in which nothing fails. -/
theorem perform_cartSql {f : Tid → Choice → CartWorld → Option (Except AppError α × CartWorld)}
    {q : Except AppError α → Prog CartWorld Choice β} {b : β}
    (hf : ∀ l ∈ ls, faultless l = true)
    (ht : c.threads t = some (k, .running ((cartSql f).run >>= fun r => q r >>= g)))
    (hp : cartSystem.perform t ((cartSql f).run >>= q) c ls = some (b, d)) :
    ∃ ls₁ ch ls₂ e e' r, ls = ls₁ ++ .step t ch :: ls₂ ∧ cartSystem.run c ls₁ = some e ∧
      cartSystem.next e (.step t ch) = some e' ∧ f t ch e.shared = some (r, e'.shared) ∧
      e'.threads t = some (k, .running (q r >>= g)) ∧
      cartSystem.perform t (q r) e' ls₂ = some (b, d) ∧
      cartSystem.past t c ls = (e.shared, e'.shared) :: cartSystem.past t e' ls₂ := by
  change cartSystem.perform t (.act (Except AppError α) _ q) c ls = some (b, d) at hp
  obtain ⟨ls₁, ch, ls₂, e, e', r, rfl, hr, hn, hs, ht', hp', hpast⟩ :=
    System.perform_act (q := q) (g := g) ht hp
  have hfail : ch.fail = false := by simpa [faultless] using hf (.step t ch) (by simp)
  refine ⟨ls₁, ch, ls₂, e, e', r, rfl, hr, hn, ?_, ht', hp', hpast⟩
  simpa [hfail] using hs

/-- `findOpenCart` finds a cart that is open, and does not change it. -/
theorem findOpenCart_cases {r : Except AppError (Option LoadedCart)}
    (hs : (match s.openCart userId with
      | none => some (.ok none, s)
      | some cart =>
        let items := s.cartItems cart.id
        some (.ok (some ⟨cart, items.map fun item => ⟨item, s.world.product item.productId⟩⟩),
          s.note t (.saw cart.id items))) = some (r, s')) :
    (r = .ok none ∧ s.openCart userId = none) ∨
    ∃ cart, r = .ok (some cart) ∧ s.openCart userId = some cart.cart := by
  cases ho : s.openCart userId with
  | none =>
    simp only [ho, Option.some.injEq, Prod.mk.injEq] at hs
    exact .inl ⟨hs.1.symm, rfl⟩
  | some cart =>
    simp only [ho, Option.some.injEq, Prod.mk.injEq] at hs
    exact .inr ⟨_, hs.1.symm, rfl⟩

/-- `saveCart` opens a cart, unless one is open. -/
theorem saveCart_cases {r : Except AppError CartEntity} {ch : Choice}
    (hs : (if (s.openCart userId).isSome then some (.error (.uniqueViolation "carts"), s)
      else if s.carts.any fun cart => cart.id == ch.fresh then none
      else some (.ok ⟨ch.fresh, userId, none⟩,
        { s with carts := s.carts ++ [⟨ch.fresh, userId, none⟩] })) = some (r, s')) :
    (r = .error (.uniqueViolation "carts") ∧ s.openCart userId ≠ none) ∨
    ∃ cart, r = .ok cart ∧ cart ∈ s'.carts ∧ cart.userId = userId ∧ cart.checkedOutAt = none := by
  split at hs
  · next ho =>
    simp only [Option.some.injEq, Prod.mk.injEq] at hs
    exact .inl ⟨hs.1.symm, Option.isSome_iff_ne_none.mp ho⟩
  · split at hs
    · cases hs
    · simp only [Option.some.injEq, Prod.mk.injEq] at hs
      obtain ⟨rfl, rfl⟩ := hs
      exact .inr ⟨_, rfl, by simp, rfl, rfl⟩

/-- How a call of `getOpenCart` ends: with a cart that was open, or overtaken. -/
inductive Ending (t : Tid) (userId : UserId) (c : CartConfig) (ls : List CartLabel) :
    Except AppError LoadedCart → Prop
  | found (cart : LoadedCart) (first : CartWorld × CartWorld)
    (hpast : cartSystem.past t c ls = [first]) (ho : OpenDuring userId cart.cart c ls) :
    Ending t userId c ls (.ok cart)
  | created (cart : LoadedCart) (first insert : CartWorld × CartWorld)
    (hpast : cartSystem.past t c ls = [first, insert]) (ho : OpenDuring userId cart.cart c ls) :
    Ending t userId c ls (.ok cart)
  | winner (cart : LoadedCart) (first insert reread : CartWorld × CartWorld)
    (hpast : cartSystem.past t c ls = [first, insert, reread])
    (hfound : reread.1.openCart userId = some cart.cart) (ho : OpenDuring userId cart.cart c ls) :
    Ending t userId c ls (.ok cart)
  | lost (first insert reread : CartWorld × CartWorld)
    (hpast : cartSystem.past t c ls = [first, insert, reread])
    (hfirst : first.1.openCart userId = none) (hinsert : insert.1.openCart userId ≠ none)
    (hreread : reread.1.openCart userId = none)
    (hruns : ∃ ls₁ ls₂ d e, cartSystem.run c ls₁ = some d ∧ cartSystem.run d ls₂ = some e ∧
      d.shared = insert.1 ∧ e.shared = reread.1) :
    Ending t userId c ls (.error (.uniqueViolation "carts"))

theorem openDuring_found {cart : CartEntity} {ls₂ : List CartLabel}
    (hr : cartSystem.run c ls = some e) (ho : e.shared.openCart userId = some cart) :
    OpenDuring userId cart c (ls ++ ls₂) := by
  obtain ⟨hc, hu, hn⟩ := openCart_some ho
  exact ⟨ls, ls₂, e, rfl, hr, hc, hu, hn⟩

/-- `getOpenCart`, statement by statement. -/
theorem getOpenCart_ending {r : Except AppError LoadedCart} {g}
    (hf : ∀ l ∈ ls, faultless l = true)
    (ht : c.threads t = some (k, .running ((getOpenCart userId).run >>= g)))
    (hp : cartSystem.perform t (getOpenCart userId).run c ls = some (r, d)) :
    Ending t userId c ls r := by
  obtain ⟨ls₁, ch₁, ls₂, e₁, e₁', r₁, rfl, hr₁, hn₁, hs₁, ht₁, hp₁, hpast₁⟩ :=
    perform_cartSql hf ht hp
  have hr₁' : cartSystem.run c (ls₁ ++ [.step t ch₁]) = some e₁' :=
    cartSystem.run_snoc.mpr ⟨e₁, hr₁, hn₁⟩
  have hf₂ : ∀ l ∈ ls₂, faultless l = true := fun l hl => hf l (by simp [hl])
  obtain ⟨rfl, hnone⟩ | ⟨cart, rfl, hsome⟩ := findOpenCart_cases hs₁
  · obtain ⟨ls₃, ch₂, ls₄, e₂, e₂', r₂, rfl, hr₂, hn₂, hs₂, ht₂, hp₂, hpast₂⟩ :=
      perform_cartSql hf₂ ht₁ hp₁
    have hr₂' : cartSystem.run e₁' (ls₃ ++ [.step t ch₂]) = some e₂' :=
      cartSystem.run_snoc.mpr ⟨e₂, hr₂, hn₂⟩
    rw [hpast₂] at hpast₁
    obtain ⟨rfl, hlost⟩ | ⟨cart, rfl, hcart⟩ := saveCart_cases hs₂
    · have hf₄ : ∀ l ∈ ls₄, faultless l = true := fun l hl => hf₂ l (by simp [hl])
      obtain ⟨ls₅, ch₃, ls₆, e₃, e₃', r₃, rfl, hr₃, hn₃, hs₃, ht₃, hp₃, hpast₃⟩ :=
        perform_cartSql hf₄ ht₂ hp₂
      rw [hpast₃] at hpast₁
      obtain ⟨rfl, hgone⟩ | ⟨cart, rfl, hsome⟩ := findOpenCart_cases hs₃
      · obtain ⟨rfl, rfl, rfl⟩ := System.perform_ret hp₃
        have hruns : ∃ la lb d e, cartSystem.run c la = some d ∧ cartSystem.run d lb = some e ∧
            d.shared = e₂.shared ∧ e.shared = e₃.shared := by
          have hla : cartSystem.run c ((ls₁ ++ [.step t ch₁]) ++ ls₃) = some e₂ := by
            rw [cartSystem.run_append, hr₁']
            exact hr₂
          exact ⟨_, .step t ch₂ :: ls₅, e₂, e₃, hla, cartSystem.run_cons.mpr ⟨e₂', hn₂, hr₃⟩, rfl, rfl⟩
        exact .lost _ _ _ hpast₁ hnone hlost hgone hruns
      · obtain ⟨rfl, rfl, rfl⟩ := System.perform_ret hp₃
        have ho₃ : OpenDuring userId cart.cart e₂' (ls₅ ++ [.step t ch₃]) :=
          openDuring_found hr₃ hsome
        have ho := (ho₃.append hr₂').append hr₁'
        exact .winner cart _ _ _ hpast₁ hsome (by simpa using ho)
    · obtain ⟨rfl, rfl, rfl⟩ := System.perform_ret hp₂
      have ho₂ : OpenDuring userId cart e₁' (ls₃ ++ [.step t ch₂]) :=
        ⟨_, [], d, by simp, hr₂', hcart⟩
      have ho := ho₂.append hr₁'
      exact .created ⟨cart, []⟩ _ _ hpast₁ (by simpa using ho)
  · obtain ⟨rfl, rfl, rfl⟩ := System.perform_ret hp₁
    exact .found cart _ hpast₁ (openDuring_found hr₁ hsome)

theorem sound_run (h : CartSound true c) (hr : cartSystem.run c ls = some d) : CartSound true d :=
  cart_run_induct (P := CartSound true) h hr h fun _ _ _ _ hd' _ _ _ => hd'

/-- A cart that was open and is not any more has been claimed in between. -/
theorem claimed_between (h : CartSound true c) (hr : cartSystem.run c ls = some d)
    {winner : CartEntity} (ho : c.shared.openCart userId = some winner)
    (hn : d.shared.openCart userId = none) : ∃ t' items,
      (t', .claimed winner.id items) ∉ c.shared.deeds ∧
      (t', .claimed winner.id items) ∈ d.shared.deeds := by
  obtain ⟨hc, hu, hopen⟩ := openCart_some ho
  have hi : CartInv c.shared := h.inv
  have hi' : CartInv d.shared := (sound_run h hr).inv
  have howner : d.shared.Owner winner.id userId := by
    apply cart_run_induct (P := fun d => d.shared.Owner winner.id userId) h hr ⟨winner, hc, rfl, hu⟩
    rintro d d' l - - - (he | ⟨t, k, th, -, hm⟩) hd
    · rwa [he]
    · exact hm.owner hd
  obtain ⟨cart, hcart, hid, huser⟩ := howner
  obtain ⟨t', items, hclaim⟩ := hi'.claimant cart hcart (openCart_none hn hcart huser)
  rw [hid] at hclaim
  refine ⟨t', items, ?_, hclaim⟩
  intro hold
  obtain ⟨cart', hcart', hid', hne⟩ := hi.claimed t' winner.id items hold
  exact hne (List.inj_on_of_nodup_map hi.ids hcart' hc hid' ▸ hopen)

/-- Whatever the others do, a call of `getOpenCart` returns a cart of its user that was open
during the call, unless it is overtaken; then it rejects. -/
theorem getOpenCart_under_races {r : Except AppError LoadedCart} {g}
    (h : CartRun false catalog cacheEnabled ls c) (hf : ∀ l ∈ ls', faultless l = true)
    (ht : c.threads t = some (k, .running ((getOpenCart userId).run >>= g)))
    (hp : cartSystem.perform t (getOpenCart userId).run c ls' = some (r, d)) :
    (∃ cart, r = .ok cart ∧ OpenDuring userId cart.cart c ls') ↔ ¬Overtaken t userId c ls' := by
  have hend := getOpenCart_ending hf ht hp
  constructor
  · rintro ⟨cart, rfl, -⟩ ⟨first, insert, reread, winner, t', items, hpast, -, -, -, -, hgone⟩
    cases hend with
    | found _ _ hpast' => simp [hpast'] at hpast
    | created _ _ _ hpast' => simp [hpast'] at hpast
    | winner _ _ _ reread' hpast' hfound =>
      rw [hpast'] at hpast
      simp only [List.cons.injEq, and_true] at hpast
      rw [hpast.2.2, hgone] at hfound
      cases hfound
  · intro hover
    cases hend with
    | found cart _ _ ho => exact ⟨cart, rfl, ho⟩
    | created cart _ _ _ ho => exact ⟨cart, rfl, ho⟩
    | winner cart _ _ _ _ _ ho => exact ⟨cart, rfl, ho⟩
    | lost first insert reread hpast hfirst hinsert hreread hruns =>
      obtain ⟨la, lb, e, e', hla, hlb, he, he'⟩ := hruns
      obtain ⟨winner, hwin⟩ := Option.ne_none_iff_exists'.mp hinsert
      rw [← he] at hwin
      rw [← he'] at hreread
      obtain ⟨t', items, hnot, hin⟩ :=
        claimed_between (sound_run h.any.sound hla) hlb hwin hreread
      rw [he] at hwin hnot
      rw [he'] at hin hreread
      exact (hover ⟨first, insert, reread, winner, t', items, hpast, hfirst, hwin, hnot, hin,
        hreread⟩).elim

/-! ### Two races -/

/-- Three calls of user 7: they have been made and have not run yet. -/
def threeCalls : List CartLabel :=
  [.start 0 (.setItem 7 1 2), .start 1 (.getOpenCart 7), .start 2 (.checkout 7)]

def afterCalls : CartConfig where
  shared := .initial shopCatalog true
  threads := Function.update (Function.update (Function.update (fun _ => none)
    0 (some (.setItem 7 1 2, .running (cartSystem.body (.setItem 7 1 2)))))
    1 (some (.getOpenCart 7, .running (cartSystem.body (.getOpenCart 7)))))
    2 (some (.checkout 7, .running (cartSystem.body (.checkout 7))))

theorem run_threeCalls : CartRun false shopCatalog true threeCalls afterCalls where
  run := rfl
  healthy _ := by decide

/-- Call 1 loses its `INSERT` to call 0 and reads the winner's cart. -/
def lostInsert : List CartLabel :=
  [.step 1 {}, .step 0 {}, .step 0 { fresh := 10 }, .step 1 { fresh := 11 }, .step 1 {}]

theorem getOpenCart_under_races_lostInsert : ∃ r d,
    cartSystem.perform 1 (getOpenCart 7).run afterCalls lostInsert = some (r, d) ∧
    ∃ cart, r = .ok cart ∧ OpenDuring 7 cart.cart afterCalls lostInsert := by
  have hout : (cartSystem.perform 1 (getOpenCart 7).run afterCalls lostInsert).isSome = true := by
    decide +kernel
  obtain ⟨⟨r, d⟩, hp⟩ := Option.isSome_iff_exists.mp hout
  have hopen : (cartSystem.past 1 afterCalls lostInsert).map (fun m => (m.1.openCart 7).isSome) =
      [false, true, true] := by decide +kernel
  refine ⟨r, d, hp, (getOpenCart_under_races run_threeCalls (by decide) rfl hp).mpr ?_⟩
  rintro ⟨first, insert, reread, winner, t', items, hpast, -, -, -, -, hgone⟩
  simp [hpast, hgone] at hopen

/-- Call 0 fills its new cart, call 1 loses its `INSERT`, and before it reads again checkout 2
claims the cart. -/
def claimedInBetween : List CartLabel :=
  [.step 1 {}, .step 0 {}, .step 0 { fresh := 10 }, .step 0 {}, .step 0 {},
    .step 1 { fresh := 11 }, .step 2 {}, .step 2 {}, .step 1 {}]

/-- Call 1 rejects with the violation of the index. -/
theorem not_getOpenCart_under_races : ¬∀ (t : Tid) (k : CartCall) (userId : UserId)
    (catalog : Catalog) (cacheEnabled : Bool) (ls ls' : List CartLabel) (c d : CartConfig)
    (r : Except AppError LoadedCart) (g : Except AppError LoadedCart →
      Prog CartWorld Choice (Except AppError CartReply)),
    CartRun false catalog cacheEnabled ls c → (∀ l ∈ ls', faultless l = true) →
    c.threads t = some (k, .running ((getOpenCart userId).run >>= g)) →
    cartSystem.perform t (getOpenCart userId).run c ls' = some (r, d) →
    (∃ cart, r = .ok cart ∧ OpenDuring userId cart.cart c ls') ∧
      r ≠ .error (.uniqueViolation "carts") := by
  intro hall
  have hout : (cartSystem.perform 1 (getOpenCart 7).run afterCalls claimedInBetween).map (·.1) =
      some (.error (.uniqueViolation "carts")) := by decide +kernel
  obtain ⟨⟨r, d⟩, hp, he⟩ := Option.map_eq_some_iff.mp hout
  obtain ⟨-, hne⟩ := hall 1 _ 7 shopCatalog true threeCalls claimedInBetween afterCalls d r _
    run_threeCalls (by decide) rfl hp
  exact hne he

end OrderLifecycle.Cart

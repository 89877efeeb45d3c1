import OrderLifecycle.Ledger.Protocol
import OrderLifecycle.Lifecycle.Runs

open Framework

namespace OrderLifecycle

/-! ### Runs of the gateway -/

abbrev Till := Config World Choice InventoryReservedEvent (Except AppError PaymentResult)
abbrev TillMove := Label Choice InventoryReservedEvent Empty

/-- What must hold before a call does something of note. -/
def Justified (w : World) (t : Tid) : GatewayDeed → Prop
  | .claimed o => w.authorization o = none
  | .sawStale o now => ∃ row, w.authorization o = some row ∧ row.authorized = none ∧
      row.createdAt + staleClaimMs < now
  | .charged o key => key = o ∧ Licensed t o w.gateway

/-- The call of thread `t` for order `o` has returned `result`. -/
def Till.Returned (s : Till) (t : Tid) (o : OrderId) (result : PaymentResult) : Prop :=
  ∃ event : InventoryReservedEvent, event.orderId = o ∧
    s.threads t = some (event, .running (.ret (.ok result)))

variable {A : OrderId → PaymentResult → Prop} {c : Catalog} {b : Bool} {o : OrderId} {t : Tid}
  {s s' : Till} {moves later : List TillMove} {w w' : World}

theorem LedgerStep.justified (hs : LedgerStep A t o w w') :
    w'.gateway = w.gateway ∨ ∃ d, w'.gateway = w.gateway ++ [(t, d)] ∧ Justified w t d := by
  rcases hs.log with he | ⟨d, he, hcase⟩
  · exact .inl he
  refine .inr ⟨d, he, ?_⟩
  rcases hcase with ⟨rfl, hnone, -⟩ | ⟨row, now, rfl, hrow, hst⟩ | ⟨rfl, hl⟩
  · exact hnone
  · simp only [PaymentAuthorizationEntity.isStale, Bool.and_eq_true, Option.isNone_iff_eq_none,
      decide_eq_true_eq] at hst
    exact ⟨row, hrow, hst⟩
  · exact ⟨rfl, hl⟩

theorem ledger_initial (A : OrderId → PaymentResult → Prop) (c : Catalog) (b : Bool) :
    (ledgerLogic A).inv (.initial c b) :=
  ⟨fun _ => rfl, ⟨fun _ _ _ h => (nomatch h), fun _ _ h => (nomatch h), fun _ _ _ h => (nomatch h),
    fun _ _ h => (nomatch h)⟩⟩

/-- Every reachable till is as the logic says. -/
theorem till_sound (h : gatewaySystem.run (.init (.initial c b)) moves = some s)
    (hl : ∀ l ∈ moves, (ledgerLogic A).Admits l) : Sound (ledgerLogic A) Unseen (Settled A) s :=
  .run verified_gatewaySystem hl h (.init (ledger_initial A c b) fun _ _ h => nomatch h)

/-- Nothing assumed of the provider. -/
def anyAnswer (_ : OrderId) (_ : PaymentResult) : Prop := True

theorem admits_anyAnswer (l : TillMove) : (ledgerLogic anyAnswer).Admits l := by
  cases l with
  | step t ch => exact fun _ => trivial
  | _ => exact trivial

/-- After a decision nobody gets a licence any more. -/
theorem decided_run (hs : Sound (ledgerLogic anyAnswer) Unseen (Settled anyAnswer) s)
    (h' : gatewaySystem.run s later = some s') {row : PaymentAuthorizationEntity}
    (hrow : s.shared.authorization o = some row) (hd : row.authorized ≠ none) :
    s'.shared.authorization o = some row ∧
      ∀ t, ¬Licensed t o s.shared.gateway → ¬Licensed t o s'.shared.gateway := by
  have key : Sound (ledgerLogic anyAnswer) Unseen (Settled anyAnswer) s' ∧
      s'.shared.authorization o = some row ∧
      ∀ t, ¬Licensed t o s.shared.gateway → ¬Licensed t o s'.shared.gateway := by
    refine gatewaySystem.run_induct (A := fun _ => True) (P := fun s₁ : Till =>
      Sound (ledgerLogic anyAnswer) Unseen (Settled anyAnswer) s₁ ∧
        s₁.shared.authorization o = some row ∧
        ∀ t, ¬Licensed t o s.shared.gateway → ¬Licensed t o s₁.shared.gateway)
      ?_ (fun _ _ => trivial) h' ⟨hs, hrow, fun _ h => h⟩
    rintro s₁ s₂ l - hn ⟨hs₁, hrow₁, hl₁⟩
    obtain ⟨hs₂, hm⟩ := hs₁.next verified_gatewaySystem (admits_anyAnswer l) hn
    refine ⟨hs₂, ?_⟩
    rcases hm.cases with he | hfalse | ⟨t, event, _, -, -, hstep⟩
    · rw [he]
      exact ⟨hrow₁, hl₁⟩
    · exact hfalse.elim
    · obtain ⟨row', hrow', -, hk⟩ := hstep.row hrow₁
      rw [hk hd] at hrow'
      exact ⟨hrow', fun t ht => hstep.unlicensed hrow₁ hd (hl₁ t ht)⟩
  exact key.2

/-- With a provider of fixed answers, what was returned is what is recorded. -/
theorem returned_agrees (h : gatewaySystem.run (.init (.initial c b)) moves = some s)
    (answer : OrderId → PaymentResult)
    (hanswer : ∀ t ch, Label.step t ch ∈ moves → ch.answer = answer) {result : PaymentResult}
    (hr : s.Returned t o result) :
    (answer o).Agrees result ∧ ∃ row, s.shared.authorization o = some row ∧
      row.authorized = some result.authorized ∧ result.Agrees (toResult row) := by
  have hsound := till_sound (A := fun o result => result = answer o) h fun l hl => by
    cases l with
    | step t ch => exact fun o => congrFun (hanswer t ch hl) o
    | _ => exact trivial
  obtain ⟨event, rfl, ht⟩ := hr
  obtain ⟨⟨_, rfl, hagree⟩, row, hrow, hd⟩ := hsound.result ht
  obtain ⟨_, rfl, hrecorded⟩ := hsound.inv.2.decided _ row hrow hd
  refine ⟨hagree, row, hrow, ?_, ?_, fun hf => ?_⟩
  · obtain ⟨a, ha⟩ := Option.ne_none_iff_exists'.mp hd
    have hto : (toResult row).authorized = a := by
      cases a <;> simp [toResult, ha]
    rw [ha, ← hto, ← hrecorded.1, hagree.1]
  · exact hagree.1.symm.trans hrecorded.1
  · have hf' := hagree.1.trans hf
    exact (hagree.2 hf').symm.trans (hrecorded.2 hf')

/-- Who may charge; that a decision is final; that every answer is the recorded one. -/
theorem ledger_agreement (h : gatewaySystem.run (.init (.initial c b)) moves = some s)
    (h' : gatewaySystem.run s later = some s') (o : OrderId) :
    (∀ l s₁, gatewaySystem.next s l = some s₁ → s₁.shared.gateway = s.shared.gateway ∨
      ∃ t d, s₁.shared.gateway = s.shared.gateway ++ [(t, d)] ∧ Justified s.shared t d) ∧
    (∀ row, s.shared.authorization o = some row → row.authorized ≠ none →
      s'.shared.authorization o = some row ∧
        ∀ t key, s.threads t = none → (t, .charged o key) ∉ s'.shared.gateway) ∧
    (∀ answer, (∀ t ch, Label.step t ch ∈ moves → ch.answer = answer) →
      ∀ t result, s.Returned t o result →
        (∃ row, s.shared.authorization o = some row ∧ row.authorized = some result.authorized ∧
          (result.authorized = false → result.reason = (toResult row).reason)) ∧
        ∀ t' result', s.Returned t' o result' → result.authorized = result'.authorized ∧
          (result.authorized = false → result.reason = result'.reason)) := by
  have hs := till_sound h fun l _ => admits_anyAnswer l
  refine ⟨fun l s₁ hn => ?_, fun row hrow hd => ?_, fun answer hanswer t result hr => ?_⟩
  · have hm := (hs.next verified_gatewaySystem (admits_anyAnswer l) hn).2
    rcases hm.cases with he | hfalse | ⟨t, event, -, -, -, hstep⟩
    · exact .inl (congrArg World.gateway he)
    · exact hfalse.elim
    · exact hstep.justified.imp_right fun ⟨d, hd⟩ => ⟨t, d, hd⟩
  · obtain ⟨hrow', hl⟩ := decided_run hs h' hrow hd
    refine ⟨hrow', fun t key ht hm => ?_⟩
    have hs' := Sound.run verified_gatewaySystem (fun l _ => admits_anyAnswer l) h' hs
    have hunseen := hs.fresh t ht
    have hnone : ¬Licensed t o s.shared.gateway := by
      rintro (hm | ⟨now, hm⟩)
      · exact hunseen _ hm
      · exact hunseen _ hm
    exact hl t hnone (hs'.inv.2.charged t o key hm).2
  · obtain ⟨hagree, row, hrow, ha, hrecorded⟩ := returned_agrees h answer hanswer hr
    refine ⟨⟨row, hrow, ha, hrecorded.2⟩, fun t' result' hr' => ?_⟩
    obtain ⟨hagree', -⟩ := returned_agrees h answer hanswer hr'
    refine ⟨hagree.1.symm.trans hagree'.1, fun hf => ?_⟩
    have hf' := hagree.1.trans hf
    exact (hagree.2 hf').symm.trans (hagree'.2 hf')

/-! ### One call dies after its charge, another takes over -/

/-- A call of `authorize` for order 1, run for `n` statements. -/
def authorizeAt (t : Tid) (now n : Nat) : List TillMove :=
  .start t ⟨1, 9⟩ :: List.replicate n (.step t { now := now, answer := fun _ => decline })

/-- Call 0 dies with its charge unrecorded; call 1 comes 40 s later, and call 2 after it. -/
def takingOver : List TillMove :=
  authorizeAt 0 0 2 ++ [.crash 0] ++ authorizeAt 1 40000 7 ++ authorizeAt 2 40000 3

def Till.reply (s : Till) (t : Tid) : Option (InventoryReservedEvent × PaymentResult) :=
  match s.threads t with
  | some (event, .running (.ret (.ok result))) => some (event, result)
  | _ => none

theorem Till.returned_of_reply {event : InventoryReservedEvent} {result : PaymentResult}
    (h : s.reply t = some (event, result)) : s.Returned t event.orderId result := by
  unfold Till.reply at h
  split at h
  · next ht =>
    cases h
    exact ⟨event, rfl, ht⟩
  · cases h

/-- What calls 1 and 2 got, whether call 3 is still to come, and whether it then can run. -/
def Till.outcome (s : Till) : Option (InventoryReservedEvent × PaymentResult) ×
    Option (InventoryReservedEvent × PaymentResult) × Bool × Bool :=
  (s.reply 1, s.reply 2, (s.threads 3).isNone,
    (gatewaySystem.run s (authorizeAt 3 0 3)).isSome)

theorem ledger_agreement_takeover : ∃ s s' : Till,
    gatewaySystem.run (.init (.initial oneProduct true)) takingOver = some s ∧
    gatewaySystem.run s (authorizeAt 3 0 3) = some s' ∧
    s.Returned 1 1 decline ∧ s.Returned 2 1 decline ∧
    (∃ row, s.shared.authorization 1 = some row ∧ row.authorized = some false) ∧
    ∀ key, (3, .charged 1 key) ∉ s'.shared.gateway := by
  have hout : (gatewaySystem.run (.init (.initial oneProduct true)) takingOver).map Till.outcome =
      some (some (⟨1, 9⟩, decline), some (⟨1, 9⟩, decline), true, true) := by decide +kernel
  obtain ⟨s, hs, hout⟩ := Option.map_eq_some_iff.mp hout
  simp only [Till.outcome, Prod.mk.injEq, Option.isNone_iff_eq_none] at hout
  obtain ⟨h1, h2, h3, h4⟩ := hout
  obtain ⟨s', hs'⟩ := Option.isSome_iff_exists.mp h4
  obtain ⟨-, hfinal, hagree⟩ := ledger_agreement hs hs' 1
  have hanswer : ∀ t ch, Label.step t ch ∈ takingOver → ch.answer = fun _ => decline := by
    intro t ch hl
    simp only [takingOver, authorizeAt, List.mem_append, List.mem_cons, List.mem_replicate,
      reduceCtorEq, Label.step.injEq, List.not_mem_nil] at hl
    obtain ((h | h) | h) | h := hl <;> simp_all
  have hr1 := Till.returned_of_reply h1
  obtain ⟨⟨row, hrow, ha, -⟩, -⟩ := hagree _ hanswer 1 decline hr1
  refine ⟨s, s', hs, hs', hr1, Till.returned_of_reply h2, ⟨row, hrow, ha⟩, fun key => ?_⟩
  exact (hfinal row hrow (by simp [ha])).2 3 key h3

end OrderLifecycle

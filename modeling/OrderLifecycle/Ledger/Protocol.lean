import OrderLifecycle.Lifecycle.Logic

open Framework

namespace OrderLifecycle

/-- Calls of `authorize`, in any number. -/
def gatewaySystem :
    System World Choice InventoryReservedEvent Empty (Except AppError PaymentResult) where
  body := fun event => (authorize event).run
  enabled := fun _ _ => true
  env := fun e _ => e.elim
  crash := fun t w => { w with db := w.db.rollback t }

/-! ### What a statement of `authorize` can do -/

/-- Call `t` inserted the row, or has seen it undecided and stale. -/
def Licensed (t : Tid) (o : OrderId) (g : GatewayLog) : Prop :=
  (t, .claimed o) ∈ g ∨ ∃ now, (t, .sawStale o now) ∈ g

/-- One step on the ledger row of `o`, with the provider's possible answers `A`. -/
inductive LedgerStep (A : OrderId → PaymentResult → Prop) (t : Tid) (o : OrderId) (w w' : World) :
    Prop
  | aside (hrows : w'.authorization = w.authorization) (hlog : w'.gateway = w.gateway)
  | claim (now : Nat) (hrow : w.authorization o = none)
      (hrows : w'.authorization = Function.update w.authorization o (some ⟨o, none, none, now⟩))
      (hlog : w'.gateway = w.gateway ++ [(t, .claimed o)])
  | takeover (row : PaymentAuthorizationEntity) (now : Nat) (hrow : w.authorization o = some row)
      (hstale : row.isStale now = true) (hrows : w'.authorization = w.authorization)
      (hlog : w'.gateway = w.gateway ++ [(t, .sawStale o now)])
  | charge (hlicence : Licensed t o w.gateway) (hrows : w'.authorization = w.authorization)
      (hlog : w'.gateway = w.gateway ++ [(t, .charged o o)])
  | decide (row : PaymentAuthorizationEntity) (result : PaymentResult)
      (hrow : w.authorization o = some row) (hopen : row.authorized = none) (hA : A o result)
      (hrows : w'.authorization = Function.update w.authorization o
        (some (row.decide result)))
      (hlog : w'.gateway = w.gateway)

/-- Two results mean the same to the consumer. -/
def PaymentResult.Agrees (result result' : PaymentResult) : Prop :=
  result.authorized = result'.authorized ∧
    (result.authorized = false → result.reason = result'.reason)

/-- The history and the rows of the ledger. -/
structure Ledger (A : OrderId → PaymentResult → Prop) (w : World) : Prop where
  charged : ∀ t o key, (t, .charged o key) ∈ w.gateway → key = o ∧ Licensed t o w.gateway
  claimed : ∀ t o, (t, .claimed o) ∈ w.gateway → w.authorization o ≠ none
  stale : ∀ t o now, (t, .sawStale o now) ∈ w.gateway →
    ∃ row, w.authorization o = some row ∧ row.createdAt + staleClaimMs < now
  decided : ∀ o row, w.authorization o = some row → row.authorized ≠ none →
    ∃ result, A o result ∧ result.Agrees (toResult row)

variable {A : OrderId → PaymentResult → Prop} {t t' : Tid} {o o' : OrderId} {w w' : World}

theorem Licensed.append {g : GatewayLog} {d : Tid × GatewayDeed} (h : Licensed t o g) :
    Licensed t o (g ++ [d]) := by
  rcases h with h | ⟨now, h⟩
  · exact .inl (List.mem_append_left _ h)
  · exact .inr ⟨now, List.mem_append_left _ h⟩

theorem mem_snoc {α : Type} {x y : α} {l : List α} (h : x ∈ l ++ [y]) : x ∈ l ∨ x = y := by
  rcases List.mem_append.mp h with h | h
  · exact .inl h
  · exact .inr (List.mem_singleton.mp h)

/-- A row stays, its age with it, and a decided one as it is. -/
theorem LedgerStep.row (hs : LedgerStep A t o w w') {row : PaymentAuthorizationEntity}
    (hrow : w.authorization o' = some row) :
    ∃ row', w'.authorization o' = some row' ∧ row'.createdAt = row.createdAt ∧
      (row.authorized ≠ none → row' = row) := by
  have same (h : w'.authorization = w.authorization) : ∃ row', w'.authorization o' = some row' ∧
      row'.createdAt = row.createdAt ∧ (row.authorized ≠ none → row' = row) :=
    ⟨row, by rw [h, hrow], rfl, fun _ => rfl⟩
  cases hs with
  | aside hrows => exact same hrows
  | takeover _ _ _ _ hrows => exact same hrows
  | charge _ hrows => exact same hrows
  | claim now hnone hrows =>
    have hne : o' ≠ o := by
      rintro rfl
      rw [hnone] at hrow
      cases hrow
    refine ⟨row, ?_, rfl, fun _ => rfl⟩
    rw [hrows, Function.update_of_ne hne, hrow]
  | decide row₀ result hrow₀ hopen _ hrows =>
    by_cases e : o' = o
    · subst e
      obtain rfl : row₀ = row := Option.some.inj (hrow₀.symm.trans hrow)
      have hrow' : w'.authorization o' = some (row₀.decide result) := by
        rw [hrows, Function.update_self]
      exact ⟨_, hrow', rfl, fun h => absurd hopen h⟩
    · refine ⟨row, ?_, rfl, fun _ => rfl⟩
      rw [hrows, Function.update_of_ne e, hrow]

/-- What a step adds to the history. -/
theorem LedgerStep.log (hs : LedgerStep A t o w w') :
    w'.gateway = w.gateway ∨ ∃ d, w'.gateway = w.gateway ++ [(t, d)] ∧
      ((d = .claimed o ∧ w.authorization o = none ∧ w'.authorization o ≠ none) ∨
        (∃ row now, d = .sawStale o now ∧ w.authorization o = some row ∧
          row.isStale now = true) ∨
        (d = .charged o o ∧ Licensed t o w.gateway)) := by
  cases hs with
  | aside _ hlog => exact .inl hlog
  | decide _ _ _ _ _ _ hlog => exact .inl hlog
  | claim now hnone hrows hlog =>
    refine .inr ⟨_, hlog, .inl ⟨rfl, hnone, ?_⟩⟩
    rw [hrows, Function.update_self]
    nofun
  | takeover row now hrow hstale _ hlog =>
    exact .inr ⟨_, hlog, .inr (.inl ⟨row, now, rfl, hrow, hstale⟩)⟩
  | charge hl _ hlog => exact .inr ⟨_, hlog, .inr (.inr ⟨rfl, hl⟩)⟩

theorem LedgerStep.licensed (hs : LedgerStep A t o w w') (h : Licensed t' o' w.gateway) :
    Licensed t' o' w'.gateway := by
  rcases hs.log with he | ⟨d, he, -⟩
  · rwa [he]
  · rw [he]
    exact h.append

/-- A licence is given only while the row is absent or undecided. -/
theorem LedgerStep.unlicensed (hs : LedgerStep A t o w w') {row : PaymentAuthorizationEntity}
    (hrow : w.authorization o' = some row) (hd : row.authorized ≠ none)
    (h : ¬Licensed t' o' w.gateway) : ¬Licensed t' o' w'.gateway := by
  rcases hs.log with he | ⟨d, he, hcase⟩
  · rwa [he]
  rw [he]
  intro hl
  have hnew : Licensed t' o' [(t, d)] := by
    rcases hl with hl | ⟨now, hl⟩
    · exact .inl ((List.mem_append.mp hl).resolve_left fun hm => h (.inl hm))
    · exact .inr ⟨now, (List.mem_append.mp hl).resolve_left fun hm => h (.inr ⟨now, hm⟩)⟩
  simp only [Licensed, List.mem_singleton, Prod.mk.injEq] at hnew
  rcases hcase with ⟨rfl, hnone, -⟩ | ⟨row', now, rfl, hrow', hst⟩ | ⟨rfl, -⟩
  · obtain ⟨-, he⟩ | ⟨_, -, he⟩ := hnew
    · cases he
      rw [hnone] at hrow
      cases hrow
    · cases he
  · obtain ⟨-, he⟩ | ⟨_, -, he⟩ := hnew
    · cases he
    · cases he
      obtain rfl : row' = row := Option.some.inj (hrow'.symm.trans hrow)
      simp only [PaymentAuthorizationEntity.isStale, Bool.and_eq_true,
        Option.isNone_iff_eq_none] at hst
      exact hd hst.1
  · obtain ⟨-, he⟩ | ⟨_, -, he⟩ := hnew <;> cases he

theorem agrees_decision (row : PaymentAuthorizationEntity) (result : PaymentResult) :
    result.Agrees (toResult (row.decide result)) := by
  cases h : result.authorized <;>
    simp [PaymentResult.Agrees, toResult, PaymentAuthorizationEntity.decide,
      PaymentResult.reason, h]

theorem Ledger.step (h : Ledger A w) (hs : LedgerStep A t o w w') : Ledger A w' where
  charged t₁ o₁ key hm := by
    have old (hm : (t₁, .charged o₁ key) ∈ w.gateway) : key = o₁ ∧ Licensed t₁ o₁ w'.gateway :=
      ⟨(h.charged t₁ o₁ key hm).1, hs.licensed (h.charged t₁ o₁ key hm).2⟩
    rcases hs.log with he | ⟨d, he, hcase⟩
    · exact old (he ▸ hm)
    rw [he] at hm
    rcases mem_snoc hm with hm | hm
    · exact old hm
    rcases hcase with ⟨rfl, -⟩ | ⟨_, _, rfl, -⟩ | ⟨rfl, hl⟩
    · cases hm
    · cases hm
    · cases hm
      exact ⟨rfl, hs.licensed hl⟩
  claimed t₁ o₁ hm := by
    have old (hm : (t₁, .claimed o₁) ∈ w.gateway) : w'.authorization o₁ ≠ none := by
      obtain ⟨row, hrow⟩ := Option.ne_none_iff_exists'.mp (h.claimed t₁ o₁ hm)
      obtain ⟨row', hrow', -⟩ := hs.row hrow
      exact Option.ne_none_iff_exists'.mpr ⟨row', hrow'⟩
    rcases hs.log with he | ⟨d, he, hcase⟩
    · exact old (he ▸ hm)
    rw [he] at hm
    rcases mem_snoc hm with hm | hm
    · exact old hm
    rcases hcase with ⟨rfl, -, hrow⟩ | ⟨_, _, rfl, -⟩ | ⟨rfl, -⟩
    · cases hm
      exact hrow
    · cases hm
    · cases hm
  stale t₁ o₁ now hm := by
    have keep {row : PaymentAuthorizationEntity} (hrow : w.authorization o₁ = some row)
        (hold : row.createdAt + staleClaimMs < now) :
        ∃ row, w'.authorization o₁ = some row ∧ row.createdAt + staleClaimMs < now := by
      obtain ⟨row', hrow', hc, -⟩ := hs.row hrow
      exact ⟨row', hrow', by rwa [hc]⟩
    rcases hs.log with he | ⟨d, he, hcase⟩
    · obtain ⟨row, hrow, hold⟩ := h.stale t₁ o₁ now (he ▸ hm)
      exact keep hrow hold
    rw [he] at hm
    rcases mem_snoc hm with hm | hm
    · obtain ⟨row, hrow, hold⟩ := h.stale t₁ o₁ now hm
      exact keep hrow hold
    rcases hcase with ⟨rfl, -⟩ | ⟨row, now', rfl, hrow, hst⟩ | ⟨rfl, -⟩
    · cases hm
    · cases hm
      simp only [PaymentAuthorizationEntity.isStale, Bool.and_eq_true, decide_eq_true_eq] at hst
      exact keep hrow hst.2
    · cases hm
  decided o₁ row hrow hd := by
    have same (hrows : w'.authorization = w.authorization) :
        ∃ result, A o₁ result ∧ result.Agrees (toResult row) :=
      h.decided o₁ row (hrows ▸ hrow) hd
    cases hs with
    | aside hrows => exact same hrows
    | takeover _ _ _ _ hrows => exact same hrows
    | charge _ hrows => exact same hrows
    | claim now _ hrows =>
      rw [hrows] at hrow
      by_cases e : o₁ = o
      · subst e
        rw [Function.update_self] at hrow
        cases hrow
        exact absurd rfl hd
      · rw [Function.update_of_ne e] at hrow
        exact h.decided o₁ row hrow hd
    | decide row₀ result _ _ hA hrows =>
      rw [hrows] at hrow
      by_cases e : o₁ = o
      · subst e
        rw [Function.update_self] at hrow
        cases hrow
        exact ⟨result, hA, agrees_decision row₀ result⟩
      · rw [Function.update_of_ne e] at hrow
        exact h.decided o₁ row hrow hd

/-! ### The logic of the gateway -/

/-- No transaction is open, and the ledger is in order. -/
def ledgerLogic (A : OrderId → PaymentResult → Prop) :
    Logic World Choice InventoryReservedEvent where
  inv := fun w => (∀ t, Idle t w) ∧ Ledger A w
  guar := fun t event w w' => LedgerStep A t event.orderId w w'
  envGuar := fun _ _ => False
  choice := fun ch => ∀ o, A o (ch.answer o)

/-- What the consumer gets to know is one of the provider's answers, and the row is decided. -/
def Agreed (A : OrderId → PaymentResult → Prop) (o : OrderId) (result : PaymentResult)
    (w : World) : Prop :=
  (∃ result', A o result' ∧ result'.Agrees result) ∧
    ∃ row, w.authorization o = some row ∧ row.authorized ≠ none

def Entered (o : OrderId) (w : World) : Prop := w.authorization o ≠ none

/-- Thread `t` has left no trace yet. -/
def Unseen (t : Tid) (w : World) : Prop := ∀ d, (t, d) ∉ w.gateway

section statements

variable {event : InventoryReservedEvent} {P : World → Prop} {β : Type} {result : PaymentResult}

theorem lasting_entered : (ledgerLogic A).Lasting (Entered o) := by
  rintro w w' - - (⟨t, e, hs⟩ | hfalse) h
  · obtain ⟨row, hrow⟩ := Option.ne_none_iff_exists'.mp h
    obtain ⟨row', hrow', -⟩ := hs.row hrow
    exact Option.ne_none_iff_exists'.mpr ⟨row', hrow'⟩
  · exact hfalse.elim

theorem lasting_agreed : (ledgerLogic A).Lasting (Agreed A o result) := by
  rintro w w' - - (⟨t, e, hs⟩ | hfalse) ⟨ha, row, hrow, hd⟩
  · obtain ⟨row', hrow', -, hk⟩ := hs.row hrow
    exact ⟨ha, row', hrow', by rwa [hk hd]⟩
  · exact hfalse.elim

theorem lasting_licensed : (ledgerLogic A).Lasting fun w => Licensed t o w.gateway := by
  rintro w w' - - (⟨t', e, hs⟩ | hfalse) h
  · exact hs.licensed h
  · exact hfalse.elim

/-- A step of another thread leaves no trace of `t`. -/
theorem stable_unseen : (ledgerLogic A).Stable t (Unseen t) := by
  rintro w w' ⟨-, -, ⟨t', e, hne, hs⟩ | hfalse⟩ h
  · rcases hs.log with he | ⟨d, he, -⟩
    · rwa [Unseen, he]
    · intro d' hm
      rw [he] at hm
      rcases mem_snoc hm with hm | hm
      · exact h d' hm
      · exact hne (Prod.mk.inj hm).1.symm
  · exact hfalse.elim

theorem ledger_aside (t : Tid) (event : InventoryReservedEvent) (w' : World)
    (hi : (ledgerLogic A).inv w) (hdb : w'.db = w.db)
    (hlog : w'.gateway = w.gateway) :
    (ledgerLogic A).inv w' ∧ (ledgerLogic A).guar t event w w' := by
  have hs : LedgerStep A t event.orderId w w' := by
    refine .aside ?_ hlog
    funext o
    rw [World.authorization, hdb, World.authorization]
  refine ⟨⟨fun t => ?_, hi.2.step hs⟩, hs⟩
  rw [Idle, hdb]
  exact hi.1 t

theorem hoare_ledger_record (hP : (ledgerLogic A).Lasting P) (m : Metric)
    {E : AppError → World → Prop} :
    Hoare (ledgerLogic A) t event P (recordMetric m) (fun _ => P) E := by
  refine hoare_stmt hP.stable fun w ch r w' hi _ hp hf => ?_
  cases hf
  obtain ⟨hi', hg⟩ := ledger_aside t event { w with metrics := w.metrics ++ [m] } hi rfl rfl
  exact ⟨hi', hg, hP w _ hi hi' (.inl ⟨t, event, hg⟩) hp⟩

/-- An SQL statement outside a transaction: on failure it changes nothing. -/
theorem hoare_ledger_sql {f : Tid → Choice → World → Option (Except AppError β × World)}
    {R : β → World → Prop} (hP : (ledgerLogic A).Stable t P)
    (h : ∀ w ch r w', (ledgerLogic A).inv w → P w → f t ch w = some (r, w') →
      ∃ a, r = .ok a ∧ (ledgerLogic A).inv w' ∧ (ledgerLogic A).guar t event w w' ∧ R a w') :
    Hoare (ledgerLogic A) t event P (sql f) R fun _ _ => True := by
  refine hoare_stmt hP fun w ch r w' hi _ hp hf => ?_
  have hidle : Idle t w := hi.1 t
  simp only [hidle.not_aborted, Bool.false_eq_true, if_false, hidle.abort] at hf
  split at hf
  · cases hf
    obtain ⟨hi', hg⟩ := ledger_aside t event _ hi rfl rfl
    exact ⟨hi', hg, trivial⟩
  · obtain ⟨⟨r', w₁⟩, hf', he⟩ := Option.map_eq_some_iff.mp hf
    obtain ⟨a, rfl, hi', hg, hR⟩ := h w ch r' w₁ hi hp hf'
    cases he
    exact ⟨hi', hg, hR⟩

/-- A write of the row of `o` outside a transaction. -/
theorem authorization_put (hidle : ∀ t, Idle t w) {a : PaymentAuthorizationEntity}
    (hfree : w.db.Free t (.authorization o))
    (hdb : w'.db = w.db.put t (.authorization o) (some a) [] hfree) :
    (∀ t, Idle t w') ∧ w'.authorization = Function.update w.authorization o (some a) := by
  obtain ⟨hrows, -, htxns⟩ := Store.put_idle (some a) [] hfree (hidle t)
  refine ⟨fun t' => ?_, funext fun o' => ?_⟩
  · rw [Idle, hdb, htxns]
    exact hidle t'
  · simp only [World.authorization, hdb, hrows]
    by_cases e : o' = o
    · subst e
      rw [Function.update_self, Function.update_self]
      rfl
    · have hne : Key.authorization o' ≠ .authorization o := by simpa using e
      rw [Function.update_of_ne e, Function.update_of_ne hne]
      rfl

theorem hoare_ledger_claim :
    Hoare (ledgerLogic A) t event (fun _ => True) (claim event.orderId)
      (fun claimed w => Entered event.orderId w ∧
        (claimed = true → Licensed t event.orderId w.gateway)) (fun _ _ => True) := by
  refine hoare_ledger_sql .true fun w ch r w' hi _ hf => ?_
  obtain ⟨⟨b, db⟩, hins, he⟩ := Option.map_eq_some_iff.mp hf
  rcases Store.insert_cases hins with ⟨rfl, rfl, hv⟩ | ⟨rfl, hv, hfree, rfl⟩
  · rw [Store.view_idle (hi.1 t)] at hv
    cases he
    obtain ⟨hi', hg⟩ := ledger_aside t event _ hi rfl rfl
    exact ⟨_, rfl, hi', hg, hv, nofun⟩
  · rw [Store.view_idle (hi.1 t)] at hv
    obtain ⟨rfl, hw⟩ := Prod.mk.inj he
    have hlog : w'.gateway = w.gateway ++ [(t, .claimed event.orderId)] := by rw [← hw]; rfl
    obtain ⟨hidle, hrows⟩ := authorization_put hi.1 hfree (congrArg World.db hw).symm
    have hs : LedgerStep A t event.orderId w w' := .claim ch.now hv hrows hlog
    refine ⟨_, rfl, ⟨hidle, hi.2.step hs⟩, hs, ?_, fun _ => .inl (by simp [hlog])⟩
    rw [Entered, hrows, Function.update_self]
    nofun

theorem hoare_ledger_select :
    Hoare (ledgerLogic A) t event (Entered event.orderId) (selectRow (.authorization event.orderId))
      (fun existing w => Entered event.orderId w ∧ Ledger A w ∧
        existing = w.authorization event.orderId) (fun _ _ => True) := by
  refine hoare_ledger_sql lasting_entered.stable fun w ch r w' hi hp hf => ?_
  cases hf
  obtain ⟨hi', hg⟩ := ledger_aside t event _ hi rfl rfl
  exact ⟨_, rfl, hi', hg, hp, hi.2, Store.view_idle (hi.1 t)⟩

theorem hoare_isClaimStale_licensed :
    Hoare (ledgerLogic A) t event (Entered event.orderId) (isClaimStale event.orderId)
      (fun stale w => Entered event.orderId w ∧
        (stale = true → Licensed t event.orderId w.gateway)) (fun _ _ => True) := by
  refine hoare_ledger_sql lasting_entered.stable fun w ch r w' hi hp hf => ?_
  obtain ⟨row, hrow⟩ := Option.ne_none_iff_exists'.mp hp
  have hview : w.db.view t (.authorization event.orderId) = some row :=
    (Store.view_idle (hi.1 t)).trans hrow
  simp only [hview, Option.any_some] at hf
  cases hst : row.isStale ch.now with
  | false =>
    simp only [hst] at hf
    cases hf
    obtain ⟨hi', hg⟩ := ledger_aside t event _ hi rfl rfl
    exact ⟨_, rfl, hi', hg, hp, nofun⟩
  | true =>
    simp only [hst] at hf
    cases hf
    have hs : LedgerStep A t event.orderId w
        { w with gateway := w.gateway ++ [(t, .sawStale event.orderId ch.now)] } :=
      .takeover row ch.now hrow hst rfl rfl
    exact ⟨_, rfl, ⟨hi.1, hi.2.step hs⟩, hs, hp, fun _ => .inr ⟨ch.now, by simp⟩⟩

theorem hoare_ledger_charge :
    Hoare (ledgerLogic A) t event
      (fun w => Entered event.orderId w ∧ Licensed t event.orderId w.gateway)
      (charge event event.orderId)
      (fun result w => A event.orderId result ∧ Entered event.orderId w) (fun _ _ => True) := by
  refine hoare_stmt (lasting_entered.stable.and lasting_licensed.stable)
    fun w ch r w' hi hch ⟨hp, hl⟩ hf => ?_
  cases hf
  have hs : LedgerStep A t event.orderId w
      { w with gateway := w.gateway ++ [(t, .charged event.orderId event.orderId)] } :=
    .charge hl rfl rfl
  refine ⟨⟨hi.1, hi.2.step hs⟩, hs, ?_⟩
  cases ch.fail || ch.throws with
  | true => exact trivial
  | false => exact ⟨hch event.orderId, hp⟩

theorem hoare_ledger_decide (hA : A event.orderId result) :
    Hoare (ledgerLogic A) t event (Entered event.orderId) (recordDecision event.orderId result)
      (fun _ => Agreed A event.orderId result) (fun _ _ => True) := by
  refine hoare_ledger_sql lasting_entered.stable fun w ch r w' hi hp hf => ?_
  have hagrees : ∃ result', A event.orderId result' ∧ result'.Agrees result :=
    ⟨result, hA, rfl, fun _ => rfl⟩
  obtain ⟨⟨n, db⟩, hu, he⟩ := Option.map_eq_some_iff.mp hf
  rcases Store.update_cases hu with ⟨rfl, rfl, hn⟩ | ⟨rfl, a, hfree, hv, hopen, rfl⟩
  · cases he
    obtain ⟨row, hrow⟩ := Option.ne_none_iff_exists'.mp hp
    have hd := hn row ((Store.view_idle (hi.1 t)).trans hrow)
    obtain ⟨hi', hg⟩ := ledger_aside t event _ hi rfl rfl
    have hsome : row.authorized.isSome = true := by simpa using hd
    exact ⟨_, rfl, hi', hg, hagrees, row, hrow, Option.isSome_iff_ne_none.mp hsome⟩
  · rw [Store.view_idle (hi.1 t)] at hv
    obtain ⟨rfl, hw⟩ := Prod.mk.inj he
    obtain ⟨hidle, hrows⟩ := authorization_put hi.1 hfree (congrArg World.db hw).symm
    have hs : LedgerStep A t event.orderId w w' :=
      .decide a result hv (Option.isNone_iff_eq_none.mp hopen) hA hrows (by rw [← hw])
    refine ⟨_, rfl, ⟨hidle, hi.2.step hs⟩, hs, hagrees, a.decide result, ?_, ?_⟩
    · rw [hrows, Function.update_self]
    · nofun

/-! ### `authorize` -/

theorem hoare_ledger_chargeAndRecord :
    Hoare (ledgerLogic A) t event
      (fun w => Entered event.orderId w ∧ Licensed t event.orderId w.gateway)
      (chargeAndRecord event) (fun result => Agreed A event.orderId result)
      (fun _ _ => True) := by
  refine hoare_bind hoare_ledger_charge fun result => hoare_fact fun hA => ?_
  refine hoare_bind (hoare_ledger_record lasting_entered _) fun _ => ?_
  exact hoare_bind (hoare_ledger_decide hA) fun _ => hoare_pure fun _ h => h

theorem hoare_ledger_authorize :
    Hoare (ledgerLogic A) t event (fun _ => True) (authorize event)
      (fun result => Agreed A event.orderId result) (fun _ _ => True) := by
  refine hoare_bind hoare_ledger_claim fun claimed => hoare_ite (fun hc => ?_) fun _ => ?_
  · exact hoare_pre (fun w h => ⟨h.1, h.2 hc⟩) hoare_ledger_chargeAndRecord
  refine hoare_pre (fun w h => h.1) (hoare_bind hoare_ledger_select fun existing => ?_)
  cases hex : (existing : Option PaymentAuthorizationEntity).filter fun a => a.authorized.isSome with
  | some row =>
    obtain ⟨hrow, hs⟩ := Option.filter_eq_some_iff.mp hex
    have hd : row.authorized ≠ none := Option.isSome_iff_ne_none.mp hs
    refine hoare_pre (P := Agreed A event.orderId (toResult row)) ?_ ?_
    · rintro w ⟨-, hl, rfl⟩
      exact ⟨hl.decided _ row hrow hd, row, hrow, hd⟩
    · exact hoare_bind (hoare_ledger_record lasting_agreed _) fun _ => hoare_pure fun _ h => h
  | none =>
    refine hoare_pre (fun _ h => h.1) (hoare_bind hoare_isClaimStale_licensed fun stale => ?_)
    refine hoare_ite (fun _ => ?_) fun hst => ?_
    · refine hoare_pre (fun _ h => h.1) ?_
      exact hoare_bind (hoare_ledger_record lasting_entered _) fun _ =>
        hoare_throw fun _ _ => trivial
    · have hlasting : (ledgerLogic A).Lasting fun w =>
          Entered event.orderId w ∧ Licensed t event.orderId w.gateway :=
        fun w w' hi hi' hg h => ⟨lasting_entered w w' hi hi' hg h.1,
          lasting_licensed w w' hi hi' hg h.2⟩
      refine hoare_pre (P := fun w => Entered event.orderId w ∧
        Licensed t event.orderId w.gateway) (fun w h => ⟨h.1, h.2 (by simpa using hst)⟩) ?_
      exact hoare_bind (hoare_ledger_record hlasting _) fun _ => hoare_ledger_chargeAndRecord

end statements

/-! ### Every run -/

def Settled (A : OrderId → PaymentResult → Prop) (_ : Tid) (event : InventoryReservedEvent) :
    Except AppError PaymentResult → World → Prop
  | .ok result, w => Agreed A event.orderId result w
  | .error _, _ => True

theorem verified_gatewaySystem :
    Verified gatewaySystem (ledgerLogic A) Unseen (Settled A) where
  idle_stable _ := stable_unseen
  post_stable _ _ r := by
    cases r with
    | ok _ => exact lasting_agreed.stable
    | error _ => exact .true
  body t event w hi _ _ := by
    refine wp_mono ?_ (hoare_ledger_authorize w trivial)
    intro r w h
    cases r with
    | ok _ => exact h
    | error _ => trivial
  env e := e.elim
  crash t event w hi := by
    have hs : LedgerStep A t event.orderId w { w with db := w.db.rollback t } := .aside rfl rfl
    refine ⟨⟨fun t' => ?_, hi.2.step hs⟩, hs⟩
    by_cases e : t' = t
    · subst e
      exact Store.rollback_txn
    · exact (Store.rollback_frame.txns t' e).trans (hi.1 t')

end OrderLifecycle

import OrderLifecycle.Counters.Requests
import OrderLifecycle.Framework.Interval
import OrderLifecycle.Lifecycle.StockReturn
import OrderLifecycle.Lifecycle.StockSafety
import OrderLifecycle.Reads.Coherence

open Framework

namespace OrderLifecycle

/-- Each terminal state was recorded once for each order in it, and the reasons of
`order_failures_total` together once for each `FAILED` order. -/
structure CountersMatch (w : World) : Prop where
  terminal : ∀ status label, terminalStateLabel status = some label →
    w.metrics.count (.terminalState label) = w.orders.countP fun order => order.status == status
  failures : w.metrics.countP Counter.failures.counts =
    w.orders.countP fun order => order.status == .failed

/-- A `cancelOrder` call of `t` has thrown although its claim is committed. -/
def throwsAfterClaim (t : Tid) (s : Shop) : Bool :=
  match s.threads t with
  | some (.cancelOrder _ _, .running (.ret (.error _))) => claimsCancel t s.shared
  | _ => false

/-- The step takes a counted order back, or ends a cancel before it is counted. -/
def miscounts (s s' : Shop) : Move → Bool
  | .step t _ => rollsBackTerminal t s.shared s'.shared || throwsAfterClaim t s'
  | _ => false

/-- No step of the run does. -/
def countsThroughout (s : Shop) : List Move → Bool
  | [] => true
  | l :: ls =>
    match orderSystem.next s l with
    | none => true
    | some s' => !miscounts s s' l && countsThroughout s' ls

variable {c : Catalog} {b : Bool} {moves ls ls' : List Move} {s s' d : Shop} {t : Tid} {w : World}
  {n : Counter}

/-! ### The counters of a world -/

theorem holds_iff {row : Option OrderEntity} :
    n.Holds row ↔ (row.map fun order => order.status == n.status).getD false = true := by
  cases row <;> simp [Counter.Holds]

/-- The orders of the table, counted. -/
theorem orders_countP (n : Counter) (w : World) :
    (w.orders.countP fun order => order.status == n.status) = (n.orders w.db.rows).ncard := by
  let found := w.db.keys.filter fun key => (key.orderId.map fun o =>
    ((w.order o).map fun order => order.status == n.status).getD false).getD false
  have hcount : (w.orders.countP fun order => order.status == n.status) = found.length := by
    unfold World.orders
    rw [List.countP_filterMap, List.countP_eq_length_filter]
    congr 1
    apply List.filter_congr
    intro key _
    cases key <;> rfl
  have hset : Key.order '' n.orders w.db.rows = (found.toFinset : Set Key) := by
    ext key
    simp only [Set.mem_image, List.coe_toFinset, Set.mem_ofPred_eq, found, List.mem_filter]
    constructor
    · intro ⟨o, ho, he⟩
      subst he
      have hrow : w.db.rows (.order o) ≠ none := by
        obtain ⟨order, horder, -⟩ := ho
        rw [horder]
        exact Option.some_ne_none order
      exact ⟨w.db.listed _ (.inl hrow), holds_iff.mp ho⟩
    · intro ⟨_, hkey⟩
      cases key with
      | order o => exact ⟨o, holds_iff.mpr hkey, rfl⟩
      | _ => cases hkey
  have hnodup : found.Nodup := w.db.nodup.filter _
  rw [hcount, ← Set.ncard_image_of_injective _ fun _ _ he => Key.order.inj he, hset,
    Set.ncard_coe_finset, List.toFinset_card_of_nodup hnodup]

/-- A terminal counter counts its label. -/
theorem counts_label {label : String} (hn : n ≠ .failures)
    (hl : terminalStateLabel n.status = some label) (m : Metric) :
    n.counts m = true ↔ m = .terminalState label := by
  have hother : n.counts m = true → ∃ l, m = .terminalState l := by
    intro hm
    cases m with
    | terminalState l => exact ⟨l, rfl⟩
    | orderFailure reason =>
      cases n with
      | failures => exact absurd rfl hn
      | _ => cases hm
    | _ => cases n <;> cases hm
  have hlabel (l : String) : n.counts (.terminalState l) = true ↔ l = label := by
    have hcounts : n.counts (.terminalState l) = (terminalStateLabel n.status == some l) := by
      cases n with
      | failures => exact absurd rfl hn
      | _ => rfl
    rw [hcounts, hl, beq_iff_eq, Option.some.injEq, eq_comm]
  constructor
  · intro hm
    obtain ⟨l, rfl⟩ := hother hm
    rw [(hlabel l).mp hm]
  · intro hm
    rw [hm]
    exact (hlabel label).mpr rfl

/-- Balanced counters match. -/
theorem counters_match_of_balance (h : ∀ n, imbalance n w = 0) : CountersMatch w := by
  have hmatch (n : Counter) : w.metrics.countP n.counts =
      w.orders.countP fun order => order.status == n.status := by
    have hn := h n
    unfold imbalance at hn
    rw [orders_countP]
    omega
  refine ⟨?_, hmatch .failures⟩
  intro status label hlabel
  have hcount (n : Counter) (hn : n ≠ .failures)
      (hl : terminalStateLabel n.status = some label) :
      w.metrics.count (.terminalState label) =
        w.orders.countP fun order => order.status == n.status := by
    rw [← hmatch n, List.count]
    apply List.countP_congr
    intro m _
    rw [counts_label hn hl, beq_iff_eq]
  cases status with
  | completed => exact hcount .completed (by decide) hlabel
  | failed => exact hcount .failed (by decide) hlabel
  | cancelled => exact hcount .cancelled (by decide) hlabel
  | _ => cases hlabel

/-! ### Runs -/

/-- The order that a cancel of the past claimed is claimed for good. -/
theorem Reaches.claims (h : Reaches c b moves s) {x : World × World} (hx : x ∈ memory c b moves t)
    (hclaim : claimsCancel t x.2 = true) : claimsCancel t s.shared = true := by
  obtain ⟨⟨t', deed⟩, hmem, hdeed⟩ := List.any_eq_true.mp hclaim
  simp only [Bool.and_eq_true, beq_iff_eq] at hdeed
  obtain ⟨rfl, hdeed⟩ := hdeed
  obtain ⟨ls, ch, ls', d, d', rfl, hd, hn, -, hd'⟩ := orderSystem.mem_past hx
  have hreach : Reaches c b (ls ++ [.step t' ch]) d' := Reaches.snoc.mpr ⟨d, hd, hn⟩
  have hrun : orderSystem.run d' ls' = some s := by
    have hall : Reaches c b ((ls ++ [.step t' ch]) ++ ls') s := by
      rw [List.append_assoc]
      exact h
    obtain ⟨e, he, hrest⟩ := Reaches.append.mp hall
    cases he.symm.trans hreach
    exact hrest
  cases deed with
  | cancelClaimed o seen found =>
    have hkept := hreach.keeps (o := o)
      (P := fun f => (t', Deed.cancelClaimed o seen found) ∈ f.claims) hrun
      (List.mem_filter.mpr ⟨hd' ▸ hmem, by simp [Deed.claims]⟩)
      fun _ _ _ _ hs hp => hs.claims_mono.subset hp
    exact List.any_eq_true.mpr ⟨_, (List.mem_filter.mp hkept).1, by simp [Deed.isCancelClaim]⟩
  | _ => cases hdeed

theorem countsThroughout_append (hrun : orderSystem.run s ls = some d) :
    countsThroughout s (ls ++ ls') = (countsThroughout s ls && countsThroughout d ls') := by
  induction ls generalizing s with
  | nil =>
    cases hrun
    rfl
  | cons l ls ih =>
    obtain ⟨e, he, hrest⟩ := orderSystem.run_cons.mp hrun
    simp only [List.cons_append, countsThroughout, he, ih hrest, Bool.and_assoc]

/-- No thread takes a terminal order back. -/
theorem sane_past (hcond : countsThroughout s moves = true) : Sane t (orderSystem.past t s moves) := by
  induction moves generalizing s with
  | nil => exact sane_nil
  | cons l ls ih =>
    cases hn : orderSystem.next s l with
    | none =>
      simp only [System.past, hn]
      exact sane_nil
    | some d =>
      simp only [countsThroughout, hn, Bool.and_eq_true, Bool.not_eq_true'] at hcond
      simp only [System.past, hn]
      apply sane_append.mpr
      refine ⟨?_, ih hcond.2⟩
      cases l with
      | step t' ch =>
        simp only [System.own]
        split
        · next ht =>
          subst ht
          rw [sane_one]
          exact (Bool.or_eq_false_iff.mp hcond.1).1
        · exact sane_nil
      | _ => exact sane_nil

/-- A `cancelOrder` that has thrown had claimed nothing. -/
theorem Reaches.unclaimed (h : Reaches c b moves s) (hcrash : ∀ t, .crash t ∉ moves)
    (hcond : countsThroughout (.init (.initial c b)) moves = true) {id : OrderId} {u : UserId}
    {e : AppError} (ht : s.threads t = some (.cancelOrder id u, .running (.ret (.error e)))) :
    ¬Claimant t (memory c b moves t) := by
  induction moves using List.reverseRecOn generalizing s with
  | nil =>
    intro ⟨x, hx, _⟩
    cases hx
  | append_singleton ls l ih =>
    obtain ⟨d, hd, hn⟩ := Reaches.snoc.mp h
    rw [countsThroughout_append hd, Bool.and_eq_true] at hcond
    simp only [countsThroughout, hn, Bool.and_true, Bool.not_eq_true'] at hcond
    by_cases hl : ∃ ch, l = .step t ch
    · obtain ⟨ch, rfl⟩ := hl
      have hthrows := (Bool.or_eq_false_iff.mp hcond.2).2
      simp only [throwsAfterClaim, ht] at hthrows
      intro ⟨x, hx, hclaim⟩
      rw [h.claims hx hclaim] at hthrows
      cases hthrows
    · have hforeign : System.Foreign t l := by
        refine ⟨fun ch he => hl ⟨ch, he⟩, ?_⟩
        intro he
        exact hcrash t (by simp [he])
      have hpast : memory c b (ls ++ [l]) t = memory c b ls t := by
        rw [memory, orderSystem.past_snoc hd hn, System.own_foreign hforeign, List.append_nil]
      rw [hpast]
      cases hdt : d.threads t with
      | none =>
        have hfresh : memory c b ls t = [] := hd.recollects.fresh t hdt
        rw [hfresh]
        intro ⟨x, hx, _⟩
        cases hx
      | some x =>
        obtain ⟨k, th⟩ := x
        have hsame := System.next_foreign hforeign hdt hn
        cases hsame.symm.trans ht
        exact ih hd (fun t' hm => hcrash t' (List.mem_append_left _ hm)) hcond.1 hdt

/-- No thread has left the counters off balance. -/
theorem Reaches.balanced (h : Reaches c b moves s) (hcrash : ∀ t, .crash t ∉ moves)
    (hfin : Finished s) (hcond : countsThroughout (.init (.initial c b)) moves = true) (t : Tid)
    (n : Counter) : (memory c b moves t).drift (imbalance n) = 0 := by
  have hrec := reported_orderSystem.run (fun l _ => by cases l <;> trivial) h trivial fun _ => rfl
  cases ht : s.threads t with
  | none =>
    have hfresh : memory c b moves t = [] := hrec.fresh t ht
    rw [hfresh]
    rfl
  | some x =>
    obtain ⟨k, th⟩ := x
    obtain ⟨r, hr⟩ := hfin t k th ht
    obtain hzero | ⟨⟨id, u, e, rfl, rfl⟩, hclaim⟩ := hrec.result hr (sane_past hcond)
    · exact hzero n
    · exact absurd hclaim (h.unclaimed hcrash hcond hr)

/-- In a run in which no transaction is rolled back that had made an order terminal, and no
`cancelOrder` call throws after its claim, the counters match once all calls have returned. -/
theorem failure_counters_match (h : Reaches c b moves s) (hcrash : ∀ t, .crash t ∉ moves)
    (hfin : Finished s) (hcond : countsThroughout (.init (.initial c b)) moves = true) :
    CountersMatch s.shared := by
  apply counters_match_of_balance
  intro n
  have henv : ∀ e w w', orderSystem.env e w = some w' → imbalance n w' = imbalance n w := by
    intro e w w' he
    cases e with
    | relay id =>
      obtain ⟨m, -, rfl⟩ := Option.map_eq_some_iff.mp he
      rfl
    | expire key =>
      cases he
      rfl
  rw [settled_run henv hcrash h fun t => h.balanced hcrash hfin hcond t n]
  have hnone : n.orders (World.initial c b).db.rows = ∅ := by
    rw [Set.eq_empty_iff_forall_notMem]
    intro o ⟨order, hrow, _⟩
    cases hrow
  change ((0 : Nat) : Int) - ((n.orders (World.initial c b).db.rows).ncard : Int) = 0
  rw [hnone, Set.ncard_empty]
  rfl

/-- One order is rejected and another one cancelled. -/
def rejectingAndCancelling : List Move :=
  rejecting ++ call 2 (.createOrder 9 [⟨7, "Widget", 1⟩]) 7 accept ++
    call 3 (.cancelOrder 3 9) 5 accept

theorem failure_counters_match_cancelled : ∃ s, Reaches oneProduct true rejectingAndCancelling s ∧
    s.shared.metrics.count (.terminalState "cancelled") = 1 ∧ CountersMatch s.shared := by
  obtain ⟨s, hs, hobs⟩ := reaches_of_trial rejectingAndCancelling
    (fun s => (s.shared.metrics.count (.terminalState "cancelled"),
      (starts rejectingAndCancelling).all fun x => s.done x.1)) (1, true) (by decide +kernel)
  simp only [Prod.mk.injEq] at hobs
  obtain ⟨hcount, hdone⟩ := hobs
  have hcrash : ∀ t, .crash t ∉ rejectingAndCancelling := by
    simp [rejectingAndCancelling, rejecting, call]
  exact ⟨s, hs, hcount, failure_counters_match hs hcrash (finished_of_starts hs hdone)
    (by decide +kernel)⟩

/-- As `rejecting`, but the `COMMIT` fails. -/
def rejectingInVain : List Move :=
  call 0 (.createOrder 9 [⟨7, "Widget", 8⟩]) 7 accept ++ [.env (.relay 1)] ++
    call 1 (.deliver (message 1 (.created ⟨1, 9, [⟨7, 8⟩]⟩))) 9 accept ++
    [.step 1 { fail := true }, .step 1 {}]

/-- The order is counted as failed and is still pending. -/
theorem not_failure_counters_match : ¬∀ (moves : List Move) (s : Shop),
    Reaches oneProduct true moves s → (∀ t, .crash t ∉ moves) → Finished s →
    CountersMatch s.shared := by
  intro hall
  obtain ⟨s, hs, hobs⟩ := reaches_of_trial rejectingInVain
    (fun s => (s.shared.metrics.count (.terminalState "failed"),
      s.shared.orders.countP fun order => order.status == .failed,
      (starts rejectingInVain).all fun x => s.done x.1)) (1, 0, true) (by decide +kernel)
  simp only [Prod.mk.injEq] at hobs
  obtain ⟨hcount, hrows, hdone⟩ := hobs
  have hcrash : ∀ t, .crash t ∉ rejectingInVain := by
    simp [rejectingInVain, call]
  have hmatch := hall rejectingInVain s hs hcrash (finished_of_starts hs hdone)
  have hfailed := hmatch.terminal .failed "failed" rfl
  rw [hcount, hrows] at hfailed
  cases hfailed

end OrderLifecycle

import OrderLifecycle.Lifecycle.Runs
import OrderLifecycle.Reads.Calls

open Framework

namespace OrderLifecycle

/-! ### Terminal orders do not change -/

section terminal

variable {S : Setting} {t : Tid} {k : Request} {o : OrderId} {f f' : OrderFacts} {row : OrderEntity}

theorem OrderStep.terminal (hs : OrderStep S t k o f f') (ho : f.order = some row)
    (ht : isTerminalStatus row.status = true) : f'.order = some row := by
  have same {row' : OrderEntity} {status : OrderStatus} (h' : f.order = some row')
      (hst : row'.status = status) : isTerminalStatus status = true := by
    cases h'.symm.trans ho
    exact hst ▸ ht
  cases hs with
  | place row' m r absent => exact nomatch absent.symm.trans ho
  | reserve row' n order status => exact nomatch same order status
  | reject row' n m reason order status => exact nomatch same order status
  | pay row' n m u order status => exact nomatch same order status
  | cancel row' n seen u order status =>
    rcases status with hst | hst
    · exact nomatch same order hst
    · exact nomatch same order hst.1
  | restore => exact ho
  | claimLedger => exact ho
  | charge => exact ho
  | decide => exact ho
  | capture row' n m order status => exact nomatch same order status
  | decline row' n m reason order status => exact nomatch same order status
  | complete row' n m order status => exact nomatch same order status

end terminal

variable {c : Catalog} {b : Bool} {moves ls ls' : List Move} {s s' d : Shop} {t : Tid} {o : OrderId}
  {row : OrderEntity}

theorem Reaches.snoc {l : Move} : Reaches c b (ls ++ [l]) s ↔
    ∃ d, Reaches c b ls d ∧ orderSystem.next d l = some s := orderSystem.run_snoc

theorem Reaches.append : Reaches c b (ls ++ ls') s ↔
    ∃ d, Reaches c b ls d ∧ orderSystem.run d ls' = some s := by
  unfold Reaches
  rw [orderSystem.run_append, Option.bind_eq_some_iff]

/-- What each order does in one step of anybody. -/
theorem Reaches.next_order {l : Move} (h : Reaches c b ls s)
    (hn : orderSystem.next s l = some s') (o : OrderId) :
    s'.shared.facts o = s.shared.facts o ∨
      ∃ t k, OrderStep (.any c) t k o (s.shared.facts o) (s'.shared.facts o) := by
  obtain ⟨-, hm⟩ := h.sound_any.next (verified_orderSystem (.any c)) (admits_any l) hn
  rcases hm.cases with he | ⟨hd, hg⟩ | ⟨t, k, th, -, -, hg⟩
  · exact .inl (by rw [he])
  · exact .inl (facts_congr (by rw [hd]) (by rw [hd]) hg o)
  · rcases hg.changes with he | ⟨o', hs, he⟩
    · exact .inl (he o)
    · by_cases e : o = o'
      · subst e
        exact .inr ⟨t, k, hs⟩
      · exact .inl (he o e)

/-- What every step keeps of an order, a run keeps. -/
theorem Reaches.keeps {P : OrderFacts → Prop} (h : Reaches c b ls d)
    (hrun : orderSystem.run d ls' = some s) (hd : P (d.shared.facts o))
    (hstep : ∀ t k f f', OrderStep (.any c) t k o f f' → P f → P f') : P (s.shared.facts o) := by
  induction ls' using List.reverseRecOn generalizing s with
  | nil =>
    cases hrun
    exact hd
  | append_singleton ls' l ih =>
    obtain ⟨e, he, hn⟩ := orderSystem.run_snoc.mp hrun
    have hreach : Reaches c b (ls ++ ls') e := Reaches.append.mpr ⟨d, h, he⟩
    have hpe : P (e.shared.facts o) := ih he
    rcases hreach.next_order hn o with hsame | ⟨t, k, hs⟩
    · exact hsame ▸ hpe
    · exact hstep t k _ _ hs hpe

theorem Reaches.terminal (h : Reaches c b ls d) (hrun : orderSystem.run d ls' = some s)
    (ho : d.shared.order o = some row) (ht : isTerminalStatus row.status = true) :
    s.shared.order o = some row :=
  h.keeps (P := fun f => f.order = some row) hrun ho fun _ _ _ _ hs hp => hs.terminal hp ht

/-! ### Moments of a call -/

/-- What the threads have done so far. -/
abbrev memory (c : Catalog) (b : Bool) (moves : List Move) (t : Tid) : Past World :=
  orderSystem.past t (.init (.initial c b)) moves

theorem Reaches.recollects (h : Reaches c b moves s) :
    Recollects orderSystem readLogic (fun _ => Fills) Idle (fun _ k r h _ => Recounts k r h)
      (memory c b moves) s :=
  recalled_orderSystem.run (fun l _ => by cases l <;> trivial) h trivial fun _ => rfl

/-- A state of the run in which thread `t` was in the middle of its call. -/
def During (c : Catalog) (b : Bool) (moves : List Move) (t : Tid) (w : World) : Prop :=
  ∃ ls ls' d k th, moves = ls ++ ls' ∧ Reaches c b ls d ∧ d.threads t = some (k, th) ∧ th.Active ∧
    d.shared = w

/-- A moment of the past of a call: the run so far and the run since. -/
theorem Reaches.moment (h : Reaches c b moves s) {x : World × World}
    (hx : x ∈ memory c b moves t) : ∃ ls ls' d, moves = ls ++ ls' ∧ Reaches c b ls d ∧
      orderSystem.run d ls' = some s ∧ d.shared = x.1 ∧ During c b moves t x.1 := by
  obtain ⟨ls, ch, ls', d, d', rfl, hrun, hn, hd, -⟩ := orderSystem.mem_past hx
  obtain ⟨d₁, hd₁, hrun'⟩ := Reaches.append.mp h
  cases hd₁.symm.trans hrun
  refine ⟨ls, _, d, rfl, hrun, hrun', hd, ls, .step t ch :: ls', d, ?_⟩
  simp only [System.next] at hn
  split at hn
  · next k β f g ht => exact ⟨k, _, rfl, hrun, ht, trivial, hd⟩
  · cases hn

/-! ### The cache of single orders -/

/-- Every cached order is its row, which is terminal. -/
def Coherent (w : World) : Prop :=
  ∀ o entry, w.cache.order o = some entry →
    ∃ row, w.order o = some row ∧ isTerminalStatus row.status = true ∧ entry = row.toJson

theorem Reaches.coherent (h : Reaches c b moves s) : Coherent s.shared := by
  induction moves using List.reverseRecOn generalizing s with
  | nil =>
    cases h
    exact nofun
  | append_singleton ls l ih =>
    obtain ⟨d, hd, hn⟩ := Reaches.snoc.mp h
    have hcoh : Coherent d.shared := ih hd
    have hrun : orderSystem.run d [l] = some s := orderSystem.run_cons.mpr ⟨s, hn, rfl⟩
    intro o entry he
    have hold (hentry : d.shared.cache.order o = some entry) :
        ∃ row, s.shared.order o = some row ∧ isTerminalStatus row.status = true ∧
          entry = row.toJson := by
      obtain ⟨row, ho, ht, hrow⟩ := hcoh o entry hentry
      exact ⟨row, hd.terminal hrun ho ht, ht, hrow⟩
    cases l with
    | start t k =>
      obtain ⟨-, hm⟩ := hd.sound_any.next (verified_orderSystem (.any c)) (admits_any _) hn
      have hsame : s.shared = d.shared := hm
      exact hold (hsame ▸ he)
    | step t ch =>
      obtain ⟨k, th, -, hfills⟩ := hd.recollects.step trivial hn
      rcases hfills.order o entry he with hentry | ⟨x, hx, row, hrow, ht, hjson⟩
      · exact hold hentry
      · obtain ⟨ls₁, ls₂, e, -, hreach, hsince, hshared, -⟩ := hd.moment hx
        have hrow' : d.shared.order o = some row := by
          apply hreach.terminal hsince _ ht
          rw [hshared]
          exact hrow
        exact ⟨row, hd.terminal hrun hrow' ht, ht, hjson⟩
    | crash t =>
      have hcache : s.shared.cache = d.shared.cache := by
        simp only [System.next] at hn
        split at hn
        · cases hn
          rfl
        · cases hn
      exact hold (hcache ▸ he)
    | env ev =>
      obtain ⟨w, hw, rfl⟩ := Option.map_eq_some_iff.mp hn
      cases ev with
      | relay id =>
        obtain ⟨m, -, rfl⟩ := Option.map_eq_some_iff.mp hw
        exact hold he
      | expire key =>
        cases hw
        exact hold (Cache.del_order he)

/-! ### `getOrderForUser` -/

/-- The same order, timestamps compared as instants. -/
def SameOrder (a a' : OrderEntity) : Prop := a.toJson = a'.toJson

theorem rehydrateOrder_toJson (row : OrderEntity) : SameOrder (rehydrateOrder row.toJson) row := by
  unfold SameOrder rehydrateOrder OrderEntity.toJson
  simp only [Option.map_map]
  rfl

/-- Reads by id: the cache agrees with the rows, and the owner of an order gets it as it was at some
moment of the call. -/
theorem order_reads_current (h : Reaches c b moves s) :
    (∀ o entry, s.shared.cache.order o = some entry → ∃ row, s.shared.order o = some row ∧
      isTerminalStatus row.status = true ∧ entry = row.toJson) ∧
    ∀ t id u reply, Returns s t (.getOrderForUser id u) (.ok reply) →
      ∃ order w row, reply = .order order ∧ During c b moves t w ∧ w.order id = some row ∧
        row.userId = u ∧ SameOrder order row := by
  refine ⟨h.coherent, fun t id u reply hr => ?_⟩
  obtain ⟨order, hreply, x, hx, hread⟩ := h.recollects.result hr
  obtain ⟨ls, ls', d, -, hd, -, hshared, hduring⟩ := h.moment hx
  rcases hread with ⟨hrow, hu⟩ | ⟨entry, hentry, hu, rfl⟩
  · exact ⟨order, x.1, order, hreply, hduring, hrow, hu, rfl⟩
  · obtain ⟨row, hrow, -, rfl⟩ := hd.coherent id entry (hshared ▸ hentry)
    exact ⟨_, x.1, row, hreply, hduring, hshared ▸ hrow, hu, rehydrateOrder_toJson row⟩

/-- The order is completed; then its owner reads it from its row and again from the cache. -/
def reading : List Move :=
  checkout accept ++ [.env (.relay 4)] ++
    call 4 (.deliver (message 4 (.paymentProcessed ⟨1, 9⟩))) 10 accept ++
    call 5 (.getOrderForUser 1 9) 3 accept ++ call 6 (.getOrderForUser 1 9) 1 accept

/-- Whether call 6 has returned order 1 to its owner. -/
def hasRead (s : Shop) : Bool :=
  match s.threads 6 with
  | some (.getOrderForUser 1 9, .running (.ret (.ok _))) => true
  | _ => false

theorem order_reads_current_cached : ∃ s entry, Reaches oneProduct true reading s ∧
    s.shared.cache.order 1 = some entry ∧ (∃ row, s.shared.order 1 = some row ∧
      isTerminalStatus row.status = true ∧ entry = row.toJson) ∧
    ∃ order w row, Returns s 6 (.getOrderForUser 1 9) (.ok (.order order)) ∧
      During oneProduct true reading 6 w ∧ w.order 1 = some row ∧ SameOrder order row := by
  obtain ⟨s, hs, hobs⟩ := reaches_of_trial reading
    (fun s => ((s.shared.cache.order 1).isSome, hasRead s)) (true, true) (by decide +kernel)
  obtain ⟨hcached, hreturned⟩ := Prod.mk.inj hobs
  obtain ⟨entry, hentry⟩ := Option.isSome_iff_exists.mp hcached
  obtain ⟨hcache, hreads⟩ := order_reads_current hs
  refine ⟨s, entry, hs, hentry, hcache 1 entry hentry, ?_⟩
  simp only [hasRead] at hreturned
  split at hreturned
  · next reply ht =>
    obtain ⟨order, w, row, rfl, hduring, hrow, -, hsame⟩ := hreads 6 1 9 reply ht
    exact ⟨order, w, row, ht, hduring, hrow, hsame⟩
  · cases hreturned

end OrderLifecycle

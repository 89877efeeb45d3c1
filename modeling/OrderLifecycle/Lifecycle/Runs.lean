import OrderLifecycle.Lifecycle.Verification

open Framework

namespace OrderLifecycle

/-! ### Runs of the order system -/

abbrev Shop := Config World Choice Request (Except AppError Reply)
abbrev Move := Label Choice Request EnvEvent

/-- A run from an empty shop. -/
def Reaches (c : Catalog) (cacheEnabled : Bool) (moves : List Move) (s : Shop) : Prop :=
  orderSystem.run (.init (.initial c cacheEnabled)) moves = some s

/-- No statement fails and no thread dies; the payment provider may throw. -/
def FaultFree : Move → Prop
  | .step _ ch => ch.fail = false
  | .crash _ => False
  | _ => True

instance (l : Move) : Decidable (FaultFree l) := by
  cases l with
  | step _ ch => exact inferInstanceAs (Decidable (ch.fail = false))
  | crash _ => exact inferInstanceAs (Decidable False)
  | _ => exact inferInstanceAs (Decidable True)

/-- The call of thread `t` has returned `r`. -/
def Returns (s : Shop) (t : Tid) (k : Request) (r : Except AppError Reply) : Prop :=
  s.threads t = some (k, .running (.ret r))

/-- Every call has returned. -/
def Finished (s : Shop) : Prop :=
  ∀ t k th, s.threads t = some (k, th) → ∃ r, Returns s t k r

/-- The calls made in a run. -/
def starts (moves : List Move) : List (Tid × Request) :=
  moves.filterMap fun
    | .start t k => some (t, k)
    | _ => none

def Shop.done (s : Shop) (t : Tid) : Bool :=
  match s.threads t with
  | some (_, .running (.ret _)) => true
  | _ => false

variable {S : Setting} {c : Catalog} {b : Bool} {moves : List Move} {s : Shop}

theorem inv_initial (S : Setting) (b : Bool) : Inv S (.initial S.catalog b) where
  accounts := accounts_initial S.catalog b
  orders _ :=
    ⟨fun _ => ⟨fun _ => Set.eq_empty_iff_forall_notMem.mpr fun _ h => (nomatch h.1), rfl,
      fun ⟨_, _, h⟩ => (nomatch h), fun _ => rfl, rfl⟩, fun _ h => (nomatch h)⟩
  outbox _ _ h := nomatch h
  messages _ h := nomatch h
  cache _ _ h := nomatch h

theorem untouched_initial (c : Catalog) (b : Bool) (t : Tid) : Untouched t (.initial c b) :=
  ⟨rfl, fun _ _ h => nomatch h⟩

theorem mem_starts {t : Tid} {k : Request} : (t, k) ∈ starts moves ↔ .start t k ∈ moves := by
  unfold starts
  rw [List.mem_filterMap]
  constructor
  · rintro ⟨l, hl, h⟩
    cases l <;> cases h
    exact hl
  · exact fun h => ⟨_, h, rfl⟩

theorem finished_of_starts (h : Reaches c b moves s)
    (hdone : (starts moves).all (fun x => s.done x.1) = true) : Finished s := by
  intro t k th ht
  by_cases hm : ∃ k, (t, k) ∈ starts moves
  · obtain ⟨k', hk'⟩ := hm
    have hd := List.all_eq_true.mp hdone _ hk'
    simp only [Shop.done, ht] at hd
    split at hd
    · next he =>
      cases he
      exact ⟨_, ht⟩
    · cases hd
  · have hn := orderSystem.run_thread_none (fun k hk => hm ⟨k, mem_starts.mpr hk⟩) h rfl
    exact nomatch hn.symm.trans ht

/-- Every reachable state is as the logic says. -/
theorem Reaches.sound (h : Reaches S.catalog b moves s)
    (hl : ∀ l ∈ moves, (orderLogic S).Admits l) :
    Sound (orderLogic S) Untouched (Returned S) s :=
  .run (verified_orderSystem S) hl h (.init (inv_initial S b) (untouched_initial S.catalog b))

/-- Nothing assumed of the provider, nor of faults. -/
def Setting.any (c : Catalog) : Setting := ⟨c, none, True⟩

theorem admits_any (l : Move) : (orderLogic (.any c)).Admits l := by
  cases l with
  | step t ch => exact ⟨fun _ h => (nomatch h), fun h => absurd trivial h⟩
  | _ => exact trivial

theorem Reaches.sound_any (h : Reaches c b moves s) :
    Sound (orderLogic (.any c)) Untouched (Returned (.any c)) s :=
  Reaches.sound (S := .any c) h fun l _ => admits_any l

theorem Reaches.orders (h : Reaches c b moves s) (o : OrderId) :
    OrderInv (.any c) o (s.shared.facts o) :=
  h.sound_any.inv.orders o

theorem Reaches.present (h : Reaches c b moves s) {o : OrderId} {row : OrderEntity}
    (ho : s.shared.order o = some row) : Present (.any c) o row (s.shared.facts o) :=
  (h.orders o).present row ho

/-- Whoever has a claim is a call that makes such claims. -/
theorem Reaches.claimant (h : Reaches c b moves s) {o : OrderId} {t : Tid} {d : Deed}
    (hd : (t, d) ∈ (s.shared.facts o).claims) :
    ∃ k th, s.threads t = some (k, th) ∧ d.MadeBy k := by
  have key : Sound (orderLogic (.any c)) Untouched (Returned (.any c)) s ∧
      ∀ o t d, (t, d) ∈ (s.shared.facts o).claims →
        ∃ k th, s.threads t = some (k, th) ∧ d.MadeBy k := by
    refine orderSystem.run_induct (A := fun _ => True) (P := fun s : Shop =>
      Sound (orderLogic (.any c)) Untouched (Returned (.any c)) s ∧
        ∀ o t d, (t, d) ∈ (s.shared.facts o).claims →
          ∃ k th, s.threads t = some (k, th) ∧ d.MadeBy k) ?_ (fun _ _ => trivial) h
      ⟨.init (inv_initial (.any c) b) (untouched_initial c b), fun _ _ _ h => (nomatch h)⟩
    intro s s' l _ hn ⟨hs, hc⟩
    obtain ⟨hs', hm⟩ := hs.next (verified_orderSystem (.any c)) (admits_any l) hn
    refine ⟨hs', fun o t d hd => ?_⟩
    have old (hd : (t, d) ∈ (s.shared.facts o).claims) :
        ∃ k th, s'.threads t = some (k, th) ∧ d.MadeBy k := by
      obtain ⟨k, th, ht, hk⟩ := hc o t d hd
      obtain ⟨th', ht'⟩ := orderSystem.next_call hn ht
      exact ⟨k, th', ht', hk⟩
    rcases hm.cases with he | ⟨hd', hg⟩ | ⟨t', k, th, ht, -, hg⟩
    · exact old (he ▸ hd)
    · rw [facts_congr (by rw [hd']) (by rw [hd']) hg o] at hd
      exact old hd
    · rcases hg.changes with he | ⟨o', hstep, he⟩
      · exact old (he o ▸ hd)
      · by_cases e : o = o'
        · subst e
          rcases hstep.claims_by hd with hd | ⟨rfl, hk⟩
          · exact old hd
          · obtain ⟨th', ht'⟩ := orderSystem.next_call hn ht
            exact ⟨k, th', ht', hk⟩
        · exact old (he o e ▸ hd)
  exact key.2 o t d hd

/-- Nobody is in a transaction when none of the threads started is. -/
theorem Reaches.idle {c : Catalog} {b : Bool} {moves : List Move} {s : Shop} (h : Reaches c b moves s)
    {n : Nat} (hstarted : ∀ x ∈ starts moves, x.1 < n)
    (hidle : ((List.range n).all fun t => (s.shared.db.txns t).isNone) = true) (t : Tid) :
    s.shared.db.txns t = none := by
  by_cases ht : t < n
  · have hmem : t ∈ List.range n := List.mem_range.mpr ht
    exact Option.isNone_iff_eq_none.mp (List.all_eq_true.mp hidle t hmem)
  · have hnone : s.threads t = none := by
      apply orderSystem.run_thread_none _ h rfl
      intro k hk
      exact ht (hstarted (t, k) (mem_starts.mpr hk))
    exact (h.sound_any.fresh t hnone).1

/-! ### The life of one order, to try things on -/

/-- A shop that sells one product. -/
def oneProduct : Catalog := ⟨[(7, ⟨"Widget", 5, true⟩)], by decide, by decide⟩

/-- Call `k` in thread `t`, run for `n` statements without a break. -/
def call (t : Tid) (k : Request) (n : Nat) (answer : PaymentResult) : List Move :=
  .start t k :: List.replicate n (.step t { fresh := t + 1, answer := fun _ => answer })

def accept : PaymentResult := ⟨true, none⟩

def decline : PaymentResult := ⟨false, some "insufficient_funds"⟩

def message (id : Uuid) (e : OrderEvent) : OutboxMessageEntity :=
  ⟨id, orderExchange, e.routingKey, e, 0⟩

/-- User 9 orders three of the five pieces. -/
def placing : List Move := call 0 (.createOrder 9 [⟨7, "Widget", 3⟩]) 7 accept ++ [.env (.relay 1)]

def reserving : List Move := call 1 (.deliver (message 1 (.created ⟨1, 9, [⟨7, 3⟩]⟩))) 10 accept

def paying : List Move := call 2 (.initiatePayment 1 9) 8 accept ++ [.env (.relay 3)]

def authorizing (answer : PaymentResult) : List Move :=
  call 3 (.deliver (message 3 (.inventoryReserved ⟨1, 9⟩))) 14 answer

/-- The order up to the answer of the payment provider. -/
def checkout (answer : PaymentResult) : List Move :=
  placing ++ reserving ++ paying ++ authorizing answer

/-- Where the moves lead from the shop with one product. -/
def trial (moves : List Move) : Option Shop :=
  orderSystem.run (.init (.initial oneProduct true)) moves

theorem reaches_of_trial {α : Type} (moves : List Move) (f : Shop → α) (a : α)
    (h : (trial moves).map f = some a) : ∃ s, Reaches oneProduct true moves s ∧ f s = a :=
  Option.map_eq_some_iff.mp h

end OrderLifecycle

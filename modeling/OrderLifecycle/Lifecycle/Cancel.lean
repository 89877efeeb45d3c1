import OrderLifecycle.Lifecycle.OrderServices

open Framework

namespace OrderLifecycle

variable {S : Setting} {t : Tid} {k : Request} {w w' : World} {o : OrderId} {u : UserId}
  {seen found : OrderStatus} {rest : List StockLine}

/-! ### What the claim of a cancel settles -/

/-- `t` has no claim on the order. -/
def Unclaimed (t : Tid) (o : OrderId) (w : World) : Prop := ∀ d, (t, d) ∉ (w.facts o).claims

theorem stable_unclaimed : (orderLogic S).Stable t (Unclaimed t o) := by
  intro w w' hr h d hd
  rcases facts_of_rely hr o with he | ⟨t', k, ht, hs⟩
  · rw [he] at hd
    exact h d hd
  · rcases hs.claims_by hd with hd | hd
    · exact h d hd
    · exact ht hd.1.symm

/-- The order is being cancelled by `t`, and owes the stock of `rest` if its call had seen it
reserved. -/
structure Cancelling (S : Setting) (t : Tid) (o : OrderId) (seen : OrderStatus)
    (rest : List StockLine) (w : World) : Prop where
  idle : Idle t w
  claim : ∃ found, (w.facts o).claims = [(t, .cancelClaimed o seen found)] ∧
    (seen = .reserved → found = .reserved)
  owed : seen = .reserved → ∀ p, (w.facts o).net p = -quantityOf rest p
  known : seen = .reserved → ∀ line ∈ rest, S.catalog.find line.productId ≠ none

/-- The order was cancelled by `t`, and has its stock back if the call had seen it reserved. -/
def CancelledBy (t : Tid) (o : OrderId) (w : World) : Prop :=
  ∃ seen found, (w.facts o).claims = [(t, .cancelClaimed o seen found)] ∧
    (seen = .reserved → ∀ p, (w.facts o).net p = 0)

/-- From the claim on, nobody else touches the claims or the stock of the order. -/
theorem settled_of_rely (hr : (orderLogic S).rely t w w')
    (hc : (w.facts o).claims = [(t, .cancelClaimed o seen found)]) :
    (w'.facts o).claims = (w.facts o).claims ∧ (w'.facts o).net = (w.facts o).net := by
  have hi := hr.1.orders o
  rcases facts_of_rely hr o with he | ⟨t', k, ht, hs⟩
  · rw [he]
    exact ⟨rfl, rfl⟩
  · cases hrow : (w.facts o).order with
    | none => simp [(hi.absent hrow).claims] at hc
    | some row =>
      have hp := hi.present row hrow
      exact ⟨hs.claims_of_cancelled hrow (hp.cancelled_of_claim hc),
        hs.net_of_cancelled hp hrow hc ht⟩

theorem stable_cancelling : (orderLogic S).Stable t (Cancelling S t o seen rest) := by
  intro w w' hr ⟨hidle, ⟨found, hc, hf⟩, howed, hknown⟩
  obtain ⟨hclaims, hnet⟩ := settled_of_rely hr hc
  exact ⟨stable_idle w w' hr hidle, ⟨found, hclaims.trans hc, hf⟩, by rwa [hnet], hknown⟩

theorem stable_cancelledBy : (orderLogic S).Stable t (CancelledBy t o) := by
  intro w w' hr ⟨seen, found, hc, hb⟩
  obtain ⟨hclaims, hnet⟩ := settled_of_rely hr hc
  exact ⟨seen, found, hclaims.trans hc, by rwa [hnet]⟩

theorem Cancelling.done (h : Cancelling S t o seen [] w) : CancelledBy t o w := by
  obtain ⟨found, hc, -⟩ := h.claim
  exact ⟨seen, found, hc, fun hs p => by simp [h.owed hs p, quantityOf_nil]⟩

theorem Cancelling.pending (h : Cancelling S t o seen rest w) (hs : seen ≠ .reserved) :
    CancelledBy t o w := by
  obtain ⟨found, hc, -⟩ := h.claim
  exact ⟨seen, found, hc, fun hr => absurd hr hs⟩

/-! ### `cancelOrder` -/

/-- A draft with an order row and no event. -/
theorem Draft.apply_order {D : Draft} {row : OrderEntity} {r : Prop} {f : OrderFacts}
    (ho : D.order = some (o, row)) (he : D.event = none) (ha : D.authorization = none) :
    D.apply o r f = { f.setOrder row with
      reserved := r
      net := fun p => f.net p + netChange D.journal o p
      claims := f.claims ++ D.journal.filter fun d => d.2.claims o } := by
  simp only [apply, ho, he, ha, OrderFacts.setOrder, if_true]

/-- The claim finds the order as it was seen, or reserved since. -/
theorem hoare_claimCancel {order : OrderEntity} (hk : k = .cancelOrder o u)
    (hseen : order.status = .pending ∨ order.status = .reserved) :
    Hoare (orderLogic S) t k (fun w => (Idle t w ∧ Unclaimed t o w) ∧ Seen o order w)
      (claimCancel o order.status)
      (fun n w => (n = 0 ∧ Unclaimed t o w) ∨
        (n = 1 ∧ Cancelling S t o order.status order.lines w))
      (fun _ _ => S.faulty) := by
  refine hoare_sql ((stable_idle.and stable_unclaimed).and lasting_seen.stable)
    (fun w h => h.1.1.not_aborted) (fun _ _ hf => hf) ?_
  intro w ch r w' hi _ ⟨⟨hidle, hun⟩, hs⟩ hf
  obtain ⟨⟨n, db⟩, hu, he⟩ := Option.map_eq_some_iff.mp hf
  cases he
  rcases Store.update_cases hu with ⟨rfl, rfl, -⟩ | ⟨rfl, row, hfree, hv, hp, rfl⟩
  · exact ⟨hi, ⟨.refl, .inl fun _ => rfl⟩, .inl ⟨rfl, hun⟩⟩
  rw [Store.view_idle hidle] at hv
  have horder : (w.facts o).order = some row := hv
  have hpres := (hi.orders o).present row horder
  have hst : row.status = .pending ∨ row.status = .reserved ∧ row.paymentInitiatedAt = none := by
    simpa using hp
  have hunpaid : row.paymentInitiatedAt = none := hst.elim hpres.status.unpaid And.right
  obtain ⟨row', hrow', -, hitems, hnp⟩ := hs.row
  obtain rfl := Option.some.inj (hrow'.symm.trans horder)
  have hfound (hr : order.status = .reserved) : row'.status = .reserved :=
    (hst.resolve_left (hnp hr)).1
  have hle : order.status = .pending ∨ order.status = .reserved ∧ row'.status = .reserved :=
    hseen.imp_right fun hr => ⟨hr, hfound hr⟩
  let D : Draft := { Draft.empty with
    order := some (o, row'.move .cancelled ch.now)
    journal := [(t, .cancelClaimed o order.status row'.status)] }
  have hc : Commits D w { w with
      db := w.db.put t (.order o) (some (row'.move .cancelled ch.now)) D.journal hfree } :=
    hidle.commits_put hfree w.gateway (fun _ => Iff.rfl)
      (fun k' _ => Draft.writes_setOrder (D := .empty) (fun _ h => nomatch h) k') fun _ h => nomatch h
  have habout : D.About o := by
    refine ⟨?_, fun _ h => (nomatch h), fun _ h => (nomatch h), fun d hd => ?_⟩
    · rintro x ⟨⟩
      rfl
    · rw [List.mem_singleton.mp hd]
      exact rfl
  have hr := hc.reserved_same (o := o) (fun _ h => nomatch h) fun _ h => nomatch h
  have hstep : OrderStep S t k o (w.facts o) (D.apply o (w.facts o).reserved (w.facts o)) := by
    rw [Draft.apply_order rfl rfl rfl]
    have := OrderStep.cancel (S := S) (t := t) (k := k) (w.facts o) row' ch.now order.status u
      horder hst hle hk
    simpa [D, Deed.delta, Deed.claims] using this
  obtain ⟨hi', hg⟩ := hc.next hi habout (fun _ h => nomatch h) (hr ▸ hstep) (Store.put_frame (h := hfree))
    (hi.accounts.put_tracked hfree rfl fun p => by simp [D, Deed.moved]) rfl rfl
  have hlines : row'.lines = order.lines := by rw [OrderEntity.lines, hitems]; rfl
  have hnone := hpres.claims.unclaimed hunpaid (by rcases hst with h | h <;> simp [h])
  refine ⟨hi', hg, .inr ⟨rfl, hidle.put hfree w.gateway,
    ⟨row'.status, (hc.claims o).trans ?_, hfound⟩, fun hr p => (hc.net o p).trans ?_,
    fun hr line hl => ?_⟩⟩
  · simp [hnone, D, Deed.claims]
  · have hnet := hpres.stock.holds (.of_reserved (hfound hr)) p
    simpa [D, Deed.delta, hlines] using hnet
  · exact hpres.stock.known (.of_reserved (hfound hr)) line (hlines ▸ hl)

/-- One line goes back, outside any transaction. -/
theorem hoare_increment_idle {line : StockLine} :
    Hoare (orderLogic S) t k (Cancelling S t o .reserved (line :: rest)) (incrementStock o line)
      (fun _ => Cancelling S t o .reserved rest) (fun _ _ => S.faulty) := by
  refine hoare_sql stable_cancelling (fun w h => h.idle.not_aborted) (fun _ _ hf => hf) ?_
  intro w ch r w' hi _ ⟨hidle, ⟨found, hclaim, hfound⟩, howed, hknown⟩ hf
  obtain ⟨⟨n, db⟩, hu, he⟩ := Option.map_eq_some_iff.mp hf
  cases he
  rcases hi.accounts.view t line.productId with ⟨-, hn⟩ | ⟨row, hrow, -, hpos⟩
  · exact absurd hn (hknown rfl line (by simp))
  rcases Store.update_cases hu with ⟨rfl, rfl, hnone⟩ | ⟨rfl, row', hfree, hv, -, rfl⟩
  · exact absurd (hnone row hrow) (by simp)
  rw [hrow] at hv
  cases hv
  let D : Draft := .ofJournal (given t o [line])
  have hc : Commits D w { w with
      db := w.db.put t (.product line.productId)
        (some { row with stock := row.stock + line.quantity }) D.journal hfree } := by
    refine hidle.commits_put hfree w.gateway (fun _ => Iff.rfl) (fun k' hk' => ?_)
      fun _ h => nomatch h
    rw [Function.update_of_ne (tracked_ne hk' _).symm]
    cases k' <;> rfl
  have habout : D.About o :=
    ⟨fun _ h => (nomatch h), fun _ h => (nomatch h), fun _ h => (nomatch h), (moved_given [line]).about⟩
  have hr := hc.reserved_same (o := o) (fun _ h => nomatch h) fun _ h => nomatch h
  have hnet (p : ProductId) : (w.facts o).net p = -quantityOf (line :: rest) p := howed rfl p
  have happly : D.apply o (w.facts o).reserved (w.facts o) = { w.facts o with
      net := Function.update (w.facts o).net line.productId
        ((w.facts o).net line.productId + (line.quantity : Int)) } := by
    refine OrderFacts.mk.injEq .. |>.mpr ⟨rfl, rfl, rfl, rfl, rfl, funext fun p => ?_, ?_⟩
    · by_cases e : p = line.productId
      · subst e
        simp [D, Draft.ofJournal, given, Deed.delta]
      · rw [Function.update_of_ne e]
        simp [D, Draft.ofJournal, given, Deed.delta, Ne.symm e]
    · simp [D, Draft.ofJournal, given, Deed.claims]
  have hstep : OrderStep S t k o (w.facts o) (D.apply o (w.facts o).reserved (w.facts o)) := by
    rw [happly]
    refine .restore (w.facts o) line (by rw [hclaim, hfound rfl]) ?_
    rw [hnet, quantityOf_cons, if_pos rfl]
    omega
  obtain ⟨hi', hg⟩ := hc.next hi habout (fun _ h => nomatch h) (hr ▸ hstep) (Store.put_frame (h := hfree))
    (hi.accounts.put_product hfree hrow (by simp [D, Draft.ofJournal, given, Deed.moved])
      (by simp only; omega) fun q hq => moved_stock_other _ _ hq) rfl rfl
  refine ⟨hi', hg, hidle.put hfree w.gateway, ⟨found, (hc.claims o).trans ?_, hfound⟩,
    fun _ p => (hc.net o p).trans ?_, fun _ l hl => hknown rfl l (List.mem_cons_of_mem _ hl)⟩
  · simpa [D, Draft.ofJournal, given, Deed.claims] using hclaim
  · rw [hnet, quantityOf_cons]
    simp only [D, Draft.ofJournal, (moved_given [line]).net p, quantityOf_cons, quantityOf_nil]
    omega

theorem hoare_restoreStock_idle {lines : List StockLine} :
    Hoare (orderLogic S) t k (Cancelling S t o .reserved lines) (restoreStock o lines)
      (fun _ => Cancelling S t o .reserved []) (fun _ _ => S.faulty) := by
  induction lines with
  | nil => exact hoare_pure fun _ h => h
  | cons line lines ih => exact hoare_bind hoare_increment_idle fun _ => ih

/-- A cancel that succeeds gives back all that the order holds, if it saw it reserved; one that
fails of itself leaves no claim. -/
theorem hoare_cancelOrder {id : OrderId} (hk : k = .cancelOrder id u) :
    Hoare (orderLogic S) t k (fun w => Idle t w ∧ Unclaimed t id w) (cancelOrder id u)
      (fun _ => CancelledBy t id) (fun _ w => ¬S.faulty → Unclaimed t id w) := by
  have hfault {α : Type} {P : World → Prop} {x : Service α} {Q : α → World → Prop}
      (h : Hoare (orderLogic S) t k P x Q fun _ _ => S.faulty) :
      Hoare (orderLogic S) t k P x Q fun _ w => ¬S.faulty → Unclaimed t id w :=
    hoare_conseq h (fun _ h => h) (fun _ _ h => h) fun _ _ hf hn => absurd hf hn
  refine hoare_bind (hoare_conseq (hoare_getOrderForUser (stable_idle.and stable_unclaimed)
    (fun _ h => h.1) id u) (fun _ h => h) (fun _ _ h => h) fun _ _ h _ => h.2) fun order => ?_
  refine hoare_ite (fun _ => hoare_throw fun _ h _ => h.2.2) fun hcan => ?_
  have hst : order.status = .pending ∨ order.status = .reserved := by
    simp only [Bool.not_eq_false, Bool.or_eq_true, Bool.and_eq_true, beq_iff_eq] at hcan
    exact hcan.imp_right And.left
  have hseen : ∀ w, (isTerminalStatus order.status = true ∨ Seen id order w) ∧
      Idle t w ∧ Unclaimed t id w → (Idle t w ∧ Unclaimed t id w) ∧ Seen id order w := by
    refine fun w h => ⟨h.2, h.1.resolve_left fun ht => ?_⟩
    rcases hst with h | h <;> (rw [h] at ht; cases ht)
  refine hoare_bind (hoare_pre hseen (hfault (hoare_claimCancel hk hst))) fun n => ?_
  refine hoare_or (hoare_fact fun hn => ?_) (hoare_fact fun hn => ?_)
  · rw [if_pos hn]
    exact hoare_throw fun _ h _ => h
  · rw [if_neg (by omega)]
    refine hoare_bind (Q := fun _ => CancelledBy t id) ?_ fun _ => ?_
    · by_cases hr : order.status = .reserved
      · rw [if_pos (by simpa using hr), hr]
        exact hoare_conseq (hfault hoare_restoreStock_idle) (fun _ h => h) (fun _ _ h => h.done)
          fun _ _ h => h
      · rw [if_neg (by simpa using hr)]
        exact hoare_pure fun _ h => h.pending hr
    · refine hoare_bind (hoare_recordMetric stable_cancelledBy _) fun _ => ?_
      exact hoare_bind (hoare_cacheDel stable_cancelledBy _) fun _ => hoare_pure fun _ h => h

end OrderLifecycle

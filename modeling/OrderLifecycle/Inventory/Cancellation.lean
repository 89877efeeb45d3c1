import OrderLifecycle.Inventory.AllOrNothing
import OrderLifecycle.Reads.Coherence

open Framework

namespace OrderLifecycle.Alone

/-- Statement `i` fails, or the process stops before it. -/
def Faulty (ch : Nat → Choice) (dies : Option Nat) (i : Nat) : Prop :=
  (ch i).fail = true ∨ dies = some i

/-- Either the order is cancelled and every line is back in stock, or orders and stock are as they
were. -/
def CancelledOrUntouched (orderId : OrderId) (order : OrderEntity) (w w' : World) : Prop :=
  ((w'.order orderId).map (·.status) = some .cancelled ∧
    ∀ p, w'.product p = withStock (quantityOf order.lines p) (w.product p)) ∨
  (w'.order = w.order ∧ w'.product = w.product)

/-- The rows after the claim and the first `k` of the lines. -/
def partly (V₀ : Rows) (orderId : OrderId) (order : OrderEntity) (now k : Nat) : Rows :=
  restocked (fun p => (quantityOf (order.lines.take k) p : Int))
    (stepped V₀ order .cancelled now orderId)

/-- Nothing is claimed: the payment was initiated, or the order is not read or not claimed. -/
def Unclaimed (ch : Nat → Choice) (dies : Option Nat) (order : OrderEntity) : Prop :=
  order.paymentInitiatedAt ≠ none ∨ dies = some 0 ∨ Faulty ch dies 1 ∨ Faulty ch dies 2

/-- How far the call gets: the lines are statements 3, 4 and so on. -/
def Got (ch : Nat → Choice) (dies : Option Nat) (orderId : OrderId) (order : OrderEntity)
    (V₀ V : Rows) : Prop :=
  (Unclaimed ch dies order ∧ V = V₀) ∨
    (¬Unclaimed ch dies order ∧ ∃ now k, k ≤ order.lines.length ∧
      (k = order.lines.length ∨ Faulty ch dies (3 + k)) ∧ (∀ j, j < k → ¬Faulty ch dies (3 + j)) ∧
      V = partly V₀ orderId order now k)

section solo

variable {w₀ : World} {t : Tid} {ch : Nat → Choice} {dies : Option Nat} {D : Nat → World → Prop}
  {i : Nat} {orderId : OrderId} {V : Rows} {order : OrderEntity} {line : StockLine}

theorem settled_incrementStock (hd : ∀ w, Settled V w → dies = some i → D i w) :
    Solo t ch dies D i (Settled V) (incrementStock orderId line)
      (fun _ j w => (ch i).fail = false ∧ j = i + 1 ∧ Settled
        (restocked (fun p => if line.productId = p then (line.quantity : Int) else 0) V) w)
      fun _ _ w => (ch i).fail = true ∧ Settled V w := by
  cases hx : V (.product line.productId) with
  | none =>
    apply solo_conseq (settled_updateRow_miss hd hx) (fun _ hw => hw) ?_
      (fun _ _ _ _ hw => hw.2) (fun _ _ _ _ hw => hw)
    intro _ _ w _ ⟨hf, _, hj, hw⟩
    rw [restocked_missing _ hx]
    exact ⟨hf, hj, hw⟩
  | some x =>
    apply solo_conseq (settled_updateRow_hit hd hx rfl) (fun _ hw => hw) ?_
      (fun _ _ _ _ hw => hw.2) (fun _ _ _ _ hw => hw)
    intro _ _ w _ ⟨hf, _, hj, hw⟩
    rw [← update_product _ hx]
    exact ⟨hf, hj, hw⟩

/-- `restoreStock` outside a transaction, from statement `i` on: the lines before the first fault
are back. -/
theorem settled_restoreStock (lines : List StockLine)
    (hD : ∀ k w, k < lines.length → dies = some (i + k) → (∀ j, j < k → ¬Faulty ch dies (i + j)) →
      Settled (restocked (fun p => (quantityOf (lines.take k) p : Int)) V) w → D (i + k) w) :
    Solo t ch dies D i (Settled V) (restoreStock orderId lines)
      (fun _ j w => j = i + lines.length ∧ (∀ l, l < lines.length → ¬Faulty ch dies (i + l)) ∧
        Settled (restocked (fun p => (quantityOf lines p : Int)) V) w)
      fun _ _ w => ∃ k, k < lines.length ∧ (ch (i + k)).fail = true ∧
        (∀ l, l < k → ¬Faulty ch dies (i + l)) ∧
        Settled (restocked (fun p => (quantityOf (lines.take k) p : Int)) V) w := by
  induction lines generalizing i V with
  | nil =>
    apply solo_pure
    intro w hw
    exact ⟨rfl, nofun, restocked_zero.symm ▸ hw⟩
  | cons line lines ih =>
    let one (p : ProductId) : Int := if line.productId = p then (line.quantity : Int) else 0
    -- the first line and `k` of the others
    have hcons (k : Nat) : restocked (fun p => (quantityOf (lines.take k) p : Int)) (restocked one V) =
        restocked (fun p => (quantityOf ((line :: lines).take (k + 1)) p : Int)) V := by
      rw [restocked_restocked, List.take_succ_cons]
      congr 1
      funext p
      rw [quantityOf_cons]
      simp only [one]
      split <;> simp
    have hnone {w : World} (hw : Settled V w) : Settled
        (restocked (fun p => (quantityOf ((line :: lines).take 0) p : Int)) V) w :=
      restocked_zero.symm ▸ hw
    have hfirst (hf : (ch i).fail = false) (hdies : dies ≠ some i) {k : Nat}
        (hrest : ∀ l, l < k → ¬Faulty ch dies (i + 1 + l)) :
        ∀ l, l < k + 1 → ¬Faulty ch dies (i + l) := by
      intro l hl
      cases l with
      | zero =>
        rintro (hfail | hdead)
        · exact nomatch hf.symm.trans hfail
        · exact hdies hdead
      | succ l =>
        have hl' := hrest l (Nat.lt_of_succ_lt_succ hl)
        rwa [show i + (l + 1) = i + 1 + l by omega]
    apply solo_bind
    · apply solo_conseq (settled_incrementStock fun w hw hdies =>
          hD 0 w (Nat.succ_pos _) hdies nofun (hnone hw)) (fun _ hw => hw) (fun _ _ _ _ hw => hw) ?_
        (fun _ _ _ _ hw => hw)
      intro _ _ w _ ⟨hf, hw⟩
      exact ⟨0, Nat.succ_pos _, hf, nofun, hnone hw⟩
    · intro _ j hsurv
      apply solo_fact
      intro hf
      apply solo_fact
      rintro rfl
      have hdies : dies ≠ some i := by
        intro hdead
        have hle := hsurv.2 i hdead (Nat.le_refl i)
        omega
      apply solo_conseq (ih ?_) (fun _ hw => hw) ?_ ?_ (fun _ _ _ _ hw => hw)
      · intro k w hk hdead hbefore hw
        rw [show i + 1 + k = i + (k + 1) by omega] at hdead ⊢
        exact hD (k + 1) w (Nat.succ_lt_succ hk) hdead (hfirst hf hdies hbefore) (hcons k ▸ hw)
      · intro _ j w _ ⟨hj, hbefore, hw⟩
        have hall := hcons lines.length
        rw [List.take_length, ← List.length_cons, List.take_length] at hall
        refine ⟨?_, hfirst hf hdies hbefore, hall ▸ hw⟩
        rw [List.length_cons]
        omega
      · intro _ _ w _ ⟨k, hk, hfail, hbefore, hw⟩
        refine ⟨k + 1, Nat.succ_lt_succ hk, ?_, hfirst hf hdies hbefore, hcons k ▸ hw⟩
        rwa [show i + (k + 1) = i + 1 + k by omega]

/-- The order is read from its row. -/
theorem solo_getOrderForUser (hidle : Idle w₀) (hrow : w₀.order orderId = some order)
    (hreserved : order.status = .reserved) (hmiss : w₀.cache.order orderId = none)
    (hD : ∀ j w, dies = some j → j < 2 → w.db.rows = w₀.db.rows → D j w) :
    Solo t ch dies D 0 (fun w => w = w₀) (getOrderForUser orderId order.userId)
      (fun found j w => j = 2 ∧ (ch 1).fail = false ∧ found = order ∧ Settled w₀.db.rows w)
      fun _ _ w => (ch 1).fail = true ∧ Settled w₀.db.rows w := by
  apply solo_bind (Q := fun cached j w => j = 1 ∧ cached = none ∧ Settled w₀.db.rows w)
  · apply solo_stmt
    · rintro w rfl hdies
      exact hD 0 w hdies (by decide) rfl
    · rintro w rfl
      refine ⟨.ok none, w, ?_, rfl, rfl, hidle, rfl⟩
      rw [hmiss, ite_self]
  · intro cached j _
    apply solo_fact
    rintro rfl
    apply solo_fact
    rintro rfl
    apply solo_bind (Q := fun found j w => j = 2 ∧ (ch 1).fail = false ∧ found = some order ∧
      Settled w₀.db.rows w)
    · apply solo_bind (Q := fun row j w => j = 2 ∧ (ch 1).fail = false ∧ row = some order ∧
        Settled w₀.db.rows w)
      · apply solo_conseq (settled_selectRow (.order orderId) fun w hw hdies =>
            hD 1 w hdies (by decide) hw.rows) (fun _ hw => hw) ?_ (fun _ _ _ _ hw => hw.2)
          (fun _ _ _ _ hw => hw)
        intro row j w _ ⟨hf, hr, hj, hw⟩
        exact ⟨hj, hf, hr.trans hrow, hw⟩
      · intro row j _
        apply solo_pure
        rintro w ⟨hj, hf, rfl, hw⟩
        exact ⟨hj, hf, by simp, hw⟩
    · intro found j _
      apply solo_fact
      rintro rfl
      apply solo_fact
      intro hf
      apply solo_fact
      rintro rfl
      apply solo_ite
      · intro hterminal
        rw [hreserved] at hterminal
        cases hterminal
      · intro _
        exact solo_pure fun w hw => ⟨rfl, hf, rfl, hw⟩

theorem solo_cancelOrder (hidle : Idle w₀) (hrow : w₀.order orderId = some order)
    (hreserved : order.status = .reserved) (hmiss : w₀.cache.order orderId = none) :
    Solo t ch dies (fun _ w => Got ch dies orderId order w₀.db.rows w.db.rows) 0 (fun w => w = w₀)
      (cancelOrder orderId order.userId)
      (fun _ _ w => Got ch dies orderId order w₀.db.rows w.db.rows)
      fun _ _ w => Got ch dies orderId order w₀.db.rows w.db.rows := by
  apply solo_bind
  · apply solo_conseq (solo_getOrderForUser hidle hrow hreserved hmiss ?_) (fun _ hw => hw)
      (fun _ _ _ _ hw => hw) ?_ (fun _ _ _ _ hw => hw)
    · intro j w hdies hj hrows
      have hearly : dies = some 0 ∨ Faulty ch dies 1 := by
        match j with
        | 0 => exact .inl hdies
        | 1 => exact .inr (.inr hdies)
      refine .inl ⟨.inr ?_, hrows⟩
      rcases hearly with h | h
      · exact .inl h
      · exact .inr (.inl h)
    · intro _ _ w _ ⟨hf, hw⟩
      exact .inl ⟨.inr (.inr (.inl (.inl hf))), hw.rows⟩
  · intro found j hsurv
    apply solo_fact
    rintro rfl
    apply solo_fact
    intro hread
    apply solo_fact
    rintro rfl
    apply solo_ite
    · intro hnot
      have hpaid : found.paymentInitiatedAt ≠ none := by
        intro hunpaid
        simp [hreserved, hunpaid] at hnot
      exact solo_throw fun w hw => .inl ⟨.inl hpaid, hw.rows⟩
    · intro hcan
      have hunpaid : found.paymentInitiatedAt = none := by simpa [hreserved] using hcan
      have hrow' : w₀.db.rows (.order orderId) = some found := hrow
      apply solo_bind
      · apply solo_conseq (settled_updateRow_hit ?_ hrow' (by simp [hreserved, hunpaid]))
          (fun _ hw => hw) (fun _ _ _ _ hw => hw) ?_ (fun _ _ _ _ hw => hw)
        · intro w hw hdies
          exact .inl ⟨.inr (.inr (.inr (.inr hdies))), hw.rows⟩
        · intro _ _ w _ ⟨_, hf, hw⟩
          exact .inl ⟨.inr (.inr (.inr (.inl hf))), hw.rows⟩
      · intro affected j' hsurv'
        apply solo_fact
        intro hclaimed
        apply solo_fact
        rintro rfl
        apply solo_fact
        rintro rfl
        apply solo_ite
        · intro hzero
          cases hzero
        · intro _
          have halive := hsurv.trans hsurv'
          have hclaim : ¬Unclaimed ch dies found := by
            rintro (hpaid | hdead | (hf | hdead) | (hf | hdead))
            · exact hpaid hunpaid
            · exact absurd (halive.2 0 hdead (Nat.zero_le _)) (by decide)
            · exact nomatch hread.symm.trans hf
            · exact absurd (halive.2 1 hdead (Nat.zero_le _)) (by decide)
            · exact nomatch hclaimed.symm.trans hf
            · exact absurd (halive.2 2 hdead (Nat.zero_le _)) (by decide)
          -- from here on the lines decide
          have hpart (k : Nat) {w : World} (hk : k ≤ found.lines.length)
              (hstop : k = found.lines.length ∨ Faulty ch dies (3 + k))
              (hbefore : ∀ j, j < k → ¬Faulty ch dies (3 + j))
              (hw : Settled (partly w₀.db.rows orderId found (ch 2).now k) w) :
              Got ch dies orderId found w₀.db.rows w.db.rows :=
            .inr ⟨hclaim, _, k, hk, hstop, hbefore, hw.rows⟩
          have hall : partly w₀.db.rows orderId found (ch 2).now found.lines.length =
              restocked (fun p => (quantityOf found.lines p : Int))
                (stepped w₀.db.rows found .cancelled (ch 2).now orderId) := by
            rw [partly, List.take_length]
          apply solo_bind (Q := fun _ _ w => Got ch dies orderId found w₀.db.rows w.db.rows)
          · apply solo_ite
            · intro _
              apply solo_conseq (settled_restoreStock found.lines ?_) (fun _ hw => hw) ?_ ?_
                (fun _ _ _ _ hw => hw)
              · intro k w hk hdead hbefore hw
                exact hpart k hk.le (.inr (.inr hdead)) hbefore hw
              · intro _ _ w _ ⟨_, hbefore, hw⟩
                exact hpart _ (Nat.le_refl _) (.inl rfl) hbefore (hall ▸ hw)
              · intro _ _ w _ ⟨k, hk, hf, hbefore, hw⟩
                exact hpart k hk.le (.inr (.inl hf)) hbefore hw
            · intro hnot
              simp [hreserved] at hnot
          · intro _ _ _
            apply solo_bind (Q := fun _ _ w => Got ch dies orderId found w₀.db.rows w.db.rows)
            · apply solo_stmt
              · intro w hw _
                exact hw
              · intro w hw
                exact ⟨.ok (), _, rfl, hw⟩
            · intro _ _ _
              apply solo_bind (Q := fun _ _ w => Got ch dies orderId found w₀.db.rows w.db.rows)
              · apply solo_stmt
                · intro w hw _
                  exact hw
                · intro w hw
                  refine ⟨.ok (), _, rfl, ?_⟩
                  dsimp only
                  split <;> exact hw
              · intro _ _ _
                exact solo_pure fun w hw => hw

end solo

theorem quantityOf_eq_zero {lines : List StockLine} {p : ProductId} :
    quantityOf lines p = 0 ↔ ∀ line ∈ lines, line.productId = p → line.quantity = 0 := by
  induction lines with
  | nil => simp [quantityOf_nil]
  | cons line lines ih =>
    rw [quantityOf_cons, Nat.add_eq_zero_iff, ih, List.forall_mem_cons]
    by_cases hp : line.productId = p <;> simp [hp]

/-- What a line adds can be missing only where there is nothing to add it to. -/
theorem withStock_take_iff {lines : List StockLine} {k : Nat} {products : ProductId → Option ProductEntity} :
    (∀ p, withStock (quantityOf (lines.take k) p) (products p) =
      withStock (quantityOf lines p) (products p)) ↔
    ∀ line ∈ lines.drop k, line.quantity = 0 ∨ products line.productId = none := by
  have hsum (p : ProductId) :
      quantityOf lines p = quantityOf (lines.take k) p + quantityOf (lines.drop k) p := by
    rw [← quantityOf_append, List.take_append_drop]
  constructor
  · intro h line hline
    cases hx : products line.productId with
    | none => exact .inr rfl
    | some x =>
      left
      have hp := h line.productId
      rw [hx] at hp
      have hstock : x.stock + (quantityOf (lines.take k) line.productId : Int) =
          x.stock + quantityOf lines line.productId :=
        congrArg ProductEntity.stock (Option.some.inj hp)
      have hnone : quantityOf (lines.drop k) line.productId = 0 := by
        have hsum := hsum line.productId
        omega
      exact quantityOf_eq_zero.mp hnone line hline rfl
  · intro h p
    cases hx : products p with
    | none => rfl
    | some x =>
      have hnone : quantityOf (lines.drop k) p = 0 := by
        apply quantityOf_eq_zero.mpr
        rintro line hline rfl
        rcases h line hline with hzero | hmissing
        · exact hzero
        · exact nomatch hx.symm.trans hmissing
      rw [hsum p, hnone, Nat.add_zero]

section property

variable {ch : Nat → Choice} {dies : Option Nat} {orderId : OrderId} {order : OrderEntity}
  {w w' : World} {now k : Nat}

theorem partly_status (hrows : w'.db.rows = partly w.db.rows orderId order now k) :
    (w'.order orderId).map (·.status) = some .cancelled := by
  have horder : w'.order orderId =
      some ({ order with status := .cancelled, updatedAt := .date now } : OrderEntity) :=
    (congrFun hrows (.order orderId)).trans (Function.update_self ..)
  rw [horder]
  rfl

theorem partly_product (hrows : w'.db.rows = partly w.db.rows orderId order now k) (p : ProductId) :
    w'.product p = withStock (quantityOf (order.lines.take k) p) (w.product p) := by
  have hproduct : stepped w.db.rows order .cancelled now orderId (.product p) = w.product p :=
    Function.update_of_ne (by simp) ..
  rw [← hproduct]
  exact congrFun hrows (.product p)

/-- Up to which line a call must get. -/
theorem Got.iff (hrow : w.order orderId = some order) (hreserved : order.status = .reserved)
    (h : Got ch dies orderId order w.db.rows w'.db.rows) :
    CancelledOrUntouched orderId order w w' ↔ Unclaimed ch dies order ∨
      ∀ k, k < order.lines.length → Faulty ch dies (3 + k) →
        ∀ line ∈ order.lines.drop k, line.quantity = 0 ∨ w.product line.productId = none := by
  rcases h with ⟨hun, hsame⟩ | ⟨hclaim, now, k, hk, hstop, hbefore, hrows⟩
  · constructor
    · intro _
      exact .inl hun
    · intro _
      exact .inr ⟨funext fun o => congrFun hsame (.order o), funext fun p => congrFun hsame (.product p)⟩
  · have hstatus := partly_status hrows
    have hdone : CancelledOrUntouched orderId order w w' ↔
        ∀ line ∈ order.lines.drop k, line.quantity = 0 ∨ w.product line.productId = none := by
      rw [← withStock_take_iff]
      constructor
      · rintro (⟨-, hall⟩ | ⟨horders, -⟩)
        · intro p
          exact (partly_product hrows p).symm.trans (hall p)
        · rw [horders, hrow, Option.map_some, hreserved] at hstatus
          cases hstatus
      · intro hall
        exact .inl ⟨hstatus, fun p => (partly_product hrows p).trans (hall p)⟩
    rw [hdone]
    constructor
    · intro hlines
      right
      intro j hj hf line hline
      have hkj : k ≤ j := by
        by_contra hless
        exact hbefore j (Nat.not_le.mp hless) hf
      obtain ⟨d, rfl⟩ := Nat.exists_eq_add_of_le hkj
      rw [← List.drop_drop] at hline
      exact hlines line (List.mem_of_mem_drop hline)
    · rintro (hun | hlines)
      · exact absurd hun hclaim
      · rcases hstop with rfl | hf
        · simp
        · by_cases hlast : k = order.lines.length
          · subst hlast
            simp
          · exact hlines k (Nat.lt_of_le_of_ne hk hlast) hf

end property

section runs

variable {c : Catalog} {b : Bool} {moves : List Move} {s : Shop} {t : Tid} {ch : Nat → Choice}
  {dies : Option Nat} {orderId : OrderId} {order : OrderEntity}

/-- No order that is not over is cached. -/
theorem not_cached (hr : Reaches c b moves s) (hrow : s.shared.order orderId = some order)
    (hopen : isTerminalStatus order.status = false) : s.shared.cache.order orderId = none := by
  cases hentry : s.shared.cache.order orderId with
  | none => rfl
  | some entry =>
    obtain ⟨row, hrow', hterminal, -⟩ := hr.coherent orderId entry hentry
    cases hrow.symm.trans hrow'
    exact nomatch hopen.symm.trans hterminal

theorem cancel_got (hr : Reaches c b moves s) (hidle : ∀ t, s.shared.db.txns t = none)
    (hrow : s.shared.order orderId = some order) (hreserved : order.status = .reserved) :
    ∃ w r, (respond (.cancelOrder orderId order.userId)).run.solo t ch dies 0 s.shared = some (w, r) ∧
      Got ch dies orderId order s.shared.db.rows (orderSystem.soloShared t w r).db.rows := by
  have hmiss := not_cached hr hrow (by rw [hreserved]; rfl)
  have hsolo : Solo t ch dies (fun _ w => Got ch dies orderId order s.shared.db.rows w.db.rows) 0
      (fun w => w = s.shared) (respond (.cancelOrder orderId order.userId))
      (fun _ _ w => Got ch dies orderId order s.shared.db.rows w.db.rows)
      fun _ _ w => Got ch dies orderId order s.shared.db.rows w.db.rows := by
    apply solo_bind (solo_cancelOrder hidle hrow hreserved hmiss)
    intro _ _ _
    exact solo_pure fun _ hw => hw
  obtain ⟨w, r, hrun, hpost⟩ := hsolo s.shared rfl
  refine ⟨w, r, hrun, ?_⟩
  match r with
  | none =>
    obtain ⟨j, -, -, hgot⟩ := hpost
    exact hgot
  | some (.error e, j) => exact hpost.2
  | some (.ok reply, j) => exact hpost.2

/-- A cancel of a reserved order, by itself, is all or nothing exactly when it claims nothing, or no
fault comes between the claim and the last line that has something to give back. -/
theorem cancel_all_or_nothing (hr : Reaches c b moves s) (hidle : ∀ t, s.shared.db.txns t = none)
    (hrow : s.shared.order orderId = some order) (hreserved : order.status = .reserved) :
    ∃ w r, (respond (.cancelOrder orderId order.userId)).run.solo t ch dies 0 s.shared = some (w, r) ∧
      (CancelledOrUntouched orderId order s.shared (orderSystem.soloShared t w r) ↔
        Unclaimed ch dies order ∨ ∀ k, k < order.lines.length → Faulty ch dies (3 + k) →
          ∀ line ∈ order.lines.drop k,
            line.quantity = 0 ∨ s.shared.product line.productId = none) := by
  obtain ⟨w, r, hrun, hgot⟩ := @cancel_got _ _ _ _ t ch dies _ _ hr hidle hrow hreserved
  exact ⟨w, r, hrun, hgot.iff hrow hreserved⟩

end runs

/-- An order of three pieces, once it is reserved. -/
def reservedOrder : OrderEntity := ⟨1, 9, .reserved, none, [⟨7, "Widget", 3⟩], .date 0, .date 0⟩

theorem exists_reserved : ∃ s, Reaches oneProduct true (placing ++ reserving) s ∧
    (∀ t, s.shared.db.txns t = none) ∧ s.shared.order 1 = some reservedOrder ∧
    s.shared.product 7 = some ⟨"Widget", 2, true⟩ := by
  obtain ⟨s, hr, hout⟩ := reaches_of_trial (placing ++ reserving) (fun s =>
    ((List.range 2).all fun t => (s.shared.db.txns t).isNone, s.shared.order 1, s.shared.product 7))
    (true, some reservedOrder, some ⟨"Widget", 2, true⟩) (by decide +kernel)
  simp only [Prod.mk.injEq] at hout
  exact ⟨s, hr, hr.idle (by decide) hout.1, hout.2⟩

theorem cancel_all_or_nothing_healthy : ∃ s w r,
    Reaches oneProduct true (placing ++ reserving) s ∧
    (respond (.cancelOrder 1 9)).run.solo 2 (fun _ => {}) none 0 s.shared = some (w, r) ∧
    CancelledOrUntouched 1 reservedOrder s.shared (orderSystem.soloShared 2 w r) := by
  obtain ⟨s, hr, hidle, hrow, -⟩ := exists_reserved
  obtain ⟨w, r, hrun, hiff⟩ :=
    @cancel_all_or_nothing _ _ _ _ 2 (fun _ => {}) none _ _ hr hidle hrow rfl
  refine ⟨s, w, r, hr, hrun, hiff.mpr (.inr ?_)⟩
  rintro k - (hf | hdead)
  · cases hf
  · cases hdead

/-- The `UPDATE` of the only line fails: the order is cancelled and its stock lost. -/
theorem not_cancel_all_or_nothing : ¬∀ (c : Catalog) (b : Bool) (moves : List Move) (s : Shop) (t : Tid)
    (ch : Nat → Choice) (dies : Option Nat) (orderId : OrderId) (order : OrderEntity) (w : World)
    (r : Option (Except AppError Reply × Nat)), Reaches c b moves s →
    (∀ t, s.shared.db.txns t = none) → s.shared.order orderId = some order →
    order.status = .reserved →
    (respond (.cancelOrder orderId order.userId)).run.solo t ch dies 0 s.shared = some (w, r) →
    CancelledOrUntouched orderId order s.shared (orderSystem.soloShared t w r) := by
  intro hall
  obtain ⟨s, hr, hidle, hrow, hproduct⟩ := exists_reserved
  let ch : Nat → Choice := fun i => { fail := i == 3 }
  obtain ⟨w, r, hrun, hgot⟩ := @cancel_got _ _ _ _ 2 ch none _ _ hr hidle hrow rfl
  have hprop := hall _ _ _ s 2 ch none 1 reservedOrder w r hr hidle hrow rfl hrun
  rcases (hgot.iff hrow rfl).mp hprop with (hpaid | hdead | (hf | hdead) | (hf | hdead)) | hback
  · exact hpaid rfl
  · cases hdead
  · cases hf
  · cases hdead
  · cases hf
  · cases hdead
  · rcases hback 0 (by decide) (.inl rfl) ⟨7, 3⟩ (by decide) with hzero | hmissing
    · cases hzero
    · exact nomatch hproduct.symm.trans hmissing

end OrderLifecycle.Alone

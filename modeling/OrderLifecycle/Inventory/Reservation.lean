import OrderLifecycle.Inventory.Alone
import OrderLifecycle.Lifecycle.Stock

open Framework

namespace OrderLifecycle.Alone

/-! ### Stock maps -/

/-- A product, if it is there, with `n` more in stock. -/
def withStock (n : Int) (product : Option ProductEntity) : Option ProductEntity :=
  product.map fun x => { x with stock := x.stock + n }

/-- The rows once the stock of every product `p` has changed by `d p`. -/
def restocked (d : ProductId → Int) (V : Rows) : Rows
  | .product p => withStock (d p) (V (.product p))
  | k => V k

/-- Every product that a line names exists and has as much in stock as all the lines ask for. -/
def Fits (V : Rows) (lines : List StockLine) : Prop :=
  ∀ line ∈ lines, ∃ x : ProductEntity, V (.product line.productId) = some x ∧
    (quantityOf lines line.productId : Int) ≤ x.stock

/-- What was taken for the lines `applied`. -/
def sold (applied : List StockLine) (p : ProductId) : Int := -quantityOf applied p

variable {V : Rows} {d e : ProductId → Int} {lines lines' applied : List StockLine}
  {line : StockLine} {p : ProductId}

theorem withStock_zero (product : Option ProductEntity) : withStock 0 product = product := by
  cases product <;> simp [withStock]

theorem withStock_withStock (m n : Int) (product : Option ProductEntity) :
    withStock n (withStock m product) = withStock (m + n) product := by
  cases product <;> simp [withStock, Int.add_assoc]

theorem restocked_product : restocked d V (.product p) = withStock (d p) (V (.product p)) := rfl

theorem restocked_zero : restocked (fun _ => 0) V = V := by
  funext k
  cases k with
  | product p => exact withStock_zero _
  | _ => rfl

theorem restocked_restocked : restocked d (restocked e V) = restocked (fun p => e p + d p) V := by
  funext k
  cases k with
  | product p => exact withStock_withStock ..
  | _ => rfl

theorem quantityOf_append (p : ProductId) :
    quantityOf (lines ++ lines') p = quantityOf lines p + quantityOf lines' p := by
  simp [quantityOf]

/-- One product changes. -/
theorem update_product {x : ProductEntity} (n : Int) (hx : V (.product p) = some x) :
    Function.update V (.product p) (some ({ x with stock := x.stock + n } : ProductEntity)) =
      restocked (fun p' => if p = p' then n else 0) V := by
  funext k
  by_cases hk : k = .product p
  · subst hk
    rw [Function.update_self, restocked_product, hx, if_pos rfl]
    rfl
  · rw [Function.update_of_ne hk]
    cases k with
    | product p' =>
      have hne : p ≠ p' := fun he => hk (he ▸ rfl)
      rw [restocked_product, if_neg hne]
      exact (withStock_zero _).symm
    | _ => rfl

theorem restocked_missing (n : Int) (hx : V (.product p) = none) :
    restocked (fun p' => if p = p' then n else 0) V = V := by
  funext k
  cases k with
  | product p' =>
    rw [restocked_product]
    by_cases he : p = p'
    · subst he
      rw [hx]
      rfl
    · rw [if_neg he]
      exact withStock_zero _
  | _ => rfl

theorem sold_nil : sold [] = fun _ => 0 := rfl

theorem sold_append : sold (applied ++ [line]) =
    fun p => sold applied p + if line.productId = p then -(line.quantity : Int) else 0 := by
  funext p
  rw [sold, sold, quantityOf_append, quantityOf_cons, quantityOf_nil]
  split <;> omega

/-! ### The check, line by line -/

/-- The next line fits when its product has its quantity left. -/
theorem Fits.snoc {x : ProductEntity} (h : Fits V applied) (hx : V (.product line.productId) = some x)
    (hle : (line.quantity : Int) ≤ x.stock + sold applied line.productId) :
    Fits V (applied ++ [line]) := by
  intro line' hm
  rw [quantityOf_append, quantityOf_cons, quantityOf_nil]
  by_cases he : line.productId = line'.productId
  · rw [← he, if_pos rfl]
    refine ⟨x, hx, ?_⟩
    unfold sold at hle
    omega
  · rcases List.mem_append.mp hm with hm | hm
    · obtain ⟨x', hx', hle'⟩ := h line' hm
      rw [if_neg he]
      exact ⟨x', hx', by omega⟩
    · exact absurd (List.mem_singleton.mp hm ▸ rfl) he

/-- Where a line does not fit, the list of lines does not. -/
theorem not_fits (hno : ∀ x : ProductEntity, V (.product line.productId) = some x →
    x.stock + sold applied line.productId < line.quantity) :
    ¬Fits V (applied ++ line :: lines) := by
  intro hfits
  obtain ⟨x, hx, hle⟩ := hfits line (by simp)
  have hless := hno x hx
  rw [quantityOf_append, quantityOf_cons, if_pos rfl] at hle
  unfold sold at hless
  omega

/-! ### The statements -/

/-- Some statement fails. -/
def Fails (ch : Nat → Choice) : Prop := ∃ i, (ch i).fail = true

section stock

variable {w₀ : World} {t : Tid} {ch : Nat → Choice} {dies : Option Nat} {D : Nat → World → Prop}
  {i : Nat} {orderId : OrderId} {α : Type}

variable (hD : ∀ j w, Outside t w₀ w → D j w)

include hD

theorem solo_incrementStock :
    Solo t ch dies D i (Within t w₀ V) (incrementStock orderId line)
      (fun _ _ => Within t w₀
        (restocked (fun p => if line.productId = p then (line.quantity : Int) else 0) V))
      fun e _ w => e = .database ∧ (ch i).fail = true ∧ Spoilt t w₀ w := by
  cases hx : V (.product line.productId) with
  | none =>
    apply solo_conseq (solo_updateRow_miss hD fun row hrow => nomatch hx.symm.trans hrow)
      (fun _ hw => hw) ?_ (fun _ _ _ _ hw => hw) (fun _ _ _ _ hw => hw)
    intro _ _ w _ hw
    rw [restocked_missing _ hx]
    exact hw.2
  | some x =>
    apply solo_conseq (solo_updateRow_hit hD hx rfl) (fun _ hw => hw) ?_ (fun _ _ _ _ hw => hw)
      (fun _ _ _ _ hw => hw)
    intro _ _ w _ hw
    rw [← update_product _ hx]
    exact hw.2

theorem solo_restoreStock (lines : List StockLine) :
    Solo t ch dies D i (Within t w₀ V) (restoreStock orderId lines)
      (fun _ _ => Within t w₀ (restocked (fun p => (quantityOf lines p : Int)) V))
      fun e _ w => e = .database ∧ Fails ch ∧ Spoilt t w₀ w := by
  induction lines generalizing i V with
  | nil =>
    apply solo_pure
    intro w hw
    exact restocked_zero.symm ▸ hw
  | cons line lines ih =>
    apply solo_bind
    · apply solo_conseq (solo_incrementStock hD) (fun _ hw => hw) (fun _ _ _ _ hw => hw) ?_
        (fun _ _ _ _ hw => hw)
      intro e _ w _ ⟨he, hf, hw⟩
      exact ⟨he, ⟨i, hf⟩, hw⟩
    · intro _ j _
      apply solo_conseq ih (fun _ hw => hw) ?_ (fun _ _ _ _ hw => hw) (fun _ _ _ _ hw => hw)
      intro _ _ w _ hw
      rw [restocked_restocked] at hw
      have hsum : (fun p => (quantityOf (line :: lines) p : Int)) = fun p =>
          (if line.productId = p then (line.quantity : Int) else 0) + quantityOf lines p := by
        funext p
        rw [quantityOf_cons]
        split <;> simp
      rwa [hsum]

theorem solo_restoreStock_spoilt (lines : List StockLine) :
    Solo t ch dies D i (Spoilt t w₀) (restoreStock orderId lines) (fun _ _ => Spoilt t w₀)
      fun e _ w => e = .database ∧ Spoilt t w₀ w := by
  cases lines with
  | nil => exact solo_pure fun w hw => hw
  | cons line lines =>
    apply solo_bind (solo_spoilt hD (Q := fun _ _ _ => False))
    intro _ j _ w hw
    exact hw.elim

/-- What the call has taken goes back. -/
theorem solo_compensate {p : ProductId} (applied : List StockLine) :
    Solo t ch dies D i (Within t w₀ (restocked (sold applied) V))
      (compensate (α := α) orderId applied (.insufficientStock p)) (fun _ _ _ => False)
      fun e _ w => (e = .insufficientStock p ∧ Within t w₀ V w) ∨
        (e = .database ∧ Fails ch ∧ Spoilt t w₀ w) := by
  have hback : restocked (fun p => (quantityOf applied p : Int)) (restocked (sold applied) V) = V := by
    rw [restocked_restocked]
    simp only [sold, Int.add_left_neg]
    exact restocked_zero
  apply solo_ite
  · intro _
    apply solo_bind
    · apply solo_conseq (solo_restoreStock hD applied) (fun _ hw => hw) (fun _ _ _ _ hw => hw) ?_
        (fun _ _ _ _ hw => hw)
      intro e _ w _ hw
      exact .inr hw
    · intro _ j _
      apply solo_throw
      intro w hw
      rw [hback] at hw
      exact .inl ⟨rfl, hw⟩
  · intro hlength
    have hnil : applied = [] := by simpa using hlength
    apply solo_throw
    intro w hw
    rw [hnil, sold_nil, restocked_zero] at hw
    exact .inl ⟨rfl, hw⟩

theorem solo_compensate_spoilt (applied : List StockLine) :
    Solo t ch dies D i (Spoilt t w₀) (compensate (α := α) orderId applied .database)
      (fun _ _ _ => False) fun e _ w => e = .database ∧ Spoilt t w₀ w := by
  apply solo_ite
  · intro _
    apply solo_bind (solo_restoreStock_spoilt hD applied)
    intro _ j _
    exact solo_throw fun w hw => ⟨rfl, hw⟩
  · intro _
    exact solo_throw fun w hw => ⟨rfl, hw⟩

/-- The loop of `reserveStock`: all the lines are taken, or none. -/
theorem solo_reserveLines (applied lines : List StockLine) (hfits : Fits V applied) :
    Solo t ch dies D i (Within t w₀ (restocked (sold applied) V)) (reserveLines orderId applied lines)
      (fun _ _ w => Fits V (applied ++ lines) ∧ Within t w₀ (restocked (sold (applied ++ lines)) V) w)
      fun e _ w => ((∃ p, e = .insufficientStock p) ∧ ¬Fits V (applied ++ lines) ∧ Within t w₀ V w) ∨
        (e = .database ∧ Fails ch ∧ Spoilt t w₀ w) := by
  induction lines generalizing i applied with
  | nil =>
    apply solo_pure
    intro w hw
    rw [List.append_nil]
    exact ⟨hfits, hw⟩
  | cons line lines ih =>
    -- the line fits exactly when its `UPDATE` finds the product with enough in stock
    let rest (x : ProductEntity) : ProductEntity :=
      { x with stock := x.stock + sold applied line.productId }
    have hview : restocked (sold applied) V (.product line.productId) =
      (V (.product line.productId)).map rest := rfl
    apply solo_bind (Q := fun n _ w => (n = 1 ∧ Fits V (applied ++ [line]) ∧
        Within t w₀ (restocked (sold (applied ++ [line])) V) w) ∨
      (n = 0 ∧ ¬Fits V (applied ++ line :: lines) ∧ Within t w₀ (restocked (sold applied) V) w))
    · apply solo_tryCatch (E := fun e _ w => e = .database ∧ (ch i).fail = true ∧ Spoilt t w₀ w)
      · by_cases hhit : ∃ x, V (.product line.productId) = some x ∧
          (line.quantity : Int) ≤ (rest x).stock
        · obtain ⟨x, hx, hle⟩ := hhit
          rw [hx] at hview
          apply solo_conseq (solo_updateRow_hit hD hview (decide_eq_true hle)) (fun _ hw => hw) ?_
            (fun _ _ _ _ hw => hw) (fun _ _ _ _ hw => hw)
          intro n _ w _ ⟨hn, hw⟩
          refine .inl ⟨hn, hfits.snoc hx hle, ?_⟩
          have hput := update_product (-(line.quantity : Int)) hview
          rw [restocked_restocked, ← sold_append] at hput
          rw [← hput]
          exact hw
        · have hno (x : ProductEntity) (hx : V (.product line.productId) = some x) :
              (rest x).stock < line.quantity := by
            by_contra hge
            exact hhit ⟨x, hx, Int.not_lt.mp hge⟩
          apply solo_conseq (solo_updateRow_miss hD ?_) (fun _ hw => hw) ?_ (fun _ _ _ _ hw => hw)
            (fun _ _ _ _ hw => hw)
          · intro row hrow
            rw [hview] at hrow
            obtain ⟨x, hx, rfl⟩ := Option.map_eq_some_iff.mp hrow
            exact decide_eq_false (Int.not_le.mpr (hno x hx))
          · intro n _ w _ ⟨hn, hw⟩
            exact .inr ⟨hn, not_fits hno, hw⟩
      · intro e j _
        apply solo_fact
        rintro rfl
        apply solo_fact
        intro hf
        apply solo_conseq (solo_compensate_spoilt hD applied) (fun _ hw => hw)
          (fun _ _ _ _ hw => hw.elim) ?_ (fun _ _ _ _ hw => hw)
        intro e _ w _ ⟨he, hw⟩
        exact .inr ⟨he, ⟨i, hf⟩, hw⟩
    · intro n j _ w hw
      rcases hw with ⟨rfl, hfits', hw⟩ | ⟨rfl, hnot, hw⟩
      · have hrest := ih (i := j) (applied ++ [line]) hfits'
        rw [List.append_assoc] at hrest
        exact hrest w hw
      · have hback : Solo t ch dies D j (Within t w₀ (restocked (sold applied) V))
            (compensate (α := Unit) orderId applied (.insufficientStock line.productId)) _ _ :=
          solo_compensate hD applied
        apply solo_conseq hback (fun _ hw => hw) (fun _ _ _ _ hw => hw.elim) ?_
          (fun _ _ _ _ hw => hw) w hw
        rintro e _ w - (⟨rfl, hw⟩ | hw)
        · exact .inl ⟨⟨_, rfl⟩, hnot, hw⟩
        · exact .inr hw

end stock

end OrderLifecycle.Alone

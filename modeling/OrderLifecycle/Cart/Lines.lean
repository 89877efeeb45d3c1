import OrderLifecycle.Cart.Service

namespace OrderLifecycle.Cart

/-! ### The lines of one cart -/

variable {items : List CartItemEntity} {p q : ProductId} {n : Nat} {cartId : Uuid}

theorem lineOf_cons (i : CartItemEntity) :
    lineOf (i :: items) p = if i.productId = p then some i.quantity else lineOf items p := by
  by_cases e : i.productId = p <;> simp [lineOf, e]

theorem lineOf_append_one (i : CartItemEntity) : lineOf (items ++ [i]) p =
    (lineOf items p).or (if i.productId = p then some i.quantity else none) := by
  induction items with
  | nil => simp [lineOf]
  | cons j js ih =>
    rw [List.cons_append, lineOf_cons, lineOf_cons, ih]
    split <;> rfl

theorem lineOf_map : lineOf (items.map fun item =>
      if item.productId == p then { item with quantity := n } else item) q =
    if q = p then (lineOf items p).map fun _ => n else lineOf items q := by
  induction items with
  | nil => simp [lineOf]
  | cons i is ih =>
    rw [List.map_cons, lineOf_cons, lineOf_cons, lineOf_cons, ih]
    by_cases e : i.productId = p
    · by_cases hq : q = p
      · simp [e, hq]
      · simp [e, hq, Ne.symm hq]
    · by_cases hq : q = p
      · simp [e, hq]
      · simp [e, hq]

theorem lineOf_eq_none : lineOf items p = none ↔ (items.any fun item => item.productId == p) = false := by
  simp [lineOf]

theorem lineOf_setLine :
    lineOf (setLine cartId p n items) q = if q = p then some n else lineOf items q := by
  unfold setLine
  split
  · next h =>
    rw [lineOf_map]
    cases hl : lineOf items p with
    | none => exact nomatch h.symm.trans (lineOf_eq_none.mp hl)
    | some m => rfl
  · next h =>
    have hl := lineOf_eq_none.mpr (by simpa using h)
    rw [lineOf_append_one]
    by_cases hq : q = p
    · simp [hq, hl]
    · simp [hq, Ne.symm hq]

theorem lineOf_removeLine :
    lineOf (removeLine p items) q = if q = p then none else lineOf items q := by
  unfold removeLine
  induction items with
  | nil => simp [lineOf]
  | cons i is ih =>
    by_cases e : i.productId = p
    · by_cases hq : q = p
      · simpa [e, hq] using ih
      · simpa [e, hq, lineOf_cons, Ne.symm hq] using ih
    · by_cases hq : q = p
      · simpa [e, hq, lineOf_cons] using ih
      · simpa [e, hq, lineOf_cons] using congrArg _ ih

theorem setLine_nodup (hnd : (items.map (·.productId)).Nodup) :
    ((setLine cartId p n items).map (·.productId)).Nodup := by
  unfold setLine
  split
  · have he : (items.map fun item =>
        if item.productId == p then { item with quantity := n } else item).map (·.productId) =
        items.map (·.productId) := by
      rw [List.map_map]
      apply List.map_congr_left
      intro i _
      simp only [Function.comp]
      split <;> rfl
    rwa [he]
  · next h =>
    rw [List.map_append, List.nodup_append]
    refine ⟨hnd, by simp, ?_⟩
    intro a ha b hb e
    obtain ⟨i, hi, rfl⟩ := List.mem_map.mp ha
    have hb' : b = p := by simpa using hb
    apply h
    exact List.any_eq_true.mpr ⟨i, hi, by simp [e, hb']⟩

theorem removeLine_nodup (hnd : (items.map (·.productId)).Nodup) :
    ((removeLine p items).map (·.productId)).Nodup :=
  ((List.filter_sublist (p := fun item : CartItemEntity => !(item.productId == p))).map _).nodup hnd

/-- A line set to the quantity it has already. -/
theorem setLine_same (hnd : (items.map (·.productId)).Nodup) (h : lineOf items p = some n) :
    setLine cartId p n items = items := by
  have hany : items.any (fun item => item.productId == p) = true := by
    by_contra hn
    exact nomatch h.symm.trans (lineOf_eq_none.mpr (by simpa using hn))
  unfold setLine
  rw [if_pos hany]
  clear hany
  induction items with
  | nil => rfl
  | cons i is ih =>
    obtain ⟨hi, his⟩ := List.nodup_cons.mp hnd
    rw [lineOf_cons] at h
    by_cases e : i.productId = p
    · -- the only row of the product
      rw [if_pos e] at h
      cases h
      have hrest : is.map (fun item => if item.productId == p then
          { item with quantity := i.quantity } else item) = is.map id := by
        apply List.map_congr_left
        intro j hj
        have hne : j.productId ≠ p := by
          intro hj'
          exact hi (List.mem_map.mpr ⟨j, hj, hj'.trans e.symm⟩)
        simp [hne]
      rw [List.map_cons, hrest, List.map_id]
      split <;> rfl
    · rw [if_neg e] at h
      rw [List.map_cons, ih his h]
      simp [e]

/-- A line removed that was not there. -/
theorem removeLine_same (h : lineOf items p = none) : removeLine p items = items := by
  apply List.filter_eq_self.mpr
  intro i hi
  have hany := lineOf_eq_none.mp h
  simp only [List.any_eq_false] at hany
  simpa using hany i hi

end OrderLifecycle.Cart

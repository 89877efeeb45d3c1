import OrderLifecycle.Seed.Service

open Framework

namespace OrderLifecycle.Seed

variable {t : Tid} {sku : ProductId → String} {db db' : Db} {p q : ProductId}

/-- No transaction is open. -/
def Quiet (db : Db) : Prop := ∀ t, db.txns t = none

def productRow (db : Db) (p : ProductId) : Option ProductEntity := db.rows (.product p)

def switchOff (row : ProductEntity) : ProductEntity := { row with active := false }

/-- `db'` is `db` but for the products. -/
structure OnlyProducts (db db' : Db) : Prop where
  quiet : Quiet db'
  rest : ∀ key, (∀ p, key ≠ .product p) → db'.rows key = db.rows key

theorem OnlyProducts.refl (h : Quiet db) : OnlyProducts db db := ⟨h, fun _ _ => rfl⟩

theorem OnlyProducts.trans {db₁ db₂ db₃ : Db} (h : OnlyProducts db₁ db₂) (h' : OnlyProducts db₂ db₃) :
    OnlyProducts db₁ db₃ :=
  ⟨h'.quiet, fun key hkey => (h'.rest key hkey).trans (h.rest key hkey)⟩

theorem put_product (row : ProductEntity) (h : Quiet db) (hf : db.Free t (.product p)) :
    OnlyProducts db (db.put t (.product p) (some row) [] hf) ∧
      ∀ q, productRow (db.put t (.product p) (some row) [] hf) q =
        if q = p then some row else productRow db q := by
  obtain ⟨hrows, -, htxns⟩ := Store.put_idle (some row : Option (Row (.product p))) [] hf (h t)
  refine ⟨⟨fun t' => ?_, fun key hkey => ?_⟩, fun q => ?_⟩
  · rw [htxns]
    exact h t'
  · rw [hrows]
    exact Function.update_of_ne (hkey p) ..
  · have hrow := congrFun hrows (.product q)
    split
    · next e =>
      subst e
      exact hrow.trans (Function.update_self ..)
    · next e =>
      exact hrow.trans (Function.update_of_ne (by simpa using e) ..)

/-! ### Switching products off -/

/-- Whether a product is to be retired and is still on sale. -/
def OnSale (sku : ProductId → String) (db : Db) (p : ProductId) : Prop :=
  sku p ∈ retiredSkus ∧ ∃ row, productRow db p = some row ∧ row.active = true

/-- The `UPDATE` at one product. -/
theorem deactivate_one {n : Nat} (h : Quiet db)
    (hup : db.update t (.product p)
      (fun row : ProductEntity => retiredSkus.contains (sku p) && row.active)
      (fun row : ProductEntity => { row with active := false }) (fun _ => []) = some (n, db')) :
    OnlyProducts db db' ∧
    (∀ q, productRow db' q =
      if q = p ∧ sku q ∈ retiredSkus then (productRow db q).map switchOff else productRow db q) ∧
    (n = 0 ↔ ¬OnSale sku db p) := by
  have hview : db.view t (.product p) = productRow db p := Store.view_idle (h t)
  obtain ⟨rfl, hdb, hno⟩ | ⟨rfl, row, hf, hv, hp, rfl⟩ := Store.update_cases hup
  · have hoff (row : ProductEntity) (hret : sku p ∈ retiredSkus) (hrow : productRow db p = some row) :
        row.active = false := by
      have hfalse := hno row (hview.trans hrow)
      simpa [hret] using hfalse
    rw [hdb]
    refine ⟨.refl h, fun q => ?_, iff_of_true rfl ?_⟩
    · split
      · next hq =>
        obtain ⟨rfl, hret⟩ := hq
        cases hrow : productRow db q with
        | none => rfl
        | some row =>
          have hact := hoff row hret hrow
          simp [switchOff, ← hact]
      · rfl
    · rintro ⟨hret, row, hrow, hact⟩
      rw [hoff row hret hrow] at hact
      cases hact
  · have hrow : productRow db p = some row := hview.symm.trans hv
    have hsale : sku p ∈ retiredSkus ∧ ProductEntity.active row = true := by
      simpa using hp
    obtain ⟨honly, hrows⟩ := put_product (switchOff row) h hf
    refine ⟨honly, fun q => (hrows q).trans ?_, iff_of_false (by simp) ?_⟩
    · by_cases e : q = p
      · subst e
        rw [if_pos rfl, if_pos ⟨rfl, hsale.1⟩, hrow]
        rfl
      · simp [e]
    · intro hnot
      exact hnot ⟨hsale.1, row, hrow, hsale.2⟩

/-- Nothing else is on sale, or off it, for the `UPDATE` at a product that is not on sale. -/
theorem onSale_congr {db₁ : Db} (hp : ¬OnSale sku db p)
    (hrows : ∀ q, productRow db₁ q =
      if q = p ∧ sku q ∈ retiredSkus then (productRow db q).map switchOff else productRow db q) :
    OnSale sku db₁ q ↔ OnSale sku db q := by
  unfold OnSale
  rw [hrows q]
  by_cases e : q = p
  · subst e
    constructor
    · rintro ⟨hret, row, hrow, hact⟩
      rw [if_pos ⟨rfl, hret⟩] at hrow
      obtain ⟨row', -, rfl⟩ := Option.map_eq_some_iff.mp hrow
      cases hact
    · intro h
      exact absurd h hp
  · simp [e]

theorem deactivateRows_spec {ids : List ProductId} {n : Nat} (h : Quiet db)
    (hrun : deactivateRows t sku ids db = some (n, db')) :
    OnlyProducts db db' ∧
    (∀ q, productRow db' q =
      if q ∈ ids ∧ sku q ∈ retiredSkus then (productRow db q).map switchOff else productRow db q) ∧
    (n = 0 ↔ ∀ p ∈ ids, ¬OnSale sku db p) := by
  induction ids generalizing db n with
  | nil =>
    cases hrun
    exact ⟨.refl h, by simp, by simp⟩
  | cons p ids ih =>
    obtain ⟨⟨m, db₁⟩, hup, hmap⟩ := Option.bind_eq_some_iff.mp hrun
    obtain ⟨⟨m', db₂⟩, hrest, he⟩ := Option.map_eq_some_iff.mp hmap
    obtain ⟨rfl, rfl⟩ := Prod.mk.inj he
    obtain ⟨honly, hrows, hcount⟩ := deactivate_one h hup
    obtain ⟨honly', hrows', hcount'⟩ := ih honly.quiet hrest
    refine ⟨honly.trans honly', fun q => ?_, ?_⟩
    · rw [hrows' q, hrows q]
      by_cases hret : sku q ∈ retiredSkus
      · have htwice : (productRow db q).map (switchOff ∘ switchOff) = (productRow db q).map switchOff :=
          rfl
        by_cases e : q = p
        · subst e
          by_cases hq : q ∈ ids
          · simp [hret, hq, htwice]
          · simp [hret, hq]
        · simp [hret, e]
      · simp [hret]
    · have hsum : (m + m' = 0) ↔ m = 0 ∧ m' = 0 := Nat.add_eq_zero_iff
      rw [List.forall_mem_cons, ← hcount]
      refine hsum.trans (and_congr_right fun hm => hcount'.trans ?_)
      have hp := hcount.mp hm
      exact forall₂_congr fun q _ => not_congr (onSale_congr hp hrows)

/-! ### New products -/

/-- What an `INSERT` does: the products of its rows are new, and on sale. -/
theorem insertRows_spec {rows : List (ProductId × CatalogProduct)} (h : Quiet db)
    (hrun : insertRows t rows db = some db') :
    OnlyProducts db db' ∧
    (∀ row ∈ rows, productRow db row.1 = none ∧
      ∃ e, productRow db' row.1 = some e ∧ e.active = true) ∧
    ∀ q, (∀ row ∈ rows, row.1 ≠ q) → productRow db' q = productRow db q := by
  induction rows generalizing db with
  | nil =>
    cases hrun
    exact ⟨.refl h, by simp, by simp⟩
  | cons row rows ih =>
    obtain ⟨⟨b, db₁⟩, hins, hrest⟩ := Option.bind_eq_some_iff.mp hrun
    obtain ⟨rfl, -, -⟩ | ⟨rfl, hv, hf, rfl⟩ := Store.insert_cases hins
    · cases hrest
    · have hnone : productRow db row.1 = none := (Store.view_idle (h t)).symm.trans hv
      obtain ⟨honly, hrows⟩ := put_product ⟨row.2.name, row.2.stock, true⟩ h hf
      obtain ⟨honly', hnew, hold⟩ := ih honly.quiet hrest
      have hother (r : ProductId × CatalogProduct) (hr : r ∈ rows) : r.1 ≠ row.1 := by
        intro e
        have hfresh := (hnew r hr).1
        rw [hrows, if_pos e] at hfresh
        cases hfresh
      refine ⟨honly.trans honly', List.forall_mem_cons.mpr ⟨⟨hnone, ?_⟩, ?_⟩, ?_⟩
      · have hrow := (hold row.1 hother).trans ((hrows row.1).trans (if_pos rfl))
        exact ⟨_, hrow, rfl⟩
      · intro r hr
        obtain ⟨hfresh, hact⟩ := hnew r hr
        rw [hrows, if_neg (hother r hr)] at hfresh
        exact ⟨hfresh, hact⟩
      · intro q hq
        obtain ⟨hq₁, hq₂⟩ := List.forall_mem_cons.mp hq
        rw [hold q hq₂, hrows, if_neg (Ne.symm hq₁)]

theorem insertSkus_old {rows : List (ProductId × CatalogProduct)} (h : ∀ row ∈ rows, row.1 ≠ p) :
    insertSkus rows sku p = sku p := by
  have hnone : rows.find? (fun row => row.1 == p) = none := by
    apply List.find?_eq_none.mpr
    intro row hrow
    simpa using h row hrow
  simp [insertSkus, hnone]

theorem insertSkus_new {rows : List (ProductId × CatalogProduct)} {row : ProductId × CatalogProduct}
    (hrow : row ∈ rows) (he : row.1 = p) : ∃ row' ∈ rows, insertSkus rows sku p = row'.2.sku := by
  cases hfind : rows.find? (fun row => row.1 == p) with
  | none =>
    have hne := List.find?_eq_none.mp hfind row hrow
    simp [he] at hne
  | some row' =>
    refine ⟨row', List.mem_of_find?_eq_some hfind, ?_⟩
    simp [insertSkus, hfind]

/-- Nothing of the catalog is retired. -/
theorem catalog_not_retired : ∀ product ∈ catalog, product.sku ∉ retiredSkus := by decide

end OrderLifecycle.Seed

import Mathlib.Data.Prod.Lex
import OrderLifecycle.Framework.Supersede
import OrderLifecycle.Cart.Service

open Framework

namespace OrderLifecycle.Cart

/-- A row of `carts`; the two times are `TIMESTAMP` columns, counted in microseconds. -/
structure CartRow where
  id : Uuid
  userId : UserId
  checkedOutAt : Option Timestamp
  createdAt : Int
  updatedAt : Int
  deriving DecidableEq, Repr

namespace CartRow

def isOpen (c : CartRow) : Bool := c.checkedOutAt.isNone

/-- `(c."createdAt", c."id") < (newer."createdAt", newer."id")` -/
def before (c newer : CartRow) : Bool :=
  c.createdAt < newer.createdAt || (c.createdAt == newer.createdAt && c.id < newer.id)

/-- What the row comparison compares. -/
def key (c : CartRow) : Int ×ₗ Uuid := toLex (c.createdAt, c.id)

theorem before_iff (c newer : CartRow) : c.before newer = true ↔ c.key < newer.key := by
  simp [before, key, Prod.Lex.toLex_lt_toLex]

/-- The entry of a row in `UQ_carts_open_per_user`: its user, while the cart is open. -/
def indexEntry (c : CartRow) : Option UserId := if c.isOpen then some c.userId else none

theorem indexEntry_eq_some {c : CartRow} {u : UserId} :
    c.indexEntry = some u ↔ c.checkedOutAt = none ∧ c.userId = u := by
  simp [indexEntry, isOpen]

theorem indexEntry_eq_none {c : CartRow} : c.indexEntry = none ↔ c.checkedOutAt ≠ none := by
  simp [indexEntry, isOpen]

end CartRow

/-- The two cart tables, under the primary key of `carts` and the foreign key of `cart_items`. -/
structure CartTables where
  carts : List CartRow
  cartItems : List CartItemEntity
  ids_nodup : (carts.map (·.id)).Nodup
  items_owned : ∀ item ∈ cartItems, item.cartId ∈ carts.map (·.id)

namespace CartTables

theorem carts_nodup (db : CartTables) : db.carts.Nodup := db.ids_nodup.of_map _

theorem key_injOn (db : CartTables) : Set.InjOn CartRow.key {c | c ∈ db.carts} := by
  intro c hc d hd h
  have hid : c.id = d.id := by
    have h' : (c.createdAt, c.id) = (d.createdAt, d.id) := h
    exact congrArg Prod.snd h'
  exact List.inj_on_of_nodup_map db.ids_nodup hc hd hid

end CartTables

/-- The two cart tables once `UQ_carts_open_per_user` exists. -/
structure IndexedCartTables extends CartTables where
  entries_nodup : (carts.filterMap CartRow.indexEntry).Nodup

/-- The `WHERE` clause of the migration's `DELETE`. -/
def superseded (c newer : CartRow) : Bool :=
  c.userId == newer.userId && c.isOpen && newer.isOpen && c.before newer

theorem superseded_iff : Supersedes superseded CartRow.indexEntry CartRow.key := by
  intro c newer
  simp only [superseded, Bool.and_eq_true, beq_iff_eq, CartRow.before_iff,
    CartRow.indexEntry_eq_some, CartRow.isOpen, Option.isNone_iff_eq_none]
  constructor
  · rintro ⟨⟨⟨hu, hc⟩, hn⟩, hlt⟩
    exact ⟨c.userId, ⟨hc, rfl⟩, ⟨hn, hu.symm⟩, hlt⟩
  · rintro ⟨u, ⟨hc, hcu⟩, ⟨hn, hnu⟩, hlt⟩
    exact ⟨⟨⟨hcu.trans hnu.symm, hc⟩, hn⟩, hlt⟩

/-- The migration's `DELETE`; the items of a cart go with it (`ON DELETE CASCADE`). -/
def deleteSuperseded (db : CartTables) : CartTables where
  carts := deleteUsing superseded db.carts
  cartItems := db.cartItems.filter fun item =>
    item.cartId ∈ (deleteUsing superseded db.carts).map (·.id)
  ids_nodup := db.ids_nodup.sublist ((deleteUsing_sublist _ _).map _)
  items_owned := by simp

/-- `CREATE UNIQUE INDEX "UQ_carts_open_per_user"`: refused over rows with an entry in common. -/
def createOpenCartIndex (db : CartTables) : Except AppError IndexedCartTables :=
  if h : (db.carts.filterMap CartRow.indexEntry).Nodup then .ok { db with entries_nodup := h }
  else .error (.uniqueViolation "carts")

/-- `OneOpenCartPerUser.up` -/
def up (db : CartTables) : Except AppError IndexedCartTables :=
  createOpenCartIndex (deleteSuperseded db)

theorem createOpenCartIndex_after_delete (db : CartTables) :
    ∃ db', createOpenCartIndex (deleteSuperseded db) = .ok db' ∧
      db'.toCartTables = deleteSuperseded db := by
  have hentries : ((deleteSuperseded db).carts.filterMap CartRow.indexEntry).Nodup :=
    groups_nodup superseded_iff db.carts_nodup db.key_injOn
  exact ⟨{ deleteSuperseded db with entries_nodup := hentries }, dif_pos hentries, rfl⟩

/-- After the migration every checked-out cart is still there, every user with an open cart has one,
the newest, and the index exists. -/
theorem up_keeps_newest (db : CartTables) :
    (∀ c ∈ db.carts, c.checkedOutAt ≠ none → c ∈ (deleteSuperseded db).carts) ∧
    (∀ u, (∃ c ∈ db.carts, c.userId = u ∧ c.checkedOutAt = none) →
      ∃ c ∈ db.carts, c.userId = u ∧ c.checkedOutAt = none ∧
        (deleteSuperseded db).carts.filter
          (fun d => decide (d.userId = u ∧ d.checkedOutAt = none)) = [c] ∧
        ∀ d ∈ db.carts, d.userId = u → d.checkedOutAt = none →
          d.createdAt < c.createdAt ∨ (d.createdAt = c.createdAt ∧ d.id ≤ c.id)) ∧
    ∃ db', up db = .ok db' ∧ db'.toCartTables = deleteSuperseded db := by
  refine ⟨?_, ?_, createOpenCartIndex_after_delete db⟩
  · intro c hc hout
    exact ungrouped_kept superseded_iff hc (CartRow.indexEntry_eq_none.mpr hout)
  · intro u hu
    have hgroup : ∃ c ∈ db.carts, c.indexEntry = some u := by
      obtain ⟨c, hc, hcu, hopen⟩ := hu
      exact ⟨c, hc, CartRow.indexEntry_eq_some.mpr ⟨hopen, hcu⟩⟩
    obtain ⟨c, hc, hone, hmax⟩ :=
      filter_deleteUsing superseded_iff db.carts_nodup db.key_injOn hgroup
    have hentry : c.indexEntry = some u := by
      have hin : c ∈ (deleteUsing superseded db.carts).filter fun d => d.indexEntry = some u := by
        simp [hone]
      simpa using (List.mem_filter.mp hin).2
    obtain ⟨hopen, hcu⟩ := CartRow.indexEntry_eq_some.mp hentry
    refine ⟨c, hc, hcu, hopen, ?_, ?_⟩
    · rw [← hone]
      refine List.filter_congr fun d _ => ?_
      simp only [CartRow.indexEntry_eq_some, and_comm]
    · intro d hd hdu hdopen
      have hle := hmax d hd (CartRow.indexEntry_eq_some.mpr ⟨hdopen, hdu⟩)
      simpa [CartRow.key, Prod.Lex.toLex_le_toLex] using hle

end OrderLifecycle.Cart

import Mathlib.Data.List.Nodup
import OrderLifecycle.Auth.TokenService

open Framework

namespace OrderLifecycle.Auth

/-! ### Exclusive rights -/

section exclusive

variable {K H : Type}

/-- Each right has at most one holder. -/
def Exclusive (holds : K → H → Prop) : Prop := ∀ k a b, holds k a → holds k b → a = b

theorem Exclusive.mono {holds holds' : K → H → Prop} (h : Exclusive holds)
    (hsub : ∀ k a, holds' k a → holds k a) : Exclusive holds' :=
  fun k a b ha hb => h k a b (hsub k a ha) (hsub k b hb)

/-- The right `k₀` passes to `b₀`, and nobody who had it keeps it. -/
theorem Exclusive.pass {holds holds' : K → H → Prop} (h : Exclusive holds) (k₀ : K) (b₀ : H)
    (hleave : ∀ a, holds k₀ a → ¬holds' k₀ a)
    (hpass : ∀ k a, holds' k a → (k = k₀ ∧ a = b₀) ∨ holds k a) : Exclusive holds' := by
  intro k a b ha hb
  rcases hpass k a ha with ⟨rfl, rfl⟩ | ha₀
  · rcases hpass k b hb with ⟨-, rfl⟩ | hb₀
    · rfl
    · exact absurd hb (hleave b hb₀)
  · rcases hpass k b hb with ⟨rfl, rfl⟩ | hb₀
    · exact absurd ha (hleave a ha₀)
    · exact h k a b ha₀ hb₀

end exclusive

/-! ### Rows -/

variable {w w' : AuthWorld} {t t' : Tid} {row row' : RefreshTokenEntity}
  {p : RefreshTokenEntity → Bool} {tokens : List RefreshTokenEntity}

/-- The same row some time later. -/
def Later (row row' : RefreshTokenEntity) : Prop := row' = row ∨ row' = row.revoke

theorem Later.id (h : Later row row') : row'.id = row.id := by
  rcases h with rfl | rfl <;> rfl

theorem Later.familyId (h : Later row row') : row'.familyId = row.familyId := by
  rcases h with rfl | rfl <;> rfl

theorem Later.userId (h : Later row row') : row'.userId = row.userId := by
  rcases h with rfl | rfl <;> rfl

theorem Later.tokenHash (h : Later row row') : row'.tokenHash = row.tokenHash := by
  rcases h with rfl | rfl <;> rfl

theorem Later.revoked (h : Later row row') (hr : row.revoked = true) : row'.revoked = true := by
  rcases h with rfl | rfl
  · exact hr
  · rfl

theorem later_ite : Later row (if p row then row.revoke else row) := by
  split
  · exact .inr rfl
  · exact .inl rfl

theorem mem_revokeWhere : row' ∈ revokeWhere p tokens ↔
    ∃ row ∈ tokens, (if p row then row.revoke else row) = row' :=
  List.mem_map

theorem later_revokeWhere (hrow : row ∈ tokens) : ∃ row' ∈ revokeWhere p tokens, Later row row' :=
  ⟨_, mem_revokeWhere.mpr ⟨row, hrow, rfl⟩, later_ite⟩

theorem of_mem_revokeWhere (hrow : row' ∈ revokeWhere p tokens) :
    ∃ row ∈ tokens, Later row row' := by
  obtain ⟨row, hm, rfl⟩ := mem_revokeWhere.mp hrow
  exact ⟨row, hm, later_ite⟩

theorem revokeWhere_ids : (revokeWhere p tokens).map (·.id) = tokens.map (·.id) := by
  simp only [revokeWhere, List.map_map]
  exact List.map_congr_left fun row _ => (later_ite (p := p)).id

theorem revokeWhere_hashes :
    (revokeWhere p tokens).map (·.tokenHash) = tokens.map (·.tokenHash) := by
  simp only [revokeWhere, List.map_map]
  exact List.map_congr_left fun row _ => (later_ite (p := p)).tokenHash

/-- A row that is still unrevoked was not in the `WHERE` clause. -/
theorem live_revokeWhere (hm : row' ∈ revokeWhere p tokens) (hl : row'.revoked = false) :
    row' ∈ tokens ∧ p row' = false := by
  obtain ⟨row, hrow, he⟩ := mem_revokeWhere.mp hm
  cases hp : p row with
  | true =>
    rw [hp, if_pos rfl] at he
    subst he
    cases hl
  | false =>
    rw [hp, if_neg (by simp)] at he
    subst he
    exact ⟨hrow, hp⟩

theorem eq_of_id {tokens : List RefreshTokenEntity} (h : (tokens.map (·.id)).Nodup)
    (hr : row ∈ tokens) (hr' : row' ∈ tokens) (he : row.id = row'.id) : row = row' :=
  List.inj_on_of_nodup_map h hr hr' he

/-! ### Who may continue a family -/

def Progress.claims : Progress → Uuid → Prop
  | .claimed id, id' | .rotated id _, id' => id = id'
  | _, _ => False

/-- Call `t` has claimed a token of the family, or opened it, and has not stored a token yet. -/
def Pending (w : AuthWorld) (t : Tid) (F : Uuid) : Prop :=
  w.calls t = .opened F ∨ ∃ row ∈ w.tokens, row.familyId = F ∧ w.calls t = .claimed row.id

/-- The right to continue a family is with an unrevoked token, or with a call. -/
inductive Holder
  | token (id : Uuid)
  | call (t : Tid)

def Holds (w : AuthWorld) (F : Uuid) : Holder → Prop
  | .token id => ∃ row ∈ w.tokens, row.id = id ∧ row.familyId = F ∧ row.revoked = false
  | .call t => Pending w t F

structure Tokens (w : AuthWorld) : Prop where
  ids : (w.tokens.map (·.id)).Nodup
  hashes : (w.tokens.map (·.tokenHash)).Nodup
  family : ∀ row ∈ w.tokens, row.familyId ∈ w.families
  opened : ∀ t F, w.calls t = .opened F → F ∈ w.families ∧ ∀ row ∈ w.tokens, row.familyId ≠ F
  claimed : ∀ t id, (w.calls t).claims id → ∃ row ∈ w.tokens, row.id = id ∧ row.revoked = true
  claimedOnce : ∀ t t' id, (w.calls t).claims id → (w.calls t').claims id → t = t'
  successor : ∀ t id id', w.calls t = .rotated id id' → ∃ row ∈ w.tokens, ∃ row' ∈ w.tokens,
    row.id = id ∧ row'.id = id' ∧ row'.familyId = row.familyId ∧ row'.userId = row.userId
  exclusive : Exclusive (Holds w)

/-! ### What a statement can do -/

/-- The row of the token that a request presents. -/
def Presents (C : Crypto) (k : AuthRequest) (row : RefreshTokenEntity) : Prop :=
  ∃ presented, k = .refresh presented ∧ row.tokenHash = hashRefreshToken C presented

/-- The call `k`, come as far as `c`, may store a token of user `u` in family `F`. -/
def MayIssue (C : Crypto) (k : AuthRequest) (w : AuthWorld) (c : Progress) (F : Uuid)
    (u : UserId) : Prop :=
  (∃ dto, k = .login dto) ∧ c = .opened F ∨
    ∃ row ∈ w.tokens, Presents C k row ∧ row.familyId = F ∧ row.userId = u ∧ c = .claimed row.id

inductive TokenStep (C : Crypto) (t : Tid) (k : AuthRequest) (w w' : AuthWorld) : Prop
  | aside (htokens : w'.tokens = w.tokens) (hfamilies : w'.families = w.families)
      (hcalls : w'.calls = w.calls) (hrevocations : w'.revocations = w.revocations)
  | openFamily (F : Uuid) (hnew : F ∉ w.families) (hstart : w.calls t = .start)
      (htokens : w'.tokens = w.tokens) (hfamilies : w'.families = w.families ++ [F])
      (hcalls : w'.calls = Function.update w.calls t (.opened F))
      (hrevocations : w'.revocations = w.revocations)
  | claim (row : RefreshTokenEntity) (hrow : row ∈ w.tokens) (hlive : row.revoked = false)
      (hpresents : Presents C k row) (hstart : w.calls t = .start)
      (htokens : w'.tokens = revokeWhere (claimable row.id) w.tokens)
      (hfamilies : w'.families = w.families)
      (hcalls : w'.calls = Function.update w.calls t (.claimed row.id))
      (hrevocations : w'.revocations = w.revocations)
  | issue (row : RefreshTokenEntity) (hlive : row.revoked = false)
      (hmay : MayIssue C k w (w.calls t) row.familyId row.userId)
      (hid : ∀ r ∈ w.tokens, r.id ≠ row.id) (hhash : ∀ r ∈ w.tokens, r.tokenHash ≠ row.tokenHash)
      (htokens : w'.tokens = w.tokens ++ [row]) (hfamilies : w'.families = w.families)
      (hcalls : w'.calls = Function.update w.calls t ((w.calls t).issue row.id))
      (hrevocations : w'.revocations = w.revocations)
  | revoke (stored : RefreshTokenEntity) (hstored : stored ∈ w.tokens)
      (hpresents : Presents C k stored)
      (htokens : w'.tokens = revokeWhere (fun row => row.familyId == stored.familyId) w.tokens)
      (hfamilies : w'.families = w.families) (hcalls : w'.calls = w.calls)
      (hrevocations : w'.revocations = w.revocations ++ [stored.familyId])

variable {C : Crypto} {k : AuthRequest}

/-- Rows stay; at most they get revoked. -/
theorem TokenStep.later (hs : TokenStep C t k w w') (hrow : row ∈ w.tokens) :
    ∃ row' ∈ w'.tokens, Later row row' := by
  cases hs with
  | aside htokens => exact ⟨row, htokens ▸ hrow, .inl rfl⟩
  | openFamily _ _ _ htokens => exact ⟨row, htokens ▸ hrow, .inl rfl⟩
  | claim _ _ _ _ _ htokens => exact htokens ▸ later_revokeWhere hrow
  | issue _ _ _ _ _ htokens => exact ⟨row, htokens ▸ List.mem_append_left _ hrow, .inl rfl⟩
  | revoke _ _ _ htokens => exact htokens ▸ later_revokeWhere hrow

/-- A call only moves itself. -/
theorem TokenStep.calls (hs : TokenStep C t k w w') (h : t' ≠ t) : w'.calls t' = w.calls t' := by
  cases hs with
  | aside _ _ hcalls => rw [hcalls]
  | openFamily _ _ _ _ _ hcalls => rw [hcalls, Function.update_of_ne h]
  | claim _ _ _ _ _ _ _ hcalls => rw [hcalls, Function.update_of_ne h]
  | issue _ _ _ _ _ _ _ hcalls => rw [hcalls, Function.update_of_ne h]
  | revoke _ _ _ _ _ hcalls => rw [hcalls]

theorem TokenStep.families (hs : TokenStep C t k w w') {F : Uuid} (h : F ∈ w.families) :
    F ∈ w'.families := by
  cases hs with
  | openFamily _ _ _ _ hfamilies => exact hfamilies ▸ List.mem_append_left _ h
  | aside _ hfamilies => exact hfamilies ▸ h
  | claim _ _ _ _ _ _ hfamilies => exact hfamilies ▸ h
  | issue _ _ _ _ _ _ hfamilies => exact hfamilies ▸ h
  | revoke _ _ _ _ hfamilies => exact hfamilies ▸ h

theorem MayIssue.pending {F : Uuid} {u : UserId} (h : MayIssue C k w (w.calls t) F u) :
    Pending w t F := by
  rcases h with ⟨-, h⟩ | ⟨row, hrow, -, hF, -, h⟩
  · exact .inl h
  · exact .inr ⟨row, hrow, hF, h⟩

/-- Where a row comes from. -/
theorem TokenStep.origin (hs : TokenStep C t k w w') (hrow : row' ∈ w'.tokens) :
    (∃ row ∈ w.tokens, Later row row') ∨ (∀ row ∈ w.tokens, row.id ≠ row'.id) ∧
      MayIssue C k w (w.calls t) row'.familyId row'.userId ∧ w'.calls t = (w.calls t).issue row'.id := by
  have old (hm : row' ∈ w.tokens) : ∃ row ∈ w.tokens, Later row row' := ⟨row', hm, .inl rfl⟩
  cases hs with
  | aside htokens => exact .inl (old (htokens ▸ hrow))
  | openFamily _ _ _ htokens => exact .inl (old (htokens ▸ hrow))
  | claim _ _ _ _ _ htokens => exact .inl (of_mem_revokeWhere (htokens ▸ hrow))
  | revoke _ _ _ htokens => exact .inl (of_mem_revokeWhere (htokens ▸ hrow))
  | issue row _ hmay hid _ htokens _ hcalls =>
    rw [htokens] at hrow
    rcases List.mem_append.mp hrow with hm | hm
    · exact .inl (old hm)
    · obtain rfl := List.mem_singleton.mp hm
      exact .inr ⟨hid, hmay, by rw [hcalls, Function.update_self]⟩

theorem claims_issue {c : Progress} {id id' : Uuid} (h : (c.issue id').claims id) :
    c.claims id := by
  cases c <;> exact h

/-- A claim is an old one, or takes an unrevoked token. -/
theorem TokenStep.claims (hs : TokenStep C t k w w') {id : Uuid} (h : (w'.calls t').claims id) :
    (w.calls t').claims id ∨ t' = t ∧ ∃ row ∈ w.tokens, row.id = id ∧ row.revoked = false ∧
      row.revoke ∈ w'.tokens := by
  by_cases e : t' = t
  swap
  · exact .inl (hs.calls e ▸ h)
  subst e
  cases hs with
  | aside _ _ hcalls => exact .inl (hcalls ▸ h)
  | revoke _ _ _ _ _ hcalls => exact .inl (hcalls ▸ h)
  | openFamily F _ _ _ _ hcalls =>
    rw [hcalls, Function.update_self] at h
    exact h.elim
  | issue row _ _ _ _ _ _ hcalls =>
    rw [hcalls, Function.update_self] at h
    exact .inl (claims_issue h)
  | claim row hrow hlive _ _ htokens _ hcalls =>
    rw [hcalls, Function.update_self] at h
    refine .inr ⟨rfl, row, hrow, h, hlive, ?_⟩
    rw [htokens, mem_revokeWhere]
    exact ⟨row, hrow, if_pos (by simp [claimable, hlive])⟩

/-- A call becomes an opener only by opening a new family. -/
theorem TokenStep.opened (hs : TokenStep C t k w w') {F : Uuid} (h : w'.calls t' = .opened F) :
    w.calls t' = .opened F ∨ F ∉ w.families ∧ F ∈ w'.families ∧ w'.tokens = w.tokens := by
  by_cases e : t' = t
  swap
  · exact .inl (hs.calls e ▸ h)
  subst e
  cases hs with
  | aside _ _ hcalls => exact .inl (hcalls ▸ h)
  | revoke _ _ _ _ _ hcalls => exact .inl (hcalls ▸ h)
  | openFamily F' hnew _ htokens hfamilies hcalls =>
    rw [hcalls, Function.update_self] at h
    cases h
    exact .inr ⟨hnew, by simp [hfamilies], htokens⟩
  | claim _ _ _ _ _ _ _ hcalls =>
    rw [hcalls, Function.update_self] at h
    cases h
  | issue _ _ _ _ _ _ _ hcalls =>
    rw [hcalls, Function.update_self] at h
    cases hc : w.calls t' <;> rw [hc] at h <;> cases h

/-- A rotation is complete once the successor of the claimed token is stored. -/
theorem TokenStep.rotated (hs : TokenStep C t k w w') {id id' : Uuid}
    (h : w'.calls t' = .rotated id id') : w.calls t' = .rotated id id' ∨
      ∃ row ∈ w.tokens, ∃ row' ∈ w'.tokens, row.id = id ∧ row'.id = id' ∧
        row'.familyId = row.familyId ∧ row'.userId = row.userId := by
  by_cases e : t' = t
  swap
  · exact .inl (hs.calls e ▸ h)
  subst e
  cases hs with
  | aside _ _ hcalls => exact .inl (hcalls ▸ h)
  | revoke _ _ _ _ _ hcalls => exact .inl (hcalls ▸ h)
  | openFamily _ _ _ _ _ hcalls =>
    rw [hcalls, Function.update_self] at h
    cases h
  | claim _ _ _ _ _ _ _ hcalls =>
    rw [hcalls, Function.update_self] at h
    cases h
  | issue row _ hmay _ _ htokens _ hcalls =>
    rw [hcalls, Function.update_self] at h
    rcases hmay with ⟨-, hc⟩ | ⟨row₀, hrow₀, -, hF, hu, hc⟩
    · rw [hc] at h
      cases h
    · rw [hc] at h
      cases h
      exact .inr ⟨row₀, hrow₀, row, by simp [htokens], rfl, rfl, hF.symm, hu.symm⟩

/-! ### The invariant is kept -/

theorem not_pending_issue {F : Uuid} {u : UserId} {id : Uuid} (hm : MayIssue C k w (w.calls t) F u)
    (hc : w'.calls t = (w.calls t).issue id) (F' : Uuid) : ¬Pending w' t F' := by
  rintro (hp | ⟨row, -, -, hp⟩)
  · rcases hm with ⟨-, hm⟩ | ⟨_, _, _, _, _, hm⟩ <;> rw [hc, hm] at hp <;> cases hp
  · rcases hm with ⟨-, hm⟩ | ⟨_, _, _, _, _, hm⟩ <;> rw [hc, hm] at hp <;> cases hp

/-- Whoever did not move has no new rights. -/
theorem TokenStep.pending_same (hs : TokenStep C t k w w') (h : Tokens w)
    (he : w'.calls t' = w.calls t') {F : Uuid} (hp : Pending w' t' F) : Pending w t' F := by
  rcases hp with hc | ⟨row', hrow', hF, hc⟩
  · exact .inl (he ▸ hc)
  rw [he] at hc
  rcases hs.origin hrow' with ⟨row, hrow, hl⟩ | ⟨hid, -⟩
  · exact .inr ⟨row, hrow, hl.familyId ▸ hF, by rw [hc, hl.id]⟩
  · obtain ⟨row, hrow, heq, -⟩ := h.claimed t' row'.id (by rw [hc]; rfl)
    exact absurd heq (hid row hrow)

/-- A call gets the right to continue a family by opening it, or from an unrevoked token. -/
theorem TokenStep.pending (hs : TokenStep C t k w w') (h : Tokens w) {F : Uuid}
    (hp : Pending w' t' F) : Pending w t' F ∨ F ∉ w.families ∨
      ∃ row ∈ w.tokens, row.familyId = F ∧ row.revoked = false := by
  by_cases e : t' = t
  swap
  · exact .inl (hs.pending_same h (hs.calls e) hp)
  subst e
  cases hs with
  | aside htokens hfamilies hcalls hrevocations =>
    have hs : TokenStep C t' k w w' := .aside htokens hfamilies hcalls hrevocations
    exact .inl (hs.pending_same h (congrFun hcalls t') hp)
  | revoke stored hstored hpresents htokens hfamilies hcalls hrevocations =>
    have hs : TokenStep C t' k w w' :=
      .revoke stored hstored hpresents htokens hfamilies hcalls hrevocations
    exact .inl (hs.pending_same h (congrFun hcalls t') hp)
  | openFamily F' hnew _ _ _ hcalls =>
    rcases hp with hc | ⟨row, -, -, hc⟩
    · rw [hcalls, Function.update_self] at hc
      cases hc
      exact .inr (.inl hnew)
    · rw [hcalls, Function.update_self] at hc
      cases hc
  | claim row hrow hlive _ _ htokens _ hcalls =>
    rcases hp with hc | ⟨row', hrow', hF, hc⟩
    · rw [hcalls, Function.update_self] at hc
      cases hc
    · rw [hcalls, Function.update_self] at hc
      rw [htokens] at hrow'
      obtain ⟨row₀, hrow₀, hl⟩ := of_mem_revokeWhere hrow'
      obtain rfl := eq_of_id h.ids hrow hrow₀ ((Progress.claimed.inj hc).trans hl.id)
      exact .inr (.inr ⟨row, hrow, hl.familyId.symm.trans hF, hlive⟩)
  | issue row _ hmay _ _ _ _ hcalls =>
    exact absurd hp (not_pending_issue hmay (by rw [hcalls, Function.update_self]) F)

theorem Tokens.exclusive_step (h : Tokens w) (hs : TokenStep C t k w w') :
    Exclusive (Holds w') := by
  have live {p : RefreshTokenEntity → Bool} {F id : Uuid} (htokens : w'.tokens = revokeWhere p w.tokens)
      (ha : Holds w' F (.token id)) : Holds w F (.token id) := by
    obtain ⟨row, hrow, hid, hF, hl⟩ := ha
    rw [htokens] at hrow
    exact ⟨row, (live_revokeWhere hrow hl).1, hid, hF, hl⟩
  have others (F : Uuid) (t' : Tid) (e : t' ≠ t) (ha : Pending w' t' F) : Pending w t' F :=
    hs.pending_same h (hs.calls e) ha
  cases hs with
  | aside htokens hfamilies hcalls hrevocations =>
    refine h.exclusive.mono fun F a ha => ?_
    cases a <;> simpa only [Holds, Pending, htokens, hcalls] using ha
  | revoke stored hstored hpresents htokens hfamilies hcalls hrevocations =>
    refine h.exclusive.mono fun F a ha => ?_
    cases a with
    | token id => exact live htokens ha
    | call t' =>
      have hs : TokenStep C t k w w' :=
        .revoke stored hstored hpresents htokens hfamilies hcalls hrevocations
      exact hs.pending_same h (congrFun hcalls t') ha
  | openFamily F hnew _ htokens _ hcalls =>
    refine h.exclusive.pass F (.call t) (fun a ha => ?_) fun F' a ha => ?_
    · exfalso
      cases a with
      | token id =>
        obtain ⟨row, hrow, -, hF, -⟩ := ha
        exact hnew (hF ▸ h.family row hrow)
      | call t' =>
        rcases ha with hc | ⟨row, hrow, hF, -⟩
        · exact hnew (h.opened t' F hc).1
        · exact hnew (hF ▸ h.family row hrow)
    · cases a with
      | token id =>
        right
        simpa only [Holds, htokens] using ha
      | call t' =>
        by_cases e : t' = t
        · subst e
          simp only [Holds, Pending, htokens, hcalls, Function.update_self, Progress.opened.injEq,
            reduceCtorEq, and_false, exists_false, or_false] at ha
          exact .inl ⟨ha.symm, rfl⟩
        · exact .inr (others F' t' e ha)
  | claim row hrow hlive _ _ htokens _ hcalls =>
    have hhold : Holds w row.familyId (.token row.id) := ⟨row, hrow, rfl, rfl, hlive⟩
    refine h.exclusive.pass row.familyId (.call t) (fun a ha ha' => ?_) fun F a ha => ?_
    · obtain rfl := h.exclusive _ _ _ ha hhold
      obtain ⟨row', hrow', hid, -, hl⟩ := ha'
      rw [htokens] at hrow'
      have hp := (live_revokeWhere hrow' hl).2
      simp [claimable, hid, hl] at hp
    · cases a with
      | token id => exact .inr (live htokens ha)
      | call t' =>
        by_cases e : t' = t
        · subst e
          rcases ha with hc | ⟨row', hrow', hF, hc⟩
          · rw [hcalls, Function.update_self] at hc
            cases hc
          · rw [hcalls, Function.update_self] at hc
            rw [htokens] at hrow'
            obtain ⟨row₀, hrow₀, hl⟩ := of_mem_revokeWhere hrow'
            obtain rfl := eq_of_id h.ids hrow hrow₀ ((Progress.claimed.inj hc).trans hl.id)
            exact .inl ⟨hF.symm.trans hl.familyId, rfl⟩
        · exact .inr (others F t' e ha)
  | issue row _ hmay _ _ htokens _ hcalls =>
    have hhold : Holds w row.familyId (.call t) := hmay.pending
    have hdone := not_pending_issue hmay (by rw [hcalls, Function.update_self])
    refine h.exclusive.pass row.familyId (.token row.id) (fun a ha ha' => ?_) fun F a ha => ?_
    · obtain rfl := h.exclusive _ _ _ ha hhold
      exact hdone _ ha'
    · cases a with
      | token id =>
        obtain ⟨row', hrow', he, hF, hl⟩ := ha
        rw [htokens] at hrow'
        rcases List.mem_append.mp hrow' with hm | hm
        · exact .inr ⟨row', hm, he, hF, hl⟩
        · obtain rfl := List.mem_singleton.mp hm
          exact .inl ⟨hF.symm, by rw [he]⟩
      | call t' =>
        have e : t' ≠ t := by
          rintro rfl
          exact hdone F ha
        exact .inr (others F t' e ha)

/-- A step of any call keeps the invariant. -/
theorem Tokens.step (h : Tokens w) (hs : TokenStep C t k w w') : Tokens w' where
  ids := by
    cases hs with
    | aside htokens => exact htokens ▸ h.ids
    | openFamily _ _ _ htokens => exact htokens ▸ h.ids
    | claim _ _ _ _ _ htokens =>
      rw [htokens, revokeWhere_ids]
      exact h.ids
    | revoke _ _ _ htokens =>
      rw [htokens, revokeWhere_ids]
      exact h.ids
    | issue row _ _ hid _ htokens =>
      rw [htokens, List.map_append, List.nodup_append]
      refine ⟨h.ids, by simp, ?_⟩
      simpa using hid
  hashes := by
    cases hs with
    | aside htokens => exact htokens ▸ h.hashes
    | openFamily _ _ _ htokens => exact htokens ▸ h.hashes
    | claim _ _ _ _ _ htokens =>
      rw [htokens, revokeWhere_hashes]
      exact h.hashes
    | revoke _ _ _ htokens =>
      rw [htokens, revokeWhere_hashes]
      exact h.hashes
    | issue row _ _ _ hhash htokens =>
      rw [htokens, List.map_append, List.nodup_append]
      refine ⟨h.hashes, by simp, ?_⟩
      simpa using hhash
  family row' hrow' := by
    rcases hs.origin hrow' with ⟨row, hrow, hl⟩ | ⟨-, hmay, -⟩
    · rw [hl.familyId]
      exact hs.families (h.family row hrow)
    · rcases hmay.pending with hc | ⟨row, hrow, hF, -⟩
      · exact hs.families (h.opened t _ hc).1
      · exact hs.families (hF ▸ h.family row hrow)
  opened t' F hc := by
    rcases hs.opened hc with hc' | ⟨hnew, hF, htokens⟩
    · obtain ⟨hF, hnone⟩ := h.opened t' F hc'
      refine ⟨hs.families hF, fun row' hrow' he => ?_⟩
      rcases hs.origin hrow' with ⟨row, hrow, hl⟩ | ⟨-, hmay, hnow⟩
      · exact hnone row hrow (hl.familyId.symm.trans he)
      · -- the call that stored the row would have to be the opener itself
        have hpending : Holds w F (.call t) := he ▸ hmay.pending
        have ht : Holder.call t = .call t' := h.exclusive F _ _ hpending (.inl hc')
        cases ht
        rw [hc, hc'] at hnow
        cases hnow
    · refine ⟨hF, fun row hrow he => hnew ?_⟩
      rw [htokens] at hrow
      exact he ▸ h.family row hrow
  claimed t' id hc := by
    rcases hs.claims hc with hc | ⟨-, row, -, hid, -, hrow⟩
    · obtain ⟨row, hrow, hid, hr⟩ := h.claimed t' id hc
      obtain ⟨row', hrow', hl⟩ := hs.later hrow
      exact ⟨row', hrow', hl.id.trans hid, hl.revoked hr⟩
    · exact ⟨row.revoke, hrow, hid, rfl⟩
  claimedOnce t₁ t₂ id h₁ h₂ := by
    have fresh {row : RefreshTokenEntity} {t' : Tid} (hrow : row ∈ w.tokens)
        (hlive : row.revoked = false) (hc : (w.calls t').claims row.id) : False := by
      obtain ⟨row', hrow', hid, hr⟩ := h.claimed t' row.id hc
      obtain rfl := eq_of_id h.ids hrow' hrow hid
      rw [hlive] at hr
      cases hr
    rcases hs.claims h₁ with o₁ | ⟨rfl, row, hrow, rfl, hlive, -⟩
    · rcases hs.claims h₂ with o₂ | ⟨rfl, row, hrow, rfl, hlive, -⟩
      · exact h.claimedOnce t₁ t₂ id o₁ o₂
      · exact (fresh hrow hlive o₁).elim
    · rcases hs.claims h₂ with o₂ | ⟨rfl, -⟩
      · exact (fresh hrow hlive o₂).elim
      · rfl
  successor t' id id' hc := by
    rcases hs.rotated hc with hc | ⟨row, hrow, row', hrow', hid, hid', hF, hu⟩
    · obtain ⟨row, hrow, row', hrow', hid, hid', hF, hu⟩ := h.successor t' id id' hc
      obtain ⟨r, hr, hl⟩ := hs.later hrow
      obtain ⟨r', hr', hl'⟩ := hs.later hrow'
      refine ⟨r, hr, r', hr', hl.id.trans hid, hl'.id.trans hid', ?_, ?_⟩
      · rw [hl.familyId, hl'.familyId, hF]
      · rw [hl.userId, hl'.userId, hu]
    · obtain ⟨r, hr, hl⟩ := hs.later hrow
      refine ⟨r, hr, row', hrow', hl.id.trans hid, hid', ?_, ?_⟩
      · rw [hl.familyId, hF]
      · rw [hl.userId, hu]
  exclusive := h.exclusive_step hs

end OrderLifecycle.Auth

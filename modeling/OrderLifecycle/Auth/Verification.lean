import OrderLifecycle.Auth.Rotation
import OrderLifecycle.Framework.RelyGuarantee

open Framework

namespace OrderLifecycle.Auth

/-- Calls move by `TokenStep`; an administrator touches users only. -/
def tokenLogic (C : Crypto) : Logic AuthWorld AuthChoice AuthRequest where
  inv := Tokens
  guar := TokenStep C
  envGuar := fun w w' => w'.tokens = w.tokens ∧ w'.families = w.families ∧ w'.calls = w.calls ∧
    w'.revocations = w.revocations
  choice := fun _ => True

variable {C : Crypto} {t : Tid} {k : AuthRequest} {w w' : AuthWorld} {β : Type}
  {P : AuthWorld → Prop} {c : Progress} {F : Uuid} {u : UserId} {stored : RefreshTokenEntity}
  {presented : String}

/-! ### What survives -/

def At (t : Tid) (c : Progress) (w : AuthWorld) : Prop := w.calls t = c

/-- The row read earlier is still there. -/
def Stored (stored : RefreshTokenEntity) (w : AuthWorld) : Prop :=
  ∃ row ∈ w.tokens, Later stored row

/-- Call `t` has rotated the token it was given. -/
def Rotated (C : Crypto) (presented : String) (t : Tid) (w : AuthWorld) : Prop :=
  ∃ row ∈ w.tokens, row.tokenHash = hashRefreshToken C presented ∧
    ∃ id', w.calls t = .rotated row.id id'

theorem stable_at : (tokenLogic C).Stable t (At t c) := by
  rintro w w' ⟨-, -, ⟨t', k, hne, hs⟩ | ⟨-, -, hcalls, -⟩⟩ h
  · exact (hs.calls hne.symm).trans h
  · exact (congrFun hcalls t).trans h

theorem Later.trans {row row' row'' : RefreshTokenEntity} (h : Later row row')
    (h' : Later row' row'') : Later row row'' := by
  rcases h' with rfl | rfl
  · exact h
  · rcases h with rfl | rfl
    · exact .inr rfl
    · exact .inr rfl

theorem lasting_stored : (tokenLogic C).Lasting (Stored stored) := by
  rintro w w' - - (⟨t', k, hs⟩ | ⟨htokens, -⟩) ⟨row, hrow, hl⟩
  · obtain ⟨row', hrow', hl'⟩ := hs.later hrow
    exact ⟨row', hrow', hl.trans hl'⟩
  · exact ⟨row, htokens ▸ hrow, hl⟩

theorem lasting_mayIssue : (tokenLogic C).Lasting fun w => MayIssue C k w c F u := by
  rintro w w' - - hr (hc | ⟨row, hrow, hk, hF, hu, hc⟩)
  · exact .inl hc
  · rcases hr with ⟨t', k, hs⟩ | ⟨htokens, -⟩
    · obtain ⟨row', hrow', hl⟩ := hs.later hrow
      obtain ⟨presented, rfl, hh⟩ := hk
      exact .inr ⟨row', hrow', ⟨presented, rfl, hl.tokenHash.trans hh⟩, hl.familyId.trans hF,
        hl.userId.trans hu, by rw [hc, hl.id]⟩
    · exact .inr ⟨row, htokens ▸ hrow, hk, hF, hu, hc⟩

theorem stable_rotated : (tokenLogic C).Stable t (Rotated C presented t) := by
  rintro w w' hr ⟨row, hrow, hh, id', hc⟩
  have hc' : At t (.rotated row.id id') w' := stable_at w w' hr hc
  obtain ⟨-, -, ⟨t', k, -, hs⟩ | ⟨htokens, -⟩⟩ := hr
  · obtain ⟨row', hrow', hl⟩ := hs.later hrow
    exact ⟨row', hrow', hl.tokenHash.trans hh, id', by rw [hl.id]; exact hc'⟩
  · exact ⟨row, htokens ▸ hrow, hh, id', hc'⟩

/-! ### Statements -/

/-- A statement that changes nothing. -/
theorem hoare_read {f : Stmt AuthWorld AuthChoice (Except AuthError β)} {R : β → AuthWorld → Prop}
    (hP : (tokenLogic C).Stable t P)
    (h : ∀ w ch r w', P w → f t ch w = some (r, w') → w' = w ∧ ∀ a, r = .ok a → R a w) :
    Hoare (tokenLogic C) t k P (stmt f) R fun _ _ => True := by
  refine hoare_stmt hP fun w ch r w' hi _ hp hf => ?_
  obtain ⟨rfl, hR⟩ := h w ch r w' hp hf
  refine ⟨hi, .aside rfl rfl rfl rfl, ?_⟩
  cases r with
  | ok a => exact hR a rfl
  | error e => trivial

/-- A statement outside a transaction, which changes nothing when it fails. -/
theorem hoare_query {f : Tid → AuthChoice → AuthWorld → Option (Except AuthError β × AuthWorld)}
    {R : β → AuthWorld → Prop} (hP : (tokenLogic C).Stable t P)
    (h : ∀ w ch r w', Tokens w → P w → f t ch w = some (r, w') →
      TokenStep C t k w w' ∧ ∀ a, r = .ok a → R a w') :
    Hoare (tokenLogic C) t k P (query f) R fun _ _ => True := by
  refine hoare_stmt hP fun w ch r w' hi _ hp hf => ?_
  split at hf
  · cases hf
    exact ⟨hi, .aside rfl rfl rfl rfl, trivial⟩
  · obtain ⟨hs, hR⟩ := h w ch r w' hi hp hf
    refine ⟨hi.step hs, hs, ?_⟩
    cases r with
    | ok a => exact hR a rfl
    | error e => trivial

theorem hoare_findByHash {tokenHash : String} :
    Hoare (tokenLogic C) t k (At t .start) (findByHash tokenHash)
      (fun found w => At t .start w ∧ ∀ stored user, found = some (stored, user) →
        stored.tokenHash = tokenHash ∧ Stored stored w ∧
        ∀ u, user = some u → u.id = stored.userId) fun _ _ => True := by
  refine hoare_query stable_at fun w ch r w' _ hp hf => ?_
  cases hf
  refine ⟨.aside rfl rfl rfl rfl, ?_⟩
  rintro a ⟨⟩
  refine ⟨hp, fun stored user hfound => ?_⟩
  obtain ⟨row, hrow, he⟩ := Option.map_eq_some_iff.mp hfound
  obtain ⟨rfl, rfl⟩ := Prod.mk.inj he
  refine ⟨by simpa using List.find?_some hrow, ⟨row, List.mem_of_find?_eq_some hrow, .inl rfl⟩, ?_⟩
  intro u hu
  simpa using List.find?_some hu

theorem hoare_clock (hP : (tokenLogic C).Stable t P) :
    Hoare (tokenLogic C) t k P clock (fun _ => P) fun _ _ => True := by
  refine hoare_read hP fun w ch r w' hp hf => ?_
  cases hf
  exact ⟨rfl, fun _ _ => hp⟩

theorem hoare_signAsync (hP : (tokenLogic C).Stable t P) {payload : JwtPayload} :
    Hoare (tokenLogic C) t k P (signAsync C payload) (fun _ => P) fun _ _ => True := by
  refine hoare_read hP fun w ch r w' hp hf => ?_
  cases hf
  exact ⟨rfl, fun _ _ => hp⟩

theorem hoare_randomToken (hP : (tokenLogic C).Stable t P) :
    Hoare (tokenLogic C) t k P randomToken (fun _ => P) fun _ _ => True := by
  refine hoare_read hP fun w ch r w' hp hf => ?_
  cases hf
  exact ⟨rfl, fun _ _ => hp⟩

/-- The claim is won by the first call to come, and by no other. -/
theorem hoare_claimToken (hh : stored.tokenHash = hashRefreshToken C presented) :
    Hoare (tokenLogic C) t (.refresh presented) (fun w => At t .start w ∧ Stored stored w)
      (claimToken stored.id)
      (fun affected w => Stored stored w ∧ (affected ≠ 0 →
        At t (.claimed stored.id) w ∧
          MayIssue C (.refresh presented) w (.claimed stored.id) stored.familyId stored.userId))
      fun _ _ => True := by
  refine hoare_query (stable_at.and lasting_stored.stable) fun w ch r w' hi hp hf => ?_
  obtain ⟨hstart, row, hrow, hl⟩ := hp
  cases hf
  by_cases ha : w.tokens.countP (claimable stored.id) = 0
  · have hnone : revokeWhere (claimable stored.id) w.tokens = w.tokens := by
      rw [List.countP_eq_zero] at ha
      exact (List.map_congr_left fun row hr => if_neg (ha row hr)).trans (List.map_id _)
    simp only [ha, hnone, if_true]
    refine ⟨.aside rfl rfl rfl rfl, ?_⟩
    rintro a ⟨⟩
    exact ⟨⟨row, hrow, hl⟩, fun h => absurd rfl h⟩
  · simp only [ha, if_false]
    obtain ⟨live, hlive, hc⟩ := List.countP_pos_iff.mp (Nat.pos_of_ne_zero ha)
    simp only [claimable, Bool.and_eq_true, beq_iff_eq, Bool.not_eq_true'] at hc
    -- ids are unique, so the row affected is the one that was read
    obtain rfl := eq_of_id hi.ids hrow hlive (hl.id.trans hc.1.symm)
    have hs : TokenStep C t (.refresh presented) w { w with
        tokens := revokeWhere (claimable stored.id) w.tokens
        calls := Function.update w.calls t (.claimed stored.id) } :=
      .claim row hrow hc.2 ⟨presented, rfl, hl.tokenHash.trans hh⟩ hstart
        (by rw [hl.id]) rfl (by rw [hl.id]) rfl
    refine ⟨hs, ?_⟩
    rintro a ⟨⟩
    obtain ⟨row', hrow', hl'⟩ := hs.later hrow
    have hlater : Later stored row' := hl.trans hl'
    refine ⟨⟨row', hrow', hlater⟩, fun _ => ⟨Function.update_self .., .inr ?_⟩⟩
    exact ⟨row', hrow', ⟨presented, rfl, hlater.tokenHash.trans hh⟩, hlater.familyId,
      hlater.userId, by rw [hlater.id]⟩

theorem hoare_revokeFamily (hh : stored.tokenHash = hashRefreshToken C presented) :
    Hoare (tokenLogic C) t (.refresh presented) (Stored stored) (revokeFamily stored.familyId)
      (fun _ _ => True) fun _ _ => True := by
  refine hoare_query lasting_stored.stable fun w ch r w' _ hp hf => ?_
  obtain ⟨row, hrow, hl⟩ := hp
  cases hf
  refine ⟨.revoke row hrow ⟨presented, rfl, hl.tokenHash.trans hh⟩ ?_ rfl rfl ?_, fun _ _ => trivial⟩
  · rw [hl.familyId]
  · rw [hl.familyId]

theorem hoare_openFamily :
    Hoare (tokenLogic C) t k (At t .start) openFamily
      (fun familyId => At t (.opened familyId)) fun _ _ => True := by
  refine hoare_stmt stable_at fun w ch r w' hi _ hp hf => ?_
  split at hf
  · cases hf
  · next hnew =>
    cases hf
    have hs : TokenStep C t k w { w with
        families := w.families ++ [ch.fresh]
        calls := Function.update w.calls t (.opened ch.fresh) } :=
      .openFamily ch.fresh hnew hp rfl rfl rfl rfl
    exact ⟨hi.step hs, hs, Function.update_self ..⟩

theorem hoare_insertToken {tokenHash : String} {lifetime : Nat} :
    Hoare (tokenLogic C) t k (fun w => At t c w ∧ MayIssue C k w c F u)
      (insertToken u F tokenHash lifetime) (fun _ w => ∃ id, At t (c.issue id) w)
      fun _ _ => True := by
  refine hoare_query (stable_at.and lasting_mayIssue.stable) fun w ch r w' _ hp hf => ?_
  obtain ⟨hat, hmay⟩ := hp
  split at hf
  · cases hf
  · next hid =>
    split at hf
    · cases hf
      exact ⟨.aside rfl rfl rfl rfl, nofun⟩
    · next hcond =>
      cases hf
      simp only [List.any_eq_true, beq_iff_eq, not_exists, not_and] at hid
      simp only [Bool.or_eq_true, List.any_eq_true, beq_iff_eq, not_or, not_exists, not_and] at hcond
      refine ⟨.issue _ rfl (hat ▸ hmay) (fun r hr => hid r hr) (fun r hr => hcond.1 r hr)
        rfl rfl rfl rfl, ?_⟩
      rintro a ⟨⟩
      have hnow : w.calls t = c := hat
      exact ⟨ch.fresh, (Function.update_self ..).trans (by rw [hnow])⟩

/-! ### The services -/

theorem hoare_issueTokens {user : UserEntity} (hu : user.id = u) :
    Hoare (tokenLogic C) t k (fun w => At t c w ∧ MayIssue C k w c F u) (issueTokens C user F)
      (fun _ w => ∃ id, At t (c.issue id) w) fun _ _ => True := by
  have hstable : (tokenLogic C).Stable t fun w => At t c w ∧ MayIssue C k w c F u :=
    stable_at.and lasting_mayIssue.stable
  subst hu
  refine hoare_bind (hoare_signAsync hstable) fun _ => ?_
  refine hoare_bind ?_ fun _ => hoare_pure fun _ h => h
  refine hoare_bind (hoare_randomToken hstable) fun _ => ?_
  exact hoare_bind hoare_insertToken fun _ => hoare_pure fun _ h => h

theorem hoare_revokeFamilyOnReuse {R : β → AuthWorld → Prop}
    (hh : stored.tokenHash = hashRefreshToken C presented) :
    Hoare (tokenLogic C) t (.refresh presented) (Stored stored) (revokeFamilyOnReuse stored) R
      fun _ _ => True :=
  hoare_bind (hoare_revokeFamily hh) fun _ => hoare_throw fun _ _ => trivial

theorem hoare_claimAndIssue {user : UserEntity} (hu : user.id = stored.userId)
    (hh : stored.tokenHash = hashRefreshToken C presented) :
    Hoare (tokenLogic C) t (.refresh presented) (fun w => At t .start w ∧ Stored stored w)
      (claimAndIssue C stored user) (fun _ => Rotated C presented t) fun _ _ => True := by
  refine hoare_bind (hoare_claimToken hh) fun affected => hoare_ite (fun _ => ?_) fun ha => ?_
  · exact hoare_pre (fun _ h => h.1) (hoare_revokeFamilyOnReuse hh)
  · refine hoare_conseq (hoare_frame lasting_stored (hoare_issueTokens (c := .claimed stored.id) hu))
      (fun w h => ⟨h.2 ha, h.1⟩) ?_ fun _ _ _ => trivial
    rintro _ w ⟨⟨id, hat⟩, row, hrow, hl⟩
    exact ⟨row, hrow, hl.tokenHash.trans hh, id, by rw [hl.id]; exact hat⟩

theorem hoare_rotate :
    Hoare (tokenLogic C) t (.refresh presented) (At t .start) (rotate C presented)
      (fun _ => Rotated C presented t) fun _ _ => True := by
  refine hoare_bind hoare_findByHash fun found => ?_
  match found with
  | none => exact hoare_throw fun _ _ => trivial
  | some (stored, user) =>
    refine hoare_pre (P := fun w => (stored.tokenHash = hashRefreshToken C presented ∧
      ∀ u, user = some u → u.id = stored.userId) ∧ At t .start w ∧ Stored stored w) ?_ ?_
    · rintro w ⟨hat, h⟩
      obtain ⟨hh, hs, hu⟩ := h stored user rfl
      exact ⟨⟨hh, hu⟩, hat, hs⟩
    refine hoare_fact fun ⟨hh, hu⟩ => ?_
    refine hoare_ite (fun _ => hoare_throw fun _ _ => trivial) fun _ => ?_
    refine hoare_ite (fun _ => ?_) fun _ => ?_
    · exact hoare_pre (fun _ h => h.2) (hoare_revokeFamilyOnReuse hh)
    refine hoare_bind (hoare_clock (stable_at.and lasting_stored.stable)) fun _ => ?_
    refine hoare_ite (fun _ => hoare_throw fun _ _ => trivial) fun _ => ?_
    cases user with
    | none => exact hoare_throw fun _ _ => trivial
    | some user => exact hoare_claimAndIssue (hu user rfl) hh

theorem hoare_login {dto : LoginDTO} :
    Hoare (tokenLogic C) t (.login dto) (At t .start) (login C dto) (fun _ _ => True) fun _ _ => True := by
  refine hoare_bind (Q := fun _ => At t .start) ?_ fun user => ?_
  · refine hoare_query stable_at fun w ch r w' _ hp hf => ?_
    cases hf
    exact ⟨.aside rfl rfl rfl rfl, fun _ _ => hp⟩
  cases user with
  | none => exact hoare_throw fun _ _ => trivial
  | some user =>
    refine hoare_ite (fun _ => hoare_throw fun _ _ => trivial) fun _ => ?_
    refine hoare_ite (fun _ => hoare_throw fun _ _ => trivial) fun _ => ?_
    refine hoare_bind hoare_openFamily fun familyId => ?_
    refine hoare_conseq (hoare_issueTokens (c := .opened familyId) rfl) ?_ (fun _ _ _ => trivial)
      fun _ _ _ => trivial
    exact fun w h => ⟨h, .inl ⟨⟨dto, rfl⟩, rfl⟩⟩

/-! ### Every run -/

def Completed (C : Crypto) (t : Tid) :
    AuthRequest → Except AuthError TokenPair → AuthWorld → Prop
  | .refresh presented, .ok _ => Rotated C presented t
  | _, _ => fun _ => True

theorem verified_authSystem (C : Crypto) :
    Verified (authSystem C) (tokenLogic C) (fun t => At t .start) (Completed C) where
  idle_stable _ := stable_at
  post_stable t k r := by
    cases k with
    | login => exact .true
    | refresh presented =>
      cases r with
      | ok _ => exact stable_rotated
      | error _ => exact .true
  body t k w hi hidle _ := by
    cases k with
    | login dto =>
      refine wp_mono ?_ (hoare_login (C := C) w hidle)
      exact fun _ _ _ => trivial
    | refresh presented =>
      refine wp_mono ?_ (hoare_rotate w hidle)
      intro r w h
      cases r with
      | ok _ => exact h
      | error _ => trivial
  env e w w' hi he := by
    cases he
    exact ⟨⟨hi.ids, hi.hashes, hi.family, hi.opened, hi.claimed, hi.claimedOnce, hi.successor,
      hi.exclusive⟩, rfl, rfl, rfl, rfl⟩
  crash t k w hi := ⟨hi, .aside rfl rfl rfl rfl⟩

end OrderLifecycle.Auth

import OrderLifecycle.Auth.Verification

open Framework

namespace OrderLifecycle.Auth

/-! ### Runs of logins and rotations -/

abbrev Sessions := Config AuthWorld AuthChoice AuthRequest (Except AuthError TokenPair)
abbrev SessionMove := Label AuthChoice AuthRequest SetDisabled

/-- A run from registered users of whom nobody is logged in. -/
def Reaches (C : Crypto) (users : List UserEntity) (moves : List SessionMove) (s : Sessions) :
    Prop :=
  (authSystem C).run (.init (.initial users)) moves = some s

/-- Call `t` has exchanged `presented` for the pair `pair`. -/
def Rotates (s : Sessions) (t : Tid) (presented : String) (pair : TokenPair) : Prop :=
  s.threads t = some (.refresh presented, .running (.ret (.ok pair)))

/-- Some call has claimed token `id` and stored token `id'` in its place. -/
def AuthWorld.Succeeds (w : AuthWorld) (id id' : Uuid) : Prop := ∃ t, w.calls t = .rotated id id'

/-- The unrevoked tokens of a family. -/
def AuthWorld.live (w : AuthWorld) (F : Uuid) : List RefreshTokenEntity :=
  w.tokens.filter fun row => row.familyId == F && !row.revoked

/-- The row is in the family of the token presented. -/
def InFamilyOf (C : Crypto) (w : AuthWorld) (presented : String) (row : RefreshTokenEntity) : Prop :=
  ∃ stored ∈ w.tokens, stored.tokenHash = hashRefreshToken C presented ∧
    stored.familyId = row.familyId

variable {C : Crypto} {users : List UserEntity} {moves later : List SessionMove}
  {s s₁ s' : Sessions} {t t' : Tid} {w w' : AuthWorld} {F : Uuid} {k : AuthRequest}
  {row : RefreshTokenEntity} {presented : String}

theorem tokens_initial (users : List UserEntity) : Tokens (.initial users) where
  ids := .nil
  hashes := .nil
  family _ h := nomatch h
  opened _ _ h := nomatch h
  claimed _ _ h := h.elim
  claimedOnce _ _ _ h := h.elim
  successor _ _ _ h := nomatch h
  exclusive := by
    rintro F (id | t) b h
    · obtain ⟨row, hrow, -⟩ := h
      exact nomatch hrow
    · rcases h with h | ⟨row, hrow, -⟩
      · exact nomatch h
      · exact nomatch hrow

theorem admits (l : SessionMove) : (tokenLogic C).Admits l := by
  cases l <;> exact trivial

theorem Reaches.sound (h : Reaches C users moves s) :
    Sound (tokenLogic C) (fun t => At t .start) (Completed C) s :=
  .run (verified_authSystem C) (fun l _ => admits l) h (.init (tokens_initial users) fun _ => rfl)

theorem Tokens.live_le_one (h : Tokens w) (F : Uuid) : (w.live F).length ≤ 1 := by
  have hnodup : (w.live F).Nodup := (List.Nodup.of_map _ h.ids).filter _
  have same : ∀ row ∈ w.live F, ∀ row' ∈ w.live F, row = row' := by
    intro row hrow row' hrow'
    simp only [AuthWorld.live, List.mem_filter, Bool.and_eq_true, beq_iff_eq,
      Bool.not_eq_true'] at hrow hrow'
    obtain ⟨hm, hF, hl⟩ := hrow
    obtain ⟨hm', hF', hl'⟩ := hrow'
    have he := h.exclusive F (.token row.id) (.token row'.id) ⟨row, hm, rfl, hF, hl⟩
      ⟨row', hm', rfl, hF', hl'⟩
    exact eq_of_id h.ids hm hm' (Holder.token.inj he)
  match hw : w.live F with
  | [] => exact Nat.zero_le 1
  | [_] => exact Nat.le_refl 1
  | row :: row' :: rest =>
    rw [hw] at hnodup same
    have he := same row (by simp) row' (by simp)
    simp [he] at hnodup

/-- A revoked row stays as it is. -/
theorem run_revoked (hs : Sound (tokenLogic C) (fun t => At t .start) (Completed C) s)
    (h' : (authSystem C).run s later = some s') (hrow : row ∈ s.shared.tokens)
    (hr : row.revoked = true) : row ∈ s'.shared.tokens := by
  have hkey := (authSystem C).run_induct (A := fun _ => True) (P := fun s : Sessions =>
    Sound (tokenLogic C) (fun t => At t .start) (Completed C) s ∧ row ∈ s.shared.tokens)
    (fun s s' l _ hn ⟨hs, hrow⟩ => ?_) (fun _ _ => trivial) h' ⟨hs, hrow⟩
  · exact hkey.2
  obtain ⟨hs', hm⟩ := hs.next (verified_authSystem C) (admits l) hn
  refine ⟨hs', ?_⟩
  rcases hm.cases with he | ⟨htokens, -⟩ | ⟨t, k, th, -, -, hstep⟩
  · exact he ▸ hrow
  · exact htokens ▸ hrow
  · obtain ⟨row', hrow', hl⟩ := hstep.later hrow
    rcases hl with rfl | rfl
    · exact hrow'
    · have hsame : row.revoke = row := by
        cases row
        simp only at hr
        subst hr
        rfl
      exact hsame ▸ hrow'

/-- A rotation touches no row outside the family of its token. -/
theorem TokenStep.frame (hs : TokenStep C t (.refresh presented) w w') (h : Tokens w)
    (hout : ¬InFamilyOf C w presented row) : row ∈ w'.tokens ↔ row ∈ w.tokens := by
  have outside {p : RefreshTokenEntity → Bool} (hp : ∀ r ∈ w.tokens, p r = true →
      InFamilyOf C w presented r) : row ∈ revokeWhere p w.tokens ↔ row ∈ w.tokens := by
    constructor
    · intro hrow
      obtain ⟨r, hr, he⟩ := mem_revokeWhere.mp hrow
      split at he
      · next hpr =>
        have hin := hp r hr hpr
        rw [← he] at hout
        exact absurd hin hout
      · exact he ▸ hr
    · intro hrow
      refine mem_revokeWhere.mpr ⟨row, hrow, if_neg fun hpr => hout (hp row hrow hpr)⟩
  cases hs with
  | aside htokens => rw [htokens]
  | openFamily _ _ _ htokens => rw [htokens]
  | claim stored hstored _ hpresents _ htokens =>
    rw [htokens]
    obtain ⟨_, he, hh⟩ := hpresents
    cases he
    refine outside fun r hr hp => ⟨stored, hstored, hh, ?_⟩
    simp only [claimable, Bool.and_eq_true, beq_iff_eq] at hp
    rw [eq_of_id h.ids hr hstored hp.1]
  | revoke stored hstored hpresents htokens =>
    rw [htokens]
    obtain ⟨_, he, hh⟩ := hpresents
    cases he
    exact outside fun r _ hp => ⟨stored, hstored, hh, (beq_iff_eq.mp hp).symm⟩
  | issue new _ hmay _ _ htokens =>
    rw [htokens, List.mem_append, List.mem_singleton]
    refine or_iff_left ?_
    rintro rfl
    rcases hmay with ⟨⟨_, he⟩, -⟩ | ⟨stored, hstored, ⟨_, he, hh⟩, hF, -⟩
    · cases he
    · cases he
      exact hout ⟨stored, hstored, hh, hF⟩

/-- The law of token families, in every reachable state and along every run. -/
theorem token_families (h : Reaches C users moves s)
    (h' : (authSystem C).run s later = some s') :
    (∀ F, (s.shared.live F).length ≤ 1) ∧
    (∀ t t' presented pair pair', Rotates s t presented pair → Rotates s t' presented pair' →
      t = t') ∧
    (∀ id a b, s.shared.Succeeds id a → s.shared.Succeeds id b → a = b) ∧
    (∀ id a, s.shared.Succeeds id a → ∃ row ∈ s.shared.tokens, ∃ row' ∈ s.shared.tokens,
      row.id = id ∧ row'.id = a ∧ row'.familyId = row.familyId ∧ row'.userId = row.userId) ∧
    (∀ row ∈ s.shared.tokens, row.revoked = true → row ∈ s'.shared.tokens) ∧
    (∀ t presented th ch s₁, s.threads t = some (.refresh presented, th) →
      (authSystem C).next s (.step t ch) = some s₁ →
      ∀ row, ¬InFamilyOf C s.shared presented row →
        (row ∈ s₁.shared.tokens ↔ row ∈ s.shared.tokens)) := by
  have hs := h.sound
  have hi : Tokens s.shared := hs.inv
  refine ⟨hi.live_le_one, fun t t' presented pair pair' hr hr' => ?_, fun id a b ha hb => ?_,
    fun id a ⟨t, ht⟩ => hi.successor t id a ht, fun row hrow hr => run_revoked hs h' hrow hr,
    fun t presented th ch s₁ ht hn row hout => ?_⟩
  · obtain ⟨row, hrow, hh, id, hc⟩ : Rotated C presented t s.shared := hs.result hr
    obtain ⟨row', hrow', hh', id', hc'⟩ : Rotated C presented t' s.shared := hs.result hr'
    obtain rfl : row = row' :=
      List.inj_on_of_nodup_map hi.hashes hrow hrow' (hh.trans hh'.symm)
    exact hi.claimedOnce t t' row.id (by rw [hc]; rfl) (by rw [hc']; rfl)
  · obtain ⟨t, ht⟩ := ha
    obtain ⟨t', ht'⟩ := hb
    obtain rfl : t = t' := hi.claimedOnce t t' id (by rw [ht]; rfl) (by rw [ht']; rfl)
    rw [ht] at ht'
    cases ht'
    rfl
  · obtain ⟨-, k, th', ht', -, hstep⟩ := hs.next (verified_authSystem C) (admits _) hn
    rw [ht] at ht'
    cases ht'
    exact hstep.frame hi hout

/-! ### One user, to try things on -/

def alice : UserEntity := ⟨1, "alice@example.com", "secret", .user, false⟩

def plainCrypto : Crypto where
  sha256 := id
  compare := fun plain hash => plain == hash
  sign := fun _ => "jwt"
  normalizeEmail := id
  refreshExpiresInDays := none

/-- `n` statements of call `t`; what it stores is token `t`, with id `t`. -/
def proceed (t n : Nat) : List SessionMove :=
  List.replicate n (.step t { fresh := t, bytes := toString t })

def loggingIn : List SessionMove :=
  .start 0 (.login ⟨"alice@example.com", "secret"⟩) :: proceed 0 5

def refreshing (t : Tid) (presented : String) (n : Nat) : List SessionMove :=
  .start t (.refresh presented) :: proceed t n

def trial (moves : List SessionMove) : Option Sessions :=
  (authSystem plainCrypto).run (.init (.initial [alice])) moves

/-- What the call of thread `t` got. -/
def outcome (s : Sessions) (t : Tid) : Option (AuthRequest × Except AuthError TokenPair) :=
  match s.threads t with
  | some (k, .running (.ret r)) => some (k, r)
  | _ => none

theorem rotates_of_outcome {pair : TokenPair}
    (h : outcome s t = some (.refresh presented, .ok pair)) : Rotates s t presented pair := by
  unfold outcome at h
  split at h
  · next ht =>
    cases h
    exact ht
  · cases h

/-- Call 1 rotates the token of the login; call 2 presents the same token again. -/
theorem token_families_reuse : ∃ s s' : Sessions,
    Reaches plainCrypto [alice] (loggingIn ++ refreshing 1 "0" 6) s ∧
    (authSystem plainCrypto).run s (refreshing 2 "0" 2) = some s' ∧
    Rotates s 1 "0" ⟨"jwt", "1"⟩ ∧ (s.shared.live 0).length ≤ 1 ∧
    (∀ t pair, Rotates s t "0" pair → t = 1) ∧
    ∃ row ∈ s'.shared.tokens, row.id = 0 ∧ row.revoked = true := by
  have hout : (trial (loggingIn ++ refreshing 1 "0" 6)).map (fun s => (outcome s 1,
      ((authSystem plainCrypto).run s (refreshing 2 "0" 2)).isSome,
      s.shared.tokens.any fun row => row.id == 0 && row.revoked)) =
      some (some (.refresh "0", .ok ⟨"jwt", "1"⟩), true, true) := by decide +kernel
  obtain ⟨s, hs, hout⟩ := Option.map_eq_some_iff.mp hout
  simp only [Prod.mk.injEq, List.any_eq_true, Bool.and_eq_true, beq_iff_eq] at hout
  obtain ⟨h1, h2, row, hrow, hid, hr⟩ := hout
  obtain ⟨s', hs'⟩ := Option.isSome_iff_exists.mp h2
  obtain ⟨hlive, honce, -, -, hstays, -⟩ := token_families hs hs'
  have hrot : Rotates s 1 "0" ⟨"jwt", "1"⟩ := rotates_of_outcome h1
  exact ⟨s, s', hs, hs', hrot, hlive 0, fun t pair h => honce t 1 "0" pair _ h hrot,
    row, hstays row hrow hr, hid, hr⟩

end OrderLifecycle.Auth

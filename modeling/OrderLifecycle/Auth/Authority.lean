import Mathlib.Data.List.Nodup
import OrderLifecycle.Auth.Administration
import OrderLifecycle.Auth.Rotation
import OrderLifecycle.Framework.History

open Framework

namespace OrderLifecycle.Auth

variable {B : Bcrypt} {C : Crypto} {V : JwtVerifier C} {k : AccessRequest} {w w' : AuthWorld}
  {user : UserEntity} {id : UserId} {t : Tid} {ε α β : Type}

/-! ### Accounts -/

/-- The account of the user is there, enabled or not. -/
def Has (user : UserEntity) (w : AuthWorld) : Prop :=
  ∃ disabled, { user with disabled := disabled } ∈ w.users

/-- The credentials are those of the user. -/
def Matches (B : Bcrypt) (C : Crypto) (dto : LoginDTO) (user : UserEntity) : Prop :=
  C.normalizeEmail dto.email = user.email ∧ B.compare dto.password user.password = true

def Flag (id : UserId) (disabled : Bool) (w : AuthWorld) : Prop :=
  ∃ user ∈ w.users, user.id = id ∧ user.disabled = disabled

/-- A refresh token of the user is stored. -/
def HasToken (userId : UserId) (w : AuthWorld) : Prop := ∃ row ∈ w.tokens, row.userId = userId

/-- The route that switches the flag. -/
def switchRoute (id : UserId) : Bool → Route
  | true => .disable id
  | false => .enable id

/-- The header carries a token that passes for this payload. -/
def Carries (V : JwtVerifier C) (authorization : Option String) (payload : JwtPayload) : Prop :=
  ∃ token now, extractBearerToken authorization = some token ∧ V.verify now token = some payload

theorem has_of_mem (h : user ∈ w.users) : Has user w := ⟨user.disabled, h⟩

theorem id_unique (h : (w.users.map (·.id)).Nodup) {a b : UserEntity} (ha : a ∈ w.users)
    (hb : b ∈ w.users) (he : a.id = b.id) : a = b :=
  List.inj_on_of_nodup_map h ha hb he

theorem Flag.unique (h : (w.users.map (·.id)).Nodup) {a b : Bool} (ha : Flag id a w)
    (hb : Flag id b w) : a = b := by
  obtain ⟨user, hu, hid, rfl⟩ := ha
  obtain ⟨user', hu', hid', rfl⟩ := hb
  rw [id_unique h hu hu' (hid.trans hid'.symm)]

theorem Has.unique (h : (w.users.map (·.id)).Nodup) {a b : UserEntity} (ha : Has a w) (hb : Has b w)
    (he : a.id = b.id) : a.email = b.email ∧ a.password = b.password ∧ a.role = b.role := by
  obtain ⟨da, ha⟩ := ha
  obtain ⟨db, hb⟩ := hb
  have heq := id_unique h ha hb he
  simp only [UserEntity.mk.injEq] at heq
  exact ⟨heq.2.1, heq.2.2.1, heq.2.2.2.1⟩

/-! ### What a statement can do -/

/-- Accounts stay as they are; administrators come from the operator, tokens from a login or another
token of the user, and flags change by the hand of an administrator. -/
structure AccessStep (B : Bcrypt) (V : JwtVerifier C) (k : AccessRequest) (w w' : AuthWorld) :
    Prop where
  kept : ∀ user, Has user w → Has user w'
  made : ∀ user, Has user w' → user.role = .admin → Has user w ∨
    ∃ credentials, k = .account (.seedAdmin credentials) ∧
      C.normalizeEmail (C.normalizeEmail credentials.email) = user.email
  rows : ∀ row ∈ w.tokens, ∃ row' ∈ w'.tokens, row'.tokenHash = row.tokenHash ∧
    row'.userId = row.userId
  issued : ∀ row ∈ w'.tokens, HasToken row.userId w ∨ ∃ user dto, Has user w' ∧
    user.id = row.userId ∧ k = .account (.session (.login dto)) ∧ Matches B C dto user
  flags : ∀ id disabled, Flag id disabled w' → Flag id disabled w ∨
    (disabled = false ∧ ∀ user ∈ w.users, user.id ≠ id) ∨
    ∃ authorization payload, k = .guarded authorization (switchRoute id disabled) ∧
      Carries V authorization payload ∧ payload.role = .admin

/-- The users are as they were, and of the tokens at most some were revoked. -/
structure Aside (w w' : AuthWorld) : Prop where
  users : w'.users = w.users
  later : ∀ row ∈ w.tokens, ∃ row' ∈ w'.tokens, Later row row'
  origin : ∀ row' ∈ w'.tokens, ∃ row ∈ w.tokens, Later row row'

theorem Aside.of_eq (hu : w'.users = w.users) (ht : w'.tokens = w.tokens) : Aside w w' where
  users := hu
  later row hr := ⟨row, ht ▸ hr, .inl rfl⟩
  origin row hr := ⟨row, ht ▸ hr, .inl rfl⟩

theorem Aside.revoked {p : RefreshTokenEntity → Bool} (hu : w'.users = w.users)
    (ht : w'.tokens = revokeWhere p w.tokens) : Aside w w' where
  users := hu
  later _ hr := ht ▸ later_revokeWhere hr
  origin _ hr := of_mem_revokeWhere (ht ▸ hr)

theorem Aside.step (h : Aside w w') : AccessStep B V k w w' where
  kept user hu := by rwa [Has, h.users]
  made user hu _ := by
    rw [Has, h.users] at hu
    exact .inl hu
  rows row hr := by
    obtain ⟨row', hr', hl⟩ := h.later row hr
    exact ⟨row', hr', hl.tokenHash, hl.userId⟩
  issued row hr := by
    obtain ⟨row₀, hr₀, hl⟩ := h.origin row hr
    exact .inl ⟨row₀, hr₀, hl.userId.symm⟩
  flags id disabled hf := by
    rw [Flag, h.users] at hf
    exact .inl hf

def accessLogic (B : Bcrypt) (V : JwtVerifier C) : Logic AuthWorld AuthChoice AccessRequest where
  inv := fun w => (w.users.map (·.id)).Nodup
  guar := fun _ => AccessStep B V
  envGuar := Eq
  choice := fun _ => True

theorem lasting_has : (accessLogic B V).Lasting (Has user) := by
  intro w w' _ _ hr hu
  rcases hr with ⟨t, k, hs⟩ | rfl
  · exact hs.kept user hu
  · exact hu

/-- The row of a refresh token stays, with its user. -/
def Stores (tokenHash : String) (userId : UserId) (w : AuthWorld) : Prop :=
  ∃ row ∈ w.tokens, row.tokenHash = tokenHash ∧ row.userId = userId

theorem lasting_stores {tokenHash : String} : (accessLogic B V).Lasting (Stores tokenHash id) := by
  intro w w' _ _ hr hs
  rcases hr with ⟨t, k, hstep⟩ | rfl
  · obtain ⟨row, hrow, hh, hu⟩ := hs
    obtain ⟨row', hrow', hh', hu'⟩ := hstep.rows row hrow
    exact ⟨row', hrow', hh'.trans hh, hu'.trans hu⟩
  · exact hs

theorem lasting_hasToken : (accessLogic B V).Lasting (HasToken id) := by
  intro w w' hi hi' hr hs
  obtain ⟨row, hrow, hu⟩ := hs
  obtain ⟨row', hrow', -, hu'⟩ := lasting_stores w w' hi hi' hr ⟨row, hrow, rfl, hu⟩
  exact ⟨row', hrow', hu'⟩

/-- Nothing is asked of the steps beyond the guarantee. -/
def AnyStep : Past AuthWorld → AuthWorld → AuthWorld → Prop := fun _ _ _ => True

/-- The user was read, and was enabled. -/
def SeenEnabled (user : UserEntity) (h : Past AuthWorld) : Prop :=
  user.disabled = false ∧ ∃ m ∈ h, user ∈ m.1.users

/-- What `issueTokens` needs: a user who was read enabled, with a token already or the credentials of
this login. -/
structure Ready (B : Bcrypt) (C : Crypto) (k : AccessRequest) (user : UserEntity)
    (h : Past AuthWorld) (w : AuthWorld) : Prop where
  seen : SeenEnabled user h
  has : Has user w
  may : HasToken user.id w ∨ ∃ dto, k = .account (.session (.login dto)) ∧ Matches B C dto user

variable {P : Past AuthWorld → AuthWorld → Prop} {R : β → Past AuthWorld → AuthWorld → Prop}

theorem SeenEnabled.snoc {h : Past AuthWorld} (hs : SeenEnabled user h) (m : AuthWorld × AuthWorld) :
    SeenEnabled user (h ++ [m]) := by
  obtain ⟨hd, m', hm', hu⟩ := hs
  exact ⟨hd, m', List.mem_append_left _ hm', hu⟩

theorem stable_ready (h : Past AuthWorld) : (accessLogic B V).Stable t (Ready B C k user h) := by
  intro w w' hr hready
  refine ⟨hready.seen, lasting_has.stable w w' hr hready.has, ?_⟩
  rcases hready.may with hm | hm
  · exact .inl (lasting_hasToken.stable w w' hr hm)
  · exact .inr hm

theorem Ready.step {h : Past AuthWorld} (hr : Ready B C k user h w)
    (hs : AccessStep B V k w w') : Ready B C k user (h ++ [(w, w')]) w' where
  seen := hr.seen.snoc _
  has := hs.kept user hr.has
  may := hr.may.imp_left fun ⟨row, hrow, hu⟩ => by
    obtain ⟨row', hrow', -, hu'⟩ := hs.rows row hrow
    exact ⟨row', hrow', hu'.trans hu⟩

/-! ### Statements -/

/-- A statement that at most revokes tokens. -/
theorem recalls_aside {f : Stmt AuthWorld AuthChoice (Except ε β)}
    (hP : ∀ h, (accessLogic B V).Stable t (P h))
    (hf : ∀ h w ch r w', P h w → f t ch w = some (r, w') →
      Aside w w' ∧ ∀ a, r = .ok a → R a (h ++ [(w, w')]) w') :
    Recalls (accessLogic B V) AnyStep t k P (stmt f) R fun _ _ _ => True := by
  apply recalls_stmt hP
  intro h w ch r w' hi _ hp hfw
  obtain ⟨haside, hR⟩ := hf h w ch r w' hp hfw
  have hinv : (accessLogic B V).inv w' := by
    show (w'.users.map (·.id)).Nodup
    rw [haside.users]
    exact hi
  refine ⟨hinv, haside.step, trivial, ?_⟩
  cases r with
  | ok a => exact hR a rfl
  | error e => trivial

/-- The same outside any transaction. -/
theorem recalls_query {f : Tid → AuthChoice → AuthWorld → Option (Except AuthError β × AuthWorld)}
    (hP : ∀ h, (accessLogic B V).Stable t (P h))
    (hf : ∀ h w ch r w', P h w → f t ch w = some (r, w') →
      Aside w w' ∧ ∀ a, r = .ok a → R a (h ++ [(w, w')]) w') :
    Recalls (accessLogic B V) AnyStep t k P (query f) R fun _ _ _ => True := by
  apply recalls_aside hP
  intro h w ch r w' hp hfw
  split at hfw
  · cases hfw
    exact ⟨.of_eq rfl rfl, nofun⟩
  · exact hf h w ch r w' hp hfw

/-- What is ready stays ready. -/
theorem recalls_ready {f : Stmt AuthWorld AuthChoice (Except ε β)}
    (hf : ∀ w ch r w', f t ch w = some (r, w') → Aside w w') :
    Recalls (accessLogic B V) AnyStep t k (Ready B C k user) (stmt f)
      (fun _ => Ready B C k user) fun _ _ _ => True := by
  apply recalls_aside stable_ready
  intro h w ch r w' hready hfw
  have haside := hf w ch r w' hfw
  exact ⟨haside, fun _ _ => hready.step (V := V) haside.step⟩

/-! ### `TokenService` -/

/-- The tokens of the pair are those of the user, who was read enabled. -/
structure Granted (C : Crypto) (user : UserEntity) (pair : TokenPair) (h : Past AuthWorld)
    (w : AuthWorld) : Prop where
  seen : SeenEnabled user h
  has : Has user w
  access : pair.accessToken = C.sign ⟨user.id, user.role⟩
  refresh : Stores (hashRefreshToken C pair.refreshToken) user.id w

theorem stable_granted {pair : TokenPair} (h : Past AuthWorld) :
    (accessLogic B V).Stable t (Granted C user pair h) := by
  intro w w' hr hg
  exact ⟨hg.seen, lasting_has.stable w w' hr hg.has, hg.access, lasting_stores.stable w w' hr hg.refresh⟩

theorem recalls_insertToken {familyId : Uuid} {tokenHash : String} {lifetime : Nat} :
    Recalls (accessLogic B V) AnyStep t k (Ready B C k user)
      (insertToken user.id familyId tokenHash lifetime)
      (fun _ h w => SeenEnabled user h ∧ Has user w ∧ Stores tokenHash user.id w)
      fun _ _ _ => True := by
  apply recalls_stmt stable_ready
  intro h w ch r w' hi _ hready hf
  split at hf
  · cases hf
    exact ⟨hi, (Aside.of_eq rfl rfl).step, trivial, trivial⟩
  · dsimp only at hf
    split at hf
    · cases hf
    · split at hf
      · cases hf
        exact ⟨hi, (Aside.of_eq rfl rfl).step, trivial, trivial⟩
      · cases hf
        refine ⟨hi, ⟨fun _ hu => hu, fun _ hu _ => .inl hu, fun row hr => ?_, fun row hr => ?_,
          fun _ _ hf => .inl hf⟩, trivial, hready.seen.snoc _, hready.has, ?_⟩
        · exact ⟨row, List.mem_append_left _ hr, rfl, rfl⟩
        · rcases List.mem_append.mp hr with hr | hr
          · exact .inl ⟨row, hr, rfl⟩
          · -- the new row is that of the user who is logging in, or has a token already
            obtain rfl := List.mem_singleton.mp hr
            rcases hready.may with hm | ⟨dto, hk, hmatch⟩
            · exact .inl hm
            · exact .inr ⟨user, dto, hready.has, rfl, hk, hmatch⟩
        · exact ⟨_, List.mem_append_right _ List.mem_cons_self, rfl, rfl⟩

theorem recalls_issueTokens {familyId : Uuid} :
    Recalls (accessLogic B V) AnyStep t k (Ready B C k user)
      (issueTokens (C.withBcrypt B) user familyId) (Granted C user) fun _ _ _ => True := by
  apply recalls_bind (Q := fun accessToken h w =>
    accessToken = C.sign ⟨user.id, user.role⟩ ∧ Ready B C k user h w)
  · apply recalls_aside stable_ready
    intro h w ch r w' hready hf
    cases hf
    refine ⟨.of_eq rfl rfl, fun a ha => ?_⟩
    split at ha
    · cases ha
    · cases ha
      exact ⟨rfl, hready.step (V := V) (Aside.of_eq rfl rfl).step⟩
  · intro accessToken
    apply recalls_fact
    intro haccess
    apply recalls_bind (Q := fun refreshToken h w => SeenEnabled user h ∧ Has user w ∧
      Stores (hashRefreshToken C refreshToken) user.id w)
    · apply recalls_bind
      · apply recalls_ready
        intro w ch r w' hf
        cases hf
        exact .of_eq rfl rfl
      · intro refreshToken
        apply recalls_bind recalls_insertToken
        intro _
        exact recalls_pure fun _ _ hp => hp
    · intro refreshToken
      apply recalls_pure
      intro h w hp
      exact ⟨hp.1, hp.2.1, haccess, hp.2.2⟩

theorem recalls_revokeFamilyOnReuse {stored : RefreshTokenEntity}
    {Q : α → Past AuthWorld → AuthWorld → Prop} :
    Recalls (accessLogic B V) AnyStep t k (fun _ _ => True)
      (revokeFamilyOnReuse stored : AuthService α) Q fun _ _ _ => True := by
  apply recalls_bind (Q := fun _ _ _ => True)
  · apply recalls_query fun _ => .true
    intro h w ch r w' _ hf
    cases hf
    exact ⟨.revoked rfl rfl, fun _ _ => trivial⟩
  · intro _
    exact recalls_throw fun _ _ _ => trivial

theorem recalls_rotate {presented : String} :
    Recalls (accessLogic B V) AnyStep t k (fun _ _ => True) (rotate (C.withBcrypt B) presented)
      (fun pair h w => ∃ user, Granted C user pair h w) fun _ _ _ => True := by
  apply recalls_bind (Q := fun found h w => ∀ stored user, found = some (stored, some user) →
    (∃ m ∈ h, user ∈ m.1.users) ∧ Has user w ∧ HasToken user.id w)
  · apply recalls_query fun _ => .true
    intro h w ch r w' _ hf
    cases hf
    refine ⟨.of_eq rfl rfl, fun a ha stored user hfound => ?_⟩
    cases ha
    obtain ⟨row, hrow, he⟩ := Option.map_eq_some_iff.mp hfound
    obtain ⟨rfl, huser⟩ := Prod.mk.inj he
    have hmem : user ∈ w.users := List.mem_of_find?_eq_some huser
    have hid : user.id = row.userId := by
      have hfind := List.find?_some huser
      simpa using hfind
    refine ⟨⟨(w, w), by simp, hmem⟩, has_of_mem hmem, row, ?_, hid.symm⟩
    exact List.mem_of_find?_eq_some hrow
  · intro found
    cases found with
    | none => exact recalls_throw fun _ _ _ => trivial
    | some p =>
      obtain ⟨stored, found⟩ := p
      apply recalls_ite
      · intro _
        exact recalls_throw fun _ _ _ => trivial
      · intro henabled
        apply recalls_ite
        · intro _
          exact recalls_pre (fun _ _ _ => trivial) recalls_revokeFamilyOnReuse
        · intro _
          cases found with
          | none =>
            apply recalls_bind (Q := fun _ _ _ => True)
            · apply recalls_pre (P := fun _ _ => True) fun _ _ _ => trivial
              apply recalls_aside fun _ => .true
              intro h w ch r w' _ hf
              cases hf
              exact ⟨.of_eq rfl rfl, fun _ _ => trivial⟩
            · intro now
              apply recalls_ite <;> intro _ <;> exact recalls_throw fun _ _ _ => trivial
          | some user =>
            have henabled : user.disabled = false := by simpa using henabled
            apply recalls_pre (P := Ready B C k user)
            · intro h w hp
              obtain ⟨hseen, hhas, htoken⟩ := hp stored user rfl
              exact ⟨⟨henabled, hseen⟩, hhas, .inl htoken⟩
            · apply recalls_bind (Q := fun _ => Ready B C k user)
              · apply recalls_ready
                intro w ch r w' hf
                cases hf
                exact .of_eq rfl rfl
              · intro now
                apply recalls_ite
                · intro _
                  exact recalls_throw fun _ _ _ => trivial
                · intro _
                  apply recalls_bind (Q := fun _ => Ready B C k user)
                  · apply recalls_ready
                    intro w ch r w' hf
                    split at hf
                    · cases hf
                      exact .of_eq rfl rfl
                    · cases hf
                      exact .revoked rfl rfl
                  · intro affected
                    apply recalls_ite
                    · intro _
                      exact recalls_pre (fun _ _ _ => trivial) recalls_revokeFamilyOnReuse
                    · intro _
                      exact recalls_conseq recalls_issueTokens (fun _ _ hp => hp)
                        (fun _ _ _ hp => ⟨user, hp⟩) fun _ _ _ hp => hp

/-! ### `AuthService` -/

theorem recalls_login {dto : LoginDTO} :
    Recalls (accessLogic B V) AnyStep t (.account (.session (.login dto))) (fun _ _ => True)
      (login (C.withBcrypt B) dto) (fun pair h w => ∃ user, Granted C user pair h w)
      fun _ _ _ => True := by
  apply recalls_bind (Q := fun found h w => ∀ user, found = some user →
    (∃ m ∈ h, user ∈ m.1.users) ∧ Has user w ∧ C.normalizeEmail dto.email = user.email)
  · apply recalls_query fun _ => .true
    intro h w ch r w' _ hf
    cases hf
    refine ⟨.of_eq rfl rfl, fun a ha user hfound => ?_⟩
    cases ha
    have hmem : user ∈ w.users := List.mem_of_find?_eq_some hfound
    have hemail : user.email = C.normalizeEmail dto.email := by
      have hfind := List.find?_some hfound
      simpa [Crypto.withBcrypt] using hfind
    exact ⟨⟨(w, w), by simp, hmem⟩, has_of_mem hmem, hemail.symm⟩
  · intro found
    cases found with
    | none => exact recalls_throw fun _ _ _ => trivial
    | some user =>
      apply recalls_ite
      · intro _
        exact recalls_throw fun _ _ _ => trivial
      · intro hcompare
        apply recalls_ite
        · intro _
          exact recalls_throw fun _ _ _ => trivial
        · intro henabled
          have henabled : user.disabled = false := by simpa using henabled
          have hcompare : B.compare dto.password user.password = true := by
            simpa [Crypto.withBcrypt] using hcompare
          apply recalls_pre (P := Ready B C (.account (.session (.login dto))) user)
          · intro h w hp
            obtain ⟨hseen, hhas, hemail⟩ := hp user rfl
            exact ⟨⟨henabled, hseen⟩, hhas, .inr ⟨dto, rfl, hemail, hcompare⟩⟩
          · apply recalls_bind
            · apply recalls_ready
              intro w ch r w' hf
              split at hf
              · cases hf
              · cases hf
                exact .of_eq rfl rfl
            · intro familyId
              exact recalls_conseq recalls_issueTokens (fun _ _ hp => hp)
                (fun _ _ _ hp => ⟨user, hp⟩) fun _ _ _ hp => hp

end OrderLifecycle.Auth

import Mathlib.Data.List.Nodup
import OrderLifecycle.Auth.Registration
import OrderLifecycle.Auth.Sessions
import OrderLifecycle.Framework.Confined

open Framework

namespace OrderLifecycle.Auth

variable {B : Bcrypt} {C : Crypto} {strong : String → Bool} {t : Tid} {k : AccountRequest}
  {w w' : AuthWorld} {email password : String} {α β : Type}

theorem bcryptKey_length (password : String) : (bcryptKey password).length ≤ 72 :=
  List.length_take_le 72 (utf8 password)

/-- A password passes for the one a hash was made of where `bcrypt` sees the same bytes of both. -/
theorem compare_hash (B : Bcrypt) (salt p q : String) :
    B.compare q (B.hash salt p) = true ↔ bcryptKey p = bcryptKey q := by
  rw [Bcrypt.compare, Bcrypt.hash, B.saltOf_digest salt _ (bcryptKey_length p), beq_iff_eq]
  constructor
  · intro h
    exact (B.digest_injective salt _ _ (bcryptKey_length q) (bcryptKey_length p) h).symm
  · intro h
    rw [h]

/-! ### The users -/

/-- Nobody's email or hash changes, and nobody is deleted. -/
def Grows (w w' : AuthWorld) : Prop :=
  ∀ user ∈ w.users, ∃ user' ∈ w'.users, user'.email = user.email ∧ user'.password = user.password

theorem grows_of_users (h : w'.users = w.users) : Grows w w' :=
  fun user hu => ⟨user, h ▸ hu, rfl, rfl⟩

/-- An email has one user; all that anybody does to the users is to add some or to disable them. -/
def accountLogic : Logic AuthWorld AuthChoice AccountRequest where
  inv := fun w => (w.users.map (·.email)).Nodup
  guar := fun _ _ => Grows
  envGuar := Grows
  choice := fun _ => True

/-- The user with this email has a hash of this kind. -/
def HasHash (email : String) (kind : String → Prop) (w : AuthWorld) : Prop :=
  ∃ user ∈ w.users, user.email = email ∧ kind user.password

theorem lasting_hasHash {kind : String → Prop} : accountLogic.Lasting (HasHash email kind) := by
  intro w w' _ _ hstep ⟨user, hu, he, hk⟩
  have hgrows : Grows w w' := hstep.elim (fun ⟨_, _, h⟩ => h) id
  obtain ⟨user', hu', he', hp'⟩ := hgrows user hu
  exact ⟨user', hu', he'.trans he, hp' ▸ hk⟩

theorem user_unique (h : accountLogic.inv w) {user user' : UserEntity} (hu : user ∈ w.users)
    (hu' : user' ∈ w.users) (he : user.email = user'.email) : user = user' :=
  List.inj_on_of_nodup_map h hu hu' he

/-! ### Sessions leave the users alone -/

def KeepsUsers (β : Type) (f : Stmt AuthWorld AuthChoice β) : Prop :=
  ∀ t ch w r w', f t ch w = some (r, w') → w'.users = w.users

abbrev LeavesUsers (x : AuthService α) : Prop := Confined KeepsUsers (fun _ => True) x

theorem leaves_stmt {f : Stmt AuthWorld AuthChoice (Except AuthError β)} (hf : KeepsUsers _ f) :
    LeavesUsers (stmt f) :=
  confined_stmt hf fun _ _ _ _ _ _ => trivial

theorem leaves_query {f : Tid → AuthChoice → AuthWorld → Option (Except AuthError β × AuthWorld)}
    (hf : KeepsUsers _ f) : LeavesUsers (query f) := by
  refine leaves_stmt fun t ch w r w' h => ?_
  split at h
  · cases h
    rfl
  · exact hf t ch w r w' h

theorem leaves_throw {e : AuthError} : LeavesUsers (throw e : AuthService α) := confined_throw trivial

theorem leaves_issueTokens (user : UserEntity) (familyId : Uuid) :
    LeavesUsers (issueTokens C user familyId) := by
  have hsign : LeavesUsers (signAsync C { sub := user.id, role := user.role }) := by
    refine leaves_stmt fun t ch w r w' h => ?_
    cases h
    rfl
  have hrandom : LeavesUsers randomToken := by
    refine leaves_stmt fun t ch w r w' h => ?_
    cases h
    rfl
  have hinsert (tokenHash : String) (lifetime : Nat) :
      LeavesUsers (insertToken user.id familyId tokenHash lifetime) := by
    refine leaves_query fun t ch w r w' h => ?_
    split at h
    · cases h
    · split at h <;> cases h <;> rfl
  refine confined_bind hsign fun _ => confined_bind ?_ fun _ => confined_pure
  refine confined_bind hrandom fun _ => ?_
  exact confined_bind (hinsert _ _) fun _ => confined_pure

theorem leaves_revokeFamilyOnReuse (stored : RefreshTokenEntity) :
    LeavesUsers (revokeFamilyOnReuse stored : AuthService α) := by
  refine confined_bind ?_ fun _ => leaves_throw
  refine leaves_query fun t ch w r w' h => ?_
  cases h
  rfl

theorem leaves_rotate (presented : String) : LeavesUsers (rotate C presented) := by
  have hfind : LeavesUsers (findByHash (hashRefreshToken C presented)) := by
    refine leaves_query fun t ch w r w' h => ?_
    cases h
    rfl
  have hclock : LeavesUsers clock := by
    refine leaves_stmt fun t ch w r w' h => ?_
    cases h
    rfl
  have hclaim (id : Uuid) : LeavesUsers (claimToken id) := by
    refine leaves_query fun t ch w r w' h => ?_
    cases h
    rfl
  refine confined_bind hfind fun found => ?_
  match found with
  | none => exact leaves_throw
  | some (stored, user) =>
    refine confined_ite (fun _ => leaves_throw) fun _ => ?_
    refine confined_ite (fun _ => leaves_revokeFamilyOnReuse stored) fun _ => ?_
    refine confined_bind hclock fun _ => ?_
    refine confined_ite (fun _ => leaves_throw) fun _ => ?_
    cases user with
    | none => exact leaves_throw
    | some user =>
      refine confined_bind (hclaim stored.id) fun _ => ?_
      exact confined_ite (fun _ => leaves_revokeFamilyOnReuse stored)
        fun _ => leaves_issueTokens user stored.familyId

/-- What leaves the users alone keeps the logic. -/
theorem wp_leaves {p : Prog AuthWorld AuthChoice α} {R : α → Prop} (hp : p.All KeepsUsers R)
    (w : AuthWorld) : wp accountLogic t k p (fun _ _ => True) w := by
  refine wp_mono (fun _ _ _ => trivial) (hp.wp fun β f hf ch w r w' hi h => ?_)
  have hu : w'.users = w.users := hf _ _ _ _ _ h
  refine ⟨?_, grows_of_users hu⟩
  show (w'.users.map (·.email)).Nodup
  rw [hu]
  exact hi

theorem hoare_leaves {x : AuthService α} (hx : LeavesUsers x) :
    Hoare accountLogic t k (fun _ => True) x (fun _ _ => True) fun _ _ => True := by
  intro w _
  refine wp_mono (fun r w _ => ?_) (wp_leaves hx w)
  cases r <;> trivial

/-! ### What the calls promise -/

/-- A login that succeeds found a user with the email whose hash the password passes for. -/
theorem hoare_login_matches {dto : LoginDTO} :
    Hoare accountLogic t k (fun _ => True) (login (C.withBcrypt B) dto)
      (fun _ => HasHash (C.normalizeEmail dto.email) fun h => B.compare dto.password h = true)
      fun _ _ => True := by
  refine hoare_bind (Q := fun found w => ∀ user, found = some user →
    HasHash (C.normalizeEmail dto.email) (fun h => h = user.password) w) ?_ fun found => ?_
  · refine hoare_stmt .true fun w ch r w' hi _ _ h => ?_
    split at h
    · cases h
      exact ⟨hi, grows_of_users rfl, trivial⟩
    · cases h
      refine ⟨hi, grows_of_users rfl, fun user hfound => ?_⟩
      have hemail : user.email = C.normalizeEmail dto.email := by
        have hfound' := List.find?_some hfound
        simpa [Crypto.withBcrypt] using hfound'
      exact ⟨user, List.mem_of_find?_eq_some hfound, hemail, rfl⟩
  · cases found with
    | none => exact hoare_throw fun _ _ => trivial
    | some user =>
      refine hoare_ite (fun _ => hoare_throw fun _ _ => trivial) fun hmatch => ?_
      refine hoare_ite (fun _ => hoare_throw fun _ _ => trivial) fun _ => ?_
      have hopen : LeavesUsers openFamily := by
        refine leaves_stmt fun t ch w r w' h => ?_
        split at h <;> cases h
        rfl
      have hrest := hoare_frame (F := HasHash (C.normalizeEmail dto.email)
        fun h => h = user.password) lasting_hasHash
        (hoare_leaves (t := t) (k := k) (confined_bind hopen fun familyId =>
          leaves_issueTokens (C := C.withBcrypt B) user familyId))
      refine hoare_conseq hrest (fun w h => ⟨trivial, h user rfl⟩) ?_ fun _ _ _ => trivial
      intro _ w ⟨_, user', hu, he, hp⟩
      have hcompare : B.compare dto.password user.password = true := by
        simpa [Crypto.withBcrypt] using hmatch
      have hsame : user'.password = user.password := hp
      exact ⟨user', hu, he, hsame ▸ hcompare⟩

/-- The user that is saved has its normalised email and its hash. -/
theorem hoare_saveUser {role : UserRole} :
    Hoare accountLogic t k (fun _ => True) (saveUser C email password role)
      (fun _ => HasHash (C.normalizeEmail email) fun h => h = password) fun _ _ => True := by
  refine hoare_stmt .true fun w ch r w' hi _ _ h => ?_
  split at h
  · cases h
    exact ⟨hi, grows_of_users rfl, trivial⟩
  · split at h
    · cases h
    · split at h
      · cases h
        exact ⟨hi, grows_of_users rfl, trivial⟩
      · next hnew =>
        cases h
        simp only [List.any_eq_true, beq_iff_eq, not_exists, not_and] at hnew
        refine ⟨?_, ?_, ?_⟩
        · have hfresh : C.normalizeEmail email ∉ w.users.map (·.email) := by
            intro hmem
            obtain ⟨user, hu, he⟩ := List.mem_map.mp hmem
            exact hnew user hu he
          show (List.map (·.email) (w.users ++ [_])).Nodup
          rw [List.map_append]
          exact List.Nodup.append hi (List.nodup_singleton _)
            (List.disjoint_singleton.mpr hfresh)
        · exact fun user hu => ⟨user, List.mem_append_left _ hu, rfl, rfl⟩
        · exact ⟨_, List.mem_append_right _ List.mem_cons_self, rfl, rfl⟩

theorem hoare_hashPassword {p : String} :
    Hoare accountLogic t k (fun _ => True) (hashPassword B p)
      (fun hashed _ => ∃ salt, hashed = B.hash salt p) fun _ _ => True := by
  refine hoare_stmt .true fun w ch r w' hi _ _ h => ?_
  cases h
  exact ⟨hi, grows_of_users rfl, ch.bytes, rfl⟩

/-- A registration that succeeds stored a hash of its password under its email. -/
theorem hoare_register {dto : RegisterDTO} :
    Hoare accountLogic t k (fun _ => True) (register B C dto)
      (fun _ => HasHash (C.normalizeEmail dto.email) fun h => ∃ salt, h = B.hash salt dto.password)
      fun _ _ => True := by
  refine hoare_bind hoare_hashPassword fun hashed => ?_
  refine hoare_pre (P := fun w => (∃ salt, hashed = B.hash salt dto.password) ∧ True)
    (fun w h => ⟨h, trivial⟩) (hoare_fact fun ⟨salt, hhash⟩ => ?_)
  refine hoare_tryCatch (E := fun _ _ => True) ?_ fun error => ?_
  · refine hoare_conseq hoare_saveUser (fun _ _ => trivial) ?_ fun _ _ _ => trivial
    intro _ w ⟨user, hu, he, hp⟩
    exact ⟨user, hu, he, salt, Eq.trans hp hhash⟩
  · cases error <;> exact hoare_throw fun _ _ => trivial

theorem hoare_seedAdmin {credentials : AdminCredentials} :
    Hoare accountLogic t k (fun _ => True) (seedAdmin B C credentials) (fun _ _ => True)
      fun _ _ => True := by
  refine hoare_bind (Q := fun _ _ => True) ?_ fun existing => ?_
  · refine hoare_stmt .true fun w ch r w' hi _ _ h => ?_
    split at h <;> cases h <;> exact ⟨hi, grows_of_users rfl, trivial⟩
  · cases existing with
    | some user => exact hoare_pure fun _ _ => trivial
    | none =>
      refine hoare_bind (hoare_conseq hoare_hashPassword (fun _ h => h) (fun _ _ _ => trivial)
        fun _ _ h => h) fun hashed => ?_
      exact hoare_bind (hoare_conseq hoare_saveUser (fun _ h => h) (fun _ _ _ => trivial)
        fun _ _ h => h) fun _ => hoare_pure fun _ _ => trivial

/-! ### Every run -/

/-- What a call that has succeeded found or left. -/
def AccountPost (B : Bcrypt) (C : Crypto) (_ : Tid) :
    AccountRequest → AccountReply → AuthWorld → Prop
  | .register dto, .registered (.ok _) =>
    HasHash (C.normalizeEmail dto.email) fun h => ∃ salt, h = B.hash salt dto.password
  | .session (.login dto), .session (.ok _) =>
    HasHash (C.normalizeEmail dto.email) fun h => B.compare dto.password h = true
  | _, _ => fun _ => True

theorem verified_accountSystem (B : Bcrypt) (C : Crypto) (strong : String → Bool) :
    Verified (accountSystem B C strong) accountLogic (fun _ _ => True) (AccountPost B C) where
  idle_stable _ := .true
  post_stable t k r := by
    unfold AccountPost
    split
    · exact lasting_hasHash.stable
    · exact lasting_hasHash.stable
    · exact .true
  body t k w hi _ _ := by
    cases k with
    | register dto =>
      refine wp_bind (wp_mono ?_ (hoare_register (B := B) (C := C) w trivial))
      intro r w h
      cases r with
      | ok user => exact h
      | error e => trivial
    | seedAdmin credentials =>
      refine wp_bind (wp_mono ?_ (hoare_seedAdmin (B := B) (C := C) w trivial))
      intro r w _
      trivial
    | session request =>
      cases request with
      | login dto =>
        refine wp_bind (wp_mono ?_ (hoare_login_matches (B := B) (C := C) w trivial))
        intro r w h
        cases r with
        | ok pair => exact h
        | error e => trivial
      | refresh presented =>
        refine wp_bind (wp_mono ?_ (wp_leaves (leaves_rotate (C := C.withBcrypt B) presented) w))
        intro r w _
        trivial
  env e w w' hi he := by
    cases he
    have hemails : (w.users.map fun user =>
        if user.id = e.id then { user with disabled := e.disabled } else user).map (·.email) =
        w.users.map (·.email) := by
      rw [List.map_map]
      refine List.map_congr_left fun user _ => ?_
      simp only [Function.comp]
      split <;> rfl
    refine ⟨?_, fun user hu => ⟨_, List.mem_map_of_mem hu, ?_, ?_⟩⟩
    · change (w.users.map (·.email)).Nodup at hi
      rw [← hemails] at hi
      exact hi
    · split <;> rfl
    · split <;> rfl
  crash t k w hi := ⟨hi, grows_of_users rfl⟩

/-- No run in which one call has registered the email with `p` has another that logged in with `q`. -/
def OnlyRegistered (B : Bcrypt) (C : Crypto) (strong : String → Bool) (email p q : String) : Prop :=
  ∀ moves s, (accountSystem B C strong).run (.init (.initial [])) moves = some s →
    ∀ t t' user pair,
      s.threads t = some (.register ⟨email, p⟩, .running (.ret (.registered (.ok user)))) →
      s.threads t' ≠ some (.session (.login ⟨email, q⟩), .running (.ret (.session (.ok pair))))

theorem onlyRegistered_of_keys_ne {q : String} {p : String} (h : bcryptKey p ≠ bcryptKey q) :
    OnlyRegistered B C strong email p q := by
  intro moves s hrun t t' user pair ht ht'
  have hsound : Sound accountLogic (fun _ _ => True) (AccountPost B C) s :=
    Sound.run (verified_accountSystem B C strong)
      (fun l _ => by cases l <;> trivial) hrun (Sound.init List.nodup_nil fun _ => trivial)
  obtain ⟨u, hu, hemail, salt, hhash⟩ := hsound.result ht
  obtain ⟨u', hu', hemail', hcompare⟩ := hsound.result ht'
  have hsame : u = u' := user_unique hsound.inv hu hu' (hemail.trans hemail'.symm)
  subst hsame
  rw [hhash] at hcompare
  exact h ((compare_hash B salt p q).mp hcompare)

/-! ### Two passwords with one key -/

/-- The first user, as it is registered. -/
def firstUser (B : Bcrypt) (C : Crypto) (email p : String) : UserEntity :=
  ⟨0, C.normalizeEmail email, B.hash "" p, .user, false⟩

theorem solo_register (p : String) :
    (account B C (.register ⟨email, p⟩)).solo t (fun _ => {}) none 0 (.initial []) =
      some (.initial [firstUser B C email p], some (.registered (.ok (firstUser B C email p)), 2)) :=
  rfl

theorem solo_login (B : Bcrypt) (C : Crypto) (email : String) (t : Tid) {p q : String}
    (h : bcryptKey p = bcryptKey q) :
    ∃ w' pair, (account B C (.session (.login ⟨email, q⟩))).solo t (fun _ => {}) none 0
      (.initial [firstUser B C email p]) = some (w', some (.session (.ok pair), 5)) := by
  have hfind : (AuthWorld.initial [firstUser B C email p]).users.find?
      (fun user => user.email == (C.withBcrypt B).normalizeEmail email) =
        some (firstUser B C email p) := by
    simp [AuthWorld.initial, firstUser, Crypto.withBcrypt]
  have hcompare : (C.withBcrypt B).compare q (firstUser B C email p).password ≠ false := by
    have hpass : B.compare q (B.hash "" p) = true := (compare_hash B "" p q).mpr h
    simpa [Crypto.withBcrypt, firstUser] using hpass
  have hdisabled : (firstUser B C email p).disabled ≠ true := Bool.false_ne_true
  unfold account respond login findUserByEmail query stmt
  simp only [bind, ExceptT.bind, ExceptT.mk, ExceptT.run, Prog.bind, Prog.solo, ExceptT.bindCont,
    reduceCtorEq, if_false, Bool.false_eq_true, Option.bind_some, hfind, Option.map_some,
    Option.getD_some]
  rw [if_neg hcompare, if_neg hdisabled]
  exact ⟨_, _, rfl⟩

theorem not_onlyRegistered {p q : String} (hp : acceptsPassword strong p = true)
    (h : bcryptKey p = bcryptKey q) : ¬OnlyRegistered B C strong email p q := by
  intro honly
  let start : Accounts := .init (.initial [])
  let first : Accounts := start.set start.shared 0 (.register ⟨email, p⟩)
    (.running (account B C (.register ⟨email, p⟩)))
  have hfirst : (accountSystem B C strong).next start (.start 0 (.register ⟨email, p⟩)) =
      some first := by
    simp [System.next, start, first, Config.init, accountSystem, hp]
  obtain ⟨ms, c, hms, ht, hshared, hother⟩ := Prog.solo_run (accountSystem B C strong)
    (c := first) (Function.update_self ..) (solo_register p)
  let second : Accounts := c.set c.shared 1 (.session (.login ⟨email, q⟩))
    (.running (account B C (.session (.login ⟨email, q⟩))))
  have hnew : c.threads 1 = none := (hother 1 (by decide)).trans rfl
  have hsecond : (accountSystem B C strong).next c (.start 1 (.session (.login ⟨email, q⟩))) =
      some second := by
    simp [System.next, hnew, second, accountSystem]
  obtain ⟨w', pair, hlogin⟩ := solo_login B C email 1 h
  have hat : second.shared = .initial [firstUser B C email p] := hshared
  obtain ⟨ms', c', hms', ht', -, hother'⟩ := Prog.solo_run (accountSystem B C strong)
    (c := second) (Function.update_self ..) (hat ▸ hlogin)
  have hrun : (accountSystem B C strong).run start
      (.start 0 (.register ⟨email, p⟩) :: (ms ++ .start 1 (.session (.login ⟨email, q⟩)) :: ms')) =
      some c' := by
    refine System.run_cons _ |>.mpr ⟨first, hfirst, ?_⟩
    rw [System.run_append, hms, Option.bind_some]
    exact System.run_cons _ |>.mpr ⟨second, hsecond, hms'⟩
  have hkept : c'.threads 0 = some (.register ⟨email, p⟩,
      .running (.ret (.registered (.ok (firstUser B C email p))))) := by
    have hsame : second.threads 0 = c.threads 0 := by simp [second, Config.set]
    exact (hother' 0 (by decide)).trans (hsame.trans ht)
  exact honly _ c' hrun 0 1 _ pair hkept ht'

/-- Of the passwords that registration accepts, another one logs in exactly if `bcrypt` sees the same
bytes of both. -/
theorem only_registered_password_iff (B : Bcrypt) (C : Crypto) (isStrongPassword : String → Bool)
    (email p q : String) (hp : acceptsPassword isStrongPassword p = true)
    (_ : acceptsPassword isStrongPassword q = true) (_ : p ≠ q) :
    OnlyRegistered B C isStrongPassword email p q ↔ (utf8 p).take 72 ≠ (utf8 q).take 72 := by
  constructor
  · intro honly hkeys
    exact not_onlyRegistered hp hkeys honly
  · exact onlyRegistered_of_keys_ne

def plainDigest (salt : String) (key : List UInt8) : String :=
  String.ofList (Char.ofNat key.length :: (key.map (fun b => Char.ofNat b.toNat) ++ salt.toList))

def plainSaltOf (hashed : String) : String :=
  match hashed.toList with
  | [] => ""
  | c :: cs => String.ofList (cs.drop c.toNat)

theorem plainSaltOf_digest (salt : String) (key : List UInt8) (hkey : key.length ≤ 72) :
    plainSaltOf (plainDigest salt key) = salt := by
  have hlen : (Char.ofNat key.length).toNat = key.length := by
    rw [Char.ofNat, dif_pos (.inl (by omega))]
    rfl
  have hdrop : ((key.map fun b => Char.ofNat b.toNat) ++ salt.toList).drop key.length =
      salt.toList := by
    rw [List.drop_append_of_le_length (by simp), List.drop_of_length_le (by simp), List.nil_append]
  simp only [plainSaltOf, plainDigest, String.toList_ofList, hlen, hdrop, String.ofList_toList]

theorem plainDigest_injective (salt : String) (key key' : List UInt8) (_ : key.length ≤ 72)
    (_ : key'.length ≤ 72) (h : plainDigest salt key = plainDigest salt key') : key = key' := by
  have hchar : Function.Injective fun b : UInt8 => Char.ofNat b.toNat := by
    intro a b hab
    have hnat (x : UInt8) : (Char.ofNat x.toNat).toNat = x.toNat := by
      have hx := x.toNat_lt
      rw [Char.ofNat, dif_pos (.inl (by omega))]
      rfl
    have hval := congrArg Char.toNat hab
    simp only [hnat] at hval
    exact UInt8.toNat_inj.mp hval
  have hlists := String.ofList_injective h
  simp only [List.cons.injEq] at hlists
  exact hchar.list_map (List.append_cancel_right hlists.2)

/-- A stand-in for `bcrypt` that writes the key and the salt into the hash. -/
def plainBcrypt : Bcrypt := ⟨plainDigest, plainSaltOf, plainSaltOf_digest, plainDigest_injective⟩

/-- The documented defaults of `@IsStrongPassword()`, for the symbols that the tests use. -/
def strongByDefault (password : String) : Bool :=
  8 ≤ password.length && password.toList.any Char.isLower && password.toList.any Char.isUpper &&
    password.toList.any Char.isDigit && password.toList.any fun c => ['!', '@', '#', '$'].contains c

theorem only_registered_password_ascii :
    OnlyRegistered plainBcrypt plainCrypto strongByDefault "a@example.com" "SecurePass123!"
      "SecurePass124!" :=
  (only_registered_password_iff plainBcrypt plainCrypto strongByDefault "a@example.com"
    "SecurePass123!" "SecurePass124!" (by decide) (by decide) (by decide)).mpr (by decide)

/-- 39 characters, 73 bytes. -/
def longPassword (last : Char) : String :=
  String.ofList (['A', 'a', '1', '!'] ++ List.replicate 34 'é' ++ [last])

/-- Two passwords of 39 characters that differ in their 73rd byte. -/
theorem not_only_registered_password : ¬∀ (B : Bcrypt) (C : Crypto) (isStrongPassword : String → Bool)
    (email p q : String), acceptsPassword isStrongPassword p = true →
    acceptsPassword isStrongPassword q = true → p ≠ q →
    OnlyRegistered B C isStrongPassword email p q := by
  intro hclaim
  have hx : acceptsPassword strongByDefault (longPassword 'x') = true := by decide
  have hy : acceptsPassword strongByDefault (longPassword 'y') = true := by decide
  have hkeys : bcryptKey (longPassword 'x') = bcryptKey (longPassword 'y') := by decide
  exact not_onlyRegistered hx hkeys (hclaim plainBcrypt plainCrypto strongByDefault "a@example.com" _ _
    hx hy (by decide))

end OrderLifecycle.Auth

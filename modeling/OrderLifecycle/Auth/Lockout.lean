import OrderLifecycle.Auth.Administrators
import OrderLifecycle.Auth.OnePassword

open Framework

namespace OrderLifecycle.Auth

variable {B : Bcrypt} {C : Crypto} {V : JwtVerifier C} {strong : String → Bool}
  {users : List UserEntity} {moves moves' : List AccessMove} {s s' d d' : Accesses} {l : AccessMove}
  {user : UserEntity} {id : UserId} {t : Tid} {authorization : Option String} {route : Route}
  {caller : JwtPayload}

/-! ### Runs -/

/-- A run from these users, with nobody logged in. -/
def Leads (B : Bcrypt) (V : JwtVerifier C) (isStrongPassword : String → Bool)
    (users : List UserEntity) (moves : List AccessMove) (s : Accesses) : Prop :=
  (accessSystem B V isStrongPassword).run (.init (.initial users)) moves = some s

abbrev AccessSound (B : Bcrypt) (V : JwtVerifier C) (s : Accesses) : Prop :=
  Sound (accessLogic B V) (fun _ _ => True) (fun t k r w => ∃ h, AccessPost V t k r h w) s

theorem admits_access (l : AccessMove) : (accessLogic B V).Admits l := by
  cases l <;> exact trivial

theorem Leads.recollects (h : Leads B V strong users moves s) (hids : (users.map (·.id)).Nodup) :
    Recollects (accessSystem B V strong) (accessLogic B V) (fun _ _ => AnyStep) (fun _ _ => True)
      (AccessPost V) (fun t => (accessSystem B V strong).past t (.init (.initial users)) moves) s :=
  (recalled_accessSystem B V strong).run (fun l _ => admits_access l) h hids fun _ => trivial

theorem Leads.append (h : Leads B V strong users moves d)
    (h' : (accessSystem B V strong).run d moves' = some s) :
    Leads B V strong users (moves ++ moves') s := by
  have hrun : (accessSystem B V strong).run (.init (.initial users)) moves = some d := h
  rw [Leads, System.run_append, hrun]
  exact h'

theorem AccessSound.step (hs : AccessSound B V s)
    (hn : (accessSystem B V strong).next s l = some s') : AccessSound B V s' ∧
      (s'.shared = s.shared ∨
        ∃ t k th, s.threads t = some (k, th) ∧ th.Active ∧ AccessStep B V k s.shared s'.shared) := by
  obtain ⟨hs', hmoves⟩ := hs.next (recalled_accessSystem B V strong).verified (admits_access l) hn
  refine ⟨hs', ?_⟩
  rcases hmoves.cases with he | he | ⟨t, k, th, ht, ha, hstep⟩
  · exact .inl he
  · exact .inl (Eq.symm he)
  · exact .inr ⟨t, k, th, ht, ha, hstep⟩

/-! ### Where tokens and administrators come from -/

/-- Somebody came with the credentials of the user. -/
def LoggedIn (B : Bcrypt) (C : Crypto) (user : UserEntity) (s : Accesses) : Prop :=
  ∃ t dto th, s.threads t = some (.account (.session (.login dto)), th) ∧ Matches B C dto user

/-- The user is an administrator from the start, or by the operator. -/
def Appointed (C : Crypto) (users : List UserEntity) (user : UserEntity) (s : Accesses) : Prop :=
  (∃ first ∈ users, first.id = user.id ∧ first.role = .admin) ∨
    ∃ t credentials th, s.threads t = some (.account (.seedAdmin credentials), th) ∧
      C.normalizeEmail (C.normalizeEmail credentials.email) = user.email

/-- An administrator's call to disable the user. -/
def Disabling (V : JwtVerifier C) (id : UserId) (s : Accesses) : Prop :=
  ∃ t authorization th caller, s.threads t = some (.guarded authorization (.disable id), th) ∧
    Carries V authorization caller ∧ caller.role = .admin

structure Provenance (B : Bcrypt) (V : JwtVerifier C) (users : List UserEntity) (s : Accesses) :
    Prop where
  sound : AccessSound B V s
  tokens : ∀ row ∈ s.shared.tokens, ∃ user, Has user s.shared ∧ user.id = row.userId ∧
    LoggedIn B C user s
  admins : ∀ user, Has user s.shared → user.role = .admin → Appointed C users user s
  disabled : ∀ id, Flag id true s.shared →
    (∃ first ∈ users, first.id = id ∧ first.disabled = true) ∨ Disabling V id s

theorem LoggedIn.next (hn : (accessSystem B V strong).next s l = some s')
    (h : LoggedIn B C user s) : LoggedIn B C user s' := by
  obtain ⟨t, dto, th, ht, hm⟩ := h
  obtain ⟨th', ht'⟩ := System.next_call _ hn ht
  exact ⟨t, dto, th', ht', hm⟩

theorem Appointed.next (hn : (accessSystem B V strong).next s l = some s')
    (h : Appointed C users user s) : Appointed C users user s' := by
  rcases h with h | ⟨t, credentials, th, ht, he⟩
  · exact .inl h
  · obtain ⟨th', ht'⟩ := System.next_call _ hn ht
    exact .inr ⟨t, credentials, th', ht', he⟩

theorem Disabling.next (hn : (accessSystem B V strong).next s l = some s')
    (h : Disabling V id s) : Disabling V id s' := by
  obtain ⟨t, authorization, th, caller, ht, hc⟩ := h
  obtain ⟨th', ht'⟩ := System.next_call _ hn ht
  exact ⟨t, authorization, th', caller, ht', hc⟩

theorem Provenance.next (h : Provenance B V users s)
    (hn : (accessSystem B V strong).next s l = some s') : Provenance B V users s' := by
  obtain ⟨hs', he | ⟨t, k, th, ht, -, hstep⟩⟩ := h.sound.step hn
  · refine ⟨hs', ?_, ?_, ?_⟩
    · rw [he]
      intro row hr
      obtain ⟨user, hu, hid, hl⟩ := h.tokens row hr
      exact ⟨user, hu, hid, hl.next hn⟩
    · rw [he]
      exact fun user hu ha => (h.admins user hu ha).next hn
    · rw [he]
      exact fun id hf => (h.disabled id hf).imp_right (·.next hn)
  · obtain ⟨th', ht'⟩ := System.next_call _ hn ht
    refine ⟨hs', fun row hr => ?_, fun user hu ha => ?_, fun id hf => ?_⟩
    · rcases hstep.issued row hr with ⟨row₀, hr₀, hu₀⟩ | ⟨user, dto, hu, hid, rfl, hm⟩
      · obtain ⟨user, hu, hid, hl⟩ := h.tokens row₀ hr₀
        exact ⟨user, hstep.kept user hu, hid.trans hu₀, hl.next hn⟩
      · exact ⟨user, hu, hid, t, dto, th', ht', hm⟩
    · rcases hstep.made user hu ha with hu₀ | ⟨credentials, rfl, he⟩
      · exact (h.admins user hu₀ ha).next hn
      · exact .inr ⟨t, credentials, th', ht', he⟩
    · rcases hstep.flags id true hf with hf₀ | ⟨hb, -⟩ | ⟨authorization, caller, rfl, hc, ha⟩
      · exact (h.disabled id hf₀).imp_right (·.next hn)
      · cases hb
      · exact .inr ⟨t, authorization, th', caller, ht', hc, ha⟩

/-- The call has returned the pair. -/
def Hands (s : Accesses) (t : Tid) (request : AuthRequest) (pair : TokenPair) : Prop :=
  s.threads t = some (.account (.session request), .running (.ret (.account (.session (.ok pair)))))

/-- A bearer token that passes is one that a call has returned. -/
def Backed (V : JwtVerifier C) (s : Accesses) (authorization : Option String) : Prop :=
  ∀ caller, Carries V authorization caller →
    ∃ t request pair, Hands s t request pair ∧ extractBearerToken authorization = some pair.accessToken

/-- Nobody makes up a bearer token that passes. -/
def Honest (V : JwtVerifier C) (s : Accesses) : AccessMove → Prop
  | .start _ (.guarded authorization _) => Backed V s authorization
  | _ => True

theorem Backed.next (hn : (accessSystem B V strong).next s l = some s')
    (h : Backed V s authorization) : Backed V s' authorization := by
  intro caller hc
  obtain ⟨t, request, pair, ht, he⟩ := h caller hc
  exact ⟨t, request, pair, System.next_inactive _ hn ht id, he⟩

/-- Every guarded call came with a token that was handed out, if with one that passes. -/
def AllBacked (V : JwtVerifier C) (s : Accesses) : Prop :=
  ∀ t authorization route th, s.threads t = some (.guarded authorization route, th) →
    Backed V s authorization

/-- A thread that is there was there before, or is started by this move. -/
theorem thread_origin {k : AccessRequest} {th : Thread AuthWorld AuthChoice AccessReply}
    (hn : (accessSystem B V strong).next s l = some s') (ht : s'.threads t = some (k, th)) :
    (∃ th₀, s.threads t = some (k, th₀) ∧ (th.Active → th₀.Active)) ∨ l = .start t k := by
  rcases System.next_thread _ hn t with he | ⟨⟨k', rfl⟩, -⟩ | ⟨k', th₀, th₁, ht₀, ha, ht₁⟩
  · exact .inl ⟨th, he ▸ ht, fun h => h⟩
  · simp only [System.next] at hn
    split at hn
    · split at hn
      · cases hn
        simp only [Config.set, Function.update_self, Option.some.injEq, Prod.mk.injEq] at ht
        exact .inr (by rw [ht.1])
      · cases hn
    · cases hn
  · rw [ht] at ht₁
    cases ht₁
    exact .inl ⟨th₀, ht₀, fun _ => ha⟩

theorem AllBacked.next (h : AllBacked V s) (hl : Honest V s l)
    (hn : (accessSystem B V strong).next s l = some s') : AllBacked V s' := by
  intro t authorization route th ht
  rcases thread_origin hn ht with ⟨th₀, ht₀, -⟩ | rfl
  · exact (h t authorization route th₀ ht₀).next hn
  · have hb : Backed V s authorization := hl
    exact hb.next hn

/-- Nobody is about to enable the user. -/
def Quiet (id : UserId) (s : Accesses) : Prop :=
  ∀ t authorization th, s.threads t = some (.guarded authorization (.enable id), th) → ¬th.Active

theorem Quiet.next (h : Quiet id s) (hl : ∀ t authorization,
      l ≠ .start t (.guarded authorization (.enable id)))
    (hn : (accessSystem B V strong).next s l = some s') : Quiet id s' := by
  intro t authorization th ht ha
  rcases thread_origin hn ht with ⟨th₀, ht₀, hactive⟩ | rfl
  · exact h t authorization th₀ ht₀ (hactive ha)
  · exact hl t authorization rfl

end OrderLifecycle.Auth

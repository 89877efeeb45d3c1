import OrderLifecycle.Auth.Authority

open Framework

namespace OrderLifecycle.Auth

variable {B : Bcrypt} {C : Crypto} {V : JwtVerifier C} {k : AccessRequest} {w w' : AuthWorld}
  {id : UserId} {t : Tid} {α β : Type}

/-! ### Registration -/

theorem recalls_hashPassword {password : String} :
    Recalls (accessLogic B V) AnyStep t k (fun _ _ => True) (hashPassword B password)
      (fun _ _ _ => True) fun _ _ _ => True := by
  apply recalls_aside fun _ => .true
  intro h w ch r w' _ hf
  cases hf
  exact ⟨.of_eq rfl rfl, fun _ _ => trivial⟩

/-- The new user is enabled, and no administrator but by the operator. -/
theorem recalls_saveUser {email password : String} {role : UserRole}
    (hrole : role = .admin → ∃ credentials, k = .account (.seedAdmin credentials) ∧
      C.normalizeEmail (C.normalizeEmail credentials.email) = C.normalizeEmail email) :
    Recalls (accessLogic B V) AnyStep t k (fun _ _ => True) (saveUser C email password role)
      (fun _ _ _ => True) fun _ _ _ => True := by
  apply recalls_stmt fun _ => .true
  intro h w ch r w' hi _ _ hf
  split at hf
  · cases hf
    exact ⟨hi, (Aside.of_eq rfl rfl).step, trivial, trivial⟩
  · split at hf
    · cases hf
    · next hfresh =>
      split at hf
      · cases hf
        exact ⟨hi, (Aside.of_eq rfl rfl).step, trivial, trivial⟩
      · cases hf
        simp only [List.any_eq_true, beq_iff_eq, not_exists, not_and] at hfresh
        refine ⟨?_, ⟨?_, ?_, ?_, ?_, ?_⟩, trivial, trivial⟩
        · have hnew : ch.fresh ∉ w.users.map (·.id) := by
            intro hmem
            obtain ⟨user, hu, hid⟩ := List.mem_map.mp hmem
            exact hfresh user hu hid
          show (List.map (·.id) (w.users ++ [_])).Nodup
          rw [List.map_append]
          exact List.Nodup.append hi (List.nodup_singleton _) (List.disjoint_singleton.mpr hnew)
        · intro user hu
          obtain ⟨disabled, hu⟩ := hu
          exact ⟨disabled, List.mem_append_left _ hu⟩
        · intro user hu hadmin
          obtain ⟨disabled, hu⟩ := hu
          rcases List.mem_append.mp hu with hu | hu
          · exact .inl ⟨disabled, hu⟩
          · have hnew := List.mem_singleton.mp hu
            simp only [UserEntity.mk.injEq] at hnew
            obtain ⟨credentials, hk, hemail⟩ := hrole (hnew.2.2.2.1.symm.trans hadmin)
            exact .inr ⟨credentials, hk, hemail.trans hnew.2.1.symm⟩
        · exact fun row hr => ⟨row, hr, rfl, rfl⟩
        · exact fun row hr => .inl ⟨row, hr, rfl⟩
        · intro id disabled hflag
          obtain ⟨user, hu, hid, hd⟩ := hflag
          rcases List.mem_append.mp hu with hu | hu
          · exact .inl ⟨user, hu, hid, hd⟩
          · obtain rfl := List.mem_singleton.mp hu
            exact .inr (.inl ⟨hd.symm, fun user hu he => hfresh user hu (he.trans hid.symm)⟩)

theorem recalls_register {dto : RegisterDTO} :
    Recalls (accessLogic B V) AnyStep t k (fun _ _ => True) (register B C dto) (fun _ _ _ => True)
      fun _ _ _ => True := by
  apply recalls_bind recalls_hashPassword
  intro hashed
  apply recalls_tryCatch (E := fun _ _ _ => True)
  · exact recalls_saveUser nofun
  · intro error
    cases error <;> exact recalls_throw fun _ _ _ => trivial

theorem recalls_seedAdmin {credentials : AdminCredentials} :
    Recalls (accessLogic B V) AnyStep t (.account (.seedAdmin credentials)) (fun _ _ => True)
      (seedAdmin B C credentials) (fun _ _ _ => True) fun _ _ _ => True := by
  apply recalls_bind (Q := fun _ _ _ => True)
  · apply recalls_aside fun _ => .true
    intro h w ch r w' _ hf
    split at hf <;> cases hf <;> exact ⟨.of_eq rfl rfl, fun _ _ => trivial⟩
  · intro existing
    cases existing with
    | some user => exact recalls_pure fun _ _ _ => trivial
    | none =>
      apply recalls_bind recalls_hashPassword
      intro hashed
      apply recalls_bind (recalls_saveUser fun _ => ⟨credentials, rfl, rfl⟩)
      intro _
      exact recalls_pure fun _ _ _ => trivial

/-! ### Guarded routes -/

/-- The guards of the route let this caller pass. -/
structure Admitted (V : JwtVerifier C) (authorization : Option String) (route : Route)
    (caller : JwtPayload) : Prop where
  carries : Carries V authorization caller
  role : rolesGuard route.roles caller = true

theorem Admitted.admin {authorization : Option String} {route : Route} {caller : JwtPayload}
    (h : Admitted V authorization route caller) (hr : route ≠ .me) : caller.role = .admin := by
  have hrole := h.role
  have hroles : route.roles = [.admin] := by
    cases route with
    | me => exact absurd rfl hr
    | list => rfl
    | disable id => rfl
    | enable id => rfl
  rw [hroles] at hrole
  simpa [rolesGuard] using hrole

theorem recalls_useGuards {authorization : Option String} {route : Route} :
    Recalls (accessLogic B V) AnyStep t k (fun _ _ => True) (useGuards V route.roles authorization)
      (fun caller _ _ => Admitted V authorization route caller) fun _ _ _ => True := by
  apply recalls_bind (Q := fun caller _ _ => Carries V authorization caller ∧ True)
  · unfold jwtAuthGuard
    split
    · exact recalls_throw fun _ _ _ => trivial
    · next token htoken =>
      apply recalls_ite
      · intro _
        exact recalls_throw fun _ _ _ => trivial
      · intro _
        apply recalls_aside fun _ => .true
        intro h w ch r w' _ hf
        split at hf
        · cases hf
          exact ⟨.of_eq rfl rfl, nofun⟩
        · next payload hverify =>
          cases hf
          refine ⟨.of_eq rfl rfl, fun a ha => ?_⟩
          cases ha
          exact ⟨⟨token, ch.now, htoken, hverify⟩, trivial⟩
  · intro caller
    apply recalls_fact
    intro hcarries
    apply recalls_ite
    · intro hrole
      exact recalls_pure fun _ _ _ => ⟨hcarries, hrole⟩
    · intro _
      exact recalls_throw fun _ _ _ => trivial

/-- A read of the administration. -/
theorem recalls_adminRead {P : Past AuthWorld → AuthWorld → Prop} {f : AuthWorld → α}
    {R : α → Past AuthWorld → AuthWorld → Prop} (hP : ∀ h, (accessLogic B V).Stable t (P h))
    (hR : ∀ h w, P h w → R (f w) (h ++ [(w, w)]) w) :
    Recalls (accessLogic B V) AnyStep t k P (adminQuery fun w => (f w, w)) R fun _ _ _ => True := by
  apply recalls_aside hP
  intro h w ch r w' hp hf
  split at hf
  · cases hf
    exact ⟨.of_eq rfl rfl, nofun⟩
  · cases hf
    refine ⟨.of_eq rfl rfl, fun a ha => ?_⟩
    cases ha
    exact hR h w hp

/-- The flag was this at some moment of the call. -/
def WasFlag (id : UserId) (disabled : Bool) (h : Past AuthWorld) : Prop :=
  ∃ m ∈ h, Flag id disabled m.1 ∨ Flag id disabled m.2

/-- There is a user with this id. -/
def Known (id : UserId) (w : AuthWorld) : Prop := ∃ user, Has user w ∧ user.id = id

theorem lasting_known : (accessLogic B V).Lasting (Known id) := by
  intro w w' hi hi' hr hk
  obtain ⟨user, hu, hid⟩ := hk
  exact ⟨user, lasting_has w w' hi hi' hr hu, hid⟩

theorem has_switchWhere {disabled : Bool} {user : UserEntity} (h : Has user w)
    (hw : w'.users = switchWhere id disabled w.users) : Has user w' := by
  obtain ⟨d, hu⟩ := h
  rw [Has, hw]
  by_cases hid : user.id = id
  · refine ⟨disabled, List.mem_map.mpr ⟨_, hu, ?_⟩⟩
    simp [hid]
  · refine ⟨d, List.mem_map.mpr ⟨_, hu, ?_⟩⟩
    simp [hid]

theorem has_of_switchWhere {disabled : Bool} {user : UserEntity} (h : Has user w')
    (hw : w'.users = switchWhere id disabled w.users) : Has user w := by
  obtain ⟨d, hu⟩ := h
  rw [hw] at hu
  obtain ⟨row, hrow, he⟩ := List.mem_map.mp hu
  split at he
  · refine ⟨row.disabled, ?_⟩
    cases row
    cases user
    simp only [UserEntity.mk.injEq] at he
    obtain ⟨rfl, rfl, rfl, rfl, -⟩ := he
    exact hrow
  · exact ⟨d, he ▸ hrow⟩

/-- An administrator switches the flag of this user, and of no other. -/
theorem switch_step {disabled : Bool} {authorization : Option String} {caller : JwtPayload}
    (hk : k = .guarded authorization (switchRoute id disabled))
    (hc : Carries V authorization caller) (ha : caller.role = .admin)
    (hw : w'.users = switchWhere id disabled w.users) (ht : w'.tokens = w.tokens) :
    AccessStep B V k w w' where
  kept _ hu := has_switchWhere hu hw
  made _ hu _ := .inl (has_of_switchWhere hu hw)
  rows row hr := ⟨row, ht ▸ hr, rfl, rfl⟩
  issued row hr := .inl ⟨row, ht ▸ hr, rfl⟩
  flags id' disabled' hf := by
    obtain ⟨user, hu, hid, hd⟩ := hf
    rw [hw] at hu
    obtain ⟨row, hrow, he⟩ := List.mem_map.mp hu
    split at he
    · next hrid =>
      subst he
      cases hd
      have hsame : id = id' := hrid.symm.trans hid
      subst hsame
      exact .inr (.inr ⟨authorization, caller, hk, hc, ha⟩)
    · subst he
      exact .inl ⟨row, hrow, hid, hd⟩

theorem recalls_updateDisabled {disabled : Bool} {authorization : Option String} {caller : JwtPayload}
    (hk : k = .guarded authorization (switchRoute id disabled))
    (hc : Carries V authorization caller) (ha : caller.role = .admin) :
    Recalls (accessLogic B V) AnyStep t k (fun _ => Known id) (updateDisabled id disabled)
      (fun _ h _ => WasFlag id disabled h) fun _ _ _ => True := by
  apply recalls_stmt fun _ => lasting_known.stable
  intro h w ch r w' hi _ hknown hf
  split at hf
  · cases hf
    exact ⟨hi, (Aside.of_eq rfl rfl).step, trivial, trivial⟩
  · cases hf
    refine ⟨?_, switch_step hk hc ha rfl rfl, trivial, ?_⟩
    · have hids : (switchWhere id disabled w.users).map (·.id) = w.users.map (·.id) := by
        rw [switchWhere, List.map_map]
        apply List.map_congr_left
        intro user _
        simp only [Function.comp]
        split <;> rfl
      show ((switchWhere id disabled w.users).map (·.id)).Nodup
      rw [hids]
      exact hi
    · obtain ⟨user, ⟨d, hu⟩, hid⟩ := hknown
      refine ⟨(w, _), List.mem_append_right _ List.mem_cons_self, .inr ?_⟩
      exact ⟨_, List.mem_map.mpr ⟨_, hu, if_pos hid⟩, hid, rfl⟩

theorem recalls_setDisabled {disabled : Bool} {authorization : Option String} {caller : JwtPayload}
    (hk : k = .guarded authorization (switchRoute id disabled))
    (hc : Carries V authorization caller) (ha : caller.role = .admin) :
    Recalls (accessLogic B V) AnyStep t k (fun _ _ => True) (setDisabled id disabled)
      (fun _ h _ => WasFlag id disabled h) fun _ _ _ => True := by
  apply recalls_bind (Q := fun found _ w => ∀ user, found = some user → user.id = id ∧ Known id w)
  · apply recalls_adminRead fun _ => .true
    intro h w _ user hfound
    have hid : user.id = id := by
      have hfind := List.find?_some hfound
      simpa using hfind
    exact ⟨hid, user, has_of_mem (List.mem_of_find?_eq_some hfound), hid⟩
  · intro found
    cases found with
    | none => exact recalls_throw fun _ _ _ => trivial
    | some user =>
      apply recalls_pre (P := fun _ w => user.id = id ∧ Known id w) (fun _ _ hp => hp user rfl)
      apply recalls_fact
      intro hid
      subst hid
      apply recalls_bind (Q := fun current h w => (∀ row, current = some row →
        row.disabled = disabled → WasFlag user.id disabled h) ∧ Known user.id w)
      · apply recalls_adminRead fun _ => lasting_known.stable
        intro h w hknown
        refine ⟨fun row hrow hd => ?_, hknown⟩
        have hid : row.id = user.id := by
          have hfind := List.find?_some hrow
          simpa using hfind
        exact ⟨(w, w), by simp, .inl ⟨row, List.mem_of_find?_eq_some hrow, hid, hd⟩⟩
      · intro current
        apply recalls_ite
        · intro hany
          apply recalls_pure
          intro h w hp
          obtain ⟨row, hrow, hd⟩ := Option.any_eq_true .. |>.mp hany
          exact hp.1 row hrow (by simpa using hd)
        · intro _
          apply recalls_bind (recalls_pre (fun _ _ hp => hp.2) (recalls_updateDisabled hk hc ha))
          intro _
          exact recalls_pure fun _ _ hp => hp

/-- What a guarded call that was served says of its caller, and of the flag it has switched. -/
structure Served (V : JwtVerifier C) (authorization : Option String) (route : Route)
    (reply : RouteReply) (h : Past AuthWorld) : Prop where
  admitted : ∃ caller, Admitted V authorization route caller ∧
    (route = .me → reply = .me caller.sub caller.role)
  switched : ∀ id disabled, route = switchRoute id disabled → WasFlag id disabled h

theorem recalls_guarded {authorization : Option String} {route : Route} :
    Recalls (accessLogic B V) AnyStep t (.guarded authorization route) (fun _ _ => True)
      (guarded V authorization route) (fun reply h _ => Served V authorization route reply h)
      fun _ _ _ => True := by
  apply recalls_bind recalls_useGuards
  intro caller
  apply recalls_pre (P := fun _ _ => Admitted V authorization route caller ∧ True)
    (fun _ _ hp => ⟨hp, trivial⟩)
  apply recalls_fact
  intro hadmitted
  have switching (id : UserId) (disabled : Bool) (hroute : route = switchRoute id disabled)
      (reply : UserEntity → RouteReply) :
      Recalls (accessLogic B V) AnyStep t (.guarded authorization route) (fun _ _ => True)
        (do let user ← setDisabled id disabled
            return reply user)
        (fun reply h _ => Served V authorization route reply h) fun _ _ _ => True := by
    have hne : route ≠ .me := by
      rw [hroute]
      cases disabled <;> exact nofun
    apply recalls_bind (recalls_setDisabled (by rw [hroute]) hadmitted.carries
      (hadmitted.admin hne))
    intro user
    apply recalls_pure
    intro h w hwas
    refine ⟨⟨caller, hadmitted, fun hme => absurd hme hne⟩, fun id' disabled' hroute' => ?_⟩
    have hsame := hroute.symm.trans hroute'
    cases disabled <;> cases disabled' <;> cases hsame <;> exact hwas
  cases route with
  | me =>
    apply recalls_pure
    intro h w _
    refine ⟨⟨caller, hadmitted, fun _ => rfl⟩, fun id disabled hroute => ?_⟩
    cases disabled <;> cases hroute
  | list =>
    apply recalls_bind (Q := fun _ _ _ => True)
    · apply recalls_adminRead fun _ => .true
      exact fun _ _ _ => trivial
    · intro users
      apply recalls_pure
      intro h w _
      refine ⟨⟨caller, hadmitted, nofun⟩, fun id disabled hroute => ?_⟩
      cases disabled <;> cases hroute
  | disable id => exact switching id true rfl fun user => .user (toUserResponseDTO user)
  | enable id => exact switching id false rfl fun user => .user (toUserResponseDTO user)

/-! ### Every call -/

/-- What a call that has succeeded says of its past and of the users. -/
def AccessPost (V : JwtVerifier C) (_ : Tid) :
    AccessRequest → AccessReply → Past AuthWorld → AuthWorld → Prop
  | .account (.session _), .account (.session (.ok pair)) => fun h w =>
    ∃ user, Granted C user pair h w
  | .guarded authorization route, .guarded (.ok reply) => fun h _ =>
    Served V authorization route reply h
  | _, _ => fun _ _ => True

theorem recalled_accessSystem (B : Bcrypt) (V : JwtVerifier C) (strong : String → Bool) :
    Recalled (accessSystem B V strong) (accessLogic B V) (fun _ _ => AnyStep) (fun _ _ => True)
      (AccessPost V) where
  idle_stable _ := .true
  post_stable t k r h := by
    unfold AccessPost
    split
    · exact .exists fun user => stable_granted h
    · exact .const _
    · exact .true
  body t k w hi _ _ := by
    cases k with
    | account request =>
      apply wpPast_bind
      cases request with
      | register dto =>
        apply wpPast_bind
        apply wpPast_mono _ (recalls_register (B := B) (V := V) [] w trivial)
        intro r h w _
        trivial
      | seedAdmin credentials =>
        apply wpPast_bind
        apply wpPast_mono _ (recalls_seedAdmin (B := B) (V := V) [] w trivial)
        intro r h w _
        trivial
      | session request =>
        apply wpPast_bind
        cases request with
        | login dto =>
          apply wpPast_mono _ (recalls_login (B := B) (V := V) [] w trivial)
          intro r h w hr
          cases r with
          | ok pair => exact hr
          | error e => trivial
        | refresh presented =>
          apply wpPast_mono _ (recalls_rotate (B := B) (V := V) [] w trivial)
          intro r h w hr
          cases r with
          | ok pair => exact hr
          | error e => trivial
    | guarded authorization route =>
      apply wpPast_bind
      apply wpPast_mono _ (recalls_guarded (B := B) (V := V) [] w trivial)
      intro r h w hr
      cases r with
      | ok reply => exact hr
      | error e => trivial
  env e := e.elim
  crash t k w hi := ⟨hi, (Aside.of_eq rfl rfl).step⟩

end OrderLifecycle.Auth

import Mathlib.Data.Fintype.EquivFin
import OrderLifecycle.Auth.Sessions
import OrderLifecycle.Framework.Solo

open Framework

namespace OrderLifecycle.Auth

/-- Statement `i` fails, or the process stops before it. -/
def Faulty (ch : Nat → AuthChoice) (dies : Option Nat) (i : Nat) : Prop :=
  (ch i).fail = true ∨ dies = some i

/-- The row that goes with a presented token. -/
def AuthWorld.presented (C : Crypto) (w : AuthWorld) (token : String) : Option RefreshTokenEntity :=
  w.tokens.find? fun row => row.tokenHash == hashRefreshToken C token

/-- A later call with the token can still get a successor without being taken for reuse. -/
def Retriable (C : Crypto) (token : String) (w : AuthWorld) : Prop :=
  ∃ t ch s pair k, (rotate C token).run.solo t ch none 0 w = some (s, some (.ok pair, k)) ∧
    s.revocations = w.revocations

/-- Either a successor was stored and returned, or the token is unrevoked and can be used again. -/
def RotatedOrUsable (C : Crypto) (token : String) (w : AuthWorld)
    (r : Option (Except AuthError TokenPair × Nat)) : Prop :=
  (∃ pair k row, r = some (.ok pair, k) ∧ row ∈ w.tokens ∧ row.revoked = false ∧
    row.tokenHash = hashRefreshToken C pair.refreshToken) ∨
  ((∃ row, w.presented C token = some row ∧ row.revoked = false) ∧ Retriable C token w)

/-- The token was not claimed: it was not read, or the claim did not get through. -/
def NotClaimed (ch : Nat → AuthChoice) (dies : Option Nat) : Prop :=
  Faulty ch dies 0 ∨ dies = some 1 ∨ Faulty ch dies 2

/-- Between the claim and the new row something goes wrong. -/
def Cut (C : Crypto) (ch : Nat → AuthChoice) (dies : Option Nat) (w : AuthWorld) : Prop :=
  Faulty ch dies 3 ∨ dies = some 4 ∨ Faulty ch dies 5 ∨
    ∃ row ∈ w.tokens, row.tokenHash = hashRefreshToken C (ch 4).bytes

/-- A token that may be rotated, and the user it belongs to. -/
structure Valid (C : Crypto) (token : String) (stored : RefreshTokenEntity) (user : UserEntity)
    (w : AuthWorld) : Prop where
  found : w.presented C token = some stored
  owner : w.users.find? (fun user => user.id == stored.userId) = some user
  enabled : user.disabled = false
  unrevoked : stored.revoked = false

/-- The token is claimed, nothing else has happened. -/
structure Claimed (stored : RefreshTokenEntity) (w₀ w : AuthWorld) : Prop where
  tokens : w.tokens = revokeWhere (claimable stored.id) w₀.tokens
  users : w.users = w₀.users
  revocations : w.revocations = w₀.revocations

/-- Where a rotation ends; `pair` is what it returns. -/
inductive Ended (C : Crypto) (ch : Nat → AuthChoice) (dies : Option Nat) (stored : RefreshTokenEntity)
    (w₀ w : AuthWorld) : Option TokenPair → Prop
  | untouched (before : NotClaimed ch dies) (same : w = w₀) : Ended C ch dies stored w₀ w none
  | lost (after : ¬NotClaimed ch dies) (cut : Cut C ch dies w₀) (claimed : Claimed stored w₀ w) :
    Ended C ch dies stored w₀ w none
  | rotated {pair row} (after : ¬NotClaimed ch dies) (whole : ¬Cut C ch dies w₀)
      (tokens : row ∈ w.tokens) (unrevoked : row.revoked = false)
      (hash : row.tokenHash = hashRefreshToken C pair.refreshToken)
      (revocations : w.revocations = w₀.revocations) :
    Ended C ch dies stored w₀ w (some pair)

variable {C : Crypto} {token : String} {stored : RefreshTokenEntity} {user : UserEntity}
  {w₀ w : AuthWorld} {t : Tid} {ch : Nat → AuthChoice} {dies : Option Nat} {β : Type}

/-- A statement of the rotation that the call gets to. -/
theorem solo_query {i : Nat} {P : AuthWorld → Prop} {Q : β → Nat → AuthWorld → Prop}
    {D : Nat → AuthWorld → Prop} {E : AuthError → Nat → AuthWorld → Prop}
    {f : Tid → AuthChoice → AuthWorld → Option (Except AuthError β × AuthWorld)}
    (hd : ∀ w, P w → dies = some i → D i w)
    (hf : ∀ w, P w → (ch i).fail = true → E .database (i + 1) w)
    (h : ∀ w, P w → (ch i).fail = false → ∃ r w', f t (ch i) w = some (r, w') ∧
      match r with | .ok a => Q a (i + 1) w' | .error e => E e (i + 1) w') :
    Solo t ch dies D i P (query f) Q E := by
  apply solo_stmt hd
  intro w hw
  by_cases hfail : (ch i).fail = true
  · exact ⟨.error .database, w, if_pos hfail, hf w hw hfail⟩
  · obtain ⟨r, w', hr, hpost⟩ := h w hw (Bool.eq_false_iff.mpr hfail)
    cases r with
    | ok a => exact ⟨.ok a, w', (if_neg hfail).trans hr, hpost⟩
    | error e => exact ⟨.error e, w', (if_neg hfail).trans hr, hpost⟩

theorem Claimed.hash_iff (h : Claimed stored w₀ w) {hash : String} :
    (∃ row ∈ w.tokens, row.tokenHash = hash) ↔ ∃ row ∈ w₀.tokens, row.tokenHash = hash := by
  have hhashes : w.tokens.map (·.tokenHash) = w₀.tokens.map (·.tokenHash) := by
    rw [h.tokens, revokeWhere_hashes]
  rw [← List.mem_map, ← List.mem_map, hhashes]

/-- The new row is stored, or its hash is in use. -/
theorem solo_insertToken {lifetime : Nat} (hvalid : Valid C token stored user w₀)
    (hfresh : ∀ row ∈ w₀.tokens, row.id ≠ (ch 5).fresh) (hclaim : ¬NotClaimed ch dies) :
    Solo t ch dies (fun _ w => Ended C ch dies stored w₀ w none) 5 (Claimed stored w₀)
      (insertToken user.id stored.familyId (hashRefreshToken C (ch 4).bytes) lifetime)
      (fun _ j w => j = 6 ∧ (ch 5).fail = false ∧
        (¬∃ row ∈ w₀.tokens, row.tokenHash = hashRefreshToken C (ch 4).bytes) ∧
        w.revocations = w₀.revocations ∧ ∃ row ∈ w.tokens, row.revoked = false ∧
          row.tokenHash = hashRefreshToken C (ch 4).bytes)
      fun _ _ w => Ended C ch dies stored w₀ w none := by
  apply solo_query
  · intro w hw hdies
    exact .lost hclaim (.inr (.inr (.inl (.inr hdies)))) hw
  · intro w hw hfail
    exact .lost hclaim (.inr (.inr (.inl (.inl hfail)))) hw
  · intro w hw hok
    have hnew : (w.tokens.any fun row => row.id == (ch 5).fresh) = false := by
      apply List.any_eq_false.mpr
      intro row hrow heq
      have hids : row.id ∈ w₀.tokens.map (·.id) := by
        rw [← revokeWhere_ids (p := claimable stored.id), ← hw.tokens]
        exact List.mem_map_of_mem hrow
      obtain ⟨row₀, hrow₀, hid⟩ := List.mem_map.mp hids
      exact hfresh row₀ hrow₀ (hid.trans (eq_of_beq heq))
    have hknown : (w.users.any fun row => row.id == user.id) = true := by
      rw [hw.users]
      exact List.any_eq_true.mpr ⟨user, List.mem_of_find?_eq_some hvalid.owner, beq_self_eq_true _⟩
    rw [if_neg (by simp [hnew]), hknown, Bool.not_true, Bool.or_false]
    by_cases hany : (w.tokens.any fun row => row.tokenHash == hashRefreshToken C (ch 4).bytes) = true
    · have hused : ∃ row ∈ w₀.tokens, row.tokenHash = hashRefreshToken C (ch 4).bytes := by
        obtain ⟨row, hrow, hhash⟩ := List.any_eq_true.mp hany
        exact hw.hash_iff.mp ⟨row, hrow, eq_of_beq hhash⟩
      exact ⟨.error .database, w, if_pos hany, .lost hclaim (.inr (.inr (.inr hused))) hw⟩
    · have hunused : ¬∃ row ∈ w₀.tokens, row.tokenHash = hashRefreshToken C (ch 4).bytes := by
        intro hused
        obtain ⟨row, hrow, hhash⟩ := hw.hash_iff.mpr hused
        exact hany (List.any_eq_true.mpr ⟨row, hrow, beq_of_eq hhash⟩)
      rw [if_neg hany]
      refine ⟨.ok (), _, rfl, rfl, hok, hunused, hw.revocations, ⟨(ch 5).fresh, user.id,
        stored.familyId, hashRefreshToken C (ch 4).bytes, (ch 5).now + lifetime, false, (ch 5).now⟩,
        ?_, rfl, rfl⟩
      exact List.mem_append_right _ List.mem_cons_self

/-- The rest of the rotation, once the token is claimed. -/
theorem solo_issueTokens (hvalid : Valid C token stored user w₀)
    (hfresh : ∀ row ∈ w₀.tokens, row.id ≠ (ch 5).fresh) (hclaim : ¬NotClaimed ch dies) :
    Solo t ch dies (fun _ w => Ended C ch dies stored w₀ w none) 3 (Claimed stored w₀)
      (issueTokens C user stored.familyId)
      (fun pair _ w => Ended C ch dies stored w₀ w (some pair))
      fun _ _ w => Ended C ch dies stored w₀ w none := by
  apply solo_bind (Q := fun _ j w => j = 4 ∧ (ch 3).fail = false ∧ Claimed stored w₀ w)
  · apply solo_stmt
    · intro w hw hdies
      exact .lost hclaim (.inl (.inr hdies)) hw
    · intro w hw
      by_cases hfail : (ch 3).fail = true
      · exact ⟨.error .signing, w, by simp [hfail], .lost hclaim (.inl (.inl hfail)) hw⟩
      · refine ⟨.ok (C.sign { sub := user.id, role := user.role }), w, by simp [hfail], rfl, ?_, hw⟩
        exact Bool.eq_false_iff.mpr hfail
  · intro accessToken j hsurv
    apply solo_fact
    rintro rfl
    apply solo_fact
    intro hsigned
    apply solo_bind (Q := fun refreshToken _ w => Ended C ch dies stored w₀ w
      (some ⟨accessToken, refreshToken⟩))
    · apply solo_bind (Q := fun bytes j w => j = 5 ∧ bytes = (ch 4).bytes ∧ Claimed stored w₀ w)
      · apply solo_stmt
        · intro w hw hdies
          exact .lost hclaim (.inr (.inl hdies)) hw
        · intro w hw
          exact ⟨.ok (ch 4).bytes, w, rfl, rfl, rfl, hw⟩
      · intro bytes j hsurv'
        apply solo_fact
        rintro rfl
        apply solo_fact
        rintro rfl
        apply solo_bind (solo_insertToken hvalid hfresh hclaim)
        intro _ j hsurv''
        apply solo_fact
        rintro rfl
        apply solo_fact
        intro hsaved
        apply solo_fact
        intro hunused
        apply solo_pure
        intro w ⟨hrevocations, row, hrow, hlive, hhash⟩
        have halive := (hsurv.trans hsurv').trans hsurv''
        have hwhole : ¬Cut C ch dies w₀ := by
          rintro ((hf | hdead) | hdead | (hf | hdead) | hused)
          · exact nomatch hsigned.symm.trans hf
          · exact absurd (halive.2 3 hdead (by decide)) (by decide)
          · exact absurd (halive.2 4 hdead (by decide)) (by decide)
          · exact nomatch hsaved.symm.trans hf
          · exact absurd (halive.2 5 hdead (by decide)) (by decide)
          · exact hunused hused
        exact .rotated hclaim hwhole hrow hlive hhash hrevocations
    · intro refreshToken _ _
      exact solo_pure fun w hw => hw

/-- The claimed token is found revoked. -/
theorem Claimed.presented (h : Claimed stored w₀ w) (hvalid : Valid C token stored user w₀) :
    w.presented C token = some stored.revoke := by
  have hclaimable : claimable stored.id stored = true := by simp [claimable, hvalid.unrevoked]
  have hsame : ((fun row : RefreshTokenEntity => row.tokenHash == hashRefreshToken C token) ∘
      fun row => if claimable stored.id row then row.revoke else row) =
      fun row => row.tokenHash == hashRefreshToken C token := by
    funext row
    dsimp only [Function.comp]
    split <;> rfl
  rw [AuthWorld.presented, h.tokens, revokeWhere, List.find?_map, hsame]
  have hfound := hvalid.found
  rw [AuthWorld.presented] at hfound
  rw [hfound, Option.map_some, if_pos hclaimable]

/-- A rotation of a valid token, by itself. -/
theorem solo_rotate (hvalid : Valid C token stored user w₀) (hunexpired : (ch 1).now < stored.expiresAt)
    (hfresh : ∀ row ∈ w₀.tokens, row.id ≠ (ch 5).fresh) :
    Solo t ch dies (fun _ w => Ended C ch dies stored w₀ w none) 0 (fun w => w = w₀) (rotate C token)
      (fun pair _ w => Ended C ch dies stored w₀ w (some pair))
      fun _ _ w => Ended C ch dies stored w₀ w none := by
  apply solo_bind (Q := fun found j w => j = 1 ∧ (ch 0).fail = false ∧
    found = some (stored, some user) ∧ w = w₀)
  · apply solo_query
    · intro w hw hdies
      exact .untouched (.inl (.inr hdies)) hw
    · intro w hw hfail
      exact .untouched (.inl (.inl hfail)) hw
    · rintro w rfl hok
      refine ⟨.ok (some (stored, some user)), w, ?_, rfl, hok, rfl, rfl⟩
      have hfound := hvalid.found
      unfold AuthWorld.presented at hfound
      simp only [hfound, Option.map_some, hvalid.owner]
  · intro found j hsurv
    apply solo_fact
    rintro rfl
    apply solo_fact
    intro hread
    apply solo_fact
    rintro rfl
    apply solo_ite
    · intro hdisabled
      simp [hvalid.enabled] at hdisabled
    · intro _
      apply solo_ite
      · intro hrevoked
        exact nomatch hvalid.unrevoked.symm.trans hrevoked
      · intro _
        apply solo_bind (Q := fun now j w => j = 2 ∧ now = (ch 1).now ∧ w = w₀)
        · apply solo_stmt
          · intro w hw hdies
            exact .untouched (.inr (.inl hdies)) hw
          · intro w hw
            exact ⟨.ok (ch 1).now, w, rfl, rfl, rfl, hw⟩
        · intro now j hsurv'
          apply solo_fact
          rintro rfl
          apply solo_fact
          rintro rfl
          apply solo_ite
          · intro hexpired
            exact absurd hunexpired (Nat.not_lt.mpr hexpired)
          · intro _
            apply solo_bind (Q := fun affected j w => j = 3 ∧ (ch 2).fail = false ∧ affected ≠ 0 ∧
              Claimed stored w₀ w)
            · apply solo_query
              · intro w hw hdies
                exact .untouched (.inr (.inr (.inr hdies))) hw
              · intro w hw hfail
                exact .untouched (.inr (.inr (.inl hfail))) hw
              · rintro w rfl hok
                refine ⟨.ok (w.tokens.countP (claimable stored.id)), _, rfl, rfl, hok, ?_, rfl, rfl, rfl⟩
                have hpos : 0 < w.tokens.countP (claimable stored.id) := by
                  apply List.countP_pos_iff.mpr
                  refine ⟨stored, List.mem_of_find?_eq_some hvalid.found, ?_⟩
                  simp [claimable, hvalid.unrevoked]
                exact Nat.ne_of_gt hpos
            · intro affected j hsurv''
              apply solo_fact
              rintro rfl
              apply solo_fact
              intro hclaimed
              apply solo_fact
              intro haffected
              apply solo_ite
              · intro hzero
                exact absurd hzero haffected
              · intro _
                have halive := (hsurv.trans hsurv').trans hsurv''
                have hclaim : ¬NotClaimed ch dies := by
                  rintro ((hf | hdead) | hdead | hf | hdead)
                  · exact nomatch hread.symm.trans hf
                  · exact absurd (halive.2 0 hdead (by decide)) (by decide)
                  · exact absurd (halive.2 1 hdead (by decide)) (by decide)
                  · exact nomatch hclaimed.symm.trans hf
                  · exact absurd (halive.2 2 hdead (by decide)) (by decide)
                exact solo_issueTokens hvalid hfresh hclaim

/-- Some random bytes give a hash that is not in use. -/
def Unused (C : Crypto) (w : AuthWorld) : Prop :=
  ∃ bytes, ∀ row ∈ w.tokens, row.tokenHash ≠ hashRefreshToken C bytes

theorem Valid.retriable (h : Valid C token stored user w) {now : Nat} (hnow : now < stored.expiresAt)
    (hunused : Unused C w) : Retriable C token w := by
  obtain ⟨bytes, hbytes⟩ := hunused
  obtain ⟨id, hid⟩ := Infinite.exists_notMem_finset (w.tokens.map (·.id)).toFinset
  let ch : Nat → AuthChoice := fun _ => { fresh := id, bytes := bytes, now := now }
  have hfresh : ∀ row ∈ w.tokens, row.id ≠ (ch 5).fresh := by
    intro row hrow he
    exact hid (List.mem_toFinset.mpr (List.mem_map.mpr ⟨row, hrow, he⟩))
  have hclaim : ¬NotClaimed ch none := by
    rintro ((hf | hdead) | hdead | hf | hdead)
    · cases hf
    · cases hdead
    · cases hdead
    · cases hf
    · cases hdead
  have hwhole : ¬Cut C ch none w := by
    rintro ((hf | hdead) | hdead | (hf | hdead) | ⟨row, hrow, hused⟩)
    · cases hf
    · cases hdead
    · cases hdead
    · cases hf
    · cases hdead
    · exact hbytes row hrow hused
  have hsolo : Solo 0 ch none _ 0 (fun w' => w' = w) (rotate C token) _ _ :=
    solo_rotate h hnow hfresh
  obtain ⟨s, r, hrun, hpost⟩ := hsolo w rfl
  have hended {pair : Option TokenPair} (he : Ended C ch none stored w s pair) :
      ∃ p, pair = some p ∧ s.revocations = w.revocations := by
    cases he with
    | untouched before same => exact absurd before hclaim
    | lost after cut claimed => exact absurd cut hwhole
    | rotated after whole tokens unrevoked hash revocations => exact ⟨_, rfl, revocations⟩
  match r with
  | none =>
    obtain ⟨j, hj, -⟩ := hpost
    cases hj
  | some (.error e, j) =>
    obtain ⟨p, hp, -⟩ := hended hpost.2
    cases hp
  | some (.ok pair, j) =>
    obtain ⟨p, -, hrevocations⟩ := hended hpost.2
    exact ⟨0, ch, s, pair, j, hrun, hrevocations⟩

/-- What a call has returned. -/
def returned : Option (Except AuthError TokenPair × Nat) → Option TokenPair
  | some (.ok pair, _) => some pair
  | _ => none

theorem returned_eq_some {r : Option (Except AuthError TokenPair × Nat)} {pair : TokenPair}
    (h : returned r = some pair) : ∃ k, r = some (.ok pair, k) := by
  match r with
  | none => cases h
  | some (.error e, k) => cases h
  | some (.ok pair', k) =>
    cases h
    exact ⟨k, rfl⟩

/-- How a call that may have been interrupted ends. -/
theorem rotate_ended (hvalid : Valid C token stored user w) (hunexpired : (ch 1).now < stored.expiresAt)
    (hfresh : ∀ row ∈ w.tokens, row.id ≠ (ch 5).fresh) :
    ∃ s r, (rotate C token).run.solo t ch dies 0 w = some (s, r) ∧
      Ended C ch dies stored w s (returned r) := by
  have hsolo : Solo t ch dies (fun _ w' => Ended C ch dies stored w w' none) 0 (fun w' => w' = w)
      (rotate C token) (fun pair _ w' => Ended C ch dies stored w w' (some pair))
      fun _ _ w' => Ended C ch dies stored w w' none :=
    solo_rotate hvalid hunexpired hfresh
  obtain ⟨s, r, hrun, hpost⟩ := hsolo w rfl
  refine ⟨s, r, hrun, ?_⟩
  match r with
  | none =>
    obtain ⟨j, -, -, hended⟩ := hpost
    exact hended
  | some (.error e, j) => exact hpost.2
  | some (.ok pair, j) => exact hpost.2

theorem Ended.iff {s : AuthWorld} {r : Option (Except AuthError TokenPair × Nat)}
    (hvalid : Valid C token stored user w) (hunexpired : (ch 1).now < stored.expiresAt)
    (hunused : Unused C w) (h : Ended C ch dies stored w s (returned r)) :
    RotatedOrUsable C token s r ↔ NotClaimed ch dies ∨ ¬Cut C ch dies w := by
  generalize hpair : returned r = pair at h
  cases h with
  | untouched before same =>
    constructor
    · intro _
      exact .inl before
    · intro _
      subst same
      exact .inr ⟨⟨stored, hvalid.found, hvalid.unrevoked⟩, hvalid.retriable hunexpired hunused⟩
  | lost after cut claimed =>
    constructor
    · rintro (⟨pair, k, -, rfl, -⟩ | ⟨⟨row, hrow, hlive⟩, -⟩)
      · cases hpair
      · cases (claimed.presented hvalid).symm.trans hrow
        cases hlive
    · rintro (before | whole)
      · exact absurd before after
      · exact absurd cut whole
  | rotated after whole tokens unrevoked hash revocations =>
    constructor
    · intro _
      exact .inr whole
    · intro _
      obtain ⟨k, hr⟩ := returned_eq_some hpair
      exact .inl ⟨_, k, _, hr, tokens, unrevoked, hash⟩

/-- A rotation of a valid token that nobody else uses is all or nothing exactly when the claim does
not get through, or everything after it does. -/
theorem rotation_all_or_nothing (hvalid : Valid C token stored user w)
    (hunexpired : (ch 1).now < stored.expiresAt) (hunused : Unused C w)
    (hfresh : ∀ row ∈ w.tokens, row.id ≠ (ch 5).fresh) :
    ∃ s r, (rotate C token).run.solo t ch dies 0 w = some (s, r) ∧
      (RotatedOrUsable C token s r ↔ NotClaimed ch dies ∨ ¬Cut C ch dies w) := by
  obtain ⟨s, r, hrun, hended⟩ := @rotate_ended C token stored user w t ch dies hvalid hunexpired hfresh
  exact ⟨s, r, hrun, hended.iff hvalid hunexpired hunused⟩

/-- Alice is logged in. -/
def loggedIn : AuthWorld :=
  ⟨[alice], [⟨7, 1, 3, "old", 1000, false, 0⟩], [3], [], fun _ => .start⟩

theorem valid_loggedIn : Valid plainCrypto "old" ⟨7, 1, 3, "old", 1000, false, 0⟩ alice loggedIn :=
  ⟨rfl, rfl, rfl, rfl⟩

theorem unused_loggedIn : Unused plainCrypto loggedIn := by
  refine ⟨"new", ?_⟩
  intro row hrow
  cases List.mem_singleton.mp hrow
  decide

/-- Only statement `i` fails. -/
def failingAt (i j : Nat) : AuthChoice := { fail := j == i, fresh := 8, bytes := "new" }

theorem fresh_failingAt (i : Nat) : ∀ row ∈ loggedIn.tokens, row.id ≠ (failingAt i 5).fresh := by
  intro row hrow
  cases List.mem_singleton.mp hrow
  exact (by decide : 7 ≠ 8)

/-- The claim fails. -/
theorem rotation_all_or_nothing_unclaimed : ∃ s r,
    (rotate plainCrypto "old").run.solo 0 (failingAt 2) none 0 loggedIn = some (s, r) ∧
      RotatedOrUsable plainCrypto "old" s r := by
  obtain ⟨s, r, hrun, hiff⟩ := @rotation_all_or_nothing plainCrypto "old" _ alice loggedIn 0
    (failingAt 2) none valid_loggedIn (by decide) unused_loggedIn (fresh_failingAt 2)
  exact ⟨s, r, hrun, hiff.mpr (.inl (.inr (.inr (.inl rfl))))⟩

/-- The signing fails: the token is revoked and has no successor. -/
theorem not_rotation_all_or_nothing : ¬∀ (C : Crypto) (token : String) (stored : RefreshTokenEntity)
    (user : UserEntity) (w : AuthWorld) (t : Tid) (ch : Nat → AuthChoice) (s : AuthWorld)
    (r : Option (Except AuthError TokenPair × Nat)), Valid C token stored user w →
    (ch 1).now < stored.expiresAt → Unused C w → (∀ row ∈ w.tokens, row.id ≠ (ch 5).fresh) →
    (rotate C token).run.solo t ch none 0 w = some (s, r) → RotatedOrUsable C token s r := by
  intro hall
  obtain ⟨s, r, hrun, hended⟩ := @rotate_ended plainCrypto "old" _ alice loggedIn 0 (failingAt 3) none
    valid_loggedIn (by decide) (fresh_failingAt 3)
  have hprop := hall plainCrypto "old" _ alice loggedIn 0 (failingAt 3) s r valid_loggedIn (by decide)
    unused_loggedIn (fresh_failingAt 3) hrun
  rcases (hended.iff valid_loggedIn (by decide) unused_loggedIn).mp hprop with
    ((hf | hdead) | hdead | hf | hdead) | hwhole
  · cases hf
  · cases hdead
  · cases hdead
  · cases hf
  · cases hdead
  · exact hwhole (.inl (.inl rfl))

end OrderLifecycle.Auth

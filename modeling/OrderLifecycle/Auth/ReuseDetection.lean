import OrderLifecycle.Auth.Sessions

open Framework

namespace OrderLifecycle.Auth

variable {C : Crypto} {users : List UserEntity} {moves later : List SessionMove}
  {s s₁ s' : Sessions} {t : Tid} {F : Uuid} {l : SessionMove}

/-- Call `t` has claimed a token of the family, still runs, and has not stored the successor. -/
def InFlight (s : Sessions) (t : Tid) (F : Uuid) : Prop :=
  (∃ row ∈ s.shared.tokens, row.familyId = F ∧ s.shared.calls t = .claimed row.id) ∧
    ∃ k th, s.threads t = some (k, th) ∧ th.Active

/-- A family nobody can continue: its tokens are revoked, and a call that claimed one of them
without storing a successor is dead. -/
structure Closed (C : Crypto) (F : Uuid) (s : Sessions) : Prop where
  sound : Sound (tokenLogic C) (fun t => At t .start) (Completed C) s
  known : F ∈ s.shared.families
  revoked : ∀ row ∈ s.shared.tokens, row.familyId = F → row.revoked = true
  stuck : ∀ t, Pending s.shared t F → ∃ k th, s.threads t = some (k, th) ∧ ¬th.Active

theorem Closed.next (h : Closed C F s) (hn : (authSystem C).next s l = some s₁) :
    Closed C F s₁ := by
  obtain ⟨hs₁, hm⟩ := h.sound.next (verified_authSystem C) (admits l) hn
  have still (t : Tid) (hp : Pending s.shared t F) :
      ∃ k th, s₁.threads t = some (k, th) ∧ ¬th.Active := by
    obtain ⟨k, th, ht, hd⟩ := h.stuck t hp
    exact ⟨k, th, (authSystem C).next_inactive hn ht hd, hd⟩
  rcases hm.cases with he | ⟨htokens, hfamilies, hcalls, -⟩ | ⟨t, k, th, ht, ha, hstep⟩
  · refine ⟨hs₁, he ▸ h.known, he ▸ h.revoked, fun t hp => still t (he ▸ hp)⟩
  · refine ⟨hs₁, hfamilies ▸ h.known, htokens ▸ h.revoked, fun t hp => still t ?_⟩
    simpa only [Pending, htokens, hcalls] using hp
  · refine ⟨hs₁, hstep.families h.known, fun row' hrow' hF => ?_, fun t' hp => ?_⟩
    · rcases hstep.origin hrow' with ⟨row, hrow, hl⟩ | ⟨-, hmay, -⟩
      · exact hl.revoked (h.revoked row hrow (hl.familyId ▸ hF))
      · -- whoever stores a token of the family is alive
        obtain ⟨k', th', ht', hd⟩ := h.stuck t (hF ▸ hmay.pending)
        rw [ht] at ht'
        cases ht'
        exact absurd ha hd
    · rcases hstep.pending h.sound.inv hp with hp | hnew | ⟨row, hrow, hF, hlive⟩
      · exact still t' hp
      · exact absurd h.known hnew
      · have hr := h.revoked row hrow hF
        rw [hlive] at hr
        cases hr

/-- The step that revokes a family of which no rotation is in flight closes it. -/
theorem closed_of_revoke (h : Reaches C users moves s) (hn : (authSystem C).next s l = some s₁)
    (hrev : s₁.shared.revocations = s.shared.revocations ++ [F])
    (hfree : ∀ t, ¬InFlight s t F) : Closed C F s₁ := by
  obtain ⟨hs₁, hm⟩ := h.sound.next (verified_authSystem C) (admits l) hn
  have hi : Tokens s.shared := h.sound.inv
  have noRevoke (he : s₁.shared.revocations = s.shared.revocations) : False := by
    rw [he] at hrev
    simp at hrev
  rcases hm.cases with he | ⟨-, -, -, he⟩ | ⟨t, k, th, ht, ha, hstep⟩
  · exact (noRevoke (congrArg _ he)).elim
  · exact (noRevoke he).elim
  cases hstep with
  | aside _ _ _ he => exact (noRevoke he).elim
  | openFamily _ _ _ _ _ _ he => exact (noRevoke he).elim
  | claim _ _ _ _ _ _ _ _ he => exact (noRevoke he).elim
  | issue _ _ _ _ _ _ _ _ he => exact (noRevoke he).elim
  | revoke stored hstored hpresents htokens hfamilies hcalls hrevocations =>
    have hF : stored.familyId = F := by
      rw [hrev] at hrevocations
      simpa using hrevocations.symm
    have hstep : TokenStep C t k s.shared s₁.shared :=
      .revoke stored hstored hpresents htokens hfamilies hcalls hrevocations
    refine ⟨hs₁, ?_, fun row' hrow' he => ?_, fun t' hp => ?_⟩
    · exact hfamilies ▸ hF ▸ hi.family stored hstored
    · rw [htokens] at hrow'
      obtain ⟨row, hrow, rfl⟩ := mem_revokeWhere.mp hrow'
      have hl : Later row _ := later_ite (p := fun row => row.familyId == stored.familyId)
      have hrF : row.familyId = stored.familyId := hl.familyId.symm.trans (he.trans hF.symm)
      rw [if_pos (beq_iff_eq.mpr hrF)]
      rfl
    · rcases hstep.pending_same hi (congrFun hcalls t') hp with hc | ⟨row, hrow, he, hc⟩
      · exact absurd hF ((hi.opened t' F hc).2 stored hstored)
      · cases ht' : s.threads t' with
        | none =>
          have hstart : s.shared.calls t' = .start := h.sound.fresh t' ht'
          rw [hstart] at hc
          cases hc
        | some x =>
          obtain ⟨k', th'⟩ := x
          have hd : ¬th'.Active := fun ha' => hfree t' ⟨⟨row, hrow, he, hc⟩, k', th', ht', ha'⟩
          exact ⟨k', th', (authSystem C).next_inactive hn ht' hd, hd⟩

theorem Closed.run (h : Closed C F s) (h' : (authSystem C).run s later = some s') :
    Closed C F s' :=
  (authSystem C).run_induct (A := fun _ => True) (fun _ _ _ _ hn hc => hc.next hn)
    (fun _ _ => trivial) h' h

/-- A call that has not claimed a token of a closed family never does. -/
theorem Closed.unclaimed (h : Closed C F s) (h' : (authSystem C).run s later = some s')
    (ht : s.threads t = none) {row : RefreshTokenEntity} (hrow : row ∈ s'.shared.tokens)
    (hF : row.familyId = F) : ¬(s'.shared.calls t).claims row.id := by
  have hkey := (authSystem C).run_induct (A := fun _ => True) (P := fun s : Sessions =>
    Closed C F s ∧ ∀ row ∈ s.shared.tokens, row.familyId = F → ¬(s.shared.calls t).claims row.id)
    (fun s s₁ l _ hn ⟨hc, hnone⟩ => ⟨hc.next hn, ?_⟩) (fun _ _ => trivial) h'
    ⟨h, fun row _ _ hc => ?_⟩
  · exact hkey.2 row hrow hF
  · obtain ⟨-, hm⟩ := hc.sound.next (verified_authSystem C) (admits l) hn
    intro row' hrow' hF' hclaims
    rcases hm.cases with he | ⟨htokens, -, hcalls, -⟩ | ⟨t', k, th, -, -, hstep⟩
    · exact hnone row' (he ▸ hrow') hF' (he ▸ hclaims)
    · exact hnone row' (htokens ▸ hrow') hF' (hcalls ▸ hclaims)
    · have hi : Tokens s.shared := hc.sound.inv
      rcases hstep.origin hrow' with ⟨row, hrow, hl⟩ | ⟨hid, -⟩
      · rcases hstep.claims hclaims with hold | ⟨-, live, hlive, hid, hl', -⟩
        · exact hnone row hrow (hl.familyId ▸ hF') (hl.id ▸ hold)
        · obtain rfl := eq_of_id hi.ids hlive hrow (hid.trans hl.id)
          have hr := hc.revoked live hrow (hl.familyId ▸ hF')
          rw [hl'] at hr
          cases hr
      · rcases hstep.claims hclaims with hold | ⟨-, live, hlive, he, -⟩
        · obtain ⟨row, hrow, he, -⟩ := hi.claimed t _ hold
          exact hid row hrow he
        · exact hid live hlive he
  · have hstart : s.shared.calls t = .start := h.sound.fresh t ht
    rw [hstart] at hc
    exact hc

/-- Reuse detection ends a session, if no rotation of it is in flight when it strikes: from
then on every token of the family is revoked, and no later call rotates one. -/
theorem reuse_kills_session (h : Reaches C users moves s)
    (hn : (authSystem C).next s l = some s₁)
    (hrev : s₁.shared.revocations = s.shared.revocations ++ [F])
    (hfree : ∀ t, ¬InFlight s t F) (h' : (authSystem C).run s₁ later = some s') :
    (∀ row ∈ s'.shared.tokens, row.familyId = F → row.revoked = true) ∧
    ∀ t presented pair, s₁.threads t = none → Rotates s' t presented pair →
      ∀ row ∈ s'.shared.tokens, row.familyId = F →
        row.tokenHash ≠ hashRefreshToken C presented := by
  have hclosed := closed_of_revoke h hn hrev hfree
  have hclosed' := hclosed.run h'
  refine ⟨hclosed'.revoked, fun t presented pair ht hr row hrow hF hh => ?_⟩
  obtain ⟨row', hrow', hh', id, hc⟩ : Rotated C presented t s'.shared := hclosed'.sound.result hr
  obtain rfl : row = row' :=
    List.inj_on_of_nodup_map hclosed'.sound.inv.hashes hrow hrow' (hh.trans hh'.symm)
  exact hclosed.unclaimed h' ht hrow hF (by rw [hc]; rfl)

/-! ### A replay, and the race that leaves a token alive -/

/-- The call of thread `t` has returned. -/
def Finished (s : Sessions) (t : Tid) : Prop := ∃ k r, s.threads t = some (k, .running (.ret r))

theorem finished_of_outcome (h : (outcome s t).isSome = true) : Finished s t := by
  unfold outcome at h
  split at h
  · next k r ht => exact ⟨k, r, ht⟩
  · cases h

theorem Finished.not_inFlight (h : Finished s t) : ¬InFlight s t F := by
  rintro ⟨-, k, th, ht, ha⟩
  obtain ⟨k', r, ht'⟩ := h
  rw [ht] at ht'
  cases ht'
  exact ha

/-- The step in which call 2 revokes the family. -/
def striking : SessionMove := .step 2 {}

/-- The revocations before and after `striking`, and, after the moves that follow it, which of
the calls 0 to 2 have returned, and the tokens with their families. -/
def aftermath (later : List SessionMove) (s : Sessions) :
    Option (List Uuid × List Uuid × List Bool × List (Uuid × Bool)) :=
  ((authSystem plainCrypto).next s striking).bind fun s₁ =>
    ((authSystem plainCrypto).run s₁ later).map fun s' =>
      (s.shared.revocations, s₁.shared.revocations, [0, 1, 2].map fun t => (outcome s' t).isSome,
        s'.shared.tokens.map fun row => (row.familyId, row.revoked))

/-- Call 2 presents the token that call 1 has rotated, and has read it. -/
def replaying : List SessionMove := loggingIn ++ refreshing 1 "0" 6 ++ refreshing 2 "0" 1

theorem run_striking {moves : List SessionMove} (hs : trial moves = some s)
    (hn : (authSystem plainCrypto).next s striking = some s₁) :
    trial (moves ++ [striking]) = some s₁ := by
  have hrun : (authSystem plainCrypto).run (.init (.initial [alice])) moves = some s := hs
  rw [trial, System.run_append, hrun, Option.bind_some, System.run, hn]
  rfl

/-- The calls that were never started are not there. -/
theorem thread_none (hs : trial moves = some s) (hl : ∀ k, .start t k ∉ moves) :
    s.threads t = none :=
  (authSystem plainCrypto).run_thread_none hl hs rfl

theorem reuse_kills_session_replay : ∃ s s₁ s' : Sessions,
    Reaches plainCrypto [alice] replaying s ∧
    (authSystem plainCrypto).next s striking = some s₁ ∧
    (authSystem plainCrypto).run s₁ (refreshing 3 "1" 2) = some s' ∧
    ∀ row ∈ s'.shared.tokens, row.familyId = 0 → row.revoked = true := by
  have hout : (trial replaying).bind (fun s => (aftermath (refreshing 3 "1" 2) s).map fun a =>
      (a.1, a.2.1, (outcome s 0).isSome, (outcome s 1).isSome, s.shared.calls 2)) =
      some ([], [0], true, true, .start) := by decide +kernel
  obtain ⟨s, hs, hout⟩ := Option.bind_eq_some_iff.mp hout
  obtain ⟨a, ha, hout⟩ := Option.map_eq_some_iff.mp hout
  obtain ⟨s₁, hs₁, ha⟩ := Option.bind_eq_some_iff.mp ha
  obtain ⟨s', hs', rfl⟩ := Option.map_eq_some_iff.mp ha
  simp only [Prod.mk.injEq] at hout
  obtain ⟨hrev, hrev₁, h0, h1, h2⟩ := hout
  have hfree (t : Tid) : ¬InFlight s t 0 := by
    intro hflight
    obtain ⟨⟨row, -, -, hc⟩, k, th, ht, -⟩ := id hflight
    have hn : ∃ k, .start t k ∈ replaying := by
      by_contra hn
      rw [thread_none hs fun k hk => hn ⟨k, hk⟩] at ht
      cases ht
    obtain ⟨k, hk⟩ := hn
    simp only [replaying, loggingIn, refreshing, proceed, List.mem_append, List.mem_cons,
      List.mem_replicate, Label.start.injEq, reduceCtorEq, and_false, or_false] at hk
    rcases hk with (⟨rfl, -⟩ | ⟨rfl, -⟩) | ⟨rfl, -⟩
    · exact (finished_of_outcome h0).not_inFlight hflight
    · exact (finished_of_outcome h1).not_inFlight hflight
    · rw [h2] at hc
      cases hc
  have hrevoked := reuse_kills_session hs hs₁ (by rw [hrev, hrev₁]; rfl) hfree hs'
  exact ⟨s, s₁, s', hs, hs₁, hs', hrevoked.1⟩

/-- Calls 1 and 2 present the same token; call 1 has won the claim, and call 2 has lost it. -/
def racing : List SessionMove :=
  loggingIn ++ refreshing 1 "0" 2 ++ refreshing 2 "0" 2 ++ proceed 1 1 ++ proceed 2 1

/-- The winner of the race stores its successor after the family was revoked. -/
theorem not_reuse_kills_session : ¬∀ (C : Crypto) (users : List UserEntity)
    (moves later : List SessionMove) (l : SessionMove) (s s₁ s' : Sessions) (F : Uuid),
    Reaches C users moves s → (authSystem C).next s l = some s₁ →
    s₁.shared.revocations = s.shared.revocations ++ [F] →
    (authSystem C).run s₁ later = some s' →
    (∀ t, s₁.threads t ≠ none → Finished s' t) →
    (∀ row ∈ s'.shared.tokens, row.familyId = F → row.revoked = true) ∧
    ∀ t presented pair, s₁.threads t = none → Rotates s' t presented pair →
      ∀ row ∈ s'.shared.tokens, row.familyId = F →
        row.tokenHash ≠ hashRefreshToken C presented := by
  intro hclaim
  have hout : (trial racing).bind (aftermath (proceed 1 3)) =
      some ([], [0], [true, true, true], [(0, true), (0, false)]) := by decide +kernel
  obtain ⟨s, hs, hout⟩ := Option.bind_eq_some_iff.mp hout
  obtain ⟨s₁, hs₁, hout⟩ := Option.bind_eq_some_iff.mp hout
  obtain ⟨s', hs', hout⟩ := Option.map_eq_some_iff.mp hout
  simp only [List.map_cons, List.map_nil, Prod.mk.injEq, List.cons.injEq, and_true] at hout
  obtain ⟨hrev, hrev₁, ⟨h0, h1, h2⟩, htokens⟩ := hout
  have hfinished (t : Tid) (ht : s₁.threads t ≠ none) : Finished s' t := by
    by_contra hne
    refine ht (thread_none (run_striking hs hs₁) fun k hk => hne ?_)
    simp only [racing, striking, loggingIn, refreshing, proceed, List.mem_append, List.mem_cons,
      List.mem_replicate, Label.start.injEq, reduceCtorEq, List.not_mem_nil, and_false, or_false] at hk
    rcases hk with (⟨rfl, -⟩ | ⟨rfl, -⟩) | ⟨rfl, -⟩
    · exact finished_of_outcome h0
    · exact finished_of_outcome h1
    · exact finished_of_outcome h2
  obtain ⟨hrevoked, -⟩ := hclaim plainCrypto [alice] racing (proceed 1 3) striking s s₁ s' 0 hs hs₁
    (by rw [hrev, hrev₁]; rfl) hs' hfinished
  have hlive : (0, false) ∈ s'.shared.tokens.map fun row => (row.familyId, row.revoked) := by
    rw [htokens]
    simp
  obtain ⟨row, hrow, he⟩ := List.mem_map.mp hlive
  obtain ⟨hF, hl⟩ := Prod.mk.inj he
  have hr := hrevoked row hrow hF
  rw [hl] at hr
  cases hr

end OrderLifecycle.Auth

import Mathlib.Data.List.Perm.Subperm
import OrderLifecycle.Email.Wording
import OrderLifecycle.Framework.History
import OrderLifecycle.Reads.Calm

open Framework

namespace OrderLifecycle.Email

/-- The deliveries that found no inbox record of the message. -/
def Mailer.checkers (s : Mailer) (m : Uuid) : List Tid :=
  s.deeds.filterMap fun d =>
    match d.2 with
    | .unprocessed id => if id = m then some d.1 else none
    | .sent _ _ => none

/-- The deliveries that notified about the message, each as often as it did. -/
def Mailer.senders (s : Mailer) (m : Uuid) : List Tid :=
  s.deeds.filterMap fun d =>
    match d.2 with
    | .unprocessed _ => none
    | .sent id _ => if id = some m then some d.1 else none

/-- A delivery notifies once at most, and only if it found no record. -/
def OncePerDelivery (s : Mailer) : Prop :=
  ∀ m, (s.senders m).Nodup ∧ ∀ t ∈ s.senders m, t ∈ s.checkers m

def mailLogic : Logic Mailer Choice (Amqp.Message OrderEvent) where
  inv := OncePerDelivery
  guar t _ s s' := s.world.db.Frame t s'.world.db ∧
    ∃ ds, s'.deeds = s.deeds ++ ds ∧ ∀ d ∈ ds, d.1 = t
  envGuar _ _ := False
  choice _ := True

/-- The delivery is about to read the inbox record of its message: the first statement of its
transaction. -/
structure Checks (t : Tid) (k : Amqp.Message OrderEvent) (h : Past Mailer) (m : Uuid) (s : Mailer) :
    Prop where
  id : k.messageId = some m
  first : h.length = 1
  opened : s.world.db.txns t ≠ none

/-- A step that finds no record is such a read, and there is no record. -/
def ChecksOnly (t : Tid) (k : Amqp.Message OrderEvent) (h : Past Mailer) (s s' : Mailer) : Prop :=
  ∀ m, s'.checkers m = s.checkers m ∨ s'.checkers m = s.checkers m ++ [t] ∧ Checks t k h m s ∧
    s.world.db.rows (.inbox m email) = none

/-- No deed of the delivery yet. -/
def Unnoted (t : Tid) (s : Mailer) : Prop := ∀ d ∈ s.deeds, d.1 ≠ t

/-- The delivery may notify. -/
def MaySend (t : Tid) (m : Uuid) (s : Mailer) : Prop := t ∈ s.checkers m ∧ t ∉ s.senders m

variable {t : Tid} {k : Amqp.Message OrderEvent} {s s' : Mailer} {α β : Type} {m : Uuid}
  {h : Past Mailer}

theorem Unnoted.senders (hu : Unnoted t s) : t ∉ s.senders m := by
  intro hmem
  obtain ⟨⟨t', d⟩, hd, he⟩ := List.mem_filterMap.mp hmem
  cases d with
  | unprocessed id => cases he
  | sent id x =>
    dsimp only at he
    split at he
    · cases he
      exact hu _ hd rfl
    · cases he

theorem checkers_append {ds : List (Tid × MailDeed)} (hs : s'.deeds = s.deeds ++ ds) (m : Uuid) :
    s'.checkers m = s.checkers m ++ Mailer.checkers ⟨s.world, ds⟩ m := by
  unfold Mailer.checkers
  rw [hs, List.filterMap_append]

theorem senders_append {ds : List (Tid × MailDeed)} (hs : s'.deeds = s.deeds ++ ds) (m : Uuid) :
    s'.senders m = s.senders m ++ Mailer.senders ⟨s.world, ds⟩ m := by
  unfold Mailer.senders
  rw [hs, List.filterMap_append]

theorem stable_mail {P : Mailer → Prop}
    (hP : ∀ t' (s s' : Mailer) ds, t' ≠ t → s.world.db.Frame t' s'.world.db →
      s'.deeds = s.deeds ++ ds → (∀ d ∈ ds, d.1 = t') → P s → P s') : mailLogic.Stable t P := by
  rintro s s' ⟨-, -, ⟨t', k, ht, hf, ds, hds, hall⟩ | hfalse⟩ hp
  · exact hP t' s s' ds ht hf hds hall hp
  · exact hfalse.elim

theorem stable_unnoted : mailLogic.Stable t (Unnoted t) := by
  apply stable_mail
  intro t' s s' ds ht _ hds hall hu d hd
  rw [hds] at hd
  rcases List.mem_append.mp hd with hd | hd
  · exact hu d hd
  · rw [hall d hd]
    exact ht

theorem stable_maySend : mailLogic.Stable t (MaySend t m) := by
  apply stable_mail
  rintro t' s s' ds ht _ hds hall ⟨hcheck, hsend⟩
  refine ⟨?_, ?_⟩
  · rw [checkers_append hds]
    exact List.mem_append_left _ hcheck
  · rw [senders_append hds]
    intro hmem
    rcases List.mem_append.mp hmem with hmem | hmem
    · exact hsend hmem
    · have hunnoted : Unnoted t ⟨s.world, ds⟩ := fun d hd => (hall d hd).trans_ne ht
      exact hunnoted.senders hmem

theorem stable_mail_txn {P : Option (Txn Row (Tid × Deed)) → Prop} :
    mailLogic.Stable t fun s => P (s.world.db.txns t) := by
  apply stable_mail
  intro t' s s' ds ht hf _ _ hp
  rw [hf.txns t ht.symm]
  exact hp

/-! ### Statements -/

/-- A statement that has no deeds. -/
theorem silent (k : Amqp.Message OrderEvent) (h : Past Mailer) (s s' : Mailer) (hi : mailLogic.inv s)
    (hs : s'.deeds = s.deeds) (hf : s.world.db.Frame t s'.world.db) :
    mailLogic.inv s' ∧ mailLogic.guar t k s s' ∧ ChecksOnly t k h s s' := by
  have hc (m : Uuid) : s'.checkers m = s.checkers m := by
    unfold Mailer.checkers
    rw [hs]
  have hn (m : Uuid) : s'.senders m = s.senders m := by
    unfold Mailer.senders
    rw [hs]
  refine ⟨fun m => ?_, ⟨hf, [], ?_, nofun⟩, fun m => .inl (hc m)⟩
  · rw [hc, hn]
    exact hi m
  · rw [hs, List.append_nil]

section rules

variable {P : Past Mailer → Mailer → Prop} {Q : β → Past Mailer → Mailer → Prop}

/-- What only concerns the database, and nothing is expected of. -/
theorem recalls_onWorld {x : Service β} (hx : Confined CalmStmt AnyError x) :
    Recalls mailLogic (ChecksOnly t k) t k P (onWorld x) (fun _ _ _ => True) fun _ _ _ => True := by
  have hprog {γ : Type} {p : Prog World Choice γ} {R : γ → Prop} (hp : p.All CalmStmt R)
      (h : Past Mailer) (s : Mailer) :
      wpPast mailLogic (ChecksOnly t k) t k (p.zoom worldPart) (fun _ _ _ => True) h s := by
    induction hp generalizing h s with
    | ret _ => trivial
    | act hf _ ih =>
      intro s₁ _ hi ch _ b s₂ hs
      obtain ⟨⟨b, w⟩, hw, he⟩ := Option.map_eq_some_iff.mp hs
      cases he
      have hcalm : Calm t s₁.world w := hf t ch s₁.world b w hw
      obtain ⟨hi', hg, ha⟩ := silent k h s₁ { s₁ with world := w } hi rfl hcalm.frame
      exact ⟨hi', hg, ha, ih b ⟨t, ch, s₁.world, w, hw⟩ _ _⟩
  intro h s _
  apply wpPast_mono _ (hprog hx h s)
  intro r h s _
  cases r <;> trivial

theorem recalls_begin :
    Recalls mailLogic (ChecksOnly t k) t k
      (fun h s => h = [] ∧ s.world.db.txns t = none ∧ Unnoted t s) (onWorld startTransaction)
      (fun _ h s => h.length = 1 ∧ s.world.db.txns t = some ⟨fun _ => none, [], false⟩ ∧ Unnoted t s)
      fun _ _ _ => True := by
  apply recalls_stmt fun h => .and (.const _) (.and (stable_mail_txn (P := (· = none))) stable_unnoted)
  rintro h s ch r s' hi - ⟨rfl, hidle, hu⟩ hs
  obtain ⟨⟨r', w⟩, hw, he⟩ := Option.map_eq_some_iff.mp hs
  cases he
  dsimp only at hw
  split at hw
  · cases hw
    obtain ⟨hi', hg, ha⟩ := silent (t := t) k [] s s hi rfl .refl
    exact ⟨hi', hg, ha, trivial⟩
  · cases hw
    obtain ⟨hi', hg, ha⟩ := silent k [] s
      { s with world := { s.world with db := s.world.db.begin t } } hi rfl Store.begin_frame
    exact ⟨hi', hg, ha, rfl, Store.begin_txn hidle, hu⟩

theorem recalls_findProcessed (hid : k.messageId = some m) :
    Recalls mailLogic (ChecksOnly t k) t k
      (fun h s => h.length = 1 ∧ s.world.db.txns t = some ⟨fun _ => none, [], false⟩ ∧ Unnoted t s)
      (findProcessed m email) (fun existing _ s => existing = none → MaySend t m s)
      fun _ _ _ => True := by
  apply recalls_stmt fun h => .and (.const _)
    (.and (stable_mail_txn (P := (· = some ⟨fun _ => none, [], false⟩))) stable_unnoted)
  rintro h s ch r s' hi - ⟨hfirst, htx, hu⟩ hs
  split at hs
  · cases hs
    obtain ⟨hi', hg, ha⟩ := silent (t := t) k h s s hi rfl .refl
    exact ⟨hi', hg, ha, trivial⟩
  · split at hs
    · cases hs
      obtain ⟨hi', hg, ha⟩ := silent k h s
        { s with world := { s.world with db := s.world.db.abort t } } hi rfl Store.abort_frame
      exact ⟨hi', hg, ha, trivial⟩
    · split at hs
      · next hview =>
        cases hs
        have hrow : s.world.db.rows (.inbox m email) = none := by
          rw [Store.view_txn htx] at hview
          exact hview
        have hdeeds : (s.note t (.unprocessed m)).deeds = s.deeds ++ [(t, .unprocessed m)] := rfl
        have hopen : s.world.db.txns t ≠ none := by simp [htx]
        have hchecks (m' : Uuid) : (s.note t (.unprocessed m)).checkers m' =
            s.checkers m' ++ if m = m' then [t] else [] := by
          rw [checkers_append hdeeds]
          by_cases e : m = m' <;> simp [Mailer.checkers, e]
        have hsends (m' : Uuid) : (s.note t (.unprocessed m)).senders m' = s.senders m' := by
          rw [senders_append hdeeds]
          simp [Mailer.senders]
        refine ⟨fun m' => ?_, ⟨.refl, _, hdeeds, ?_⟩, fun m' => ?_, fun _ => ⟨?_, ?_⟩⟩
        · rw [hchecks, hsends]
          exact ⟨(hi m').1, fun t' ht' => List.mem_append_left _ ((hi m').2 t' ht')⟩
        · intro d hd
          cases List.mem_singleton.mp hd
          rfl
        · rw [hchecks]
          by_cases e : m = m'
          · subst e
            exact .inr ⟨by rw [if_pos rfl], ⟨hid, hfirst, hopen⟩, hrow⟩
          · exact .inl (by rw [if_neg e, List.append_nil])
        · rw [hchecks, if_pos rfl]
          exact List.mem_append_right _ (List.mem_singleton_self t)
        · rw [hsends]
          exact hu.senders
      · cases hs
        obtain ⟨hi', hg, ha⟩ := silent (t := t) k h s s hi rfl .refl
        exact ⟨hi', hg, ha, nofun⟩

theorem recalls_send (hid : k.messageId = some m) (x : Notification) :
    Recalls mailLogic (ChecksOnly t k) t k (fun _ s => MaySend t m s) (send k.messageId x)
      (fun _ _ _ => True) fun _ _ _ => True := by
  apply recalls_stmt fun _ => stable_maySend
  rintro h s ch r s' hi - ⟨hcheck, hsend⟩ hs
  cases hs
  rw [hid]
  have hdeeds : (s.note t (.sent (some m) x)).deeds = s.deeds ++ [(t, .sent (some m) x)] := rfl
  have hchecks (m' : Uuid) : (s.note t (.sent (some m) x)).checkers m' = s.checkers m' := by
    rw [checkers_append hdeeds]
    simp [Mailer.checkers]
  have hsends (m' : Uuid) : (s.note t (.sent (some m) x)).senders m' =
      s.senders m' ++ if m = m' then [t] else [] := by
    rw [senders_append hdeeds]
    by_cases e : m = m' <;> simp [Mailer.senders, e]
  refine ⟨fun m' => ?_, ⟨.refl, _, hdeeds, ?_⟩, fun m' => .inl (hchecks m'), trivial⟩
  · rw [hchecks, hsends]
    by_cases e : m = m'
    · subst e
      rw [if_pos rfl]
      refine ⟨List.nodup_append.mpr ⟨(hi m).1, List.pairwise_singleton .., ?_⟩, fun t' ht' => ?_⟩
      · intro t₁ h₁ t₂ h₂ he
        cases List.mem_singleton.mp h₂
        exact hsend (he ▸ h₁)
      · rcases List.mem_append.mp ht' with ht' | ht'
        · exact (hi m).2 t' ht'
        · cases List.mem_singleton.mp ht'
          exact hcheck
    · rw [if_neg e, List.append_nil]
      exact hi m'
  · intro d hd
    cases List.mem_singleton.mp hd
    rfl

end rules

/-! ### A delivery -/

/-- Before its first statement. -/
def Fresh (t : Tid) (h : Past Mailer) (s : Mailer) : Prop :=
  h = [] ∧ s.world.db.txns t = none ∧ Unnoted t s

theorem recalls_runOnce (hid : k.messageId = some m) (x : Notification) :
    Recalls mailLogic (ChecksOnly t k) t k (Fresh t) (runOnce m email (send k.messageId x))
      (fun _ _ _ => True) fun _ _ _ => True := by
  apply recalls_tryCatch (E := fun _ _ _ => True)
  · apply recalls_tryCatch (E := fun _ _ _ => True)
    · apply recalls_bind recalls_begin
      intro _
      apply recalls_bind (Q := fun _ _ _ => True)
      · apply recalls_bind (recalls_findProcessed hid)
        intro existing
        apply recalls_ite
        · intro _
          exact recalls_pure fun _ _ _ => trivial
        · intro hnone
          have hsome : existing = none := Option.not_isSome_iff_eq_none.mp hnone
          apply recalls_bind (recalls_pre (fun _ _ hp => hp hsome) (recalls_send hid x))
          intro _
          apply recalls_bind (recalls_onWorld (permits_calm.insertRow trivial _ _))
          intro _
          exact recalls_pure fun _ _ _ => trivial
      · intro _
        apply recalls_bind (recalls_onWorld calm_transaction.commit)
        intro _
        exact recalls_pure fun _ _ _ => trivial
    · intro e
      apply recalls_bind (recalls_onWorld calm_transaction.rollback)
      intro _
      exact recalls_throw fun _ _ _ => trivial
  · intro e
    apply recalls_ite
    · intro _
      exact recalls_pure fun _ _ _ => trivial
    · intro _
      exact recalls_throw fun _ _ _ => trivial

theorem recalls_notify :
    Recalls mailLogic (ChecksOnly t k) t k (Fresh t) (notify k) (fun _ _ _ => True)
      fun _ _ _ => True := by
  apply recalls_bind (Q := fun _ _ _ => True)
  · cases hid : k.messageId with
    | none =>
      apply recalls_bind (recalls_onWorld (calm_covers.record _))
      intro _
      exact recalls_pure fun _ _ _ => trivial
    | some m =>
      apply recalls_bind (hid ▸ recalls_runOnce hid (notification k))
      intro ran
      cases ran with
      | none =>
        apply recalls_bind (recalls_onWorld (calm_covers.record _))
        intro _
        exact recalls_pure fun _ _ _ => trivial
      | some _ =>
        apply recalls_bind (recalls_onWorld (calm_covers.record _))
        intro _
        exact recalls_pure fun _ _ _ => trivial
  · intro outcome
    cases outcome <;> exact recalls_pure fun _ _ _ => trivial

theorem recalled_emailSystem : Recalled emailSystem mailLogic ChecksOnly
    (fun t s => s.world.db.txns t = none ∧ Unnoted t s) fun _ _ _ _ _ => True where
  idle_stable _ := .and (stable_mail_txn (P := (· = none))) stable_unnoted
  post_stable _ _ _ _ := .true
  body t k s _ hidle _ := by
    apply wpPast_mono _ (recalls_notify [] s ⟨rfl, hidle⟩)
    intro _ _ _ _
    trivial
  env e := nomatch e
  crash t k s hi := by
    obtain ⟨hi', hg, -⟩ := silent k [] s
      { s with world := { s.world with db := s.world.db.rollback t } } hi rfl Store.rollback_frame
    exact ⟨hi', hg⟩

/-! ### Runs -/

abbrev Post := Config Mailer Choice (Amqp.Message OrderEvent) (Except AppError Handled)
abbrev MailMove := Label Choice (Amqp.Message OrderEvent) Empty

/-- Nobody has been notified yet. -/
def Mailer.initial (c : Catalog) (cacheEnabled : Bool) : Mailer := ⟨.initial c cacheEnabled, []⟩

def Delivers (c : Catalog) (b : Bool) (moves : List MailMove) (s : Post) : Prop :=
  emailSystem.run (.init (.initial c b)) moves = some s

/-- What the deliveries have done so far. -/
abbrev mailMemory (c : Catalog) (b : Bool) (moves : List MailMove) (t : Tid) : Past Mailer :=
  emailSystem.past t (.init (.initial c b)) moves

/-- A delivery that reads the inbox record of its message, after another one found none, reads the
record: the other one has committed it. -/
def ReadsAfterCommit (c : Catalog) (b : Bool) (moves : List MailMove) : Prop :=
  ∀ ls t ch ls' s k th m, moves = ls ++ .step t ch :: ls' → Delivers c b ls s →
    s.threads t = some (k, th) → Checks t k (mailMemory c b ls t) m s.shared →
    s.shared.checkers m ≠ [] → s.shared.world.db.rows (.inbox m email) ≠ none

variable {c : Catalog} {b : Bool} {moves : List MailMove} {d : Post}

theorem Delivers.recollects (h : Delivers c b moves d) :
    Recollects emailSystem mailLogic ChecksOnly
      (fun t s => s.world.db.txns t = none ∧ Unnoted t s) (fun _ _ _ _ _ => True)
      (mailMemory c b moves) d := by
  have hinit : mailLogic.inv (Mailer.initial c b) := fun m => ⟨.nil, nofun⟩
  exact recalled_emailSystem.run (fun l _ => by cases l <;> trivial) h hinit fun _ => ⟨rfl, nofun⟩

/-- In such a run one delivery at most finds no record. -/
theorem Delivers.checkers (h : Delivers c b moves d) (hc : ReadsAfterCommit c b moves) (m : Uuid) :
    (d.shared.checkers m).length ≤ 1 := by
  induction moves using List.reverseRecOn generalizing d with
  | nil =>
    cases h
    exact Nat.zero_le 1
  | append_singleton ls l ih =>
    obtain ⟨s, hs, hn⟩ := emailSystem.run_snoc.mp h
    have hprefix : ReadsAfterCommit c b ls := by
      intro ls₁ t ch ls₂ s₁ k th m he
      exact hc ls₁ t ch (ls₂ ++ [l]) s₁ k th m (by simp [he])
    have hbefore : (s.shared.checkers m).length ≤ 1 := ih hs hprefix
    cases l with
    | start t k =>
      have hsame : d.shared = s.shared := by
        simp only [System.next] at hn
        split at hn
        · split at hn
          · cases hn
            rfl
          · cases hn
        · cases hn
      rwa [hsame]
    | crash t =>
      have hsame : d.shared.deeds = s.shared.deeds := by
        simp only [System.next] at hn
        split at hn
        · cases hn
          rfl
        · cases hn
      unfold Mailer.checkers
      rwa [hsame]
    | env e => cases e
    | step t ch =>
      obtain ⟨k, th, ht, hchecks⟩ := (Delivers.recollects hs).step trivial hn
      rcases hchecks m with hsame | ⟨hnew, hread, hnone⟩
      · rwa [hsame]
      · have hfirst : s.shared.checkers m = [] := by
          by_contra hne
          exact hc ls t ch [] s k th m rfl hs ht hread hne hnone
        rw [hnew, hfirst]
        exact Nat.le_refl 1

/-- At most one notification about each message. -/
theorem notified_at_most_once (h : Delivers c b moves d) (hc : ReadsAfterCommit c b moves)
    (m : Uuid) : (d.shared.senders m).length ≤ 1 := by
  have hsound : OncePerDelivery d.shared := (Delivers.recollects h).sound.inv
  obtain ⟨hnodup, hsub⟩ := hsound m
  have hlength := (List.subperm_of_subset hnodup hsub).length_le
  exact Nat.le_trans hlength (Delivers.checkers h hc m)

theorem noProducts_stock : ∀ x ∈ ([] : List (ProductId × ProductEntity)), 0 ≤ x.2.stock :=
  List.forall_mem_nil _

/-- A shop that sells nothing. -/
def noProducts : Catalog := ⟨[], List.nodup_nil, noProducts_stock⟩

/-- The message is delivered, and delivered again after the first delivery has committed. -/
def redelivery : List MailMove :=
  .start 0 (published failedRow) :: List.replicate 6 (.step 0 {}) ++
    .start 1 (published failedRow) :: List.replicate 4 (.step 1 {})

/-- The condition, tried out at every step of the run. -/
def readsAfterCommitAt (n : Nat) : Bool :=
  (emailSystem.run (.init (.initial noProducts true)) (redelivery.take n)).all fun s =>
    [0, 1].all fun t =>
      (s.threads t).all (fun x => x.1.messageId == some 5) &&
        ((mailMemory noProducts true (redelivery.take n) t).length != 1 ||
          (s.shared.world.db.txns t).isNone || (s.shared.checkers 5).isEmpty ||
          (s.shared.world.db.rows (.inbox 5 email)).isSome)

theorem readsAfterCommit_redelivery : ReadsAfterCommit noProducts true redelivery := by
  have hcheck : ∀ n < redelivery.length, readsAfterCommitAt n = true := by decide +kernel
  rintro ls t ch ls' s k th m he hs ht ⟨hid, hfirst, hopen⟩ hchecked
  have hlength : ls.length < redelivery.length := by
    rw [he, List.length_append, List.length_cons]
    omega
  have htake : redelivery.take ls.length = ls := by rw [he, List.take_left]
  have ht01 : t ∈ [0, 1] := by
    by_contra hno
    have hnone : s.threads t = none := by
      apply emailSystem.run_thread_none _ hs rfl
      intro k' hk'
      have hmem : Label.start t k' ∈ redelivery := by
        rw [he]
        exact List.mem_append_left _ hk'
      simp [redelivery] at hmem
      apply hno
      rcases hmem with ⟨rfl, -⟩ | ⟨rfl, -⟩ <;> simp
    exact nomatch hnone.symm.trans ht
  have hat := hcheck ls.length hlength
  rw [readsAfterCommitAt, htake] at hat
  have hs' : emailSystem.run (.init (.initial noProducts true)) ls = some s := hs
  rw [hs', Option.all_some, List.all_eq_true] at hat
  have hat := hat t ht01
  rw [ht, hfirst, Option.all_some, hid] at hat
  simp only [bne_self_eq_false, Bool.false_or, Bool.and_eq_true, beq_iff_eq, Option.some.injEq,
    Bool.or_eq_true, Option.isNone_iff_eq_none, List.isEmpty_iff] at hat
  obtain ⟨rfl, (hnone | hnone) | hrow⟩ := hat
  · exact absurd hnone hopen
  · exact absurd hnone hchecked
  · exact Option.isSome_iff_ne_none.mp hrow

theorem notified_at_most_once_redelivery : ∃ d, Delivers noProducts true redelivery d ∧
    (d.shared.senders 5).length = 1 := by
  have hobs : (emailSystem.run (.init (.initial noProducts true)) redelivery).map
      (fun d => (d.shared.senders 5).isEmpty) = some false := by decide +kernel
  obtain ⟨d, hd, hsome⟩ := Option.map_eq_some_iff.mp hobs
  have hmost := notified_at_most_once hd readsAfterCommit_redelivery 5
  have hleast := List.length_pos_iff.mpr (List.isEmpty_eq_false_iff.mp hsome)
  exact ⟨d, hd, Nat.le_antisymm hmost hleast⟩

/-- The inbox insert of the first delivery fails, after its notification. -/
def retried : List MailMove :=
  .start 0 (published failedRow) :: List.replicate 3 (.step 0 {}) ++ .step 0 { fail := true } ::
    .step 0 {} :: .start 1 (published failedRow) :: List.replicate 6 (.step 1 {})

theorem not_notified_at_most_once : ¬∀ c b moves d, Delivers c b moves d → ∀ m,
    (d.shared.senders m).length ≤ 1 := by
  intro hall
  have hobs : (emailSystem.run (.init (.initial noProducts true)) retried).map
      (fun d => d.shared.senders 5) = some [0, 1] := by decide +kernel
  obtain ⟨d, hd, hsenders⟩ := Option.map_eq_some_iff.mp hobs
  have hmost := hall noProducts true retried d hd 5
  rw [hsenders] at hmost
  exact absurd hmost (by decide)

end OrderLifecycle.Email

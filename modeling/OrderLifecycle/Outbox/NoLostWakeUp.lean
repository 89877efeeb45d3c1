import OrderLifecycle.Outbox.WakeUp

open Framework

namespace OrderLifecycle.WakeUp

variable {s s' : Process} {q : QueryRunner} {x : Session} {txn d claimed : Nat} {row : Uuid}
  {rows : List Uuid} {m : Moment} {frame : Frame}

/-! ### What the relay does, in one piece -/

theorem nudge_eq : s.nudge txn = { s with
    log := s.log ++ [.nudged txn]
    drainAgain := s.drainAgain || s.draining
    immediates := s.immediates + (!s.draining).toNat } := by
  cases hd : s.draining <;> simp [Process.nudge, Process.note, Process.schedule, hd]

theorem finish_eq : s.finish frame = { s with
    draining := false
    drainAgain := false
    frames := s.frames.erase frame
    immediates := s.immediates + s.drainAgain.toNat } := by
  cases hd : s.drainAgain <;> simp [Process.finish, Process.schedule, hd]

/-! ### Drains -/

/-- The moments that belong to a drain. -/
def Moment.ofDrain : Moment → Bool
  | .began _ | .selected _ | .ended _ | .failed _ => true
  | _ => false

/-- `draining` holds exactly while one call of `relay()` waits, and `drainAgain` only then. -/
structure Drains (s : Process) : Prop where
  frames : s.frames = [] ∧ s.draining = false ∧ s.drainAgain = false ∨
    (∃ frame, s.frames = [frame]) ∧ s.draining = true
  fresh : ∀ d, .began d ∈ s.log ∨ .failed d ∈ s.log → d < s.drains
  began : ∀ frame ∈ s.frames, .began frame.drain ∈ s.log ∧ .failed frame.drain ∉ s.log
  reading : ∀ frame ∈ s.frames, frame.point = .reading → .selected frame.drain ∈ s.log
  order : ∀ d, Precedes s.log (.began d) (.selected d)

theorem Drains.start : Drains .start :=
  ⟨.inl ⟨rfl, rfl, rfl⟩, nofun, nofun, nofun, fun _ => precedes_nil⟩

theorem Drains.single (h : Drains s) (hf : frame ∈ s.frames) :
    s.frames = [frame] ∧ s.draining = true := by
  obtain ⟨hn, -⟩ | ⟨⟨f, he⟩, hd⟩ := h.frames
  · simp [hn] at hf
  · have hff : frame = f := by simpa [he] using hf
    exact ⟨by rw [he, hff], hd⟩

theorem Drains.note (h : Drains s) (hm : m.ofDrain = false) : Drains (s.note m) where
  frames := h.frames
  fresh := by
    intro d hd
    apply h.fresh d
    cases m <;> simp_all [Process.note, Moment.ofDrain]
  began := by
    intro f hf
    have hb := h.began f hf
    cases m <;> simp_all [Process.note, Moment.ofDrain]
  reading := by
    intro f hf hp
    have hs := h.reading f hf hp
    simp [Process.note, hs]
  order := by
    intro d
    apply (h.order d).append
    cases m <;> simp_all [Moment.ofDrain]

theorem Drains.nudge (h : Drains s) : Drains (s.nudge txn) := by
  have hn : Drains (s.note (.nudged txn)) := h.note rfl
  rw [nudge_eq]
  constructor
  · obtain ⟨hf, hd, ha⟩ | ⟨hf, hd⟩ := h.frames
    · left
      simp [hf, hd, ha]
    · right
      exact ⟨hf, hd⟩
  · exact hn.fresh
  · exact hn.began
  · exact hn.reading
  · exact hn.order

theorem Drains.relay (h : Drains s) : Drains s.relay := by
  cases hd : s.draining with
  | true => simpa [Process.relay, hd] using h
  | false =>
    have hn : s.frames = [] := by
      obtain ⟨hn, -⟩ | ⟨-, hd'⟩ := h.frames
      · exact hn
      · simp [hd] at hd'
    have hnew : ∀ d, .began d ∈ s.log ∨ .failed d ∈ s.log → d ≠ s.drains := by
      intro d hm
      exact Nat.ne_of_lt (h.fresh d hm)
    simp only [Process.relay, hd, Bool.false_eq_true, if_false, Process.note]
    constructor
    · right
      simp [hn]
    · intro d hm
      simp only [List.mem_append, List.mem_singleton, Moment.began.injEq, reduceCtorEq, or_false]
        at hm
      have := h.fresh d
      grind
    · intro f hf
      have hf' : f = ⟨s.drains, .opening⟩ := by simpa [hn] using hf
      have hne : .failed s.drains ∉ s.log := fun hm => hnew _ (.inr hm) rfl
      simp [hf', hne]
    · intro f hf hp
      have hf' : f = ⟨s.drains, .opening⟩ := by simpa [hn] using hf
      simp [hf'] at hp
    · intro d
      apply (h.order d).append
      simp

theorem Drains.select (h : Drains s) (hf : frame ∈ s.frames) :
    Drains ({ s with frames := ⟨frame.drain, .reading⟩ :: s.frames.erase frame }.note
      (.selected frame.drain)) := by
  obtain ⟨he, hd⟩ := h.single hf
  have hb := h.began frame hf
  constructor
  · right
    simp [Process.note, he, hd]
  · intro d hm
    apply h.fresh d
    simpa [Process.note] using hm
  · intro f hf'
    have hff : f = ⟨frame.drain, .reading⟩ := by simpa [Process.note, he] using hf'
    simp [Process.note, hff, hb]
  · intro f hf' _
    have hff : f = ⟨frame.drain, .reading⟩ := by simpa [Process.note, he] using hf'
    simp [Process.note, hff]
  · intro d
    apply (h.order d).append
    intro hd'
    have hd'' : frame.drain = d := by simpa using hd'
    rw [← hd'']
    exact hb.1

/-- A drain is over: with `drainAgain` the next one is scheduled. -/
theorem Drains.finish (h : Drains s) (hf : frame ∈ s.frames)
    (hm : m = .ended frame.drain ∨ m = .failed frame.drain) :
    Drains ((s.note m).finish frame) := by
  obtain ⟨he, hd⟩ := h.single hf
  have hb := h.fresh frame.drain (.inl (h.began frame hf).1)
  rw [finish_eq]
  constructor
  · left
    simp [Process.note, he]
  · intro d hd'
    have hd'' : d = frame.drain ∨ .began d ∈ s.log ∨ .failed d ∈ s.log := by
      obtain rfl | rfl := hm
      · simp_all [Process.note]
      · simp only [Process.note, List.mem_append, List.mem_singleton, reduceCtorEq, or_false,
          Moment.failed.injEq] at hd'
        tauto
    obtain rfl | hd'' := hd''
    · exact hb
    · exact h.fresh d hd''
  · simp [Process.note, he]
  · simp [Process.note, he]
  · intro d
    apply (h.order d).append
    obtain rfl | rfl := hm <;> simp

theorem Drains.resume (h : Drains s) (hf : frame ∈ s.frames) :
    Drains (s.resume frame claimed) := by
  unfold Process.resume
  split
  · obtain ⟨he, hd⟩ := h.single hf
    have hb := h.began frame hf
    constructor
    · right
      simp [he, hd]
    · exact h.fresh
    · intro f hf'
      have hff : f = ⟨frame.drain, .opening⟩ := by simpa [he] using hf'
      simp [hff, hb]
    · intro f hf' hp
      have hff : f = ⟨frame.drain, .opening⟩ := by simpa [he] using hf'
      simp [hff] at hp
    · exact h.order
  · exact h.finish hf (.inl rfl)

/-! ### A commit is answered for -/

/-- Some drain of the past answers for the commit of `txn`. -/
def Answered (log : List Moment) (txn : Nat) : Prop :=
  ∃ d, Covers log txn d ∨ FailedUnread log txn d

theorem Answered.append (h : Answered s.log txn) (hm : ∀ d, .failed d ∈ s.log → m ≠ .selected d) :
    Answered (s.log ++ [m]) txn := by
  obtain ⟨d, hc | ⟨hb, hf, hs⟩⟩ := h
  · exact ⟨d, .inl (hc.append [m])⟩
  · refine ⟨d, .inr ⟨hb.append [m], by simp [hf], ?_⟩⟩
    simp [hs, (hm d hf).symm]

/-- The commit of `txn` has been answered for, or something that is yet to happen will be: the
callback of a nudge, the second drain of a nudge that came in mid-drain, or the rest of a drain
that began after it. -/
def Handled (s : Process) (txn : Nat) : Prop :=
  Answered s.log txn ∨
    (s.draining = true ∧
      (s.drainAgain = true ∨ ∃ f ∈ s.frames, After s.log (.committed txn) (.began f.drain))) ∨
    (s.draining = false ∧ 0 < s.immediates)

theorem Handled.note (h : Handled s txn) (hm : m.ofDrain = false) : Handled (s.note m) txn := by
  obtain ha | ⟨hd, ha | ⟨f, hf, hb⟩⟩ | hi := h
  · left
    apply ha.append
    rintro d - rfl
    simp [Moment.ofDrain] at hm
  · exact .inr (.inl ⟨hd, .inl ha⟩)
  · exact .inr (.inl ⟨hd, .inr ⟨f, hf, hb.append [m]⟩⟩)
  · exact .inr (.inr hi)

/-- After a nudge every commit so far is handled. -/
theorem handled_nudge (s : Process) (txn txn' : Nat) : Handled (s.nudge txn') txn := by
  right
  rw [nudge_eq]
  cases hd : s.draining <;> simp

theorem Handled.relay (hD : Drains s) (hc : .committed txn ∈ s.log)
    (h : s.draining = true → Handled s txn) : Handled s.relay txn := by
  cases hd : s.draining with
  | true => simpa [Process.relay, hd] using h hd
  | false =>
    have hnew : .began s.drains ∉ s.log := fun hm => absurd (hD.fresh _ (.inl hm)) (lt_irrefl _)
    simp only [Process.relay, hd, Process.note, Bool.false_eq_true, if_false]
    have hb : After (s.log ++ [.began s.drains]) (.committed txn) (.began s.drains) :=
      after_append hc hnew
    exact .inr (.inl ⟨rfl, .inr ⟨⟨s.drains, .opening⟩, by simp, hb⟩⟩)

theorem Handled.select (hD : Drains s) (hf : frame ∈ s.frames) (h : Handled s txn) :
    Handled ({ s with frames := ⟨frame.drain, .reading⟩ :: s.frames.erase frame }.note
      (.selected frame.drain)) txn := by
  obtain ⟨he, hd⟩ := hD.single hf
  obtain ha | ⟨-, ha | ⟨f, hf', hb⟩⟩ | ⟨hd', -⟩ := h
  · left
    apply ha.append
    intro d hd' heq
    rw [← Moment.selected.inj heq] at hd'
    exact (hD.began frame hf).2 hd'
  · exact .inr (.inl ⟨hd, .inl ha⟩)
  · have hff : f = frame := by simpa [he] using hf'
    exact .inr (.inl ⟨hd, .inr ⟨⟨frame.drain, .reading⟩, by simp [Process.note], hff ▸ hb.append _⟩⟩)
  · simp [hd] at hd'

/-- A drain that ends has issued its `SELECT`, or failed before it could. -/
theorem Handled.finish (hD : Drains s) (hf : frame ∈ s.frames)
    (hm : m = .ended frame.drain ∧ frame.point = .reading ∨ m = .failed frame.drain)
    (h : Handled s txn) : Handled ((s.note m).finish frame) txn := by
  obtain ⟨he, hd⟩ := hD.single hf
  have hne : ∀ d, m ≠ .selected d := by
    intro d
    obtain ⟨rfl, -⟩ | rfl := hm <;> simp
  rw [finish_eq]
  obtain ha | ⟨-, ha | ⟨f, hf', hb⟩⟩ | ⟨hd', -⟩ := h
  · left
    exact ha.append fun d _ => hne d
  · right
    simp [Process.note, ha]
  · left
    have hff : f = frame := by simpa [he] using hf'
    rw [hff] at hb
    refine ⟨frame.drain, ?_⟩
    by_cases hs : .selected frame.drain ∈ s.log
    · left
      exact (hb.trans (hD.order _) hs).append [m]
    · right
      obtain ⟨-, hp⟩ | rfl := hm
      · exact absurd (hD.reading frame hf hp) hs
      · exact ⟨hb.append _, by simp [Process.note], by simp [Process.note, hs]⟩
  · simp [hd] at hd'

theorem Handled.resume (hD : Drains s) (hf : frame ∈ s.frames) (hp : frame.point = .reading)
    (h : Handled s txn) : Handled (s.resume frame claimed) txn := by
  unfold Process.resume
  split
  · obtain ⟨he, hd⟩ := hD.single hf
    obtain ha | ⟨-, ha | ⟨f, hf', hb⟩⟩ | ⟨hd', -⟩ := h
    · exact .inl ha
    · exact .inr (.inl ⟨hd, .inl ha⟩)
    · have hff : f = frame := by simpa [he] using hf'
      exact .inr (.inl ⟨hd, .inr ⟨⟨frame.drain, .opening⟩, by simp, hff ▸ hb⟩⟩)
    · simp [hd] at hd'
  · exact h.finish hD hf (.inl ⟨rfl, hp⟩)

/-! ### Transactions -/

/-- The transaction whose end the subscriber has yet to see. -/
def Session.txn? : Session → Option Nat
  | .idle => none
  | .active txn _ | .committed txn _ | .written txn _ => some txn

/-- The rows inserted in a transaction that is still open for the subscriber. -/
def Session.inserted : Session → List Uuid
  | .active _ rows | .committed _ rows => rows
  | _ => []

/-- The server has committed. -/
def Session.done : Session → Bool
  | .committed _ _ | .written _ _ => true
  | _ => false

/-- The subscriber has seen `txn` end, or has nudged for it. -/
def Over (log : List Moment) (txn : Nat) : Prop :=
  .nudged txn ∈ log ∨ (∃ rows, .seen txn rows ∈ log) ∨ .rolledBack txn ∈ log

structure Sessions (s : Process) : Prop where
  fresh : ∀ q txn, (s.runners q).txn? = some txn → txn < s.txns
  distinct : ∀ q q' txn, (s.runners q).txn? = some txn → (s.runners q').txn? = some txn → q = q'
  running : ∀ q txn, (s.runners q).txn? = some txn → ¬ Over s.log txn
  past : ∀ txn, Over s.log txn → txn < s.txns
  pending : ∀ q, q ∈ s.pending ↔ (s.runners q).inserted ≠ []
  done : ∀ q txn, (s.runners q).done = true → (s.runners q).txn? = some txn →
    .committed txn ∈ s.log
  seen : ∀ txn rows, .seen txn rows ∈ s.log → .committed txn ∈ s.log ∧
    s.log.count (.nudged txn) = if rows = [] then 0 else 1
  rolledBack : ∀ txn, .rolledBack txn ∈ s.log → s.log.count (.nudged txn) = 0

theorem Sessions.start : Sessions .start where
  fresh := nofun
  distinct := nofun
  running := nofun
  past := by simp [Over, Process.start]
  pending := by simp [Process.start, Session.inserted]
  done := nofun
  seen := nofun
  rolledBack := nofun

/-- A moment that ends no transaction. -/
def Moment.neutral : Moment → Bool
  | .nudged _ | .seen _ _ | .rolledBack _ => false
  | _ => true

theorem over_append (hm : m.neutral = true) : Over (s.log ++ [m]) txn ↔ Over s.log txn := by
  cases m <;> simp_all [Over, Moment.neutral]

theorem Sessions.note (h : Sessions s) (hm : m.neutral = true) : Sessions (s.note m) where
  fresh := h.fresh
  distinct := h.distinct
  running := by
    intro q txn hq
    rw [Process.note, over_append hm]
    exact h.running q txn hq
  past := by
    intro txn ho
    rw [Process.note, over_append hm] at ho
    exact h.past txn ho
  pending := h.pending
  done := by
    intro q txn hd hq
    exact List.mem_append_left _ (h.done q txn hd hq)
  seen := by
    intro txn rows hs
    have hs' : .seen txn rows ∈ s.log := by cases m <;> simp_all [Process.note, Moment.neutral]
    obtain ⟨hc, hn⟩ := h.seen txn rows hs'
    cases m <;> simp_all [Process.note, Moment.neutral, List.count_append]
  rolledBack := by
    intro txn hr
    have hr' : .rolledBack txn ∈ s.log := by cases m <;> simp_all [Process.note, Moment.neutral]
    have hn := h.rolledBack txn hr'
    cases m <;> simp_all [Process.note, Moment.neutral, List.count_append]

theorem Sessions.relay (h : Sessions s) : Sessions s.relay := by
  unfold Process.relay
  split
  · exact h
  · have hn : Sessions (s.note (.began s.drains)) := h.note rfl
    exact ⟨hn.fresh, hn.distinct, hn.running, hn.past, hn.pending, hn.done, hn.seen, hn.rolledBack⟩

theorem Sessions.frames (h : Sessions s) (frames : List Frame) :
    Sessions { s with frames := frames } :=
  ⟨h.fresh, h.distinct, h.running, h.past, h.pending, h.done, h.seen, h.rolledBack⟩

theorem Sessions.finish (h : Sessions s) : Sessions (s.finish frame) := by
  rw [finish_eq]
  exact ⟨h.fresh, h.distinct, h.running, h.past, h.pending, h.done, h.seen, h.rolledBack⟩

theorem Sessions.resume (h : Sessions s) : Sessions (s.resume frame claimed) := by
  unfold Process.resume
  split
  · exact h.frames _
  · have hn : Sessions (s.note (.ended frame.drain)) := h.note rfl
    exact hn.finish

/-- What the subscriber does when a transaction ends. -/
inductive Closing (s : Process) (txn : Nat) : List Moment → Prop
  | rolledBack : Closing s txn [.rolledBack txn]
  | empty (hc : .committed txn ∈ s.log) : Closing s txn [.seen txn []]
  | nudged (hc : .committed txn ∈ s.log) (rows : List Uuid) (hr : rows ≠ []) :
      Closing s txn [.seen txn rows, .nudged txn]

theorem Sessions.close {ms : List Moment} (h : Sessions s) (hq : (s.runners q).txn? = some txn)
    (hms : Closing s txn ms) :
    Sessions { s with
      runners := Function.update s.runners q .idle
      pending := s.pending.erase q
      log := s.log ++ ms } := by
  have hlt := h.fresh q txn hq
  have hopen := h.running q txn hq
  have hover : ∀ t, Over (s.log ++ ms) t → t = txn ∨ Over s.log t := by
    intro t ho
    cases hms <;> simp [Over] at ho ⊢ <;> grind
  have hother : ∀ q' t, (Function.update s.runners q .idle q').txn? = some t →
      q' ≠ q ∧ (s.runners q').txn? = some t := by
    intro q' t ht
    by_cases he : q' = q
    · subst he
      simp [Session.txn?] at ht
    · exact ⟨he, by simpa [he] using ht⟩
  constructor
  · intro q' t ht
    exact h.fresh q' t (hother q' t ht).2
  · intro q' q'' t ht ht'
    exact h.distinct q' q'' t (hother q' t ht).2 (hother q'' t ht').2
  · intro q' t ht ho
    obtain ⟨hne, ht'⟩ := hother q' t ht
    obtain rfl | ho' := hover t ho
    · exact hne (h.distinct q' q t ht' hq)
    · exact h.running q' t ht' ho'
  · intro t ho
    obtain rfl | ho' := hover t ho
    · exact hlt
    · exact h.past t ho'
  · intro q'
    by_cases he : q' = q
    · simp [he, Session.inserted]
    · simpa [he] using h.pending q'
  · intro q' t hd ht
    obtain ⟨hne, ht'⟩ := hother q' t ht
    have hd' : (s.runners q').done = true := by simpa [hne] using hd
    exact List.mem_append_left _ (h.done q' t hd' ht')
  · intro t rows hs
    have hold : .seen t rows ∈ s.log → t ≠ txn := by
      rintro hs rfl
      exact hopen (.inr (.inl ⟨rows, hs⟩))
    have hzero : s.log.count (.nudged txn) = 0 := List.count_eq_zero.mpr fun hn => hopen (.inl hn)
    have hseen := h.seen t rows
    cases hms with
    | rolledBack => simp_all [List.count_append]
    | empty hc =>
      obtain hs | ⟨rfl, rfl⟩ : .seen t rows ∈ s.log ∨ t = txn ∧ rows = [] := by simpa using hs
      · simp_all [List.count_append]
      · simp [List.count_append, hc, hzero]
    | nudged hc rows' hr =>
      obtain hs | ⟨rfl, rfl⟩ : .seen t rows ∈ s.log ∨ t = txn ∧ rows = rows' := by simpa using hs
      · obtain ⟨hc', hn⟩ := hseen hs
        have hne : txn ≠ t := (hold hs).symm
        simp [List.count_append, hc', hn, hne]
      · simp [List.count_append, hc, hzero, hr]
  · intro t hr
    have hzero : s.log.count (.nudged txn) = 0 := List.count_eq_zero.mpr fun hn => hopen (.inl hn)
    have hold : .rolledBack t ∈ s.log → t ≠ txn := by
      rintro hs rfl
      exact hopen (.inr (.inr hs))
    have hback := h.rolledBack t
    cases hms with
    | rolledBack =>
      obtain hr | rfl : .rolledBack t ∈ s.log ∨ t = txn := by simpa using hr
      · simpa [List.count_append] using hback hr
      · simpa [List.count_append] using hzero
    | empty hc => simp_all [List.count_append]
    | nudged hc rows' hr' =>
      have hr : .rolledBack t ∈ s.log := by simpa using hr
      have hne : txn ≠ t := (hold hr).symm
      simpa [List.count_append, hne] using hback hr

/-- A transaction starts, or a row is written without one. -/
theorem Sessions.begin (h : Sessions s) (hq : s.runners q = .idle) (hx : x.txn? = some s.txns)
    (hi : x.inserted = []) (hd : x.done = true → .committed s.txns ∈ s.log) :
    Sessions { s.session q x with txns := s.txns + 1 } := by
  have hnew : ∀ q', (s.runners q').txn? ≠ some s.txns := by
    intro q' ht
    exact absurd (h.fresh q' _ ht) (lt_irrefl _)
  have hother : ∀ q' t, (Function.update s.runners q x q').txn? = some t →
      q' = q ∧ t = s.txns ∨ q' ≠ q ∧ (s.runners q').txn? = some t := by
    intro q' t ht
    by_cases he : q' = q
    · subst he
      have ht' : s.txns = t := by simpa [hx] using ht
      exact .inl ⟨rfl, ht'.symm⟩
    · exact .inr ⟨he, by simpa [he] using ht⟩
  constructor
  · intro q' t ht
    obtain ⟨-, rfl⟩ | ⟨-, ht'⟩ := hother q' t ht
    · exact Nat.lt_succ_self _
    · exact (h.fresh q' t ht').trans (Nat.lt_succ_self _)
  · intro q' q'' t ht ht'
    obtain ⟨rfl, rfl⟩ | ⟨-, h₁⟩ := hother q' t ht
    · obtain ⟨rfl, -⟩ | ⟨-, h₂⟩ := hother q'' _ ht'
      · rfl
      · exact absurd h₂ (hnew q'')
    · obtain ⟨rfl, rfl⟩ | ⟨-, h₂⟩ := hother q'' t ht'
      · exact absurd h₁ (hnew q')
      · exact h.distinct q' q'' t h₁ h₂
  · intro q' t ht ho
    obtain ⟨-, rfl⟩ | ⟨-, h₁⟩ := hother q' t ht
    · exact absurd (h.past _ ho) (lt_irrefl _)
    · exact h.running q' t h₁ ho
  · intro t ho
    exact (h.past t ho).trans (Nat.lt_succ_self _)
  · intro q'
    by_cases he : q' = q
    · subst he
      have hp : q' ∉ s.pending := by simpa [hq, Session.inserted] using h.pending q'
      simp [Process.session, hi, hp]
    · simpa [Process.session, he] using h.pending q'
  · intro q' t hd' ht
    obtain ⟨rfl, rfl⟩ | ⟨hne, h₁⟩ := hother q' t ht
    · exact hd (by simpa [Process.session] using hd')
    · exact h.done q' t (by simpa [Process.session, hne] using hd') h₁
  · exact h.seen
  · exact h.rolledBack

/-- The transaction of `q` goes on. -/
theorem Sessions.advance (h : Sessions s) (ht : x.txn? = (s.runners q).txn?)
    (hd : x.done = true → ∀ txn, x.txn? = some txn → .committed txn ∈ s.log) {pending}
    (hp : ∀ q', q' ∈ pending ↔ if q' = q then x.inserted ≠ [] else q' ∈ s.pending) :
    Sessions { s.session q x with pending := pending } := by
  have hsame : ∀ q', ((s.session q x).runners q').txn? = (s.runners q').txn? := by
    intro q'
    by_cases he : q' = q
    · simp [he, Process.session, ht]
    · simp [he, Process.session]
  constructor
  · intro q' t hq'
    exact h.fresh q' t (hsame q' ▸ hq')
  · intro q' q'' t hq' hq''
    exact h.distinct q' q'' t (hsame q' ▸ hq') (hsame q'' ▸ hq'')
  · intro q' t hq'
    exact h.running q' t (hsame q' ▸ hq')
  · exact h.past
  · intro q'
    rw [hp]
    by_cases he : q' = q
    · simp [he, Process.session]
    · simpa [he, Process.session] using h.pending q'
  · intro q' t hd' hq'
    by_cases he : q' = q
    · subst he
      simp only [Process.session, Function.update_self] at hd' hq'
      exact hd hd' t hq'
    · simp only [Process.session, Function.update_of_ne he] at hd' hq'
      exact h.done q' t hd' hq'
  · exact h.seen
  · exact h.rolledBack

/-! ### Every run -/

structure Invariant (s : Process) : Prop where
  drains : Drains s
  sessions : Sessions s
  handled : ∀ txn row, Seen s.log txn row → Handled s txn

theorem Invariant.start : Invariant .start where
  drains := .start
  sessions := .start
  handled := nofun

theorem Invariant.committed (h : Invariant s) (hs : Seen s.log txn row) :
    .committed txn ∈ s.log := by
  obtain ⟨rows, hs, -⟩ := hs
  exact (h.sessions.seen txn rows hs).1

theorem seen_note (hm : ∀ txn rows, m ≠ .seen txn rows) :
    Seen (s.log ++ [m]) txn row ↔ Seen s.log txn row := by
  simp [Seen, (hm _ _).symm]

/-- The transaction of `q` as the subscriber leaves it, before any nudge. -/
def Process.close (s : Process) (q : QueryRunner) (m : Moment) : Process :=
  { s with
    runners := Function.update s.runners q .idle
    pending := s.pending.erase q
    log := s.log ++ [m] }

theorem Drains.close (h : Drains s) (hm : m.ofDrain = false) : Drains (s.close q m) := by
  have hn : Drains (s.note m) := h.note hm
  exact ⟨hn.frames, hn.fresh, hn.began, hn.reading, hn.order⟩

theorem Invariant.nudged (h : Invariant s) (ht : (s.runners q).txn? = some txn)
    (hc : .committed txn ∈ s.log) (hr : rows ≠ []) :
    Invariant ((s.close q (.seen txn rows)).nudge txn) := by
  have hD : Drains (s.close q (.seen txn rows)) := h.drains.close rfl
  have hS := h.sessions.close ht (.nudged hc rows hr)
  constructor
  · exact hD.nudge
  · rw [nudge_eq]
    have hlog : s.log ++ [.seen txn rows, .nudged txn] =
        (s.close q (.seen txn rows)).log ++ [.nudged txn] := by simp [Process.close]
    rw [hlog] at hS
    exact ⟨hS.fresh, hS.distinct, hS.running, hS.past, hS.pending, hS.done, hS.seen, hS.rolledBack⟩
  · intro t row _
    exact handled_nudge _ t txn

theorem Invariant.quiet (h : Invariant s) (ht : (s.runners q).txn? = some txn)
    (hms : Closing s txn [m]) : Invariant (s.close q m) := by
  have hm : m.ofDrain = false := by cases hms <;> rfl
  constructor
  · exact h.drains.close hm
  · exact h.sessions.close ht hms
  · intro t row hs
    have hs' : Seen s.log t row := by
      obtain ⟨rows, hin, hrow⟩ := hs
      have hin' : .seen t rows ∈ s.log ∨ .seen t rows = m := by simpa [Process.close] using hin
      obtain hin | rfl := hin'
      · exact ⟨rows, hin, hrow⟩
      · cases hms
        simp at hrow
    exact (h.handled t row hs').note hm

/-- A commit that the subscriber sees: with rows it nudges. -/
theorem Invariant.afterTransactionCommit (h : Invariant s)
    (hq : s.runners q = .committed txn rows) :
    Invariant (((s.session q .idle).note (.seen txn rows)).afterTransactionCommit q txn) := by
  have ht : (s.runners q).txn? = some txn := by simp [hq, Session.txn?]
  have hc : .committed txn ∈ s.log := h.sessions.done q txn (by simp [hq, Session.done]) ht
  have hp := h.sessions.pending q
  rw [hq] at hp
  by_cases hr : rows = []
  · have hnot : q ∉ s.pending := by simpa [hr, Session.inserted] using hp
    have hcl : Closing s txn [.seen txn rows] := hr ▸ .empty hc
    simpa [Process.afterTransactionCommit, Process.note, Process.session, Process.close, hnot]
      using h.quiet ht hcl
  · have hin : q ∈ s.pending := by simpa [hr, Session.inserted] using hp
    simpa [Process.afterTransactionCommit, Process.note, Process.session, Process.close, hin]
      using h.nudged ht hc hr

theorem Invariant.afterInsert (h : Invariant s) (hq : s.runners q = .written txn row) :
    Invariant (((s.session q .idle).note (.seen txn [row])).afterInsert q txn) := by
  have ht : (s.runners q).txn? = some txn := by simp [hq, Session.txn?]
  have hc : .committed txn ∈ s.log := h.sessions.done q txn (by simp [hq, Session.done]) ht
  have hnot : q ∉ s.pending := by simpa [hq, Session.inserted] using h.sessions.pending q
  have hn := h.nudged ht hc (List.cons_ne_nil row [])
  simpa [Process.afterInsert, Process.note, Process.session, Process.close, hnot,
    Session.isTransactionActive] using hn

theorem Invariant.begin (h : Invariant s) (hq : s.runners q = .idle)
    (hx : x.txn? = some s.txns) (hi : x.inserted = [])
    (hd : x.done = true → .committed s.txns ∈ s.log) :
    Invariant { s.session q x with txns := s.txns + 1 } where
  drains := ⟨h.drains.frames, h.drains.fresh, h.drains.began, h.drains.reading, h.drains.order⟩
  sessions := h.sessions.begin hq hx hi hd
  handled := h.handled

/-- The server commits, with or without a transaction of the client. -/
theorem Invariant.commit (h : Invariant s) : Invariant (s.note (.committed txn)) where
  drains := h.drains.note rfl
  sessions := h.sessions.note rfl
  handled := by
    intro t row hs
    have hs' : Seen s.log t row := (seen_note (by simp)).mp hs
    exact (h.handled t row hs').note rfl

theorem Invariant.advance (h : Invariant s) (ht : x.txn? = (s.runners q).txn?)
    (hd : x.done = true → ∀ txn, x.txn? = some txn → .committed txn ∈ s.log) {pending}
    (hp : ∀ q', q' ∈ pending ↔ if q' = q then x.inserted ≠ [] else q' ∈ s.pending) :
    Invariant { s.session q x with pending := pending } where
  drains := ⟨h.drains.frames, h.drains.fresh, h.drains.began, h.drains.reading, h.drains.order⟩
  sessions := h.sessions.advance ht hd hp
  handled := h.handled

/-- A tick or a callback; a callback that finds a drain running leaves everything to it. -/
theorem Invariant.relay (h : Invariant s) (immediates : Nat) :
    Invariant { s with immediates := immediates }.relay := by
  have hD : Drains { s with immediates := immediates } :=
    ⟨h.drains.frames, h.drains.fresh, h.drains.began, h.drains.reading, h.drains.order⟩
  have hS : Sessions { s with immediates := immediates } :=
    ⟨h.sessions.fresh, h.sessions.distinct, h.sessions.running, h.sessions.past,
      h.sessions.pending, h.sessions.done, h.sessions.seen, h.sessions.rolledBack⟩
  constructor
  · exact hD.relay
  · exact hS.relay
  · intro t row hs
    have hs' : Seen s.log t row := by
      unfold Process.relay at hs
      split at hs
      · exact hs
      · exact (seen_note (by simp)).mp hs
    apply Handled.relay hD (h.committed hs')
    intro hd
    obtain ha | hw | ⟨hd', -⟩ := h.handled t row hs'
    · exact .inl ha
    · exact .inr (.inl hw)
    · exact absurd hd (by simp [hd'])

theorem Invariant.select (h : Invariant s) (hf : frame ∈ s.frames) :
    Invariant ({ s with frames := ⟨frame.drain, .reading⟩ :: s.frames.erase frame }.note
      (.selected frame.drain)) where
  drains := h.drains.select hf
  sessions := (h.sessions.frames _).note rfl
  handled := by
    intro t row hs
    have hs' : Seen s.log t row := (seen_note (by simp)).mp hs
    exact (h.handled t row hs').select h.drains hf

theorem Invariant.resume (h : Invariant s) (hf : frame ∈ s.frames) (hp : frame.point = .reading) :
    Invariant (s.resume frame claimed) where
  drains := h.drains.resume hf
  sessions := h.sessions.resume
  handled := by
    intro t row hs
    have hs' : Seen s.log t row := by
      unfold Process.resume at hs
      split at hs
      · exact hs
      · rw [finish_eq] at hs
        exact (seen_note (by simp)).mp hs
    exact (h.handled t row hs').resume h.drains hf hp

theorem Invariant.reject (h : Invariant s) (hf : frame ∈ s.frames) :
    Invariant ((s.note (.failed frame.drain)).finish frame) where
  drains := h.drains.finish hf (.inr rfl)
  sessions := by
    have hn : Sessions (s.note (.failed frame.drain)) := h.sessions.note rfl
    exact hn.finish
  handled := by
    intro t row hs
    have hs' : Seen s.log t row := by
      rw [finish_eq] at hs
      exact (seen_note (by simp)).mp hs
    exact (h.handled t row hs').finish h.drains hf (.inr rfl)

/-- One turn of the event loop keeps the invariant. -/
theorem Invariant.step (h : Invariant s) {e : Event} (he : s.step e = some s') :
    Invariant s' := by
  cases e with
  | startTransaction q =>
    cases hq : s.runners q <;> simp only [Process.step, hq, reduceCtorEq, Option.some.injEq] at he
    subst he
    exact h.begin hq rfl rfl nofun
  | insert q row =>
    cases hq : s.runners q with
    | idle =>
      simp only [Process.step, hq, Option.some.injEq] at he
      subst he
      have hc : Invariant (s.note (.committed s.txns)) := h.commit
      exact hc.begin hq rfl rfl fun _ => by simp [Process.note]
    | active txn rows =>
      simp only [Process.step, hq, Option.some.injEq] at he
      subst he
      have ha : (s.session q (.active txn (rows ++ [row]))).afterInsert q txn =
          { s.session q (.active txn (rows ++ [row])) with pending := insert q s.pending } := by
        simp [Process.afterInsert, Process.session, Session.isTransactionActive]
      rw [ha]
      apply h.advance
      · simp [hq, Session.txn?]
      · simp [Session.done]
      · intro q'
        by_cases hqq : q' = q <;> simp [hqq, Session.inserted]
    | committed txn rows => simp [Process.step, hq] at he
    | written txn row => simp [Process.step, hq] at he
  | commit q =>
    cases hq : s.runners q <;> simp only [Process.step, hq, reduceCtorEq, Option.some.injEq] at he
    rename_i txn rows
    subst he
    have hc : Invariant (s.note (.committed txn)) := h.commit
    apply hc.advance
    · simp [Process.note, hq, Session.txn?]
    · simp [Process.note, Session.txn?]
    · intro q'
      by_cases hqq : q' = q
      · simpa [hqq, hq, Session.inserted, Process.note, Process.session] using h.sessions.pending q
      · simp [hqq, Process.note, Process.session]
  | callback q =>
    cases hq : s.runners q <;> simp only [Process.step, hq, reduceCtorEq, Option.some.injEq] at he
    · subst he
      exact h.afterTransactionCommit hq
    · subst he
      exact h.afterInsert hq
  | rollback q =>
    cases hq : s.runners q <;> simp only [Process.step, hq, reduceCtorEq, Option.some.injEq] at he
    subst he
    exact h.quiet (by simp [hq, Session.txn?]) .rolledBack
  | tick =>
    simp only [Process.step, Option.some.injEq] at he
    subst he
    exact h.relay s.immediates
  | immediate =>
    simp only [Process.step] at he
    split at he
    · simp at he
    · simp only [Option.some.injEq] at he
      subst he
      exact h.relay _
  | select frame =>
    simp only [Process.step, Option.ite_none_right_eq_some, Option.some.injEq] at he
    obtain ⟨⟨hf, -⟩, rfl⟩ := he
    exact h.select hf
  | resolve frame claimed =>
    simp only [Process.step, Option.ite_none_right_eq_some, Option.some.injEq] at he
    obtain ⟨⟨hf, hp⟩, rfl⟩ := he
    exact h.resume hf hp
  | reject frame =>
    simp only [Process.step, Option.ite_none_right_eq_some, Option.some.injEq] at he
    obtain ⟨hf, rfl⟩ := he
    exact h.reject hf

theorem Reachable.invariant (h : Reachable s) : Invariant s := by
  obtain ⟨events, he⟩ := h
  unfold run at he
  induction events using List.reverseRecOn generalizing s with
  | nil =>
    have hs : Process.start = s := by simpa using he
    exact hs ▸ .start
  | append_singleton events e ih =>
    rw [List.foldlM_append] at he
    obtain ⟨s₁, h₁, h₂⟩ := Option.bind_eq_some_iff.mp he
    have hstep : s₁.step e = some s := by simpa using h₂
    exact (ih h₁).step hstep

/-- No wake-up is lost: when the relay is idle, each commit that the subscriber has seen was
followed by the first `SELECT` of some drain, unless that drain failed before it could issue one;
and each transaction nudges once if it commits rows, else not at all. -/
theorem no_lost_wake_up (h : Reachable s) :
    (s.Idle → ∀ txn row, Seen s.log txn row →
      ∃ d, Covers s.log txn d ∨ FailedUnread s.log txn d) ∧
    (∀ txn rows, .seen txn rows ∈ s.log →
      s.log.count (.nudged txn) = if rows = [] then 0 else 1) ∧
    ∀ txn, .rolledBack txn ∈ s.log → s.log.count (.nudged txn) = 0 := by
  have hi := h.invariant
  refine ⟨?_, ?_, hi.sessions.rolledBack⟩
  · rintro ⟨hf, hn⟩ txn row hs
    obtain ha | ⟨hd, -⟩ | ⟨-, hpos⟩ := hi.handled txn row hs
    · exact ha
    · obtain ⟨-, hd', -⟩ | ⟨⟨frame, he⟩, -⟩ := hi.drains.frames
      · simp [hd] at hd'
      · simp [hf] at he
    · omega
  · intro txn rows hs
    exact (hi.sessions.seen txn rows hs).2

/-- Row 7 is committed while a drain is reading, and drained by the next one. -/
def midDrain : List Event :=
  [.startTransaction 0, .insert 0 7, .tick, .select ⟨0, .opening⟩, .commit 0, .callback 0,
    .resolve ⟨0, .reading⟩ 0, .immediate, .select ⟨1, .opening⟩, .resolve ⟨1, .reading⟩ 1]

theorem no_lost_wake_up_midDrain : ∃ s, run midDrain = some s ∧ s.log.count (.nudged 0) = 1 ∧
    ∃ d, Covers s.log 0 d ∨ FailedUnread s.log 0 d := by
  obtain ⟨s, hs⟩ : ∃ s, run midDrain = some s := Option.isSome_iff_exists.mp rfl
  have hf : s.frames = [] := Option.some.inj (congrArg (Option.map Process.frames) hs).symm
  have hi : s.immediates = 0 := Option.some.inj (congrArg (Option.map Process.immediates) hs).symm
  have hl : s.log = [.began 0, .selected 0, .committed 0, .seen 0 [7], .nudged 0, .ended 0,
      .began 1, .selected 1, .ended 1] :=
    Option.some.inj (congrArg (Option.map Process.log) hs).symm
  have hseen : .seen 0 [7] ∈ s.log := by simp [hl]
  obtain ⟨hcover, hcount, -⟩ := no_lost_wake_up ⟨midDrain, hs⟩
  exact ⟨s, hs, hcount 0 [7] hseen, hcover ⟨hf, hi⟩ 0 7 ⟨[7], hseen, by simp⟩⟩

/-- Row 7 is committed, and the drain of its nudge cannot open its transaction. -/
def failedDrain : List Event :=
  [.startTransaction 0, .insert 0 7, .commit 0, .callback 0, .immediate, .reject ⟨0, .opening⟩]

/-- A failed drain leaves the row for the next tick: no `SELECT` was issued at all. -/
theorem not_no_lost_wake_up : ¬ ∀ s, Reachable s → s.Idle → ∀ txn row, Seen s.log txn row →
    ∃ d, Covers s.log txn d := by
  intro h
  obtain ⟨s, hs⟩ : ∃ s, run failedDrain = some s := Option.isSome_iff_exists.mp rfl
  have hf : s.frames = [] := Option.some.inj (congrArg (Option.map Process.frames) hs).symm
  have hi : s.immediates = 0 := Option.some.inj (congrArg (Option.map Process.immediates) hs).symm
  have hl : s.log = [.committed 0, .seen 0 [7], .nudged 0, .began 0, .failed 0] :=
    Option.some.inj (congrArg (Option.map Process.log) hs).symm
  have hseen : Seen s.log 0 7 := ⟨[7], by simp [hl], by simp⟩
  obtain ⟨d, hd⟩ := h s ⟨failedDrain, hs⟩ ⟨hf, hi⟩ 0 7 hseen
  have hmem : .selected d ∈ s.log := hd.mem
  simp [hl] at hmem

end OrderLifecycle.WakeUp

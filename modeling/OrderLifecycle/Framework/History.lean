import Mathlib.Data.List.Induction
import OrderLifecycle.Framework.RelyGuarantee

namespace Framework

variable {σ χ κ η ε α β ρ : Type}

/-- The statements a thread has run so far, each with the state before and after it. -/
abbrev Past (σ : Type) := List (σ × σ)

/-- `wp` with a memory: what a call promises, step by step and in the end, may speak about its own
past. -/
def wpPast (L : Logic σ χ κ) (A : Past σ → σ → σ → Prop) (t : Tid) (k : κ) :
    Prog σ χ α → (α → Past σ → σ → Prop) → Past σ → σ → Prop
  | .ret a, Q, h, s => Q a h s
  | .act _ f g, Q, h, s =>
    ∀ s₁, Relation.ReflTransGen (L.rely t) s s₁ → L.inv s₁ → ∀ ch, L.choice ch →
      ∀ r s₂, f t ch s₁ = some (r, s₂) → L.inv s₂ ∧ L.guar t k s₁ s₂ ∧ A h s₁ s₂ ∧
        wpPast L A t k (g r) Q (h ++ [(s₁, s₂)]) s₂

/-- `P` before the action; `Q` after it returns, `E` after it throws. -/
def Recalls (L : Logic σ χ κ) (A : Past σ → σ → σ → Prop) (t : Tid) (k : κ)
    (P : Past σ → σ → Prop) (x : Action σ χ ε α) (Q : α → Past σ → σ → Prop)
    (E : ε → Past σ → σ → Prop) : Prop :=
  ∀ h s, P h s →
    wpPast L A t k x.run (fun r h s => match r with | .ok a => Q a h s | .error e => E e h s) h s

section rules

variable {L : Logic σ χ κ} {A : Past σ → σ → σ → Prop} {t : Tid} {k : κ}

theorem wpPast_mono {p : Prog σ χ α} {Q R : α → Past σ → σ → Prop}
    (hqr : ∀ a h s, Q a h s → R a h s) {h : Past σ} {s : σ} (hw : wpPast L A t k p Q h s) :
    wpPast L A t k p R h s := by
  induction p generalizing h s with
  | ret a => exact hqr a h s hw
  | act β f g ih =>
    intro s₁ hr hi ch hc r s₂ hf
    obtain ⟨hi₂, hg, ha, hw₂⟩ := hw s₁ hr hi ch hc r s₂ hf
    exact ⟨hi₂, hg, ha, ih r hw₂⟩

theorem wpPast_bind {p : Prog σ χ α} {g : α → Prog σ χ β} {Q : β → Past σ → σ → Prop}
    {h : Past σ} {s : σ}
    (hw : wpPast L A t k p (fun a h s => wpPast L A t k (g a) Q h s) h s) :
    wpPast L A t k (p >>= g) Q h s := by
  induction p generalizing h s with
  | ret a => exact hw
  | act γ f g' ih =>
    intro s₁ hr hi ch hc r s₂ hf
    obtain ⟨hi₂, hg, ha, hw₂⟩ := hw s₁ hr hi ch hc r s₂ hf
    exact ⟨hi₂, hg, ha, ih r hw₂⟩

theorem wpPast_rely {p : Prog σ χ α} {Q : α → Past σ → σ → Prop}
    (hQ : ∀ a h, L.Stable t (Q a h)) {h : Past σ} {s s' : σ} (hr : L.rely t s s')
    (hw : wpPast L A t k p Q h s) : wpPast L A t k p Q h s' := by
  cases p with
  | ret a => exact hQ a h s s' hr hw
  | act β f g => exact fun s₁ h₁ => hw s₁ (.head hr h₁)

/-- Without the memory this is `wp`. -/
theorem wpPast_forget {p : Prog σ χ α} {Q : α → Past σ → σ → Prop} {h : Past σ} {s : σ}
    (hw : wpPast L A t k p Q h s) : wp L t k p (fun a s => ∃ h, Q a h s) s := by
  induction p generalizing h s with
  | ret a => exact ⟨h, hw⟩
  | act β f g ih =>
    intro s₁ hr hi ch hc r s₂ hf
    obtain ⟨hi₂, hg, -, hw₂⟩ := hw s₁ hr hi ch hc r s₂ hf
    exact ⟨hi₂, hg, ih r hw₂⟩

variable {P P' : Past σ → σ → Prop} {Q Q' : α → Past σ → σ → Prop} {R : β → Past σ → σ → Prop}
  {E E' : ε → Past σ → σ → Prop}

theorem recalls_pure {a : α} (hp : ∀ h s, P h s → Q a h s) :
    Recalls L A t k P (pure a : Action σ χ ε α) Q E := hp

theorem recalls_throw {e : ε} (hp : ∀ h s, P h s → E e h s) :
    Recalls L A t k P (throw e : Action σ χ ε α) Q E := hp

theorem recalls_conseq {x : Action σ χ ε α} (hx : Recalls L A t k P x Q E)
    (hp : ∀ h s, P' h s → P h s) (hq : ∀ a h s, Q a h s → Q' a h s)
    (he : ∀ e h s, E e h s → E' e h s) : Recalls L A t k P' x Q' E' := by
  intro h s hs
  apply wpPast_mono _ (hx h s (hp h s hs))
  intro r h s hr
  cases r with
  | ok a => exact hq a h s hr
  | error e => exact he e h s hr

theorem recalls_pre {x : Action σ χ ε α} (hp : ∀ h s, P' h s → P h s)
    (hx : Recalls L A t k P x Q E) : Recalls L A t k P' x Q E :=
  fun h s hs => hx h s (hp h s hs)

theorem recalls_fact {p : Prop} {x : Action σ χ ε α} (hx : p → Recalls L A t k P x Q E) :
    Recalls L A t k (fun h s => p ∧ P h s) x Q E :=
  fun h s hs => hx hs.1 h s hs.2

theorem recalls_bind {x : Action σ χ ε α} {f : α → Action σ χ ε β}
    (hx : Recalls L A t k P x Q E) (hf : ∀ a, Recalls L A t k (Q a) (f a) R E) :
    Recalls L A t k P (x >>= f) R E := by
  intro h s hs
  change wpPast L A t k (x.run >>= _) _ h s
  apply wpPast_bind
  apply wpPast_mono _ (hx h s hs)
  intro r h s hr
  cases r with
  | ok a => exact hf a h s hr
  | error e => exact hr

theorem recalls_tryCatch {x : Action σ χ ε α} {f : ε → Action σ χ ε α}
    (hx : Recalls L A t k P x Q E) (hf : ∀ e, Recalls L A t k (E e) (f e) Q E') :
    Recalls L A t k P (tryCatch x f) Q E' := by
  intro h s hs
  change wpPast L A t k (x.run >>= _) _ h s
  apply wpPast_bind
  apply wpPast_mono _ (hx h s hs)
  intro r h s hr
  cases r with
  | ok a => exact hr
  | error e => exact hf e h s hr

theorem recalls_ite {c : Prop} [Decidable c] {x y : Action σ χ ε α}
    (hx : c → Recalls L A t k P x Q E) (hy : ¬c → Recalls L A t k P y Q E) :
    Recalls L A t k P (if c then x else y) Q E := by
  by_cases hc : c
  · simpa only [if_pos hc] using hx hc
  · simpa only [if_neg hc] using hy hc

/-- One statement, from a precondition that is stable whatever the past. -/
theorem recalls_stmt {f : Stmt σ χ (Except ε β)} (hP : ∀ h, L.Stable t (P h))
    (hf : ∀ h s ch r s', L.inv s → L.choice ch → P h s → f t ch s = some (r, s') →
      L.inv s' ∧ L.guar t k s s' ∧ A h s s' ∧
        match r with
        | .ok a => R a (h ++ [(s, s')]) s'
        | .error e => E e (h ++ [(s, s')]) s') :
    Recalls L A t k P (stmt f) R E := by
  intro h s hs s₁ hr hi ch hc r s₂ hfs
  obtain ⟨hi₂, hg, ha, hq⟩ := hf h s₁ ch r s₂ hi hc ((hP h).star hr hs) hfs
  exact ⟨hi₂, hg, ha, hq⟩

end rules

/-! ### The past of a thread in a run -/

namespace System

variable (S : System σ χ κ η ρ)

/-- What thread `t` does in one step. -/
def own (t : Tid) (c c' : Config σ χ κ ρ) : Label χ κ η → Past σ
  | .step t' _ => if t' = t then [(c.shared, c'.shared)] else []
  | _ => []

/-- What thread `t` has done in a run. -/
def past (t : Tid) (c : Config σ χ κ ρ) : List (Label χ κ η) → Past σ
  | [] => []
  | l :: ls =>
    match S.next c l with
    | none => []
    | some c' => own t c c' l ++ past t c' ls

theorem run_snoc {c c' : Config σ χ κ ρ} {ls : List (Label χ κ η)} {l : Label χ κ η} :
    S.run c (ls ++ [l]) = some c' ↔ ∃ d, S.run c ls = some d ∧ S.next d l = some c' := by
  simp [S.run_append, run, Option.bind_eq_some_iff]

theorem past_snoc {c d c' : Config σ χ κ ρ} {ls : List (Label χ κ η)} {l : Label χ κ η} {t : Tid}
    (hr : S.run c ls = some d) (hn : S.next d l = some c') :
    S.past t c (ls ++ [l]) = S.past t c ls ++ own t d c' l := by
  induction ls generalizing c with
  | nil =>
    cases hr
    simp [past, hn]
  | cons m ls ih =>
    obtain ⟨e, he, hr⟩ := S.run_cons.mp hr
    simp [past, he, ih hr]

theorem past_append {c d : Config σ χ κ ρ} {ls ms : List (Label χ κ η)} {t : Tid}
    (hr : S.run c ls = some d) : S.past t c (ls ++ ms) = S.past t c ls ++ S.past t d ms := by
  induction ls generalizing c with
  | nil =>
    cases hr
    rfl
  | cons l ls ih =>
    obtain ⟨e, he, hr⟩ := S.run_cons.mp hr
    simp [past, he, ih hr]

/-- A moment of the past: the thread's own step, somewhere in the run. -/
theorem mem_past {c : Config σ χ κ ρ} {ls : List (Label χ κ η)} {t : Tid} {s s' : σ}
    (h : (s, s') ∈ S.past t c ls) : ∃ ls₁ ch ls₂ d d', ls = ls₁ ++ .step t ch :: ls₂ ∧
      S.run c ls₁ = some d ∧ S.next d (.step t ch) = some d' ∧ d.shared = s ∧ d'.shared = s' := by
  induction ls generalizing c with
  | nil => cases h
  | cons l ls ih =>
    cases hn : S.next c l with
    | none => simp [past, hn] at h
    | some c' =>
      simp only [past, hn, List.mem_append] at h
      rcases h with h | h
      · cases l with
        | step t' ch =>
          by_cases e : t' = t
          · subst e
            simp only [own, if_true, List.mem_singleton, Prod.mk.injEq] at h
            exact ⟨[], ch, ls, c, c', rfl, rfl, hn, h.1.symm, h.2.symm⟩
          · simp [own, e] at h
        | _ => simp [own] at h
      · obtain ⟨ls₁, ch, ls₂, d, d', rfl, hr, hd, hs⟩ := ih h
        exact ⟨l :: ls₁, ch, ls₂, d, d', rfl, S.run_cons.mpr ⟨c', hn, hr⟩, hd, hs⟩

end System

/-! ### Soundness -/

/-- As `Verified`, for calls that recall their past. -/
structure Recalled (S : System σ χ κ η ρ) (L : Logic σ χ κ)
    (A : Tid → κ → Past σ → σ → σ → Prop) (idle : Tid → σ → Prop)
    (post : Tid → κ → ρ → Past σ → σ → Prop) : Prop where
  idle_stable : ∀ t, L.Stable t (idle t)
  post_stable : ∀ t k r h, L.Stable t (post t k r h)
  body : ∀ t k s, L.inv s → idle t s → S.enabled k s = true →
    wpPast L (A t k) t k (S.body k) (post t k) [] s
  env : ∀ e s s', L.inv s → S.env e s = some s' → L.inv s' ∧ L.envGuar s s'
  crash : ∀ t k s, L.inv s → L.inv (S.crash t s) ∧ L.guar t k s (S.crash t s)

section soundness

variable {S : System σ χ κ η ρ} {L : Logic σ χ κ} {A : Tid → κ → Past σ → σ → σ → Prop}
  {idle : Tid → σ → Prop} {post : Tid → κ → ρ → Past σ → σ → Prop}

theorem Recalled.verified (V : Recalled S L A idle post) :
    Verified S L idle fun t k r s => ∃ h, post t k r h s where
  idle_stable := V.idle_stable
  post_stable t k r := .exists fun h => V.post_stable t k r h
  body t k s hi hs he := wpPast_forget (V.body t k s hi hs he)
  env := V.env
  crash := V.crash

/-- The configurations of a run in which every call is as the logic says, its past included. -/
structure Recollects (S : System σ χ κ η ρ) (L : Logic σ χ κ)
    (A : Tid → κ → Past σ → σ → σ → Prop) (idle : Tid → σ → Prop)
    (post : Tid → κ → ρ → Past σ → σ → Prop) (past : Tid → Past σ) (c : Config σ χ κ ρ) : Prop where
  sound : Sound L idle (fun t k r s => ∃ h, post t k r h s) c
  fresh : ∀ t, c.threads t = none → past t = []
  thread : ∀ t k p, c.threads t = some (k, .running p) →
    wpPast L (A t k) t k p (post t k) (past t) c.shared

theorem Recalled.next (V : Recalled S L A idle post) {past : Tid → Past σ} {c c' : Config σ χ κ ρ}
    {l : Label χ κ η} (hl : L.Admits l) (hn : S.next c l = some c')
    (h : Recollects S L A idle post past c) :
    Recollects S L A idle post (fun t => past t ++ System.own t c c' l) c' := by
  obtain ⟨hs', -⟩ := h.sound.next V.verified hl hn
  have hinv := h.sound.inv
  cases l with
  | start t k =>
    simp only [System.next] at hn
    split at hn
    · next ht =>
      split at hn
      · next he =>
        cases hn
        refine ⟨hs', fun t' ht' => ?_, fun t' k' p ht' => ?_⟩
        · by_cases e : t' = t
          · simp [Config.set, e] at ht'
          · simp only [Config.set, Function.update_of_ne e] at ht'
            simpa [System.own] using h.fresh t' ht'
        · simp only [System.own, List.append_nil]
          by_cases e : t' = t
          · subst e
            simp only [Config.set, Function.update_self, Option.some.injEq, Prod.mk.injEq,
              Thread.running.injEq] at ht'
            obtain ⟨rfl, rfl⟩ := ht'
            rw [h.fresh t' ht]
            exact V.body t' k c.shared hinv (h.sound.fresh t' ht) he
          · simp only [Config.set, Function.update_of_ne e] at ht'
            exact h.thread t' k' p ht'
      · cases hn
    · cases hn
  | step t ch =>
    simp only [System.next] at hn
    split at hn
    · next k β f g ht =>
      obtain ⟨⟨r, s⟩, hf, rfl⟩ := Option.map_eq_some_iff.mp hn
      obtain ⟨hi, hg, -, hw⟩ := h.thread t k _ ht c.shared .refl hinv ch hl r s hf
      refine ⟨hs', fun t' ht' => ?_, fun t' k' p ht' => ?_⟩
      · by_cases e : t' = t
        · simp [Config.set, e] at ht'
        · simp only [Config.set, Function.update_of_ne e] at ht'
          simpa [System.own, Ne.symm e] using h.fresh t' ht'
      · by_cases e : t' = t
        · subst e
          simp only [Config.set, Function.update_self, Option.some.injEq, Prod.mk.injEq,
            Thread.running.injEq] at ht'
          obtain ⟨rfl, rfl⟩ := ht'
          simp only [System.own, if_true]
          exact hw
        · simp only [Config.set, Function.update_of_ne e] at ht'
          have hrely : L.rely t' c.shared s := ⟨hinv, hi, .inl ⟨t, k, Ne.symm e, hg⟩⟩
          simp only [System.own, if_neg (Ne.symm e), List.append_nil]
          exact wpPast_rely (V.post_stable t' k') hrely (h.thread t' k' p ht')
    · cases hn
  | crash t =>
    simp only [System.next] at hn
    split at hn
    · next k β f g ht =>
      cases hn
      obtain ⟨hi, hg⟩ := V.crash t k c.shared hinv
      refine ⟨hs', fun t' ht' => ?_, fun t' k' p ht' => ?_⟩
      · by_cases e : t' = t
        · simp [Config.set, e] at ht'
        · simp only [Config.set, Function.update_of_ne e] at ht'
          simpa [System.own] using h.fresh t' ht'
      · by_cases e : t' = t
        · simp [Config.set, e] at ht'
        · simp only [Config.set, Function.update_of_ne e] at ht'
          have hrely : L.rely t' c.shared (S.crash t c.shared) :=
            ⟨hinv, hi, .inl ⟨t, k, Ne.symm e, hg⟩⟩
          simp only [System.own, List.append_nil]
          exact wpPast_rely (V.post_stable t' k') hrely (h.thread t' k' p ht')
    · cases hn
  | env e =>
    obtain ⟨s, hs, rfl⟩ := Option.map_eq_some_iff.mp hn
    obtain ⟨hi, hg⟩ := V.env e c.shared s hinv hs
    refine ⟨hs', fun t ht => ?_, fun t k p ht => ?_⟩
    · simpa [System.own] using h.fresh t ht
    · simpa [System.own] using
        wpPast_rely (V.post_stable t k) ⟨hinv, hi, .inr hg⟩ (h.thread t k p ht)

/-- After every run each call is as the logic says. -/
theorem Recalled.run (V : Recalled S L A idle post) {s : σ} {c : Config σ χ κ ρ}
    {ls : List (Label χ κ η)} (hl : ∀ l ∈ ls, L.Admits l) (hr : S.run (.init s) ls = some c)
    (hi : L.inv s) (hs : ∀ t, idle t s) :
    Recollects S L A idle post (fun t => S.past t (.init s) ls) c := by
  induction ls using List.reverseRecOn generalizing c with
  | nil =>
    cases hr
    exact ⟨.init hi hs, fun _ _ => rfl, fun _ _ _ ht => nomatch ht⟩
  | append_singleton ls l ih =>
    obtain ⟨d, hd, hn⟩ := S.run_snoc.mp hr
    have hrec := ih (fun m hm => hl m (List.mem_append_left _ hm)) hd
    have hnext := V.next (hl l (by simp)) hn hrec
    simpa only [S.past_snoc hd hn] using hnext

/-- What a call did keeps to what it says of its steps. -/
theorem Recollects.step {past : Tid → Past σ} {c c' : Config σ χ κ ρ} {t : Tid} {ch : χ}
    (h : Recollects S L A idle post past c) (hc : L.choice ch)
    (hn : S.next c (.step t ch) = some c') : ∃ k th, c.threads t = some (k, th) ∧
      A t k (past t) c.shared c'.shared := by
  simp only [System.next] at hn
  split at hn
  · next k β f g ht =>
    obtain ⟨⟨r, s⟩, hf, rfl⟩ := Option.map_eq_some_iff.mp hn
    obtain ⟨-, -, ha, -⟩ := h.thread t k _ ht c.shared .refl h.sound.inv ch hc r s hf
    exact ⟨k, _, ht, ha⟩
  · cases hn

/-- What a call that has returned says of itself. -/
theorem Recollects.result {past : Tid → Past σ} {c : Config σ χ κ ρ} {t : Tid} {k : κ} {r : ρ}
    (h : Recollects S L A idle post past c) (ht : c.threads t = some (k, .running (.ret r))) :
    post t k r (past t) c.shared :=
  h.thread t k _ ht

end soundness

end Framework

import Mathlib.Logic.Function.Basic

namespace Framework

/-- Name of a thread; every call of a service runs in a thread of its own. -/
abbrev Tid := Nat

/-- One atomic statement, from the calling thread, the scheduler's choice and the shared
state. `none` means that the statement has to wait. -/
abbrev Stmt (σ χ β : Type) := Tid → χ → σ → Option (β × σ)

/-- A program is a tree of atomic statements; other threads may run between any two. -/
inductive Prog (σ χ α : Type) : Type 1
  | ret (a : α)
  | act (β : Type) (f : Stmt σ χ β) (k : β → Prog σ χ α)

namespace Prog

variable {σ χ α β γ : Type}

def bind : Prog σ χ α → (α → Prog σ χ β) → Prog σ χ β
  | ret a, g => g a
  | act γ f k, g => act γ f fun b => (k b).bind g

instance : Monad (Prog σ χ) where
  pure := ret
  bind := bind

end Prog

/-- A service call: a program that returns a value or throws. -/
abbrev Action (σ χ ε α : Type) := ExceptT ε (Prog σ χ) α

/-- The action of one statement. -/
def stmt {σ χ ε β : Type} (f : Stmt σ χ (Except ε β)) : Action σ χ ε β :=
  ExceptT.mk (.act _ f .ret)

/-- `work` between `start` and `commit`; an error of any of them is thrown on after a `rollback`. -/
def Action.within {σ χ ε α : Type} (start commit rollback : Action σ χ ε Unit)
    (work : Action σ χ ε α) : Action σ χ ε α :=
  tryCatch
    (do
      start
      let result ← work
      commit
      return result)
    fun err => do
      rollback
      throw err

/-! ### Threads, configurations and runs -/

/-- What a call is doing: still at a program (finished when it is a `ret`) or dead. -/
inductive Thread (σ χ ρ : Type) : Type 1
  | running (p : Prog σ χ ρ)
  | crashed

/-- Not finished, and alive. -/
def Thread.Active {σ χ ρ : Type} : Thread σ χ ρ → Prop
  | .running (.act _ _ _) => True
  | _ => False

/-- Calls `κ` with results `ρ`, and what the environment does on its own. -/
structure System (σ χ κ η ρ : Type) where
  body : κ → Prog σ χ ρ
  enabled : κ → σ → Bool
  env : η → σ → Option σ
  crash : Tid → σ → σ

structure Config (σ χ κ ρ : Type) where
  shared : σ
  threads : Tid → Option (κ × Thread σ χ ρ)

/-- One step of the scheduler. -/
inductive Label (χ κ η : Type)
  | start (t : Tid) (k : κ)
  | step (t : Tid) (ch : χ)
  | crash (t : Tid)
  | env (e : η)

variable {σ χ κ η ρ : Type}

def Config.init (s : σ) : Config σ χ κ ρ := ⟨s, fun _ => none⟩

def Config.set (c : Config σ χ κ ρ) (s : σ) (t : Tid) (k : κ) (th : Thread σ χ ρ) :
    Config σ χ κ ρ :=
  ⟨s, Function.update c.threads t (some (k, th))⟩

namespace System

variable (S : System σ χ κ η ρ)

/-- The step the scheduler asks for; `none` when it is not possible. A thread name is used
for one call only. -/
def next (c : Config σ χ κ ρ) : Label χ κ η → Option (Config σ χ κ ρ)
  | .start t k =>
    match c.threads t with
    | none => if S.enabled k c.shared then some (c.set c.shared t k (.running (S.body k))) else none
    | some _ => none
  | .step t ch =>
    match c.threads t with
    | some (k, .running (.act _ f g)) =>
      (f t ch c.shared).map fun r => c.set r.2 t k (.running (g r.1))
    | _ => none
  | .crash t =>
    match c.threads t with
    | some (k, .running (.act _ _ _)) => some (c.set (S.crash t c.shared) t k .crashed)
    | _ => none
  | .env e => (S.env e c.shared).map fun s => ⟨s, c.threads⟩

def run (c : Config σ χ κ ρ) : List (Label χ κ η) → Option (Config σ χ κ ρ)
  | [] => some c
  | l :: ls => (S.next c l).bind fun c' => run c' ls

theorem run_cons {c c' : Config σ χ κ ρ} {l : Label χ κ η} {ls : List (Label χ κ η)} :
    S.run c (l :: ls) = some c' ↔ ∃ d, S.next c l = some d ∧ S.run d ls = some c' := by
  simp [run, Option.bind_eq_some_iff]

theorem run_append (c : Config σ χ κ ρ) (ls ms : List (Label χ κ η)) :
    S.run c (ls ++ ms) = (S.run c ls).bind fun d => S.run d ms := by
  induction ls generalizing c with
  | nil => rfl
  | cons l ls ih =>
    cases h : S.next c l with
    | none => simp [run, h]
    | some d => simp [run, h, ih]

/-- A property of configurations kept by every admitted step holds after every admitted run. -/
theorem run_induct {P : Config σ χ κ ρ → Prop} {A : Label χ κ η → Prop}
    (hstep : ∀ c c' l, A l → S.next c l = some c' → P c → P c')
    {c c' : Config σ χ κ ρ} {ls : List (Label χ κ η)} (ha : ∀ l ∈ ls, A l)
    (hr : S.run c ls = some c') (hc : P c) : P c' := by
  induction ls generalizing c with
  | nil =>
    cases hr
    exact hc
  | cons l ls ih =>
    obtain ⟨d, hd, hr⟩ := S.run_cons.mp hr
    exact ih (fun m hm => ha m (List.mem_cons_of_mem _ hm)) hr
      (hstep c d l (ha l List.mem_cons_self) hd hc)

/-- A step leaves a thread alone, starts it, or takes it further in its call. -/
theorem next_thread {c c' : Config σ χ κ ρ} {l : Label χ κ η} (h : S.next c l = some c') (t : Tid) :
    c'.threads t = c.threads t ∨ ((∃ k, l = .start t k) ∧ c.threads t = none) ∨
      ∃ k th th', c.threads t = some (k, th) ∧ th.Active ∧ c'.threads t = some (k, th') := by
  have moved {s : σ} {t' : Tid} {k₁ : κ} {th₁ th₂ : Thread σ χ ρ}
      (ht' : c.threads t' = some (k₁, th₁)) (ha : th₁.Active) :
      (c.set s t' k₁ th₂).threads t = c.threads t ∨
        ((∃ k, l = .start t k) ∧ c.threads t = none) ∨
        ∃ k th th', c.threads t = some (k, th) ∧ th.Active ∧
          (c.set s t' k₁ th₂).threads t = some (k, th') := by
    by_cases e : t = t'
    · subst e
      exact .inr (.inr ⟨k₁, th₁, th₂, ht', ha, Function.update_self ..⟩)
    · exact .inl (Function.update_of_ne e ..)
  cases l with
  | start t' k =>
    simp only [next] at h
    split at h
    · next hn =>
      split at h
      · cases h
        by_cases e : t = t'
        · subst e
          exact .inr (.inl ⟨⟨k, rfl⟩, hn⟩)
        · exact .inl (Function.update_of_ne e ..)
      · cases h
    · cases h
  | step t' ch =>
    simp only [next] at h
    split at h
    · next hs =>
      obtain ⟨r, -, rfl⟩ := Option.map_eq_some_iff.mp h
      exact moved hs trivial
    · cases h
  | crash t' =>
    simp only [next] at h
    split at h
    · next hs =>
      cases h
      exact moved hs trivial
    · cases h
  | env e =>
    obtain ⟨s, -, rfl⟩ := Option.map_eq_some_iff.mp h
    exact .inl rfl

/-- A thread keeps its call. -/
theorem next_call {c c' : Config σ χ κ ρ} {l : Label χ κ η} (h : S.next c l = some c') {t : Tid}
    {k : κ} {th : Thread σ χ ρ} (ht : c.threads t = some (k, th)) :
    ∃ th', c'.threads t = some (k, th') := by
  rcases S.next_thread h t with he | ⟨-, hn⟩ | ⟨k', th', th'', ht', -, hc⟩
  · exact ⟨th, he.trans ht⟩
  · exact nomatch hn.symm.trans ht
  · rw [ht] at ht'
    cases ht'
    exact ⟨th'', hc⟩

/-- A thread that has finished or died is left alone. -/
theorem next_inactive {c c' : Config σ χ κ ρ} {l : Label χ κ η} (h : S.next c l = some c') {t : Tid}
    {k : κ} {th : Thread σ χ ρ} (ht : c.threads t = some (k, th)) (hd : ¬th.Active) :
    c'.threads t = some (k, th) := by
  rcases S.next_thread h t with he | ⟨-, hn⟩ | ⟨k', th', th'', ht', ha, -⟩
  · exact he.trans ht
  · exact nomatch hn.symm.trans ht
  · rw [ht] at ht'
    cases ht'
    exact absurd ha hd

/-- A thread dies in its own crash step. -/
theorem next_crashed {c c' : Config σ χ κ ρ} {l : Label χ κ η} (h : S.next c l = some c') {t : Tid}
    {k : κ} (ht : c'.threads t = some (k, .crashed)) :
    c.threads t = some (k, .crashed) ∨ l = .crash t := by
  have other {s : σ} {t' : Tid} {k' : κ} {p : Prog σ χ ρ}
      (hs : (c.set s t' k' (.running p)).threads t = some (k, .crashed)) :
      c.threads t = some (k, .crashed) := by
    by_cases e : t = t'
    · subst e
      simp [Config.set] at hs
    · simpa only [Config.set, Function.update_of_ne e] using hs
  cases l with
  | start t' k' =>
    simp only [next] at h
    split at h
    · split at h
      · cases h
        exact .inl (other ht)
      · cases h
    · cases h
  | step t' ch =>
    simp only [next] at h
    split at h
    · obtain ⟨r, -, rfl⟩ := Option.map_eq_some_iff.mp h
      exact .inl (other ht)
    · cases h
  | crash t' =>
    by_cases e : t = t'
    · exact .inr (e ▸ rfl)
    · simp only [next] at h
      split at h
      · cases h
        exact .inl (by simpa only [Config.set, Function.update_of_ne e] using ht)
      · cases h
  | env e =>
    obtain ⟨s, -, rfl⟩ := Option.map_eq_some_iff.mp h
    exact .inl ht

/-- A thread that is there keeps its call, and what has ended stays as it is. -/
theorem run_call {c c' : Config σ χ κ ρ} {ls : List (Label χ κ η)} (h : S.run c ls = some c')
    {t : Tid} {k : κ} {th : Thread σ χ ρ} (ht : c.threads t = some (k, th)) :
    ∃ th', c'.threads t = some (k, th') ∧ (th'.Active → th.Active) := by
  induction ls generalizing c th with
  | nil =>
    cases h
    exact ⟨th, ht, id⟩
  | cons l ls ih =>
    obtain ⟨d, hd, hr⟩ := S.run_cons.mp h
    by_cases ha : th.Active
    · obtain ⟨th₁, ht₁⟩ := S.next_call hd ht
      obtain ⟨th₂, ht₂, -⟩ := ih hr ht₁
      exact ⟨th₂, ht₂, fun _ => ha⟩
    · exact ih hr (S.next_inactive hd ht ha)

/-- A thread that was not started is not there. -/
theorem run_thread_none {c c' : Config σ χ κ ρ} {ls : List (Label χ κ η)} {t : Tid}
    (hl : ∀ k, .start t k ∉ ls) (h : S.run c ls = some c') (ht : c.threads t = none) :
    c'.threads t = none := by
  refine S.run_induct (P := fun c => c.threads t = none) (A := fun l => ∀ k, l ≠ .start t k)
    ?_ (fun l hm k e => hl k (e ▸ hm)) h ht
  intro c c' l ha hn ht
  rcases S.next_thread hn t with he | ⟨⟨k, e⟩, -⟩ | ⟨k, th, th', hc, -⟩
  · exact he.trans ht
  · exact absurd e (ha k)
  · exact nomatch ht.symm.trans hc

end System

end Framework

import OrderLifecycle.Framework.RelyGuarantee
import OrderLifecycle.Framework.Solo

namespace Framework

variable {σ χ ε α β : Type}

/-- A value that the statement may give. -/
def Stmt.Gives (f : Stmt σ χ β) (b : β) : Prop := ∃ t ch s s', f t ch s = some (b, s')

/-- Every statement of the program is in `A` and every result in `R`. -/
inductive Prog.All (A : ∀ β, Stmt σ χ β → Prop) (R : α → Prop) : Prog σ χ α → Prop
  | ret {a : α} (ha : R a) : All A R (.ret a)
  | act {β : Type} {f : Stmt σ χ β} {g : β → Prog σ χ α} (hf : A β f) (hg : ∀ b, f.Gives b → All A R (g b)) :
    All A R (.act β f g)

theorem Prog.All.bind {A : ∀ β, Stmt σ χ β → Prop} {R : α → Prop} {R' : β → Prop}
    {p : Prog σ χ α} {g : α → Prog σ χ β} (hp : p.All A R) (hg : ∀ a, R a → (g a).All A R') :
    (p >>= g).All A R' := by
  induction hp with
  | ret ha => exact hg _ ha
  | act hf _ ih => exact .act hf fun b hb => ih b hb

/-- The statements of an action are in `A`, the errors it throws in `E`. -/
def Confined (A : ∀ β, Stmt σ χ β → Prop) (E : ε → Prop) (x : Action σ χ ε α) : Prop :=
  Prog.All A (fun r => ∀ e, r = .error e → E e) x.run

section rules

variable {A : ∀ β, Stmt σ χ β → Prop} {E E' : ε → Prop}

theorem confined_pure {a : α} : Confined A E (pure a : Action σ χ ε α) :=
  .ret fun _ h => nomatch h

theorem confined_throw {e : ε} (he : E e) : Confined A E (throw e : Action σ χ ε α) := by
  refine .ret fun e' h => ?_
  cases h
  exact he

theorem confined_bind {x : Action σ χ ε α} {f : α → Action σ χ ε β} (hx : Confined A E x)
    (hf : ∀ a, Confined A E (f a)) : Confined A E (x >>= f) := by
  apply Prog.All.bind hx
  intro r hr
  cases r with
  | ok a => exact hf a
  | error e =>
    refine .ret fun e' h => ?_
    cases h
    exact hr e rfl

theorem confined_tryCatch {x : Action σ χ ε α} {h : ε → Action σ χ ε α} (hx : Confined A E x)
    (hh : ∀ e, E e → Confined A E' (h e)) : Confined A E' (tryCatch x h) := by
  apply Prog.All.bind hx
  intro r hr
  cases r with
  | ok a => exact .ret fun _ h => nomatch h
  | error e => exact hh e (hr e rfl)

theorem confined_within {start commit rollback : Action σ χ ε Unit} {work : Action σ χ ε α}
    (hstart : Confined A E start) (hwork : Confined A E work) (hcommit : Confined A E commit)
    (hrollback : Confined A E rollback) :
    Confined A E (.within start commit rollback work) := by
  apply confined_tryCatch (E := E)
  · apply confined_bind hstart
    intro _
    apply confined_bind hwork
    intro _
    apply confined_bind hcommit
    intro _
    exact confined_pure
  · intro e he
    apply confined_bind hrollback
    intro _
    exact confined_throw he

theorem confined_ite {c : Prop} [Decidable c] {x y : Action σ χ ε α} (hx : c → Confined A E x)
    (hy : ¬c → Confined A E y) : Confined A E (if c then x else y) := by
  by_cases h : c
  · simpa only [if_pos h] using hx h
  · simpa only [if_neg h] using hy h

theorem confined_stmt {f : Stmt σ χ (Except ε β)} (hf : A _ f)
    (he : ∀ t ch s e s', f t ch s = some (.error e, s') → E e) : Confined A E (stmt f) := by
  refine .act hf fun r hr => .ret fun e h => ?_
  subst h
  obtain ⟨t, ch, s, s', hs⟩ := hr
  exact he t ch s e s' hs

end rules

/-- What every statement does to the state, a run alone does. -/
theorem Prog.All.solo {A : ∀ β, Stmt σ χ β → Prop} {R : α → Prop} {p : Prog σ χ α} {T : σ → σ → Prop}
    {t : Tid} {ch : Nat → χ} {dies : Option Nat} {i : Nat} {s s' : σ} {r : Option (α × Nat)}
    (hp : p.All A R) (hrefl : ∀ s, T s s) (htrans : ∀ s₁ s₂ s₃, T s₁ s₂ → T s₂ s₃ → T s₁ s₃)
    (hstmt : ∀ β f, A β f → ∀ ch s b s', f t ch s = some (b, s') → T s s')
    (h : p.solo t ch dies i s = some (s', r)) : T s s' := by
  induction hp generalizing i s with
  | ret _ =>
    cases h
    exact hrefl s'
  | act hf _ ih =>
    simp only [Prog.solo] at h
    split at h
    · cases h
      exact hrefl s'
    · obtain ⟨⟨b, s₁⟩, hfs, h⟩ := Option.bind_eq_some_iff.mp h
      exact htrans s s₁ s' (hstmt _ _ hf _ s b s₁ hfs) (ih b ⟨t, ch i, s, s₁, hfs⟩ h)

/-- A program whose statements all keep a logic is verified, whatever the others do. -/
theorem Prog.All.wp {κ : Type} {A : ∀ β, Stmt σ χ β → Prop} {R : α → Prop} {p : Prog σ χ α}
    {L : Logic σ χ κ} {t : Tid} {k : κ} {s : σ} (hp : p.All A R)
    (hstmt : ∀ β f, A β f → ∀ ch s b s', L.inv s → f t ch s = some (b, s') →
      L.inv s' ∧ L.guar t k s s') : Framework.wp L t k p (fun a _ => R a) s := by
  induction hp generalizing s with
  | ret ha => exact ha
  | act hf _ ih =>
    intro s₁ _ hi ch _ b s₂ hfs
    obtain ⟨hi₂, hg⟩ := hstmt _ _ hf ch s₁ b s₂ hi hfs
    exact ⟨hi₂, hg, ih b ⟨t, ch, s₁, s₂, hfs⟩⟩

/-- And so is what is known at every statement, if all of them keep it. -/
theorem Prog.All.wp_keeps {κ : Type} {A : ∀ β, Stmt σ χ β → Prop} {R : α → Prop} {p : Prog σ χ α}
    {L : Logic σ χ κ} {t : Tid} {k : κ} {P : σ → Prop} {s : σ} (hp : p.All A R)
    (hP : L.Stable t P)
    (hstmt : ∀ β f, A β f → ∀ ch s b s', L.inv s → P s → f t ch s = some (b, s') →
      L.inv s' ∧ L.guar t k s s' ∧ P s') (hs : P s) :
    Framework.wp L t k p (fun a s => R a ∧ P s) s := by
  induction hp generalizing s with
  | ret ha => exact ⟨ha, hs⟩
  | act hf _ ih =>
    intro s₁ hr hi ch _ b s₂ hfs
    obtain ⟨hi₂, hg, hs₂⟩ := hstmt _ _ hf ch s₁ b s₂ hi (hP.star hr hs) hfs
    exact ⟨hi₂, hg, ih b ⟨t, ch, s₁, s₂, hfs⟩ hs₂⟩

/-- The same for an action. -/
theorem Confined.hoare {κ : Type} {A : ∀ β, Stmt σ χ β → Prop} {E : ε → Prop} {x : Action σ χ ε α}
    {L : Logic σ χ κ} {t : Tid} {k : κ} {P : σ → Prop} (hx : Confined A E x) (hP : L.Stable t P)
    (hstmt : ∀ β f, A β f → ∀ ch s b s', L.inv s → P s → f t ch s = some (b, s') →
      L.inv s' ∧ L.guar t k s s' ∧ P s') :
    Hoare L t k P x (fun _ => P) (fun e s => E e ∧ P s) := by
  intro s hs
  apply wp_mono _ (Prog.All.wp_keeps hx hP hstmt hs)
  intro r s hr
  cases r with
  | ok a => exact hr.2
  | error e => exact ⟨hr.1 e rfl, hr.2⟩

/-! ### Simulation -/

/-- In related states the statement does the same, and leaves them related. -/
def Stmt.Simulates (R : σ → σ → Prop) (f : Stmt σ χ β) : Prop :=
  ∀ t ch s s' b u, R s s' → f t ch s = some (b, u) → ∃ u', f t ch s' = some (b, u') ∧ R u u'

/-- So does a program made of such statements. -/
theorem Prog.All.simulates {R : σ → σ → Prop} {Z : α → Prop} {p : Prog σ χ α} {t : Tid}
    {ch : Nat → χ} {i : Nat} {s s' u : σ} {r : Option (α × Nat)}
    (hp : p.All (fun _ f => f.Simulates R) Z) (hs : R s s')
    (h : p.solo t ch none i s = some (u, r)) :
    ∃ u', p.solo t ch none i s' = some (u', r) ∧ R u u' := by
  induction hp generalizing i s s' with
  | ret _ =>
    cases h
    exact ⟨s', rfl, hs⟩
  | act hf _ ih =>
    simp only [Prog.solo, reduceCtorEq, if_false] at h ⊢
    obtain ⟨⟨b, s₁⟩, hfs, h⟩ := Option.bind_eq_some_iff.mp h
    obtain ⟨s₁', hfs', hs₁⟩ := hf t (ch i) s s' b s₁ hs hfs
    obtain ⟨u', hu', hR⟩ := ih b ⟨t, ch i, s, s₁, hfs⟩ hs₁ h
    exact ⟨u', Option.bind_eq_some_iff.mpr ⟨(b, s₁'), hfs', hu'⟩, hR⟩

end Framework

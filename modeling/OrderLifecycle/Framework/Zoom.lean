import OrderLifecycle.Framework.RelyGuarantee
import OrderLifecycle.Framework.Solo

namespace Framework

variable {σ τ χ ε α β : Type}

/-- A part of a larger state: `put t` stores what thread `t` has made of it. -/
structure Part (τ σ : Type) where
  get : τ → σ
  put : Tid → τ → σ → τ

/-- A statement on the part, as a statement on the whole. -/
def Stmt.zoom (P : Part τ σ) (f : Stmt σ χ β) : Stmt τ χ β :=
  fun t ch s => (f t ch (P.get s)).map fun r => (r.1, P.put t s r.2)

def Prog.zoom (P : Part τ σ) : Prog σ χ α → Prog τ χ α
  | .ret a => .ret a
  | .act _ f g => .act _ (f.zoom P) fun b => (g b).zoom P

/-- A call on the part, as a call on the whole. -/
def Action.zoom (P : Part τ σ) (x : Action σ χ ε α) : Action τ χ ε α := ExceptT.mk (x.run.zoom P)

variable {P : Part τ σ}

theorem Prog.zoom_bind (p : Prog σ χ α) (g : α → Prog σ χ β) :
    (p >>= g).zoom P = p.zoom P >>= fun a => (g a).zoom P := by
  induction p with
  | ret a => rfl
  | act γ f h ih => exact congrArg (Prog.act γ (f.zoom P)) (funext ih)

theorem Action.zoom_pure (a : α) :
    Action.zoom P (pure a : Action σ χ ε α) = (pure a : Action τ χ ε α) := rfl

theorem Action.zoom_throw (e : ε) :
    Action.zoom P (throw e : Action σ χ ε α) = (throw e : Action τ χ ε α) := rfl

theorem Action.zoom_stmt (f : Stmt σ χ (Except ε β)) :
    Action.zoom P (stmt f) = stmt (f.zoom P) := rfl

theorem Action.zoom_bind (x : Action σ χ ε α) (f : α → Action σ χ ε β) :
    Action.zoom P (x >>= f) = Action.zoom P x >>= fun a => Action.zoom P (f a) := by
  change Prog.zoom P (x.run >>= _) = x.run.zoom P >>= _
  rw [Prog.zoom_bind]
  congr 1
  funext r
  cases r with
  | ok a => rfl
  | error e => rfl

theorem Action.zoom_tryCatch (x : Action σ χ ε α) (h : ε → Action σ χ ε α) :
    Action.zoom P (tryCatch x h) = tryCatch (Action.zoom P x) fun e => Action.zoom P (h e) := by
  change Prog.zoom P (x.run >>= _) = x.run.zoom P >>= _
  rw [Prog.zoom_bind]
  congr 1
  funext r
  cases r with
  | ok a => rfl
  | error e => rfl

theorem Action.zoom_ite {c : Prop} [Decidable c] (x y : Action σ χ ε α) :
    Action.zoom P (if c then x else y) = if c then Action.zoom P x else Action.zoom P y := by
  by_cases h : c
  · simp only [if_pos h]
  · simp only [if_neg h]

/-! ### A part with choices of its own -/

variable {χ' : Type} {g : χ' → χ}

/-- A statement on the part, decided by part of the scheduler's choice. -/
def Stmt.embed (P : Part τ σ) (g : χ' → χ) (f : Stmt σ χ β) : Stmt τ χ' β :=
  fun t ch s => (f t (g ch) (P.get s)).map fun r => (r.1, P.put t s r.2)

def Prog.embed (P : Part τ σ) (g : χ' → χ) : Prog σ χ α → Prog τ χ' α
  | .ret a => .ret a
  | .act _ f k => .act _ (f.embed P g) fun b => (k b).embed P g

def Action.embed (P : Part τ σ) (g : χ' → χ) (x : Action σ χ ε α) : Action τ χ' ε α :=
  ExceptT.mk (x.run.embed P g)

theorem Prog.embed_bind (p : Prog σ χ α) (f : α → Prog σ χ β) :
    (p >>= f).embed P g = p.embed P g >>= fun a => (f a).embed P g := by
  induction p with
  | ret a => rfl
  | act γ h k ih => exact congrArg (Prog.act γ (h.embed P g)) (funext ih)

theorem Action.embed_bind (x : Action σ χ ε α) (f : α → Action σ χ ε β) :
    Action.embed P g (x >>= f) = Action.embed P g x >>= fun a => Action.embed P g (f a) := by
  change Prog.embed P g (x.run >>= _) = x.run.embed P g >>= _
  rw [Prog.embed_bind]
  congr 1
  funext r
  cases r with
  | ok a => rfl
  | error e => rfl

theorem Action.embed_tryCatch (x : Action σ χ ε α) (h : ε → Action σ χ ε α) :
    Action.embed P g (tryCatch x h) = tryCatch (Action.embed P g x) fun e => Action.embed P g (h e) := by
  change Prog.embed P g (x.run >>= _) = x.run.embed P g >>= _
  rw [Prog.embed_bind]
  congr 1
  funext r
  cases r with
  | ok a => rfl
  | error e => rfl

end Framework

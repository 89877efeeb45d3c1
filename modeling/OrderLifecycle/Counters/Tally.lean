import OrderLifecycle.Counters.Neutral

open Framework

namespace OrderLifecycle

/-- A terminal order that is not there afterwards. -/
def losesTerminal (before after : Option OrderEntity) : Bool :=
  match before with
  | some order => isTerminalStatus order.status && decide (after ≠ some order)
  | none => false

/-- The step ends the transaction of `t` without an order that it had made terminal. -/
def rollsBackTerminal (t : Tid) (w w' : World) : Bool :=
  (w.db.txns t).isSome && (w'.db.txns t).isNone && w.db.keys.any fun
    | .order o => losesTerminal (w.db.view t (.order o)) (w'.order o)
    | _ => false

/-- In none of its steps. -/
def Sane (t : Tid) (h : Past World) : Prop := ∀ x ∈ h, rollsBackTerminal t x.1 x.2 = false

abbrev Assertion := Past World → World → Prop

def Given (t : Tid) (P : Assertion) : Assertion := fun h w => Sane t h → P h w

/-- What holds of a thread that has rolled back no terminal order. -/
def Tallies {α : Type} (t : Tid) (k : Request) (P : Assertion) (x : Service α)
    (Q : α → Assertion) (E : AppError → Assertion) : Prop :=
  Recalls readLogic (fun _ _ _ => True) t k (Given t P) x (fun a => Given t (Q a))
    fun e => Given t (E e)

/-- Between two transactions: the counts that are ahead of the table, or behind it. -/
structure Closed (t : Tid) (d : Counter → Int) (h : Past World) (w : World) : Prop where
  idle : Idle t w
  drift : ∀ b, h.drift (imbalance b) = d b

/-- In a transaction, which will add `g` to the table. -/
structure Opened (t : Tid) (g d : Counter → Int) (h : Past World) (w : World) : Prop where
  txn : w.db.txns t ≠ none
  gain : ∀ b, gain b t w = g b
  drift : ∀ b, h.drift (imbalance b) = d b

/-- The steps of the others keep it, and so does a neutral step of `t`. -/
structure Steady (t : Tid) (P : Assertion) : Prop where
  stable : ∀ h, readLogic.Stable t (P h)
  neutral : ∀ h w w', Neutral t w w' → P h w → P (h ++ [(w, w')]) w'

variable {t : Tid} {k : Request} {h : Past World} {w w' : World} {α β : Type}
  {g d : Counter → Int} {P P' : Assertion} {Q : β → Assertion} {E : AppError → Assertion}

/-! ### Rules -/

@[simp] theorem sane_nil : Sane t [] := by
  simp [Sane]

theorem sane_append {h' : Past World} : Sane t (h ++ h') ↔ Sane t h ∧ Sane t h' := by
  simp [Sane, or_imp, forall_and]

theorem sane_one : Sane t [(w, w')] ↔ rollsBackTerminal t w w' = false := by
  simp [Sane]

theorem stable_given (hP : ∀ h, readLogic.Stable t (P h)) (h : Past World) :
    readLogic.Stable t (Given t P h) :=
  .imp fun _ => hP h

theorem tallies_stmt {f : Stmt World Choice (Except AppError β)}
    (hc : Confined CalmStmt AnyError (stmt f)) (hP : ∀ h, readLogic.Stable t (P h))
    (hf : ∀ h w ch r w', P h w → rollsBackTerminal t w w' = false → f t ch w = some (r, w') →
      match r with
      | .ok a => Q a (h ++ [(w, w')]) w'
      | .error e => E e (h ++ [(w, w')]) w') :
    Tallies t k P (stmt f) Q E := by
  apply recalls_stmt (stable_given hP)
  intro h w ch r w' _ _ hp hs
  have hcalm : Calm t w w' := calm_of_confined hc t ch w r w' hs
  refine ⟨trivial, ⟨hcalm.frame, hcalm.keys⟩, trivial, ?_⟩
  have hpost (hsane : Sane t (h ++ [(w, w')])) := by
    have hsane' := sane_append.mp hsane
    exact hf h w ch r w' (hp hsane'.1) (sane_one.mp hsane'.2) hs
  cases r with
  | ok a => exact hpost
  | error e => exact hpost

theorem wpPast_neutral {p : Prog World Choice β} {R : β → Prop} (hp : p.All NeutralStmt R)
    (hP : Steady t P) (hs : Given t P h w) :
    wpPast readLogic (fun _ _ _ => True) t k p (fun _ => Given t P) h w := by
  induction hp generalizing h w with
  | ret _ => exact hs
  | act hf _ ih =>
    intro w₁ hr _ ch _ b w₂ hs₂
    have hn : Neutral t w₁ w₂ := hf t ch w₁ b w₂ hs₂
    refine ⟨trivial, ⟨hn.frame, hn.keys⟩, trivial, ih b ⟨t, ch, w₁, w₂, hs₂⟩ ?_⟩
    intro hsane
    have hp₁ := (stable_given hP.stable h).star hr hs (sane_append.mp hsane).1
    exact hP.neutral h w₁ w₂ hn hp₁

theorem tallies_neutral {x : Service β} (hx : Confined NeutralStmt AnyError x)
    (hP : Steady t P) : Tallies t k P x (fun _ => P) fun _ => P := by
  intro h w hs
  apply wpPast_mono _ (wpPast_neutral hx hP hs)
  intro r h w hp
  cases r with
  | ok _ => exact hp
  | error _ => exact hp

theorem tallies_conseq {Q' : β → Assertion} {E' : AppError → Assertion} {x : Service β}
    (hx : Tallies t k P x Q E) (hp : ∀ h w, P' h w → P h w)
    (hq : ∀ a h w, Q a h w → Q' a h w) (he : ∀ e h w, E e h w → E' e h w) :
    Tallies t k P' x Q' E' :=
  recalls_conseq hx (fun h w hP hs => hp h w (hP hs)) (fun a h w hQ hs => hq a h w (hQ hs))
    fun e h w hE hs => he e h w (hE hs)

theorem tallies_raise {E' : AppError → Assertion} {x : Service β} (hx : Tallies t k P x Q E)
    (he : ∀ e h w, E e h w → E' e h w) : Tallies t k P x Q E' :=
  tallies_conseq hx (fun _ _ hp => hp) (fun _ _ _ hq => hq) he

theorem tallies_bind {x : Service β} {f : β → Service α} {R : α → Assertion}
    (hx : Tallies t k P x Q E) (hf : ∀ a, Tallies t k (Q a) (f a) R E) :
    Tallies t k P (x >>= f) R E :=
  recalls_bind hx hf

theorem tallies_pure {a : β} (hp : ∀ h w, P h w → Q a h w) :
    Tallies t k P (pure a : Service β) Q E :=
  recalls_pure fun h w hP hs => hp h w (hP hs)

theorem tallies_throw {e : AppError} (hp : ∀ h w, P h w → E e h w) :
    Tallies t k P (throw e : Service β) Q E :=
  recalls_throw fun h w hP hs => hp h w (hP hs)

theorem tallies_tryCatch {x : Service β} {f : AppError → Service β} {E' : AppError → Assertion}
    (hx : Tallies t k P x Q E) (hf : ∀ e, Tallies t k (E e) (f e) Q E') :
    Tallies t k P (tryCatch x f) Q E' :=
  recalls_tryCatch hx hf

theorem tallies_ite {c : Prop} [Decidable c] {x y : Service β} (hx : c → Tallies t k P x Q E)
    (hy : ¬c → Tallies t k P y Q E) : Tallies t k P (if c then x else y) Q E :=
  recalls_ite hx hy

/-! ### Assertions -/

theorem drift_snoc (b : Counter) :
    (h ++ [(w, w')]).drift (imbalance b) =
      h.drift (imbalance b) + (imbalance b w' - imbalance b w) := by
  simp

theorem drift_still {b : Counter} (hb : imbalance b w' = imbalance b w) :
    (h ++ [(w, w')]).drift (imbalance b) = h.drift (imbalance b) := by
  rw [drift_snoc, hb]
  omega

theorem steady_closed : Steady t (Closed t d) where
  stable h w w' hr hp := ⟨stable_read_idle w w' hr hp.idle, hp.drift⟩
  neutral h w w' hn hp := by
    refine ⟨hn.txn.mpr hp.idle, ?_⟩
    intro b
    rw [drift_still (hn.imbalance b), hp.drift]

theorem steady_opened : Steady t (Opened t g d) where
  stable h := by
    apply stable_read
    intro t' w w' ht hf hp
    refine ⟨?_, ?_, hp.drift⟩
    · rw [hf.txns t ht.symm]
      exact hp.txn
    · intro b
      rw [gain_frame ht hf, hp.gain]
  neutral h w w' hn hp := by
    refine ⟨fun he => hp.txn (hn.txn.mp he), ?_, ?_⟩
    · intro b
      rw [hn.gain, hp.gain]
    · intro b
      rw [drift_still (hn.imbalance b), hp.drift]

end OrderLifecycle

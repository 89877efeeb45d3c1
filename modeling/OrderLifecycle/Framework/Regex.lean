import Mathlib.Computability.Language
import Mathlib.Logic.Relation

namespace Framework

/-- Regular expressions as ECMAScript has them, less counted repetition, lazy quantifiers, back
references and look-around. A group is the expression in it: nothing here reads a capture. -/
inductive Regex
  | empty
  | char (c : Char)
  | dot
  | cls (negated : Bool) (chars : List Char)
  | start
  | finish
  | seq (a b : Regex)
  | alt (a b : Regex)
  | star (r : Regex)
  | plus (r : Regex)
  | opt (r : Regex)
  deriving DecidableEq, Repr

namespace Regex

/-- A place in the input: how many characters are before it and which ones follow. -/
@[ext] structure Cursor where
  index : Nat
  rest : List Char
  deriving DecidableEq, Repr

/-- `q` is `p` after the characters `w`. -/
def Consumes (p : Cursor) (w : List Char) (q : Cursor) : Prop :=
  p.rest = w ++ q.rest ∧ q.index = p.index + w.length

@[simp] theorem consumes_nil {p q : Cursor} : Consumes p [] q ↔ p = q := by
  simp only [Consumes, List.nil_append, List.length_nil, Nat.add_zero, Cursor.ext_iff]
  exact ⟨fun h => ⟨h.2.symm, h.1⟩, fun h => ⟨h.2, h.1.symm⟩⟩

theorem consumes_append {p q : Cursor} {v w : List Char} :
    Consumes p (v ++ w) q ↔ ∃ m, Consumes p v m ∧ Consumes m w q := by
  constructor
  · intro h
    refine ⟨⟨p.index + v.length, w ++ q.rest⟩, ⟨?_, rfl⟩, rfl, ?_⟩
    · simp [h.1]
    · have hlen := h.2
      simp at hlen ⊢
      omega
  · intro ⟨m, hv, hw⟩
    refine ⟨?_, ?_⟩
    · rw [hv.1, hw.1, List.append_assoc]
    · have hlen := hv.2
      have hlen' := hw.2
      simp
      omega

/-! ### The matcher -/

/-- A line terminator, the one thing that `.` does not match. -/
def lineTerminator (c : Char) : Bool := ['\n', '\r', '\u2028', '\u2029'].contains c

/-- One character that is accepted. -/
def one (accepts : Char → Bool) (p : Cursor) : List Cursor :=
  match p.rest with
  | [] => []
  | x :: xs => if accepts x then [⟨p.index + 1, xs⟩] else []

/-- Greedy repetition, at most `n` times; an iteration that consumes nothing is given up. -/
def repeatEnds (step : Cursor → List Cursor) : Nat → Cursor → List Cursor
  | 0, p => [p]
  | n + 1, p =>
    ((step p).filter fun q => q.rest.length < p.rest.length).flatMap (repeatEnds step n) ++ [p]

section matcher

variable (canon : Char → Char)

/-- The characters that one character of a pattern, `.` or a class accepts. -/
def acceptsChar (c x : Char) : Bool := canon x == canon c

def acceptsClass (negated : Bool) (chars : List Char) (x : Char) : Bool :=
  (chars.any fun c => canon c == canon x) != negated

/-- Where a match from `p` can end, in the order in which the backtracking matcher comes to it;
characters are compared by `canon`. -/
def ends : Regex → Cursor → List Cursor
  | empty, p => [p]
  | char c, p => one (acceptsChar canon c) p
  | dot, p => one (fun x => !lineTerminator x) p
  | cls negated chars, p => one (acceptsClass canon negated chars) p
  | start, p => if p.index = 0 then [p] else []
  | finish, p => if p.rest = [] then [p] else []
  | seq a b, p => (a.ends p).flatMap b.ends
  | alt a b, p => a.ends p ++ b.ends p
  | star r, p => repeatEnds r.ends p.rest.length p
  | plus r, p => (r.ends p).flatMap fun q => repeatEnds r.ends q.rest.length q
  | opt r, p => r.ends p ++ [p]

/-- The cursors of an input from one on. -/
def cursors : Nat → List Char → List Cursor
  | i, [] => [⟨i, []⟩]
  | i, x :: xs => ⟨i, x :: xs⟩ :: cursors (i + 1) xs

/-- `RegExp.prototype.test`: a match from some place on. -/
def test (r : Regex) (input : List Char) : Bool :=
  (cursors 0 input).any fun p => !(r.ends canon p).isEmpty

/-! ### What it matches -/

/-- A match of the expression leads from the first cursor to the second. -/
def Reach : Regex → Cursor → Cursor → Prop
  | empty => fun p q => p = q
  | char c => fun p q => ∃ x, acceptsChar canon c x = true ∧ Consumes p [x] q
  | dot => fun p q => ∃ x, lineTerminator x = false ∧ Consumes p [x] q
  | cls negated chars => fun p q => ∃ x, acceptsClass canon negated chars x = true ∧ Consumes p [x] q
  | start => fun p q => p.index = 0 ∧ p = q
  | finish => fun p q => p.rest = [] ∧ p = q
  | seq a b => fun p q => ∃ m, a.Reach p m ∧ b.Reach m q
  | alt a b => fun p q => a.Reach p q ∨ b.Reach p q
  | star r => Relation.ReflTransGen r.Reach
  | plus r => Relation.TransGen r.Reach
  | opt r => fun p q => r.Reach p q ∨ p = q

theorem mem_one {accepts : Char → Bool} {p q : Cursor} :
    q ∈ one accepts p ↔ ∃ x, accepts x = true ∧ Consumes p [x] q := by
  obtain ⟨i, rest⟩ := p
  cases rest with
  | nil => simp [one, Consumes]
  | cons x xs =>
    by_cases hx : accepts x = true
    · simp only [one, hx, if_true, List.mem_singleton, Consumes, List.cons_append, List.nil_append,
        List.length_singleton, List.cons.injEq, Cursor.ext_iff]
      constructor
      · rintro ⟨hi, hrest⟩
        exact ⟨x, hx, ⟨rfl, hrest.symm⟩, hi⟩
      · rintro ⟨y, -, ⟨-, hrest⟩, hi⟩
        exact ⟨hi, hrest.symm⟩
    · simp only [one, hx, Bool.false_eq_true, if_false, List.not_mem_nil, false_iff]
      rintro ⟨y, hy, hc⟩
      have hxy : x = y := by
        have h := hc.1
        simp at h
        exact h.1
      exact hx (hxy ▸ hy)

/-- Cursors only move forward. -/
def Onward (p q : Cursor) : Prop := ∃ w, Consumes p w q

theorem Onward.refl (p : Cursor) : Onward p p := ⟨[], consumes_nil.mpr rfl⟩

theorem Onward.trans {p m q : Cursor} (h : Onward p m) (h' : Onward m q) : Onward p q := by
  obtain ⟨v, hv⟩ := h
  obtain ⟨w, hw⟩ := h'
  exact ⟨v ++ w, consumes_append.mpr ⟨m, hv, hw⟩⟩

/-- A cursor that did not come closer to the end did not move. -/
theorem Onward.eq_of_le {p q : Cursor} (h : Onward p q) (hle : p.rest.length ≤ q.rest.length) :
    p = q := by
  obtain ⟨w, hw⟩ := h
  have hlen : w.length = 0 := by
    have h := congrArg List.length hw.1
    simp at h
    omega
  have hnil : w = [] := List.length_eq_zero_iff.mp hlen
  subst hnil
  exact consumes_nil.mp hw

theorem Reach.onward {r : Regex} {p q : Cursor} (h : r.Reach canon p q) : Onward p q := by
  induction r generalizing p q with
  | empty => exact h ▸ Onward.refl p
  | char c =>
    obtain ⟨x, -, hx⟩ := h
    exact ⟨[x], hx⟩
  | dot =>
    obtain ⟨x, -, hx⟩ := h
    exact ⟨[x], hx⟩
  | cls negated chars =>
    obtain ⟨x, -, hx⟩ := h
    exact ⟨[x], hx⟩
  | start => exact h.2 ▸ Onward.refl p
  | finish => exact h.2 ▸ Onward.refl p
  | seq a b iha ihb =>
    obtain ⟨m, ha, hb⟩ := h
    exact (iha ha).trans (ihb hb)
  | alt a b iha ihb => exact h.elim iha ihb
  | star r ih =>
    change Relation.ReflTransGen (r.Reach canon) p q at h
    induction h with
    | refl => exact Onward.refl p
    | tail _ hmq hpm => exact hpm.trans (ih hmq)
  | plus r ih =>
    change Relation.TransGen (r.Reach canon) p q at h
    induction h with
    | single hpq => exact ih hpq
    | tail _ hmq hpm => exact hpm.trans (ih hmq)
  | opt r ih => exact h.elim ih fun h => h ▸ Onward.refl p

/-- Giving up the iterations that consume nothing loses nothing. -/
theorem mem_repeatEnds {step : Cursor → List Cursor} {R : Cursor → Cursor → Prop}
    (hstep : ∀ p q, q ∈ step p ↔ R p q) (honward : ∀ p q, R p q → Onward p q) {n : Nat}
    {p q : Cursor} (hn : p.rest.length ≤ n) :
    q ∈ repeatEnds step n p ↔ Relation.ReflTransGen R p q := by
  have hstay : ∀ {p q}, Relation.ReflTransGen R p q → p.rest = [] → q = p := by
    intro p q h hp
    have hpq : Onward p q := by
      induction h with
      | refl => exact Onward.refl p
      | tail _ hmq hpm => exact hpm.trans (honward _ _ hmq)
    exact (hpq.eq_of_le (by simp [hp])).symm
  induction n generalizing p with
  | zero =>
    have hnil : p.rest = [] := List.length_eq_zero_iff.mp (by omega)
    simp only [repeatEnds, List.mem_singleton]
    exact ⟨fun h => h ▸ .refl, fun h => hstay h hnil⟩
  | succ n ih =>
    simp only [repeatEnds, List.mem_append, List.mem_flatMap, List.mem_filter, List.mem_singleton,
      decide_eq_true_eq]
    constructor
    · rintro (⟨m, ⟨hm, hlt⟩, hq⟩ | rfl)
      · exact .head ((hstep _ _).mp hm) ((ih (by omega)).mp hq)
      · exact .refl
    · intro h
      induction h using Relation.ReflTransGen.head_induction_on with
      | refl => exact .inr rfl
      | head hpm hmq hrest =>
        rename_i p m
        by_cases hlt : m.rest.length < p.rest.length
        · exact .inl ⟨m, ⟨(hstep _ _).mpr hpm, hlt⟩, (ih (by omega)).mpr hmq⟩
        · have hpm' : p = m := (honward _ _ hpm).eq_of_le (by omega)
          subst hpm'
          exact hrest hn

/-- The matcher finds the matches. -/
theorem mem_ends {r : Regex} {p q : Cursor} : q ∈ r.ends canon p ↔ r.Reach canon p q := by
  induction r generalizing p q with
  | empty => simp [ends, Reach, eq_comm]
  | char c => exact mem_one
  | dot => simp [ends, Reach, mem_one]
  | cls negated chars => exact mem_one
  | start =>
    by_cases h : p.index = 0 <;> simp [ends, Reach, h, eq_comm]
  | finish =>
    by_cases h : p.rest = [] <;> simp [ends, Reach, h, eq_comm]
  | seq a b iha ihb => simp [ends, Reach, iha, ihb]
  | alt a b iha ihb => simp [ends, Reach, iha, ihb]
  | star r ih =>
    exact mem_repeatEnds (fun _ _ => ih) (fun _ _ => Reach.onward canon) le_rfl
  | plus r ih =>
    have hrep : ∀ m, q ∈ repeatEnds (r.ends canon) m.rest.length m ↔
        Relation.ReflTransGen (r.Reach canon) m q := fun m =>
      mem_repeatEnds (fun _ _ => ih) (fun _ _ => Reach.onward canon) le_rfl
    simp only [ends, List.mem_flatMap, ih, hrep, Reach, Relation.TransGen.head'_iff]
  | opt r ih => simp [ends, Reach, ih, eq_comm]

theorem mem_cursors {p : Cursor} {i : Nat} {input : List Char} (h : p ∈ cursors i input) :
    Onward ⟨i, input⟩ p := by
  induction input generalizing i with
  | nil =>
    have hp : p = ⟨i, []⟩ := by simpa [cursors] using h
    exact hp ▸ Onward.refl p
  | cons x xs ih =>
    rcases List.mem_cons.mp h with rfl | h
    · exact Onward.refl _
    · exact Onward.trans ⟨[x], rfl, rfl⟩ (ih h)

/-! ### Languages -/

/-- The expression matches the words of the language, from every place on. -/
def Spells (r : Regex) (L : Language Char) : Prop :=
  ∀ p q, r.Reach canon p q ↔ ∃ w ∈ L, Consumes p w q

variable {canon}

theorem spells_empty : Spells canon empty 1 := by
  intro p q
  simp [Reach, Language.mem_one]

/-- The words of one character that is accepted. -/
def oneOf (accepts : Char → Bool) : Language Char := {w | ∃ x, accepts x = true ∧ w = [x]}

theorem mem_oneOf {accepts : Char → Bool} {w : List Char} :
    w ∈ oneOf accepts ↔ ∃ x, accepts x = true ∧ w = [x] :=
  Iff.rfl

theorem consumes_oneOf {accepts : Char → Bool} {p q : Cursor} :
    (∃ x, accepts x = true ∧ Consumes p [x] q) ↔ ∃ w ∈ oneOf accepts, Consumes p w q := by
  constructor
  · intro ⟨x, hx, hc⟩
    exact ⟨[x], mem_oneOf.mpr ⟨x, hx, rfl⟩, hc⟩
  · intro ⟨w, hw, hc⟩
    obtain ⟨x, hx, rfl⟩ := mem_oneOf.mp hw
    exact ⟨x, hx, hc⟩

theorem spells_char (c : Char) : Spells canon (char c) (oneOf (acceptsChar canon c)) :=
  fun _ _ => consumes_oneOf

theorem spells_cls (negated : Bool) (chars : List Char) :
    Spells canon (cls negated chars) (oneOf (acceptsClass canon negated chars)) :=
  fun _ _ => consumes_oneOf

theorem Spells.seq {a b : Regex} {L M : Language Char} (ha : Spells canon a L)
    (hb : Spells canon b M) : Spells canon (a.seq b) (L * M) := by
  intro p q
  constructor
  · rintro ⟨m, hpm, hmq⟩
    obtain ⟨v, hv, hpm⟩ := (ha _ _).mp hpm
    obtain ⟨w, hw, hmq⟩ := (hb _ _).mp hmq
    exact ⟨v ++ w, Language.append_mem_mul hv hw, consumes_append.mpr ⟨m, hpm, hmq⟩⟩
  · rintro ⟨u, hu, hpq⟩
    obtain ⟨v, hv, w, hw, rfl⟩ := Language.mem_mul.mp hu
    obtain ⟨m, hpm, hmq⟩ := consumes_append.mp hpq
    exact ⟨m, (ha _ _).mpr ⟨v, hv, hpm⟩, (hb _ _).mpr ⟨w, hw, hmq⟩⟩

theorem Spells.star {r : Regex} {L : Language Char} (h : Spells canon r L) :
    Spells canon r.star (KStar.kstar L) := by
  intro p q
  constructor
  · intro hstar
    change Relation.ReflTransGen (r.Reach canon) p q at hstar
    induction hstar with
    | refl => exact ⟨[], Language.nil_mem_kstar L, consumes_nil.mpr rfl⟩
    | tail _ hmq ih =>
      obtain ⟨v, hv, hpm⟩ := ih
      obtain ⟨w, hw, hmq⟩ := (h _ _).mp hmq
      obtain ⟨ws, rfl, hws⟩ := Language.mem_kstar.mp hv
      refine ⟨ws.flatten ++ w, Language.mem_kstar.mpr ⟨ws ++ [w], by simp, ?_⟩,
        consumes_append.mpr ⟨_, hpm, hmq⟩⟩
      simp only [List.mem_append, List.mem_singleton]
      rintro y (hy | rfl)
      · exact hws y hy
      · exact hw
  · rintro ⟨u, hu, hpq⟩
    obtain ⟨ws, rfl, hws⟩ := Language.mem_kstar.mp hu
    show Relation.ReflTransGen (r.Reach canon) p q
    induction ws generalizing p with
    | nil =>
      have hp : p = q := by simpa using hpq
      exact hp ▸ .refl
    | cons w ws ih =>
      obtain ⟨m, hpm, hmq⟩ := consumes_append.mp (List.flatten_cons ▸ hpq)
      have hin : ∀ y ∈ ws, y ∈ L := fun y hy => hws y (List.mem_cons_of_mem _ hy)
      exact .head ((h _ _).mpr ⟨w, hws w List.mem_cons_self, hpm⟩)
        (ih m hin (Language.mem_kstar.mpr ⟨ws, rfl, hin⟩) hmq)

theorem Spells.plus {r : Regex} {L : Language Char} (h : Spells canon r L) :
    Spells canon r.plus (L * KStar.kstar L) := by
  intro p q
  rw [← h.seq h.star p q]
  exact Relation.TransGen.head'_iff

/-- One expression after the other. -/
def seqs : List Regex → Regex
  | [] => empty
  | r :: rs => seq r (seqs rs)

theorem reach_seqs_append {rs ts : List Regex} {p q : Cursor} :
    (seqs (rs ++ ts)).Reach canon p q ↔
      ∃ m, (seqs rs).Reach canon p m ∧ (seqs ts).Reach canon m q := by
  induction rs generalizing p with
  | nil => simp [seqs, Reach]
  | cons r rs ih =>
    simp only [List.cons_append, seqs, Reach, ih]
    exact ⟨fun ⟨k, hr, m, hrs, hts⟩ => ⟨m, ⟨k, hr, hrs⟩, hts⟩,
      fun ⟨m, ⟨k, hr, hrs⟩, hts⟩ => ⟨k, hr, m, hrs, hts⟩⟩

theorem spells_seqs_append {rs ts : List Regex} {L M : Language Char}
    (hr : Spells canon (seqs rs) L) (ht : Spells canon (seqs ts) M) :
    Spells canon (seqs (rs ++ ts)) (L * M) := by
  intro p q
  rw [← hr.seq ht p q]
  exact reach_seqs_append

/-- The texts that `canon` does not tell from this one. -/
def alike (canon : Char → Char) (text : List Char) : Language Char :=
  {w | w.map canon = text.map canon}

theorem mem_alike {text w : List Char} : w ∈ alike canon text ↔ w.map canon = text.map canon :=
  Iff.rfl

theorem spells_literal (text : List Char) :
    Spells canon (seqs (text.map char)) (alike canon text) := by
  induction text with
  | nil =>
    intro p q
    simp [seqs, Reach, mem_alike]
  | cons c cs ih =>
    intro p q
    refine ((spells_char c).seq ih p q).trans (exists_congr fun w => and_congr_left fun _ => ?_)
    rw [Language.mem_mul, mem_alike]
    constructor
    · rintro ⟨v, hv, w, hw, rfl⟩
      obtain ⟨x, hx, rfl⟩ := mem_oneOf.mp hv
      have hxc : canon x = canon c := by simpa [acceptsChar] using hx
      simp [hxc, mem_alike.mp hw]
    · intro h
      obtain ⟨x, xs, rfl, hx, hxs⟩ := List.map_eq_cons_iff.mp h
      exact ⟨[x], mem_oneOf.mpr ⟨x, by simpa [acceptsChar] using hx, rfl⟩, xs, mem_alike.mpr hxs, rfl⟩

/-- What stands between `^` and `$` has to match the whole input. -/
theorem test_anchored {rs : List Regex} {L : Language Char} (h : Spells canon (seqs rs) L)
    (input : List Char) : (seqs (start :: (rs ++ [finish]))).test canon input = true ↔ input ∈ L := by
  have hends : ∀ p, ((seqs (start :: (rs ++ [finish]))).ends canon p).isEmpty = false ↔
      p.index = 0 ∧ p.rest ∈ L := by
    intro p
    rw [List.isEmpty_eq_false_iff_exists_mem]
    simp only [mem_ends, seqs, Reach, reach_seqs_append]
    constructor
    · rintro ⟨q, m, ⟨hi, rfl⟩, m', hr, _, ⟨hnil, rfl⟩, rfl⟩
      obtain ⟨w, hw, hc⟩ := (h _ _).mp hr
      have hrest : p.rest = w := by simp [hc.1, hnil]
      exact ⟨hi, hrest ▸ hw⟩
    · rintro ⟨hi, hin⟩
      have hall : Consumes p p.rest ⟨p.rest.length, []⟩ := by simp [Consumes, hi]
      exact ⟨_, p, ⟨hi, rfl⟩, _, (h _ _).mpr ⟨p.rest, hin, hall⟩, _, ⟨rfl, rfl⟩, rfl⟩
  simp only [test, List.any_eq_true, Bool.not_eq_true', hends]
  constructor
  · rintro ⟨p, hp, hi, hin⟩
    obtain ⟨w, hw⟩ := mem_cursors hp
    have hw0 : w = [] := by
      have hlen := hw.2
      exact List.length_eq_zero_iff.mp (by omega)
    subst hw0
    have hp : ⟨0, input⟩ = p := consumes_nil.mp hw
    subst hp
    exact hin
  · intro hin
    refine ⟨⟨0, input⟩, ?_, rfl, hin⟩
    cases input <;> simp [cursors]

end matcher

end Regex

end Framework

import OrderLifecycle.Framework.Regex

namespace Framework.Regex

/-! Reading a pattern, one character at a time. A pattern that ECMAScript refuses is refused here, and
so is one with syntax that `Regex` leaves out. -/

/-- What has been read of a class. -/
structure ClassReader where
  negated : Bool := false
  started : Bool := false
  chars : List Char := []
  /-- The last character, which may be the first of a range. -/
  last : Option Char := none
  /-- Whether a `-` follows it. -/
  dash : Bool := false
  deriving DecidableEq, Repr

/-- The characters from one to another. -/
def charRange (first last : Char) : List Char :=
  ((List.range' first.toNat (last.toNat + 1 - first.toNat)).filter fun n => decide n.isValidChar).map
    Char.ofNat

theorem mem_charRange {first last c : Char} : c ∈ charRange first last ↔ first ≤ c ∧ c ≤ last := by
  have hle : ∀ a b : Char, a ≤ b ↔ a.toNat ≤ b.toNat := fun a b => UInt32.le_iff_toNat_le
  simp only [charRange, List.mem_map, List.mem_filter, List.mem_range'_1, decide_eq_true_eq, hle]
  constructor
  · rintro ⟨n, ⟨hn, hv⟩, rfl⟩
    have hnat : (Char.ofNat n).toNat = n := by
      rw [Char.ofNat, dif_pos hv]
      rfl
    omega
  · intro h
    exact ⟨c.toNat, ⟨by omega, c.valid⟩, Char.ofNat_toNat c⟩

namespace ClassReader

def next (k : ClassReader) (c : Char) : Option ClassReader :=
  if c = '\\' then none
  else if c = '^' ∧ k.started = false then some { k with negated := true, started := true }
  else
    match k.last, k.dash with
    | some a, true =>
      if a ≤ c then
        some { k with started := true, chars := k.chars ++ charRange a c, last := none, dash := false }
      else none
    | some a, false =>
      if c = '-' then some { k with dash := true }
      else some { k with started := true, chars := k.chars ++ [a], last := some c }
    | none, _ => some { k with started := true, last := some c, dash := false }

def close (k : ClassReader) : Regex :=
  cls k.negated (k.chars ++ k.last.toList ++ if k.dash then ['-'] else [])

end ClassReader

/-- What has been read of a disjunction, the last thing first: the alternatives before this one, the
terms of this one, and whether the last term can be repeated. -/
structure Frame where
  alternatives : List Regex := []
  terms : List Regex := []
  repeatable : Bool := false
  deriving DecidableEq, Repr

namespace Frame

def push (f : Frame) (r : Regex) (repeatable : Bool) : Frame :=
  { f with terms := r :: f.terms, repeatable }

/-- A quantifier, which takes the last term. -/
def quantify (f : Frame) (op : Regex → Regex) : Option Frame :=
  match f.terms, f.repeatable with
  | r :: rs, true => some { f with terms := op r :: rs, repeatable := false }
  | _, _ => none

def alternative (f : Frame) : Regex := seqs f.terms.reverse

def close (f : Frame) : Regex := f.alternatives.foldl (fun r a => alt a r) f.alternative

end Frame

/-- Where in a term the reader is. -/
inductive Mode
  | plain
  | escape
  | cls (k : ClassReader)
  deriving DecidableEq, Repr

structure Reader where
  mode : Mode := .plain
  frame : Frame := {}
  /-- The disjunctions around the groups that are open, the innermost first. -/
  outer : List Frame := []
  deriving DecidableEq, Repr

/-- The characters that stand for themselves only behind a backslash. -/
def syntaxCharacters : List Char :=
  ['^', '$', '\\', '.', '*', '+', '?', '(', ')', '[', ']', '\x7b', '\x7d', '|']

namespace Reader

def push (s : Reader) (r : Regex) (repeatable : Bool) : Reader :=
  { s with mode := .plain, frame := s.frame.push r repeatable }

/-- A character that is not part of an escape or a class. -/
def nextPlain (s : Reader) (c : Char) : Option Reader :=
  match c with
  | '\\' => some { s with mode := .escape }
  | '[' => some { s with mode := .cls {} }
  | '(' => some { s with frame := {}, outer := s.frame :: s.outer }
  | ')' =>
    match s.outer with
    | [] => none
    | f :: fs => some { s with frame := f.push s.frame.close true, outer := fs }
  | '|' => some { s with frame := { alternatives := s.frame.alternative :: s.frame.alternatives } }
  | '^' => some (s.push start false)
  | '$' => some (s.push finish false)
  | '.' => some (s.push dot true)
  | '*' => (s.frame.quantify star).map fun f => { s with frame := f }
  | '+' => (s.frame.quantify plus).map fun f => { s with frame := f }
  | '?' => (s.frame.quantify opt).map fun f => { s with frame := f }
  | ']' | '\x7b' | '\x7d' => none
  | c => some (s.push (char c) true)

def next (s : Reader) (c : Char) : Option Reader :=
  match s.mode with
  | .plain => s.nextPlain c
  | .escape => if c ∈ syntaxCharacters then some (s.push (char c) true) else none
  | .cls k =>
    if c = ']' then some (s.push k.close true)
    else (k.next c).map fun k' => { s with mode := .cls k' }

def read (s : Reader) (pattern : List Char) : Option Reader := pattern.foldlM next s

def close (s : Reader) : Option Regex :=
  match s.mode, s.outer with
  | .plain, [] => some s.frame.close
  | _, _ => none

theorem read_append (s : Reader) (a b : List Char) :
    s.read (a ++ b) = (s.read a).bind fun s' => s'.read b := by
  simp [read, List.foldlM_append]

/-- A character that is no syntax character stands for itself. -/
theorem nextPlain_literal (s : Reader) {c : Char} (hc : c ∉ syntaxCharacters) :
    s.nextPlain c = some (s.push (char c) true) := by
  simp only [syntaxCharacters, List.mem_cons, List.not_mem_nil, or_false, not_or] at hc
  unfold nextPlain
  split <;> simp_all

end Reader

/-- `new RegExp(pattern)` -/
def parse (pattern : List Char) : Option Regex := (Reader.read {} pattern).bind Reader.close

end Framework.Regex

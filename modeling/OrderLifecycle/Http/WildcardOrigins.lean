import OrderLifecycle.Http.CorsOrigin

open Framework Framework.Regex

namespace OrderLifecycle.Http

/-! ### The text of the pattern -/

theorem mem_syntaxCharacters (c : Char) : c ∈ syntaxCharacters ↔
    c ∈ ['.', '*', '+', '?', '^', '$', '\x7b', '\x7d', '(', ')', '|', '[', ']', '\\'] :=
  List.Perm.mem_iff (by decide)

theorem escapeChar_cases (c : Char) :
    (c ∈ syntaxCharacters ∧ escapeChar c = ['\\', c]) ∨
      (c ∉ syntaxCharacters ∧ escapeChar c = [c]) := by
  by_cases hc : c ∈ syntaxCharacters
  · exact .inl ⟨hc, if_pos ((mem_syntaxCharacters c).mp hc)⟩
  · exact .inr ⟨hc, if_neg fun h => hc ((mem_syntaxCharacters c).mpr h)⟩

@[simp] theorem escapePattern_cons (c : Char) (cs : Text) :
    escapePattern (c :: cs) = escapeChar c ++ escapePattern cs := by
  simp [escapePattern]

/-- A `*` of an escaped text comes behind a backslash. -/
theorem escapePattern_head (text : Text) (rest : Text) : escapePattern text ≠ '*' :: rest := by
  cases text with
  | nil => simp [escapePattern]
  | cons c cs =>
    rcases escapeChar_cases c with ⟨-, he⟩ | ⟨hc, he⟩
    · simp [he]
    · have hstar : c ≠ '*' := fun h => hc (h ▸ by decide)
      simp [he, hstar]

/-- An escaped text begins with `\.` only if the text begins with a dot. -/
theorem escapePattern_dot {text rest : Text} (h : escapePattern text = '\\' :: '.' :: rest) :
    ∃ text', text = '.' :: text' := by
  cases text with
  | nil => simp [escapePattern] at h
  | cons c cs =>
    rcases escapeChar_cases c with ⟨-, he⟩ | ⟨hc, he⟩
    · have hdot : c = '.' := by
        simp [he] at h
        exact h.1
      exact ⟨cs, hdot ▸ rfl⟩
    · have hslash : c ≠ '\\' := fun h => hc (h ▸ by decide)
      simp [he, hslash] at h

/-- The escaped text with the first `*.` replaced. -/
def substituted : Text → Text
  | [] => []
  | '*' :: '.' :: cs => subdomainLabels ++ escapePattern cs
  | c :: cs => escapeChar c ++ substituted cs

theorem replaceFirst_skip {old new : Text} {c : Char} {cs : Text} (h : ¬ old <+: c :: cs) :
    replaceFirst old new (c :: cs) = c :: replaceFirst old new cs := by
  have hpre : old.isPrefixOf (c :: cs) = false :=
    Bool.eq_false_iff.mpr fun hp => h (List.isPrefixOf_iff_prefix.mp hp)
  simp [replaceFirst, hpre]

/-- The escaped wildcard is found at the first `*.` of the entry and nowhere else. -/
theorem replaceFirst_escapePattern (entry : Text) :
    replaceFirst escapedWildcard subdomainLabels (escapePattern entry) = substituted entry := by
  induction entry using substituted.induct with
  | case1 => rfl
  | case2 cs =>
    have hesc : escapePattern ('*' :: '.' :: cs) = escapedWildcard ++ escapePattern cs := by
      simp [escapeChar, escapedWildcard]
    rw [hesc]
    simp [escapedWildcard, replaceFirst, substituted]
  | case3 c cs hno ih =>
    have hrest : substituted (c :: cs) = escapeChar c ++ substituted cs := by
      rw [substituted]
      exact hno
    rw [hrest, ← ih, escapePattern_cons]
    rcases escapeChar_cases c with ⟨-, he⟩ | ⟨hc, he⟩
    · have hat : ¬ escapedWildcard <+: '\\' :: c :: escapePattern cs := by
        intro ⟨rest, h⟩
        simp only [escapedWildcard, List.cons_append, List.nil_append, List.cons.injEq, true_and] at h
        obtain ⟨text', ht⟩ := escapePattern_dot h.2.symm
        exact hno text' h.1.symm ht
      have hbehind : ¬ escapedWildcard <+: c :: escapePattern cs := by
        intro ⟨rest, h⟩
        simp only [escapedWildcard, List.cons_append, List.nil_append, List.cons.injEq] at h
        exact escapePattern_head cs _ h.2.symm
      rw [he]
      simp only [List.cons_append, List.nil_append, replaceFirst_skip hat, replaceFirst_skip hbehind]
    · have hat : ¬ escapedWildcard <+: c :: escapePattern cs := by
        intro ⟨rest, h⟩
        simp only [escapedWildcard, List.cons_append, List.cons.injEq] at h
        exact hc (h.1 ▸ by decide)
      rw [he]
      simp only [List.cons_append, List.nil_append, replaceFirst_skip hat]

/-! ### Reading the pattern -/

/-- From between two terms, the reader takes the text for these terms. -/
def Reads (text : Text) (rs : List Regex) : Prop :=
  ∀ frame outer, ∃ rep, Reader.read ⟨.plain, frame, outer⟩ text =
    some ⟨.plain, { frame with terms := rs.reverse ++ frame.terms, repeatable := rep }, outer⟩

theorem Reads.append {a b : Text} {rs ts : List Regex} (ha : Reads a rs) (hb : Reads b ts) :
    Reads (a ++ b) (rs ++ ts) := by
  intro frame outer
  obtain ⟨_, ha⟩ := ha frame outer
  obtain ⟨rep, hb⟩ := hb { frame with terms := rs.reverse ++ frame.terms, repeatable := _ } outer
  refine ⟨rep, ?_⟩
  rw [Reader.read_append, ha, Option.bind_some, hb]
  simp

theorem reads_nil : Reads [] [] := fun frame _ => ⟨frame.repeatable, rfl⟩

theorem reads_escapeChar (c : Char) : Reads (escapeChar c) [char c] := by
  intro frame outer
  refine ⟨true, ?_⟩
  rcases escapeChar_cases c with ⟨hc, he⟩ | ⟨hc, he⟩
  · simp [he, Reader.read, Reader.next, Reader.nextPlain, hc, Reader.push, Frame.push]
  · simp [he, Reader.read, Reader.next, Reader.nextPlain_literal _ hc, Reader.push, Frame.push]

theorem reads_escapePattern (text : Text) : Reads (escapePattern text) (text.map char) := by
  induction text with
  | nil => exact reads_nil
  | cons c cs ih =>
    rw [escapePattern_cons]
    exact (reads_escapeChar c).append ih

/-- The characters of `[a-z0-9-]`. -/
def labelChars : List Char := charRange 'a' 'z' ++ charRange '0' '9' ++ ['-']

/-- What `subdomainLabels` is the text of. -/
def labels : Regex := plus (seqs [plus (cls false labelChars), char '.'])

theorem reads_subdomainLabels : Reads subdomainLabels [labels] := fun _ _ => ⟨false, rfl⟩

/-- The terms that an entry with a `*` becomes. -/
def entryTerms : Text → List Regex
  | [] => []
  | '*' :: '.' :: cs => labels :: cs.map char
  | c :: cs => char c :: entryTerms cs

theorem reads_substituted (entry : Text) : Reads (substituted entry) (entryTerms entry) := by
  induction entry using substituted.induct with
  | case1 => exact reads_nil
  | case2 cs => exact reads_subdomainLabels.append (reads_escapePattern cs)
  | case3 c cs hno ih =>
    have htext : substituted (c :: cs) = escapeChar c ++ substituted cs := by
      rw [substituted]
      exact hno
    have hterms : entryTerms (c :: cs) = [char c] ++ entryTerms cs := by
      rw [entryTerms]
      · rfl
      · exact hno
    rw [htext, hterms]
    exact (reads_escapeChar c).append ih

/-- No entry makes `new RegExp` throw. -/
theorem toOriginMatcher_eq (entry : Text) : toOriginMatcher entry =
    some (if '*' ∉ entry then .exact entry
      else .pattern (seqs (start :: (entryTerms entry ++ [finish])))) := by
  by_cases hstar : '*' ∈ entry
  · have hstart : Reads ['^'] [start] := fun _ _ => ⟨false, rfl⟩
    have hfinish : Reads ['$'] [finish] := fun _ _ => ⟨false, rfl⟩
    obtain ⟨rep, hread⟩ := hstart.append ((reads_substituted entry).append hfinish) {} []
    have hparse : parse ('^' :: (substituted entry ++ ['$'])) =
        some (seqs (start :: (entryTerms entry ++ [finish]))) := by
      show (Reader.read ⟨.plain, {}, []⟩ (['^'] ++ (substituted entry ++ ['$']))).bind _ = _
      rw [hread]
      simp [Reader.close, Frame.close, Frame.alternative]
    simp [toOriginMatcher, hstar, replaceFirst_escapePattern, hparse]
  · simp [toOriginMatcher, hstar]

/-! ### What the pattern matches -/

theorem toNat_toLower (c : Char) :
    c.toLower.toNat = if 65 ≤ c.toNat ∧ c.toNat ≤ 90 then c.toNat + 32 else c.toNat := by
  have hval : c.val.toNat = c.toNat := rfl
  have hupper : (c.val ≥ ('A').val ∧ c.val ≤ ('Z').val) ↔ 65 ≤ c.toNat ∧ c.toNat ≤ 90 := by
    simp [UInt32.le_iff_toNat_le]
  unfold Char.toLower
  split
  · next hu =>
    obtain ⟨h₁, h₂⟩ := hupper.mp hu
    have hsum : (c.val + (('a').val - ('A').val)).toNat = c.toNat + 32 := by
      rw [UInt32.toNat_add]
      simp [hval]
      omega
    rw [if_pos ⟨h₁, h₂⟩]
    exact hsum
  · next hu => rw [if_neg fun h => hu (hupper.mpr h)]

theorem toNat_toUpper (c : Char) :
    c.toUpper.toNat = if 97 ≤ c.toNat ∧ c.toNat ≤ 122 then c.toNat - 32 else c.toNat := by
  have hval : c.val.toNat = c.toNat := rfl
  have hlower : (('a').val ≤ c.val ∧ c.val ≤ ('z').val) ↔ 97 ≤ c.toNat ∧ c.toNat ≤ 122 := by
    simp [UInt32.le_iff_toNat_le]
  unfold Char.toUpper
  split
  · next hl =>
    obtain ⟨h₁, h₂⟩ := hlower.mp hl
    have hsum : (c.val + (('A').val - ('a').val)).toNat = c.toNat - 32 := by
      rw [UInt32.toNat_add]
      simp [hval]
      omega
    rw [if_pos ⟨h₁, h₂⟩]
    exact hsum
  · next hl => rw [if_neg fun h => hl (hlower.mpr h)]

theorem char_eq_iff {a b : Char} : a = b ↔ a.toNat = b.toNat :=
  ⟨fun h => h ▸ rfl, fun h => Char.ext (UInt32.toNat_inj.mp h)⟩

/-- Upper case tells two characters apart exactly where lower case does. -/
theorem toUpper_eq_iff {a b : Char} : a.toUpper = b.toUpper ↔ a.toLower = b.toLower := by
  simp only [char_eq_iff, toNat_toUpper, toNat_toLower]
  split_ifs <;> omega

theorem toLower_toLower (c : Char) : c.toLower.toLower = c.toLower := by
  simp only [char_eq_iff, toNat_toLower]
  split_ifs <;> omega

theorem toLower_of_nonascii {x : Char} (hx : 128 ≤ x.toNat) : x.toLower = x := by
  rw [char_eq_iff, toNat_toLower, if_neg (by omega)]

theorem toLower_ascii {c : Char} (hc : c.toNat < 128) : c.toLower.toNat < 128 := by
  rw [toNat_toLower]
  split <;> omega

theorem toUpper_ascii {c : Char} (hc : c.toNat < 128) : c.toUpper.toNat < 128 := by
  rw [toNat_toUpper]
  split <;> omega

/-- The flag `i` does not tell a character from one of ASCII that differs in case only. -/
theorem canonicalize_eq_iff (upper : Char → Char) {x c : Char} (hc : c.toNat < 128) :
    canonicalize upper x = canonicalize upper c ↔ x.toLower = c.toLower := by
  by_cases hx : x.toNat < 128
  · simp only [canonicalize, hx, hc, if_true]
    exact toUpper_eq_iff
  · have hup := toUpper_ascii hc
    have hlow := toLower_ascii hc
    have hbeyond : 128 ≤ (canonicalize upper x).toNat := by
      simp only [canonicalize, hx, if_false]
      split <;> omega
    have hcanon : canonicalize upper c = c.toUpper := if_pos hc
    rw [hcanon, toLower_of_nonascii (by omega)]
    constructor
    · intro h
      rw [h] at hbeyond
      omega
    · intro h
      rw [h] at hx
      omega

/-- A character of a label, `[a-z0-9-]` -/
def isLabelChar (c : Char) : Bool := ('a' ≤ c && c ≤ 'z') || ('0' ≤ c && c ≤ '9') || c == '-'

theorem isLabelChar_iff {c : Char} :
    isLabelChar c = true ↔ c ∈ labelChars := by
  simp [isLabelChar, labelChars, mem_charRange, or_assoc]

/-- No label character is an upper case letter or beyond ASCII. -/
theorem labelChar_lower {c : Char} (hc : isLabelChar c = true) :
    c.toNat < 128 ∧ c.toLower = c := by
  have hle : ∀ a b : Char, a ≤ b ↔ a.toNat ≤ b.toNat := fun a b => UInt32.le_iff_toNat_le
  have hdigit : ('0').toNat = 48 ∧ ('9').toNat = 57 := ⟨rfl, rfl⟩
  have hletter : ('a').toNat = 97 ∧ ('z').toNat = 122 := ⟨rfl, rfl⟩
  have hdash : ('-').toNat = 45 := rfl
  simp only [isLabelChar, Bool.or_eq_true, Bool.and_eq_true, decide_eq_true_eq, beq_iff_eq, hle,
    char_eq_iff] at hc
  rw [char_eq_iff, toNat_toLower]
  constructor
  · omega
  · rw [if_neg (by omega)]

section language

variable (upper : Char → Char)

theorem acceptsClass_label (x : Char) :
    acceptsClass (canonicalize upper) false labelChars x = true ↔ isLabelChar x.toLower = true := by
  rw [acceptsClass, Bool.bne_false, List.any_eq_true]
  constructor
  · intro ⟨c, hc, heq⟩
    obtain ⟨hascii, hlow⟩ := labelChar_lower (isLabelChar_iff.mpr hc)
    have heq' : canonicalize upper x = canonicalize upper c := (beq_iff_eq.mp heq).symm
    rw [(canonicalize_eq_iff upper hascii).mp heq', hlow]
    exact isLabelChar_iff.mpr hc
  · intro hx
    obtain ⟨hascii, -⟩ := labelChar_lower hx
    have heq : canonicalize upper x = canonicalize upper x.toLower :=
      (canonicalize_eq_iff upper hascii).mpr (toLower_toLower x).symm
    exact ⟨x.toLower, isLabelChar_iff.mp hx, beq_iff_eq.mpr heq.symm⟩

theorem toLower_eq_dot {x : Char} (h : x.toLower = '.') : x = '.' := by
  have hdot : ('.').toNat = 46 := rfl
  simp only [char_eq_iff, toNat_toLower] at h ⊢
  split_ifs at h <;> omega

theorem acceptsChar_dot (x : Char) :
    acceptsChar (canonicalize upper) '.' x = true ↔ x = '.' := by
  rw [acceptsChar, beq_iff_eq, canonicalize_eq_iff upper (by decide)]
  exact ⟨toLower_eq_dot, fun h => by rw [h]⟩

/-- One character or more that a class accepts. -/
theorem mem_oneOf_plus {accepts : Char → Bool} {w : Text} :
    w ∈ oneOf accepts * KStar.kstar (oneOf accepts) ↔ w ≠ [] ∧ ∀ x ∈ w, accepts x = true := by
  have hstar : ∀ w : Text, w ∈ KStar.kstar (oneOf accepts) ↔ ∀ x ∈ w, accepts x = true := by
    intro w
    rw [Language.mem_kstar]
    constructor
    · rintro ⟨ws, rfl, hws⟩ x hx
      obtain ⟨v, hv, hxv⟩ := List.mem_flatten.mp hx
      obtain ⟨y, hy, rfl⟩ := mem_oneOf.mp (hws v hv)
      exact List.mem_singleton.mp hxv ▸ hy
    · intro h
      refine ⟨w.map fun x => [x], (List.flatMap_singleton' w).symm, ?_⟩
      intro v hv
      obtain ⟨x, hx, rfl⟩ := List.mem_map.mp hv
      exact mem_oneOf.mpr ⟨x, h x hx, rfl⟩
  rw [Language.mem_mul]
  constructor
  · rintro ⟨v, hv, w, hw, rfl⟩
    obtain ⟨x, hx, rfl⟩ := mem_oneOf.mp hv
    refine ⟨by simp, ?_⟩
    intro y hy
    rcases List.mem_cons.mp hy with rfl | hy
    · exact hx
    · exact (hstar w).mp hw y hy
  · intro ⟨hne, hall⟩
    obtain ⟨x, xs, rfl⟩ := List.exists_cons_of_ne_nil hne
    refine ⟨[x], mem_oneOf.mpr ⟨x, hall x (by simp), rfl⟩, xs, (hstar xs).mpr ?_, rfl⟩
    exact fun y hy => hall y (List.mem_cons_of_mem _ hy)

/-- A label with the dot behind it. -/
def IsDottedLabel (w : Text) : Prop :=
  ∃ l : Text, l ≠ [] ∧ (∀ c ∈ l, isLabelChar c.toLower = true) ∧ w = l ++ ['.']

def dottedLabel : Language Char := {w | IsDottedLabel w}

theorem spells_dottedLabel :
    Spells (canonicalize upper) (seqs [plus (cls false labelChars), char '.']) dottedLabel := by
  intro p q
  refine (((spells_cls false labelChars).plus.seq ((spells_char '.').seq spells_empty)) p q).trans
    (exists_congr fun w => and_congr_left fun _ => ?_)
  rw [mul_one, Language.mem_mul]
  constructor
  · rintro ⟨l, hl, d, hd, rfl⟩
    obtain ⟨hne, hall⟩ := mem_oneOf_plus.mp hl
    obtain ⟨x, hx, rfl⟩ := mem_oneOf.mp hd
    have hx' : x = '.' := (acceptsChar_dot upper x).mp hx
    exact ⟨l, hne, fun c hc => (acceptsClass_label upper c).mp (hall c hc), hx' ▸ rfl⟩
  · rintro ⟨l, hne, hall, rfl⟩
    refine ⟨l, mem_oneOf_plus.mpr ⟨hne, fun c hc => (acceptsClass_label upper c).mpr (hall c hc)⟩,
      ['.'], mem_oneOf.mpr ⟨'.', (acceptsChar_dot upper '.').mpr rfl, rfl⟩, rfl⟩

theorem spells_labels :
    Spells (canonicalize upper) labels (dottedLabel * KStar.kstar dottedLabel) :=
  (spells_dottedLabel upper).plus

theorem mem_dottedLabel_plus {w : Text} : w ∈ dottedLabel * KStar.kstar dottedLabel ↔
    ∃ ws : List Text, ws ≠ [] ∧ (∀ v ∈ ws, IsDottedLabel v) ∧ w = ws.flatten := by
  rw [Language.mem_mul]
  constructor
  · rintro ⟨v, hv, w, hw, rfl⟩
    obtain ⟨ws, rfl, hws⟩ := Language.mem_kstar.mp hw
    refine ⟨v :: ws, List.cons_ne_nil v ws, ?_, rfl⟩
    intro y hy
    rcases List.mem_cons.mp hy with rfl | hy
    · exact hv
    · exact hws y hy
  · rintro ⟨ws, hne, hws, rfl⟩
    obtain ⟨v, vs, rfl⟩ := List.exists_cons_of_ne_nil hne
    have hvs : vs.flatten ∈ KStar.kstar dottedLabel :=
      Language.mem_kstar.mpr ⟨vs, rfl, fun y hy => hws y (List.mem_cons_of_mem _ hy)⟩
    exact ⟨v, hws v List.mem_cons_self, vs.flatten, hvs, rfl⟩

/-- Dotted labels, up to ASCII case, are labels over `[a-z0-9-]` with a dot behind each. -/
theorem mem_labels {w : Text} : w ∈ dottedLabel * KStar.kstar dottedLabel ↔
      ∃ ls : List Text, ls ≠ [] ∧ (∀ l ∈ ls, l ≠ [] ∧ ∀ c ∈ l, isLabelChar c = true) ∧
        w.map Char.toLower = ls.flatMap (· ++ ['.']) := by
  rw [mem_dottedLabel_plus]
  constructor
  · rintro ⟨ws, hne, hws, rfl⟩
    refine ⟨ws.map fun v => v.dropLast.map Char.toLower, by simpa using hne, ?_, ?_⟩
    · intro l hl
      obtain ⟨v, hv, rfl⟩ := List.mem_map.mp hl
      obtain ⟨l, hlne, hall, rfl⟩ := hws v hv
      refine ⟨by simpa using hlne, ?_⟩
      intro c hc
      simp only [List.dropLast_concat, List.mem_map] at hc
      obtain ⟨x, hx, rfl⟩ := hc
      exact hall x hx
    · rw [List.map_flatten, List.flatMap_map, List.flatMap_def]
      refine congrArg List.flatten (List.map_congr_left fun v hv => ?_)
      obtain ⟨l, -, -, rfl⟩ := hws v hv
      simp
  · rintro ⟨ls, hne, hall, hw⟩
    induction ls generalizing w with
    | nil => exact absurd rfl hne
    | cons l ls ih =>
      obtain ⟨hlne, hlall⟩ := hall l List.mem_cons_self
      rw [List.flatMap_cons] at hw
      obtain ⟨v, u, rfl, hv, hu⟩ := List.map_eq_append_iff.mp hw
      obtain ⟨l', d, rfl, hl', hd⟩ := List.map_eq_append_iff.mp hv
      have hd' : d = ['.'] := by
        obtain ⟨x, rfl, hx⟩ := List.map_eq_singleton_iff.mp hd
        rw [toLower_eq_dot hx]
      have hlabel : IsDottedLabel (l' ++ d) := by
        refine ⟨l', ?_, ?_, by rw [hd']⟩
        · intro h
          simp [h] at hl'
          exact hlne hl'
        · intro c hc
          exact hlall _ (hl' ▸ List.mem_map_of_mem hc)
      by_cases hls : ls = []
      · subst hls
        have hu' : u = [] := by simpa using hu
        exact ⟨[l' ++ d], by simp, by simpa using hlabel, by simp [hu']⟩
      · obtain ⟨ws, -, hws, rfl⟩ := ih hls (fun y hy => hall y (List.mem_cons_of_mem _ hy)) hu
        refine ⟨(l' ++ d) :: ws, by simp, ?_, rfl⟩
        intro y hy
        rcases List.mem_cons.mp hy with rfl | hy
        · exact hlabel
        · exact hws y hy

/-- For an ASCII text, what the flag `i` does not tell from it differs from it in ASCII case only. -/
theorem mem_alike_ascii {text w : Text} (htext : ∀ c ∈ text, c.toNat < 128) :
    w ∈ alike (canonicalize upper) text ↔ w.map Char.toLower = text.map Char.toLower := by
  rw [mem_alike]
  induction text generalizing w with
  | nil => simp
  | cons c cs ih =>
    cases w with
    | nil => simp
    | cons x xs =>
      have hcs : ∀ c ∈ cs, c.toNat < 128 := fun d hd => htext d (List.mem_cons_of_mem _ hd)
      simp only [List.map_cons, List.cons.injEq, ih hcs,
        canonicalize_eq_iff upper (htext c List.mem_cons_self)]

end language

/-- `origin` is, up to ASCII case, `p`, labels with a dot behind each, and `s`. -/
def IsSubdomain (p s origin : Text) : Prop :=
  ∃ ls : List Text, ls ≠ [] ∧ (∀ l ∈ ls, l ≠ [] ∧ ∀ c ∈ l, isLabelChar c = true) ∧
    origin.map Char.toLower = (p ++ ls.flatMap (· ++ ['.']) ++ s).map Char.toLower

/-- Lower case does not change labels over `[a-z0-9-]`. -/
theorem labels_toLower {ls : List Text} (h : ∀ l ∈ ls, ∀ c ∈ l, isLabelChar c = true) :
    (ls.flatMap (· ++ ['.'])).map Char.toLower = ls.flatMap (· ++ ['.']) := by
  induction ls with
  | nil => rfl
  | cons l ls ih =>
    have hl : l.map Char.toLower = l := by
      have hid : l.map Char.toLower = l.map id :=
        List.map_congr_left fun c hc => (labelChar_lower (h l List.mem_cons_self c hc)).2
      rwa [List.map_id] at hid
    have hls := ih fun y hy => h y (List.mem_cons_of_mem _ hy)
    have hdot : ('.').toLower = '.' := by decide
    simp [hl, hls, hdot]

theorem entryTerms_wildcard {p s : Text} (hp : '*' ∉ p) :
    entryTerms (p ++ '*' :: '.' :: s) = p.map char ++ ([labels] ++ s.map char) := by
  induction p with
  | nil => rfl
  | cons c cs ih =>
    have hc : c ≠ '*' := fun h => hp (h ▸ List.mem_cons_self)
    have hcs : '*' ∉ cs := fun h => hp (List.mem_cons_of_mem _ h)
    rw [List.cons_append, entryTerms, ih hcs]
    · rfl
    · intro _ h
      exact absurd h hc

theorem spells_wildcard (upper : Char → Char) {p s : Text} (hp : '*' ∉ p) :
    Spells (canonicalize upper) (seqs (entryTerms (p ++ '*' :: '.' :: s)))
      (alike (canonicalize upper) p * (dottedLabel * KStar.kstar dottedLabel *
        alike (canonicalize upper) s)) := by
  rw [entryTerms_wildcard hp]
  have hlabels : Spells (canonicalize upper) (seqs [labels]) (dottedLabel * KStar.kstar dottedLabel) := by
    have h := (spells_labels upper).seq spells_empty
    rwa [mul_one] at h
  exact spells_seqs_append (spells_literal p) (spells_seqs_append hlabels (spells_literal s))

/-- What the pattern of `p*.s` matches is what is, up to ASCII case, below the domain. -/
theorem mem_wildcard (upper : Char → Char) {p s origin : Text} (hp : ∀ c ∈ p, c.toNat < 128)
    (hs : ∀ c ∈ s, c.toNat < 128) :
    origin ∈ alike (canonicalize upper) p * (dottedLabel * KStar.kstar dottedLabel *
      alike (canonicalize upper) s) ↔ IsSubdomain p s origin := by
  rw [Language.mem_mul]
  constructor
  · rintro ⟨a, ha, bc, hbc, rfl⟩
    obtain ⟨b, hb, c, hc, rfl⟩ := Language.mem_mul.mp hbc
    obtain ⟨ls, hne, hall, hlow⟩ := mem_labels.mp hb
    have hdots := labels_toLower fun l hl => (hall l hl).2
    refine ⟨ls, hne, hall, ?_⟩
    rw [List.append_assoc, List.map_append, List.map_append, (mem_alike_ascii upper hp).mp ha, hlow,
      (mem_alike_ascii upper hs).mp hc, List.map_append, List.map_append, hdots]
  · rintro ⟨ls, hne, hall, hlow⟩
    have hdots := labels_toLower fun l hl => (hall l hl).2
    rw [List.append_assoc, List.map_append, List.map_append, hdots] at hlow
    obtain ⟨a, bc, rfl, ha, hbc⟩ := List.map_eq_append_iff.mp hlow
    obtain ⟨b, c, rfl, hb, hc⟩ := List.map_eq_append_iff.mp hbc
    exact ⟨a, (mem_alike_ascii upper hp).mpr ha, b ++ c,
      Language.append_mem_mul (mem_labels.mpr ⟨ls, hne, hall, hb⟩) ((mem_alike_ascii upper hs).mpr hc),
      rfl⟩

theorem buildCorsOrigins_eq (raw : Text) : buildCorsOrigins raw =
    some ((corsEntries raw).map fun entry => if '*' ∉ entry then .exact entry
      else .pattern (seqs (start :: (entryTerms entry ++ [finish])))) := by
  unfold buildCorsOrigins
  induction corsEntries raw with
  | nil => rfl
  | cons entry entries ih => simp [toOriginMatcher_eq entry, ih]

/-- Every entry of `CORS_ORIGIN` gets a matcher: for `p*.s` one that accepts the origins below that
domain, for an entry without a wildcard one that accepts the entry. -/
theorem wildcard_accepts_subdomains (upper : Char → Char) (raw : Text) :
    ∃ matchers, buildCorsOrigins raw = some matchers ∧
      matchers.length = (corsEntries raw).length ∧
      ∀ (i : Nat) (entry : Text) (matcher : OriginMatcher), (corsEntries raw)[i]? = some entry →
        matchers[i]? = some matcher →
        (∀ p s, entry = p ++ '*' :: '.' :: s → (∀ c ∈ p ++ s, c.toNat < 128 ∧ c ≠ '*') →
          ∀ origin, matcher.accepts upper origin = true ↔ IsSubdomain p s origin) ∧
        ('*' ∉ entry → ∀ origin, matcher.accepts upper origin = true ↔ origin = entry) := by
  refine ⟨_, buildCorsOrigins_eq raw, by simp, ?_⟩
  intro i entry matcher hentry hmatcher
  rw [List.getElem?_map, hentry, Option.map_some, Option.some.injEq] at hmatcher
  subst hmatcher
  constructor
  · intro p s he hps origin
    subst he
    have hstar : '*' ∈ p ++ '*' :: '.' :: s := by simp
    have hp : '*' ∉ p := fun h => (hps '*' (List.mem_append_left s h)).2 rfl
    have hpascii : ∀ c ∈ p, c.toNat < 128 := fun c hc => (hps c (List.mem_append_left s hc)).1
    have hsascii : ∀ c ∈ s, c.toNat < 128 := fun c hc => (hps c (List.mem_append_right p hc)).1
    rw [if_neg (not_not.mpr hstar)]
    exact (test_anchored (spells_wildcard upper hp) origin).trans (mem_wildcard upper hpascii hsascii)
  · intro hstar origin
    rw [if_pos hstar]
    exact beq_iff_eq

end OrderLifecycle.Http

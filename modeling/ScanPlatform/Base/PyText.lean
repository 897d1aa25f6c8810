import Mathlib.Algebra.Ring.Nat
import Mathlib.Data.List.TakeWhile
import ScanPlatform.Base.PyStr

/-!
# Lines and parts of a text

`str.splitlines`, `str.partition`, `str.rpartition` and `str.split` with a limit, on characters, and
what `splitlines` makes of a text that is put together from lines, for a reading `g` of a line that
does not see the spaces around it and finds nothing in an empty one. What rests on the tables of
Unicode, on floating-point numbers or on the version of the interpreter is a parameter.

* `splitlines`, `not_isLineBreak_of_mem`, **`splitlines_line`**: a line of a text is a text of one
  line;
* `partition`, `rpartition`, `partition_cases`, `rpartition_cases`, `splitMax`, `splitMax_append`:
  the parts of a text;
* `rstrip`, `rstrip_eq_iff`: a text without the run of a character at its end;
* `stripChars_append_right`, `stripChars_append_left`, `mem_stripChars_mid`: stripping a text in
  parts;
* `ReadsStripped`, **`filterMap_splitlines_newline`**: the lines before and after a newline;
* **`filterMap_splitlines_strip`**: a text that has no line break but at its ends is one line;
* `Python`: what the interpreter supplies.
-/

set_option autoImplicit false

namespace PyStr

/-! ## Lines -/

/-- Where `splitlines` ends a line; `\r\n` ends one line. -/
def isLineBreak (c : Char) : Bool :=
  c ∈ ['\n', '\r', '\x0b', '\x0c', '\x1c', '\x1d', '\x1e', '\x85', '\u2028', '\u2029']

/-- The lines of a text whose first line has begun already, in reverse. -/
def linesFrom (begun : List Char) : List Char → List (List Char)
  | [] => if begun = [] then [] else [begun.reverse]
  | '\r' :: '\n' :: cs => begun.reverse :: linesFrom [] cs
  | c :: cs =>
    if isLineBreak c then begun.reverse :: linesFrom [] cs else linesFrom (c :: begun) cs

/-- `s.splitlines()`. -/
def splitlines (s : List Char) : List (List Char) := linesFrom [] s

theorem not_isLineBreak_of_mem_linesFrom {begun s line : List Char}
    (hbegun : ∀ c ∈ begun, ¬ isLineBreak c) (h : line ∈ linesFrom begun s) :
    ∀ c ∈ line, ¬ isLineBreak c := by
  have hrev : ∀ b : List Char, (∀ c ∈ b, ¬ isLineBreak c) → ∀ c ∈ b.reverse, ¬ isLineBreak c :=
    fun b hb c hc => hb c (List.mem_reverse.mp hc)
  induction begun, s using linesFrom.induct with
  | case1 => simp [linesFrom] at h
  | case2 begun hne =>
    simp only [linesFrom, if_neg hne, List.mem_singleton] at h
    exact h ▸ hrev begun hbegun
  | case3 begun cs ih =>
    simp only [linesFrom, List.mem_cons] at h
    rcases h with rfl | h
    · exact hrev begun hbegun
    · exact ih (by simp) h
  | case4 begun c cs hcrlf hbreak ih =>
    rw [linesFrom.eq_3 _ _ _ hcrlf, if_pos hbreak, List.mem_cons] at h
    rcases h with rfl | h
    · exact hrev begun hbegun
    · exact ih (by simp) h
  | case5 begun c cs hcrlf hbreak ih =>
    rw [linesFrom.eq_3 _ _ _ hcrlf, if_neg hbreak] at h
    refine ih ?_ h
    intro d hd
    rcases List.mem_cons.mp hd with rfl | hd
    · exact hbreak
    · exact hbegun d hd

theorem not_isLineBreak_of_mem {s line : List Char} (h : line ∈ splitlines s) :
    ∀ c ∈ line, ¬ isLineBreak c := not_isLineBreak_of_mem_linesFrom (by simp) h

theorem linesFrom_of_forall {begun s : List Char} (h : ∀ c ∈ s, ¬ isLineBreak c) :
    linesFrom begun s = if begun = [] ∧ s = [] then [] else [begun.reverse ++ s] := by
  induction s generalizing begun with
  | nil =>
    by_cases hbegun : begun = []
    · simp [linesFrom, hbegun]
    · simp [linesFrom, hbegun]
  | cons c cs ih =>
    have hc : ¬ isLineBreak c := h c List.mem_cons_self
    have hcrlf : ∀ cs', c = '\r' → cs = '\n' :: cs' → False := by
      rintro cs' rfl -
      exact hc (by decide)
    rw [linesFrom.eq_3 _ _ _ hcrlf, if_neg hc, ih fun d hd => h d (List.mem_cons_of_mem _ hd)]
    simp

/-- **A line of a text** is a text of one line, unless it is empty. -/
theorem splitlines_line {s line : List Char} (h : line ∈ splitlines s) :
    splitlines line = if line = [] then [] else [line] := by
  rw [splitlines, linesFrom_of_forall (not_isLineBreak_of_mem h)]
  simp

/-! ## Parts -/

/-- `s.partition(sep)`. -/
def partition (sep : Char) (s : List Char) : List Char × List Char × List Char :=
  match s.dropWhile (· ≠ sep) with
  | [] => (s, [], [])
  | _ :: after => (s.takeWhile (· ≠ sep), [sep], after)

/-- The parts of a text make up the text. -/
theorem partition_append (sep : Char) (s : List Char) :
    (partition sep s).1 ++ (partition sep s).2.1 ++ (partition sep s).2.2 = s := by
  unfold partition
  split
  · simp
  · next c after hdrop =>
    have hc : c = sep := by
      have hne : s.dropWhile (fun c => decide (c ≠ sep)) ≠ [] := by rw [hdrop]; simp
      have hhead := List.head_dropWhile_not (fun c => decide (c ≠ sep)) hne
      simp only [hdrop, List.head_cons] at hhead
      simpa using hhead
    subst hc
    have hsplit := List.takeWhile_append_dropWhile (p := fun d => decide (d ≠ c)) (l := s)
    rw [hdrop] at hsplit
    simpa using hsplit

/-- `s.rpartition(sep)`. -/
def rpartition (sep : Char) (s : List Char) : List Char × List Char × List Char :=
  match s.reverse.dropWhile (· ≠ sep) with
  | [] => ([], [], s)
  | _ :: before => (before.reverse, [sep], (s.reverse.takeWhile (· ≠ sep)).reverse)

/-- `s.split(sep, n)`. -/
def splitMax (sep : Char) : ℕ → List Char → List (List Char)
  | 0, s => [s]
  | n + 1, s =>
    match s.dropWhile (· ≠ sep) with
    | [] => [s]
    | _ :: after => s.takeWhile (· ≠ sep) :: splitMax sep n after

theorem takeWhile_append_sep {sep : Char} {s t : List Char} (h : sep ∉ s) :
    (s ++ sep :: t).takeWhile (· ≠ sep) = s := by
  rw [List.takeWhile_append_of_pos fun c hc => by
    simpa using fun heq : c = sep => h (heq ▸ hc)]
  simp

theorem dropWhile_append_sep {sep : Char} {s t : List Char} (h : sep ∉ s) :
    (s ++ sep :: t).dropWhile (· ≠ sep) = sep :: t := by
  rw [List.dropWhile_append_of_pos fun c hc => by
    simpa using fun heq : c = sep => h (heq ▸ hc)]
  simp

/-- The first part of a text is what stands before the first separator. -/
theorem splitMax_append {sep : Char} {s : List Char} (h : sep ∉ s) (n : ℕ) (t : List Char) :
    splitMax sep (n + 1) (s ++ sep :: t) = s :: splitMax sep n t := by
  rw [splitMax, dropWhile_append_sep h, takeWhile_append_sep h]

theorem partition_of_not_mem {sep : Char} {s : List Char} (h : sep ∉ s) :
    partition sep s = (s, [], []) := by
  have hdrop : s.dropWhile (· ≠ sep) = [] :=
    List.dropWhile_eq_nil_iff.mpr fun c hc => by simpa using fun heq : c = sep => h (heq ▸ hc)
  unfold partition
  rw [hdrop]

theorem partition_append_sep {sep : Char} {s t : List Char} (h : sep ∉ s) :
    partition sep (s ++ sep :: t) = (s, [sep], t) := by
  unfold partition
  rw [dropWhile_append_sep h, takeWhile_append_sep h]

/-- A text has no separator, or it is split at the first one. -/
theorem partition_cases (sep : Char) (s : List Char) :
    sep ∉ s ∧ partition sep s = (s, [], []) ∨
      ∃ a b, s = a ++ sep :: b ∧ sep ∉ a ∧ partition sep s = (a, [sep], b) := by
  by_cases hmem : sep ∈ s
  · obtain ⟨a, b, rfl, ha⟩ := List.eq_append_cons_of_mem hmem
    exact .inr ⟨a, b, rfl, ha, partition_append_sep ha⟩
  · exact .inl ⟨hmem, partition_of_not_mem hmem⟩

theorem rpartition_of_not_mem {sep : Char} {s : List Char} (h : sep ∉ s) :
    rpartition sep s = ([], [], s) := by
  have hdrop : s.reverse.dropWhile (· ≠ sep) = [] :=
    List.dropWhile_eq_nil_iff.mpr fun c hc => by
      simpa using fun heq : c = sep => h (heq ▸ List.mem_reverse.mp hc)
  unfold rpartition
  rw [hdrop]

theorem rpartition_append_sep {sep : Char} {s t : List Char} (h : sep ∉ t) :
    rpartition sep (s ++ sep :: t) = (s, [sep], t) := by
  have hrev : (s ++ sep :: t).reverse = t.reverse ++ sep :: s.reverse := by simp
  have ht : sep ∉ t.reverse := by simpa using h
  unfold rpartition
  rw [hrev, dropWhile_append_sep ht, takeWhile_append_sep ht]
  simp

/-- A text has no separator, or it is split at the last one. -/
theorem rpartition_cases (sep : Char) (s : List Char) :
    sep ∉ s ∧ rpartition sep s = ([], [], s) ∨
      ∃ a b, s = a ++ sep :: b ∧ sep ∉ b ∧ rpartition sep s = (a, [sep], b) := by
  by_cases hmem : sep ∈ s
  · obtain ⟨a, b, hrev, ha⟩ := List.eq_append_cons_of_mem (List.mem_reverse.mpr hmem)
    have hs : s = b.reverse ++ sep :: a.reverse := by
      rw [← List.reverse_reverse s, hrev]
      simp
    have hb : sep ∉ a.reverse := by simpa using ha
    refine .inr ⟨b.reverse, a.reverse, hs, hb, ?_⟩
    rw [hs, rpartition_append_sep hb]
  · exact .inl ⟨hmem, rpartition_of_not_mem hmem⟩

/-- `s.rstrip(c)`, of a character. -/
def rstrip (c : Char) (s : List Char) : List Char := s.rdropWhile (· = c)

theorem rstrip_of_getLast?_ne {c : Char} {s : List Char} (h : s.getLast? ≠ some c) :
    rstrip c s = s := by
  refine List.rdropWhile_eq_self_iff.mpr fun hne hlast => h ?_
  rw [List.getLast?_eq_some_getLast hne, of_decide_eq_true hlast]

theorem getLast?_rstrip_ne (c : Char) (s : List Char) : (rstrip c s).getLast? ≠ some c := by
  intro hlast
  have hne : rstrip c s ≠ [] := fun hnil => by
    rw [hnil] at hlast
    cases hlast
  rw [List.getLast?_eq_some_getLast hne] at hlast
  exact List.rdropWhile_last_not _ s hne (decide_eq_true (Option.some.inj hlast))

/-- What is stripped is a run of the character. -/
theorem rstrip_eq_iff {c : Char} {s t : List Char} (ht : t.getLast? ≠ some c) :
    rstrip c s = t ↔ ∃ n, s = t ++ List.replicate n c := by
  constructor
  · rintro rfl
    have hrun : s.rtakeWhile (· = c) = List.replicate (s.rtakeWhile (· = c)).length c :=
      List.eq_replicate_of_mem fun d hd => by
        simpa using List.mem_rtakeWhile_imp hd
    refine ⟨(s.rtakeWhile (· = c)).length, ?_⟩
    rw [← hrun]
    exact List.rdropWhile_append_rtakeWhile.symm
  · rintro ⟨n, rfl⟩
    induction n with
    | zero => rw [List.replicate_zero, List.append_nil, rstrip_of_getLast?_ne ht]
    | succ n ih =>
      rw [List.replicate_succ', ← List.append_assoc]
      exact (List.rdropWhile_concat_pos _ _ c (decide_eq_true rfl)).trans ih

/-! ## Stripping a text in parts -/

section

variable {p : Char → Bool} {a b : List Char}

theorem dropWhile_append_of_not_forall (ha : ∃ c ∈ a, ¬ p c) (b : List Char) :
    (a ++ b).dropWhile p = a.dropWhile p ++ b := by
  rw [List.dropWhile_append, if_neg]
  intro hempty
  obtain ⟨c, hc, hp⟩ := ha
  exact hp (List.dropWhile_eq_nil_iff.mp (List.isEmpty_iff.mp hempty) c hc)

theorem stripChars_append_left (ha : ∀ c ∈ a, p c) (b : List Char) :
    stripChars p (a ++ b) = stripChars p b := by
  unfold stripChars
  rw [List.dropWhile_append_of_pos ha]

theorem stripChars_append_right (a : List Char) (hb : ∀ c ∈ b, p c) :
    stripChars p (a ++ b) = stripChars p a := by
  have hrev : ∀ c ∈ b.reverse, p c := fun c hc => hb c (List.mem_reverse.mp hc)
  by_cases ha : ∃ c ∈ a, ¬ p c
  · unfold stripChars
    rw [dropWhile_append_of_not_forall ha, List.reverse_append,
      List.dropWhile_append_of_pos hrev]
  · have hall : ∀ c ∈ a, p c := by simpa using ha
    have hnil : ∀ s : List Char, (∀ c ∈ s, p c) → stripChars p s = [] := by
      intro s hs
      simp [stripChars, List.dropWhile_eq_nil_iff.mpr hs]
    rw [stripChars_append_left hall, hnil b hb, hnil a hall]

/-- What stands between characters that are not stripped is not stripped. -/
theorem mem_stripChars_mid {c : Char} (ha : ∃ x ∈ a, ¬ p x) (hb : ∃ x ∈ b, ¬ p x) :
    c ∈ stripChars p (a ++ c :: b) := by
  have hrev : ∃ x ∈ b.reverse, ¬ p x := by simpa using hb
  unfold stripChars
  rw [dropWhile_append_of_not_forall ha, List.reverse_append, List.reverse_cons, List.append_assoc,
    dropWhile_append_of_not_forall hrev]
  simp

end

theorem isSpace_of_isLineBreak {c : Char} (h : isLineBreak c) : isSpace c := by
  have hmem := of_decide_eq_true h
  simp only [List.mem_cons, List.not_mem_nil, or_false] at hmem
  rcases hmem with rfl | rfl | rfl | rfl | rfl | rfl | rfl | rfl | rfl | rfl <;> decide

/-! ## Lines -/

/-- The spaces around a line do not count, and an empty line is not read. -/
structure ReadsStripped {β : Type*} (g : List Char → Option β) : Prop where
  strip : ∀ s, g (stripChars isSpace s) = g s
  nil : g [] = none

section

variable {β : Type*} {g : List Char → Option β}

theorem ReadsStripped.eq_of_strip (hg : ReadsStripped g) {s t : List Char}
    (h : stripChars isSpace s = stripChars isSpace t) : g s = g t := by
  rw [← hg.strip s, h, hg.strip t]

theorem ReadsStripped.spaces (hg : ReadsStripped g) {s : List Char} (h : ∀ c ∈ s, isSpace c) :
    g s = none := by
  have hnil : stripChars isSpace (s ++ []) = [] := by
    rw [stripChars_append_left h]
    rfl
  rw [← hg.strip s, ← List.append_nil s, hnil, hg.nil]

theorem filterMap_linesFrom_newline (hg : ReadsStripped g) (begun a b : List Char) :
    (linesFrom begun (a ++ '\n' :: b)).filterMap g =
      (linesFrom begun a).filterMap g ++ (splitlines b).filterMap g := by
  induction begun, a using linesFrom.induct with
  | case1 =>
    have hline : linesFrom [] ('\n' :: b) = [] :: linesFrom [] b := by simp [linesFrom, isLineBreak]
    rw [List.nil_append, hline, List.filterMap_cons_none hg.nil]
    rfl
  | case2 begun hne =>
    have hline : linesFrom begun ('\n' :: b) = begun.reverse :: linesFrom [] b := by
      simp [linesFrom, isLineBreak]
    rw [List.nil_append, hline, linesFrom, if_neg hne, ← List.singleton_append,
      List.filterMap_append]
    rfl
  | case3 begun cs ih =>
    simp only [List.cons_append, linesFrom]
    rw [← List.singleton_append, List.filterMap_append, ih, ← List.append_assoc,
      ← List.filterMap_append, List.singleton_append]
  | case4 begun c cs hcrlf hbreak ih =>
    by_cases hcr : c = '\r' ∧ cs = []
    · obtain ⟨rfl, rfl⟩ := hcr
      have hline : linesFrom begun ['\r'] = [begun.reverse] := by simp [linesFrom, isLineBreak]
      rw [List.cons_append, List.nil_append, linesFrom.eq_2, hline, ← List.singleton_append,
        List.filterMap_append]
      rfl
    · have hcrlf' : ∀ t, c = '\r' → cs ++ '\n' :: b = '\n' :: t → False := by
        intro t hc heq
        cases cs with
        | nil => exact hcr ⟨hc, rfl⟩
        | cons d cs =>
          obtain ⟨rfl, -⟩ := List.cons.inj heq
          exact hcrlf cs hc rfl
      rw [List.cons_append, linesFrom.eq_3 _ _ _ hcrlf', linesFrom.eq_3 _ _ _ hcrlf, if_pos hbreak,
        if_pos hbreak, ← List.singleton_append, List.filterMap_append, ih, ← List.append_assoc,
        ← List.filterMap_append, List.singleton_append]
  | case5 begun c cs hcrlf hbreak ih =>
    have hcr : c ≠ '\r' := by
      rintro rfl
      exact hbreak (by decide)
    have hnot : ∀ s t, c = '\r' → s = '\n' :: t → False := fun _ _ hc _ => hcr hc
    rw [List.cons_append, linesFrom.eq_3 _ _ _ (hnot _), linesFrom.eq_3 _ _ _ hcrlf, if_neg hbreak,
      if_neg hbreak, ih]

/-- **The lines before and after a newline** are read apart. -/
theorem filterMap_splitlines_newline (hg : ReadsStripped g) (a b : List Char) :
    (splitlines (a ++ '\n' :: b)).filterMap g =
      (splitlines a).filterMap g ++ (splitlines b).filterMap g :=
  filterMap_linesFrom_newline hg [] a b

/-- The first break of a text that has breaks only at its ends: what is before it, or what is after
it, is stripped. -/
theorem spaces_of_break {a b : List Char} {c : Char} (hc : isLineBreak c)
    (h : ∀ d ∈ stripChars isSpace (a ++ c :: b), ¬ isLineBreak d) :
    (∀ x ∈ a, isSpace x) ∨ ∀ x ∈ b, isSpace x := by
  by_contra hno
  obtain ⟨ha, hb⟩ := not_or.mp hno
  refine h c (mem_stripChars_mid ?_ ?_) hc
  · simpa using ha
  · simpa using hb

/-- A text with a break in it, and no breaks but at its ends: one of its two parts is read. -/
theorem ReadsStripped.part (hg : ReadsStripped g) {a b : List Char} {c : Char}
    (hc : isLineBreak c) (h : ∀ d ∈ stripChars isSpace (a ++ c :: b), ¬ isLineBreak d) :
    (g (a ++ c :: b)).toList = (g a).toList ++ (g b).toList ∧
      ∀ d ∈ stripChars isSpace b, ¬ isLineBreak d := by
  have hspace : isSpace c := isSpace_of_isLineBreak hc
  rcases spaces_of_break hc h with ha | hb
  · have hstrip : stripChars isSpace (a ++ c :: b) = stripChars isSpace b := by
      rw [stripChars_append_left ha, ← List.singleton_append,
        stripChars_append_left (by simpa using hspace)]
    refine ⟨?_, hstrip ▸ h⟩
    rw [hg.eq_of_strip hstrip, hg.spaces ha]
    rfl
  · have hall : ∀ x ∈ c :: b, isSpace x := by
      rintro x (_ | ⟨_, hx⟩)
      · exact hspace
      · exact hb x hx
    refine ⟨?_, ?_⟩
    · rw [hg.eq_of_strip (stripChars_append_right a hall), hg.spaces hb]
      simp
    · intro d hd
      have hnil := stripChars_append_left hb []
      rw [List.append_nil] at hnil
      rw [hnil] at hd
      cases hd

theorem filterMap_linesFrom_strip (hg : ReadsStripped g) {begun s : List Char}
    (h : ∀ c ∈ stripChars isSpace (begun.reverse ++ s), ¬ isLineBreak c) :
    (linesFrom begun s).filterMap g = (g (begun.reverse ++ s)).toList := by
  have hcons : ∀ (line : List Char) (ls : List (List Char)),
      (line :: ls).filterMap g = (g line).toList ++ ls.filterMap g := by
    intro line ls
    cases hline : g line <;> simp [hline]
  induction begun, s using linesFrom.induct with
  | case1 => simp [linesFrom, hg.nil]
  | case2 begun hne => rw [linesFrom, if_neg hne, hcons]; simp
  | case3 begun cs ih =>
    obtain ⟨hread, hrest⟩ := hg.part (by decide) h
    obtain ⟨hread', hrest'⟩ := hg.part (a := []) (by decide) hrest
    rw [linesFrom, hcons, ih (by simpa using hrest'), hread]
    simpa [hg.nil] using hread'.symm
  | case4 begun c cs hcrlf hbreak ih =>
    obtain ⟨hread, hrest⟩ := hg.part hbreak h
    rw [linesFrom.eq_3 _ _ _ hcrlf, if_pos hbreak, hcons, ih (by simpa using hrest), hread]
    simp
  | case5 begun c cs hcrlf hbreak ih =>
    have htext : (c :: begun).reverse ++ cs = begun.reverse ++ c :: cs := by simp
    rw [linesFrom.eq_3 _ _ _ hcrlf, if_neg hbreak, ih (htext ▸ h), htext]

/-- **A text that has no line break but at its ends** is one line. -/
theorem filterMap_splitlines_strip (hg : ReadsStripped g) {s : List Char}
    (h : ∀ c ∈ stripChars isSpace s, ¬ isLineBreak c) :
    (splitlines s).filterMap g = (g s).toList :=
  @filterMap_linesFrom_strip _ _ hg [] s h

end

end PyStr

/-! ## The interpreter -/

/-- From here on integers are rounded, to the nearest float and to even, beyond the greatest one. -/
def floatOverflow : ℕ := 2 ^ 1024 - 2 ^ 970

/-- What the interpreter supplies: the tables of Unicode behind the methods of `str`, `float()` and
its values, and the limits on what is converted and nested. -/
structure Python (F : Type) where
  /-- `s.lower()`. -/
  lower : List Char → List Char
  lower_ne_nil : ∀ s, s ≠ [] → lower s ≠ []
  /-- `s.upper()`. -/
  upper : List Char → List Char
  /-- `c.isalpha()`. -/
  isAlpha : Char → Bool
  /-- `s.isupper()`. -/
  isUpper : List Char → Bool
  /-- `c.isdigit()`, which holds of superscripts as well. -/
  isDigit : Char → Bool
  /-- The value of a decimal digit, which is what `int()` reads. -/
  decimal : Char → Option ℕ
  /-- `float()` of a numeral, or of `NaN`, `Infinity` or `-Infinity`. -/
  floatOfNumeral : List Char → F
  /-- `float(s)`; `none` is a `ValueError`. -/
  floatOfText : List Char → Option F
  /-- `float(n)`; `none` is an `OverflowError`. -/
  floatOfInt : ℤ → Option F
  floatOfInt_isSome : ∀ n, (floatOfInt n).isSome ↔ n.natAbs < floatOverflow
  /-- `bool(x)`. -/
  floatTruthy : F → Bool
  /-- What `urlsplit` checks of the text between brackets and, under NFKC, of a network location. -/
  netlocAccepted : List Char → Bool
  /-- `unquote_plus(s)`. -/
  unquotePlus : List Char → List Char
  /-- `sys.get_int_max_str_digits()`, which is 4300 unless it has been set. -/
  intMaxStrDigits : ℕ
  /-- How deep the arrays and objects of a JSON text may be nested before the recursion limit. -/
  maxNesting : ℕ

namespace Python

variable {F : Type}

/-- `int(s)` of a text of digits; `none` is a `ValueError`. -/
def intOfDigits (py : Python F) (s : List Char) : Option ℕ :=
  if s.length ≤ py.intMaxStrDigits then
    s.foldlM (fun n c => (py.decimal c).map (10 * n + ·)) 0
  else none

theorem intOfDigits_isSome (py : Python F) (s : List Char) :
    (py.intOfDigits s).isSome ↔ s.length ≤ py.intMaxStrDigits ∧ ∀ c ∈ s, (py.decimal c).isSome := by
  have hfold : ∀ n, ((s.foldlM (fun n c => (py.decimal c).map (10 * n + ·)) n).isSome ↔
      ∀ c ∈ s, (py.decimal c).isSome) := by
    induction s with
    | nil => simp
    | cons c s ih =>
      intro n
      rw [List.foldlM_cons, List.forall_mem_cons]
      cases hc : py.decimal c with
      | none => simp
      | some d =>
        have := ih (10 * n + d)
        simpa using this
  unfold intOfDigits
  split_ifs with hlen
  · simp [hlen, hfold]
  · simp [hlen]

end Python

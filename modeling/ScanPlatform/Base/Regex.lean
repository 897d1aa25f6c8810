import Mathlib.Data.List.Forall2
import Mathlib.Data.List.Infix
import ScanPlatform.Base.PyStr

/-!
# Regular expressions

Regular expressions that repeat single characters only, matched with backtracking: an expression has
a list of matches at a place of a text, in the order in which they are tried, and the first one
counts. The elements of a text have a character each, and may have more than that.

* `Re`, `Re.run`: expressions, and their matches at a place; `Re.mem_run_many` and the like;
* `Pattern`, `Pattern.first`, `Pattern.found`, `Pattern.finditer`, `Pattern.sub`: `re.match`,
  `re.search`, `re.finditer` and `re.sub`, for a pattern with at most one group;
* `Scan`, **`Pattern.scan`**: the matches of a text, and what replacing them makes of it;
* `Re.Stops`: expressions that leave none of certain characters behind.
-/

set_option autoImplicit false

namespace Regex

/-- `\w`, which outside ASCII is what the tables of Unicode say. -/
structure Words where
  word : Char → Bool
  word_ascii : ∀ c : Char, c.toNat < 128 → word c = (c.isAlphanum || c == '_')

/-- What a text is read by: the character of an element, and `\w`. -/
structure Reading (α : Type) extends Words where
  char : α → Char

/-- A text of characters. -/
def Words.chars (W : Words) : Reading Char := { W with char := id }

/-! ## Expressions -/

inductive Re where
  | eps
  /-- `\b`. -/
  | bound
  | one (p : Char → Bool)
  /-- `p?`. -/
  | opt (p : Char → Bool)
  /-- `p{least,}`. -/
  | many (p : Char → Bool) (least : ℕ)
  /-- `p*?`. -/
  | few (p : Char → Bool)
  | seq (r s : Re)
  | alt (r s : Re)

/-- A text as an expression, by a comparison of characters. -/
def Re.text (same : Char → Char → Bool) (cs : List Char) : Re :=
  cs.foldr (fun c r => .seq (.one (same c)) r) .eps

/-- The character by which one is compared under `re.IGNORECASE`: there are four letters outside
ASCII that are the same as a letter of ASCII. -/
def fold (c : Char) : Char :=
  if c = '\u017f' then 's' else if c = '\u212a' then 'k'
  else if c = '\u0130' ∨ c = '\u0131' then 'i' else c.toLower

/-- Characters that are the same under `re.IGNORECASE`. -/
def same (c d : Char) : Bool := fold c = fold d

section

variable {α : Type}

/-- The element before a place, after some more have been read. -/
def lastOr (prev : Option α) (l : List α) : Option α := l.getLast?.or prev

/-- The ways to cut a text after elements of a kind, the longest first. -/
def greedy (p : α → Bool) : List α → List (List α × List α)
  | [] => [([], [])]
  | a :: l => if p a then (greedy p l).map (fun x => (a :: x.1, x.2)) ++ [([], a :: l)]
    else [([], a :: l)]

variable (R : Reading α)

def Reading.isWord (a : Option α) : Bool := a.any fun a => R.word (R.char a)

/-- The matches of an expression before `l`, in the order in which they are tried: what is read, and
what is left. -/
def Re.run : Re → Option α → List α → List (List α × List α)
  | .eps, _, l => [([], l)]
  | .bound, prev, l => if R.isWord prev = R.isWord l.head? then [] else [([], l)]
  | .one p, _, l =>
    match l with
    | [] => []
    | a :: l => if p (R.char a) then [([a], l)] else []
  | .opt p, _, l =>
    match l with
    | [] => [([], [])]
    | a :: l => if p (R.char a) then [([a], l), ([], a :: l)] else [([], a :: l)]
  | .many p least, _, l => (greedy (fun a => p (R.char a)) l).filter (least ≤ ·.1.length)
  | .few p, _, l => (greedy (fun a => p (R.char a)) l).reverse
  | .seq r s, prev, l => (r.run prev l).flatMap fun x =>
      (s.run (lastOr prev x.1) x.2).map fun y => (x.1 ++ y.1, y.2)
  | .alt r s, prev, l => r.run prev l ++ s.run prev l

end

/-! ## Patterns -/

/-- A pattern: what stands before its group, the group, and what stands after it. -/
structure Pattern where
  start : Re
  group : Re
  trail : Re

structure Match (α : Type) where
  start : List α
  group : List α
  trail : List α
  rest : List α

section

variable {α : Type}

/-- `m.group(0)`. -/
def Match.taken (m : Match α) : List α := m.start ++ (m.group ++ m.trail)

variable (R : Reading α) (P : Pattern) (ins : Char → α) (new : List Char)

/-- The matches before `l`, in the order in which they are tried. -/
def Pattern.run (prev : Option α) (l : List α) : List (Match α) :=
  (P.start.run R prev l).flatMap fun x =>
    (P.group.run R (lastOr prev x.1) x.2).flatMap fun y =>
      (P.trail.run R (lastOr (lastOr prev x.1) y.1) y.2).map fun z => ⟨x.1, y.1, z.1, z.2⟩

/-- `re.match`. -/
def Pattern.first (prev : Option α) (l : List α) : Option (Match α) := (P.run R prev l).head?

/-- Whether `re.search` finds something, for a pattern that matches no empty text. -/
def Pattern.found (prev : Option α) : List α → Bool
  | [] => false
  | a :: l => (P.first R prev (a :: l)).isSome || Pattern.found (some a) l

/-- `re.finditer`, for a pattern that matches no empty text: of the first `skip` elements, none is
the beginning of a match. -/
def Pattern.finditer (skip : ℕ) (prev : Option α) : List α → List (Match α)
  | [] => []
  | a :: l =>
    match skip with
    | skip + 1 => Pattern.finditer skip (some a) l
    | 0 =>
      match P.first R prev (a :: l) with
      | none => Pattern.finditer 0 (some a) l
      | some m => m :: Pattern.finditer (m.taken.length - 1) (some a) l

/-- `re.sub` with the group and a text in place of a match. The first `skip` elements have been
replaced already. -/
def Pattern.sub (skip : ℕ) (prev : Option α) : List α → List α
  | [] => []
  | a :: l =>
    match skip with
    | skip + 1 => Pattern.sub skip (some a) l
    | 0 =>
      match P.first R prev (a :: l) with
      | none => a :: Pattern.sub 0 (some a) l
      | some m => m.group ++ new.map ins ++ Pattern.sub (m.taken.length - 1) (some a) l

end

/-! ## What an expression reads -/

section

variable {α : Type} {R : Reading α} {prev : Option α} {l t r : List α}

@[simp] theorem lastOr_nil (prev : Option α) : lastOr prev [] = prev := rfl

theorem lastOr_append (prev : Option α) (l l' : List α) :
    lastOr prev (l ++ l') = lastOr (lastOr prev l) l' := by
  unfold lastOr
  rw [List.getLast?_append, Option.or_assoc]

theorem lastOr_cons (prev : Option α) (a : α) (l : List α) :
    lastOr prev (a :: l) = lastOr (some a) l := lastOr_append prev [a] l

theorem lastOr_of_ne_nil {l : List α} (h : l ≠ []) (prev : Option α) :
    lastOr prev l = l.getLast? := by
  unfold lastOr
  rw [List.getLast?_eq_some_getLast h, Option.some_or]

theorem mem_greedy {p : α → Bool} :
    (t, r) ∈ greedy p l ↔ l = t ++ r ∧ ∀ a ∈ t, p a = true := by
  induction l generalizing t with
  | nil => cases t <;> cases r <;> simp [greedy]
  | cons a l ih =>
    unfold greedy
    cases t with
    | nil =>
      rw [List.nil_append, @eq_comm _ (a :: l) r]
      by_cases ha : p a = true
      · simp [ha]
      · simp [ha]
    | cons b t =>
      by_cases ha : p a = true
      · rw [if_pos ha, List.mem_append, List.mem_map]
        constructor
        · rintro (⟨x, hx, heq⟩ | hnil)
          · cases heq
            obtain ⟨rfl, hall⟩ := ih.mp hx
            exact ⟨rfl, List.forall_mem_cons.mpr ⟨ha, hall⟩⟩
          · simp at hnil
        · rintro ⟨heq, hall⟩
          cases heq
          exact .inl ⟨(t, r), ih.mpr ⟨rfl, (List.forall_mem_cons.mp hall).2⟩, rfl⟩
      · rw [if_neg ha]
        constructor
        · intro hnil
          simp at hnil
        · rintro ⟨heq, hall⟩
          cases heq
          exact absurd (List.forall_mem_cons.mp hall).1 ha

theorem mem_run_eps : (t, r) ∈ Re.eps.run R prev l ↔ t = [] ∧ r = l := by
  simp [Re.run]

theorem mem_run_bound :
    (t, r) ∈ Re.bound.run R prev l ↔ t = [] ∧ r = l ∧ R.isWord prev ≠ R.isWord l.head? := by
  unfold Re.run
  split_ifs with h <;> simp [h]

theorem mem_run_one {p : Char → Bool} :
    (t, r) ∈ (Re.one p).run R prev l ↔ ∃ a, t = [a] ∧ l = a :: r ∧ p (R.char a) = true := by
  cases l with
  | nil => simp [Re.run]
  | cons a l =>
    by_cases ha : p (R.char a) = true
    · simp only [Re.run, ha]
      grind
    · simp only [Re.run, ha]
      grind

theorem mem_run_opt {p : Char → Bool} :
    (t, r) ∈ (Re.opt p).run R prev l ↔
      t = [] ∧ r = l ∨ ∃ a, t = [a] ∧ l = a :: r ∧ p (R.char a) = true := by
  cases l with
  | nil => simp [Re.run]
  | cons a l =>
    by_cases ha : p (R.char a) = true
    · simp only [Re.run, ha]
      grind
    · simp only [Re.run, ha]
      grind

theorem mem_run_many {p : Char → Bool} {least : ℕ} :
    (t, r) ∈ (Re.many p least).run R prev l ↔
      l = t ++ r ∧ (∀ a ∈ t, p (R.char a) = true) ∧ least ≤ t.length := by
  rw [Re.run, List.mem_filter, mem_greedy, decide_eq_true_iff, and_assoc]

theorem mem_run_few {p : Char → Bool} :
    (t, r) ∈ (Re.few p).run R prev l ↔ l = t ++ r ∧ ∀ a ∈ t, p (R.char a) = true :=
  List.mem_reverse.trans mem_greedy

theorem mem_run_seq {e f : Re} :
    (t, r) ∈ (e.seq f).run R prev l ↔
      ∃ t₁ r₁ t₂, (t₁, r₁) ∈ e.run R prev l ∧ (t₂, r) ∈ f.run R (lastOr prev t₁) r₁ ∧
        t = t₁ ++ t₂ := by
  simp only [Re.run, List.mem_flatMap, List.mem_map, Prod.exists, Prod.mk.injEq]
  grind

theorem mem_run_alt {e f : Re} :
    (t, r) ∈ (e.alt f).run R prev l ↔ (t, r) ∈ e.run R prev l ∨ (t, r) ∈ f.run R prev l :=
  List.mem_append

/-- What is read and what is left are the text. -/
theorem append_of_mem_run {e : Re} (h : (t, r) ∈ e.run R prev l) : l = t ++ r := by
  induction e generalizing prev l t r with
  | eps => obtain ⟨rfl, rfl⟩ := mem_run_eps.mp h; rfl
  | bound => obtain ⟨rfl, rfl, -⟩ := mem_run_bound.mp h; rfl
  | one p => obtain ⟨a, rfl, rfl, -⟩ := mem_run_one.mp h; rfl
  | opt p =>
    rcases mem_run_opt.mp h with ⟨rfl, rfl⟩ | ⟨a, rfl, rfl, -⟩
    · rfl
    · rfl
  | many p least => exact (mem_run_many.mp h).1
  | few p => exact (mem_run_few.mp h).1
  | seq e f ihe ihf =>
    obtain ⟨t₁, r₁, t₂, h₁, h₂, rfl⟩ := mem_run_seq.mp h
    rw [ihe h₁, ihf h₂, List.append_assoc]
  | alt e f ihe ihf => exact (mem_run_alt.mp h).elim ihe ihf

end

/-! ## Characters -/

theorem isAlphanum_iff {c : Char} : c.isAlphanum = true ↔ ((65 ≤ c.toNat ∧ c.toNat ≤ 90) ∨
    (97 ≤ c.toNat ∧ c.toNat ≤ 122)) ∨ (48 ≤ c.toNat ∧ c.toNat ≤ 57) := by
  show ((decide (c.val ≥ 'A'.val ∧ c.val ≤ 'Z'.val) || (decide (c.val ≥ 'a'.val) &&
    decide (c.val ≤ 'z'.val))) || (decide (c.val ≥ '0'.val) && decide (c.val ≤ '9'.val))) = true ↔ _
  simp only [Bool.or_eq_true, Bool.and_eq_true, decide_eq_true_eq, UInt32.le_iff_toNat_le,
    ge_iff_le]
  rfl

theorem toNat_of_isAlphanum {c : Char} (h : c.isAlphanum = true) :
    48 ≤ c.toNat ∧ c.toNat ≤ 122 := by
  have hrange := isAlphanum_iff.mp h
  omega

/-- What folds to a printable character of ASCII is no space. -/
theorem isSpace_of_fold {c : Char} (h : 33 ≤ (fold c).toNat) (h' : (fold c).toNat ≤ 126) :
    PyStr.isSpace c = false := by
  unfold fold at h h'
  split_ifs at h h' with hs hk hi
  · rw [hs]
    decide
  · rw [hk]
    decide
  · rcases hi with rfl | rfl <;> decide
  · rw [← PyStr.isSpace_toLower]
    exact PyStr.isSpace_eq_false h h'


/-- But for the letters that have more than two forms, a letter is folded to by itself and its
capital. -/
theorem eq_or_of_fold {c d : Char} (h : fold c = d) (hd : d ∉ ['s', 'k', 'i']) :
    c = d ∨ c.toNat + 32 = d.toNat := by
  unfold fold at h
  split_ifs at h
  · exact absurd (h ▸ List.mem_cons_self) hd
  · exact absurd (h ▸ List.mem_cons_of_mem _ List.mem_cons_self) hd
  · exact absurd (h ▸ List.mem_cons_of_mem _ (List.mem_cons_of_mem _ List.mem_cons_self)) hd
  · have hnat := PyStr.toNat_toLower c
    rw [h] at hnat
    split_ifs at hnat
    · exact .inr hnat.symm
    · exact .inl (Char.toNat_inj.mp hnat.symm)

/-! ## Languages -/

/-- The texts that an expression reads, whatever stands around them. -/
def Re.Lang : Re → List Char → Prop
  | .eps, t => t = []
  | .bound, _ => False
  | .one p, t => ∃ c, t = [c] ∧ p c = true
  | .opt p, t => t = [] ∨ ∃ c, t = [c] ∧ p c = true
  | .many p least, t => (∀ c ∈ t, p c = true) ∧ least ≤ t.length
  | .few p, t => ∀ c ∈ t, p c = true
  | .seq r s, t => ∃ t₁ t₂, t = t₁ ++ t₂ ∧ r.Lang t₁ ∧ s.Lang t₂
  | .alt r s, t => r.Lang t ∨ s.Lang t

/-- The expression has no `\b` in it. -/
def Re.Plain : Re → Prop
  | .bound => False
  | .seq r s | .alt r s => r.Plain ∧ s.Plain
  | _ => True

/-- Every character that the expression reads is of a kind. -/
def Re.All (q : Char → Prop) : Re → Prop
  | .eps | .bound => True
  | .one p | .opt p | .many p _ | .few p => ∀ c, p c = true → q c
  | .seq r s | .alt r s => r.All q ∧ s.All q

theorem Re.All.of_lang {q : Char → Prop} {e : Re} (he : e.All q) {t : List Char} (h : e.Lang t) :
    ∀ c ∈ t, q c := by
  induction e generalizing t with
  | eps =>
    rw [show t = [] from h]
    exact fun c hc => absurd hc List.not_mem_nil
  | bound => exact h.elim
  | one p =>
    obtain ⟨d, rfl, hd⟩ := h
    exact List.forall_mem_singleton.mpr (he d hd)
  | opt p =>
    rcases h with rfl | ⟨d, rfl, hd⟩
    · exact fun c hc => absurd hc List.not_mem_nil
    · exact List.forall_mem_singleton.mpr (he d hd)
  | many p least => exact fun c hc => he c (h.1 c hc)
  | few p => exact fun c hc => he c (h c hc)
  | seq e f ihe ihf =>
    obtain ⟨t₁, t₂, rfl, h₁, h₂⟩ := h
    exact List.forall_mem_append.mpr ⟨ihe he.1 h₁, ihf he.2 h₂⟩
  | alt e f ihe ihf => exact h.elim (ihe he.1) (ihf he.2)

theorem all_text {q : Char → Prop} {eq : Char → Char → Bool} {cs : List Char}
    (h : ∀ c ∈ cs, ∀ d, eq c d = true → q d) : (Re.text eq cs).All q := by
  induction cs with
  | nil => trivial
  | cons c cs ih =>
    obtain ⟨hc, hcs⟩ := List.forall_mem_cons.mp h
    exact ⟨hc, ih hcs⟩

theorem lang_text {eq : Char → Char → Bool} {cs t : List Char} :
    (Re.text eq cs).Lang t ↔ List.Forall₂ (fun c d => eq c d = true) cs t := by
  induction cs generalizing t with
  | nil => exact List.forall₂_nil_left_iff.symm
  | cons c cs ih =>
    rw [List.forall₂_cons_left_iff]
    constructor
    · rintro ⟨t₁, t₂, rfl, ⟨d, rfl, hd⟩, hrest⟩
      exact ⟨d, t₂, hd, ih.mp hrest, rfl⟩
    · rintro ⟨d, t₂, hd, hrest, rfl⟩
      exact ⟨[d], t₂, rfl, ⟨d, rfl, hd⟩, ih.mpr hrest⟩

theorem lang_text_eq {cs t : List Char} : (Re.text (· == ·) cs).Lang t ↔ t = cs := by
  simp only [lang_text, beq_iff_eq, List.forall₂_eq_eq_eq]
  exact eq_comm

theorem lang_text_same {cs t : List Char} :
    (Re.text same cs).Lang t ↔ t.map fold = cs.map fold := by
  rw [lang_text]
  induction cs generalizing t with
  | nil => rw [List.forall₂_nil_left_iff, List.map_nil, List.map_eq_nil_iff]
  | cons c cs ih =>
    rw [List.forall₂_cons_left_iff, List.map_cons, List.map_eq_cons_iff]
    constructor
    · rintro ⟨d, t, hd, hrest, rfl⟩
      exact ⟨d, t, rfl, (of_decide_eq_true hd).symm, ih.mp hrest⟩
    · rintro ⟨d, t, rfl, hd, hrest⟩
      exact ⟨d, t, decide_eq_true hd.symm, ih.mpr hrest, rfl⟩

theorem plain_text (eq : Char → Char → Bool) (cs : List Char) : (Re.text eq cs).Plain := by
  induction cs with
  | nil => trivial
  | cons c cs ih => exact ⟨trivial, ih⟩

section

variable {α : Type} {R : Reading α} {prev : Option α} {l t r : List α}

/-- **An expression without `\b`** reads the texts of its language. -/
theorem mem_run_iff_lang {e : Re} (he : e.Plain) :
    (t, r) ∈ e.run R prev l ↔ l = t ++ r ∧ e.Lang (t.map R.char) := by
  induction e generalizing prev l t r with
  | eps =>
    rw [mem_run_eps, Re.Lang, List.map_eq_nil_iff]
    constructor
    · rintro ⟨rfl, rfl⟩
      exact ⟨rfl, rfl⟩
    · rintro ⟨rfl, rfl⟩
      exact ⟨rfl, rfl⟩
  | bound => exact he.elim
  | one p =>
    rw [mem_run_one]
    constructor
    · rintro ⟨a, rfl, rfl, ha⟩
      exact ⟨rfl, _, rfl, ha⟩
    · rintro ⟨rfl, c, ht, hc⟩
      obtain ⟨a, rfl, rfl⟩ := List.map_eq_singleton_iff.mp ht
      exact ⟨a, rfl, rfl, hc⟩
  | opt p =>
    rw [mem_run_opt, Re.Lang, List.map_eq_nil_iff]
    constructor
    · rintro (⟨rfl, rfl⟩ | ⟨a, rfl, rfl, ha⟩)
      · exact ⟨rfl, .inl rfl⟩
      · exact ⟨rfl, .inr ⟨_, rfl, ha⟩⟩
    · rintro ⟨rfl, rfl | ⟨c, ht, hc⟩⟩
      · exact .inl ⟨rfl, rfl⟩
      · obtain ⟨a, rfl, rfl⟩ := List.map_eq_singleton_iff.mp ht
        exact .inr ⟨a, rfl, rfl, hc⟩
  | many p least => rw [mem_run_many, Re.Lang, List.forall_mem_map, List.length_map]
  | few p => rw [mem_run_few, Re.Lang, List.forall_mem_map]
  | seq e f ihe ihf =>
    rw [mem_run_seq]
    constructor
    · rintro ⟨t₁, r₁, t₂, h₁, h₂, rfl⟩
      obtain ⟨rfl, he₁⟩ := (ihe he.1).mp h₁
      obtain ⟨rfl, hf₂⟩ := (ihf he.2).mp h₂
      exact ⟨(List.append_assoc _ _ _).symm, _, _, List.map_append, he₁, hf₂⟩
    · rintro ⟨rfl, u₁, u₂, ht, he₁, hf₂⟩
      obtain ⟨t₁, t₂, rfl, rfl, rfl⟩ := List.map_eq_append_iff.mp ht
      exact ⟨t₁, t₂ ++ r, t₂, (ihe he.1).mpr ⟨List.append_assoc _ _ _, he₁⟩,
        (ihf he.2).mpr ⟨rfl, hf₂⟩, rfl⟩
  | alt e f ihe ihf =>
    rw [mem_run_alt, ihe he.1, ihf he.2, Re.Lang, and_or_left]

end

/-! ## Scans -/

section

variable {α : Type} {R : Reading α} {P Q : Pattern} {ins : Char → α} {new : List Char}
  {prev : Option α} {l t : List α} {m : Match α} {ms : List (Match α)}

theorem Pattern.mem_run : m ∈ P.run R prev l ↔
    ∃ r₁ r₂, (m.start, r₁) ∈ P.start.run R prev l ∧
      (m.group, r₂) ∈ P.group.run R (lastOr prev m.start) r₁ ∧
      (m.trail, m.rest) ∈ P.trail.run R (lastOr (lastOr prev m.start) m.group) r₂ := by
  simp only [Pattern.run, List.mem_flatMap, List.mem_map, Prod.exists]
  constructor
  · rintro ⟨t₁, r₁, h₁, t₂, r₂, h₂, t₃, r₃, h₃, rfl⟩
    exact ⟨r₁, r₂, h₁, h₂, h₃⟩
  · rintro ⟨r₁, r₂, h₁, h₂, h₃⟩
    exact ⟨m.start, r₁, h₁, m.group, r₂, h₂, m.trail, m.rest, h₃, rfl⟩

theorem Pattern.mem_of_first (h : P.first R prev l = some m) : m ∈ P.run R prev l :=
  List.mem_of_mem_head? h

theorem Pattern.append_of_mem (h : m ∈ P.run R prev l) : l = m.taken ++ m.rest := by
  obtain ⟨r₁, r₂, h₁, h₂, h₃⟩ := mem_run.mp h
  rw [append_of_mem_run h₁, append_of_mem_run h₂, append_of_mem_run h₃]
  simp [Match.taken]

theorem Pattern.append_of_first (h : P.first R prev l = some m) : l = m.taken ++ m.rest :=
  append_of_mem (mem_of_first h)

variable (R P ins new) in
/-- A text read from the left: its matches, and what replacing them makes of it. -/
inductive Scan : Option α → List α → List (Match α) → List α → Prop
  | nil (prev : Option α) : Scan prev [] [] []
  | keep {prev : Option α} {a : α} {l t : List α} {ms : List (Match α)} :
    P.first R prev (a :: l) = none → Scan (some a) l ms t → Scan prev (a :: l) ms (a :: t)
  | hit {prev : Option α} {l t : List α} {m : Match α} {ms : List (Match α)} :
    P.first R prev l = some m → Scan (lastOr prev m.taken) m.rest ms t →
      Scan prev l (m :: ms) (m.group ++ new.map ins ++ t)

variable (R P) in
/-- The pattern matches no empty text, and reads nothing in front of its group. -/
structure Pattern.Reads : Prop where
  start : ∀ prev l, ∀ m ∈ P.run R prev l, m.start = []
  taken : ∀ prev l, ∀ m ∈ P.run R prev l, m.group ++ m.trail ≠ []

theorem Pattern.Reads.taken_eq (h : P.Reads R) (hm : m ∈ P.run R prev l) :
    m.taken = m.group ++ m.trail := by
  rw [Match.taken, h.start prev l m hm, List.nil_append]

theorem Pattern.Reads.taken_ne_nil (h : P.Reads R) (hm : m ∈ P.run R prev l) : m.taken ≠ [] := by
  rw [h.taken_eq hm]
  exact h.taken prev l m hm

theorem Pattern.sub_skip (x l : List α) (prev : Option α) :
    P.sub R ins new x.length prev (x ++ l) = P.sub R ins new 0 (lastOr prev x) l := by
  induction x generalizing prev with
  | nil => rfl
  | cons a x ih =>
    rw [lastOr_cons]
    exact ih (some a)

theorem Pattern.finditer_skip (x l : List α) (prev : Option α) :
    P.finditer R x.length prev (x ++ l) = P.finditer R 0 (lastOr prev x) l := by
  induction x generalizing prev with
  | nil => rfl
  | cons a x ih =>
    rw [lastOr_cons]
    exact ih (some a)

variable (ins new) in
/-- **A scan** is what `re.finditer` and `re.sub` make of a text. -/
theorem Pattern.scan (hreads : P.Reads R) (prev : Option α) (l : List α) :
    Scan R P ins new prev l (P.finditer R 0 prev l) (P.sub R ins new 0 prev l) := by
  induction hlen : l.length using Nat.strong_induction_on generalizing prev l with
  | _ n ih =>
    cases l with
    | nil => exact .nil prev
    | cons a l =>
      cases hfirst : P.first R prev (a :: l) with
      | none =>
        have hrest := ih l.length (by simp [← hlen]) (some a) l rfl
        simp only [Pattern.finditer, Pattern.sub, hfirst]
        exact .keep hfirst hrest
      | some m =>
        have hpos := hreads.taken_ne_nil (mem_of_first hfirst)
        have happend := append_of_first hfirst
        obtain ⟨b, x, htaken⟩ := List.exists_cons_of_ne_nil hpos
        rw [htaken, List.cons_append] at happend
        obtain ⟨rfl, rfl⟩ := List.cons_eq_cons.mp happend
        have hshort : m.rest.length < n := by
          rw [← hlen, List.length_cons, List.length_append]
          omega
        have hrest := ih m.rest.length hshort (lastOr prev m.taken) m.rest rfl
        simp only [Pattern.finditer, Pattern.sub, hfirst, htaken, List.length_cons,
          Nat.add_sub_cancel, finditer_skip, sub_skip]
        rw [htaken, lastOr_cons] at hrest
        exact .hit hfirst (by rw [htaken, lastOr_cons]; exact hrest)

end

/-! ## What a scan leaves -/

section

variable {α : Type} {R : Reading α} {P Q : Pattern} {ins : Char → α} {new : List Char}
  {fresh : α → Prop} {prev : Option α} {l t mid pre post : List α} {ms : List (Match α)}

variable (fresh) in
/-- The text that replaces matches begins and ends with elements that tell it from what is kept. -/
structure Marked (ins : Char → α) (new : List Char) : Prop where
  first : ∃ c new', new = c :: new' ∧ fresh (ins c)
  last : ∃ new' c, new = new' ++ [c] ∧ fresh (ins c)

/-- What is old and stands in front of the new text ends before it. -/
theorem Marked.old_prefix (h : Marked fresh ins new) {g : List α} (hold : ∀ a ∈ mid, ¬ fresh a)
    (hmid : mid <+: g ++ new.map ins ++ t) : mid <+: g := by
  obtain ⟨c, new', rfl, hc⟩ := h.first
  obtain ⟨y, hy⟩ := hmid
  rw [List.append_assoc] at hy
  rcases List.append_eq_append_iff.mp hy with ⟨x, rfl, -⟩ | ⟨x, rfl, hx⟩
  · exact List.prefix_append mid x
  · cases x with
    | nil => rw [List.append_nil]
    | cons b x =>
      obtain ⟨rfl, -⟩ := List.cons.inj hx
      exact absurd hc (hold (ins c) (by simp))

/-- What is old and begins before the end of the new text ends before the new text, or lies in
it. -/
theorem Marked.old_infix (h : Marked fresh ins new) {g x : List α} (hold : ∀ a ∈ mid, ¬ fresh a)
    (hx : x ≠ []) (hnew : g ++ new.map ins = pre ++ x) (hmid : mid ++ post = x ++ t) :
    mid <:+: g ∨ mid <:+: new.map ins := by
  obtain ⟨new', c, hlast, hc⟩ := h.last
  -- It ends before the last element of the new text.
  have hwithin : ∃ y, x = mid ++ y := by
    rcases List.append_eq_append_iff.mp hmid with ⟨y, hy, -⟩ | ⟨y, rfl, -⟩
    · exact ⟨y, hy⟩
    · have hend : (ins c) ∈ x := by
        have hmem : x.getLast hx = ins c := by
          have hback := congrArg List.getLast? hnew
          rw [hlast, List.map_append, List.map_singleton, ← List.append_assoc,
            List.getLast?_concat, List.getLast?_append,
            List.getLast?_eq_some_getLast hx, Option.some_or] at hback
          exact (Option.some.inj hback).symm
        exact hmem ▸ List.getLast_mem hx
      exact absurd hc (hold (ins c) (List.mem_append_left _ hend))
  obtain ⟨y, rfl⟩ := hwithin
  rcases List.append_eq_append_iff.mp hnew with ⟨z, rfl, hz⟩ | ⟨z, rfl, hz⟩
  · exact .inr ⟨z, y, by rw [hz, List.append_assoc]⟩
  · have hfront : mid <+: z := h.old_prefix (t := []) hold ⟨y, by rw [hz, List.append_nil]⟩
    exact .inl (hfront.isInfix.trans (List.suffix_append pre z).isInfix)

section

variable (hreads : P.Reads R) (hnew : Marked fresh ins new)

include hreads hnew

/-- What is old at the beginning of the text that a scan makes was at the beginning before. -/
theorem Scan.old_prefix (h : Scan R P ins new prev l ms t) (hold : ∀ a ∈ mid, ¬ fresh a)
    (hmid : mid <+: t) : mid <+: l := by
  induction h generalizing mid with
  | nil => exact hmid
  | keep _ _ ih =>
    cases mid with
    | nil => exact List.nil_prefix
    | cons b mid =>
      obtain ⟨rfl, hrest⟩ := List.cons_prefix_cons.mp hmid
      exact List.cons_prefix_cons.mpr ⟨rfl, ih (List.forall_mem_cons.mp hold).2 hrest⟩
  | hit hfirst _ _ =>
    rw [Pattern.append_of_first hfirst, hreads.taken_eq (Pattern.mem_of_first hfirst),
      List.append_assoc]
    exact (hnew.old_prefix hold hmid).trans (List.prefix_append _ _)

omit hreads hnew in
variable (R P ins new) in
/-- A place in a text, with `p` in front of it, and the same place in the text that a scan makes,
with `p'` in front: this is another element only right behind a match. -/
def SamePlace (p : Option α) (l : List α) (p' : Option α) : Prop :=
  p' = p ∨ ∃ q m, P.first R q (m.taken ++ l) = some m ∧ m.rest = l ∧ p = lastOr q m.taken ∧
    p' = (new.map ins).getLast?

/-- **What is old in the text that a scan makes** was there before, at a place where no match
begins, or it lies in a group or in the new text. -/
theorem Scan.old_infix (h : Scan R P ins new prev l ms t) {prev' : Option α}
    (hprev : SamePlace R P ins new prev l prev') (hold : ∀ a ∈ mid, ¬ fresh a) (hne : mid ≠ [])
    (ht : t = pre ++ (mid ++ post)) :
    (∃ pre' post', l = pre' ++ (mid ++ post') ∧
        P.first R (lastOr prev pre') (mid ++ post') = none ∧
        SamePlace R P ins new (lastOr prev pre') (mid ++ post') (lastOr prev' pre)) ∨
      (∃ m ∈ ms, mid <:+: m.group) ∨ mid <:+: new.map ins := by
  induction h generalizing prev' pre with
  | nil =>
    simp at ht
    exact absurd ht.2.1 hne
  | @keep prev a l t ms hfirst hscan ih =>
    cases pre with
    | nil =>
      obtain ⟨b, mid, rfl⟩ := List.exists_cons_of_ne_nil hne
      obtain ⟨rfl, rfl⟩ := List.cons_eq_cons.mp ht
      obtain ⟨post', rfl⟩ := hscan.old_prefix hreads hnew (List.forall_mem_cons.mp hold).2
        (List.prefix_append mid post)
      exact .inl ⟨[], post', rfl, hfirst, hprev⟩
    | cons b pre =>
      obtain ⟨rfl, rfl⟩ := List.cons_eq_cons.mp ht
      rcases ih (.inl rfl) rfl with ⟨pre', post', rfl, hnone, hplace⟩ | hrest
      · refine .inl ⟨a :: pre', post', rfl, ?_, ?_⟩
        · rwa [lastOr_cons]
        · rwa [lastOr_cons, lastOr_cons]
      · exact .inr hrest
  | @hit prev l t m ms hfirst hscan ih =>
    -- It comes after the new text, or begins before its end.
    have hcases : (∃ pre₂, pre = m.group ++ new.map ins ++ pre₂ ∧ t = pre₂ ++ (mid ++ post)) ∨
        ∃ x, x ≠ [] ∧ m.group ++ new.map ins = pre ++ x ∧ mid ++ post = x ++ t := by
      rcases List.append_eq_append_iff.mp ht with ⟨pre₂, rfl, ht₂⟩ | ⟨x, hx, hmid⟩
      · exact .inl ⟨pre₂, rfl, ht₂⟩
      · by_cases hnil : x = []
        · rw [hnil, List.append_nil] at hx
          rw [hnil, List.nil_append] at hmid
          exact .inl ⟨[], by rw [List.append_nil, hx], hmid.symm⟩
        · exact .inr ⟨x, hnil, hx, hmid⟩
    rcases hcases with ⟨pre₂, rfl, ht₂⟩ | ⟨x, hne, hx, hmid⟩
    · have hlast : lastOr prev' (m.group ++ new.map ins) = (new.map ins).getLast? := by
        obtain ⟨c, new', rfl, -⟩ := hnew.first
        rw [lastOr_append]
        exact lastOr_of_ne_nil (List.cons_ne_nil _ _) _
      have happend := Pattern.append_of_first hfirst
      rcases ih (.inr ⟨prev, m, happend ▸ hfirst, rfl, rfl, rfl⟩) ht₂ with
        ⟨pre', post', hrest, hnone, hplace⟩ | hrest
      · refine .inl ⟨m.taken ++ pre', post', ?_, ?_, ?_⟩
        · rw [happend, hrest, List.append_assoc]
        · rwa [lastOr_append]
        · rwa [lastOr_append, lastOr_append, hlast]
      · refine .inr (hrest.imp_left ?_)
        rintro ⟨m', hm', hgroup⟩
        exact ⟨m', List.mem_cons_of_mem m hm', hgroup⟩
    · rcases hnew.old_infix hold hne hx hmid with hgroup | hin
      · exact .inr (.inl ⟨m, List.mem_cons_self, hgroup⟩)
      · exact .inr (.inr hin)

end

end

/-! ## Places where a pattern is found -/

section

variable {α : Type} {R : Reading α} {P Q : Pattern} {ins : Char → α} {new : List Char}
  {fresh : α → Prop} {prev : Option α} {l t : List α} {ms : List (Match α)}
  {before : Option α → Prop} {body : List α → Prop}

theorem Pattern.found_iff : P.found R prev l = true ↔
    ∃ pre rest, l = pre ++ rest ∧ rest ≠ [] ∧ (P.first R (lastOr prev pre) rest).isSome := by
  induction l generalizing prev with
  | nil =>
    constructor
    · intro h
      exact absurd h Bool.false_ne_true
    · rintro ⟨pre, rest, heq, hne, -⟩
      exact absurd (List.append_eq_nil_iff.mp heq.symm).2 hne
  | cons a l ih =>
    unfold Pattern.found
    rw [Bool.or_eq_true, ih]
    constructor
    · rintro (h | ⟨pre, rest, rfl, hne, h⟩)
      · exact ⟨[], a :: l, rfl, List.cons_ne_nil a l, h⟩
      · exact ⟨a :: pre, rest, rfl, hne, by rwa [lastOr_cons]⟩
    · rintro ⟨pre, rest, heq, hne, h⟩
      cases pre with
      | nil =>
        rw [List.nil_append] at heq
        exact .inl (heq ▸ h)
      | cons b pre =>
        obtain ⟨rfl, rfl⟩ := List.cons_eq_cons.mp heq
        exact .inr ⟨pre, rest, rfl, hne, by rwa [lastOr_cons] at h⟩

variable (R P before body) in
/-- A pattern matches at a place when a text of its kind begins there and what stands in front lets
it. -/
structure Pattern.Shape : Prop where
  first_isSome : ∀ p l, (P.first R p l).isSome = true ↔ before p ∧ ∃ mid, mid <+: l ∧ body mid
  body_ne_nil : ∀ mid, body mid → mid ≠ []

theorem Pattern.Shape.found_iff (h : P.Shape R before body) : P.found R prev l = true ↔
    ∃ pre mid post, l = pre ++ (mid ++ post) ∧ before (lastOr prev pre) ∧ body mid := by
  rw [Pattern.found_iff]
  constructor
  · rintro ⟨pre, rest, rfl, -, hfirst⟩
    obtain ⟨hbefore, mid, ⟨post, rfl⟩, hbody⟩ := (h.first_isSome _ _).mp hfirst
    exact ⟨pre, mid, post, rfl, hbefore, hbody⟩
  · rintro ⟨pre, mid, post, rfl, hbefore, hbody⟩
    refine ⟨pre, mid ++ post, rfl, ?_, (h.first_isSome _ _).mpr
      ⟨hbefore, mid, List.prefix_append mid post, hbody⟩⟩
    exact fun hnil => h.body_ne_nil mid hbody (List.append_eq_nil_iff.mp hnil).1

/-- The texts that a pattern reads, apart from what it asks of the place. -/
def Pattern.Lang (P : Pattern) (t : List Char) : Prop := (P.group.seq P.trail).Lang t

theorem Pattern.first_isSome_iff :
    (P.first R prev l).isSome = true ↔ ∃ m, m ∈ P.run R prev l := by
  unfold Pattern.first
  rw [List.isSome_head?]
  constructor
  · exact List.exists_mem_of_ne_nil _
  · rintro ⟨m, hm⟩
    exact List.ne_nil_of_mem hm

/-- A pattern matches where its start lets it and a text of its language begins. -/
theorem Pattern.first_isSome_iff_lang (hplain : (P.group.seq P.trail).Plain)
    (hstart : ∀ p l t r, (t, r) ∈ P.start.run R p l → t = []) :
    (P.first R prev l).isSome = true ↔
      ([], l) ∈ P.start.run R prev l ∧ ∃ mid, mid <+: l ∧ P.Lang (mid.map R.char) := by
  rw [first_isSome_iff]
  constructor
  · rintro ⟨m, hm⟩
    obtain ⟨r₁, r₂, h₁, h₂, h₃⟩ := mem_run.mp hm
    have hnil := hstart _ _ _ _ h₁
    rw [hnil] at h₁ h₂ h₃
    obtain rfl : l = r₁ := append_of_mem_run h₁
    have hseq : (m.group ++ m.trail, m.rest) ∈ (P.group.seq P.trail).run R prev l :=
      mem_run_seq.mpr ⟨m.group, r₂, m.trail, h₂, h₃, rfl⟩
    obtain ⟨hl, hlang⟩ := (mem_run_iff_lang hplain).mp hseq
    exact ⟨h₁, _, ⟨m.rest, hl.symm⟩, hlang⟩
  · rintro ⟨h₁, mid, ⟨r, rfl⟩, hlang⟩
    have hseq : (mid, r) ∈ (P.group.seq P.trail).run R prev (mid ++ r) :=
      (mem_run_iff_lang hplain).mpr ⟨rfl, hlang⟩
    obtain ⟨t₁, r₁, t₂, h₂, h₃, -⟩ := mem_run_seq.mp hseq
    exact ⟨⟨[], t₁, t₂, r⟩, mem_run.mpr ⟨_, r₁, h₁, h₂, h₃⟩⟩

/-- A pattern that asks nothing of the place. -/
theorem Pattern.shape_of_eps (hstart : P.start = .eps) (hplain : (P.group.seq P.trail).Plain)
    (hne : ¬ P.Lang []) :
    P.Shape R (fun _ => True) (fun mid => P.Lang (mid.map R.char)) where
  first_isSome p l := by
    have hempty : ∀ p l t r, (t, r) ∈ P.start.run R p l → t = [] := by
      intro p l t r h
      rw [hstart] at h
      exact (mem_run_eps.mp h).1
    rw [first_isSome_iff_lang hplain hempty, hstart, mem_run_eps, eq_self, eq_self, true_and]
  body_ne_nil mid hbody hnil := hne (by rwa [hnil] at hbody)

/-- A pattern that begins with `\b` and a character of a word. -/
theorem Pattern.shape_of_bound (hstart : P.start = .bound) (hplain : (P.group.seq P.trail).Plain)
    (hword : ∀ t, P.Lang t → ∃ c t', t = c :: t' ∧ R.word c = true) :
    P.Shape R (fun p => R.isWord p = false) (fun mid => P.Lang (mid.map R.char)) where
  first_isSome p l := by
    have hempty : ∀ p l t r, (t, r) ∈ P.start.run R p l → t = [] := by
      intro p l t r h
      rw [hstart] at h
      exact (mem_run_bound.mp h).1
    rw [first_isSome_iff_lang hplain hempty, hstart, mem_run_bound]
    refine and_congr_left ?_
    rintro ⟨mid, ⟨r, rfl⟩, hlang⟩
    obtain ⟨c, t, ht, hc⟩ := hword _ hlang
    obtain ⟨a, mid, rfl, rfl, -⟩ := List.map_eq_cons_iff.mp ht
    have hhead : R.isWord (a :: mid ++ r).head? = true := hc
    rw [hhead, eq_self, eq_self, true_and, true_and, ne_eq, Bool.not_eq_true]
  body_ne_nil mid hbody hnil := by
    obtain ⟨c, t, ht, -⟩ := hword _ hbody
    rw [hnil] at ht
    exact List.cons_ne_nil _ _ ht.symm

/-- A pattern that reads nothing in front of its group, and no empty text. -/
theorem Pattern.reads_of_lang (hplain : (P.group.seq P.trail).Plain)
    (hstart : P.start = .eps ∨ P.start = .bound) (hne : ¬ P.Lang []) : P.Reads R where
  start p l m hm := by
    obtain ⟨r₁, r₂, h₁, -, -⟩ := mem_run.mp hm
    rcases hstart with hstart | hstart
    · rw [hstart] at h₁
      exact (mem_run_eps.mp h₁).1
    · rw [hstart] at h₁
      exact (mem_run_bound.mp h₁).1
  taken p l m hm hnil := by
    obtain ⟨r₁, r₂, -, h₂, h₃⟩ := mem_run.mp hm
    have hseq := mem_run_seq.mpr ⟨m.group, r₂, m.trail, h₂, h₃, rfl⟩
    rw [hnil] at hseq
    exact hne ((mem_run_iff_lang hplain).mp hseq).2

theorem Scan.exists_first (h : Scan R P ins new prev l ms t) {m : Match α} (hm : m ∈ ms) :
    ∃ q l, P.first R q l = some m := by
  induction h with
  | nil => exact absurd hm List.not_mem_nil
  | keep _ _ ih => exact ih hm
  | hit hfirst _ ih =>
    rcases List.mem_cons.mp hm with rfl | hm
    · exact ⟨_, _, hfirst⟩
    · exact ih hm

theorem Pattern.group_lang {m : Match α} (hplain : P.group.Plain)
    (h : P.first R prev l = some m) : P.group.Lang (m.group.map R.char) := by
  obtain ⟨r₁, r₂, -, h₂, -⟩ := mem_run.mp (mem_of_first h)
  exact ((mem_run_iff_lang hplain).mp h₂).2

/-- **What is found after a scan** was found before, at a place where the scan found nothing. -/
theorem Scan.found_kept (hreads : P.Reads R) (hnew : Marked fresh ins new)
    (hQ : Q.Shape R before body) (hold : ∀ mid, body mid → ∀ a ∈ mid, ¬ fresh a)
    (hin : ∀ mid, mid <:+: new.map ins → ¬ body mid)
    (hgroup : ∀ m ∈ ms, ∀ mid, mid <:+: m.group → ¬ body mid)
    (hbehind : ∀ q m, P.first R q (m.taken ++ m.rest) = some m →
      ∀ mid, mid <+: m.rest → body mid → before (lastOr q m.taken))
    (h : Scan R P ins new prev l ms t) (hfound : Q.found R prev t = true) :
    ∃ pre rest, l = pre ++ rest ∧ rest ≠ [] ∧ P.first R (lastOr prev pre) rest = none ∧
      (Q.first R (lastOr prev pre) rest).isSome = true := by
  obtain ⟨pre, mid, post, ht, hbefore, hbody⟩ := hQ.found_iff.mp hfound
  have hne := hQ.body_ne_nil mid hbody
  rcases h.old_infix hreads hnew (.inl rfl) (hold mid hbody) hne ht with
    ⟨pre', post', hl, hnone, hplace⟩ | ⟨m, hm, hmid⟩ | hmid
  · refine ⟨pre', mid ++ post', hl, fun hnil => hne (List.append_eq_nil_iff.mp hnil).1, hnone,
      (hQ.first_isSome _ _).mpr ⟨?_, mid, List.prefix_append mid post', hbody⟩⟩
    rcases hplace with heq | ⟨q, m, hfirst, hrest, hlast, -⟩
    · exact heq ▸ hbefore
    · rw [hlast]
      exact hbehind q m (hrest ▸ hfirst) mid (hrest ▸ List.prefix_append mid post') hbody
  · exact absurd hbody (hgroup m hm mid hmid)
  · exact absurd hbody (hin mid hmid)

end

/-! ## Where an expression stops -/

section

variable {α : Type} {R : Reading α} {P : Pattern} {p : Char → Bool} {e f : Re}

variable (R p e) in
/-- What the first match leaves does not begin with a character of the kind. -/
def Re.Stops : Prop := ∀ prev l t r, (e.run R prev l).head? = some (t, r) →
  ∀ a ∈ r.head?, p (R.char a) = false

theorem greedy_pairwise (q : α → Bool) (l : List α) :
    (greedy q l).Pairwise fun x y => y.1.length < x.1.length := by
  induction l with
  | nil => exact List.pairwise_singleton _ _
  | cons a l ih =>
    unfold greedy
    split_ifs
    · refine List.pairwise_append.mpr ⟨List.pairwise_map.mpr ?_, List.pairwise_singleton _ _, ?_⟩
      · exact ih.imp fun h => Nat.succ_lt_succ h
      · intro x hx y hy
        obtain ⟨z, -, rfl⟩ := List.mem_map.mp hx
        obtain rfl := List.mem_singleton.mp hy
        exact Nat.succ_pos _
    · exact List.pairwise_singleton _ _

theorem stops_many (p : Char → Bool) (least : ℕ) : (Re.many p least).Stops R p := by
  intro prev l t r hhead a ha
  obtain ⟨r, rfl⟩ := List.head?_eq_some_iff.mp (Option.mem_def.mp ha)
  obtain ⟨hl, hall, hleast⟩ := mem_run_many.mp (List.mem_of_mem_head? hhead)
  by_contra hp
  have hp := (Bool.not_eq_false _).mp hp
  -- One more element would be read first.
  have hmore : (t ++ [a], r) ∈ (Re.many p least).run R prev l := by
    refine mem_run_many.mpr ⟨by rw [hl, List.append_assoc]; rfl, ?_, by simp; omega⟩
    intro b hb
    rcases List.mem_append.mp hb with hb | hb
    · exact hall b hb
    · exact List.mem_singleton.mp hb ▸ hp
  have hsorted : ((Re.many p least).run R prev l).Pairwise fun x y => y.1.length < x.1.length :=
    (greedy_pairwise _ l).filter _
  obtain ⟨rest, hrun⟩ := List.head?_eq_some_iff.mp hhead
  rw [hrun] at hmore hsorted
  rcases List.mem_cons.mp hmore with heq | hmem
  · have hlen := congrArg (fun x => x.1.length) heq
    simp at hlen
  · have hlen := (List.pairwise_cons.mp hsorted).1 _ hmem
    simp only [List.length_append, List.length_cons, List.length_nil] at hlen
    omega

theorem Re.Stops.seq (h : f.Stops R p) (e : Re) : (e.seq f).Stops R p := by
  intro prev l t r hhead
  rw [Re.run, List.head?_flatMap] at hhead
  obtain ⟨x, -, hx⟩ := List.exists_of_findSome?_eq_some hhead
  rw [List.head?_map] at hx
  obtain ⟨y, hy, heq⟩ := Option.map_eq_some_iff.mp hx
  cases heq
  exact h _ _ y.1 y.2 hy

/-- What a match leaves when its last part stops. -/
theorem Pattern.rest_of_stops (h : P.trail.Stops R p) {prev : Option α} {l : List α} {m : Match α}
    (hfirst : P.first R prev l = some m) : ∀ a ∈ m.rest.head?, p (R.char a) = false := by
  unfold Pattern.first Pattern.run at hfirst
  rw [List.head?_flatMap] at hfirst
  obtain ⟨x, -, hx⟩ := List.exists_of_findSome?_eq_some hfirst
  rw [List.head?_flatMap] at hx
  obtain ⟨y, -, hy⟩ := List.exists_of_findSome?_eq_some hx
  rw [List.head?_map] at hy
  obtain ⟨z, hz, rfl⟩ := Option.map_eq_some_iff.mp hy
  exact h _ _ z.1 z.2 hz

end

end Regex

import ScanPlatform.Base.PyLower
import ScanPlatform.Nuclei.Location

/-!
# Hosts and source locations, normalized again

A host that has been lowered is a host again and stays as it is. A source location keeps its case,
but without a directory in its path it is taken for a host.

* `sourceLocation_append`, `lineAndCol_numberText`: a source location and its parts;
* `host_cases`, **`normalizeHostPort_again`**: hosts;
* `LosesCase`, **`source_again`**: source locations.
-/

set_option autoImplicit false

namespace ScanPlatform

open PyStr

section

variable {F : Type} {py : Python F}

/-! ## Source locations -/

/-- The pattern's `$` lets one newline at the end pass. -/
def trimNewline (value : List Char) : List Char :=
  if value.getLast? = some '\n' then value.dropLast else value

/-- The pattern of a path. -/
def IsPath (path : List Char) : Prop :=
  path.all (fun c => !isSpace c) = true ∧ (path.any fun c => c = '/' ∨ c = '\\') = true

instance : DecidablePred IsPath := fun _ => inferInstanceAs (Decidable (_ ∧ _))

/-- The pattern of a line and of a column. -/
def IsNumber (py : Python F) (digits : List Char) : Prop :=
  digits ≠ [] ∧ (digits.all fun c => (py.decimal c).isSome) = true

instance : DecidablePred (IsNumber py) := fun _ => inferInstanceAs (Decidable (_ ∧ _))

/-- The line and the column, behind the first colon. -/
def lineAndCol (py : Python F) (rest : List Char) : Option (List Char × List Char) :=
  match rest.splitOn ':' with
  | [line] => if IsNumber py line then some (line, []) else none
  | [line, col] => if IsNumber py line ∧ IsNumber py col then some (line, col) else none
  | _ => none

/-- The parts of a source location, between its colons. -/
def sourceParts (py : Python F) : List (List Char) → Option (List Char × List Char × List Char)
  | [path, line] => if IsPath path ∧ IsNumber py line then some (path, line, []) else none
  | [path, line, col] =>
    if IsPath path ∧ IsNumber py line ∧ IsNumber py col then some (path, line, col) else none
  | _ => none

theorem sourceLocation_eq (value : List Char) :
    sourceLocation py value = sourceParts py ((trimNewline value).splitOn ':') := rfl

theorem sourceLocation_of_not_mem {value : List Char} (h : ':' ∉ value) :
    sourceLocation py value = none := by
  have htrim : ':' ∉ trimNewline value := by
    unfold trimNewline
    split_ifs
    · exact fun hmem => h (List.dropLast_subset _ hmem)
    · exact h
  rw [sourceLocation_eq, List.splitOn_eq_singleton htrim]
  rfl

theorem trimNewline_append {path rest : List Char} :
    trimNewline (path ++ ':' :: rest) = path ++ ':' :: trimNewline rest := by
  unfold trimNewline
  cases rest with
  | nil => simp
  | cons c rest =>
    have hlast : (path ++ ':' :: c :: rest).getLast? = (c :: rest).getLast? := by
      rw [List.getLast?_append, List.getLast?_cons_cons, Option.or_of_isSome]
      simp
    rw [hlast]
    split_ifs
    · rw [List.dropLast_append_of_ne_nil (List.cons_ne_nil _ _),
        List.dropLast_cons_of_ne_nil (List.cons_ne_nil _ _)]
    · rfl

theorem sourceLocation_append {path rest : List Char} (h : ':' ∉ path) :
    sourceLocation py (path ++ ':' :: rest) =
      if IsPath path then
        (lineAndCol py (trimNewline rest)).map fun m => (path, m.1, m.2)
      else none := by
  rw [sourceLocation_eq, trimNewline_append, List.splitOn_append_cons_self_of_not_mem h]
  unfold lineAndCol
  rcases (trimNewline rest).splitOn ':' with _ | ⟨line, _ | ⟨col, _ | ⟨_, _⟩⟩⟩
  · simp [sourceParts]
  · by_cases hpath : IsPath path
    · by_cases hline : IsNumber py line
      · simp [sourceParts, hpath, hline]
      · simp [sourceParts, hpath, hline]
    · simp [sourceParts, hpath]
  · by_cases hpath : IsPath path
    · by_cases hnumbers : IsNumber py line ∧ IsNumber py col
      · simp [sourceParts, hpath, hnumbers]
      · simp only [sourceParts, hpath, hnumbers, true_and, if_false, if_true, Option.map_none]
    · simp [sourceParts, hpath]
  · simp [sourceParts]

theorem sourceLocation_eq_none {path rest : List Char} (h : ':' ∉ path) :
    sourceLocation py (path ++ ':' :: rest) = none ↔
      (IsPath path → lineAndCol py (trimNewline rest) = none) := by
  rw [sourceLocation_append h]
  by_cases hpath : IsPath path
  · simp [hpath]
  · simp [hpath]

/-! ### Paths -/

theorem isPath_iff {path : List Char} : IsPath path ↔
    (∀ c ∈ path, isSpace c = false) ∧ ('/' ∈ path ∨ '\\' ∈ path) := by
  simp only [IsPath, List.all_eq_true, List.any_eq_true, Bool.not_eq_true', decide_eq_true_eq]
  refine and_congr_right fun _ => ?_
  constructor
  · rintro ⟨c, hc, rfl | rfl⟩
    · exact .inl hc
    · exact .inr hc
  · rintro (h | h)
    · exact ⟨'/', h, .inl rfl⟩
    · exact ⟨'\\', h, .inr rfl⟩

theorem isPath_congr {path path' : List Char}
    (h : ∀ d, isMark d = true → (d ∈ path' ↔ d ∈ path)) : IsPath path' ↔ IsPath path := by
  have hspace : ∀ {p q : List Char}, (∀ d, isMark d = true → (d ∈ q ↔ d ∈ p)) →
      (∀ c ∈ p, isSpace c = false) → ∀ c ∈ q, isSpace c = false := by
    intro p q hpq hp c hc
    by_contra hspace
    have hmark : isMark c = true := by
      unfold isMark
      rw [eq_true_of_ne_false hspace, Bool.or_true]
    exact hspace (hp c ((hpq c hmark).mp hc))
  rw [isPath_iff, isPath_iff, h '/' (by decide), h '\\' (by decide)]
  constructor
  · rintro ⟨hp, hsep⟩
    exact ⟨hspace (fun d hd => (h d hd).symm) hp, hsep⟩
  · rintro ⟨hp, hsep⟩
    exact ⟨hspace h hp, hsep⟩

/-! ### Numbers -/

theorem not_mark_of_isNumber (hlaw : py.Lawful) {digits : List Char} (h : IsNumber py digits) :
    ∀ c ∈ digits, isMark c = false := by
  intro c hc
  by_contra hmark
  have hsome := List.all_eq_true.mp h.2 c hc
  rw [hlaw.decimal_mark c (by simpa using hmark)] at hsome
  cases hsome

/-- What stands behind the path: the line, and the column if there is one. -/
def numberText (m : List Char × List Char) : List Char :=
  m.1 ++ if m.2 = [] then [] else ':' :: m.2

theorem lineAndCol_eq_some {rest : List Char} {m : List Char × List Char}
    (h : lineAndCol py rest = some m) :
    rest = numberText m ∧ IsNumber py m.1 ∧ (m.2 = [] ∨ IsNumber py m.2) := by
  have hjoin : [':'].intercalate (rest.splitOn ':') = rest := List.intercalate_splitOn _
  unfold lineAndCol at h
  rcases hsegs : rest.splitOn ':' with _ | ⟨line, _ | ⟨col, _ | ⟨_, _⟩⟩⟩
  · rw [hsegs] at h
    cases h
  · rw [hsegs] at h hjoin
    dsimp only at h
    split_ifs at h with hline
    obtain rfl := Option.some.inj h
    refine ⟨?_, hline, .inl rfl⟩
    simpa [numberText] using hjoin.symm
  · rw [hsegs] at h hjoin
    dsimp only at h
    split_ifs at h with hnumbers
    obtain rfl := Option.some.inj h
    refine ⟨?_, hnumbers.1, .inr hnumbers.2⟩
    simpa [numberText, hnumbers.2.1] using hjoin.symm
  · rw [hsegs] at h
    cases h

/-- No other mark stands behind the path. -/
theorem eq_colon_of_mem (hlaw : py.Lawful) {m : List Char × List Char}
    (hline : IsNumber py m.1) (hcol : m.2 = [] ∨ IsNumber py m.2) {c : Char}
    (hc : isMark c = true) (hmem : c ∈ numberText m) : c = ':' := by
  have hno : ∀ digits, IsNumber py digits → c ∉ digits := by
    intro digits hdigits hmem
    rw [not_mark_of_isNumber hlaw hdigits c hmem] at hc
    cases hc
  unfold numberText at hmem
  rcases List.mem_append.mp hmem with hmem | hmem
  · exact absurd hmem (hno _ hline)
  · split_ifs at hmem with hnil
    · cases hmem
    · rcases List.mem_cons.mp hmem with heq | hmem
      · exact heq
      · exact absurd hmem (hno _ (hcol.resolve_left hnil))

theorem trimNewline_of_not_mem {value : List Char} (h : '\n' ∉ value) :
    trimNewline value = value :=
  if_neg fun hlast => h (List.mem_of_getLast? hlast)

theorem lineAndCol_numberText (hlaw : py.Lawful) {m : List Char × List Char}
    (hline : IsNumber py m.1) (hcol : m.2 = [] ∨ IsNumber py m.2) :
    lineAndCol py (trimNewline (numberText m)) = some m := by
  have hcolon : ∀ digits, IsNumber py digits → ':' ∉ digits := fun digits hdigits hmem =>
    absurd (not_mark_of_isNumber hlaw hdigits ':' hmem) (by decide)
  have htrim : trimNewline (numberText m) = numberText m := by
    refine trimNewline_of_not_mem fun hmem => ?_
    exact absurd (eq_colon_of_mem hlaw hline hcol (by decide) hmem) (by decide)
  rw [htrim]
  unfold lineAndCol numberText
  obtain ⟨line, col⟩ := m
  by_cases hnil : col = []
  · subst hnil
    rw [if_pos rfl, List.append_nil, List.splitOn_eq_singleton (hcolon line hline)]
    exact if_pos hline
  · have hnumber := hcol.resolve_left hnil
    rw [if_neg hnil, List.splitOn_append_cons_self_of_not_mem (hcolon line hline),
      List.splitOn_eq_singleton (hcolon col hnumber)]
    exact if_pos ⟨hline, hnumber⟩

/-! ### A source location again -/

def toSlash (c : Char) : Char := if c = '\\' then '/' else c

/-- The path of a normalized source location. -/
def plainPath (path : List Char) : List Char := dropDotSlash (path.map toSlash)

theorem dropDotSlash_suffix (path : List Char) : dropDotSlash path <:+ path := by
  induction path using dropDotSlash.induct with
  | case1 path ih => exact ih.trans ((List.suffix_cons _ _).trans (List.suffix_cons _ _))
  | case2 path h => exact ⟨[], dropDotSlash.eq_2 path h⟩

theorem dropDotSlash_dropDotSlash (path : List Char) :
    dropDotSlash (dropDotSlash path) = dropDotSlash path := by
  induction path using dropDotSlash.induct with
  | case1 path ih => exact ih
  | case2 path h => rw [dropDotSlash.eq_2 _ h, dropDotSlash.eq_2 _ h]

theorem mem_plainPath {path : List Char} {c : Char} (h : c ∈ plainPath path) :
    c ≠ '\\' ∧ (c ∈ path ∨ c = '/' ∧ '\\' ∈ path) := by
  obtain ⟨d, hd, rfl⟩ := List.mem_map.mp ((dropDotSlash_suffix _).subset h)
  unfold toSlash
  split_ifs with heq
  · exact ⟨by decide, .inr ⟨rfl, heq ▸ hd⟩⟩
  · exact ⟨heq, .inl hd⟩

theorem plainPath_plainPath (path : List Char) : plainPath (plainPath path) = plainPath path := by
  have hmap : (plainPath path).map toSlash = plainPath path := by
    conv_rhs => rw [← List.map_id (plainPath path)]
    exact List.map_congr_left fun c hc => if_neg (mem_plainPath hc).1
  have hplain : plainPath (plainPath path) = dropDotSlash ((plainPath path).map toSlash) := rfl
  rw [hplain, hmap]
  exact dropDotSlash_dropDotSlash _

theorem normalizeSourceLocation_eq (path : List Char) (m : List Char × List Char) :
    normalizeSourceLocation (path, m.1, m.2) = plainPath path ++ ':' :: numberText m := by
  unfold normalizeSourceLocation numberText
  simp only [List.append_assoc, List.cons_append]
  rfl

/-! ## Hosts -/

theorem normalizeHostPort_open {value : List Char} (h : ']' ∉ value) :
    normalizeHostPort py ('[' :: value) = '[' :: value := by
  have hmem : ']' ∉ '[' :: value := by simpa using h
  unfold normalizeHostPort
  dsimp only
  rw [partition_of_not_mem hmem]
  rfl

theorem normalizeHostPort_closed {a : List Char} (h : ']' ∉ a) (b : List Char) :
    normalizeHostPort py ('[' :: (a ++ ']' :: b)) = py.lower ('[' :: a ++ [']']) ++ b := by
  have hmem : ']' ∉ '[' :: a := by simpa using h
  unfold normalizeHostPort
  dsimp only
  rw [← List.cons_append, partition_append_sep hmem]
  rfl

theorem normalizeHostPort_plain {value : List Char} (h : value.head? ≠ some '[') :
    normalizeHostPort py value =
      py.lower (partition ':' value).1 ++ (partition ':' value).2.1 ++
        (partition ':' value).2.2 := by
  unfold normalizeHostPort
  split
  · exact absurd rfl h
  · rfl

theorem normalizeHostPort_host {value : List Char} (h : value.head? ≠ some '[')
    (hcolon : ':' ∉ value) : normalizeHostPort py value = py.lower value := by
  rw [normalizeHostPort_plain h, partition_of_not_mem hcolon]
  simp

theorem normalizeHostPort_port {host port : List Char}
    (h : (host ++ ':' :: port).head? ≠ some '[') (hcolon : ':' ∉ host) :
    normalizeHostPort py (host ++ ':' :: port) = py.lower host ++ ':' :: port := by
  rw [normalizeHostPort_plain h, partition_append_sep hcolon]
  simp

/-- The shapes of a host and a port. -/
theorem host_cases (value : List Char) :
    (∃ a, value = '[' :: a ∧ ']' ∉ a) ∨ (∃ a b, value = '[' :: (a ++ ']' :: b) ∧ ']' ∉ a) ∨
      value.head? ≠ some '[' ∧ (':' ∉ value ∨
        ∃ host port, value = host ++ ':' :: port ∧ ':' ∉ host) := by
  by_cases hopen : value.head? = some '['
  · obtain ⟨a, rfl⟩ := List.head?_eq_some_iff.mp hopen
    by_cases hclose : ']' ∈ a
    · obtain ⟨b, c, rfl, hb⟩ := List.eq_append_cons_of_mem hclose
      exact .inr (.inl ⟨b, c, rfl, hb⟩)
    · exact .inl ⟨a, rfl, hclose⟩
  · refine .inr (.inr ⟨hopen, ?_⟩)
    by_cases hcolon : ':' ∈ value
    · obtain ⟨host, port, heq, hhost⟩ := List.eq_append_cons_of_mem hcolon
      exact .inr ⟨host, port, heq, hhost⟩
    · exact .inl hcolon

theorem mem_trimNewline {value : List Char} {c : Char} (hc : c ∈ value) (hne : c ≠ '\n') :
    c ∈ trimNewline value := by
  unfold trimNewline
  split_ifs with hlast
  · obtain ⟨init, rfl⟩ := List.getLast?_eq_some_iff.mp hlast
    rw [List.dropLast_concat]
    exact (List.mem_append.mp hc).resolve_right fun h => hne (List.mem_singleton.mp h)
  · exact hc

/-- A text of which a part without other marks is replaced is no source location still. -/
theorem sourceLocation_congr (hlaw : py.Lawful) {p p' t : List Char}
    (hmarks : ∀ d, isMark d = true → (d ∈ p' ↔ d ∈ p)) (ht : ':' ∉ p ∨ ']' ∈ t)
    (h : sourceLocation py (p ++ t) = none) : sourceLocation py (p' ++ t) = none := by
  by_cases hcolon : ':' ∈ p
  · -- a bracket stands behind the colon
    obtain ⟨a, b, rfl, ha⟩ := List.eq_append_cons_of_mem ((hmarks ':' (by decide)).mpr hcolon)
    have hnone : lineAndCol py (trimNewline (b ++ t)) = none := by
      rw [Option.eq_none_iff_forall_ne_some]
      intro m hm
      obtain ⟨htext, hline, hcol⟩ := lineAndCol_eq_some hm
      have hmem : ']' ∈ trimNewline (b ++ t) :=
        mem_trimNewline (List.mem_append_right _ (ht.resolve_left (not_not_intro hcolon)))
          (by decide)
      rw [htext] at hmem
      exact absurd (eq_colon_of_mem hlaw hline hcol (by decide) hmem) (by decide)
    rw [List.append_assoc, List.cons_append, sourceLocation_eq_none ha]
    exact fun _ => hnone
  · have hcolon' : ':' ∉ p' := fun hmem => hcolon ((hmarks ':' (by decide)).mp hmem)
    by_cases hmem : ':' ∈ t
    · obtain ⟨a, b, rfl, ha⟩ := List.eq_append_cons_of_mem hmem
      have hpath : IsPath (p' ++ a) ↔ IsPath (p ++ a) := isPath_congr fun d hd => by
        rw [List.mem_append, List.mem_append, hmarks d hd]
      rw [← List.append_assoc, sourceLocation_eq_none (by simp [hcolon, ha])] at h
      rw [← List.append_assoc, sourceLocation_eq_none (by simp [hcolon', ha]), hpath]
      exact h
    · exact sourceLocation_of_not_mem (by simp [hcolon', hmem])

theorem marks_of_url : ∀ c ∈ "://".toList, isMark c = true := by simp [isMark]

/-- What is lowered is no URL and no source location if it was none. -/
theorem lower_again (hlaw : py.Lawful) {s t : List Char}
    (ht : ':' ∉ s ∨ ']' ∈ t) (hurl : ¬ "://".toList <:+: s ++ t)
    (hsource : sourceLocation py (s ++ t) = none) :
    ¬ "://".toList <:+: py.lower s ++ t ∧ sourceLocation py (py.lower s ++ t) = none :=
  ⟨fun h => hurl (hlaw.infix_of_lower marks_of_url (by simp) h),
    sourceLocation_congr hlaw (fun _ hd => hlaw.mem_lower hd) ht hsource⟩

/-- An address in brackets, lowered. -/
theorem lower_brackets (hlaw : py.Lawful) {a : List Char} (ha : ']' ∉ a) :
    ∃ a', py.lower ('[' :: a ++ [']']) = '[' :: (a' ++ [']']) ∧ ']' ∉ a' ∧
      ∀ d, isMark d = true → (d ∈ '[' :: a' ↔ d ∈ '[' :: a) := by
  obtain ⟨before, after, heq, hbefore, -, hafter⟩ :=
    hlaw.lower_split ('[' :: a) [] (c := ']') (by decide)
  obtain ⟨first, rest, heq', -, hfirst, -⟩ :=
    hlaw.lower_split [] (a ++ [']']) (c := '[') (by decide)
  rw [hafter rfl] at heq
  rw [hfirst rfl, List.nil_append, List.nil_append, ← List.cons_append, heq] at heq'
  rcases before with _ | ⟨c, a'⟩
  · exact absurd (List.cons.inj heq').1 (by decide)
  · obtain rfl : c = '[' := (List.cons.inj heq').1
    refine ⟨a', heq, fun hmem => ?_, hbefore⟩
    have hclose := (hbefore ']' (by decide)).mp (List.mem_cons_of_mem _ hmem)
    exact ha ((List.mem_cons.mp hclose).resolve_left (by decide))

/-- A lowered host has no bracket before it. -/
theorem head_lower (hlaw : py.Lawful) {host rest : List Char}
    (h : (host ++ rest).head? ≠ some '[') (hrest : rest.head? ≠ some '[') :
    (py.lower host ++ rest).head? ≠ some '[' := by
  intro hopen
  cases hlower : py.lower host with
  | nil =>
    rw [hlower] at hopen
    exact hrest hopen
  | cons c t =>
    rw [hlower] at hopen
    obtain rfl : c = '[' := by simpa using hopen
    obtain ⟨t', rfl⟩ := hlaw.head_of_lower (by decide) hlower
    exact h rfl

/-- **A host is normalized once**: what comes of it is a host again, and stays as it is. -/
theorem normalizeHostPort_again (hlaw : py.Lawful) {value : List Char}
    (hurl : ¬ "://".toList <:+: value) (hsource : sourceLocation py value = none) :
    ¬ "://".toList <:+: normalizeHostPort py value ∧
      sourceLocation py (normalizeHostPort py value) = none ∧
      normalizeHostPort py (normalizeHostPort py value) = normalizeHostPort py value := by
  rcases host_cases value with ⟨a, rfl, ha⟩ | ⟨a, b, rfl, ha⟩ | ⟨hopen, hcolon | hport⟩
  · rw [normalizeHostPort_open ha]
    exact ⟨hurl, hsource, normalizeHostPort_open ha⟩
  · obtain ⟨a', hlower, ha', hmarks⟩ := lower_brackets hlaw ha
    have hsplit : '[' :: (a ++ ']' :: b) = ('[' :: a ++ [']']) ++ b := by simp
    have hresult : normalizeHostPort py ('[' :: (a ++ ']' :: b)) = '[' :: (a' ++ ']' :: b) := by
      rw [normalizeHostPort_closed ha, hlower]
      simp
    refine ⟨?_, ?_, ?_⟩
    · rw [normalizeHostPort_closed ha]
      rw [hsplit] at hurl
      exact fun h => hurl (hlaw.infix_of_lower marks_of_url (by simp) h)
    · rw [hresult, ← List.cons_append]
      exact sourceLocation_congr hlaw hmarks (.inr List.mem_cons_self) hsource
    · have hfixed : py.lower ('[' :: a' ++ [']']) = '[' :: (a' ++ [']']) := by
        rw [List.cons_append, ← hlower, hlaw.lower_lower]
      rw [hresult, normalizeHostPort_closed ha', hfixed]
      simp
  · have hagain := lower_again (t := []) hlaw (.inl hcolon)
      (by simpa using hurl) (by simpa using hsource)
    have hhead := @head_lower _ _ hlaw _ [] (by simpa using hopen) (by simp)
    rw [List.append_nil] at hagain hhead
    rw [normalizeHostPort_host hopen hcolon]
    refine ⟨hagain.1, hagain.2, ?_⟩
    rw [normalizeHostPort_host hhead fun h => hcolon ((hlaw.mem_lower (by decide)).mp h),
      hlaw.lower_lower]
  · obtain ⟨host, port, rfl, hhost⟩ := hport
    have hagain := lower_again hlaw (.inl hhost) hurl hsource
    have hhead := head_lower hlaw hopen (by simp)
    rw [normalizeHostPort_port hopen hhost]
    refine ⟨hagain.1, hagain.2, ?_⟩
    rw [normalizeHostPort_port hhead fun h => hhost ((hlaw.mem_lower (by decide)).mp h),
      hlaw.lower_lower]

/-! ## A source location that becomes a host -/

theorem not_url_of_source {p q : List Char} (hp : ':' ∉ p) (hq : '/' ∉ q) :
    ¬ "://".toList <:+: p ++ ':' :: q := by
  rintro ⟨s, t, h⟩
  have h : p ++ ':' :: q = s ++ ':' :: '/' :: '/' :: t := by simpa using h.symm
  rcases List.append_eq_append_iff.mp h with ⟨cs, rfl, hrest⟩ | ⟨cs, rfl, hrest⟩
  · rcases cs with _ | ⟨c, cs⟩
    · exact hq ((List.cons.inj hrest).2 ▸ List.mem_cons_self)
    · exact hq ((List.cons.inj hrest).2 ▸ by simp)
  · rcases cs with _ | ⟨c, cs⟩
    · exact hq ((List.cons.inj hrest).2 ▸ List.mem_cons_self)
    · obtain rfl := (List.cons.inj hrest).1
      exact hp (by simp)

theorem normalizeHostPort_append {p q : List Char} (hp : ':' ∉ p) (hq : ']' ∉ q) :
    normalizeHostPort py (p ++ ':' :: q) = normalizeHostPort py p ++ ':' :: q := by
  rcases host_cases p with ⟨a, rfl, ha⟩ | ⟨a, b, rfl, ha⟩ | ⟨hopen, -⟩
  · rw [normalizeHostPort_open ha, List.cons_append, normalizeHostPort_open (by simp [ha, hq])]
  · have hsplit : '[' :: (a ++ ']' :: b) ++ ':' :: q = '[' :: (a ++ ']' :: (b ++ ':' :: q)) := by
      simp
    rw [normalizeHostPort_closed ha, hsplit, normalizeHostPort_closed ha, List.append_assoc]
  · have hhead : (p ++ ':' :: q).head? ≠ some '[' := by
      rcases p with _ | ⟨c, p⟩
      · simp
      · simpa using hopen
    rw [normalizeHostPort_host hopen hp, normalizeHostPort_port hhead hp]

/-- A source location, taken apart. -/
theorem sourceLocation_eq_some {value : List Char} {path : List Char}
    {m : List Char × List Char} (h : sourceLocation py value = some (path, m.1, m.2)) :
    ':' ∉ path ∧ IsPath path ∧ IsNumber py m.1 ∧ (m.2 = [] ∨ IsNumber py m.2) := by
  by_cases hcolon : ':' ∈ value
  · obtain ⟨a, b, rfl, ha⟩ := List.eq_append_cons_of_mem hcolon
    rw [sourceLocation_append ha] at h
    split_ifs at h with hpath
    obtain ⟨m', hm', heq⟩ := Option.map_eq_some_iff.mp h
    obtain ⟨rfl, hnumbers⟩ := Prod.mk.inj heq
    obtain rfl : m' = m := Prod.ext (Prod.mk.inj hnumbers).1 (Prod.mk.inj hnumbers).2
    exact ⟨ha, hpath, (lineAndCol_eq_some hm').2⟩
  · rw [sourceLocation_of_not_mem hcolon] at h
    cases h

theorem isPath_plainPath {path : List Char} (h : IsPath path) :
    IsPath (plainPath path) ↔ '/' ∈ plainPath path := by
  rw [isPath_iff]
  have hspace : ∀ c ∈ plainPath path, isSpace c = false := by
    intro c hc
    rcases (mem_plainPath hc).2 with hmem | ⟨rfl, -⟩
    · exact (isPath_iff.mp h).1 c hmem
    · decide
  constructor
  · rintro ⟨-, hmem | hmem⟩
    · exact hmem
    · exact absurd rfl (mem_plainPath hmem).1
  · exact fun hmem => ⟨hspace, .inl hmem⟩

end

/-! ## Locations as texts -/

section

variable {F : Type} {py : Python F}

/-- `normalize_location`, on characters. -/
def normalizeChars (py : Python F) (value : List Char) : Option (List Char) :=
  if contains (String.ofList value) "://" then normalizeUrl py value
  else match sourceLocation py value with
  | some m => some (normalizeSourceLocation m)
  | none => some (normalizeHostPort py value)

theorem normalizeLocation_eq (value : String) :
    normalizeLocation py value = (normalizeChars py value.toList).map String.ofList := by
  unfold normalizeLocation normalizeChars
  rw [String.ofList_toList]
  split_ifs
  · rfl
  · cases sourceLocation py value.toList with
    | none => rfl
    | some m => rfl

theorem normalizeChars_url {value : List Char} (h : "://".toList <:+: value) :
    normalizeChars py value = normalizeUrl py value := by
  unfold normalizeChars
  rw [if_pos ((contains_iff (by decide)).mpr (by simpa using h))]

theorem normalizeChars_source {value : List Char} (h : ¬ "://".toList <:+: value)
    {m : List Char × List Char × List Char} (hsource : sourceLocation py value = some m) :
    normalizeChars py value = some (normalizeSourceLocation m) := by
  unfold normalizeChars
  rw [if_neg fun hurl => h (by simpa using (contains_iff (by decide)).mp hurl), hsource]

theorem normalizeChars_host {value : List Char} (h : ¬ "://".toList <:+: value)
    (hsource : sourceLocation py value = none) :
    normalizeChars py value = some (normalizeHostPort py value) := by
  unfold normalizeChars
  rw [if_neg fun hurl => h (by simpa using (contains_iff (by decide)).mp hurl), hsource]

/-- The case of a source location is lost: its path has no directory before it any more, and is
not in lower case. -/
def LosesCase (py : Python F) (value : List Char) : Prop :=
  ∃ path m, sourceLocation py value = some (path, m) ∧ '/' ∉ plainPath path ∧
    normalizeHostPort py (plainPath path) ≠ plainPath path

/-- **A source location is normalized once**, unless its case is lost. -/
theorem source_again (hlaw : py.Lawful) {value : List Char}
    {m : List Char × List Char × List Char} (hsource : sourceLocation py value = some m) :
    normalizeChars py (normalizeSourceLocation m) = some (normalizeSourceLocation m) ↔
      ¬ LosesCase py value := by
  obtain ⟨path, m⟩ := m
  obtain ⟨hcolon, hpath, hline, hcol⟩ := sourceLocation_eq_some (m := m) hsource
  have hplain : ':' ∉ plainPath path := by
    intro hmem
    rcases (mem_plainPath hmem).2 with hmem | ⟨heq, -⟩
    · exact hcolon hmem
    · exact absurd heq (by decide)
  have hurl : ¬ "://".toList <:+: normalizeSourceLocation (path, m.1, m.2) := by
    rw [normalizeSourceLocation_eq]
    exact not_url_of_source hplain fun hmem =>
      absurd (eq_colon_of_mem hlaw hline hcol (by decide) hmem) (by decide)
  have hagain : sourceLocation py (normalizeSourceLocation (path, m.1, m.2)) =
      if '/' ∈ plainPath path then some (plainPath path, m.1, m.2) else none := by
    rw [normalizeSourceLocation_eq, sourceLocation_append hplain,
      lineAndCol_numberText hlaw hline hcol]
    simp only [isPath_plainPath hpath]
    rfl
  have hloses : LosesCase py value ↔ '/' ∉ plainPath path ∧
      normalizeHostPort py (plainPath path) ≠ plainPath path := by
    constructor
    · rintro ⟨path', m', hsource', h⟩
      obtain ⟨rfl, -⟩ := Prod.mk.inj (Option.some.inj (hsource.symm.trans hsource'))
      exact h
    · exact fun h => ⟨path, m, hsource, h⟩
  rw [hloses]
  by_cases hdir : '/' ∈ plainPath path
  · rw [if_pos hdir] at hagain
    rw [normalizeChars_source hurl hagain, normalizeSourceLocation_eq,
      normalizeSourceLocation_eq, plainPath_plainPath]
    simp [hdir]
  · rw [if_neg hdir] at hagain
    have hclose : ']' ∉ numberText m := fun hmem =>
      absurd (eq_colon_of_mem hlaw hline hcol (by decide) hmem) (by decide)
    rw [normalizeChars_host hurl hagain, normalizeSourceLocation_eq,
      normalizeHostPort_append hplain hclose, Option.some.injEq, List.append_left_inj]
    simp [hdir]

end

end ScanPlatform

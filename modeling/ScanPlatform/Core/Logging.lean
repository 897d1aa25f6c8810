import ScanPlatform.Core.LogRedaction

/-!
# The lines of the JSON log

A log record is written as one line of JSON, in which texts are masked and values under some names
are hidden.

* `jsonString`, `dumps`: `json.dumps(..., default=str)`;
* `LogRecord`, `LogRecord.payload`, `LogRecord.format`: a record and its line;
* `Written`, **`found_written`**: what is found in JSON is found in the texts of its strings;
* `Torn`, **`shows_iff`**: texts without a secret that show one as JSON;
* `Alike`, `Covered`, `dumps_of_covered`: values that differ in what is to be hidden;
* `LogRecord.LeaksNothing`, **`leaks_nothing_iff`**: when a line leaks nothing; `key_logged` is one
  that does.
-/

set_option autoImplicit false

namespace ScanPlatform.LogRedaction

open Regex

/-! ## JSON -/

/-- Four hexadecimal digits. -/
def hex4 (n : ℕ) : Text :=
  [n / 4096 % 16, n / 256 % 16, n / 16 % 16, n % 16].map Nat.digitChar

/-- The escape of a character, with `ensure_ascii`: characters beyond 16 bits as two. -/
def escape (c : Char) : Text :=
  match c with
  | '"' => ['\\', '"']
  | '\\' => ['\\', '\\']
  | '\n' => ['\\', 'n']
  | '\r' => ['\\', 'r']
  | '\t' => ['\\', 't']
  | '\x0c' => ['\\', 'f']
  | '\x08' => ['\\', 'b']
  | c =>
    if ' ' ≤ c ∧ c ≤ '~' then [c]
    else if c.toNat < 0x10000 then '\\' :: 'u' :: hex4 c.toNat
    else '\\' :: 'u' :: hex4 (0xd800 + (c.toNat - 0x10000) / 0x400) ++
      '\\' :: 'u' :: hex4 (0xdc00 + (c.toNat - 0x10000) % 0x400)

/-- What stands between the quotation marks of a text. -/
def escaped (s : Text) : Text := s.flatMap escape

def jsonString (s : Text) : Text := '"' :: (escaped s ++ ['"'])

theorem hex4_inj {n m : ℕ} (hn : n < 0x10000) (hm : m < 0x10000) (h : hex4 n = hex4 m) : n = m := by
  have hdigit : ∀ a < 16, ∀ b < 16, Nat.digitChar a = Nat.digitChar b → a = b := by decide
  have hlt : ∀ k : ℕ, k % 16 < 16 := fun k => Nat.mod_lt k (by decide)
  unfold hex4 at h
  simp only [List.map_cons, List.map_nil, List.cons.injEq, and_true] at h
  obtain ⟨h₁, h₂, h₃, h₄⟩ := h
  have h₁ := hdigit _ (hlt _) _ (hlt _) h₁
  have h₂ := hdigit _ (hlt _) _ (hlt _) h₂
  have h₃ := hdigit _ (hlt _) _ (hlt _) h₃
  have h₄ := hdigit _ (hlt _) _ (hlt _) h₄
  omega

/-- The escapes of two characters. -/
def shortEscapes : List (Char × Char) :=
  [('"', '"'), ('\\', '\\'), ('\n', 'n'), ('\r', 'r'), ('\t', 't'), ('\x0c', 'f'), ('\x08', 'b')]

/-- The numbers behind the `\u` of a character. -/
def units (c : Char) : List ℕ :=
  if c.toNat < 0x10000 then [c.toNat]
  else [0xd800 + (c.toNat - 0x10000) / 0x400, 0xdc00 + (c.toNat - 0x10000) % 0x400]

theorem escape_cases (c : Char) : c ≠ '\\' ∧ escape c = [c] ∨
    (∃ e, (c, e) ∈ shortEscapes ∧ escape c = ['\\', e]) ∨
      escape c = (units c).flatMap fun n => '\\' :: 'u' :: hex4 n := by
  unfold escape
  split
  · exact .inr (.inl ⟨'"', by decide, rfl⟩)
  · exact .inr (.inl ⟨'\\', by decide, rfl⟩)
  · exact .inr (.inl ⟨'n', by decide, rfl⟩)
  · exact .inr (.inl ⟨'r', by decide, rfl⟩)
  · exact .inr (.inl ⟨'t', by decide, rfl⟩)
  · exact .inr (.inl ⟨'f', by decide, rfl⟩)
  · exact .inr (.inl ⟨'b', by decide, rfl⟩)
  · next hslash _ _ _ _ _ =>
    split_ifs with hprint hsmall
    · exact .inl ⟨hslash, rfl⟩
    · exact .inr (.inr (by simp [units, hsmall]))
    · exact .inr (.inr (by simp [units, hsmall]))

theorem hex4_append_inj {n m : ℕ} {s t : Text} (hn : n < 0x10000) (hm : m < 0x10000)
    (h : hex4 n ++ s = hex4 m ++ t) : n = m ∧ s = t := by
  obtain ⟨hhex, hrest⟩ := List.append_inj h rfl
  exact ⟨hex4_inj hn hm hhex, hrest⟩

/-- The numbers of two characters that begin alike: there are no characters in the surrogates. -/
theorem units_inj {c d : Char} {s t : Text}
    (h : ((units c).flatMap fun n => '\\' :: 'u' :: hex4 n) ++ s =
      ((units d).flatMap fun n => '\\' :: 'u' :: hex4 n) ++ t) : c = d := by
  have hvalid : ∀ c : Char, c.toNat < 0xd800 ∨ 0xdfff < c.toNat ∧ c.toNat < 0x110000 :=
    fun c => c.valid
  have hc := hvalid c
  have hd := hvalid d
  refine Char.toNat_inj.mp ?_
  unfold units at h
  split_ifs at h with hcs hds hds <;>
    simp only [List.flatMap_cons, List.flatMap_nil, List.append_nil, List.cons_append,
      List.append_assoc, List.cons.injEq, true_and] at h
  · exact (hex4_append_inj hcs hds h).1
  · have hhigh := (hex4_append_inj hcs (by omega) h).1
    omega
  · have hhigh := (hex4_append_inj (by omega) hds h).1
    omega
  · obtain ⟨hhigh, hrest⟩ := hex4_append_inj (by omega) (by omega) h
    simp only [List.cons.injEq, true_and] at hrest
    have hlow := (hex4_append_inj (by omega) (by omega) hrest).1
    omega

/-- The escape of a character is not the beginning of that of another one. -/
theorem escape_inj {c d : Char} {s t : Text} (h : escape c ++ s = escape d ++ t) : c = d := by
  have hunits : ∀ c : Char, ∃ x,
      ((units c).flatMap fun n => '\\' :: 'u' :: hex4 n) = '\\' :: 'u' :: x := by
    intro c
    unfold units
    split_ifs <;> simp
  have htable : shortEscapes.all (fun p => p.2 ≠ 'u' ∧
      shortEscapes.all fun q => p.2 ≠ q.2 ∨ p.1 = q.1) = true := by decide
  rcases escape_cases c with ⟨hc, hec⟩ | ⟨e, he, hec⟩ | hec <;>
    rcases escape_cases d with ⟨hd, hed⟩ | ⟨f, hf, hed⟩ | hed <;> rw [hec, hed] at h
  · exact (List.cons.inj h).1
  · exact absurd (List.cons.inj h).1 hc
  · obtain ⟨x, hx⟩ := hunits d
    rw [hx] at h
    exact absurd (List.cons.inj h).1 hc
  · exact absurd (List.cons.inj h).1.symm hd
  · have hsame := (List.cons.inj (List.cons.inj h).2).1
    have hall := (of_decide_eq_true (List.all_eq_true.mp htable _ he)).2
    exact (of_decide_eq_true (List.all_eq_true.mp hall _ hf)).resolve_left (not_not.mpr hsame)
  · obtain ⟨x, hx⟩ := hunits d
    rw [hx] at h
    exact absurd (List.cons.inj (List.cons.inj h).2).1
      (of_decide_eq_true (List.all_eq_true.mp htable _ he)).1
  · obtain ⟨x, hx⟩ := hunits c
    rw [hx] at h
    exact absurd (List.cons.inj h).1.symm hd
  · obtain ⟨x, hx⟩ := hunits c
    rw [hx] at h
    exact absurd (List.cons.inj (List.cons.inj h).2).1.symm
      (of_decide_eq_true (List.all_eq_true.mp htable _ hf)).1
  · exact units_inj h

theorem escape_ne_nil (c : Char) : escape c ≠ [] := by
  rcases escape_cases c with ⟨-, h⟩ | ⟨e, -, h⟩ | h
  · rw [h]
    exact List.cons_ne_nil _ _
  · rw [h]
    exact List.cons_ne_nil _ _
  · rw [h, units]
    split_ifs <;> simp

theorem escaped_inj {s t : Text} (h : escaped s = escaped t) : s = t := by
  induction s generalizing t with
  | nil =>
    cases t with
    | nil => rfl
    | cons d t => exact absurd (List.append_eq_nil_iff.mp h.symm).1 (escape_ne_nil d)
  | cons c s ih =>
    cases t with
    | nil => exact absurd (List.append_eq_nil_iff.mp h).1 (escape_ne_nil c)
    | cons d t =>
      obtain rfl := escape_inj h
      rw [ih (List.append_cancel_left h)]

theorem jsonString_injective : Function.Injective jsonString := by
  intro s t h
  exact escaped_inj (List.append_cancel_right (List.cons.inj h).2)

section

variable {O : Type} (str : O → Text)

mutual

/-- `json.dumps(value, default=str)`. -/
def dumps : Value O → Text
  | .none => "null".toList
  | .bool true => "true".toList
  | .bool false => "false".toList
  | .number n => n.text
  | .str s => jsonString s
  | .dict members => '{' :: (dumpsMembers members ++ ['}'])
  | .list items => '[' :: (dumpsItems items ++ [']'])
  | .tuple items => '[' :: (dumpsItems items ++ [']'])
  | .obj o => jsonString (str o)

def dumpsMembers : List (Key × Value O) → Text
  | [] => []
  | (k, v) :: members =>
    jsonString k.name ++ ([':', ' '] ++ (dumps v ++
      (if members.isEmpty then [] else [',', ' '] ++ dumpsMembers members)))

def dumpsItems : List (Value O) → Text
  | [] => []
  | v :: items => dumps v ++ (if items.isEmpty then [] else [',', ' '] ++ dumpsItems items)

end

end

/-! ## Records -/

/-- A log record: `record.__dict__`, and what the formatter has of the rest of it. -/
structure LogRecord (O : Type) where
  /-- `created`, as `isoformat` writes it. -/
  ts : Text
  levelname : Text
  name : Text
  /-- `getMessage()`. -/
  message : Text
  attributes : List (Text × Value O)
  /-- `formatException(exc_info)`. -/
  excInfo : Option Text

/-- `_RESERVED`. -/
def reserved : List Text :=
  ["name", "msg", "args", "levelname", "levelno", "pathname", "filename", "module",
    "exc_info", "exc_text", "stack_info", "lineno", "funcName", "created", "msecs",
    "relativeCreated", "thread", "threadName", "processName", "process", "taskName"].map
      String.toList

/-- Whether an attribute is a field of the line. The names of a dictionary are distinct, so that a
name is in the payload already only if it is one of the first four. -/
def isField (key : Text) : Bool :=
  !(reserved.contains key) && !(['_'].isPrefixOf key) &&
    !((["ts", "level", "logger", "message"].map String.toList).contains key)

namespace LogRecord

variable {O : Type} (W : Words) (lower : Text → Text) (str : O → Text) (record : LogRecord O)

/-- The fields that a caller has passed with `extra`. -/
def extra : List (Text × Value O) := record.attributes.filter (isField ·.1)

/-- The members of the line for the message, the fields and the exception. -/
def shown : List (Key × Value O) :=
  (.str "message".toList, .str (redactText W record.message)) ::
    (record.extra.map (fun field => (Key.str field.1, redactValue W lower field.1 field.2)) ++
      record.excInfo.toList.map fun text => (.str "exc_info".toList, .str (redactText W text)))

/-- The payload of `JSONLogFormatter.format`. -/
def payload : List (Key × Value O) :=
  [(.str "ts".toList, .str record.ts), (.str "level".toList, .str record.levelname),
    (.str "logger".toList, .str record.name)] ++ record.shown W lower

/-- `JSONLogFormatter.format`. -/
def format : Text := dumps str (.dict (record.payload W lower))

end LogRecord

/-! ## What is found in JSON -/

section

variable {W : Words} {P : Pattern} {t u v body : Text}

/-- What a pattern asks of the character in front of it. -/
def Opens (W : Words) (P : Pattern) (p : Option Char) : Prop :=
  P.start = .bound → W.chars.isWord p = false

theorem found_iff_lang (hP : P ∈ secretPatterns) : P.found W.chars none t = true ↔
    ∃ pre mid post, t = pre ++ (mid ++ post) ∧ Opens W P (lastOr none pre) ∧ P.Lang mid := by
  simp only [secretPatterns, List.mem_cons, List.not_mem_nil, or_false] at hP
  have hid : ∀ mid : Text, mid.map id = mid := List.map_id
  rcases hP with rfl | rfl | rfl
  · rw [emailRe_shape.found_iff]
    simp only [hid, Opens, emailRe, reduceCtorEq, false_imp_iff]
  · rw [bearerRe_shape.found_iff]
    simp only [hid, Opens, bearerRe, true_imp_iff]
  · rw [apikeyRe_shape.found_iff]
    simp only [hid, Opens, apikeyRe, reduceCtorEq, false_imp_iff]

theorem bare_of_lang (hP : P ∈ secretPatterns) (h : P.Lang t) : ∀ c ∈ t, Bare c := by
  simp only [secretPatterns, List.mem_cons, List.not_mem_nil, or_false] at hP
  rcases hP with rfl | rfl | rfl
  · exact emailRe_bare.of_lang h
  · exact bearerRe_bare.of_lang h
  · exact apikeyRe_bare.of_lang h

theorem ne_nil_of_lang (hP : P ∈ secretPatterns) (h : P.Lang t) : t ≠ [] := by
  rintro rfl
  simp only [secretPatterns, List.mem_cons, List.not_mem_nil, or_false] at hP
  rcases hP with rfl | rfl | rfl
  · exact emailRe_ne_nil h
  · exact bearerRe_ne_nil h
  · exact apikeyRe_ne_nil h

theorem isWord_mark {c : Char} (hc : c ∈ marks) : W.chars.isWord (some c) = false := by
  have hall := List.all_eq_true.mp (by decide : marks.all (fun c => c.toNat < 128 ∧
    (c.isAlphanum || c == '_') = false) = true) c hc
  obtain ⟨hlt, hword⟩ := of_decide_eq_true hall
  exact (W.word_ascii c hlt).trans hword

/-- **A mark cuts what is found**: a secret stands on one side of it. -/
theorem found_cut (hP : P ∈ secretPatterns) {c : Char} (hc : c ∈ marks) :
    P.found W.chars none (u ++ c :: v) = true ↔
      P.found W.chars none u = true ∨ P.found W.chars none v = true := by
  rw [found_iff_lang hP, found_iff_lang hP, found_iff_lang hP]
  constructor
  · rintro ⟨pre, mid, post, heq, hopens, hlang⟩
    have hnot : c ∉ mid := fun hmem => bare_of_lang hP hlang c hmem hc
    rcases List.append_eq_append_iff.mp heq with ⟨x, rfl, hx⟩ | ⟨x, rfl, hx⟩
    · cases x with
      | nil =>
        obtain ⟨d, mid, rfl⟩ := List.exists_cons_of_ne_nil (ne_nil_of_lang hP hlang)
        obtain ⟨rfl, -⟩ := List.cons_eq_cons.mp hx
        exact absurd List.mem_cons_self hnot
      | cons d x =>
        obtain ⟨rfl, rfl⟩ := List.cons_eq_cons.mp hx
        refine .inr ⟨x, mid, post, rfl, fun hbound => ?_, hlang⟩
        have hword := hopens hbound
        rw [lastOr_append, lastOr_cons] at hword
        cases x with
        | nil => rfl
        | cons d x => rwa [lastOr_of_ne_nil (List.cons_ne_nil d x)] at hword ⊢
    · rcases List.append_eq_append_iff.mp hx with ⟨y, rfl, -⟩ | ⟨y, rfl, hy⟩
      · exact .inl ⟨pre, mid, y, rfl, hopens, hlang⟩
      · cases y with
        | nil => exact .inl ⟨pre, x, [], by simp, hopens, by rwa [List.append_nil] at hlang⟩
        | cons d y =>
          obtain ⟨rfl, -⟩ := List.cons_eq_cons.mp hy
          exact absurd (List.mem_append_right x List.mem_cons_self) hnot
  · rintro (⟨pre, mid, post, rfl, hopens, hlang⟩ | ⟨pre, mid, post, rfl, hopens, hlang⟩)
    · exact ⟨pre, mid, post ++ c :: v, by simp, hopens, hlang⟩
    · refine ⟨u ++ c :: pre, mid, post, by simp, fun hbound => ?_, hlang⟩
      have hword := hopens hbound
      rw [lastOr_append, lastOr_cons]
      cases pre with
      | nil => exact isWord_mark hc
      | cons d x => rwa [lastOr_of_ne_nil (List.cons_ne_nil d x)] at hword ⊢

/-- The characters of which each secret has one. -/
def isCalm (c : Char) : Bool := c ∉ ['"', '@', 'b', 'B', 'k']

theorem found_calm (hP : P ∈ secretPatterns) (h : t.all isCalm = true) :
    P.found W.chars none t = false := by
  by_contra hfound
  obtain ⟨pre, mid, post, rfl, -, hlang⟩ := (found_iff_lang hP).mp ((Bool.not_eq_false _).mp hfound)
  have hmid : ∀ c ∈ mid, isCalm c = true := fun c hc =>
    List.all_eq_true.mp h c (List.mem_append_right _ (List.mem_append_left _ hc))
  simp only [secretPatterns, List.mem_cons, List.not_mem_nil, or_false] at hP
  rcases hP with rfl | rfl | rfl
  · obtain ⟨x, d, rfl, -⟩ := lang_emailRe.mp hlang
    exact absurd (hmid '@' (by simp)) (by decide)
  · obtain ⟨c, t', rfl, rfl | rfl⟩ := bearerRe_head hlang
    · exact absurd (hmid 'b' List.mem_cons_self) (by decide)
    · exact absurd (hmid 'B' List.mem_cons_self) (by decide)
  · obtain ⟨x, rfl, -⟩ := lang_apikeyRe.mp hlang
    exact absurd (hmid 'k' (by simp)) (by decide)

/-- A text in which strings are written between quotation marks, and nothing else that could be a
part of a secret. -/
inductive Written : Text → List Text → Prop
  | calm {t : Text} : t.all isCalm = true → Written t []
  | string {u body v : Text} {bodies : List Text} : u.all isCalm = true → Written v bodies →
      Written (u ++ '"' :: (body ++ '"' :: v)) (body :: bodies)

/-- **What is found in JSON** is found in one of its strings. -/
theorem found_written (hP : P ∈ secretPatterns) {bodies : List Text} (h : Written t bodies) :
    P.found W.chars none t = true ↔ ∃ body ∈ bodies, P.found W.chars none body = true := by
  have hquote : '"' ∈ marks := by decide
  induction h with
  | calm hcalm => simp [found_calm hP hcalm]
  | string hcalm _ ih =>
    rw [found_cut hP hquote, found_calm hP hcalm, found_cut hP hquote, List.exists_mem_cons_iff]
    exact (or_iff_right Bool.false_ne_true).trans (or_congr_right ih)

theorem Written.calm_append {bodies : List Text} (hu : u.all isCalm = true)
    (h : Written t bodies) : Written (u ++ t) bodies := by
  cases h with
  | calm ht => exact .calm (by rw [List.all_append, hu, ht]; rfl)
  | @string u' body v bodies hu' hv =>
    rw [← List.append_assoc]
    exact .string (by rw [List.all_append, hu, hu']; rfl) hv

theorem Written.append {bodies bodies' : List Text} (h : Written t bodies)
    (h' : Written v bodies') : Written (t ++ v) (bodies ++ bodies') := by
  induction h with
  | calm hcalm => exact h'.calm_append hcalm
  | string hcalm _ ih =>
    simp only [List.append_assoc, List.cons_append] at ih ⊢
    exact .string hcalm ih

theorem written_jsonString (s : Text) : Written (jsonString s) [escaped s] :=
  @Written.string [] (escaped s) [] [] rfl (.calm rfl)

end

/-! ## The strings of a value -/

section

variable {O : Type} {W : Words} {lower : Text → Text} (str : O → Text)

mutual

/-- The texts that are written as strings. -/
def strings : Value O → List Text
  | .str s => [s]
  | .dict members => stringsMembers members
  | .list items => stringsItems items
  | .tuple items => stringsItems items
  | .obj o => [str o]
  | .none => []
  | .bool _ => []
  | .number _ => []

def stringsMembers : List (Key × Value O) → List Text
  | [] => []
  | (k, v) :: members => k.name :: (strings v ++ stringsMembers members)

def stringsItems : List (Value O) → List Text
  | [] => []
  | v :: items => strings v ++ stringsItems items

end

theorem isCalm_number (n : Number) : n.text.all isCalm = true := by
  refine List.all_eq_true.mpr fun c hc => ?_
  have hnumber := List.all_eq_true.mp n.proper c hc
  refine decide_eq_true fun hmem => ?_
  have hnot := List.all_eq_true.mp
    (by decide : ['"', '@', 'b', 'B', 'k'].all (fun c => !isNumberChar c) = true) c hmem
  rw [hnumber] at hnot
  exact Bool.false_ne_true hnot

mutual

theorem written_dumps : ∀ v : Value O, Written (dumps str v) ((strings str v).map escaped)
  | .none => by rw [dumps, strings]; exact .calm (by decide)
  | .bool true => by rw [dumps, strings]; exact .calm (by decide)
  | .bool false => by rw [dumps, strings]; exact .calm (by decide)
  | .number n => by rw [dumps, strings]; exact .calm (isCalm_number n)
  | .str s => by rw [dumps, strings]; exact written_jsonString s
  | .obj o => by rw [dumps, strings]; exact written_jsonString (str o)
  | .dict members => by
    rw [dumps, strings]
    have hend : Written ['}'] [] := .calm (by decide)
    have hbody := ((written_dumpsMembers members).append hend).calm_append
      (by decide : ['{'].all isCalm = true)
    rwa [List.append_nil] at hbody
  | .list items => by
    rw [dumps, strings]
    have hend : Written [']'] [] := .calm (by decide)
    have hbody := ((written_dumpsItems items).append hend).calm_append
      (by decide : ['['].all isCalm = true)
    rwa [List.append_nil] at hbody
  | .tuple items => by
    rw [dumps, strings]
    have hend : Written [']'] [] := .calm (by decide)
    have hbody := ((written_dumpsItems items).append hend).calm_append
      (by decide : ['['].all isCalm = true)
    rwa [List.append_nil] at hbody

theorem written_dumpsMembers : ∀ members : List (Key × Value O),
    Written (dumpsMembers str members) ((stringsMembers str members).map escaped)
  | [] => by rw [dumpsMembers, stringsMembers]; exact .calm rfl
  | (k, v) :: members => by
    rw [dumpsMembers, stringsMembers, List.map_cons, List.map_append]
    have hrest := written_dumpsMembers members
    have hjoined : Written (if members.isEmpty then [] else [',', ' '] ++ dumpsMembers str members)
        ((stringsMembers str members).map escaped) := by
      cases members with
      | nil => exact .calm rfl
      | cons m members => exact hrest.calm_append (by decide)
    exact (written_jsonString k.name).append
      (((written_dumps v).append hjoined).calm_append (by decide))

theorem written_dumpsItems : ∀ items : List (Value O),
    Written (dumpsItems str items) ((stringsItems str items).map escaped)
  | [] => by rw [dumpsItems, stringsItems]; exact .calm rfl
  | v :: items => by
    rw [dumpsItems, stringsItems, List.map_append]
    have hrest := written_dumpsItems items
    refine (written_dumps v).append ?_
    cases items with
    | nil => exact .calm rfl
    | cons w items => exact hrest.calm_append (by decide)

end

end

/-! ## Secrets that JSON makes -/

/-- A character that is written as it is, or behind a backslash. -/
def isPrintable (c : Char) : Bool := ' ' ≤ c ∧ c ≤ '~'

/-- A text has no secret in it and shows one as JSON: the escape of a character ends in a letter or
a digit, which becomes the local part of an address, and that of a backspace in a `b`. -/
inductive Torn : Text → Prop
  | address (pre d post : Text) {c : Char} : isPrintable c = false → domainRe.Lang d →
      Torn (pre ++ c :: '@' :: (d ++ post))
  | bearer (pre x y post : Text) {c : Char} : x.map fold = "earer".toList → y ≠ [] →
      (∀ d ∈ y, d = ' ') → isTokenChar c = true → Torn (pre ++ '\x08' :: (x ++ (y ++ c :: post)))

/-- The characters behind the last backslash of an escape. -/
def isTailChar (c : Char) : Bool :=
  c.isDigit || c ∈ ['a', 'b', 'c', 'd', 'e', 'f', 'n', 'r', 't', 'u']

/-- What stands behind the last backslash of the escape of a character. -/
structure Tail (c : Char) (tail : Text) : Prop where
  ne_nil : tail ≠ []
  chars : tail.all isTailChar = true
  backspace : ∀ tail', tail = 'b' :: tail' → tail' = [] ∧ c = '\x08'

theorem isTailChar_hex4 (n : ℕ) : (hex4 n).all isTailChar = true := by
  have hdigit : ∀ k, k < 16 → isTailChar (Nat.digitChar k) = true := by decide
  simp [hex4, hdigit _ (Nat.mod_lt _ (by decide : 0 < 16))]

theorem tail_hex4 (c : Char) (n : ℕ) : Tail c ('u' :: hex4 n) where
  ne_nil := List.cons_ne_nil _ _
  chars := by
    rw [List.all_cons, isTailChar_hex4]
    rfl
  backspace tail' h := by simp at h

/-- **The escape** of a character that is not printable. -/
theorem escape_tail {c : Char} (h : isPrintable c = false) : ∃ w tail, Tail c tail ∧
    w.all isTailChar = true ∧
      (escape c = '\\' :: tail ∨ escape c = '\\' :: (w ++ '\\' :: tail)) := by
  unfold escape
  split
  · exact absurd h (by decide)
  · exact absurd h (by decide)
  · exact ⟨[], ['n'], ⟨by simp, by decide, by simp⟩, rfl, .inl rfl⟩
  · exact ⟨[], ['r'], ⟨by simp, by decide, by simp⟩, rfl, .inl rfl⟩
  · exact ⟨[], ['t'], ⟨by simp, by decide, by simp⟩, rfl, .inl rfl⟩
  · exact ⟨[], ['f'], ⟨by simp, by decide, by simp⟩, rfl, .inl rfl⟩
  · exact ⟨[], ['b'], ⟨by simp, by decide, by simp⟩, rfl, .inl rfl⟩
  · split_ifs with hprint
    · exact absurd (decide_eq_true hprint) (by rw [← isPrintable, h]; exact Bool.false_ne_true)
    · exact ⟨[], _, tail_hex4 c _, rfl, .inl rfl⟩
    · refine ⟨_, _, tail_hex4 c _, ?_, .inr rfl⟩
      rw [List.all_cons, isTailChar_hex4]
      rfl

theorem escape_printable {c : Char} (h : isPrintable c = true) (hmark : c ≠ '"' ∧ c ≠ '\\') :
    escape c = [c] := by
  unfold escape
  split
  · exact absurd rfl hmark.1
  · exact absurd rfl hmark.2
  · exact absurd h (by decide)
  · exact absurd h (by decide)
  · exact absurd h (by decide)
  · exact absurd h (by decide)
  · exact absurd h (by decide)
  · exact if_pos (of_decide_eq_true h)

theorem escaped_append (s t : Text) : escaped (s ++ t) = escaped s ++ escaped t :=
  List.flatMap_append

theorem escaped_cons (c : Char) (t : Text) : escaped (c :: t) = escape c ++ escaped t := rfl

/-- A text that JSON does not change. -/
def isRaw (c : Char) : Bool := isPrintable c && c ≠ '"' && c ≠ '\\'

theorem escape_raw {c : Char} (h : isRaw c = true) : escape c = [c] := by
  unfold isRaw at h
  simp only [Bool.and_eq_true, decide_eq_true_eq] at h
  exact escape_printable h.1.1 ⟨h.1.2, h.2⟩

theorem escaped_raw {t : Text} (h : ∀ c ∈ t, isRaw c = true) : escaped t = t := by
  induction t with
  | nil => rfl
  | cons c t ih =>
    obtain ⟨hc, ht⟩ := List.forall_mem_cons.mp h
    rw [escaped_cons, escape_raw hc, ih ht]
    rfl

section

variable {W : Words} {P : Pattern} {t raw tail : Text} {c : Char}

theorem isAlphanum_of_isTailChar (h : isTailChar c = true) : c.isAlphanum = true := by
  rcases Bool.or_eq_true_iff.mp h with hdigit | hletter
  · unfold Char.isAlphanum
    rw [hdigit, Bool.or_true]
  · exact List.all_eq_true.mp
      (by decide : ['a', 'b', 'c', 'd', 'e', 'f', 'n', 'r', 't', 'u'].all Char.isAlphanum = true)
      c (of_decide_eq_true hletter)

theorem isWord_of_isTailChar (h : isTailChar c = true) : W.chars.isWord (some c) = true := by
  have halnum := isAlphanum_of_isTailChar h
  have hrange := toNat_of_isAlphanum halnum
  exact (W.word_ascii c (by omega)).trans (by rw [halnum]; rfl)

/-- An address that begins in the escape: it is one of the text itself, or its local part ends in
the escape. -/
theorem email_tail {x mid post : Text} (hx : ∀ d ∈ x, isTailChar d = true)
    (hmid : mid ++ post = x ++ raw) (hlang : emailRe.Lang mid) :
    (∃ y post', raw = y ++ post' ∧ emailRe.Lang y) ∨
      ∃ d post', raw = '@' :: (d ++ post') ∧ domainRe.Lang d := by
  obtain ⟨loc, d, rfl, -, hloc, hd⟩ := lang_emailRe.mp hlang
  have hat : '@' ∉ x := fun hmem => by
    have hnot := hx '@' hmem
    exact absurd hnot (by decide)
  rw [List.append_assoc, List.cons_append] at hmid
  rcases List.append_eq_append_iff.mp hmid with ⟨y, rfl, hy⟩ | ⟨y, rfl, hy⟩
  · cases y with
    | nil => exact .inr ⟨d, post, hy.symm, hd⟩
    | cons e y =>
      obtain ⟨rfl, -⟩ := List.cons_eq_cons.mp hy
      exact absurd (List.mem_append_right loc List.mem_cons_self) hat
  · cases y with
    | nil => exact .inr ⟨d, post, hy, hd⟩
    | cons e y =>
      refine .inl ⟨(e :: y) ++ '@' :: d, post, by rw [hy]; simp, lang_emailRe.mpr
        ⟨e :: y, d, rfl, List.cons_ne_nil e y, fun c hc => hloc c ?_, hd⟩⟩
      exact List.mem_append_right x hc

theorem toNat_of_isRaw (h : isRaw c = true) : 32 ≤ c.toNat ∧ c.toNat ≤ 126 := by
  unfold isRaw isPrintable at h
  simp only [Bool.and_eq_true, decide_eq_true_eq, Char.le_def, UInt32.le_iff_toNat_le] at h
  exact h.1.1

theorem eq_of_isSpace (h : isRaw c = true) (hspace : PyStr.isSpace c = true) : c = ' ' := by
  obtain ⟨hle, hle'⟩ := toNat_of_isRaw h
  by_contra hne
  have hnat : c.toNat ≠ 32 := fun heq => hne (Char.toNat_inj.mp heq)
  rw [PyStr.isSpace_eq_false (by omega) hle'] at hspace
  exact Bool.false_ne_true hspace

theorem isAlphanum_of_range (h : 65 ≤ c.toNat ∧ c.toNat ≤ 90 ∨ 97 ≤ c.toNat ∧ c.toNat ≤ 122) :
    c.isAlphanum = true :=
  isAlphanum_iff.mpr (.inl h)

theorem isTokenChar_fold (h : isRaw c = true) :
    isTokenChar (fold c) = true ↔ isTokenChar c = true := by
  have hrange := toNat_of_isRaw h
  have hfold : fold c = c.toLower := by
    unfold fold
    rw [if_neg, if_neg, if_neg]
    · rintro (rfl | rfl)
      · exact absurd hrange.2 (by decide)
      · exact absurd hrange.2 (by decide)
    · rintro rfl
      exact absurd hrange.2 (by decide)
    · rintro rfl
      exact absurd hrange.2 (by decide)
  have hlower := PyStr.toNat_toLower c
  split_ifs at hlower with hupper
  · have hsmall : c.toLower.isAlphanum = true := isAlphanum_of_range (.inr (by omega))
    rw [hfold, isTokenChar, isTokenChar, hsmall, isAlphanum_of_range (.inl hupper), Bool.true_or,
      Bool.true_or]
  · rw [hfold, Char.toNat_inj.mp hlower]

/-- A bearer token that begins with the escape of a backspace. -/
theorem torn_bearer {mid post : Text} (hraw : ∀ d ∈ raw, isRaw d = true)
    (hmid : mid ++ post = raw) (hlang : bearerRe.Lang ('b' :: mid)) : Torn ('\x08' :: raw) := by
  obtain ⟨x, y, z, heq, hx, hy, hspaces, hz, htokens⟩ := lang_bearerRe.mp hlang
  obtain ⟨b, x, rfl, -, hearer⟩ := List.map_eq_cons_iff.mp hx
  rw [List.cons_append, List.cons_append] at heq
  obtain ⟨rfl, rfl⟩ := List.cons_eq_cons.mp heq
  obtain ⟨c, z, rfl⟩ := List.exists_cons_of_ne_nil hz
  have hsplit : raw = x ++ (y ++ c :: (z ++ post)) := by
    rw [← hmid]
    simp
  have hin : ∀ d ∈ y ++ [c], isRaw d = true := fun d hd => hraw d (by
    rw [hsplit]
    rcases List.mem_append.mp hd with hd | hd
    · exact List.mem_append_right x (List.mem_append_left _ hd)
    · simp [List.mem_singleton.mp hd])
  rw [hsplit]
  refine .bearer [] x y (z ++ post) hearer hy (fun d hd => ?_) ?_
  · exact eq_of_isSpace (hin d (List.mem_append_left _ hd)) (hspaces d hd)
  · exact (isTokenChar_fold (hin c (by simp))).mp (htokens c List.mem_cons_self)

/-- What is found behind a backslash: a secret of the text itself, or one that begins in the
escape. -/
theorem found_tail (hP : P ∈ secretPatterns) (htail : Tail c tail) (hc : isPrintable c = false)
    (hraw : ∀ d ∈ raw, isRaw d = true) (h : P.found W.chars none (tail ++ raw) = true) :
    (∃ pre mid post, raw = pre ++ (mid ++ post) ∧ P.Lang mid ∧
      ∀ q, Opens W P (lastOr q pre)) ∨ Torn (c :: raw) := by
  obtain ⟨pre, mid, post, heq, hopens, hlang⟩ := (found_iff_lang hP).mp h
  have hchars := List.all_eq_true.mp htail.chars
  have hlater : ∀ x, pre = tail ++ x → raw = x ++ (mid ++ post) → ∃ pre mid post,
      raw = pre ++ (mid ++ post) ∧ P.Lang mid ∧ ∀ q, Opens W P (lastOr q pre) := by
    rintro x rfl hx
    refine ⟨x, mid, post, hx, hlang, fun q hbound => ?_⟩
    have hword := hopens hbound
    rw [lastOr_append] at hword
    cases x with
    | nil =>
      rw [lastOr_nil, lastOr_of_ne_nil htail.ne_nil,
        List.getLast?_eq_some_getLast htail.ne_nil] at hword
      rw [isWord_of_isTailChar (hchars _ (List.getLast_mem htail.ne_nil))] at hword
      exact absurd hword.symm Bool.false_ne_true
    | cons d x => rwa [lastOr_of_ne_nil (List.cons_ne_nil d x)] at hword ⊢
  rcases List.append_eq_append_iff.mp heq with ⟨x, hpre, hx⟩ | ⟨x, hx, hmid⟩
  · exact .inl (hlater x hpre hx)
  · cases x with
    | nil =>
      rw [List.append_nil] at hx
      exact .inl (hlater [] (by rw [hx, List.append_nil]) hmid.symm)
    | cons e x =>
      have he : isTailChar e = true := hchars e (by simp [hx])
      simp only [secretPatterns, List.mem_cons, List.not_mem_nil, or_false] at hP
      rcases hP with rfl | rfl | rfl
      · have hx' : ∀ d ∈ e :: x, isTailChar d = true := fun d hd =>
          hchars d (by rw [hx]; exact List.mem_append_right pre hd)
        rcases email_tail hx' hmid hlang with ⟨y, post', rfl, hy⟩ | ⟨d, post', rfl, hd⟩
        · exact .inl ⟨[], y, post', rfl, hy, fun q hbound => absurd hbound (by simp [emailRe])⟩
        · exact .inr (.address [] d post' hc hd)
      · obtain ⟨b, mid', rfl, hb⟩ := bearerRe_head hlang
        obtain ⟨rfl, hrest⟩ := List.cons_eq_cons.mp hmid
        rcases hb with rfl | rfl
        · -- No letter of the escape stands before it, so that the escape is that of a backspace.
          have hpre : pre = [] := by
            by_contra hne
            have hword := hopens rfl
            rw [lastOr_of_ne_nil hne, List.getLast?_eq_some_getLast hne,
              isWord_of_isTailChar (hchars _ (by simp [hx]))] at hword
            exact Bool.false_ne_true hword.symm
          rw [hpre, List.nil_append] at hx
          obtain ⟨rfl, rfl⟩ := htail.backspace x hx
          exact .inr (torn_bearer hraw hrest hlang)
        · exact absurd he (by decide)
      · obtain ⟨y, rfl, -⟩ := lang_apikeyRe.mp hlang
        obtain ⟨rfl, -⟩ := List.cons_eq_cons.mp hmid
        exact absurd he (by decide)

theorem Torn.append {s : Text} (h : Torn s) (pre post : Text) : Torn (pre ++ (s ++ post)) := by
  cases h with
  | address pre' d post' hc hd =>
    have hshape := Torn.address (pre ++ pre') d (post' ++ post) hc hd
    simpa using hshape
  | bearer pre' x y post' hx hy hspaces hc =>
    have hshape := Torn.bearer (pre ++ pre') x y (post' ++ post) hx hy hspaces hc
    simpa using hshape

/-- What is found in a text from some place on is found in it. -/
theorem found_of_lang (hP : P ∈ secretPatterns) {s before pre mid post : Text}
    (hs : s = before ++ (pre ++ (mid ++ post))) (hlang : P.Lang mid)
    (hopens : ∀ q, Opens W P (lastOr q pre)) : P.found W.chars none s = true := by
  refine (found_iff_lang hP).mpr ⟨before ++ pre, mid, post, by rw [hs, List.append_assoc], ?_,
    hlang⟩
  rw [lastOr_append]
  exact hopens _

/-- The place behind the last backslash of a text as JSON: what stands there of an escape, and the
text from there on. -/
inductive Front (s : Text) : Text → Text → Prop
  | start : Front s [] s
  | mark {before rest : Text} {m : Char} : m ∈ marks → s = before ++ m :: rest → Front s [] rest
  | tail {before rest tail : Text} {c : Char} : isPrintable c = false → Tail c tail →
      s = before ++ c :: rest → Front s tail rest

theorem Front.exists_append {s front rest : Text} (h : Front s front rest) :
    ∃ before, s = before ++ rest := by
  cases h with
  | start => exact ⟨[], rfl⟩
  | mark _ hs => exact ⟨_ ++ [_], by rw [hs, List.append_assoc]; rfl⟩
  | tail _ _ hs => exact ⟨_ ++ [_], by rw [hs, List.append_assoc]; rfl⟩

theorem found_append (hP : P ∈ secretPatterns) (h : P.found W.chars none raw = true) (t : Text) :
    P.found W.chars none (raw ++ t) = true := by
  obtain ⟨pre, mid, post, rfl, hopens, hlang⟩ := (found_iff_lang hP).mp h
  exact (found_iff_lang hP).mpr ⟨pre, mid, post ++ t, by simp, hopens, hlang⟩

theorem Front.found {s front : Text} (hP : P ∈ secretPatterns) (h : Front s front (raw ++ t))
    (hraw : ∀ d ∈ raw, isRaw d = true) (hfound : P.found W.chars none (front ++ raw) = true) :
    P.found W.chars none s = true ∨ Torn s := by
  cases h with
  | start => exact .inl (found_append hP hfound t)
  | mark hm hs =>
    rw [hs]
    exact .inl ((found_cut hP hm).mpr (.inr (found_append hP hfound t)))
  | @tail before _ _ c hc htail hs =>
    rcases found_tail hP htail hc hraw hfound with ⟨pre, mid, post, rfl, hlang, hopens⟩ | htorn
    · have hsplit : s = (before ++ [c]) ++ (pre ++ (mid ++ (post ++ t))) := by simp [hs]
      exact .inl (found_of_lang hP hsplit hlang hopens)
    · have hlong := htorn.append before t
      rw [hs]
      exact .inr (by simpa using hlong)

/-- There is no secret in the characters of an escape. -/
theorem found_tailChars (hP : P ∈ secretPatterns) {w : Text} (hw : w.all isTailChar = true) :
    P.found W.chars none w = false := by
  by_contra hfound
  obtain ⟨pre, mid, post, rfl, -, hlang⟩ := (found_iff_lang hP).mp ((Bool.not_eq_false _).mp hfound)
  have hmid : ∀ c ∈ mid, isTailChar c = true := fun c hc =>
    List.all_eq_true.mp hw c (List.mem_append_right _ (List.mem_append_left _ hc))
  simp only [secretPatterns, List.mem_cons, List.not_mem_nil, or_false] at hP
  rcases hP with rfl | rfl | rfl
  · obtain ⟨x, d, rfl, -⟩ := lang_emailRe.mp hlang
    exact absurd (hmid '@' (by simp)) (by decide)
  · obtain ⟨c, hc, hspace⟩ := tell_bearerRe mid hlang
    have hrange := toNat_of_isAlphanum (isAlphanum_of_isTailChar (hmid c hc))
    rw [PyStr.isSpace_eq_false (by omega) (by omega)] at hspace
    exact Bool.false_ne_true hspace
  · obtain ⟨x, rfl, -⟩ := lang_apikeyRe.mp hlang
    exact absurd (hmid 'm' (by simp)) (by decide)

/-- **What is found in a text as JSON** is found in the text, or the text is torn. -/
theorem found_escaped (hP : P ∈ secretPatterns) {s : Text} : ∀ (t front raw : Text),
    Front s front (raw ++ t) → (∀ d ∈ raw, isRaw d = true) →
      P.found W.chars none (front ++ (raw ++ escaped t)) = true →
        P.found W.chars none s = true ∨ Torn s := by
  have hback : '\\' ∈ marks := by decide
  intro t
  induction t with
  | nil =>
    intro front raw h hraw hfound
    rw [escaped, List.flatMap_nil, List.append_nil] at hfound
    exact h.found hP hraw hfound
  | cons d t ih =>
    intro front raw h hraw hfound
    obtain ⟨before, hs⟩ := h.exists_append
    have hs' : s = (before ++ raw) ++ d :: t := by rw [hs, List.append_assoc]
    rw [escaped_cons] at hfound
    by_cases hd : isRaw d = true
    · rw [escape_raw hd] at hfound
      refine ih front (raw ++ [d]) (by simpa using h) ?_ (by simpa using hfound)
      exact List.forall_mem_append.mpr ⟨hraw, List.forall_mem_singleton.mpr hd⟩
    · by_cases hprint : isPrintable d = true
      · -- A quotation mark or a backslash stands in both texts.
        have hmark : d ∈ marks ∧ escape d = ['\\', d] := by
          by_cases hquote : d = '"'
          · rw [hquote]
            decide
          · by_cases hslash : d = '\\'
            · rw [hslash]
              decide
            · exact absurd (by simp [isRaw, hprint, hquote, hslash]) hd
        have hcut :
            P.found W.chars none ((front ++ raw) ++ '\\' :: ([] ++ d :: escaped t)) = true := by
          simpa [hmark.2] using hfound
        rcases (found_cut hP hback).mp hcut with hfront | hrest
        · exact h.found hP hraw hfront
        · rcases (found_cut hP hmark.1).mp hrest with hnil | hrest
          · exact absurd hnil Bool.false_ne_true
          · exact ih [] [] (.mark hmark.1 hs') (by simp) hrest
      · have hprint := (Bool.not_eq_true _).mp hprint
        obtain ⟨w, tail, htail, hw, hescape⟩ := escape_tail hprint
        have hnext := ih tail [] (.tail hprint htail hs') (by simp)
        rcases hescape with hescape | hescape
        · have hcut :
              P.found W.chars none ((front ++ raw) ++ '\\' :: (tail ++ escaped t)) = true := by
            simpa [hescape] using hfound
          rcases (found_cut hP hback).mp hcut with hfront | hrest
          · exact h.found hP hraw hfront
          · exact hnext hrest
        · have hcut : P.found W.chars none
              ((front ++ raw) ++ '\\' :: (w ++ '\\' :: (tail ++ escaped t))) = true := by
            simpa [hescape] using hfound
          rcases (found_cut hP hback).mp hcut with hfront | hrest
          · exact h.found hP hraw hfront
          · rcases (found_cut hP hback).mp hrest with hw' | hrest
            · rw [found_tailChars hP hw] at hw'
              exact absurd hw' Bool.false_ne_true
            · exact hnext hrest

theorem isRaw_of_isAlphanum (h : c.isAlphanum = true) : isRaw c = true := by
  have hrange := toNat_of_isAlphanum h
  have hprint : isPrintable c = true := by
    refine decide_eq_true ⟨?_, ?_⟩
    · rw [Char.le_def, UInt32.le_iff_toNat_le]
      change 32 ≤ c.toNat
      omega
    · rw [Char.le_def, UInt32.le_iff_toNat_le]
      change c.toNat ≤ 126
      omega
  have hquote : c ≠ '"' := by
    rintro rfl
    exact absurd h (by decide)
  have hslash : c ≠ '\\' := by
    rintro rfl
    exact absurd h (by decide)
  simp [isRaw, hprint, hquote, hslash]

theorem isRaw_of_class {p : Char → Bool} (others : List Char)
    (hp : ∀ c, p c = true → c.isAlphanum = true ∨ c ∈ others) (hothers : others.all isRaw = true)
    (c : Char) (hc : p c = true) : isRaw c = true :=
  (hp c hc).elim isRaw_of_isAlphanum (List.all_eq_true.mp hothers c)

theorem domainRe_raw : domainRe.All fun c => isRaw c = true := by
  refine ⟨isRaw_of_class ['.', '-'] ?_ (by decide), ?_, ?_⟩
  · intro c hc
    exact (Bool.or_eq_true_iff.mp hc).imp_right of_decide_eq_true
  · intro c hc
    rw [beq_iff_eq.mp hc]
    decide
  · intro c hc
    exact isRaw_of_isAlphanum (by rw [Char.isAlphanum, hc]; rfl)

/-- What a text shows as JSON. -/
def Shows (W : Words) (s : Text) : Prop :=
  ∃ P ∈ secretPatterns, P.found W.chars none (escaped s) = true

theorem escape_last (h : isPrintable c = false) :
    ∃ w e, escape c = w ++ [e] ∧ isLocalChar e = true := by
  obtain ⟨w, tail, htail, -, hescape⟩ := escape_tail h
  obtain ⟨init, e, rfl⟩ := List.eq_nil_or_concat'  tail |>.resolve_left htail.ne_nil
  have he : isLocalChar e = true := by
    rw [isLocalChar, isAlphanum_of_isTailChar (List.all_eq_true.mp htail.chars e (by simp))]
    rfl
  rcases hescape with hescape | hescape
  · exact ⟨'\\' :: init, e, by rw [hescape]; rfl, he⟩
  · exact ⟨'\\' :: (w ++ '\\' :: init), e, by rw [hescape]; simp, he⟩

theorem shows_of_torn {s : Text} (h : Torn s) : Shows W s := by
  cases h with
  | @address pre d post c hc hd =>
    obtain ⟨w, e, hescape, he⟩ := escape_last hc
    refine ⟨emailRe, by simp [secretPatterns], (found_iff_lang (by simp [secretPatterns])).mpr
      ⟨escaped pre ++ w, e :: '@' :: d, escaped post, ?_, fun hbound => ?_, ?_⟩⟩
    · simp [escaped_append, escaped_cons, hescape, escaped_raw (domainRe_raw.of_lang hd),
        escape_raw (by decide : isRaw '@' = true)]
    · exact absurd hbound (by simp [emailRe])
    · exact lang_emailRe.mpr ⟨[e], d, rfl, by simp, List.forall_mem_singleton.mpr he, hd⟩
  | @bearer pre x y post c hx hy hspaces hc =>
    have hxraw : ∀ d ∈ x, isRaw d = true := fun d hd => by
      have hmem : fold d ∈ "earer".toList := hx ▸ List.mem_map_of_mem hd
      have hletter := List.all_eq_true.mp (by decide : "earer".toList.all (fun e =>
        e ∉ ['s', 'k', 'i'] ∧ 97 ≤ e.toNat ∧ e.toNat ≤ 122) = true) _ hmem
      obtain ⟨hfold, hrange⟩ := of_decide_eq_true hletter
      refine isRaw_of_isAlphanum (isAlphanum_of_range ?_)
      rcases eq_or_of_fold rfl hfold with heq | heq
      · rw [heq]
        exact .inr hrange
      · omega
    have hyraw : ∀ d ∈ y, isRaw d = true := fun d hd => by
      rw [hspaces d hd]
      decide
    have hcraw : isRaw c = true := isRaw_of_class ['.', '_', '-']
      (fun c hc => (Bool.or_eq_true_iff.mp hc).imp_right of_decide_eq_true) (by decide) c hc
    refine ⟨bearerRe, by simp [secretPatterns], (found_iff_lang (by simp [secretPatterns])).mpr
      ⟨escaped pre ++ ['\\'], ('b' :: x) ++ y ++ [c], escaped post, ?_, fun _ => ?_, ?_⟩⟩
    · have hb : escape '\x08' = ['\\', 'b'] := rfl
      simp [escaped_append, escaped_cons, hb, escaped_raw hxraw, escaped_raw hyraw,
        escape_raw hcraw]
    · rw [lastOr_append]
      exact isWord_mark (by decide)
    · refine lang_bearerRe.mpr ⟨'b' :: x, y, [c], rfl, ?_, hy, fun d hd => ?_, by simp, ?_⟩
      · rw [List.map_cons, hx]
        rfl
      · rw [hspaces d hd]
        decide
      · exact List.forall_mem_singleton.mpr ((isTokenChar_fold hcraw).mpr hc)

/-- **A text without a secret** shows one as JSON exactly when it is torn. -/
theorem shows_iff {s : Text} (h : ∀ P ∈ secretPatterns, P.found W.chars none s = false) :
    Shows W s ↔ Torn s := by
  refine ⟨?_, shows_of_torn⟩
  rintro ⟨P, hP, hfound⟩
  have hnot : ¬ P.found W.chars none s = true := by rw [h P hP]; exact Bool.false_ne_true
  exact (found_escaped hP s [] [] .start (by simp) hfound).resolve_left hnot

end

/-! ## What is shown of a value -/

section

variable {O : Type} {W : Words} (lower : Text → Text) (str : O → Text)

mutual

/-- The texts of a value that are shown as they are: names of members, and the texts of objects. -/
def plain : Value O → List Text
  | .dict members => plainMembers members
  | .list items => plainItems items
  | .tuple items => plainItems items
  | .obj o => [str o]
  | .str _ => []
  | .none => []
  | .bool _ => []
  | .number _ => []

def plainMembers : List (Key × Value O) → List Text
  | [] => []
  | (k, v) :: members =>
    k.name :: ((if isSensitiveKey lower k.text then [] else plain v) ++ plainMembers members)

def plainItems : List (Value O) → List Text
  | [] => []
  | v :: items => plain v ++ plainItems items

end

mutual

/-- The texts of a value that are masked. -/
def masked : Value O → List Text
  | .str s => [s]
  | .dict members => maskedMembers members
  | .list items => maskedItems items
  | .tuple items => maskedItems items
  | .obj _ => []
  | .none => []
  | .bool _ => []
  | .number _ => []

def maskedMembers : List (Key × Value O) → List Text
  | [] => []
  | (k, v) :: members =>
    (if isSensitiveKey lower k.text then [] else masked v) ++ maskedMembers members

def maskedItems : List (Value O) → List Text
  | [] => []
  | v :: items => masked v ++ maskedItems items

end

variable {lower str} {p : Text → Prop}

theorem exists_append {l l' : List Text} :
    (∃ s ∈ l ++ l', p s) ↔ (∃ s ∈ l, p s) ∨ ∃ s ∈ l', p s := by
  simp only [List.mem_append, or_and_right, exists_or]

mutual

/-- **What is shown of a value**: what is plain, and the masked texts. -/
theorem strings_scrub (hp : ¬ p redacted) : ∀ v : Value O,
    (∃ s ∈ strings str (scrub W lower v), p s) ↔
      (∃ s ∈ plain lower str v, p s) ∨ ∃ t ∈ masked lower v, p (redactText W t)
  | .none => by simp [scrub, strings, plain, masked]
  | .bool _ => by simp [scrub, strings, plain, masked]
  | .number _ => by simp [scrub, strings, plain, masked]
  | .str s => by simp [scrub, strings, plain, masked]
  | .obj o => by simp [scrub, strings, plain, masked]
  | .dict members => by
    rw [scrub, strings, plain, masked]
    exact strings_scrubMembers hp members
  | .list items => by
    rw [scrub, strings, plain, masked]
    exact strings_scrubItems hp items
  | .tuple items => by
    rw [scrub, strings, plain, masked]
    exact strings_scrubItems hp items

theorem strings_scrubMembers (hp : ¬ p redacted) : ∀ members : List (Key × Value O),
    (∃ s ∈ stringsMembers str (scrubMembers W lower members), p s) ↔
      (∃ s ∈ plainMembers lower str members, p s) ∨
        ∃ t ∈ maskedMembers lower members, p (redactText W t)
  | [] => by simp [scrubMembers, stringsMembers, plainMembers, maskedMembers]
  | (k, v) :: members => by
    rw [scrubMembers, stringsMembers, plainMembers, maskedMembers, List.exists_mem_cons_iff,
      List.exists_mem_cons_iff, exists_append, exists_append, exists_append,
      strings_scrubMembers hp members]
    split_ifs
    · have hhidden : ¬ ∃ s ∈ strings str (.str redacted : Value O), p s := by
        simpa [strings] using hp
      simp only [hhidden, List.not_mem_nil, false_and, exists_false, false_or]
      exact or_assoc.symm
    · rw [strings_scrub hp v, or_or_or_comm]
      exact or_assoc.symm

theorem strings_scrubItems (hp : ¬ p redacted) : ∀ items : List (Value O),
    (∃ s ∈ stringsItems str (scrubItems W lower items), p s) ↔
      (∃ s ∈ plainItems lower str items, p s) ∨
        ∃ t ∈ maskedItems lower items, p (redactText W t)
  | [] => by simp [scrubItems, stringsItems, plainItems, maskedItems]
  | v :: items => by
    rw [scrubItems, stringsItems, plainItems, maskedItems, exists_append, exists_append,
      exists_append, strings_scrub hp v, strings_scrubItems hp items, or_or_or_comm]

end

end

/-! ## What is hidden of a value -/

/-- The name is sensitive, or it ends in a sensitive one behind `_`, `-` or `.`: a name whose value
is promised to be hidden. -/
def isPromised (lower : Text → Text) (key : Text) : Bool :=
  exactSensitive.any fun name =>
    lower key = name || ['_', '-', '.'].any fun d => (d :: name).isSuffixOf (lower key)

/-- Objects: what `str` makes of them, and which differ only in what they store under promised
names. -/
structure Objects (O : Type) where
  str : O → Text
  alike : O → O → Prop
  alike_refl : ∀ o, alike o o

section

variable {O : Type} (W : Words) (lower : Text → Text) (objects : Objects O)

mutual

/-- The values differ only in what they store under promised names. -/
def Alike : Value O → Value O → Prop
  | .dict members, .dict members' => AlikeMembers members members'
  | .list items, .list items' => AlikeItems items items'
  | .tuple items, .tuple items' => AlikeItems items items'
  | .obj o, .obj o' => objects.alike o o'
  | .none, .none => True
  | .bool b, .bool b' => b = b'
  | .number n, .number n' => n = n'
  | .str s, .str s' => s = s'
  | _, _ => False

def AlikeMembers : List (Key × Value O) → List (Key × Value O) → Prop
  | [], [] => True
  | (k, v) :: members, (k', v') :: members' =>
    k = k' ∧ (isPromised lower k.text = true ∨ Alike v v') ∧ AlikeMembers members members'
  | _, _ => False

def AlikeItems : List (Value O) → List (Value O) → Prop
  | [], [] => True
  | v :: items, v' :: items' => Alike v v' ∧ AlikeItems items items'
  | _, _ => False

end

mutual

/-- Every promised name that is reached is a sensitive key, and the text of every object that is
reached says nothing of what it stores under one. -/
def Covered : Value O → Prop
  | .dict members => CoveredMembers members
  | .list items => CoveredItems items
  | .tuple items => CoveredItems items
  | .obj o => ∀ o', objects.alike o o' → objects.str o' = objects.str o
  | .none => True
  | .bool _ => True
  | .number _ => True
  | .str _ => True

def CoveredMembers : List (Key × Value O) → Prop
  | [] => True
  | (k, v) :: members => (isSensitiveKey lower k.text = true ∨
      isPromised lower k.text = false ∧ Covered v) ∧ CoveredMembers members

def CoveredItems : List (Value O) → Prop
  | [] => True
  | v :: items => Covered v ∧ CoveredItems items

end

variable {W lower objects}

mutual

theorem alike_refl : ∀ v : Value O, Alike lower objects v v
  | .none => by rw [Alike]; trivial
  | .bool _ => by rw [Alike]
  | .number _ => by rw [Alike]
  | .str _ => by rw [Alike]
  | .obj o => by rw [Alike]; exact objects.alike_refl o
  | .dict members => by rw [Alike]; exact alikeMembers_refl members
  | .list items => by rw [Alike]; exact alikeItems_refl items
  | .tuple items => by rw [Alike]; exact alikeItems_refl items

theorem alikeMembers_refl : ∀ members : List (Key × Value O),
    AlikeMembers lower objects members members
  | [] => by rw [AlikeMembers]; trivial
  | (k, v) :: members => by
    rw [AlikeMembers]
    exact ⟨rfl, .inr (alike_refl v), alikeMembers_refl members⟩

theorem alikeItems_refl : ∀ items : List (Value O), AlikeItems lower objects items items
  | [] => by rw [AlikeItems]; trivial
  | v :: items => by
    rw [AlikeItems]
    exact ⟨alike_refl v, alikeItems_refl items⟩

end

mutual

/-- What is covered is hidden. -/
theorem dumps_of_covered : ∀ v v' : Value O, Covered lower objects v → Alike lower objects v v' →
    dumps objects.str (scrub W lower v') = dumps objects.str (scrub W lower v)
  | .dict members, v', hcovered, h => by
    cases v' with
    | dict members' =>
      rw [Covered] at hcovered
      rw [Alike] at h
      rw [scrub, scrub, dumps, dumps, (dumpsMembers_of_covered members members' hcovered h).1]
    | _ => simp [Alike] at h
  | .list items, v', hcovered, h => by
    cases v' with
    | list items' =>
      rw [Covered] at hcovered
      rw [Alike] at h
      rw [scrub, scrub, dumps, dumps, (dumpsItems_of_covered items items' hcovered h).1]
    | _ => simp [Alike] at h
  | .tuple items, v', hcovered, h => by
    cases v' with
    | tuple items' =>
      rw [Covered] at hcovered
      rw [Alike] at h
      rw [scrub, scrub, dumps, dumps, (dumpsItems_of_covered items items' hcovered h).1]
    | _ => simp [Alike] at h
  | .obj o, v', hcovered, h => by
    cases v' with
    | obj o' =>
      rw [Covered] at hcovered
      rw [Alike] at h
      rw [scrub, scrub, dumps, dumps, hcovered o' h]
    | _ => simp [Alike] at h
  | .none, v', _, h => by
    cases v' with
    | none => rfl
    | _ => simp [Alike] at h
  | .bool b, v', _, h => by
    cases v' with
    | bool b' =>
      rw [Alike] at h
      rw [h]
    | _ => simp [Alike] at h
  | .number n, v', _, h => by
    cases v' with
    | number n' =>
      rw [Alike] at h
      rw [h]
    | _ => simp [Alike] at h
  | .str s, v', _, h => by
    cases v' with
    | str s' =>
      rw [Alike] at h
      rw [h]
    | _ => simp [Alike] at h

theorem dumpsMembers_of_covered : ∀ members members' : List (Key × Value O),
    CoveredMembers lower objects members → AlikeMembers lower objects members members' →
      dumpsMembers objects.str (scrubMembers W lower members') =
        dumpsMembers objects.str (scrubMembers W lower members) ∧
      (scrubMembers W lower members').isEmpty = (scrubMembers W lower members).isEmpty
  | [], [], _, _ => ⟨rfl, rfl⟩
  | [], _ :: _, _, h => by simp [AlikeMembers] at h
  | _ :: _, [], _, h => by simp [AlikeMembers] at h
  | (k, v) :: members, (k', v') :: members', hcovered, h => by
    rw [CoveredMembers] at hcovered
    rw [AlikeMembers] at h
    obtain ⟨rfl, hvalue, hmembers⟩ := h
    obtain ⟨hrest, hempty⟩ := dumpsMembers_of_covered members members' hcovered.2 hmembers
    have hshown : dumps objects.str
        (if isSensitiveKey lower k.text then .str redacted else scrub W lower v') =
          dumps objects.str
            (if isSensitiveKey lower k.text then .str redacted else scrub W lower v) := by
      by_cases hkey : isSensitiveKey lower k.text = true
      · rw [if_pos hkey, if_pos hkey]
      · obtain ⟨hpromised, hv⟩ := hcovered.1.resolve_left hkey
        rw [hpromised] at hvalue
        rw [if_neg hkey, if_neg hkey,
          dumps_of_covered v v' hv (hvalue.resolve_left Bool.false_ne_true)]
    rw [scrubMembers, scrubMembers, dumpsMembers, dumpsMembers, hrest, hempty, hshown]
    exact ⟨rfl, rfl⟩

theorem dumpsItems_of_covered : ∀ items items' : List (Value O),
    CoveredItems lower objects items → AlikeItems lower objects items items' →
      dumpsItems objects.str (scrubItems W lower items') =
        dumpsItems objects.str (scrubItems W lower items) ∧
      (scrubItems W lower items').isEmpty = (scrubItems W lower items).isEmpty
  | [], [], _, _ => ⟨rfl, rfl⟩
  | [], _ :: _, _, h => by simp [AlikeItems] at h
  | _ :: _, [], _, h => by simp [AlikeItems] at h
  | v :: items, v' :: items', hcovered, h => by
    rw [CoveredItems] at hcovered
    rw [AlikeItems] at h
    obtain ⟨hrest, hempty⟩ := dumpsItems_of_covered items items' hcovered.2 h.2
    rw [scrubItems, scrubItems, dumpsItems, dumpsItems, hrest, hempty,
      dumps_of_covered v v' hcovered.1 h.1]
    exact ⟨rfl, rfl⟩

end

/-- Every value can be told from another one. -/
theorem exists_other (v : Value O) : ∃ v' : Value O,
    dumps objects.str (scrub W lower v') ≠ dumps objects.str (scrub W lower v) := by
  by_cases h : dumps objects.str (scrub W lower v) = "null".toList
  · refine ⟨.bool true, ?_⟩
    rw [h, scrub, dumps]
    decide
  · refine ⟨.none, ?_⟩
    rw [scrub, dumps]
    exact Ne.symm h

mutual

/-- What is not covered shows a difference. -/
theorem exists_of_not_covered : ∀ v : Value O, ¬ Covered lower objects v →
    ∃ v', Alike lower objects v v' ∧
      dumps objects.str (scrub W lower v') ≠ dumps objects.str (scrub W lower v)
  | .none, h => absurd (by rw [Covered]; trivial) h
  | .bool _, h => absurd (by rw [Covered]; trivial) h
  | .number _, h => absurd (by rw [Covered]; trivial) h
  | .str _, h => absurd (by rw [Covered]; trivial) h
  | .obj o, h => by
    rw [Covered] at h
    push Not at h
    obtain ⟨o', halike, hne⟩ := h
    refine ⟨.obj o', by rwa [Alike], fun heq => hne ?_⟩
    rw [scrub, scrub, dumps, dumps] at heq
    exact jsonString_injective heq
  | .dict members, h => by
    rw [Covered] at h
    obtain ⟨members', halike, hne, -⟩ := exists_of_not_coveredMembers members h
    refine ⟨.dict members', by rwa [Alike], fun heq => hne ?_⟩
    rw [scrub, scrub, dumps, dumps] at heq
    exact List.append_cancel_right (List.cons.inj heq).2
  | .list items, h => by
    rw [Covered] at h
    obtain ⟨items', halike, hne, -⟩ := exists_of_not_coveredItems items h
    refine ⟨.list items', by rwa [Alike], fun heq => hne ?_⟩
    rw [scrub, scrub, dumps, dumps] at heq
    exact List.append_cancel_right (List.cons.inj heq).2
  | .tuple items, h => by
    rw [Covered] at h
    obtain ⟨items', halike, hne, -⟩ := exists_of_not_coveredItems items h
    refine ⟨.tuple items', by rwa [Alike], fun heq => hne ?_⟩
    rw [scrub, scrub, dumps, dumps] at heq
    exact List.append_cancel_right (List.cons.inj heq).2

theorem exists_of_not_coveredMembers : ∀ members : List (Key × Value O),
    ¬ CoveredMembers lower objects members →
      ∃ members', AlikeMembers lower objects members members' ∧
      dumpsMembers objects.str (scrubMembers W lower members') ≠
        dumpsMembers objects.str (scrubMembers W lower members) ∧
      (scrubMembers W lower members').isEmpty = (scrubMembers W lower members).isEmpty
  | [], h => absurd (by rw [CoveredMembers]; trivial) h
  | (k, v) :: members, h => by
    rw [CoveredMembers] at h
    by_cases hrest : CoveredMembers lower objects members
    · -- The first member shows a difference.
      have hhead : ¬ (isSensitiveKey lower k.text = true ∨
          isPromised lower k.text = false ∧ Covered lower objects v) := fun hv => h ⟨hv, hrest⟩
      rw [not_or, not_and] at hhead
      obtain ⟨hkey, hv⟩ := hhead
      have hother : ∃ v', (isPromised lower k.text = true ∨ Alike lower objects v v') ∧
          dumps objects.str (scrub W lower v') ≠ dumps objects.str (scrub W lower v) := by
        cases hpromised : isPromised lower k.text with
        | true =>
          obtain ⟨v', hne⟩ := exists_other v
          exact ⟨v', .inl rfl, hne⟩
        | false =>
          obtain ⟨v', halike, hne⟩ := exists_of_not_covered v (hv hpromised)
          exact ⟨v', .inr halike, hne⟩
      obtain ⟨v', halike, hne⟩ := hother
      refine ⟨(k, v') :: members, ?_, fun heq => hne ?_, rfl⟩
      · rw [AlikeMembers]
        exact ⟨rfl, halike, alikeMembers_refl members⟩
      · rw [scrubMembers, scrubMembers, dumpsMembers, dumpsMembers, if_neg hkey, if_neg hkey] at heq
        exact List.append_cancel_right
          (List.append_cancel_left (List.append_cancel_left heq))
    · -- The others do.
      obtain ⟨members', halike, hne, hempty⟩ := exists_of_not_coveredMembers members hrest
      refine ⟨(k, v) :: members', ?_, fun heq => hne ?_, rfl⟩
      · rw [AlikeMembers]
        exact ⟨rfl, .inr (alike_refl v), halike⟩
      · rw [scrubMembers, scrubMembers, dumpsMembers, dumpsMembers, hempty] at heq
        have htail :=
          List.append_cancel_left (List.append_cancel_left (List.append_cancel_left heq))
        split_ifs at htail with hnil
        · rw [List.isEmpty_iff.mp hnil, List.isEmpty_iff.mp (hempty.trans hnil)]
        · exact List.append_cancel_left htail

theorem exists_of_not_coveredItems : ∀ items : List (Value O),
    ¬ CoveredItems lower objects items → ∃ items', AlikeItems lower objects items items' ∧
      dumpsItems objects.str (scrubItems W lower items') ≠
        dumpsItems objects.str (scrubItems W lower items) ∧
      (scrubItems W lower items').isEmpty = (scrubItems W lower items).isEmpty
  | [], h => absurd (by rw [CoveredItems]; trivial) h
  | v :: items, h => by
    rw [CoveredItems] at h
    by_cases hrest : CoveredItems lower objects items
    · obtain ⟨v', halike, hne⟩ := exists_of_not_covered v fun hv => h ⟨hv, hrest⟩
      refine ⟨v' :: items, ?_, fun heq => hne ?_, rfl⟩
      · rw [AlikeItems]
        exact ⟨halike, alikeItems_refl items⟩
      · rw [scrubItems, scrubItems, dumpsItems, dumpsItems] at heq
        exact List.append_cancel_right heq
    · obtain ⟨items', halike, hne, hempty⟩ := exists_of_not_coveredItems items hrest
      refine ⟨v :: items', ?_, fun heq => hne ?_, rfl⟩
      · rw [AlikeItems]
        exact ⟨alike_refl v, halike⟩
      · rw [scrubItems, scrubItems, dumpsItems, dumpsItems, hempty] at heq
        have htail := List.append_cancel_left heq
        split_ifs at htail with hnil
        · rw [List.isEmpty_iff.mp hnil, List.isEmpty_iff.mp (hempty.trans hnil)]
        · exact List.append_cancel_left htail

end

end

/-! ## The line -/

section

variable {O : Type} (W : Words) (lower : Text → Text) (objects : Objects O) (record : LogRecord O)

/-- The attributes that are fields, as members. -/
def fieldsOf (attributes : List (Text × Value O)) : List (Key × Value O) :=
  (attributes.filter (isField ·.1)).map fun field => (Key.str field.1, field.2)

/-- The attributes differ only in what they store under promised names. -/
def AlikeAttributes : List (Text × Value O) → List (Text × Value O) → Prop :=
  List.Forall₂ fun field field' =>
    field.1 = field'.1 ∧ (isPromised lower field.1 = true ∨ Alike lower objects field.2 field'.2)

/-- **The line leaks nothing**: no secret is found in what it says of the message, the fields and
the exception, and it is the same whatever is stored under promised names. -/
structure LogRecord.LeaksNothing : Prop where
  masked : ∀ P ∈ secretPatterns,
    P.found W.chars none (dumpsMembers objects.str (record.shown W lower)) = false
  hidden : ∀ attributes', AlikeAttributes lower objects record.attributes attributes' →
    { record with attributes := attributes' }.format W lower objects.str =
      record.format W lower objects.str

/-- **The condition**: names and objects show no secret, no masked text is torn, and what is
promised to be hidden is covered. -/
structure LogRecord.Discreet : Prop where
  plain : ∀ s ∈ plainMembers lower objects.str (fieldsOf record.attributes), ¬ Shows W s
  masked : ∀ t ∈ record.message ::
    (maskedMembers lower (fieldsOf record.attributes) ++ record.excInfo.toList),
      ¬ Torn (redactText W t)
  covered : CoveredMembers lower objects (fieldsOf record.attributes)

variable {W lower objects record}

theorem scrubMembers_eq_map (members : List (Key × Value O)) : scrubMembers W lower members =
    members.map fun member => (member.1, redactValue W lower member.1.text member.2) := by
  induction members with
  | nil => rw [scrubMembers, List.map_nil]
  | cons member members ih =>
    rw [scrubMembers, ih, List.map_cons]
    rfl

theorem shown_eq : record.shown W lower =
    (.str "message".toList, .str (redactText W record.message)) ::
      (scrubMembers W lower (fieldsOf record.attributes) ++
        record.excInfo.toList.map fun text =>
          (.str "exc_info".toList, .str (redactText W text))) := by
  rw [LogRecord.shown, scrubMembers_eq_map, fieldsOf, List.map_map, LogRecord.extra]
  rfl

theorem stringsMembers_append (str : O → Text) (l r : List (Key × Value O)) :
    stringsMembers str (l ++ r) = stringsMembers str l ++ stringsMembers str r := by
  induction l with
  | nil => rw [stringsMembers, List.nil_append, List.nil_append]
  | cons member l ih =>
    rw [List.cons_append, stringsMembers, stringsMembers, ih, List.cons_append, List.append_assoc]

/-- A calm text shows nothing. -/
theorem not_shows_calm {s : Text} (h : s.all isCalm = true) (hraw : s.all isRaw = true) :
    ¬ Shows W s := by
  rintro ⟨P, hP, hfound⟩
  rw [escaped_raw (List.all_eq_true.mp hraw), found_calm hP h] at hfound
  exact Bool.false_ne_true hfound

theorem shows_redactText {t : Text} : Shows W (redactText W t) ↔ Torn (redactText W t) :=
  shows_iff (redactText_clean t)

/-- What is found in members. -/
theorem exists_found_members (str : O → Text) (members : List (Key × Value O)) :
    (∃ P ∈ secretPatterns, P.found W.chars none (dumpsMembers str members) = true) ↔
      ∃ s ∈ stringsMembers str members, Shows W s := by
  constructor
  · rintro ⟨P, hP, hfound⟩
    obtain ⟨body, hbody, hfound⟩ :=
      (found_written hP (written_dumpsMembers str members)).mp hfound
    obtain ⟨s, hs, rfl⟩ := List.mem_map.mp hbody
    exact ⟨s, hs, P, hP, hfound⟩
  · rintro ⟨s, hs, P, hP, hfound⟩
    exact ⟨P, hP, (found_written hP (written_dumpsMembers str members)).mpr
      ⟨escaped s, List.mem_map_of_mem hs, hfound⟩⟩

/-- **What is found in the line.** -/
theorem exists_found_iff (lower : Text → Text) (objects : Objects O) (record : LogRecord O) :
    (∃ P ∈ secretPatterns,
      P.found W.chars none (dumpsMembers objects.str (record.shown W lower)) = true) ↔
    (∃ s ∈ plainMembers lower objects.str (fieldsOf record.attributes), Shows W s) ∨
      ∃ t ∈ record.message ::
        (maskedMembers lower (fieldsOf record.attributes) ++ record.excInfo.toList),
          Torn (redactText W t) := by
  have hmessage : ¬ Shows W "message".toList := not_shows_calm (by decide) (by decide)
  have hexc : (∃ s ∈ stringsMembers objects.str (record.excInfo.toList.map fun text =>
      (Key.str "exc_info".toList, (Value.str (redactText W text) : Value O))), Shows W s) ↔
        ∃ t ∈ record.excInfo.toList, Torn (redactText W t) := by
    have hname : ¬ Shows W "exc_info".toList := not_shows_calm (by decide) (by decide)
    cases record.excInfo with
    | none => simp [stringsMembers]
    | some text =>
      simp [stringsMembers, strings, Key.str, shows_redactText]
      exact fun h => absurd h hname
  have hredacted : ¬ Shows W redacted := not_shows_calm (by decide) (by decide)
  rw [exists_found_members, shown_eq, stringsMembers, strings, List.exists_mem_cons_iff,
    List.singleton_append, List.exists_mem_cons_iff, stringsMembers_append, exists_append,
    strings_scrubMembers hredacted, hexc, List.exists_mem_cons_iff, exists_append]
  simp only [Key.str, hmessage, false_or, shows_redactText]
  rw [or_assoc, or_left_comm]

/-! ### What is hidden in a line -/

theorem dumpsMembers_append (str : O → Text) (l r : List (Key × Value O)) :
    dumpsMembers str (l ++ r) = dumpsMembers str l ++
      ((if l.isEmpty || r.isEmpty then [] else [',', ' ']) ++ dumpsMembers str r) := by
  induction l with
  | nil => simp [dumpsMembers]
  | cons member l ih =>
    obtain ⟨k, v⟩ := member
    rw [List.cons_append, dumpsMembers, dumpsMembers, ih]
    cases l with
    | nil =>
      cases r with
      | nil => simp [dumpsMembers]
      | cons member r => simp [dumpsMembers]
    | cons member l => simp

/-- The line, around the members of the fields. -/
theorem format_eq (lower : Text → Text) (objects : Objects O) (record : LogRecord O) :
    ∃ front : List (Key × Value O),
    front.isEmpty = false ∧ ∃ back, ∀ attributes,
      { record with attributes := attributes }.format W lower objects.str =
        dumps objects.str (.dict (front ++ (scrubMembers W lower (fieldsOf attributes) ++ back))) :=
  ⟨[(.str "ts".toList, .str record.ts), (.str "level".toList, .str record.levelname),
      (.str "logger".toList, .str record.name),
      (.str "message".toList, .str (redactText W record.message))], rfl,
    record.excInfo.toList.map fun text => (.str "exc_info".toList, .str (redactText W text)),
    fun attributes => by
      rw [LogRecord.format, LogRecord.payload, shown_eq]
      rfl⟩

/-- The line is the same for other attributes exactly when the members of the fields are. -/
theorem format_eq_iff {attributes' : List (Text × Value O)}
    (hempty : (fieldsOf attributes').isEmpty = (fieldsOf record.attributes).isEmpty) :
    { record with attributes := attributes' }.format W lower objects.str =
        record.format W lower objects.str ↔
      dumpsMembers objects.str (scrubMembers W lower (fieldsOf attributes')) =
        dumpsMembers objects.str (scrubMembers W lower (fieldsOf record.attributes)) := by
  have hsame : ∀ members : List (Key × Value O),
      (scrubMembers W lower members).isEmpty = members.isEmpty := fun members => by
    rw [scrubMembers_eq_map, List.isEmpty_map]
  have happend : ∀ l r : List (Key × Value O), (l ++ r).isEmpty = (l.isEmpty && r.isEmpty) :=
    fun l r => by cases l <;> rfl
  obtain ⟨front, hfront, back, hformat⟩ := format_eq (W := W) lower objects record
  have hrecord := hformat record.attributes
  rw [hformat attributes', hrecord]
  simp only [dumps, dumpsMembers_append, happend, hsame, hempty, hfront]
  constructor
  · intro h
    have hbody := List.append_cancel_right (List.cons.inj h).2
    have hmembers := List.append_cancel_left (List.append_cancel_left hbody)
    exact List.append_cancel_right hmembers
  · intro h
    rw [h]

theorem alikeMembers_fieldsOf {attributes attributes' : List (Text × Value O)}
    (h : AlikeAttributes lower objects attributes attributes') :
    AlikeMembers lower objects (fieldsOf attributes) (fieldsOf attributes') := by
  induction h with
  | nil => simp [fieldsOf, AlikeMembers]
  | @cons field field' attributes attributes' hfield _ ih =>
    obtain ⟨key, v⟩ := field
    obtain ⟨key', v'⟩ := field'
    obtain ⟨rfl, hvalue⟩ := hfield
    unfold fieldsOf at ih ⊢
    by_cases hkey : isField key = true
    · simp only [List.filter_cons, hkey, if_true, List.map_cons]
      rw [AlikeMembers]
      exact ⟨rfl, hvalue, ih⟩
    · simpa only [List.filter_cons, hkey, Bool.false_eq_true, if_false] using ih

theorem exists_alikeAttributes (attributes : List (Text × Value O)) :
    ∀ members', AlikeMembers lower objects (fieldsOf attributes) members' →
      ∃ attributes', AlikeAttributes lower objects attributes attributes' ∧
        fieldsOf attributes' = members' := by
  induction attributes with
  | nil =>
    intro members' h
    cases members' with
    | nil => exact ⟨[], .nil, rfl⟩
    | cons _ _ => simp [fieldsOf, AlikeMembers] at h
  | cons field attributes ih =>
    obtain ⟨key, v⟩ := field
    intro members' h
    by_cases hkey : isField key = true
    · have hfields :
          fieldsOf ((key, v) :: attributes) = (Key.str key, v) :: fieldsOf attributes := by
        simp [fieldsOf, hkey]
      rw [hfields] at h
      cases members' with
      | nil => simp [AlikeMembers] at h
      | cons member members' =>
        obtain ⟨k, v'⟩ := member
        rw [AlikeMembers] at h
        obtain ⟨rfl, hvalue, hrest⟩ := h
        obtain ⟨attributes', halike, rfl⟩ := ih members' hrest
        exact ⟨(key, v') :: attributes', .cons ⟨rfl, hvalue⟩ halike, by simp [fieldsOf, hkey]⟩
    · have hfields : fieldsOf ((key, v) :: attributes) = fieldsOf attributes := by
        simp [fieldsOf, hkey]
      rw [hfields] at h
      obtain ⟨attributes', halike, rfl⟩ := ih members' h
      exact ⟨(key, v) :: attributes', .cons ⟨rfl, .inr (alike_refl v)⟩ halike,
        by simp [fieldsOf, hkey]⟩

theorem isEmpty_of_alikeMembers {members members' : List (Key × Value O)}
    (h : AlikeMembers lower objects members members') : members'.isEmpty = members.isEmpty := by
  cases members with
  | nil =>
    cases members' with
    | nil => rfl
    | cons _ _ => simp [AlikeMembers] at h
  | cons _ _ =>
    cases members' with
    | nil => simp [AlikeMembers] at h
    | cons _ _ => rfl

/-- **What is hidden in the line.** -/
theorem hidden_iff : (∀ attributes', AlikeAttributes lower objects record.attributes attributes' →
    { record with attributes := attributes' }.format W lower objects.str =
      record.format W lower objects.str) ↔
    CoveredMembers lower objects (fieldsOf record.attributes) := by
  constructor
  · intro h
    by_contra hcovered
    obtain ⟨members', halike, hne, -⟩ :=
      exists_of_not_coveredMembers (W := W) (fieldsOf record.attributes) hcovered
    obtain ⟨attributes', hattributes, rfl⟩ := exists_alikeAttributes record.attributes _ halike
    exact hne ((format_eq_iff (isEmpty_of_alikeMembers halike)).mp (h attributes' hattributes))
  · intro hcovered attributes' hattributes
    have halike := alikeMembers_fieldsOf hattributes
    exact (format_eq_iff (isEmpty_of_alikeMembers halike)).mpr
      (dumpsMembers_of_covered _ _ hcovered halike).1

/-- **The line leaks nothing** exactly under the condition. -/
theorem leaks_nothing_iff : record.LeaksNothing W lower objects ↔
    record.Discreet W lower objects := by
  have hfound := not_congr (exists_found_iff (W := W) lower objects record)
  push Not at hfound
  constructor
  · intro h
    obtain ⟨hplain, hmasked⟩ := hfound.mp fun P hP => by
      rw [h.masked P hP]
      exact Bool.false_ne_true
    exact ⟨hplain, hmasked, hidden_iff.mp h.hidden⟩
  · intro h
    refine ⟨fun P hP => ?_, hidden_iff.mpr h.covered⟩
    exact (Bool.not_eq_true _).mp (hfound.mpr ⟨h.plain, h.masked⟩ P hP)

/-- The letters and digits of ASCII as the only ones. -/
def plainWords : Words where
  word c := c.toNat < 128 && (c.isAlphanum || c == '_')
  word_ascii c h := by rw [decide_eq_true h, Bool.true_and]

/-- `extra={"counts": {"bob@corp.com": 3}, "x-token": "k3y"}`. -/
def countsRecord : LogRecord Empty where
  ts := "2026-01-01T00:00:00+00:00".toList
  levelname := "INFO".toList
  name := "app".toList
  message := "sent".toList
  attributes :=
    [("counts".toList, .dict [(.str "bob@corp.com".toList, .number ⟨['3'], by decide⟩)]),
      ("x-token".toList, .str "k3y".toList)]
  excInfo := none

/-- An address that is the name of a member stands in the line. -/
theorem key_logged : ¬ countsRecord.LeaksNothing plainWords (·.map Char.toLower)
    ⟨Empty.elim, fun _ _ => True, fun _ => trivial⟩ := by
  intro h
  have hfound : emailRe.found plainWords.chars none (dumpsMembers Empty.elim
      (countsRecord.shown plainWords (·.map Char.toLower))) = true := by decide
  rw [h.masked emailRe List.mem_cons_self] at hfound
  exact Bool.false_ne_true hfound

/-- So does what is stored under a name that ends in a sensitive one behind a hyphen. -/
example : isPromised (·.map Char.toLower) "x-token".toList = true ∧
    dumpsMembers (O := Empty) Empty.elim (scrubMembers plainWords (·.map Char.toLower)
      [(.str "x-token".toList, .str "k3y".toList)]) = "\"x-token\": \"k3y\"".toList := by
  decide

end

end ScanPlatform.LogRedaction

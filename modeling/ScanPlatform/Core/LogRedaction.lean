import ScanPlatform.Base.PyStr
import ScanPlatform.Base.Regex

/-!
# The redaction of what is logged

* `isSensitiveKey`, `redactText`: names whose value is hidden, and the masks of a text;
* **`redactText_clean`**: a masked text has no e-mail address, bearer token or key in it;
* `Value`, `scrub`, `redactValue`: values of any nesting, and what is left of them.
-/

set_option autoImplicit false

namespace ScanPlatform.LogRedaction

open Regex

/-- A `str`. -/
abbrev Text := List Char

def redacted : Text := "[REDACTED]".toList
def redactedEmail : Text := "[REDACTED_EMAIL]".toList
def redactedApiKey : Text := "[REDACTED_API_KEY]".toList

/-! ## Names -/

/-- `_EXACT_SENSITIVE`. -/
def exactSensitive : List Text :=
  ["password", "passwd", "pass", "secret", "token", "authorization", "auth",
    "credential", "credentials", "cookie", "session", "otp", "totp",
    "mfa_secret", "api_key", "apikey", "access_key", "secret_key", "private_key"].map String.toList

/-- `_SENSITIVE_SUFFIXES`. -/
def sensitiveSuffixes : List Text :=
  ["_password", "_passwd", "_secret", "_token", "_hash", "_key", "_apikey",
    "_credential", "_credentials", "_cookie"].map String.toList

/-- `is_sensitive_key`, of the text of a key. -/
def isSensitiveKey (lower : Text → Text) (key : Text) : Bool :=
  let k := lower key
  exactSensitive.contains k || sensitiveSuffixes.any (·.isSuffixOf k)

/-! ## Texts -/

def isLocalChar (c : Char) : Bool := c.isAlphanum || c ∈ ['.', '_', '%', '+', '-']

def isDomainChar (c : Char) : Bool := c.isAlphanum || c ∈ ['.', '-']

def isTokenChar (c : Char) : Bool := c.isAlphanum || c ∈ ['.', '_', '-']

def isApiKeyChar (c : Char) : Bool := c.isAlphanum || c ∈ ['_', '-']

/-- `[A-Za-z0-9.\-]+\.[A-Za-z]{2,}`. -/
def domainRe : Re :=
  .seq (.many isDomainChar 1) (.seq (.one (· == '.')) (.many Char.isAlpha 2))

/-- `_EMAIL_RE`. -/
def emailRe : Pattern := ⟨.eps, .eps, .seq (.many isLocalChar 1) (.seq (.one (· == '@')) domainRe)⟩

/-- `_BEARER_RE`, which ignores case. -/
def bearerRe : Pattern :=
  ⟨.bound, .seq (.text same "bearer".toList) (.many PyStr.isSpace 1),
    .many (fun c => isTokenChar (fold c)) 1⟩

/-- `_APIKEY_RE`. -/
def apikeyRe : Pattern :=
  ⟨.eps, .eps, .seq (.text (· == ·) "mbsk_".toList) (.many isApiKeyChar 1)⟩

variable (W : Words)

/-- `redact_text`. -/
def redactText (value : Text) : Text :=
  let value := bearerRe.sub W.chars id redacted 0 none value
  let value := apikeyRe.sub W.chars id redactedApiKey 0 none value
  emailRe.sub W.chars id redactedEmail 0 none value

/-! ## Values -/

/-- The characters of a number, of `NaN` and of an infinite one. -/
def isNumberChar (c : Char) : Bool := c.isDigit || c ∈ "+-.eNaInfity".toList

/-- A number, as it is written. -/
structure Number where
  text : Text
  proper : text.all isNumberChar = true

/-- A key of a dictionary: what `str` makes of it, and its name in the output of `json.dumps`. -/
structure Key where
  text : Text
  name : Text

def Key.str (s : Text) : Key := ⟨s, s⟩

/-- What a log record may have in it. An object is anything that `json.dumps` hands to `str`: a set,
bytes, an instance of a class. -/
inductive Value (O : Type) where
  | none
  | bool (b : Bool)
  | number (n : Number)
  | str (s : Text)
  | dict (members : List (Key × Value O))
  | list (items : List (Value O))
  | tuple (items : List (Value O))
  | obj (o : O)

section

variable {O : Type} (W : Words) (lower : Text → Text)

mutual

/-- `_scrub`. -/
def scrub : Value O → Value O
  | .str s => .str (redactText W s)
  | .dict members => .dict (scrubMembers members)
  | .list items => .list (scrubItems items)
  | .tuple items => .list (scrubItems items)
  | .none => .none
  | .bool b => .bool b
  | .number n => .number n
  | .obj o => .obj o

def scrubMembers : List (Key × Value O) → List (Key × Value O)
  | [] => []
  | (k, v) :: members =>
    (k, if isSensitiveKey lower k.text then .str redacted else scrub v) :: scrubMembers members

def scrubItems : List (Value O) → List (Value O)
  | [] => []
  | v :: items => scrub v :: scrubItems items

end

/-- `redact_value`. -/
def redactValue (key : Text) (value : Value O) : Value O :=
  if isSensitiveKey lower key then .str redacted else scrub W lower value

end

/-! ## Masked texts -/

section

variable {W : Words} {t : Text}

/-- Brackets, quotation marks and backslashes, none of which is in a secret. -/
def marks : List Char := ['[', ']', '"', '\\']

def Bare (c : Char) : Prop := c ∉ marks

theorem bare_of_class {p : Char → Bool} (h : marks.all (fun c => !p c) = true) (c : Char)
    (hc : p c = true) : Bare c := by
  intro hmem
  have hnot := List.all_eq_true.mp h c hmem
  rw [hc] at hnot
  exact Bool.false_ne_true hnot

theorem all_text_bare {eq : Char → Char → Bool} {cs : List Char}
    (h : cs.all (fun c => marks.all fun d => !eq c d) = true) : (Re.text eq cs).All Bare :=
  all_text fun c hc => bare_of_class (List.all_eq_true.mp h c hc)

theorem emailRe_bare : (emailRe.group.seq emailRe.trail).All Bare :=
  ⟨trivial, bare_of_class (by decide), bare_of_class (by decide), bare_of_class (by decide),
    bare_of_class (by decide), bare_of_class (by decide)⟩

theorem apikeyRe_bare : (apikeyRe.group.seq apikeyRe.trail).All Bare :=
  ⟨trivial, all_text_bare (by decide), bare_of_class (by decide)⟩

theorem bearerRe_bare : (bearerRe.group.seq bearerRe.trail).All Bare :=
  ⟨⟨all_text_bare (by decide), bare_of_class (by decide)⟩, bare_of_class (by decide)⟩

theorem lang_emailRe : emailRe.Lang t ↔ ∃ x d, t = x ++ '@' :: d ∧ x ≠ [] ∧
    (∀ c ∈ x, isLocalChar c = true) ∧ domainRe.Lang d := by
  constructor
  · rintro ⟨_, t, rfl, rfl, x, _, rfl, ⟨hx, hlen⟩, _, d, rfl, ⟨c, rfl, hc⟩, hd⟩
    rw [beq_iff_eq.mp hc]
    exact ⟨x, d, rfl, List.ne_nil_of_length_pos hlen, hx, hd⟩
  · rintro ⟨x, d, rfl, hne, hx, hd⟩
    exact ⟨[], _, rfl, rfl, x, '@' :: d, rfl, ⟨hx, List.length_pos_of_ne_nil hne⟩, ['@'], d, rfl,
      ⟨'@', rfl, rfl⟩, hd⟩

theorem lang_apikeyRe : apikeyRe.Lang t ↔ ∃ x, t = "mbsk_".toList ++ x ∧ x ≠ [] ∧
    ∀ c ∈ x, isApiKeyChar c = true := by
  constructor
  · rintro ⟨_, t, rfl, rfl, _, x, rfl, htext, hx, hlen⟩
    rw [lang_text_eq.mp htext]
    exact ⟨x, rfl, List.ne_nil_of_length_pos hlen, hx⟩
  · rintro ⟨x, rfl, hne, hx⟩
    exact ⟨[], _, rfl, rfl, _, x, rfl, lang_text_eq.mpr rfl, hx, List.length_pos_of_ne_nil hne⟩

theorem lang_bearerRe : bearerRe.Lang t ↔ ∃ x y z, t = x ++ y ++ z ∧
    x.map fold = "bearer".toList ∧ y ≠ [] ∧ (∀ c ∈ y, PyStr.isSpace c = true) ∧ z ≠ [] ∧
      ∀ c ∈ z, isTokenChar (fold c) = true := by
  constructor
  · rintro ⟨_, z, rfl, ⟨x, y, rfl, htext, hy, hylen⟩, hz, hzlen⟩
    exact ⟨x, y, z, rfl, lang_text_same.mp htext, List.ne_nil_of_length_pos hylen, hy,
      List.ne_nil_of_length_pos hzlen, hz⟩
  · rintro ⟨x, y, z, rfl, htext, hy, hspaces, hz, htokens⟩
    exact ⟨_, z, rfl, ⟨x, y, rfl, lang_text_same.mpr htext, hspaces,
      List.length_pos_of_ne_nil hy⟩, htokens, List.length_pos_of_ne_nil hz⟩

theorem emailRe_plain : (emailRe.group.seq emailRe.trail).Plain := by
  simp [emailRe, domainRe, Re.Plain]

theorem apikeyRe_plain : (apikeyRe.group.seq apikeyRe.trail).Plain :=
  ⟨trivial, plain_text _ _, trivial⟩

theorem emailRe_ne_nil : ¬ emailRe.Lang [] := by
  intro h
  obtain ⟨x, d, heq, -⟩ := lang_emailRe.mp h
  simp at heq

theorem apikeyRe_ne_nil : ¬ apikeyRe.Lang [] := by
  intro h
  obtain ⟨x, heq, -⟩ := lang_apikeyRe.mp h
  simp at heq

theorem emailRe_reads : emailRe.Reads W.chars :=
  Pattern.reads_of_lang emailRe_plain (.inl rfl) emailRe_ne_nil

theorem apikeyRe_reads : apikeyRe.Reads W.chars :=
  Pattern.reads_of_lang apikeyRe_plain (.inl rfl) apikeyRe_ne_nil

theorem bearerRe_plain : (bearerRe.group.seq bearerRe.trail).Plain :=
  ⟨⟨plain_text _ _, trivial⟩, trivial⟩

theorem bearerRe_ne_nil : ¬ bearerRe.Lang [] := by
  intro h
  obtain ⟨x, y, z, heq, -, hy, -⟩ := lang_bearerRe.mp h
  simp at heq
  exact hy heq.2.1

theorem bearerRe_reads : bearerRe.Reads W.chars :=
  Pattern.reads_of_lang bearerRe_plain (.inr rfl) bearerRe_ne_nil

/-- A bearer token begins with a letter. -/
theorem bearerRe_head (h : bearerRe.Lang t) : ∃ c t', t = c :: t' ∧ (c = 'b' ∨ c = 'B') := by
  obtain ⟨x, y, z, rfl, hx, -⟩ := lang_bearerRe.mp h
  obtain ⟨c, x, rfl, hc, -⟩ := List.map_eq_cons_iff.mp hx
  have hB : ∀ d : Char, d.toNat + 32 = 'b'.toNat → d = 'B' := fun d hd =>
    Char.toNat_inj.mp (Nat.add_right_cancel hd)
  exact ⟨c, x ++ y ++ z, rfl, (eq_or_of_fold hc (by decide)).imp_right (hB c)⟩

theorem emailRe_shape :
    emailRe.Shape W.chars (fun _ => True) (fun mid => emailRe.Lang (mid.map id)) :=
  Pattern.shape_of_eps rfl emailRe_plain emailRe_ne_nil

theorem apikeyRe_shape :
    apikeyRe.Shape W.chars (fun _ => True) (fun mid => apikeyRe.Lang (mid.map id)) :=
  Pattern.shape_of_eps rfl apikeyRe_plain apikeyRe_ne_nil

theorem bearerRe_shape : bearerRe.Shape W.chars (fun p => W.chars.isWord p = false)
    (fun mid => bearerRe.Lang (mid.map id)) :=
  Pattern.shape_of_bound rfl bearerRe_plain fun t h => by
    obtain ⟨c, t', rfl, hc⟩ := bearerRe_head h
    refine ⟨c, t', rfl, ?_⟩
    rcases hc with rfl | rfl
    · exact W.word_ascii 'b' (by decide)
    · exact W.word_ascii 'B' (by decide)

/-- What masking leaves of a pattern was there before, where the masked pattern did not match. -/
theorem found_of_masked {P Q : Pattern} {new s : Text} {before : Option Char → Prop}
    {tell : Char → Bool} (hreads : P.Reads W.chars) (hnew : Marked (· ∈ marks) id new)
    (hQ : Q.Shape W.chars before (fun mid => Q.Lang (mid.map id)))
    (hbare : (Q.group.seq Q.trail).All Bare) (htell : ∀ t, Q.Lang t → ∃ c ∈ t, tell c = true)
    (hin : new.all (fun c => !tell c) = true)
    (hgroup : ∀ q l m, P.first W.chars q l = some m → ∀ mid, mid <:+: m.group → ¬ Q.Lang mid)
    (hbehind : ∀ q l m, P.first W.chars q l = some m → ∀ mid, mid <+: m.rest → Q.Lang mid →
      before (lastOr q m.taken))
    (hfound : Q.found W.chars none (P.sub W.chars id new 0 none s) = true) :
    ∃ pre rest, s = pre ++ rest ∧ rest ≠ [] ∧ P.first W.chars (lastOr none pre) rest = none ∧
      (Q.first W.chars (lastOr none pre) rest).isSome = true := by
  have hscan := Pattern.scan id new hreads none s
  simp only [List.map_id] at hQ
  refine hscan.found_kept hreads hnew hQ (fun mid hbody => hbare.of_lang hbody) ?_ ?_ ?_ hfound
  · intro mid hmid hbody
    obtain ⟨c, hc, htrue⟩ := htell mid hbody
    rw [List.map_id] at hmid
    have hfalse := List.all_eq_true.mp hin c (hmid.subset hc)
    rw [htrue] at hfalse
    exact Bool.false_ne_true hfalse
  · intro m hm mid hmid
    obtain ⟨q, l, hfirst⟩ := hscan.exists_first hm
    exact hgroup q l m hfirst mid hmid
  · intro q m hfirst mid hmid hbody
    exact hbehind q _ m hfirst mid hmid hbody

theorem marked_text {new : Text} (h : new.head? = some '[') (h' : new.getLast? = some ']') :
    Marked (· ∈ marks) id new where
  first := by
    obtain ⟨new', rfl⟩ := List.head?_eq_some_iff.mp h
    exact ⟨'[', new', rfl, by decide⟩
  last := by
    obtain ⟨new', rfl⟩ := List.getLast?_eq_some_iff.mp h'
    exact ⟨new', ']', rfl, by decide⟩

theorem tell_emailRe (t : Text) (h : emailRe.Lang t) : ∃ c ∈ t, (c == '@') = true := by
  obtain ⟨x, d, rfl, -⟩ := lang_emailRe.mp h
  exact ⟨'@', by simp, rfl⟩

theorem tell_apikeyRe (t : Text) (h : apikeyRe.Lang t) : ∃ c ∈ t, (c == 'm') = true := by
  obtain ⟨x, rfl, -⟩ := lang_apikeyRe.mp h
  exact ⟨'m', by simp, rfl⟩

theorem tell_bearerRe (t : Text) (h : bearerRe.Lang t) : ∃ c ∈ t, PyStr.isSpace c = true := by
  obtain ⟨x, y, z, rfl, -, hy, hspaces, -⟩ := lang_bearerRe.mp h
  obtain ⟨c, hc⟩ := List.exists_mem_of_ne_nil y hy
  exact ⟨c, by simp [hc], hspaces c hc⟩

theorem isSpace_of_isTokenChar {c : Char} (h : isTokenChar (fold c) = true) :
    PyStr.isSpace c = false := by
  unfold isTokenChar at h
  rcases Bool.or_eq_true_iff.mp h with h | h
  · have hrange := toNat_of_isAlphanum h
    exact isSpace_of_fold (by omega) (by omega)
  · have hmem := of_decide_eq_true h
    have hrange := List.all_eq_true.mp
      (by decide : ['.', '_', '-'].all (fun c => 33 ≤ c.toNat ∧ c.toNat ≤ 126) = true) _ hmem
    obtain ⟨hle, hle'⟩ := of_decide_eq_true hrange
    exact isSpace_of_fold hle hle'

/-- A pattern without a group. -/
theorem group_of_eps {P Q : Pattern} (hP : P.group = .eps) (hQ : ¬ Q.Lang []) {q : Option Char}
    {l : Text} {m : Match Char} (hfirst : P.first W.chars q l = some m) (mid : Text)
    (hmid : mid <:+: m.group) : ¬ Q.Lang mid := by
  have hgroup := Pattern.group_lang (by rw [hP]; trivial) hfirst
  rw [hP] at hgroup
  have hnil : m.group = [] := List.map_eq_nil_iff.mp hgroup
  rw [hnil] at hmid
  rwa [List.infix_nil.mp hmid]

/-- There is no token in what a match of the pattern for tokens keeps. -/
theorem bearerRe_group {q : Option Char} {l : Text} {m : Match Char}
    (hfirst : bearerRe.first W.chars q l = some m) (mid : Text) (hmid : mid <:+: m.group) :
    ¬ bearerRe.Lang mid := by
  intro hlang
  have hplain : bearerRe.group.Plain := bearerRe_plain.1
  obtain ⟨t₁, t₂, hgroup, htext, hspaces, -⟩ := Pattern.group_lang hplain hfirst
  have hletters : ∀ c ∈ t₁, isTokenChar (fold c) = true := by
    intro c hc
    have hfold : t₁.map fold = "bearer".toList := lang_text_same.mp htext
    have hmem : fold c ∈ "bearer".toList := by
      rw [← hfold]
      exact List.mem_map_of_mem hc
    exact List.all_eq_true.mp (by decide : "bearer".toList.all isTokenChar = true) _ hmem
  -- Behind a space there are only spaces in the group, but a token behind one in a match.
  have hsorted : m.group.Pairwise fun c d => PyStr.isSpace c = true → PyStr.isSpace d = true := by
    have hid : m.group = t₁ ++ t₂ := (List.map_id _).symm.trans hgroup
    rw [hid]
    refine List.pairwise_append.mpr ⟨?_, ?_, fun c hc d hd _ => hspaces d hd⟩
    · refine List.pairwise_of_forall_mem_list ?_
      intro c hc d _ hspace
      rw [isSpace_of_isTokenChar (hletters c hc)] at hspace
      exact absurd hspace Bool.false_ne_true
    · exact List.pairwise_of_forall_mem_list fun c _ d hd _ => hspaces d hd
  obtain ⟨x, y, z, rfl, -, hy, hyspaces, hz, htokens⟩ := lang_bearerRe.mp hlang
  obtain ⟨c, hc⟩ := List.exists_mem_of_ne_nil y hy
  obtain ⟨d, hd⟩ := List.exists_mem_of_ne_nil z hz
  have hpair := (List.pairwise_append.mp (hsorted.sublist hmid.sublist)).2.2 c
    (List.mem_append_right x hc) d hd (hyspaces c hc)
  rw [isSpace_of_isTokenChar (htokens d hd)] at hpair
  exact Bool.false_ne_true hpair

/-- What stands behind a match that takes all letters is no bearer token. -/
theorem bearerRe_behind {P : Pattern} {p : Char → Bool} (hstops : P.trail.Stops W.chars p)
    (hp : p 'b' = true ∧ p 'B' = true) {q : Option Char} {l : Text} {m : Match Char}
    (hfirst : P.first W.chars q l = some m) (mid : Text) (hmid : mid <+: m.rest) :
    ¬ bearerRe.Lang mid := by
  intro hlang
  obtain ⟨c, t', rfl, hc⟩ := bearerRe_head hlang
  obtain ⟨r, hr⟩ := hmid
  have hnot : p c = false := Pattern.rest_of_stops hstops hfirst c (by rw [← hr]; rfl)
  rcases hc with rfl | rfl
  · rw [hp.1] at hnot
    exact Bool.false_ne_true hnot.symm
  · rw [hp.2] at hnot
    exact Bool.false_ne_true hnot.symm

theorem redacted_marked : Marked (· ∈ marks) id redacted := marked_text rfl rfl

theorem redactedApiKey_marked : Marked (· ∈ marks) id redactedApiKey := marked_text rfl rfl

theorem redactedEmail_marked : Marked (· ∈ marks) id redactedEmail := marked_text rfl rfl

variable {s : Text}

/-- The mask of bearer tokens leaves none. -/
theorem bearer_masked :
    bearerRe.found W.chars none (bearerRe.sub W.chars id redacted 0 none s) = false := by
  by_contra hfound
  obtain ⟨pre, rest, -, -, hnone, hsome⟩ := found_of_masked bearerRe_reads redacted_marked
    bearerRe_shape bearerRe_bare tell_bearerRe (by decide)
    (fun q l m hfirst => bearerRe_group hfirst)
    (fun q l m hfirst mid hmid hlang => absurd hlang (bearerRe_behind
      (stops_many (fun c => isTokenChar (fold c)) 1) ⟨by decide, by decide⟩ hfirst mid hmid))
    ((Bool.not_eq_false _).mp hfound)
  rw [hnone] at hsome
  exact Bool.false_ne_true hsome

/-- The other masks bring no bearer token. -/
theorem bearer_kept {P : Pattern} {new : Text} {p : Char → Bool} (hreads : P.Reads W.chars)
    (hgroup : P.group = .eps) (hnew : Marked (· ∈ marks) id new)
    (hin : new.all (fun c => !PyStr.isSpace c) = true) (hstops : P.trail.Stops W.chars p)
    (hp : p 'b' = true ∧ p 'B' = true) (h : bearerRe.found W.chars none s = false) :
    bearerRe.found W.chars none (P.sub W.chars id new 0 none s) = false := by
  by_contra hfound
  obtain ⟨pre, rest, hs, hne, -, hsome⟩ := found_of_masked hreads hnew bearerRe_shape
    bearerRe_bare tell_bearerRe hin (fun q l m hfirst => group_of_eps hgroup bearerRe_ne_nil hfirst)
    (fun q l m hfirst mid hmid hlang => absurd hlang (bearerRe_behind hstops hp hfirst mid hmid))
    ((Bool.not_eq_false _).mp hfound)
  have hbefore := Pattern.found_iff.mpr ⟨pre, rest, hs, hne, hsome⟩
  rw [h] at hbefore
  exact Bool.false_ne_true hbefore

/-- The mask of a pattern that asks nothing of the place leaves nothing of it. -/
theorem found_masked {P : Pattern} {new : Text} {tell : Char → Bool} (hreads : P.Reads W.chars)
    (hgroup : P.group = .eps) (hne : ¬ P.Lang []) (hnew : Marked (· ∈ marks) id new)
    (hP : P.Shape W.chars (fun _ => True) (fun mid => P.Lang (mid.map id)))
    (hbare : (P.group.seq P.trail).All Bare) (htell : ∀ t, P.Lang t → ∃ c ∈ t, tell c = true)
    (hin : new.all (fun c => !tell c) = true) :
    P.found W.chars none (P.sub W.chars id new 0 none s) = false := by
  by_contra hfound
  obtain ⟨pre, rest, -, -, hnone, hsome⟩ := found_of_masked hreads hnew hP hbare htell hin
    (fun q l m hfirst => group_of_eps hgroup hne hfirst) (fun _ _ _ _ _ _ _ => trivial)
    ((Bool.not_eq_false _).mp hfound)
  rw [hnone] at hsome
  exact Bool.false_ne_true hsome

/-- The mask of e-mail addresses brings no key. -/
theorem apikey_kept (h : apikeyRe.found W.chars none s = false) :
    apikeyRe.found W.chars none (emailRe.sub W.chars id redactedEmail 0 none s) = false := by
  by_contra hfound
  obtain ⟨pre, rest, hs, hne, -, hsome⟩ := found_of_masked emailRe_reads redactedEmail_marked
    apikeyRe_shape apikeyRe_bare tell_apikeyRe (by decide)
    (fun q l m hfirst => group_of_eps rfl apikeyRe_ne_nil hfirst) (fun _ _ _ _ _ _ _ => trivial)
    ((Bool.not_eq_false _).mp hfound)
  have hbefore := Pattern.found_iff.mpr ⟨pre, rest, hs, hne, hsome⟩
  rw [h] at hbefore
  exact Bool.false_ne_true hbefore

/-- The patterns of what is masked. -/
def secretPatterns : List Pattern := [emailRe, bearerRe, apikeyRe]

/-- **A masked text** has no e-mail address, no bearer token and no key in it. -/
theorem redactText_clean (s : Text) :
    ∀ P ∈ secretPatterns, P.found W.chars none (redactText W s) = false := by
  have hkey : apikeyRe.found W.chars none (apikeyRe.sub W.chars id redactedApiKey 0 none
      (bearerRe.sub W.chars id redacted 0 none s)) = false :=
    found_masked apikeyRe_reads rfl apikeyRe_ne_nil redactedApiKey_marked apikeyRe_shape
      apikeyRe_bare tell_apikeyRe (by decide)
  have hbearer : bearerRe.found W.chars none (apikeyRe.sub W.chars id redactedApiKey 0 none
      (bearerRe.sub W.chars id redacted 0 none s)) = false :=
    bearer_kept apikeyRe_reads rfl redactedApiKey_marked (by decide)
      (((stops_many isApiKeyChar 1).seq _) : apikeyRe.trail.Stops W.chars isApiKeyChar)
      ⟨by decide, by decide⟩ bearer_masked
  intro P hP
  simp only [secretPatterns, List.mem_cons, List.not_mem_nil, or_false] at hP
  rcases hP with rfl | rfl | rfl
  · exact found_masked emailRe_reads rfl emailRe_ne_nil redactedEmail_marked emailRe_shape
      emailRe_bare tell_emailRe (by decide)
  · have hstops : emailRe.trail.Stops W.chars Char.isAlpha :=
      ((((stops_many Char.isAlpha 2).seq _).seq _).seq _).seq _
    exact bearer_kept emailRe_reads rfl redactedEmail_marked (by decide) hstops
      ⟨by decide, by decide⟩ hbearer
  · exact apikey_kept hkey

end

end ScanPlatform.LogRedaction

import ScanPlatform.Base.Grouping
import ScanPlatform.Nuclei.Parser
import ScanPlatform.Nuclei.UrlLocation

/-!
# The lines of the output of nuclei

Whether the parser makes of each line what it makes of that line alone.

A fingerprint rests on a location that normalizing leaves as it is.

* `pushFinding`, `Agrees`, `parseLine_push`, `foldlM_parseLine`: the loop over the lines;
* `parseVulnerabilities_line`: a line alone;
* `LineLocal`, **`line_local_iff`**: the outputs that are read line by line;
* `NormalizedOnce`, **`normalized_once_iff`**: when normalizing again changes nothing;
  `not_normalized_once` are three locations of which that fails.
-/

set_option autoImplicit false

namespace ScanPlatform

open Grouping JsonText PyStr

variable {F : Type} {py : Python F} {repr : Doc F → String}

/-! ## The loop -/

/-- A finding is kept unless its fingerprint has been seen. -/
def pushFinding (findings : List (NucleiFinding F)) (finding : NucleiFinding F) :
    List (NucleiFinding F) :=
  if finding.fingerprint ∈ findings.map (·.fingerprint) then findings else findings ++ [finding]

/-- The fingerprints that have been seen are those of the findings. -/
def ParserState.Agrees (s : ParserState F) : Prop :=
  s.seenFingerprints = s.findings.map (·.fingerprint)

/-- A readable line adds its finding. -/
theorem parseLine_push {s : ParserState F} {line : List Char} {x : Option (NucleiFinding F)}
    (hs : s.Agrees) (hx : lineFinding py repr line = .ok x) :
    ∃ s', parseLine py repr s line = .ok s' ∧ s'.Agrees ∧
      s'.findings = x.toList.foldl pushFinding s.findings := by
  obtain ⟨r, hr, hx⟩ := Checks.bind_eq_ok.mp hx
  cases r with
  | none =>
    cases hx
    exact ⟨s, Checks.bind_eq_ok.mpr ⟨none, hr, rfl⟩, hs, rfl⟩
  | some record =>
    obtain ⟨fingerprint, hfingerprint, hx⟩ := Checks.bind_eq_ok.mp hx
    obtain ⟨finding, hfinding, hx⟩ := Checks.bind_eq_ok.mp hx
    cases hx
    have hsame : finding.fingerprint = fingerprint := finding_fingerprint hfinding
    have hseen : s.seenFingerprints = s.findings.map (·.fingerprint) := hs
    by_cases hold : fingerprint ∈ s.seenFingerprints
    · refine ⟨s, Checks.bind_eq_ok.mpr ⟨some record, hr, Checks.bind_eq_ok.mpr
        ⟨fingerprint, hfingerprint, if_pos hold⟩⟩, hs, ?_⟩
      rw [hseen] at hold
      exact (if_pos (hsame ▸ hold)).symm
    · refine ⟨⟨s.seenFingerprints ++ [fingerprint], s.findings ++ [finding]⟩,
        Checks.bind_eq_ok.mpr ⟨some record, hr, Checks.bind_eq_ok.mpr ⟨fingerprint, hfingerprint,
          (if_neg hold).trans (Checks.bind_eq_ok.mpr ⟨finding, hfinding, rfl⟩)⟩⟩, ?_, ?_⟩
      · simp [ParserState.Agrees, hseen, hsame]
      · rw [hseen] at hold
        exact (if_neg (hsame ▸ hold)).symm

/-- **Readable lines** add their findings one after the other. -/
theorem foldlM_parseLine {lines : List (List Char)} {xs : List (Option (NucleiFinding F))}
    (hxs : lines.mapM (lineFinding py repr) = .ok xs) {s : ParserState F} (hs : s.Agrees) :
    ∃ s', lines.foldlM (parseLine py repr) s = .ok s' ∧
      s'.findings = (xs.map Option.toList).flatten.foldl pushFinding s.findings := by
  induction lines generalizing s xs with
  | nil =>
    cases hxs
    exact ⟨s, rfl, rfl⟩
  | cons line lines ih =>
    rw [List.mapM_cons] at hxs
    obtain ⟨x, hx, hxs⟩ := Checks.bind_eq_ok.mp hxs
    obtain ⟨xs', hxs', hxs⟩ := Checks.bind_eq_ok.mp hxs
    cases hxs
    obtain ⟨s₁, hstep, hs₁, hfindings₁⟩ := parseLine_push hs hx
    obtain ⟨s₂, hrest, hfindings₂⟩ := ih hxs' hs₁
    refine ⟨s₂, ?_, ?_⟩
    · rw [List.foldlM_cons]
      exact Checks.bind_eq_ok.mpr ⟨s₁, hstep, hrest⟩
    · rw [hfindings₂, hfindings₁]
      simp [List.foldl_append]

/-- The findings of readable lines, the first of each fingerprint. -/
theorem parseVulnerabilities_eq {stdout : List Char} {xs : List (Option (NucleiFinding F))}
    (hxs : (splitlines stdout).mapM (lineFinding py repr) = .ok xs) :
    parseVulnerabilities py repr stdout =
      .ok (keepFirst (·.fingerprint) (xs.map Option.toList).flatten) := by
  obtain ⟨s, hs, hfindings⟩ := foldlM_parseLine hxs (s := ⟨[], []⟩) rfl
  have hkept := foldl_keepFirst (fun f : NucleiFinding F => f.fingerprint)
    (xs.map Option.toList).flatten []
  have hfilter : (keepFirst (fun f : NucleiFinding F => f.fingerprint)
      (xs.map Option.toList).flatten).filter (fun a => a.fingerprint ∉
        ([] : List (NucleiFinding F)).map (·.fingerprint)) =
      keepFirst (fun f : NucleiFinding F => f.fingerprint) (xs.map Option.toList).flatten := by
    simp
  refine Checks.bind_eq_ok.mpr ⟨s, hs, ?_⟩
  rw [hfindings]
  exact congrArg Except.ok (hkept.trans (by rw [hfilter]; rfl))

/-! ## A line alone -/

/-- On the first line nothing has been seen, so that its finding is built and whatever raises there
raises. -/
theorem parseLine_error {line : List Char} {fault : ParserFault}
    (h : lineFinding py repr line = .error fault) :
    parseLine py repr ⟨[], []⟩ line = .error fault := by
  unfold lineFinding at h
  unfold parseLine
  cases hr : lineRecord py line with
  | error fault' =>
    rw [hr] at h
    cases h
    rfl
  | ok r =>
    rw [hr] at h
    cases r with
    | none => cases h
    | some record =>
      simp only [bind, Except.bind] at h ⊢
      cases hfingerprint : nucleiFingerprint py record.templateId record.matcher
          record.matchedAt with
      | error fault' =>
        rw [hfingerprint] at h
        cases h
        rfl
      | ok fingerprint =>
        rw [hfingerprint] at h
        simp only [List.not_mem_nil, if_false] at h ⊢
        cases hfinding : record.finding py repr fingerprint with
        | error fault' =>
          rw [hfinding] at h
          cases h
          rfl
        | ok finding =>
          rw [hfinding] at h
          cases h

/-- The lines of a text, each with what the parser makes of it alone. -/
theorem parseVulnerabilities_line {stdout line : List Char} (h : line ∈ splitlines stdout) :
    parseVulnerabilities py repr line = (lineFinding py repr line).map Option.toList := by
  have hone := splitlines_line h
  by_cases hblank : line = []
  · subst hblank
    rfl
  · rw [if_neg hblank] at hone
    cases hx : lineFinding py repr line with
    | ok x =>
      have hxs : (splitlines line).mapM (lineFinding py repr) = .ok [x] := by
        rw [hone, List.mapM_cons, hx]
        rfl
      rw [parseVulnerabilities_eq hxs]
      cases x <;> rfl
    | error fault =>
      unfold parseVulnerabilities
      rw [hone, List.foldlM_cons, parseLine_error hx]
      rfl

/-! ## The law -/

variable (py repr) in
/-- The parser raises neither on the text nor on a line of it alone, and makes of the text what it
makes of its lines, without later findings of a fingerprint that has been seen. -/
def LineLocal (stdout : List Char) : Prop :=
  ∃ alone, (splitlines stdout).mapM (parseVulnerabilities py repr) = .ok alone ∧
    parseVulnerabilities py repr stdout = .ok (keepFirst (·.fingerprint) alone.flatten)

theorem mapM_line {stdout : List Char} {lines : List (List Char)}
    (h : ∀ line ∈ lines, line ∈ splitlines stdout) :
    lines.mapM (parseVulnerabilities py repr) =
      (lines.mapM (lineFinding py repr)).map (List.map Option.toList) := by
  induction lines with
  | nil => rfl
  | cons line lines ih =>
    rw [List.mapM_cons, List.mapM_cons, parseVulnerabilities_line (h line List.mem_cons_self),
      ih fun line hline => h line (List.mem_cons_of_mem _ hline)]
    cases lineFinding py repr line with
    | error fault => rfl
    | ok x => cases lines.mapM (lineFinding py repr) <;> rfl

/-- **An output is read line by line** exactly when each of its lines is readable. -/
theorem line_local_iff (py : Python F) (repr : Doc F → String) (stdout : List Char) :
    LineLocal py repr stdout ↔ ∀ line ∈ splitlines stdout, ReadableLine py line := by
  have halone : (splitlines stdout).mapM (parseVulnerabilities py repr) =
      ((splitlines stdout).mapM (lineFinding py repr)).map (List.map Option.toList) :=
    mapM_line fun _ h => h
  constructor
  · rintro ⟨alone, hlines, -⟩ line hline
    rw [halone] at hlines
    obtain ⟨xs, hxs, -⟩ := Checks.map_eq_ok.mp hlines
    exact lineFinding_isOk.mp (Checks.mapM_isOk.mp ⟨xs, hxs⟩ line hline)
  · intro h
    have heach : ∀ line ∈ splitlines stdout, ∃ x, lineFinding py repr line = .ok x :=
      fun line hline => lineFinding_isOk.mpr (h line hline)
    obtain ⟨xs, hxs⟩ := Checks.mapM_isOk.mpr heach
    exact ⟨xs.map Option.toList, halone.trans (Checks.map_eq_ok.mpr ⟨xs, hxs, rfl⟩),
      parseVulnerabilities_eq hxs⟩

/-- An interpreter, as far as the examples need it. -/
def labPython : Python (List Char) where
  lower s := s.map Char.toLower
  lower_ne_nil s h := by simpa using h
  upper s := s.map Char.toUpper
  isAlpha := Char.isAlpha
  isUpper s := s.any Char.isUpper && !s.any Char.isLower
  isDigit c := c.isDigit || c = '²'
  decimal c := if c.isDigit then some (c.toNat - '0'.toNat) else none
  floatOfNumeral numeral := numeral
  floatOfText s := if s.all Char.isDigit then some s else none
  floatOfInt n := if n.natAbs < floatOverflow then some (toString n).toList else none
  floatOfInt_isSome _ := Option.isSome_ite
  floatTruthy _ := true
  netlocAccepted _ := true
  unquotePlus s := s.map fun c => if c = '+' then ' ' else c
  intMaxStrDigits := 4300
  maxNesting := 990

/-- A critical finding, and one at a port that is a superscript. -/
def labOutput : List Char :=
  ("\x7b\"template-id\":\"rce\",\"matched-at\":\"http://h/a\"\x7d\n" ++
    "\x7b\"template-id\":\"t\",\"matched-at\":\"http://h:²/\"\x7d").toList

/-- **One line costs all findings.** -/
theorem superscript_port_raises : ¬ LineLocal labPython (fun _ => "") labOutput := by
  have hraises : parseVulnerabilities labPython (fun _ => "") labOutput = .error .valueError := by
    rfl
  rintro ⟨alone, -, h⟩
  rw [hraises] at h
  cases h

end ScanPlatform

/-! ## Normalizing a location again -/

namespace ScanPlatform

open PyStr

section

variable {F : Type} {py : Python F}

/-- The location of a finding is normalized, and normalizing it again leaves it as it is. -/
def NormalizedOnce (py : Python F) (value : String) : Prop :=
  ∃ location, normalizeLocation py value = some location ∧
    normalizeLocation py location = some location

theorem normalizedOnce_iff {value : String} : NormalizedOnce py value ↔
    ∃ location, normalizeChars py value.toList = some location ∧
      normalizeChars py location = some location := by
  unfold NormalizedOnce
  simp only [normalizeLocation_eq]
  constructor
  · rintro ⟨location, h, h'⟩
    obtain ⟨chars, hchars, rfl⟩ := Option.map_eq_some_iff.mp h
    rw [String.toList_ofList] at h'
    obtain ⟨chars', hchars', heq⟩ := Option.map_eq_some_iff.mp h'
    obtain rfl := String.ofList_injective heq
    exact ⟨chars', hchars, hchars'⟩
  · rintro ⟨chars, h, h'⟩
    refine ⟨String.ofList chars, Option.map_eq_some_iff.mpr ⟨chars, h, rfl⟩, ?_⟩
    rw [String.toList_ofList, h']
    rfl

/-- **When a location is normalized once and for all**: its port is readable, no second port shows
up behind one that is left out, and the case of a source location is not lost. -/
theorem normalized_once_iff (py : Python F) (hlaw : py.Lawful) (value : String) :
    NormalizedOnce py value ↔ PortReadable py value ∧
      (contains value "://" = true → ¬ StripsAgain py value.toList) ∧
      (contains value "://" = false → ¬ LosesCase py value.toList) := by
  rw [normalizedOnce_iff, ← normalizeLocation_isSome, normalizeLocation_eq, Option.isSome_map]
  have hiff : contains value "://" = true ↔ "://".toList <:+: value.toList :=
    contains_iff (by decide)
  by_cases hcontains : contains value "://" = true
  · have hurl := hiff.mp hcontains
    rw [normalizeChars_url hurl]
    simp only [hcontains, forall_const, Bool.true_eq_false, false_imp_iff, and_true]
    cases hnormal : normalizeUrl py value.toList with
    | none => simp
    | some url =>
      have hagain := url_again hlaw hurl hnormal
      simpa using hagain
  · have hurl : ¬ "://".toList <:+: value.toList := fun h => hcontains (hiff.mpr h)
    have hfalse : contains value "://" = false := eq_false_of_ne_true hcontains
    simp only [hfalse, Bool.false_eq_true, false_imp_iff, true_and, forall_const]
    cases hsource : sourceLocation py value.toList with
    | none =>
      obtain ⟨hurl', hsource', hagain⟩ := normalizeHostPort_again hlaw hurl hsource
      have hloses : ¬ LosesCase py value.toList := by
        rintro ⟨path, m, hsource', -⟩
        rw [hsource] at hsource'
        cases hsource'
      rw [normalizeChars_host hurl hsource]
      refine iff_of_true ⟨_, rfl, ?_⟩ ⟨rfl, hloses⟩
      rw [normalizeChars_host hurl' hsource', hagain]
    | some m =>
      have hagain := source_again hlaw hsource
      rw [normalizeChars_source hurl hsource]
      simpa using hagain

end

/-! ## An interpreter -/

theorem isMark_eq_false {c : Char} (h : 48 ≤ c.toNat ∧ c.toNat ≤ 57 ∨
    65 ≤ c.toNat ∧ c.toNat ≤ 90 ∨ 97 ≤ c.toNat ∧ c.toNat ≤ 122) : isMark c = false := by
  have hne : ∀ d ∈ [':', '/', '\\', '[', ']', '@', '?', '#'], c ≠ d := by
    rintro d hd rfl
    simp only [List.mem_cons, List.not_mem_nil, or_false] at hd
    rcases hd with rfl | rfl | rfl | rfl | rfl | rfl | rfl | rfl <;> revert h <;> decide
  have hspace : isSpace c = false := isSpace_eq_false (by omega) (by omega)
  unfold isMark
  rw [hspace, Bool.or_false, decide_eq_false_iff_not]
  exact fun hmem => hne c hmem rfl

theorem becomes_toLower (c : Char) : Python.Becomes c [c.toLower] := by
  have hlower := toNat_toLower c
  unfold Python.Becomes
  by_cases hupper : 65 ≤ c.toNat ∧ c.toNat ≤ 90
  · rw [if_pos hupper] at hlower
    rw [isMark_eq_false (.inr (.inl hupper)), if_neg (by simp)]
    refine ⟨List.cons_ne_nil _ _, fun d hd => ?_⟩
    rw [List.mem_singleton.mp hd]
    exact isMark_eq_false (.inr (.inr (by omega)))
  · rw [if_neg hupper] at hlower
    rw [Char.toNat_inj.mp hlower]
    split_ifs with hmark
    · rfl
    · exact ⟨List.cons_ne_nil _ _, fun d hd => by
        rw [List.mem_singleton.mp hd]
        exact eq_false_of_ne_true hmark⟩

theorem labPython_lawful : labPython.Lawful where
  lower_pieces s := by
    refine ⟨s.map fun c => [c.toLower], ?_, ?_⟩
    · rw [List.forall₂_map_right_iff, List.forall₂_same]
      exact fun c _ => becomes_toLower c
    · change s.map Char.toLower = _
      rw [← List.flatMap_def]
      exact List.map_eq_flatMap
  lower_fixed s t h := by
    change t.map Char.toLower = t
    conv_rhs => rw [← List.map_id t]
    refine List.map_congr_left fun c hc => ?_
    obtain ⟨d, -, rfl⟩ := List.mem_map.mp (h hc)
    exact toLower_toLower d
  decimal_mark c h := by
    refine if_neg fun hdigit => ?_
    have hrange : 48 ≤ c.toNat ∧ c.toNat ≤ 57 := by
      simpa [Char.isDigit, UInt32.le_iff_toNat_le] using hdigit
    rw [isMark_eq_false (.inl hrange)] at h
    cases h

/-- A host is normalized once. -/
theorem normalized_once_host : NormalizedOnce labPython "Host:22" := by
  refine (normalized_once_iff labPython labPython_lawful "Host:22").mpr ⟨?_, ?_, ?_⟩
  · intro port hport
    cases hport
  · intro h
    cases h
  · rintro - ⟨path, m, hsource, -⟩
    cases hsource

/-- A path that loses its directory, a host with two default ports, and a port that is no number
are not. -/
theorem not_normalized_once : ¬ NormalizedOnce labPython "./Main.java:42" ∧
    ¬ NormalizedOnce labPython "http://h:80:80/" ∧ ¬ NormalizedOnce labPython "http://h:²/" := by
  refine ⟨?_, ?_, ?_⟩
  · rintro ⟨location, h, h'⟩
    have hlocation : normalizeLocation labPython "./Main.java:42" = some "Main.java:42" := by rfl
    have hagain : normalizeLocation labPython "Main.java:42" = some "main.java:42" := by rfl
    obtain rfl := Option.some.inj (hlocation.symm.trans h)
    exact absurd (Option.some.inj (hagain.symm.trans h')) (by decide)
  · rintro ⟨location, h, h'⟩
    have hlocation : normalizeLocation labPython "http://h:80:80/" = some "http://h:80/" := by rfl
    have hagain : normalizeLocation labPython "http://h:80/" = some "http://h/" := by rfl
    obtain rfl := Option.some.inj (hlocation.symm.trans h)
    exact absurd (Option.some.inj (hagain.symm.trans h')) (by decide)
  · rintro ⟨location, h, -⟩
    have hraises : normalizeLocation labPython "http://h:²/" = none := by rfl
    rw [hraises] at h
    cases h

end ScanPlatform

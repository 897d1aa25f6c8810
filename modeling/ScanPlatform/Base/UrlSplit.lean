import ScanPlatform.Base.PyText

/-!
# The `urllib.parse` module

* `SplitResult`, `urlsplit`, `urlunsplit`: a URL and its five parts;
* `urlunsplit_ne_nil`: a URL with a scheme is not empty;
* `SplitResult.Clean`, **`urlsplit_urlunsplit`**: parts that are made into a URL and split again;
* `SplitResult.Parsed`, **`urlsplit_parsed`**: what the parts are made of;
* `queryNames`: the names of `parse_qs`.
-/

set_option autoImplicit false

namespace UrlSplit

open PyStr

structure SplitResult where
  scheme : List Char
  netloc : List Char
  path : List Char
  query : List Char
  fragment : List Char

/-- `scheme_chars`. -/
def isSchemeChar (c : Char) : Bool := c.isAlphanum || c ∈ ['+', '-', '.']

/-- The scheme of a URL, in lower case, and the rest. -/
def splitScheme (url : List Char) : List Char × List Char :=
  match partition ':' url with
  | (c :: cs, [_], rest) =>
    if c.isAlpha ∧ (c :: cs).all isSchemeChar then ((c :: cs).map Char.toLower, rest) else ([], url)
  | _ => ([], url)

/-- `_splitnetloc`, from where the network location begins. -/
def splitNetloc (url : List Char) : List Char × List Char :=
  let ends := fun c => c ∈ ['/', '?', '#']
  (url.takeWhile fun c => !ends c, url.dropWhile fun c => !ends c)

/-- `urlsplit`; `none` is a `ValueError`. -/
def urlsplit {F : Type} (py : Python F) (url : List Char) : Option SplitResult :=
  let url := (url.dropWhile fun c => c.toNat ≤ 0x20).filter fun c => c ∉ ['\t', '\r', '\n']
  let (scheme, url) := splitScheme url
  let (netloc, url) := match url with
    | '/' :: '/' :: rest => splitNetloc rest
    | url => ([], url)
  if ('[' ∈ netloc ↔ ']' ∉ netloc) then none
  else if !py.netlocAccepted netloc then none
  else
    let (url, _, fragment) := partition '#' url
    let (path, _, query) := partition '?' url
    some { scheme, netloc, path, query, fragment }

/-- `uses_netloc`. -/
def usesNetloc : List String :=
  ["", "ftp", "http", "gopher", "nntp", "telnet", "imap", "wais", "file", "mms", "https", "shttp",
    "snews", "prospero", "rtsp", "rtsps", "rtspu", "rsync", "svn", "svn+ssh", "sftp", "nfs", "git",
    "git+ssh", "ws", "wss"]

/-- `urlunsplit`. -/
def urlunsplit (parts : SplitResult) : List Char :=
  let url := parts.path
  let url :=
    if parts.netloc ≠ [] ∨ parts.scheme ≠ [] ∧ String.ofList parts.scheme ∈ usesNetloc ∨
        url.take 2 = ['/', '/'] then
      let url := if url ≠ [] ∧ url.head? ≠ some '/' then '/' :: url else url
      ['/', '/'] ++ parts.netloc ++ url
    else url
  let url := if parts.scheme ≠ [] then parts.scheme ++ ':' :: url else url
  let url := if parts.query ≠ [] then url ++ '?' :: parts.query else url
  if parts.fragment ≠ [] then url ++ '#' :: parts.fragment else url

theorem urlunsplit_ne_nil {parts : SplitResult} (h : parts.scheme ≠ []) :
    urlunsplit parts ≠ [] := by
  unfold urlunsplit
  simp only [if_pos h]
  split_ifs <;> simp

/-- The names in a query, as `parse_qs` with `keep_blank_values` finds them. -/
def queryNames {F : Type} (py : Python F) (query : List Char) : List (List Char) :=
  (((query.splitOn '&').filter (· ≠ [])).map fun field =>
    py.unquotePlus (partition '=' field).1).dedup

/-! ## Round trips -/

/-- What `urlsplit` asks of a network location. -/
def Accepted {F : Type} (py : Python F) (netloc : List Char) : Prop :=
  ¬('[' ∈ netloc ↔ ']' ∉ netloc) ∧ py.netlocAccepted netloc = true

instance {F : Type} (py : Python F) (netloc : List Char) : Decidable (Accepted py netloc) :=
  inferInstanceAs (Decidable (_ ∧ _))

/-- The characters that `urlsplit` takes out of a URL. -/
def isUnsafe (c : Char) : Bool := c ∈ ['\t', '\r', '\n']

/-- The parts of a URL with a scheme and a path, and without a fragment. -/
structure SplitResult.Clean (parts : SplitResult) : Prop where
  uses : String.ofList parts.scheme ∈ usesNetloc
  scheme : ∃ c cs, parts.scheme = c :: cs ∧ c.isAlpha = true ∧ (c :: cs).all isSchemeChar = true ∧
    (c :: cs).map Char.toLower = c :: cs
  netloc : ∀ c ∈ parts.netloc, c ∉ ['/', '?', '#'] ∧ isUnsafe c = false
  path : ∃ path, parts.path = '/' :: path
  path_chars : ∀ c ∈ parts.path, c ∉ ['?', '#'] ∧ isUnsafe c = false
  query : ∀ c ∈ parts.query, c ≠ '#' ∧ isUnsafe c = false
  fragment : parts.fragment = []

/-- The query with its mark. -/
def queryText (query : List Char) : List Char := if query = [] then [] else '?' :: query

section

variable {F : Type} {py : Python F} {parts : SplitResult}

/-- What is left of a URL when blanks before it and unsafe characters are taken out. -/
def stripped (url : List Char) : List Char :=
  (url.dropWhile fun c => c.toNat ≤ 0x20).filter fun c => c ∉ ['\t', '\r', '\n']

/-- The network location and the rest. -/
def splitLocation : List Char → List Char × List Char
  | '/' :: '/' :: rest => splitNetloc rest
  | url => ([], url)

/-- The parts of the rest of a URL. -/
def SplitResult.of (scheme netloc rest : List Char) : SplitResult where
  scheme := scheme
  netloc := netloc
  path := (partition '?' (partition '#' rest).1).1
  query := (partition '?' (partition '#' rest).1).2.2
  fragment := (partition '#' rest).2.2

theorem urlsplit_eq (url : List Char) : urlsplit py url =
    if Accepted py (splitLocation (splitScheme (stripped url)).2).1 then
      some (.of (splitScheme (stripped url)).1 (splitLocation (splitScheme (stripped url)).2).1
        (splitLocation (splitScheme (stripped url)).2).2)
    else none := by
  set location := splitLocation (splitScheme (stripped url)).2
  have hurl : urlsplit py url =
      if ('[' ∈ location.1 ↔ ']' ∉ location.1) then none
      else if !py.netlocAccepted location.1 then none
      else some (.of (splitScheme (stripped url)).1 location.1 location.2) := rfl
  rw [hurl]
  by_cases hbrackets : ('[' ∈ location.1 ↔ ']' ∉ location.1)
  · rw [if_pos hbrackets, if_neg fun h : Accepted py location.1 => h.1 hbrackets]
  · rw [if_neg hbrackets]
    by_cases haccepted : py.netlocAccepted location.1 = true
    · rw [if_neg (by simp [haccepted]), if_pos ⟨hbrackets, haccepted⟩]
    · rw [if_pos (by simpa using haccepted),
        if_neg fun h : Accepted py location.1 => haccepted h.2]

theorem urlunsplit_clean (h : parts.Clean) :
    urlunsplit parts =
      parts.scheme ++ ':' :: '/' :: '/' :: (parts.netloc ++ (parts.path ++ queryText parts.query))
    := by
  obtain ⟨c, cs, hscheme, -⟩ := h.scheme
  obtain ⟨path, hpath⟩ := h.path
  have hne : parts.scheme ≠ [] := by
    rw [hscheme]
    exact List.cons_ne_nil c cs
  by_cases hquery : parts.query = []
  · simp [urlunsplit, queryText, hne, h.uses, hpath, h.fragment, hquery]
  · simp [urlunsplit, queryText, hne, h.uses, hpath, h.fragment, hquery]

theorem safe_of_isSchemeChar {c : Char} (h : isSchemeChar c = true) :
    isUnsafe c = false ∧ c ≠ ':' := by
  have hnone : ∀ d ∈ ['\t', '\r', '\n', ':'], isSchemeChar d = false := by
    simp only [List.forall_mem_cons, List.not_mem_nil, false_imp_iff, forall_const, and_true]
    decide
  have hne : ∀ d ∈ ['\t', '\r', '\n', ':'], c ≠ d := by
    rintro d hd rfl
    rw [hnone c hd] at h
    cases h
  exact ⟨by simp [isUnsafe, hne], hne ':' (by simp)⟩

theorem safe_urlunsplit (h : parts.Clean) : ∀ c ∈ urlunsplit parts, isUnsafe c = false := by
  obtain ⟨c, cs, hscheme, -, hall, -⟩ := h.scheme
  intro d hd
  rw [urlunsplit_clean h] at hd
  simp only [List.mem_append, List.mem_cons, queryText] at hd
  rcases hd with hd | rfl | rfl | rfl | hd | hd | hd
  · exact (safe_of_isSchemeChar (List.all_eq_true.mp hall d (hscheme ▸ hd))).1
  · decide
  · decide
  · decide
  · exact (h.netloc d hd).2
  · exact (h.path_chars d hd).2
  · split_ifs at hd
    · simp at hd
    · rcases List.mem_cons.mp hd with rfl | hd
      · decide
      · exact (h.query d hd).2

theorem toNat_of_isAlpha {c : Char} (h : c.isAlpha = true) : ¬ c.toNat ≤ 0x20 := by
  have hcase : (c.isUpper || c.isLower) = true := h
  have hA : 'A'.val.toNat = 65 := rfl
  have ha : 'a'.val.toNat = 97 := rfl
  have hle : 'A'.val.toNat ≤ c.val.toNat := by
    rcases Bool.or_eq_true_iff.mp hcase with hupper | hlower
    · exact UInt32.le_iff_toNat_le.mp (of_decide_eq_true hupper).1
    · have hbounds : (decide ('a'.val ≤ c.val) && decide (c.val ≤ 'z'.val)) = true := hlower
      have hle := of_decide_eq_true (Bool.and_eq_true_iff.mp hbounds).1
      have hle := UInt32.le_iff_toNat_le.mp hle
      omega
  change ¬ c.val.toNat ≤ 32
  omega

/-- Nothing is taken out of a clean URL. -/
theorem stripped_clean (h : parts.Clean) : stripped (urlunsplit parts) = urlunsplit parts := by
  obtain ⟨c, cs, hscheme, halpha, -⟩ := h.scheme
  have hdrop : ((urlunsplit parts).dropWhile fun c => c.toNat ≤ 0x20) = urlunsplit parts := by
    rw [urlunsplit_clean h, hscheme, List.cons_append]
    exact List.dropWhile_cons_of_neg (by simpa using toNat_of_isAlpha halpha)
  unfold stripped
  rw [hdrop, List.filter_eq_self]
  intro d hd
  have hsafe := safe_urlunsplit h d hd
  simpa [isUnsafe] using hsafe

theorem splitScheme_clean (h : parts.Clean) (rest : List Char) :
    splitScheme (parts.scheme ++ ':' :: rest) = (parts.scheme, rest) := by
  obtain ⟨c, cs, hscheme, halpha, hall, hlower⟩ := h.scheme
  have hcolon : ':' ∉ c :: cs := fun hmem =>
    (safe_of_isSchemeChar (List.all_eq_true.mp hall ':' hmem)).2 rfl
  unfold splitScheme
  rw [hscheme, partition_append_sep hcolon]
  dsimp only
  rw [if_pos ⟨halpha, hall⟩, hlower]

theorem splitLocation_clean (h : parts.Clean) (rest : List Char) :
    splitLocation ('/' :: '/' :: (parts.netloc ++ (parts.path ++ rest))) =
      (parts.netloc, parts.path ++ rest) := by
  obtain ⟨path, hpath⟩ := h.path
  have hnetloc : ∀ c ∈ parts.netloc, (!decide (c ∈ ['/', '?', '#'])) = true := fun c hc => by
    simpa using (h.netloc c hc).1
  change splitNetloc _ = _
  unfold splitNetloc
  dsimp only
  rw [List.takeWhile_append_of_pos hnetloc, List.dropWhile_append_of_pos hnetloc, hpath]
  simp

theorem of_clean (h : parts.Clean) :
    SplitResult.of parts.scheme parts.netloc (parts.path ++ queryText parts.query) = parts := by
  have hfragment : '#' ∉ parts.path ++ queryText parts.query := by
    intro hmem
    rcases List.mem_append.mp hmem with hmem | hmem
    · exact (h.path_chars '#' hmem).1 (by simp)
    · unfold queryText at hmem
      split_ifs at hmem
      · simp at hmem
      · rcases List.mem_cons.mp hmem with heq | hmem
        · exact absurd heq (by decide)
        · exact (h.query '#' hmem).1 rfl
  have hpath : '?' ∉ parts.path := fun hmem => (h.path_chars '?' hmem).1 (by simp)
  have hparts : partition '?' (parts.path ++ queryText parts.query) =
      (parts.path, if parts.query = [] then [] else ['?'], parts.query) := by
    unfold queryText
    split_ifs with hquery
    · rw [List.append_nil, partition_of_not_mem hpath, hquery]
    · rw [partition_append_sep hpath]
  unfold SplitResult.of
  rw [partition_of_not_mem hfragment, hparts]
  exact congrArg (SplitResult.mk parts.scheme parts.netloc parts.path parts.query)
    h.fragment.symm

/-- **A clean URL is split** into the parts that it was made from, if it is accepted. -/
theorem urlsplit_urlunsplit (h : parts.Clean) :
    urlsplit py (urlunsplit parts) = if Accepted py parts.netloc then some parts else none := by
  rw [urlsplit_eq, stripped_clean h, urlunsplit_clean h, splitScheme_clean h,
    splitLocation_clean h, of_clean h]

/-! ## What the parts are made of -/

theorem partition_fst (sep : Char) (s : List Char) :
    (partition sep s).1 = s.takeWhile (· ≠ sep) := by
  rcases partition_cases sep s with ⟨hmem, hpart⟩ | ⟨a, b, rfl, ha, hpart⟩
  · rw [hpart, List.takeWhile_eq_self_iff.mpr]
    intro c hc
    simpa using fun heq : c = sep => hmem (heq ▸ hc)
  · rw [hpart, takeWhile_append_sep ha]

theorem mem_of_mem_partition {sep c : Char} {s : List Char}
    (h : c ∈ (partition sep s).1 ∨ c ∈ (partition sep s).2.2) : c ∈ s := by
  rw [← partition_append sep s]
  rcases h with h | h
  · exact List.mem_append_left _ (List.mem_append_left _ h)
  · exact List.mem_append_right _ h

theorem mem_of_mem_splitScheme {c : Char} {url : List Char} (h : c ∈ (splitScheme url).2) :
    c ∈ url := by
  unfold splitScheme at h
  split at h
  · next d cs sep rest hpart =>
    split_ifs at h
    · exact @mem_of_mem_partition ':' c url (.inr (by rw [hpart]; exact h))
    · exact h
  · exact h

theorem safe_stripped {c : Char} {url : List Char} (h : c ∈ stripped url) :
    isUnsafe c = false := by
  unfold stripped at h
  simpa [isUnsafe] using (List.mem_filter.mp h).2

/-- The network location, and the rest behind it. -/
theorem splitLocation_spec (url : List Char) :
    (∀ c ∈ (splitLocation url).1, c ∈ url ∧ c ∉ ['/', '?', '#']) ∧
      (∀ c ∈ (splitLocation url).2, c ∈ url) ∧
      ((splitLocation url).1 ≠ [] → ∀ c ∈ (splitLocation url).2.head?, c ∈ ['/', '?', '#']) := by
  unfold splitLocation
  split
  · next rest =>
    unfold splitNetloc
    refine ⟨?_, ?_, ?_⟩
    · intro c hc
      refine ⟨List.mem_cons_of_mem _ (List.mem_cons_of_mem _ (List.takeWhile_subset _ hc)), ?_⟩
      simpa using List.mem_takeWhile_imp hc
    · intro c hc
      exact List.mem_cons_of_mem _ (List.mem_cons_of_mem _ (List.dropWhile_subset _ hc))
    · intro _ c hc
      have hhead := List.head?_dropWhile_not (fun c => !decide (c ∈ ['/', '?', '#'])) rest
      simp only at hc
      rw [Option.mem_def.mp hc] at hhead
      by_contra hno
      simp [hno] at hhead
  · exact ⟨by simp, fun c hc => hc, fun hne => absurd rfl hne⟩

/-- What holds of the parts that a URL is split into. -/
structure SplitResult.Parsed (py : Python F) (parts : SplitResult) : Prop where
  accepted : Accepted py parts.netloc
  netloc : ∀ c ∈ parts.netloc, c ∉ ['/', '?', '#'] ∧ isUnsafe c = false
  path : parts.netloc ≠ [] → parts.path ≠ [] → ∃ path, parts.path = '/' :: path
  path_chars : ∀ c ∈ parts.path, c ∉ ['?', '#'] ∧ isUnsafe c = false
  query : ∀ c ∈ parts.query, c ≠ '#' ∧ isUnsafe c = false

/-- **The parts of a URL.** -/
theorem urlsplit_parsed {url : List Char} (h : urlsplit py url = some parts) :
    parts.Parsed py := by
  rw [urlsplit_eq] at h
  split_ifs at h with haccepted
  obtain rfl := Option.some.inj h
  obtain ⟨hnetloc, hrest, hhead⟩ := splitLocation_spec (splitScheme (stripped url)).2
  have hsafe : ∀ c ∈ (splitScheme (stripped url)).2, isUnsafe c = false := fun c hc =>
    safe_stripped (mem_of_mem_splitScheme hc)
  set location := splitLocation (splitScheme (stripped url)).2
  have hfirst : ∀ c ∈ (partition '#' location.2).1, c ∈ location.2 ∧ c ≠ '#' := by
    intro c hc
    refine ⟨mem_of_mem_partition (.inl hc), ?_⟩
    rw [partition_fst] at hc
    simpa using List.mem_takeWhile_imp hc
  refine ⟨haccepted, fun c hc => ⟨(hnetloc c hc).2, hsafe c (hnetloc c hc).1⟩, ?_, ?_, ?_⟩
  · intro hne hpath
    simp only [SplitResult.of, partition_fst] at hne hpath ⊢
    cases hloc : location.2 with
    | nil => simp [hloc] at hpath
    | cons c rest =>
      have hc := hhead hne c (by simp [hloc])
      simp only [List.mem_cons, List.not_mem_nil, or_false] at hc
      rcases hc with rfl | rfl | rfl
      · exact ⟨(rest.takeWhile (· ≠ '#')).takeWhile (· ≠ '?'), by simp⟩
      · simp [hloc] at hpath
      · simp [hloc] at hpath
  · intro c hc
    obtain ⟨hmem, hhash⟩ := hfirst c (mem_of_mem_partition (.inl hc))
    have hmark : c ≠ '?' := by
      simp only [SplitResult.of, partition_fst] at hc
      simpa using List.mem_takeWhile_imp hc
    exact ⟨by simp [hmark, hhash], hsafe c (hrest c hmem)⟩
  · intro c hc
    obtain ⟨hmem, hhash⟩ := hfirst c (mem_of_mem_partition (.inr hc))
    exact ⟨hhash, hsafe c (hrest c hmem)⟩

end

end UrlSplit

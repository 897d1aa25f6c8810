import ScanPlatform.Base.UrlSplit

/-!
# The location of a finding

How the location that a tool reports is normalized before it becomes part of a fingerprint.

* `normalizeUrl`, `normalizeSourceLocation`, `normalizeHostPort`, `normalizeLocation`: the
  functions; `none` is the `ValueError` of the port, which they let through;
* `defaultPortText`, `PortReadable`, **`normalizeLocation_isSome`**: when there is none;
* **`normalizeLocation_ne_nil`**: a location stays one.
-/

set_option autoImplicit false

namespace ScanPlatform

open PyStr UrlSplit

variable {F : Type}

/-! ## URLs -/

/-- `_DEFAULT_PORTS`. -/
def defaultPorts : List (String × ℕ) := [("http", 80), ("https", 443)]

/-- `_is_hex`. -/
def isHex (c : Char) : Bool := (hexDigit c).isSome

/-- `_lowercase_percent_escapes`. -/
def lowercasePercentEscapes : List Char → List Char
  | '%' :: a :: b :: cs =>
    if isHex a ∧ isHex b then '%' :: a.toLower :: b.toLower :: lowercasePercentEscapes cs
    else '%' :: lowercasePercentEscapes (a :: b :: cs)
  | c :: cs => c :: lowercasePercentEscapes cs
  | [] => []

/-- The user part of a network location with its `@`, and the rest. -/
def splitUserinfo (netloc : List Char) : List Char × List Char :=
  match rpartition '@' netloc with
  | (userinfo, [at_], hostport) => (userinfo ++ [at_], hostport)
  | _ => ([], netloc)

/-- The host of a network location, in lower case, and its port, which may be empty; a bracket that
is not closed is left alone. -/
def splitHostPort (py : Python F) (hostport : List Char) : Option (List Char × List Char) :=
  match hostport with
  | '[' :: _ =>
    match partition ']' hostport with
    | (host, [close], rest) =>
      some (py.lower (host ++ [close]), match rest with
        | ':' :: port => port
        | rest => rest)
    | _ => none
  | hostport =>
    match rpartition ':' hostport with
    | (host, [_], port) => some (py.lower host, port)
    | _ => some (py.lower hostport, [])

/-- `port.isdigit()`. -/
def isDigits (py : Python F) (port : List Char) : Bool := port ≠ [] ∧ port.all py.isDigit

/-- A port that is the default of the scheme is dropped. -/
def dropDefaultPort (py : Python F) (scheme port : List Char) : Option (List Char) :=
  match defaultPorts.lookup (String.ofList scheme) with
  | some default =>
    if isDigits py port then
      (py.intOfDigits port).map fun n => if n = default then [] else port
    else some port
  | none => some port

/-- `_normalize_authority`. -/
def normalizeAuthority (py : Python F) (netloc scheme : List Char) : Option (List Char) :=
  let (userinfo, hostport) := splitUserinfo netloc
  match splitHostPort py hostport with
  | none => some (userinfo ++ hostport)
  | some (host, port) =>
    (dropDefaultPort py scheme port).map fun port =>
      userinfo ++ host ++ if port = [] then [] else ':' :: port

/-- A URL that `normalize_url` understands. -/
def httpParts (py : Python F) (value : List Char) : Option SplitResult :=
  (urlsplit py value).filter fun parts =>
    (defaultPorts.lookup (String.ofList parts.scheme)).isSome ∧ parts.netloc ≠ []

/-- `normalize_url`. -/
def normalizeUrl (py : Python F) (value : List Char) : Option (List Char) :=
  match httpParts py value with
  | none => some value
  | some parts =>
    (normalizeAuthority py parts.netloc parts.scheme).map fun netloc =>
      let path := lowercasePercentEscapes parts.path
      urlunsplit {
        scheme := parts.scheme, netloc, path := if path = [] then ['/'] else path
        query := lowercasePercentEscapes parts.query, fragment := [] }

/-! ## Other locations -/

/-- `normalize_host_port`. -/
def normalizeHostPort (py : Python F) (value : List Char) : List Char :=
  match value with
  | '[' :: _ =>
    match partition ']' value with
    | (host, [close], rest) => py.lower (host ++ [close]) ++ rest
    | _ => value
  | value =>
    let (host, sep, port) := partition ':' value
    py.lower host ++ sep ++ port

/-- A match of `_SOURCE_LOCATION`: the path, the line and the column. -/
def sourceLocation (py : Python F) (value : List Char) :
    Option (List Char × List Char × List Char) :=
  -- The `$` of the pattern lets one newline at the end pass.
  let value := if value.getLast? = some '\n' then value.dropLast else value
  let isPath := fun path : List Char =>
    path.all (fun c => !isSpace c) ∧ path.any fun c => c = '/' ∨ c = '\\'
  let isNumber := fun digits : List Char => digits ≠ [] ∧ digits.all fun c => (py.decimal c).isSome
  match value.splitOn ':' with
  | [path, line] => if isPath path ∧ isNumber line then some (path, line, []) else none
  | [path, line, col] =>
    if isPath path ∧ isNumber line ∧ isNumber col then some (path, line, col) else none
  | _ => none

def dropDotSlash : List Char → List Char
  | '.' :: '/' :: path => dropDotSlash path
  | path => path

/-- `normalize_source_location`, of a match. -/
def normalizeSourceLocation (m : List Char × List Char × List Char) : List Char :=
  let (path, line, col) := m
  dropDotSlash (path.map fun c => if c = '\\' then '/' else c) ++ ':' :: line ++
    if col = [] then [] else ':' :: col

/-- `normalize_location`, of a text that is not empty. -/
def normalizeLocation (py : Python F) (value : String) : Option String :=
  if contains value "://" then (normalizeUrl py value.toList).map String.ofList
  else match sourceLocation py value.toList with
  | some m => some (String.ofList (normalizeSourceLocation m))
  | none => some (String.ofList (normalizeHostPort py value.toList))

/-! ## Ports -/

/-- The port of an `http` or `https` location, which is compared with the default. -/
def defaultPortText (py : Python F) (value : String) : Option (List Char) :=
  if contains value "://" then
    (httpParts py value.toList).bind fun parts =>
      (splitHostPort py (splitUserinfo parts.netloc).2).map Prod.snd
  else none

/-- A port that counts as a number for `isdigit` is one for `int`. -/
def PortReadable (py : Python F) (value : String) : Prop :=
  ∀ port ∈ defaultPortText py value, isDigits py port →
    port.length ≤ py.intMaxStrDigits ∧ ∀ c ∈ port, (py.decimal c).isSome

/-- A default port is dropped unless it is no number. -/
theorem dropDefaultPort_isSome {py : Python F} {scheme port : List Char}
    (h : (defaultPorts.lookup (String.ofList scheme)).isSome) :
    (dropDefaultPort py scheme port).isSome ↔ (isDigits py port →
      port.length ≤ py.intMaxStrDigits ∧ ∀ c ∈ port, (py.decimal c).isSome) := by
  obtain ⟨default, hdefault⟩ := Option.isSome_iff_exists.mp h
  unfold dropDefaultPort
  rw [hdefault]
  dsimp only
  by_cases hport : isDigits py port
  · rw [if_pos hport, Option.isSome_map, py.intOfDigits_isSome]
    simp [hport]
  · simp [hport]

theorem httpParts_eq_some {py : Python F} {value : List Char} {parts : SplitResult}
    (h : httpParts py value = some parts) :
    (defaultPorts.lookup (String.ofList parts.scheme)).isSome := by
  obtain ⟨-, hparts⟩ := Option.filter_eq_some_iff.mp h
  exact (of_decide_eq_true hparts).1

/-- **When a location is normalized**: always, unless its port is no number. -/
theorem normalizeLocation_isSome (py : Python F) (value : String) :
    (normalizeLocation py value).isSome ↔ PortReadable py value := by
  unfold normalizeLocation PortReadable defaultPortText
  by_cases hurl : contains value "://"
  · simp only [hurl, if_true, Option.isSome_map]
    unfold normalizeUrl
    cases hparts : httpParts py value.toList with
    | none => simp
    | some parts =>
      have hscheme := httpParts_eq_some hparts
      simp only [Option.isSome_map, Option.bind_some]
      unfold normalizeAuthority
      dsimp only
      cases hhost : splitHostPort py (splitUserinfo parts.netloc).2 with
      | none => simp
      | some hostport =>
        simp [Option.isSome_map, dropDefaultPort_isSome hscheme]
  · simp only [hurl]
    cases sourceLocation py value.toList <;> simp

/-! ## Locations are not lost -/

theorem scheme_ne_nil {py : Python F} {value : List Char} {parts : SplitResult}
    (h : httpParts py value = some parts) : parts.scheme ≠ [] := by
  intro hnil
  have hscheme := httpParts_eq_some h
  rw [hnil] at hscheme
  exact absurd hscheme (by decide)

theorem normalizeUrl_ne_nil {py : Python F} {value location : List Char} (hvalue : value ≠ [])
    (h : normalizeUrl py value = some location) : location ≠ [] := by
  unfold normalizeUrl at h
  split at h
  · exact Option.some.inj h ▸ hvalue
  · next parts hparts =>
    obtain ⟨netloc, -, rfl⟩ := Option.map_eq_some_iff.mp h
    have hscheme := scheme_ne_nil hparts
    exact urlunsplit_ne_nil hscheme

theorem normalizeHostPort_ne_nil (py : Python F) {value : List Char} (hvalue : value ≠ []) :
    normalizeHostPort py value ≠ [] := by
  have hlower : ∀ s, py.lower s = [] → s = [] := fun s h =>
    by_contra fun hs => py.lower_ne_nil s hs h
  unfold normalizeHostPort
  split
  · split
    · intro h
      simpa using hlower _ (List.append_eq_nil_iff.mp h).1
    · exact hvalue
  · intro h
    have hparts := partition_append ':' value
    simp only [List.append_eq_nil_iff] at h
    rw [hlower _ h.1.1, h.1.2, h.2] at hparts
    exact hvalue hparts.symm

theorem normalizeSourceLocation_ne_nil (m : List Char × List Char × List Char) :
    normalizeSourceLocation m ≠ [] := by
  unfold normalizeSourceLocation
  simp

/-- **A location stays one**: what is normalized is not empty. -/
theorem normalizeLocation_ne_nil {py : Python F} {value location : String} (hvalue : value ≠ "")
    (h : normalizeLocation py value = some location) : location ≠ "" := by
  have hlist : value.toList ≠ [] := by simpa using hvalue
  have hstring : ∀ s : List Char, s ≠ [] → String.ofList s ≠ "" := by
    intro s hs heq
    exact hs (by simpa using congrArg String.toList heq)
  unfold normalizeLocation at h
  split_ifs at h with hurl
  · obtain ⟨url, hnormal, rfl⟩ := Option.map_eq_some_iff.mp h
    exact hstring url (normalizeUrl_ne_nil hlist hnormal)
  · split at h
    · next m _ =>
      exact Option.some.inj h ▸ hstring _ (normalizeSourceLocation_ne_nil m)
    · exact Option.some.inj h ▸ hstring _ (normalizeHostPort_ne_nil py hlist)

end ScanPlatform

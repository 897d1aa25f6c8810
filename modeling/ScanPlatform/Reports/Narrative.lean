import ScanPlatform.Reports.Classification
import ScanPlatform.Vulnerabilities.Db

/-!
# The weakness class of a finding

The name under which a report speaks of a finding: by its CWE, else by the words of its template,
title and tags, else a generic one.

* `classFromCwe`, `classFromText`: the two sources of a class;
* `classifyWeakness`: the name of the class.
-/

set_option autoImplicit false

namespace ScanPlatform

/-- The names in `_CLASSES`. -/
def weaknessNames : List (String × String) :=
  [("sqli", "SQL Injection"), ("command_injection", "OS Command Injection"),
    ("ssrf", "Server-Side Request Forgery (SSRF)"), ("xss", "Cross-Site Scripting (XSS)"),
    ("path_traversal", "Path Traversal"), ("file_inclusion", "File Inclusion"),
    ("ssti", "Server-Side Template Injection"), ("deserialization", "Insecure Deserialisation"),
    ("xxe", "XML External Entity (XXE) Processing"),
    ("auth_bypass", "Authentication or Access-Control Bypass"),
    ("default_credentials", "Default or Weak Credentials"),
    ("csrf", "Cross-Site Request Forgery (CSRF)"), ("open_redirect", "Open Redirect"),
    ("security_headers", "Missing or Weak Security Headers"),
    ("tls", "Transport Security Weakness"), ("info_disclosure", "Information Disclosure"),
    ("outdated_component", "Outdated or Vulnerable Component"),
    ("exposed_panel", "Exposed Administrative Interface")]

/-- The name in `_GENERIC`. -/
def genericWeakness : String := "Security Weakness"

/-- `_CWE_TO_CLASS`. -/
def cweToClass : List (String × String) :=
  [("89", "sqli"), ("564", "sqli"), ("78", "command_injection"), ("77", "command_injection"),
    ("918", "ssrf"), ("79", "xss"), ("80", "xss"), ("22", "path_traversal"),
    ("23", "path_traversal"), ("35", "path_traversal"), ("98", "file_inclusion"),
    ("827", "file_inclusion"), ("1336", "ssti"), ("94", "ssti"), ("95", "ssti"),
    ("502", "deserialization"), ("611", "xxe"), ("827.1", "xxe"), ("287", "auth_bypass"),
    ("862", "auth_bypass"), ("863", "auth_bypass"), ("306", "auth_bypass"),
    ("639", "auth_bypass"), ("425", "auth_bypass"), ("521", "default_credentials"),
    ("1392", "default_credentials"), ("798", "default_credentials"),
    ("259", "default_credentials"), ("352", "csrf"), ("601", "open_redirect"),
    ("693", "security_headers"), ("1021", "security_headers"), ("16", "security_headers"),
    ("326", "tls"), ("327", "tls"), ("295", "tls"), ("319", "tls"), ("200", "info_disclosure"),
    ("213", "info_disclosure"), ("532", "info_disclosure"), ("538", "info_disclosure"),
    ("497", "info_disclosure"), ("548", "info_disclosure"), ("1035", "outdated_component"),
    ("1104", "outdated_component"), ("937", "outdated_component"), ("284", "exposed_panel")]

/-- `_TOKEN_MARKERS`, in the order in which they are tried. -/
def tokenMarkers : List (String × List String) :=
  [("sqli", ["sqli", "sql injection", "sql-injection", "blind sql", "error based sql"]),
    ("command_injection", ["command injection", "command-injection", "rce", "os command",
      "remote code execution", "code injection", "shell injection"]),
    ("ssrf", ["ssrf", "server side request forgery", "server-side request forgery"]),
    ("ssti", ["ssti", "template injection"]),
    ("xxe", ["xxe", "xml external entity"]),
    ("deserialization", ["deserialization", "deserialisation", "insecure deserialization"]),
    ("file_inclusion", ["lfi", "rfi", "local file inclusion", "remote file inclusion",
      "file inclusion"]),
    ("path_traversal", ["path traversal", "directory traversal", "path-traversal",
      "dir traversal", "file read", "arbitrary file read"]),
    ("xss", ["xss", "cross site scripting", "cross-site scripting"]),
    ("csrf", ["csrf", "cross site request forgery", "cross-site request forgery"]),
    ("open_redirect", ["open redirect", "open-redirect", "unvalidated redirect"]),
    ("default_credentials", ["default login", "default-login", "default credential",
      "default password", "weak password", "weak credential"]),
    ("auth_bypass", ["auth bypass", "authentication bypass", "authorization bypass",
      "access control", "improper access", "unauthenticated access", "privilege escalation"]),
    ("exposed_panel", ["admin panel", "login panel", "management interface", "admin portal",
      "exposed panel", "dashboard exposure"]),
    ("security_headers", ["security header", "missing header", "csp", "content security policy",
      "clickjacking", "x-frame-options", "hsts header"]),
    ("tls", ["tls", "ssl", "certificate", "cipher", "weak crypto", "self signed", "self-signed",
      "expired cert"]),
    ("outdated_component", ["outdated", "end of life", "eol", "obsolete", "unsupported version",
      "vulnerable version"]),
    ("info_disclosure", ["information disclosure", "info disclosure", "exposure", "exposed",
      "disclosure", "debug", "stack trace", "phpinfo", "listing", "backup file", "git config",
      "env file"])]

/-- `_norm`. -/
def normText (value : Option String) : String := PyStr.lower (PyStr.strip (value.getD ""))

/-- The digits of `_CWE_RE.search`, on lower-case characters. -/
def searchCwe : List Char → Option String
  | [] => none
  | c :: cs =>
    let digits := (dropSeparator ((c :: cs).drop 3)).takeWhile Char.isDigit
    if (c :: cs).take 3 = ['c', 'w', 'e'] ∧ digits ≠ [] then some (String.ofList digits)
    else searchCwe cs

/-- `_class_from_cwe`. -/
def classFromCwe (category : Option String) : Option String :=
  (searchCwe (normText category).toList).bind fun number => cweToClass.lookup number

/-- `re.sub(r"\s+", " ", text)`. -/
def collapseSpaces : List Char → List Char
  | [] => []
  | c :: cs =>
    if PyStr.isSpace c then
      if (cs.head?.any PyStr.isSpace) then collapseSpaces cs else ' ' :: collapseSpaces cs
    else c :: collapseSpaces cs

/-- Hyphens and underscores are spaces. -/
def spaced (text : String) : List Char :=
  text.toList.map fun c => if c = '-' ∨ c = '_' then ' ' else c

/-- A character of `[a-z0-9]`. -/
def isTokenChar (c : Char) : Bool := ('a' ≤ c ∧ c ≤ 'z') ∨ ('0' ≤ c ∧ c ≤ '9')

/-- The token stands alone somewhere in the characters, after a character that is `previous`. -/
def standsAlone (token : List Char) (previous : Option Char) : List Char → Bool
  | [] => false
  | c :: cs =>
    (!previous.any isTokenChar && token.isPrefixOf (c :: cs) &&
      !((c :: cs).drop token.length).head?.any isTokenChar) || standsAlone token (some c) cs

/-- A short marker matches as a word, and a long one anywhere. -/
def markerIn (haystack : List Char) (marker : String) : Bool :=
  let token := spaced marker
  if token.length ≤ 4 then standsAlone token none haystack
  else (PyStr.afterFirst token haystack).isSome

/-- `_class_from_text`. -/
def classFromText (values : List (Option String)) : Option String :=
  let words := (values.filterMap truthy).map fun value => normText (some value)
  let haystack := collapseSpaces (spaced (" ".intercalate words))
  if haystack.all PyStr.isSpace then none
  else (tokenMarkers.find? fun entry => entry.2.any (markerIn haystack)).map Prod.fst

/-- The tags as one text. -/
def tagText : Option Tags → String
  | none => ""
  | some (.text s) => normText (some s)
  | some (.items l) => " ".intercalate (l.map fun tag => normText (some tag))

/-- `classify_weakness`, by the name of the class. -/
def classifyWeakness (category templateId title : Option String) (tags : Option Tags) : String :=
  let key := (classFromCwe category).or (classFromText [templateId, title, some (tagText tags)])
  (key.bind fun name => weaknessNames.lookup name).getD genericWeakness

/-- Every class that the two sources give has a name of its own. -/
theorem classes_named :
    (∀ entry ∈ cweToClass, (weaknessNames.lookup entry.2).isSome) ∧
      ∀ entry ∈ tokenMarkers, (weaknessNames.lookup entry.1).isSome := by
  decide +kernel

example : classifyWeakness (some "CWE-89") none (some "Error page") none = "SQL Injection" := by
  decide +kernel

example : classifyWeakness none (some "nginx-eol") (some "Nginx") none =
    "Outdated or Vulnerable Component" := by
  decide +kernel

end ScanPlatform

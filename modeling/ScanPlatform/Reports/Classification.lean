import ScanPlatform.Base.PyStr

/-!
# Classification of findings

A finding is a detection when it reports something that is present, and a vulnerability when there
is any evidence that it can be exploited.

* `Finding`: what the score and the classifier read of a row;
* `classify`, `classifyRow`: the classifier.
-/

set_option autoImplicit false

namespace ScanPlatform

/-- The tags of a finding: one text, or a list of texts. -/
inductive Tags
  | text (s : String)
  | items (l : List String)

structure Finding (K : Type*) where
  severity : Option String
  status : Option String
  templateId : Option String
  title : Option String
  matchedAt : Option String
  cvssScore : Option K
  finalRiskScore : Option K
  tags : Option Tags
  cve : Option String

inductive Classification
  | vulnerability
  | detection
  deriving DecidableEq

/-- The text, if it is one that counts as true. -/
def truthy (s : Option String) : Option String := s.filter fun s => s ≠ ""

def detectionTemplateMarkers : List String :=
  ["detect", "fingerprint", "-eol", "-version", "version-detect"]

def detectionTemplatePrefixes : List String := ["tech-", "waf-"]

def detectionTags : List String :=
  ["tech", "detect", "detection", "waf", "fingerprint", "fingerprints", "favicon"]

def exploitTags : List String :=
  ["sqli", "xss", "rce", "ssti", "lfi", "ssrf", "injection", "cve", "csrf", "auth-bypass",
    "default-login", "default-logins", "takeover", "deserialization"]

/-- `_norm_tags`. -/
def normTags : Option Tags → List String
  | none => []
  | some (.text s) => (PyStr.words ((s.map fun c => if c = ',' then ' ' else c))).map PyStr.lower
  | some (.items l) => ((l.map PyStr.strip).filter (· ≠ "")).map PyStr.lower

/-- `_template_looks_like_detection`. -/
def templateLooksLikeDetection (templateId : Option String) : Bool :=
  (truthy templateId).any fun s =>
    let t := PyStr.lower (PyStr.strip s)
    detectionTemplatePrefixes.any (PyStr.startsWith t) ||
      detectionTemplateMarkers.any (PyStr.contains t)

/-- A match of `cve[-_]\d{4}[-_]\d{4,7}`, whatever the case, at the start of the characters. -/
def cveAt (cs : List Char) : Option String :=
  let sequence := ((cs.drop 9).takeWhile Char.isDigit).take 7
  match (cs.take 9).map Char.toLower with
  | ['c', 'v', 'e', sep, d₁, d₂, d₃, d₄, sep'] =>
    if (sep = '-' ∨ sep = '_') ∧ (sep' = '-' ∨ sep' = '_') ∧
        [d₁, d₂, d₃, d₄].all Char.isDigit ∧ 4 ≤ sequence.length then
      some (String.ofList (cs.take 9 ++ sequence))
    else none
  | _ => none

/-- `_CVE_RE.search`. -/
def searchCve : List Char → Option String
  | [] => none
  | c :: cs => (cveAt (c :: cs)).or (searchCve cs)

/-- `_recover_cve`. -/
def recoverCve (candidates : List (Option String)) : Option String :=
  candidates.findSome? fun value => (truthy value).bind fun s => searchCve s.toList

section

variable {K : Type*} [Zero K] [LT K] [DecidableLT K]

def classify (templateId : Option String) (cvssScore : Option K) (tags : Option Tags)
    (cve : Option String) : Classification :=
  let tagSet := normTags tags
  if cvssScore.any (0 < ·) then .vulnerability
  else if (truthy cve).isSome then .vulnerability
  else if tagSet.any (· ∈ exploitTags) then .vulnerability
  else if templateLooksLikeDetection templateId then .detection
  else if tagSet ≠ [] ∧ tagSet.all (· ∈ detectionTags) then .detection
  else .vulnerability

def classifyRow (row : Finding K) : Classification :=
  classify row.templateId row.cvssScore row.tags
    ((truthy row.cve).or (recoverCve [row.templateId, row.title]))

end

end ScanPlatform

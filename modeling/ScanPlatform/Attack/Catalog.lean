import ScanPlatform.Reports.Classification

/-!
# The ATT&CK catalog

Which techniques a weakness and the tags of a finding are mapped to.

* `Technique`, `cweTechniqueMap`, `tagTechniqueMap`: the tables;
* `techniquesFor`: the techniques of a finding, each once; a detection has none.
-/

set_option autoImplicit false

namespace ScanPlatform

/-- A technique, with its tactic and its phase of the kill chain. -/
structure Technique where
  tacticId : String
  techniqueId : String
  techniqueName : String
  killChainPhase : String
  deriving DecidableEq

namespace Technique

def exploitPublicApp : Technique :=
  ⟨"TA0001", "T1190", "Exploit Public-Facing Application", "exploitation"⟩

def cmdScripting : Technique :=
  ⟨"TA0002", "T1059", "Command and Scripting Interpreter", "exploitation"⟩

def validAccounts : Technique :=
  ⟨"TA0001", "T1078", "Valid Accounts", "exploitation"⟩

def driveBy : Technique :=
  ⟨"TA0001", "T1189", "Drive-by Compromise", "delivery"⟩

def fileDiscovery : Technique :=
  ⟨"TA0007", "T1083", "File and Directory Discovery", "exploitation"⟩

def gatherHostInfo : Technique :=
  ⟨"TA0043", "T1592", "Gather Victim Host Information", "reconnaissance"⟩

def activeScanning : Technique :=
  ⟨"TA0043", "T1595", "Active Scanning", "reconnaissance"⟩

def compromiseInfra : Technique :=
  ⟨"TA0042", "T1584", "Compromise Infrastructure", "weaponization"⟩

def exploitRemoteSvc : Technique :=
  ⟨"TA0008", "T1210", "Exploitation of Remote Services", "exploitation"⟩

def networkSniffing : Technique :=
  ⟨"TA0006", "T1040", "Network Sniffing", "exploitation"⟩

def forcedAuth : Technique :=
  ⟨"TA0006", "T1187", "Forced Authentication", "exploitation"⟩

def endpointDos : Technique :=
  ⟨"TA0040", "T1499", "Endpoint Denial of Service", "actions_on_objectives"⟩

end Technique

open Technique

/-- `TACTIC_NAMES.get(tactic_id, tactic_id)`. -/
def tacticName (tacticId : String) : String :=
  ([("TA0043", "Reconnaissance"), ("TA0042", "Resource Development"),
    ("TA0001", "Initial Access"), ("TA0002", "Execution"), ("TA0005", "Defense Evasion"),
    ("TA0006", "Credential Access"), ("TA0007", "Discovery"), ("TA0008", "Lateral Movement"),
    ("TA0040", "Impact")].lookup tacticId).getD tacticId

/-- `CWE_TECHNIQUE_MAP`. -/
def cweTechniqueMap : List (String × List Technique) :=
  [("cwe-89", [exploitPublicApp]), ("cwe-79", [driveBy]),
    ("cwe-78", [exploitPublicApp, cmdScripting]), ("cwe-77", [exploitPublicApp, cmdScripting]),
    ("cwe-94", [exploitPublicApp, cmdScripting]), ("cwe-98", [exploitPublicApp]),
    ("cwe-22", [fileDiscovery]), ("cwe-918", [exploitPublicApp]), ("cwe-287", [validAccounts]),
    ("cwe-306", [validAccounts]), ("cwe-798", [validAccounts]), ("cwe-200", [gatherHostInfo]),
    ("cwe-538", [gatherHostInfo]), ("cwe-1004", [gatherHostInfo]), ("cwe-668", [gatherHostInfo]),
    ("cwe-693", [activeScanning]), ("cwe-16", [activeScanning]), ("cwe-352", [driveBy]),
    ("cwe-1021", [driveBy]), ("cwe-601", [driveBy]), ("cwe-434", [exploitPublicApp]),
    ("cwe-611", [exploitPublicApp]), ("cwe-502", [exploitPublicApp, cmdScripting]),
    ("cwe-284", [exploitPublicApp]), ("cwe-285", [exploitPublicApp]), ("cwe-522", [validAccounts]),
    ("cwe-319", [networkSniffing]), ("cwe-327", [networkSniffing]), ("cwe-326", [networkSniffing]),
    ("cwe-400", [endpointDos])]

/-- `TAG_TECHNIQUE_MAP`. -/
def tagTechniqueMap : List (String × List Technique) :=
  [("sqli", [exploitPublicApp]), ("xss", [driveBy]), ("rce", [exploitPublicApp, cmdScripting]),
    ("ssti", [exploitPublicApp, cmdScripting]), ("lfi", [fileDiscovery, exploitPublicApp]),
    ("ssrf", [exploitPublicApp]), ("injection", [exploitPublicApp]),
    ("auth-bypass", [validAccounts]), ("default-login", [validAccounts]),
    ("default-logins", [validAccounts]), ("exposure", [gatherHostInfo]),
    ("exposures", [gatherHostInfo]), ("disclosure", [gatherHostInfo]),
    ("takeover", [compromiseInfra]), ("network", [exploitRemoteSvc]),
    ("misconfig", [activeScanning]), ("misconfiguration", [activeScanning]),
    ("cve", [exploitPublicApp]), ("csrf", [driveBy]), ("redirect", [driveBy]),
    ("open-redirect", [driveBy]), ("clickjacking", [driveBy]), ("xxe", [exploitPublicApp]),
    ("deserialization", [exploitPublicApp, cmdScripting]), ("fileupload", [exploitPublicApp]),
    ("file-upload", [exploitPublicApp]), ("idor", [exploitPublicApp]), ("crlf", [exploitPublicApp]),
    ("auth", [validAccounts]), ("jwt", [validAccounts]), ("token", [validAccounts]),
    ("creds", [validAccounts]), ("brute-force", [forcedAuth]), ("ssl", [networkSniffing]),
    ("tls", [networkSniffing]), ("crypto", [networkSniffing]), ("backup", [gatherHostInfo]),
    ("config", [gatherHostInfo]), ("files", [gatherHostInfo]), ("panel", [gatherHostInfo]),
    ("debug", [gatherHostInfo]), ("dos", [endpointDos]), ("intrusive", [endpointDos])]

/-- `CWE_TECHNIQUE_MAP.get(category.strip().lower(), [])`. -/
def cweTechniques (category : String) : List Technique :=
  (cweTechniqueMap.lookup (PyStr.lower (PyStr.strip category))).getD []

/-- `_normalize_tags`. -/
def normalizeTags : Option Tags → List String
  | none => []
  | some (.text s) =>
    (((PyStr.split ',' s).map PyStr.strip).filter (· ≠ "")).map PyStr.lower
  | some (.items l) => ((l.map PyStr.strip).filter (· ≠ "")).map PyStr.lower

/-- `_add`, of every entry: a technique is added once. -/
def addTechniques (out entries : List Technique) : List Technique :=
  entries.foldl (fun out entry =>
    if entry.techniqueId ∈ out.map (·.techniqueId) then out else out ++ [entry]) out

/-- `techniques_for`; the score is a number of any kind. -/
def techniquesFor {K : Type*} [Zero K] [LT K] [DecidableLT K] (category : Option String)
    (tags : Option Tags) (templateId : Option String) (cvssScore : Option K)
    (cve : Option String) : List Technique :=
  if (templateId.isSome ∨ cve.isSome) ∧ classify templateId cvssScore tags cve = .detection then []
  else
    let out := addTechniques [] (((truthy category).map cweTechniques).getD [])
    (normalizeTags tags).foldl (fun out tag =>
      addTechniques out ((tagTechniqueMap.lookup tag).getD [])) out

end ScanPlatform

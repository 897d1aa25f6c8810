import ScanPlatform.Base.Checks
import ScanPlatform.Dr.Backup

/-!
# Verification of a backup set

A component that is recorded with an error is passed over; of another one the checksum is compared
with its sidecar, if there is one, and the artifact is looked into. A restoration begins after this.

* `checksumMatches`, `verifyMysqlComponent`, `verifyObjectsComponent`, `verifyBackup`: the checks;
* `runRestore`: what a restoration begins;
* `Plausible`, **`verifyComponent_eq_true`**, **`verifyBackup_eq_true`**: what passes the checks;
* `Intact`, `Complete`: a set that is as its manifest says;
* **`accepted_held`**: what a set that passes is known to hold; `replaced_dump_accepted` is one
  that is not as its manifest says.
-/

set_option autoImplicit false

namespace ScanPlatform.Dr

open Checks PyStr

section

variable (lib : Library)

/-! ## Checks -/

/-- `_checksum_matches`. -/
def checksumMatches (files : SetFiles) (a : Artifact) : Except DrFault Bool :=
  match files (.sidecar a) with
  | none => .ok true
  | some sidecar =>
    match lib.decode sidecar with
    | none => .error (.raised "UnicodeDecodeError")
    | some text =>
      match words text with
      | [] => .ok false
      | want :: _ =>
        match files (.artifact a) with
        | none => .error (.raised "FileNotFoundError")
        | some content => .ok (want = lib.sha256 content)

/-- `verify_mysql_archive`. -/
def verifyMysqlArchive : Option Content → Bool
  | none => false
  | some content => 64 ≤ content.length && hasDumpMagic content

/-- `verify_objects_archive`, of the objects manifest and an archive. -/
def verifyObjectsArchive (manifest archive : Option Content) : Bool :=
  match manifest, archive with
  | some manifest, some archive =>
    match lib.decode manifest, lib.tarFiles archive with
    | some text, some files => lib.countIs text files
    | _, _ => false
  | _, _ => false

/-- A check of what an artifact holds, decrypted if `key` is there. -/
def verifyContent (key : Option Content) (artifact : Option Content)
    (check : Option Content → Bool) : Except DrFault Bool :=
  match key with
  | none => .ok (check artifact)
  | some key =>
    match artifact with
    | none => .error (.raised "FileNotFoundError")
    | some blob =>
      match decryptBytes lib key blob with
      | .ok plaintext => .ok (check (some plaintext))
      | .error .decryption => .ok false
      | .error (.raised e) => .error (.raised e)

/-- `_verify_mysql_component`; `key` is there when the set is encrypted. -/
def verifyMysqlComponent (key : Option Content) (files : SetFiles) : Except DrFault Bool := do
  if ← checksumMatches lib files .dump then
    verifyContent lib key (files (.artifact .dump)) verifyMysqlArchive
  else return false

/-- `_verify_objects_component`. -/
def verifyObjectsComponent (key : Option Content) (files : SetFiles) : Except DrFault Bool := do
  if ← checksumMatches lib files (archivePath files) then
    verifyContent lib key (files (.artifact (archivePath files)))
      (verifyObjectsArchive lib (files .objectsManifest))
  else return false

/-- `_backup_key`, where the manifest says that the set is encrypted. -/
def setKey (σ : DrSettings) (encrypted : Bool) : Except DrFault (Option Content) :=
  if encrypted then
    match σ.backupKey lib with
    | none => .error (.raised "RuntimeError")
    | some key => .ok (some key)
  else .ok none

/-- The check of a component, unless it is recorded with an error or not at all. -/
def unlessError (c : Option Component) (check : Except DrFault Bool) : Except DrFault Bool :=
  match c with
  | some (.info _ _ _) => check
  | some (.error _) | none => .ok true

def verifyBackup (σ : DrSettings) (set : BackupSet) : Except DrFault Bool :=
  match set.manifest with
  | none => .ok false
  | some manifest => do
    let key ← setKey lib σ manifest.encrypted
    let mysqlOk ← unlessError manifest.mysql (verifyMysqlComponent lib key set.files)
    let objectsOk ← unlessError manifest.objects (verifyObjectsComponent lib key set.files)
    return mysqlOk && objectsOk

/-! ## Restoration -/

/-- What is handed to the client of the database, or to the object store. -/
inductive Restoration where
  | mysql (dump : Content)
  | objects (manifest : Content) (archive : Option Content)

/-- What an artifact holds, decrypted if `key` is there. -/
def openArtifact (key : Option Content) (artifact : Option Content) : Option Content :=
  match key, artifact with
  | _, none => none
  | none, some content => some content
  | some key, some blob => (decryptBytes lib key blob).toOption

/-- The objects of a set as they are handed over; a set that cannot be decrypted is not. -/
def objectsRestoration (key : Option Content) (files : SetFiles) : Option Restoration :=
  let archive := files (.artifact (archivePath files))
  match files .objectsManifest with
  | none => none
  | some manifest =>
    match key with
    | none => some (.objects manifest archive)
    | some _ => (openArtifact lib key archive).map fun archive => .objects manifest (some archive)

/-- `run_restore`: what it begins, and its answer; `completes` tells what goes well. -/
def runRestore (σ : DrSettings) (set : BackupSet) (includeObjects : Bool)
    (completes : Restoration → Bool) : Except DrFault (List Restoration × Bool) :=
  match set.manifest with
  | none => .ok ([], false)
  | some manifest => do
    let verified ← if σ.verificationEnabled then verifyBackup lib σ set else .ok true
    if verified then
      let key ← setKey lib σ manifest.encrypted
      let mysql := (openArtifact lib key (set.files (.artifact .dump))).map Restoration.mysql
      let objects := objectsRestoration lib key set.files
      let begun := if includeObjects && σ.includeObjects then [mysql, objects] else [mysql]
      return (begun.reduceOption, begun.all fun r => r.any completes)
    else return ([], false)

/-! ## What passes -/

/-- The sidecar of an artifact begins with this digest. -/
def Names (files : SetFiles) (a : Artifact) (digest : String) : Prop :=
  ∃ sidecar text rest, files (.sidecar a) = some sidecar ∧ lib.decode sidecar = some text ∧
    words text = digest :: rest

/-- An artifact is there with the digest that its sidecar names, if there is one, and passes its
check once it has been decrypted. -/
structure Plausible (key : Option Content) (files : SetFiles) (a : Artifact)
    (check : Option Content → Bool) : Prop where
  checksum : files (.sidecar a) = none ∨
    ∃ content, files (.artifact a) = some content ∧ Names lib files a (lib.sha256 content)
  content : ∃ plaintext, openArtifact lib key (files (.artifact a)) = some plaintext ∧
    check (some plaintext)

/-- What is recorded without an error is plausible. -/
structure Accepted (σ : DrSettings) (m : Manifest) (files : SetFiles) (key : Option Content) :
    Prop where
  loaded : setKey lib σ m.encrypted = .ok key
  mysql : m.mysql.isError = false → Plausible lib key files .dump verifyMysqlArchive
  objects : ∀ c ∈ m.objects, c.isError = false →
    Plausible lib key files (archivePath files) (verifyObjectsArchive lib (files .objectsManifest))

end

variable {lib : Library} {σ σ' : DrSettings} {files : SetFiles} {key : Option Content}
  {a : Artifact} {set : BackupSet}

theorem checksumMatches_eq_true : checksumMatches lib files a = .ok true ↔
    files (.sidecar a) = none ∨
      ∃ content, files (.artifact a) = some content ∧ Names lib files a (lib.sha256 content) := by
  unfold checksumMatches Names
  cases hside : files (.sidecar a) with
  | none => simp
  | some sidecar =>
    cases htext : lib.decode sidecar with
    | none => simp [htext]
    | some text =>
      cases hwords : words text with
      | nil => simp [htext, hwords]
      | cons want rest =>
        cases hcontent : files (.artifact a) with
        | none => simp [htext, hwords]
        | some content => simp [htext, hwords]

theorem verifyContent_eq_true {check : Option Content → Bool} (hnone : check none = false)
    (artifact : Option Content) : verifyContent lib key artifact check = .ok true ↔
      ∃ plaintext, openArtifact lib key artifact = some plaintext ∧ check (some plaintext) := by
  cases artifact with
  | none =>
    cases key with
    | none => simp [verifyContent, openArtifact, hnone]
    | some key => simp [verifyContent, openArtifact]
  | some blob =>
    cases key with
    | none => simp [verifyContent, openArtifact]
    | some key =>
      simp only [verifyContent, openArtifact]
      rcases decryptBytes lib key blob with (_ | e) | plaintext
      · simp [Except.toOption]
      · simp [Except.toOption]
      · simp [Except.toOption]

/-- **The checks of a component.** -/
theorem verifyComponent_eq_true {check : Option Content → Bool} (hnone : check none = false) :
    (do if ← checksumMatches lib files a then verifyContent lib key (files (.artifact a)) check
        else return false : Except DrFault Bool) = .ok true ↔ Plausible lib key files a check := by
  constructor
  · intro h
    rcases hsum : checksumMatches lib files a with e | ok
    · simp [hsum, bind, Except.bind] at h
    · cases ok with
      | false => simp [hsum, bind, Except.bind, pure, Except.pure] at h
      | true =>
        simp only [hsum, bind, Except.bind, if_true] at h
        exact ⟨checksumMatches_eq_true.mp hsum, (verifyContent_eq_true hnone _).mp h⟩
  · rintro ⟨hsum, hcontent⟩
    simp only [checksumMatches_eq_true.mpr hsum, bind, Except.bind, if_true]
    exact (verifyContent_eq_true hnone _).mpr hcontent

theorem verifyMysqlComponent_eq_true : verifyMysqlComponent lib key files = .ok true ↔
    Plausible lib key files .dump verifyMysqlArchive := verifyComponent_eq_true rfl

theorem verifyObjectsComponent_eq_true : verifyObjectsComponent lib key files = .ok true ↔
    Plausible lib key files (archivePath files)
      (verifyObjectsArchive lib (files .objectsManifest)) :=
  verifyComponent_eq_true (by unfold verifyObjectsArchive; split <;> simp_all)

theorem unlessError_eq_true {c : Option Component} {check : Except DrFault Bool} :
    unlessError c check = .ok true ↔ ∀ c' ∈ c, c'.isError = false → check = .ok true := by
  rcases c with _ | (reason | ⟨a, size, digest⟩)
  · simp [unlessError]
  · simp [unlessError, Component.isError]
  · simp [unlessError, Component.isError]

/-- **A set passes** exactly when what its manifest records without an error is plausible. -/
theorem verifyBackup_eq_true : verifyBackup lib σ set = .ok true ↔
    ∃ m key, set.manifest = some m ∧ Accepted lib σ m set.files key := by
  unfold verifyBackup
  cases hmanifest : set.manifest with
  | none => simp
  | some m =>
    have haccepted : ∀ key, Accepted lib σ m set.files key ↔ setKey lib σ m.encrypted = .ok key ∧
        unlessError m.mysql (verifyMysqlComponent lib key set.files) = .ok true ∧
        unlessError m.objects (verifyObjectsComponent lib key set.files) = .ok true := by
      intro key
      rw [unlessError_eq_true, unlessError_eq_true, verifyMysqlComponent_eq_true,
        verifyObjectsComponent_eq_true]
      constructor
      · rintro ⟨hkey, hmysql, hobjects⟩
        exact ⟨hkey, fun c hc => by cases hc; exact hmysql, hobjects⟩
      · rintro ⟨hkey, hmysql, hobjects⟩
        exact ⟨hkey, hmysql _ rfl, hobjects⟩
    constructor
    · intro h
      obtain ⟨key, hkey, h⟩ := bind_eq_ok.mp h
      obtain ⟨mysqlOk, hmysql, h⟩ := bind_eq_ok.mp h
      obtain ⟨objectsOk, hobjects, h⟩ := bind_eq_ok.mp h
      obtain ⟨rfl, rfl⟩ : mysqlOk = true ∧ objectsOk = true := by
        simpa [pure, Except.pure] using h
      exact ⟨m, key, rfl, (haccepted key).mpr ⟨hkey, hmysql, hobjects⟩⟩
    · rintro ⟨m', key, hm, h⟩
      obtain rfl := Option.some.inj hm
      obtain ⟨hkey, hmysql, hobjects⟩ := (haccepted key).mp h
      simp only [hkey, hmysql, hobjects, bind, Except.bind, pure, Except.pure, Bool.and_self]

/-- **A restoration begins** after the set has passed. -/
theorem runRestore_verified {includeObjects answer : Bool} {completes : Restoration → Bool}
    {begun : List Restoration} (hverification : σ.verificationEnabled = true)
    (h : runRestore lib σ set includeObjects completes = .ok (begun, answer))
    (hbegun : begun ≠ []) : verifyBackup lib σ set = .ok true := by
  unfold runRestore at h
  cases hmanifest : set.manifest with
  | none =>
    simp only [hmanifest] at h
    cases h
    exact absurd rfl hbegun
  | some m =>
    simp only [hmanifest, hverification, if_true] at h
    obtain ⟨verified, hverified, h⟩ := bind_eq_ok.mp h
    cases verified with
    | true => exact hverified
    | false =>
      cases h
      exact absurd rfl hbegun

/-! ## Later losses -/

/-- What has become of the files of a set: each is lost, changed or as it was. -/
def BackupSet.damage (set : BackupSet) (δ : SetFile → Content → Option Content) : BackupSet :=
  { set with files := fun f => (set.files f).bind (δ f) }

section

variable (lib : Library)

/-- A component is recorded without an error and its artifact is there with the recorded digest. -/
def Intact (files : SetFiles) (c : Component) : Prop :=
  ∃ a size digest content, c = .info a size digest ∧ files (.artifact a) = some content ∧
    lib.sha256 content = digest

/-- A set as a run that completes records it. -/
def Complete (σ : DrSettings) (set : BackupSet) : Prop :=
  ∃ m, set.manifest = some m ∧ m.status = "completed" ∧ Intact lib set.files m.mysql ∧
    (σ.includeObjects → ∃ c ∈ m.objects, Intact lib set.files c)

/-- A component is recorded without an error; its artifact is there and passes its check once it has
been decrypted; it has the digest that its sidecar names, which is the recorded one if the sidecar
still names that. -/
def Held (key : Option Content) (files : SetFiles) (check : Option Content → Bool)
    (c : Component) : Prop :=
  ∃ a size digest content, c = .info a size digest ∧ files (.artifact a) = some content ∧
    (∃ plaintext, openArtifact lib key (some content) = some plaintext ∧ check (some plaintext)) ∧
    (files (.sidecar a) = none ∨ Names lib files a (lib.sha256 content)) ∧
    (Names lib files a digest → lib.sha256 content = digest)

/-- A set of a run that has completed, with every component held. -/
def HeldSet (σ σ' : DrSettings) (set : BackupSet) : Prop :=
  ∃ m key, set.manifest = some m ∧ setKey lib σ' m.encrypted = .ok key ∧ m.status = "completed" ∧
    Held lib key set.files verifyMysqlArchive m.mysql ∧
    (σ.includeObjects → ∃ c ∈ m.objects,
      Held lib key set.files (verifyObjectsArchive lib (set.files .objectsManifest)) c)

/-- What passes the checks, and what a restoration begins with after them. -/
def OnlyAccepts (σ' : DrSettings) (set : BackupSet) (good : Prop) : Prop :=
  (verifyBackup lib σ' set = .ok true → good) ∧
    (σ'.verificationEnabled = true → ∀ includeObjects completes begun answer,
      runRestore lib σ' set includeObjects completes = .ok (begun, answer) → begun ≠ [] → good)

end

theorem Names.unique {digest digest' : String} (h : Names lib files a digest)
    (h' : Names lib files a digest') : digest = digest' := by
  obtain ⟨sidecar, text, rest, hside, htext, hwords⟩ := h
  obtain ⟨sidecar', text', rest', hside', htext', hwords'⟩ := h'
  obtain rfl := Option.some.inj (hside.symm.trans hside')
  obtain rfl := Option.some.inj (htext.symm.trans htext')
  exact List.head_eq_of_cons_eq (hwords.symm.trans hwords')

theorem Plausible.present {check : Option Content → Bool} (h : Plausible lib key files a check) :
    ∃ content, files (.artifact a) = some content := by
  obtain ⟨plaintext, hopen, -⟩ := h.content
  cases hcontent : files (.artifact a) with
  | none =>
    rw [hcontent] at hopen
    cases key with
    | none => cases hopen
    | some key => cases hopen
  | some content => exact ⟨content, rfl⟩

/-- What a component is known for once it has passed. -/
theorem Plausible.held {check : Option Content → Bool} (h : Plausible lib key files a check)
    (size : ℕ) (digest : String) : Held lib key files check (.info a size digest) := by
  obtain ⟨content, hcontent⟩ := h.present
  obtain ⟨plaintext, hopen, hcheck⟩ := h.content
  rw [hcontent] at hopen
  have hsidecar : files (.sidecar a) = none ∨ Names lib files a (lib.sha256 content) := by
    refine h.checksum.imp_right fun ⟨content', hcontent', hnames⟩ => ?_
    obtain rfl := Option.some.inj (hcontent.symm.trans hcontent')
    exact hnames
  refine ⟨a, size, digest, content, rfl, hcontent, ⟨plaintext, hopen, hcheck⟩, hsidecar,
    fun hnames => ?_⟩
  rcases hsidecar with hnone | hnamed
  · obtain ⟨sidecar, _, _, hside, -⟩ := hnames
    rw [hnone] at hside
    cases hside
  · exact hnamed.unique hnames

/-- The archive that is looked at is the one that was written. -/
theorem archivePath_eq {compress : Bool} {content : Content}
    (hother : files (.artifact (.archive !compress)) = none)
    (hpresent : files (.artifact (archivePath files)) = some content) :
    archivePath files = .archive compress := by
  unfold archivePath at hpresent ⊢
  cases compress with
  | false =>
    rw [Bool.not_false] at hother
    rw [hother]
    rfl
  | true =>
    cases hgz : files (.artifact (.archive true)) with
    | none =>
      rw [hgz] at hpresent
      exact absurd (hother.symm.trans hpresent) (by simp)
    | some gz => rfl

/-- **What passes is held**, in the set of a run in which no component has failed. -/
theorem accepted_held (lib : Library) (σ σ' : DrSettings) (name : String) (run : BackupRun)
    (δ : SetFile → Content → Option Content) (hrun : run.failed lib σ name = false) :
    OnlyAccepts lib σ' ((runBackup lib σ name run .empty).damage δ)
      (HeldSet lib σ σ' ((runBackup lib σ name run .empty).damage δ)) := by
  have haccept : verifyBackup lib σ' ((runBackup lib σ name run .empty).damage δ) = .ok true →
      HeldSet lib σ σ' ((runBackup lib σ name run .empty).damage δ) := by
    intro h
    obtain ⟨m, key, hm, hkey, hmysql, hobjects⟩ := verifyBackup_eq_true.mp h
    have hrecords := runBackup_manifest hm
    obtain ⟨herror, herrors⟩ := Bool.or_eq_false_iff.mp (hrecords.errors.trans hrun)
    refine ⟨m, key, hm, hkey, hrecords.completed.mpr hrun, ?_, fun hinclude => ?_⟩
    · have hplausible := hmysql herror
      cases hinfo : m.mysql with
      | error reason => simp [hinfo, Component.isError] at herror
      | info a size digest =>
        obtain rfl := hrecords.mysql a size digest hinfo
        exact hplausible.held size digest
    · obtain ⟨c, hc⟩ := Option.isSome_iff_exists.mp (hrecords.listed.trans hinclude)
      have hnoError : c.isError = false := by simpa [hc] using herrors
      have hplausible := hobjects c hc hnoError
      refine ⟨c, hc, ?_⟩
      cases c with
      | error reason => cases hnoError
      | info a size digest =>
        obtain rfl := hrecords.objects a size digest hc
        have hother : ((runBackup lib σ name run .empty).damage δ).files
            (.artifact (.archive !σ.compression)) = none := by
          simp only [BackupSet.damage, runBackup_other hrun hm, Option.bind_none]
        obtain ⟨content, hpresent⟩ := hplausible.present
        rw [archivePath_eq hother hpresent] at hplausible
        exact hplausible.held size digest
  refine ⟨haccept, fun hverification includeObjects completes begun answer h hbegun => ?_⟩
  exact haccept (runRestore_verified hverification h hbegun)

/-! ## A dump in the place of another -/

/-- A library for ASCII texts, in which the digest tells whether a byte is 1. -/
def asciiLibrary : Library where
  sha256 content := if content.contains 1 then "b" else "a"
  encode := bytesOf
  decode content := some (String.ofList (content.map fun b => Char.ofNat b.toNat))
  tar _ _ := []
  tarFiles _ := some 0
  dumps _ _ := ""
  countIs _ files := files = 0
  deriveKey := bytesOf
  encrypt _ _ content := content
  decrypt _ _ content := some content

def mysqlOnly : DrSettings := ⟨"/srv/backups", false, true, false, "", true, 3, 7⟩

def dumpOf (b : UInt8) : Content := bytesOf "-- MySQL dump" ++ List.replicate 60 b

def dumpRun : BackupRun := .finished (.done (dumpOf 0)) (.raised "" []) [] []

/-- The sidecar is lost, and the dump is another one. -/
def replaced : SetFile → Content → Option Content
  | .artifact _, _ => some (dumpOf 1)
  | .sidecar _, _ => none
  | .objectsManifest, content => some content

def dumpSet : BackupSet := runBackup asciiLibrary mysqlOnly "20260101T000000Z" dumpRun .empty

/-- The set of a run that completes is accepted, and held. -/
theorem accepted_held_dumpSet :
    verifyBackup asciiLibrary mysqlOnly (dumpSet.damage fun _ => some) = .ok true ∧
      HeldSet asciiLibrary mysqlOnly mysqlOnly (dumpSet.damage fun _ => some) := by
  have haccepted :
      verifyBackup asciiLibrary mysqlOnly (dumpSet.damage fun _ => some) = .ok true := rfl
  have hheld := accepted_held asciiLibrary mysqlOnly mysqlOnly "20260101T000000Z" dumpRun
    (fun _ => some) (by decide)
  exact ⟨haccepted, hheld.1 haccepted⟩

/-- **Another dump is accepted** in the place of the one that the manifest records when the sidecar
is lost as well. -/
theorem replaced_dump_accepted : ¬ ∀ (lib : Library) (σ σ' : DrSettings) (name : String)
    (run : BackupRun) (δ : SetFile → Content → Option Content), OnlyAccepts lib σ'
      ((runBackup lib σ name run .empty).damage δ)
      (Complete lib σ ((runBackup lib σ name run .empty).damage δ)) := by
  intro hall
  have haccepted : verifyBackup asciiLibrary mysqlOnly (dumpSet.damage replaced) = .ok true := rfl
  obtain ⟨m, hm, -, ⟨a, size, digest, content, hinfo, hcontent, hdigest⟩, -⟩ :=
    (hall asciiLibrary mysqlOnly mysqlOnly "20260101T000000Z" dumpRun replaced).1 haccepted
  cases hm
  cases hinfo
  cases hcontent
  exact absurd hdigest (by decide)

end ScanPlatform.Dr

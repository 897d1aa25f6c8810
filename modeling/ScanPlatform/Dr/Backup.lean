import Mathlib.Data.Int.Notation
import ScanPlatform.Base.PyStr
import ScanPlatform.Base.Table

/-!
# Backup sets

A run of `run_backup` fills the directory of its set: a dump of the database, an archive of the
objects, a sidecar with the checksum of each, and the manifest last. A component that fails is
recorded with its error and the others go on; a set without a failure may be encrypted in place.

* `SetFile`, `SetFiles`, `Manifest`, `BackupSet`: a set on disk;
* `backupMysql`, `backupObjects`: the components;
* `encryptFile`, `decryptBytes`: encryption at rest;
* `runBackup`: what a run leaves;
* `BackupRun.failed`, **`runBackup_manifest`**: what the manifest says of the run that wrote it;
* **`runBackup_other`**: a set has one archive.
-/

set_option autoImplicit false

namespace ScanPlatform.Dr

open PyStr

/-! ## Sets on disk -/

abbrev Content := List UInt8

/-- What a set is made of: `db.sql`, and `objects.tar.gz` or `objects.tar`. -/
inductive Artifact where
  | dump
  | archive (compressed : Bool)
  deriving DecidableEq

def Artifact.fileName : Artifact → String
  | .dump => "db.sql"
  | .archive true => "objects.tar.gz"
  | .archive false => "objects.tar"

inductive SetFile where
  | artifact (a : Artifact)
  /-- The checksum of an artifact. -/
  | sidecar (a : Artifact)
  /-- `objects.meta.json`. -/
  | objectsManifest
  deriving DecidableEq

abbrev SetFiles := Table SetFile Content

/-- What a manifest says of a component: its error, or its artifact with the size of the dump or the
number of the objects, and the digest. -/
inductive Component where
  | error (reason : String)
  | info (artifact : Artifact) (size : ℕ) (sha256 : String)

/-- `MANIFEST.json`. -/
structure Manifest where
  timestamp : String
  mysql : Component
  objects : Option Component
  encrypted : Bool
  status : String

/-- The directory of a set. -/
structure BackupSet where
  manifest : Option Manifest
  files : SetFiles

/-- A directory that has just been made. -/
def BackupSet.empty : BackupSet := ⟨none, fun _ => none⟩

/-! ## What a run is given -/

structure DrSettings where
  backupDirectory : String
  includeObjects : Bool
  compression : Bool
  encryptionEnabled : Bool
  encryptionKey : String
  verificationEnabled : Bool
  minKeep : ℤ
  retentionDays : ℤ

structure StoredObject where
  bucket : String
  key : String
  data : Content
  contentType : Option String
  metadata : List (String × String)

/-- How the outside serves a component: with its data, or not, after files have been written. -/
inductive ComponentRun (α : Type) where
  | done (a : α)
  | raised (reason : String) (written : List (SetFile × Content))

/-- A run that comes to its manifest, or one that is stopped before, with what it leaves. -/
inductive BackupRun where
  | finished (dump : ComponentRun Content)
      (objects : ComponentRun (List String × List StoredObject)) (dumpNonce archiveNonce : Content)
  | crashed (files : SetFiles)

/-- What the package takes from libraries: SHA-256, UTF-8 (`none` is a `UnicodeDecodeError`), the
writer and the reader of tar archives (`none` when a member cannot be read), the texts of the
objects manifest, and AES-GCM (`none` is an `InvalidTag`). -/
structure Library where
  sha256 : Content → String
  encode : String → Content
  decode : Content → Option String
  tar : Bool → List StoredObject → Content
  tarFiles : Content → Option ℕ
  dumps : List String → List StoredObject → String
  /-- `files == json.loads(text).get("count", -1)`, and `False` where this raises. -/
  countIs : String → ℕ → Bool
  deriveKey : String → Content
  encrypt : Content → Content → Content → Content
  decrypt : Content → Content → Content → Option Content

/-- How a check ends without an answer. -/
inductive DrFault where
  | decryption
  | raised (exception : String)

section

variable (lib : Library)

/-! ## Components -/

/-- `_write_checksum`. -/
def writeChecksum (files : SetFiles) (a : Artifact) (content : Content) : SetFiles :=
  files.set (.sidecar a) (lib.encode (lib.sha256 content ++ "  " ++ a.fileName ++ "\n"))

def bytesOf (s : String) : Content := s.toList.map fun c => UInt8.ofNat c.toNat

/-- `MYSQL_DUMP_MAGIC`. -/
def mysqlDumpMagic : List Content := [bytesOf "-- MySQL dump", bytesOf "-- MariaDB dump"]

/-- `needle in content`. -/
def occursIn (needle : Content) : Content → Bool
  | [] => needle.isEmpty
  | b :: content => needle.isPrefixOf (b :: content) || occursIn needle content

/-- `_has_dump_magic`. -/
def hasDumpMagic (content : Content) : Bool :=
  mysqlDumpMagic.any fun magic => occursIn magic (content.take 1024)

def write (files : SetFiles) (written : List (SetFile × Content)) : SetFiles :=
  written.foldl (fun files w => files.set w.1 w.2) files

/-- The part of `run_backup` that dumps the database. -/
def backupMysql (path : String) (run : ComponentRun Content) (files : SetFiles) :
    SetFiles × Component :=
  match run with
  | .raised reason written => (write files written, .error (upTo 500 reason))
  | .done dump =>
    let dumped := files.set (.artifact .dump) dump
    if dump.length < 64 then
      (dumped, .error (upTo 500 ("mysqldump produced a missing/too-small dump: " ++ path)))
    else if hasDumpMagic dump then
      (writeChecksum lib dumped .dump dump, .info .dump dump.length (lib.sha256 dump))
    else (dumped, .error "mysqldump output does not contain the expected header")

/-- `archive_path`. -/
def archivePath (files : SetFiles) : Artifact := .archive (files (.artifact (.archive true))).isSome

/-- The part of `run_backup` that archives the objects. -/
def backupObjects (compress : Bool) (run : ComponentRun (List String × List StoredObject))
    (files : SetFiles) : SetFiles × Component :=
  match run with
  | .raised reason written => (write files written, .error (upTo 500 reason))
  | .done (buckets, objects) =>
    let archive := lib.tar compress objects
    let archived := (files.set (.artifact (.archive compress)) archive).set .objectsManifest
      (lib.encode (lib.dumps buckets objects))
    let a := archivePath archived
    let stored := (archived (.artifact a)).getD []
    (writeChecksum lib archived a stored,
      .info (.archive compress) objects.length (lib.sha256 stored))

/-! ## Encryption -/

/-- `crypto.MAGIC`. -/
def encryptedMagic : Content := bytesOf "MBSENC1\n"

/-- `encrypt_file`, and the checksum of what it leaves. -/
def encryptFile (key nonce : Content) (a : Artifact) (files : SetFiles) : SetFiles :=
  match files (.artifact a) with
  | none => files
  | some content =>
    let stored :=
      if encryptedMagic.isPrefixOf content then content
      else encryptedMagic ++ nonce ++ lib.encrypt key nonce content
    writeChecksum lib (files.set (.artifact a) stored) a stored

/-- `decrypt_bytes`; a nonce of less than 8 bytes is a `ValueError`. -/
def decryptBytes (key blob : Content) : Except DrFault Content :=
  if encryptedMagic.isPrefixOf blob then
    let nonce := (blob.drop 8).take 12
    if nonce.length < 8 then .error (.raised "ValueError")
    else
      match lib.decrypt key nonce (blob.drop 20) with
      | none => .error .decryption
      | some plaintext => .ok plaintext
  else .error .decryption

/-- `load_backup_key`; `none` is a `RuntimeError`. -/
def DrSettings.backupKey (σ : DrSettings) : Option Content :=
  if σ.encryptionKey = "" then none else some (lib.deriveKey σ.encryptionKey)

/-! ## Runs -/

def Component.isError : Component → Bool
  | .error _ => true
  | .info _ _ _ => false

/-- The components of a run: the files, and what is recorded of the database and of the objects. -/
def components (σ : DrSettings) (name : String) (dump : ComponentRun Content)
    (objects : ComponentRun (List String × List StoredObject)) (files : SetFiles) :
    SetFiles × Component × Option Component :=
  let path := σ.backupDirectory ++ "/" ++ name ++ "/db.sql"
  let dumped := backupMysql lib path dump files
  if σ.includeObjects then
    let archived := backupObjects lib σ.compression objects dumped.1
    (archived.1, dumped.2, some archived.2)
  else (dumped.1, dumped.2, none)

/-- The artifacts of a set, encrypted in place. -/
def encryptSet (σ : DrSettings) (key dumpNonce archiveNonce : Content) (files : SetFiles) :
    SetFiles :=
  let files := encryptFile lib key dumpNonce .dump files
  if σ.includeObjects then encryptFile lib key archiveNonce (archivePath files) files else files

/-- `run_backup` up to its manifest, over what the directory of this name holds. Without a key it
raises before the manifest is written. -/
def runBackup (σ : DrSettings) (name : String) (run : BackupRun) (old : BackupSet) : BackupSet :=
  match run with
  | .crashed files => { old with files }
  | .finished dump objects dumpNonce archiveNonce =>
    let (files, mysql, objectsInfo) := components lib σ name dump objects old.files
    let ok := !mysql.isError && !objectsInfo.any Component.isError
    if ok && σ.encryptionEnabled then
      match σ.backupKey lib with
      | none => { old with files }
      | some key =>
        ⟨some ⟨name, mysql, objectsInfo, true, "completed"⟩,
          encryptSet lib σ key dumpNonce archiveNonce files⟩
    else
      ⟨some ⟨name, mysql, objectsInfo, false, if ok then "completed" else "failed"⟩, files⟩

/-- A component of the run fails. -/
def BackupRun.failed (σ : DrSettings) (name : String) : BackupRun → Bool
  | .crashed _ => false
  | .finished dump objects _ _ =>
    let recorded := (components lib σ name dump objects fun _ => none).2
    recorded.1.isError || recorded.2.any Component.isError

end

/-! ## Manifests -/

/-- What a manifest tells of the run that wrote it. -/
structure Manifest.Records (m : Manifest) (σ : DrSettings) (failed : Bool) : Prop where
  completed : m.status = "completed" ↔ failed = false
  errors : (m.mysql.isError || m.objects.any Component.isError) = failed
  listed : m.objects.isSome = σ.includeObjects
  mysql : ∀ a size digest, m.mysql = .info a size digest → a = .dump
  objects : ∀ a size digest, m.objects = some (.info a size digest) → a = .archive σ.compression

variable {lib : Library} {σ : DrSettings} {files : SetFiles} {a : Artifact} {size : ℕ}
  {digest name : String} {dump : ComponentRun Content}
  {objects : ComponentRun (List String × List StoredObject)}

theorem backupMysql_info {path : String}
    (h : (backupMysql lib path dump files).2 = .info a size digest) : a = .dump := by
  unfold backupMysql at h
  cases dump with
  | raised reason written => cases h
  | done dump =>
    simp only at h
    split_ifs at h
    cases h
    rfl

theorem backupObjects_info {compress : Bool}
    (h : (backupObjects lib compress objects files).2 = .info a size digest) :
    a = .archive compress := by
  unfold backupObjects at h
  cases objects with
  | raised reason written => cases h
  | done stored =>
    cases h
    rfl

theorem components_listed :
    (components lib σ name dump objects files).2.2.isSome = σ.includeObjects := by
  unfold components
  cases σ.includeObjects
  · rfl
  · rfl

theorem components_mysql
    (h : (components lib σ name dump objects files).2.1 = .info a size digest) :
    a = .dump := by
  unfold components at h
  cases hinclude : σ.includeObjects with
  | false =>
    rw [hinclude] at h
    exact backupMysql_info h
  | true =>
    rw [hinclude] at h
    exact backupMysql_info h

theorem components_objects
    (h : (components lib σ name dump objects files).2.2 = some (.info a size digest)) :
    a = .archive σ.compression := by
  unfold components at h
  cases hinclude : σ.includeObjects with
  | false => simp [hinclude] at h
  | true =>
    rw [hinclude] at h
    exact backupObjects_info (Option.some.inj h)

/-- **The manifest of a run** in a new directory. -/
theorem runBackup_manifest {run : BackupRun} {m : Manifest}
    (h : (runBackup lib σ name run .empty).manifest = some m) :
    m.Records σ (run.failed lib σ name) := by
  cases run with
  | crashed files => cases h
  | finished dump objects dumpNonce archiveNonce =>
    have hmysql := @components_mysql lib σ fun _ => none
    have hobjects := @components_objects lib σ fun _ => none
    have hlisted := @components_listed lib σ (fun _ => none) name dump objects
    simp only [runBackup, BackupSet.empty] at h
    simp only [BackupRun.failed]
    rcases hrecorded : components lib σ name dump objects fun _ => none with
      ⟨files, mysql, objectsInfo⟩
    simp only [hrecorded] at h hlisted ⊢
    have hmysql : ∀ a size digest, mysql = .info a size digest → a = .dump := fun a size digest h =>
      hmysql (by rw [hrecorded]; exact h)
    have hobjects : ∀ a size digest, objectsInfo = some (.info a size digest) →
        a = .archive σ.compression := fun a size digest h => hobjects (by rw [hrecorded]; exact h)
    rw [← Bool.not_or] at h
    cases hfailed : mysql.isError || objectsInfo.any Component.isError with
    | true =>
      simp only [hfailed, Bool.not_true, Bool.false_and, Bool.false_eq_true, if_false,
        Option.some.injEq] at h
      subst h
      have hne : "failed" ≠ "completed" := by decide
      exact ⟨⟨fun h => absurd h hne, nofun⟩, hfailed, hlisted, hmysql, hobjects⟩
    | false =>
      simp only [hfailed, Bool.not_false, Bool.true_and, if_true] at h
      split_ifs at h with hencrypt
      · cases hkey : σ.backupKey lib with
        | none => simp [hkey] at h
        | some key =>
          simp only [hkey, Option.some.injEq] at h
          subst h
          exact ⟨⟨fun _ => rfl, fun _ => rfl⟩, hfailed, hlisted, hmysql, hobjects⟩
      · cases h
        exact ⟨⟨fun _ => rfl, fun _ => rfl⟩, hfailed, hlisted, hmysql, hobjects⟩

/-! ## Archives -/

theorem encryptFile_none {key nonce : Content} {a b : Artifact} (h : files (.artifact b) = none) :
    encryptFile lib key nonce a files (.artifact b) = none := by
  unfold encryptFile
  cases hcontent : files (.artifact a) with
  | none => exact h
  | some content =>
    have hne : SetFile.artifact b ≠ .artifact a := by
      intro heq
      rw [heq, hcontent] at h
      cases h
    simp only [writeChecksum]
    rw [Table.set_of_ne _ _ (by simp), Table.set_of_ne _ _ hne, h]

theorem encryptSet_none {key dumpNonce archiveNonce : Content} {b : Artifact}
    (h : files (.artifact b) = none) :
    encryptSet lib σ key dumpNonce archiveNonce files (.artifact b) = none := by
  unfold encryptSet
  split_ifs
  · exact encryptFile_none (encryptFile_none h)
  · exact encryptFile_none h

theorem backupMysql_archive {path : String} {b : Bool}
    (h : (backupMysql lib path dump files).2.isError = false) :
    (backupMysql lib path dump files).1 (.artifact (.archive b)) =
      files (.artifact (.archive b)) := by
  unfold backupMysql at h ⊢
  cases dump with
  | raised reason written => cases h
  | done dump =>
    simp only at h ⊢
    split_ifs at h ⊢
    · cases h
    · simp [writeChecksum]
    · cases h

theorem backupObjects_other {compress : Bool}
    (h : (backupObjects lib compress objects files).2.isError = false) :
    (backupObjects lib compress objects files).1 (.artifact (.archive !compress)) =
      files (.artifact (.archive !compress)) := by
  unfold backupObjects at h ⊢
  cases objects with
  | raised reason written => cases h
  | done stored => simp [writeChecksum]

theorem components_other
    (hmysql : (components lib σ name dump objects files).2.1.isError = false)
    (hobjects :
      (components lib σ name dump objects files).2.2.any Component.isError = false) :
    (components lib σ name dump objects files).1 (.artifact (.archive !σ.compression)) =
      files (.artifact (.archive !σ.compression)) := by
  unfold components at hmysql hobjects ⊢
  cases hinclude : σ.includeObjects with
  | false =>
    simp only [hinclude] at hmysql hobjects ⊢
    exact backupMysql_archive hmysql
  | true =>
    simp only [hinclude, if_true, Option.any_some] at hmysql hobjects ⊢
    rw [backupObjects_other hobjects]
    exact backupMysql_archive hmysql

/-- **A set has one archive** when its run has not failed. -/
theorem runBackup_other {run : BackupRun} {m : Manifest} (hrun : run.failed lib σ name = false)
    (h : (runBackup lib σ name run .empty).manifest = some m) :
    (runBackup lib σ name run .empty).files (.artifact (.archive !σ.compression)) = none := by
  cases run with
  | crashed files => cases h
  | finished dump objects dumpNonce archiveNonce =>
    simp only [BackupRun.failed, Bool.or_eq_false_iff] at hrun
    have hother := components_other hrun.1 hrun.2
    obtain ⟨files, mysql, objectsInfo, hrecorded⟩ : ∃ files mysql objectsInfo,
        components lib σ name dump objects (fun _ => none) = (files, mysql, objectsInfo) :=
      ⟨_, _, _, rfl⟩
    simp only [runBackup, BackupSet.empty, hrecorded] at hother ⊢
    by_cases hencrypt : (!mysql.isError && !objectsInfo.any Component.isError &&
        σ.encryptionEnabled) = true
    · simp only [hencrypt, if_true]
      cases σ.backupKey lib with
      | none => exact hother
      | some key => exact encryptSet_none hother
    · simp only [hencrypt]
      exact hother

end ScanPlatform.Dr

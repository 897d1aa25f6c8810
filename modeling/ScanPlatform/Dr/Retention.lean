import Mathlib.Data.String.Basic
import ScanPlatform.Base.CondMachine
import ScanPlatform.Base.Newest
import ScanPlatform.Dr.Verification

/-!
# Retention of backup sets

The backup directory over any number of runs and cleanups. A cleanup counts directories, whatever
came of their runs.

* `BackupRoot`, `listBackupSets`, `cleanupOldBackups`: the directories, and what a cleanup deletes;
* `DrStep`, `drStep`: a run, or a cleanup, at any time;
* **`mem_cleanup_iff`**: what is left by a cleanup;
* `GoodSet`, `Survives`, `SparesGood`: the last good set, and when it is spared;
* **`survives_iff`**: it survives every cleanup exactly when it is spared; `last_good_deleted` is a
  run in which it is not.
-/

set_option autoImplicit false

namespace ScanPlatform.Dr

open CondMachine Newest

/-! ## Directories -/

/-- A directory with the time, in nanoseconds, at which it was changed. -/
structure BackupDir where
  name : String
  mtime : ℤ
  set : BackupSet

/-- `backup_directory`. -/
structure BackupRoot where
  dirs : List BackupDir
  names : (dirs.map BackupDir.name).Nodup

def BackupRoot.empty : BackupRoot := ⟨[], List.nodup_nil⟩

/-- A run in the directory of this name, which is made unless it is there. -/
def BackupRoot.write (root : BackupRoot) (name : String) (mtime : ℤ) (f : BackupSet → BackupSet) :
    BackupRoot :=
  if h : name ∈ root.dirs.map BackupDir.name then
    { dirs := root.dirs.map fun d => if d.name = name then ⟨name, mtime, f d.set⟩ else d
      names := by
        have hnames : (root.dirs.map fun d => if d.name = name then ⟨name, mtime, f d.set⟩
            else d).map BackupDir.name = root.dirs.map BackupDir.name := by
          rw [List.map_map]
          refine List.map_congr_left fun d _ => ?_
          simp only [Function.comp_apply]
          split_ifs with heq
          · exact heq.symm
          · rfl
        rw [hnames]
        exact root.names }
  else
    { dirs := root.dirs ++ [⟨name, mtime, f .empty⟩]
      names := by
        rw [List.map_append, List.map_singleton]
        refine List.nodup_append.mpr ⟨root.names, List.nodup_singleton _, fun i hi j hj heq => ?_⟩
        rw [heq, List.mem_singleton.mp hj] at hi
        exact h hi }

def drillsSubdir : String := "drills"

def BackupRoot.sets (root : BackupRoot) : List BackupDir :=
  root.dirs.filter fun d => d.name ≠ drillsSubdir

/-- `list_backup_sets`, oldest first. -/
def listBackupSets (root : BackupRoot) : List BackupDir := sortByKey BackupDir.name root.sets

/-- How many of the newest sets are kept. -/
def DrSettings.keep (σ : DrSettings) : ℕ := (max σ.minKeep 1).toNat

/-- The time before which a set is past its retention. -/
def DrSettings.cutoff (σ : DrSettings) (now : ℤ) : ℤ := now - σ.retentionDays * (86400 * 1000000000)

/-- `cleanup_old_backups`: what is left, and the names of the sets that were deleted. -/
def cleanupOldBackups (σ : DrSettings) (now : ℤ) (root : BackupRoot) : BackupRoot × List String :=
  let sets := listBackupSets root
  let deleted :=
    if sets.length ≤ σ.keep then []
    else ((sets.take (sets.length - σ.keep)).filter fun d => d.mtime < σ.cutoff now).map
      BackupDir.name
  ({ dirs := root.dirs.filter fun d => !deleted.contains d.name
     names := root.names.sublist (List.filter_sublist.map _) }, deleted)

/-! ## Runs -/

inductive DrStep where
  | backup (σ : DrSettings) (name : String) (mtime : ℤ) (run : BackupRun)
  | cleanup (σ : DrSettings) (now : ℤ)

def drStep (lib : Library) : DrStep → BackupRoot → Option BackupRoot
  | .backup σ name mtime run, root => some (root.write name mtime (runBackup lib σ name run))
  | .cleanup σ now, root => some (cleanupOldBackups σ now root).1

/-- A set whose run has completed and that passes verification. -/
def GoodSet (lib : Library) (σ : DrSettings) (d : BackupDir) : Prop :=
  (∃ m, d.set.manifest = some m ∧ m.status = "completed") ∧ verifyBackup lib σ d.set = .ok true

/-- If there is a good set before, there is one after. -/
def Survives (lib : Library) (σ : DrSettings) (root root' : BackupRoot) : Prop :=
  (∃ d ∈ root.sets, GoodSet lib σ d) → ∃ d ∈ root'.sets, GoodSet lib σ d

/-- A cleanup that finds a good set finds one than which fewer than `keep` sets are newer, or one
within its retention. -/
def SparesGood (lib : Library) (root : BackupRoot) : DrStep → Prop
  | .cleanup σ now => (∃ d ∈ root.sets, GoodSet lib σ d) → ∃ d ∈ root.sets, GoodSet lib σ d ∧
      (root.sets.countP (fun e => d.name < e.name) < σ.keep ∨ σ.cutoff now ≤ d.mtime)
  | .backup _ _ _ _ => True

/-! ## What is left -/

section

variable {root : BackupRoot} {σ : DrSettings} {now : ℤ} {d : BackupDir}

theorem names_sets (root : BackupRoot) : (root.sets.map BackupDir.name).Nodup :=
  root.names.sublist (List.filter_sublist.map _)

/-- What is deleted. -/
theorem mem_deleted_iff (hd : d ∈ root.sets) : d.name ∈ (cleanupOldBackups σ now root).2 ↔
    ¬ root.sets.countP (fun e => d.name < e.name) < σ.keep ∧ d.mtime < σ.cutoff now := by
  have hlength : (listBackupSets root).length = root.sets.length := (sortByKey_perm _).length_eq
  have hdeleted : d.name ∈ (cleanupOldBackups σ now root).2 ↔
      ¬ root.sets.length ≤ σ.keep ∧ d ∈ older BackupDir.name σ.keep root.sets ∧
        d.mtime < σ.cutoff now := by
    simp only [cleanupOldBackups, hlength]
    split_ifs with hfew
    · exact iff_of_false (List.not_mem_nil) fun h => h.1 hfew
    · constructor
      · intro h
        obtain ⟨e, he, hname⟩ := List.mem_map.mp h
        obtain ⟨holder, hold⟩ := List.mem_filter.mp he
        have hmem : e ∈ root.sets := (sortByKey_perm _).mem_iff.mp (List.mem_of_mem_take holder)
        obtain rfl := List.inj_on_of_nodup_map (names_sets root) hmem hd hname
        refine ⟨hfew, ?_, of_decide_eq_true hold⟩
        unfold older
        rwa [show (sortByKey BackupDir.name root.sets).length = root.sets.length from hlength]
      · rintro ⟨-, holder, hold⟩
        refine List.mem_map_of_mem (List.mem_filter.mpr ⟨?_, decide_eq_true hold⟩)
        unfold older at holder
        rwa [show (sortByKey BackupDir.name root.sets).length = root.sets.length from hlength]
          at holder
  rw [hdeleted, mem_older_iff (names_sets root) hd]
  constructor
  · exact fun ⟨_, h⟩ => h
  · refine fun h => ⟨fun hfew => h.1 (lt_of_lt_of_le ?_ hfew), h⟩
    -- the set itself is not newer than itself
    refine lt_of_le_of_ne List.countP_le_length fun heq => ?_
    have hself := List.countP_eq_length.mp heq d hd
    exact absurd (of_decide_eq_true hself) (lt_irrefl _)

/-- **What a cleanup leaves**: the newest sets, and those within their retention. -/
theorem mem_cleanup_iff : d ∈ (cleanupOldBackups σ now root).1.sets ↔ d ∈ root.sets ∧
    (root.sets.countP (fun e => d.name < e.name) < σ.keep ∨ σ.cutoff now ≤ d.mtime) := by
  have hleft : d ∈ (cleanupOldBackups σ now root).1.sets ↔
      d ∈ root.sets ∧ d.name ∉ (cleanupOldBackups σ now root).2 := by
    have hdirs : (cleanupOldBackups σ now root).1.dirs =
        root.dirs.filter fun e => !(cleanupOldBackups σ now root).2.contains e.name := rfl
    simp only [BackupRoot.sets, hdirs, List.mem_filter, Bool.not_eq_true', ← Bool.not_eq_true,
      List.contains_iff_mem]
    tauto
  rw [hleft]
  refine and_congr_right fun hd => ?_
  rw [mem_deleted_iff hd]
  rw [not_and_or, not_not, not_lt]

end

/-! ## The last good set -/

/-- **A cleanup** leaves a good set exactly when it spares one. -/
theorem cleanup_survives_iff (lib : Library) (root : BackupRoot) (σ : DrSettings) (now : ℤ) :
    Survives lib σ root (cleanupOldBackups σ now root).1 ↔
      SparesGood lib root (.cleanup σ now) := by
  refine imp_congr_right fun _ => exists_congr fun d => ?_
  rw [mem_cleanup_iff]
  tauto

/-- **The last good set survives** every cleanup of a run exactly when each of them spares one. -/
theorem survives_iff (lib : Library) (τ : List DrStep) :
    (∀ τ₁ σ now τ₂, τ = τ₁ ++ .cleanup σ now :: τ₂ →
      Survives lib σ (run (drStep lib) .empty τ₁)
        (run (drStep lib) .empty (τ₁ ++ [.cleanup σ now]))) ↔
      Along (drStep lib) (SparesGood lib) .empty τ := by
  constructor
  · intro h τ₁ a τ₂ hτ
    cases a with
    | backup σ name mtime run => trivial
    | cleanup σ now =>
      have hsurvives := h τ₁ σ now τ₂ hτ
      rw [run_concat] at hsurvives
      exact (cleanup_survives_iff lib _ σ now).mp hsurvives
  · intro h τ₁ σ now τ₂ hτ
    rw [run_concat]
    exact (cleanup_survives_iff lib _ σ now).mpr (h τ₁ (.cleanup σ now) τ₂ hτ)

/-! ## A burst of failures -/

/-- One set is kept, and the others have no retention. -/
def oneKept : DrSettings := { mysqlOnly with minKeep := 1, retentionDays := 0 }

/-- A run that completes, one that is stopped, and a cleanup. -/
def burst : List DrStep :=
  [.backup oneKept "20260101T000000Z" 0 dumpRun,
    .backup oneKept "20260102T000000Z" 1 (.crashed fun _ => none), .cleanup oneKept 2]

/-- **The only good set is deleted** when the newest one has failed. -/
theorem last_good_deleted : ¬ ∀ (lib : Library) (τ τ₁ : List DrStep) (σ : DrSettings) (now : ℤ)
    (τ₂ : List DrStep), τ = τ₁ ++ .cleanup σ now :: τ₂ →
      Survives lib σ (run (drStep lib) .empty τ₁)
        (run (drStep lib) .empty (τ₁ ++ [.cleanup σ now])) := by
  intro hall
  have hsurvives := hall asciiLibrary burst (burst.take 2) oneKept 2 [] rfl
  obtain ⟨d, hd, ⟨m, hm, -⟩, -⟩ := hsurvives
    ⟨⟨"20260101T000000Z", 0, runBackup asciiLibrary oneKept "20260101T000000Z" dumpRun .empty⟩,
      List.mem_cons_self, ⟨_, rfl, rfl⟩, rfl⟩
  have hleft : (run (drStep asciiLibrary) .empty (burst.take 2 ++ [.cleanup oneKept 2])).sets =
      [⟨"20260102T000000Z", 1, ⟨none, fun _ => none⟩⟩] := rfl
  rw [hleft, List.mem_singleton] at hd
  subst hd
  cases hm

end ScanPlatform.Dr

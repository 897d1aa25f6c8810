import Mathlib.Data.Int.Notation
import Mathlib.Data.List.Perm.Basic
import ScanPlatform.Base.CondMachine
import ScanPlatform.Base.Table

/-!
# The dead letters of scans

The Redis list on which executions leave their last failure, and what operators do with it. A replay
reads the list, enqueues the scan, and then removes its entries; a removal reads the list and
deletes what it has read, one entry after another. Executions fail in between.

* `DeadLetter`, `recordDlq`: an entry, and the one that a failure leaves;
* `Dlq`, `dlqStep`: the list with all calls in progress, and the Redis commands of all parties;
* `LettersMove`, `dlqStep_moves`: what a step can do;
* `Dlq.Kept`: an entry leaves the list by a removal that is due;
* `Apart`, `Spared`, **`dead_letters_kept`**: when that is so; `replayed_failure_lost` is a replay
  that deletes the entry of the execution which it has started.
-/

set_option autoImplicit false

namespace ScanPlatform.DeadLetters

open CondMachine

/-! ## The list and its calls -/

/-- An entry of the list. Its JSON text tells every field, so that two entries with one text are
equal. -/
structure DeadLetter where
  taskName : String
  taskId : Option String
  scanId : String
  retries : ℕ
  error : String
  ts : ℤ
  deriving DecidableEq

/-- The last failure of an execution, with the type and the text of its exception. -/
structure Failure where
  scanId : String
  excType : String
  exc : String
  taskId : Option String
  retries : ℕ
  ts : ℤ

/-- What `_record_dlq` pushes. -/
def recordDlq (f : Failure) : DeadLetter where
  taskName := "scans.run_scan"
  taskId := f.taskId
  scanId := f.scanId
  retries := f.retries
  error := String.ofList ((f.excType ++ ": " ++ f.exc).toList.take 1000)
  ts := f.ts

/-- An entry with the moment at which it has been recorded. -/
structure Letter where
  entry : DeadLetter
  recorded : ℕ

/-- A call of `remove`, by an operator or at the end of a replay. `since` is when the operator has
called it, or when the replay has enqueued the scan. -/
structure Removal where
  scanId : String
  replays : Bool
  since : ℕ
  removed : ℕ

/-- A letter that is no longer in the list, and the removal that has deleted it; there is none when
the list has been cut. -/
structure Departure where
  letter : Letter
  removal : Option Removal

/-- A call between two of its commands. -/
inductive Call where
  /-- `_record_dlq` is about to cut the list. -/
  | recording
  /-- `replay` has found an entry and is about to enqueue. -/
  | replaying (scanId : String)
  /-- `remove` is about to read the list, and to delete the next entry that it has read. -/
  | listing (r : Removal)
  | deleting (r : Removal) (rest : List DeadLetter)

inductive Answer where
  | removed (n : ℕ)
  | replayed (found : Bool)
  | runtimeError (text : String)

/-- The list and the calls in progress. `now` counts the commands; `written` keeps every letter that
has been recorded, and `gone` those that have left. -/
structure Dlq where
  now : ℕ
  letters : List Letter
  calls : Table ℕ Call
  sent : List String
  answers : List (ℕ × Answer)
  written : List Letter
  gone : List Departure

def Dlq.empty : Dlq := ⟨0, [], fun _ => none, [], [], [], []⟩

/-- `RPUSH`. -/
def Dlq.rpush (s : Dlq) (e : DeadLetter) : Dlq :=
  { s with letters := s.letters ++ [⟨e, s.now⟩], written := s.written ++ [⟨e, s.now⟩] }

/-- How many entries `LTRIM -1000 -1` cuts off. -/
@[irreducible] def Dlq.excess (s : Dlq) : ℕ := s.letters.length - 1000

def Dlq.ltrim (s : Dlq) : Dlq :=
  { s with
    letters := s.letters.drop s.excess
    gone := s.gone ++ (s.letters.take s.excess).map fun l => ⟨l, none⟩ }

/-- `LREM 0`. -/
def Dlq.lrem (s : Dlq) (r : Removal) (e : DeadLetter) : Dlq :=
  { s with
    letters := s.letters.filter (¬ ·.entry = e)
    gone := s.gone ++ (s.letters.filter (·.entry = e)).map fun l => ⟨l, some r⟩ }

def Dlq.call (s : Dlq) (n : ℕ) (c : Call) : Dlq := { s with calls := s.calls.set n c }

def Dlq.ends (s : Dlq) (n : ℕ) : Dlq := { s with calls := Function.update s.calls n none }

def Dlq.answer (s : Dlq) (n : ℕ) (a : Answer) : Dlq :=
  { s.ends n with answers := s.answers ++ [(n, a)] }

/-- The entries of a scan, oldest first. -/
def Dlq.entriesOf (s : Dlq) (scanId : String) : List DeadLetter :=
  (s.letters.map (·.entry)).filter (·.scanId = scanId)

def Dlq.tick (s : Dlq) : Dlq := { s with now := s.now + 1 }

/-- What `replay` says when Celery does not dispatch scans. -/
def replayRefused (scanId : String) : String :=
  s!"scan {scanId}: Celery scan dispatch is disabled (lease model), so a replay " ++
  "cannot be enqueued -- nothing consumes the scan queues. Re-run the scan " ++
  "through the API instead; the DLQ entry has been left in place."

/-- The commands of all parties; `lost` is a call that goes no further. -/
inductive DlqStep where
  | push (n : ℕ) (f : Failure)
  | trim (n : ℕ)
  | replay (n : ℕ) (scanId : String)
  | enqueue (n : ℕ)
  | remove (n : ℕ) (scanId : String)
  | list (n : ℕ)
  | delete (n : ℕ)
  | finish (n : ℕ)
  | lost (n : ℕ)

def dlqCommand (celeryScanDispatchEnabled : Bool) : DlqStep → Dlq → Option Dlq
  | .push n f, s =>
    if (s.calls n).isNone then some ((s.rpush (recordDlq f)).call n .recording) else none
  | .trim n, s =>
    match s.calls n with
    | some .recording => some (s.ltrim.ends n)
    | _ => none
  | .replay n scanId, s =>
    if (s.calls n).isNone then
      if s.entriesOf scanId = [] then some (s.answer n (.replayed false))
      else if ¬ celeryScanDispatchEnabled then
        some (s.answer n (.runtimeError (replayRefused scanId)))
      else some (s.call n (.replaying scanId))
    else none
  | .enqueue n, s =>
    match s.calls n with
    | some (.replaying scanId) =>
      some ({ s with sent := s.sent ++ [scanId] }.call n (.listing ⟨scanId, true, s.now, 0⟩))
    | _ => none
  | .remove n scanId, s =>
    if (s.calls n).isNone then some (s.call n (.listing ⟨scanId, false, s.now, 0⟩)) else none
  | .list n, s =>
    match s.calls n with
    | some (.listing r) => some (s.call n (.deleting r (s.entriesOf r.scanId)))
    | _ => none
  | .delete n, s =>
    match s.calls n with
    | some (.deleting r (e :: rest)) =>
      let removed := r.removed + (s.letters.filter (·.entry = e)).length
      some ((s.lrem r e).call n (.deleting { r with removed := removed } rest))
    | _ => none
  | .finish n, s =>
    match s.calls n with
    | some (.deleting r []) =>
      some (s.answer n (if r.replays then .replayed true else .removed r.removed))
    | _ => none
  | .lost n, s => some (s.ends n)

def dlqStep (celeryScanDispatchEnabled : Bool) (a : DlqStep) (s : Dlq) : Option Dlq :=
  (dlqCommand celeryScanDispatchEnabled a s).map Dlq.tick

/-! ## What is to hold -/

/-- The letter is one of the scan, and was there when the operator called or the replay enqueued. -/
def Departure.Due (d : Departure) : Prop :=
  ∃ r, d.removal = some r ∧ d.letter.entry.scanId = r.scanId ∧ d.letter.recorded < r.since

/-- Every letter that has been recorded is in the list or has left it, and has left it by a removal
that is due. -/
structure Dlq.Kept (s : Dlq) : Prop where
  accounted : (s.letters ++ s.gone.map (·.letter)).Perm s.written
  due : ∀ d ∈ s.gone, d.Due

/-- There are fewer than 1000 entries. -/
def Room (s : Dlq) (_ : DlqStep) : Prop := s.letters.length < 1000

/-- The entries that a call is still to delete. -/
def Call.Deletes (e : DeadLetter) : Call → Prop
  | .recording | .replaying _ => False
  | .listing r => e.scanId = r.scanId
  | .deleting _ rest => e ∈ rest

/-- No entry is recorded that a call in progress is still to delete. -/
def Apart (s : Dlq) (a : DlqStep) : Prop :=
  ∀ n f, a = .push n f → ∀ m c, s.calls m = some c → ¬ c.Deletes (recordDlq f)

/-- The letters that a call deletes were there when the operator called or the replay enqueued. -/
def Spared (s : Dlq) (a : DlqStep) : Prop :=
  ∀ n r e rest, a = .delete n → s.calls n = some (.deleting r (e :: rest)) →
    ∀ l ∈ s.letters, l.entry = e → l.recorded < r.since

/-! ## What a step can do -/

def Call.removal : Call → Option Removal
  | .recording | .replaying _ => none
  | .listing r | .deleting r _ => some r

/-- The letters after a step. -/
inductive LettersMove (s : Dlq) : DlqStep → Dlq → Prop
  | stay (a : DlqStep) (s' : Dlq) (hletters : s'.letters = s.letters)
    (hwritten : s'.written = s.written) (hgone : s'.gone = s.gone) : LettersMove s a s'
  | push (n : ℕ) (f : Failure) :
    LettersMove s (.push n f) ((s.rpush (recordDlq f)).call n .recording).tick
  | trim (n : ℕ) : LettersMove s (.trim n) (s.ltrim.ends n).tick
  | delete (n : ℕ) (r : Removal) (e : DeadLetter) (rest : List DeadLetter) (c : Call)
    (hc : s.calls n = some (.deleting r (e :: rest))) :
    LettersMove s (.delete n) ((s.lrem r e).call n c).tick

/-- A removal goes on for what it was to delete before, or starts. -/
def Continues (s : Dlq) (a : DlqStep) (c : Call) : Prop :=
  ∀ r, c.removal = some r →
    (∃ m c₀ r₀, s.calls m = some c₀ ∧ c₀.removal = some r₀ ∧ r.scanId = r₀.scanId ∧
      r.since = r₀.since ∧ ∀ e, c.Deletes e → c₀.Deletes e) ∨
    r.since = s.now ∧ c = .listing r ∧ ∀ n f, a ≠ .push n f

variable {enabled : Bool} {s s' : Dlq} {a : DlqStep}

theorem continues_self {n : ℕ} {c : Call} (h : s.calls n = some c) : Continues s a c :=
  fun r hr => .inl ⟨n, c, r, h, hr, rfl, rfl, fun _ he => he⟩

/-- What a call that has ended or has gone one command further leaves in the table. -/
theorem continues_call {n : ℕ} {c : Call} (hcalls : s'.calls = s.calls) (hc : Continues s a c)
    {m : ℕ} {c' : Call} (h : (s'.call n c).calls m = some c') : Continues s a c' := by
  rcases Table.eq_or_of_set h with rfl | h
  · exact hc
  · exact continues_self (hcalls ▸ h)

theorem continues_ends {n m : ℕ} {c : Call} (hcalls : s'.calls = s.calls)
    (h : (s'.ends n).calls m = some c) : Continues s a c := by
  by_cases hmn : m = n
  · have hnone : (s'.ends n).calls m = none := by
      rw [hmn]
      exact Function.update_self n none s'.calls
    rw [hnone] at h
    cases h
  · have hsame : (s'.ends n).calls m = s'.calls m := by
      unfold Dlq.ends
      exact Function.update_of_ne hmn none s'.calls
    rw [hsame, hcalls] at h
    exact continues_self h

/-- No removal is in progress in a call of this kind. -/
theorem continues_none {c : Call} (h : c.removal = none) : Continues s a c := by
  intro r hr
  rw [h] at hr
  cases hr

theorem mem_entriesOf {scanId : String} {e : DeadLetter} (h : e ∈ s.entriesOf scanId) :
    e.scanId = scanId := of_decide_eq_true (List.mem_filter.mp h).2

/-- **What a step can do.** -/
theorem dlqStep_moves (h : dlqStep enabled a s = some s') :
    s'.now = s.now + 1 ∧ (∀ m c, s'.calls m = some c → Continues s a c) ∧ LettersMove s a s' := by
  obtain ⟨t, ht, rfl⟩ := Option.map_eq_some_iff.mp h
  cases a with
  | push n f =>
    obtain ⟨-, rfl⟩ := guarded_eq_some.mp ht
    have hcalls : (s.rpush (recordDlq f)).calls = s.calls := rfl
    exact ⟨rfl, fun m c hc => continues_call hcalls (continues_none rfl) hc, .push n f⟩
  | trim n =>
    simp only [dlqCommand] at ht
    split at ht
    · obtain rfl := Option.some.inj ht
      have hcalls : s.ltrim.calls = s.calls := rfl
      exact ⟨rfl, fun m c hc => continues_ends hcalls hc, .trim n⟩
    · cases ht
  | replay n scanId =>
    simp only [dlqCommand] at ht
    split_ifs at ht
    · obtain rfl := Option.some.inj ht
      exact ⟨rfl, fun m c hc => continues_ends rfl hc, .stay _ _ rfl rfl rfl⟩
    · obtain rfl := Option.some.inj ht
      exact ⟨rfl, fun m c hc => continues_call rfl (continues_none rfl) hc, .stay _ _ rfl rfl rfl⟩
    · obtain rfl := Option.some.inj ht
      exact ⟨rfl, fun m c hc => continues_ends rfl hc, .stay _ _ rfl rfl rfl⟩
  | enqueue n =>
    simp only [dlqCommand] at ht
    split at ht
    · obtain rfl := Option.some.inj ht
      refine ⟨rfl, fun m c hc => continues_call rfl (fun r hr => .inr ?_) hc, .stay _ _ rfl rfl rfl⟩
      obtain rfl := Option.some.inj hr
      exact ⟨rfl, rfl, fun _ _ h => by cases h⟩
    · cases ht
  | remove n scanId =>
    obtain ⟨-, rfl⟩ := guarded_eq_some.mp ht
    refine ⟨rfl, fun m c hc => continues_call rfl (fun r hr => .inr ?_) hc, .stay _ _ rfl rfl rfl⟩
    obtain rfl := Option.some.inj hr
    exact ⟨rfl, rfl, fun _ _ h => by cases h⟩
  | list n =>
    simp only [dlqCommand] at ht
    split at ht
    · rename_i r hcall
      obtain rfl := Option.some.inj ht
      refine ⟨rfl, fun m c hc => continues_call rfl (fun r' hr => .inl ?_) hc,
        .stay _ _ rfl rfl rfl⟩
      obtain rfl := Option.some.inj hr
      exact ⟨n, _, r, hcall, rfl, rfl, rfl, fun e he => mem_entriesOf he⟩
    · cases ht
  | delete n =>
    simp only [dlqCommand] at ht
    split at ht
    · rename_i r e rest hcall
      obtain rfl := Option.some.inj ht
      have hcalls : (s.lrem r e).calls = s.calls := rfl
      refine ⟨rfl, fun m c hc => continues_call hcalls (fun r' hr => .inl ?_) hc,
        .delete n r e rest _ hcall⟩
      obtain rfl := Option.some.inj hr
      exact ⟨n, _, r, hcall, rfl, rfl, rfl, fun e' he => List.mem_cons_of_mem e he⟩
    · cases ht
  | finish n =>
    simp only [dlqCommand] at ht
    split at ht
    · obtain rfl := Option.some.inj ht
      exact ⟨rfl, fun m c hc => continues_ends rfl hc, .stay _ _ rfl rfl rfl⟩
    · cases ht
  | lost n =>
    obtain rfl := Option.some.inj ht
    exact ⟨rfl, fun m c hc => continues_ends rfl hc, .stay _ _ rfl rfl rfl⟩

/-! ## What every step keeps -/

/-- Letters are older than the step, none is unaccounted for, and a removal deletes entries of its
scan. -/
structure Dlq.Sound (s : Dlq) : Prop where
  older : ∀ l ∈ s.letters, l.recorded < s.now
  accounted : (s.letters ++ s.gone.map (·.letter)).Perm s.written
  ofScan : ∀ n c r e, s.calls n = some c → c.removal = some r → c.Deletes e → e.scanId = r.scanId

/-- A letter after a step was in the list before it, or has just been recorded. -/
theorem LettersMove.mem (h : LettersMove s a s') {l : Letter} (hl : l ∈ s'.letters) :
    l ∈ s.letters ∨ ∃ n f, a = .push n f ∧ l = ⟨recordDlq f, s.now⟩ := by
  cases h with
  | stay _ _ hletters => exact .inl (hletters ▸ hl)
  | push n f =>
    rcases List.mem_append.mp hl with hl | hl
    · exact .inl hl
    · exact .inr ⟨n, f, rfl, List.mem_singleton.mp hl⟩
  | trim n =>
    exact .inl (List.mem_of_mem_drop hl)
  | delete n r e rest c hc => exact .inl (List.mem_of_mem_filter hl)

/-- The letters that a step takes from the list are those that it adds to the departures. -/
theorem perm_of_split {kept left letters before after written : List Letter}
    (hsplit : (kept ++ left).Perm letters) (hafter : after = before ++ left)
    (h : (letters ++ before).Perm written) : (kept ++ after).Perm written := by
  rw [hafter]
  have hmid : (kept ++ (before ++ left)).Perm ((kept ++ left) ++ before) := by
    rw [List.append_assoc]
    exact List.perm_append_comm.append_left kept
  exact hmid.trans ((hsplit.append_right before).trans h)

theorem LettersMove.accounted (h : LettersMove s a s')
    (hs : (s.letters ++ s.gone.map (·.letter)).Perm s.written) :
    (s'.letters ++ s'.gone.map (·.letter)).Perm s'.written := by
  cases h with
  | stay _ _ hletters hwritten hgone =>
    rw [hletters, hwritten, hgone]
    exact hs
  | push n f =>
    let l : Letter := ⟨recordDlq f, s.now⟩
    have hmid : (s.letters ++ [l] ++ s.gone.map (·.letter)).Perm
        (s.letters ++ s.gone.map (·.letter) ++ [l]) := by
      rw [List.append_assoc, List.append_assoc]
      exact List.perm_append_comm.append_left s.letters
    exact hmid.trans (hs.append_right [l])
  | trim n =>
    have hsplit : (s.letters.drop s.excess ++ s.letters.take s.excess).Perm s.letters :=
      List.perm_append_comm.trans (.of_eq (List.take_append_drop s.excess s.letters))
    refine perm_of_split hsplit ?_ hs
    exact List.map_append.trans (congrArg _ (List.map_map.trans (List.map_id _)))
  | delete n r e rest c hc =>
    have hsplit : (s.letters.filter (¬ ·.entry = e) ++ s.letters.filter (·.entry = e)).Perm
        s.letters := by
      have hfilter := List.filter_append_perm (fun l : Letter => decide (l.entry = e)) s.letters
      simp only [← decide_not] at hfilter
      exact List.perm_append_comm.trans hfilter
    refine perm_of_split hsplit ?_ hs
    exact List.map_append.trans (congrArg _ (List.map_map.trans (List.map_id _)))

/-- **What every step keeps.** -/
theorem dlq_sound (hs : s.Sound) (h : dlqStep enabled a s = some s') : s'.Sound := by
  obtain ⟨hnow, hcalls, hmove⟩ := dlqStep_moves h
  refine ⟨fun l hl => ?_, hmove.accounted hs.accounted, fun n c r e hc hr he => ?_⟩
  · rw [hnow]
    rcases hmove.mem hl with hold | ⟨n, f, -, rfl⟩
    · exact Nat.lt_succ_of_lt (hs.older l hold)
    · exact Nat.lt_succ_self s.now
  · rcases hcalls n c hc r hr with ⟨m, c₀, r₀, hc₀, hr₀, hscan, -, hdeletes⟩ | ⟨-, rfl, -⟩
    · exact hscan ▸ hs.ofScan m c₀ r₀ e hc₀ hr₀ (hdeletes e he)
    · exact he

theorem sound_empty : Dlq.empty.Sound where
  older _ hl := by cases hl
  accounted := List.Perm.refl _
  ofScan _ _ _ _ hc := by cases hc

/-! ## When no letter is lost -/

theorem kept_empty : Dlq.empty.Kept where
  accounted := List.Perm.refl _
  due _ hd := by cases hd

/-- The cut of the list takes nothing while there is room. -/
theorem excess_of_room (h : Room s a) : s.excess = 0 := by
  unfold Dlq.excess
  exact Nat.sub_eq_zero_of_le (Nat.le_of_lt h)

theorem LettersMove.due (h : LettersMove s a s') (hroom : Room s a) (hs : s.Sound)
    (hdue : ∀ d ∈ s.gone, d.Due) (hspared : Spared s a) : ∀ d ∈ s'.gone, d.Due := by
  intro d hd
  cases h with
  | stay _ _ _ _ hgone => exact hdue d (hgone ▸ hd)
  | push n f => exact hdue d hd
  | trim n =>
    rcases List.mem_append.mp hd with hd | hd
    · exact hdue d hd
    · rw [excess_of_room hroom, List.take_zero] at hd
      cases hd
  | delete n r e rest c hc =>
    rcases List.mem_append.mp hd with hd | hd
    · exact hdue d hd
    · obtain ⟨l, hl, rfl⟩ := List.mem_map.mp hd
      obtain ⟨hmem, heq⟩ := List.mem_filter.mp hl
      obtain rfl := of_decide_eq_true heq
      have hscan := hs.ofScan n _ r l.entry hc rfl List.mem_cons_self
      exact ⟨r, rfl, hscan, hspared n r l.entry rest rfl hc l hmem rfl⟩

/-- **A step keeps every letter from being lost** when those that it deletes were there in time. -/
theorem kept_next_iff (hroom : Room s a) (hs : s.Sound) (hkept : s.Kept) :
    (next (dlqStep enabled) s a).Kept ↔ Spared s a := by
  constructor
  · rintro hnext n r e rest rfl hcall l hl rfl
    have hstep : dlqStep enabled (.delete n) s = some ((s.lrem r l.entry).call n
        (.deleting { r with removed := r.removed +
          (s.letters.filter (·.entry = l.entry)).length } rest)).tick := by
      simp only [dlqStep, dlqCommand, hcall, Option.map_some]
    rw [next_some hstep] at hnext
    have hmem : (⟨l, some r⟩ : Departure) ∈ s.gone ++
        (s.letters.filter (·.entry = l.entry)).map fun l => ⟨l, some r⟩ :=
      List.mem_append_right _ (List.mem_map_of_mem (List.mem_filter.mpr ⟨hl, by simp⟩))
    obtain ⟨r', hr', -, hbefore⟩ := hnext.due _ hmem
    exact Option.some.inj hr' ▸ hbefore
  · intro hspared
    rcases next_cases (dlqStep enabled) s a with hstep | ⟨-, hsame⟩
    · obtain ⟨-, -, hmove⟩ := dlqStep_moves hstep
      exact ⟨hmove.accounted hkept.accounted, hmove.due hroom hs hkept.due hspared⟩
    · rw [hsame]
      exact hkept

/-- Every letter that a call in progress is still to delete was there in time. -/
def Timely (s : Dlq) : Prop :=
  ∀ n c r, s.calls n = some c → c.removal = some r →
    ∀ l ∈ s.letters, c.Deletes l.entry → l.recorded < r.since

/-- **Calls stay timely** when no entry is recorded that one is still to delete. -/
theorem timely_step (hs : s.Sound) (htimely : Timely s) (hapart : Apart s a)
    (h : dlqStep enabled a s = some s') : Timely s' := by
  obtain ⟨-, hcalls, hmove⟩ := dlqStep_moves h
  intro n c r hc hr l hl hdeletes
  rcases hcalls n c hc r hr with ⟨m, c₀, r₀, hc₀, hr₀, -, hsince, hbefore⟩ |
    ⟨hsince, rfl, hno⟩
  · rcases hmove.mem hl with hold | ⟨k, f, rfl, rfl⟩
    · exact hsince ▸ htimely m c₀ r₀ hc₀ hr₀ l hold (hbefore l.entry hdeletes)
    · exact absurd (hbefore _ hdeletes) (hapart k f rfl m c₀ hc₀)
  · rcases hmove.mem hl with hold | ⟨k, f, rfl, rfl⟩
    · exact hsince ▸ hs.older l hold
    · exact absurd rfl (hno k f)

/-- What the calls in progress have read in time, they delete in time. -/
theorem spared_of_timely (h : Timely s) : Spared s a := by
  rintro n r e rest - hcall l hl rfl
  exact h n _ r hcall rfl l hl List.mem_cons_self

/-- **No dead letter is lost** in a run with fewer than 1000 entries in which none is recorded that
a call in progress is still to delete; and whatever is recorded, none is lost exactly when each
letter that a call deletes was there when the operator called or the replay enqueued. -/
theorem dead_letters_kept (enabled : Bool) (σ : List DlqStep)
    (hroom : Along (dlqStep enabled) Room .empty σ) :
    (Along (dlqStep enabled) Apart .empty σ →
      ∀ σ₁ σ₂, σ = σ₁ ++ σ₂ → (run (dlqStep enabled) .empty σ₁).Kept) ∧
    ((∀ σ₁ σ₂, σ = σ₁ ++ σ₂ → (run (dlqStep enabled) .empty σ₁).Kept) ↔
      Along (dlqStep enabled) Spared .empty σ) := by
  have hiff : (∀ σ₁ σ₂, σ = σ₁ ++ σ₂ → (run (dlqStep enabled) .empty σ₁).Kept) ↔
      Along (dlqStep enabled) Spared .empty σ :=
    holds_iff_along_of (fun s a s' hs h => dlq_sound hs h)
      (fun s a hroom hs hkept => kept_next_iff hroom hs hkept) sound_empty kept_empty hroom
  refine ⟨fun hapart => hiff.mpr ?_, hiff⟩
  refine Along.of_invariant (I := fun s => s.Sound ∧ Timely s)
    (fun s a s' hs hP h => ⟨dlq_sound hs.1 h, timely_step hs.1 hs.2 hP h⟩)
    (fun s a hs _ => spared_of_timely hs.2) ⟨sound_empty, fun n c r hc => ?_⟩ hapart
  cases hc

/-! ## A replay of a scan that fails again -/

def failure (taskId : String) (ts : ℤ) : Failure where
  scanId := "s1"
  excType := "RuntimeError"
  exc := "boom"
  taskId := some taskId
  retries := 3
  ts

/-- An operator removes the entry of a scan. -/
def removedInTime : List DlqStep :=
  [.push 0 (failure "t1" 10), .remove 1 "s1", .list 1, .delete 1, .finish 1]

theorem removed_in_time_kept : (run (dlqStep true) .empty removedInTime).Kept := by
  have hroom : Along (dlqStep true) Room .empty removedInTime := by
    unfold removedInTime
    repeat refine .cons (by unfold Room; decide) ?_
    exact along_nil _ _
  have hapart : Along (dlqStep true) Apart .empty removedInTime := by
    refine .cons (fun n f _ m c hc => by cases hc) ?_
    repeat refine .cons (fun n f h => by cases h) ?_
    exact along_nil _ _
  exact (dead_letters_kept true removedInTime hroom).1 hapart removedInTime []
    (List.append_nil _).symm

/-- The scan has failed and is replayed, and the new execution fails before the replay goes on. -/
def failsAgain : List DlqStep :=
  [.push 0 (failure "t1" 10), .replay 1 "s1", .enqueue 1, .push 2 (failure "t2" 20),
    .list 1, .delete 1, .delete 1, .finish 1]

/-- **The replay deletes the entry of the execution which it has started.** -/
theorem replayed_failure_lost : ¬ (run (dlqStep true) .empty failsAgain).Kept := by
  intro h
  have hgone : (run (dlqStep true) .empty failsAgain).gone.map
      (fun d => (d.letter.recorded, d.removal.map (·.since))) = [(0, some 2), (3, some 2)] := by
    decide
  obtain ⟨d, hd, heq⟩ := List.mem_map.mp (hgone ▸ List.mem_cons_of_mem _ List.mem_cons_self)
  obtain ⟨hrecorded, hsince⟩ := Prod.mk.inj heq
  obtain ⟨r, hr, -, hbefore⟩ := h.due d hd
  rw [hr] at hsince
  have hsince : r.since = 2 := Option.some.inj hsince
  rw [hrecorded, hsince] at hbefore
  exact absurd hbefore (by decide)

end ScanPlatform.DeadLetters

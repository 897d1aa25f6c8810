import Mathlib.Data.List.Nodup
import ScanPlatform.Base.FenceLock
import ScanPlatform.Scan.Row

/-!
# Execution ownership of a scan

The token that `claimScan` installs is a fencing lock on the row: `scanStep` is a `Fenced` machine
in which a claim acquires the lock, an owner's heartbeat uses it, a terminal write of the owner
releases it, and the reaper, a cancellation and a shutdown requeue revoke it.

`reapOrphanedScans` judges a row by `last_heartbeat_at`, and by `started_at` when that is NULL.
`claimScan` resets only the second, so the heartbeat of an earlier execution can condemn a claim
that has just been made.

* `scan_fenced`: the updates keep to their roles;
* `owned_step`: a row has a token exactly while it is running;
* `scanStep_settled`: a completed or cancelled row matches no update;
* **`execution_ownership_exclusive`**: what follows for every run from a queued row;
* `lastClaimTime`: when the current execution claimed the scan;
* `ReapsOnlyStale`: no execution is reaped before the shorter of the two limits;
* `claimed_run`: what a running row says about its claim, while no claim finds an old heartbeat;
* **`reaps_only_stale`**, `reaps_fresh_claim`: when the reaper spares fresh executions, and a run
  in which it does not.
-/

set_option autoImplicit false

namespace ScanPlatform

open CondMachine FenceLock

/-- What a step does to the ownership of the row. -/
def ScanStep.role : ScanStep → Role Uuid
  | .claim _ tok => .acquire tok
  | .finalize _ _ tok => .release tok
  | .reap _ _ _ | .cancel _ | .requeue _ => .revoke
  | .heartbeat _ (some tok) => .use tok
  | .heartbeat _ none => .other

/-- **The execution token is a fencing lock.** -/
theorem scan_fenced : Fenced scanStep Scan.executionToken ScanStep.role where
  after {s a s'} h := by
    cases a with
    | claim now tok => obtain ⟨-, rfl⟩ := claimScan_eq_some.mp h; rfl
    | finalize now st tok => obtain ⟨-, rfl⟩ := finalizeStatus_eq_some.mp h; rfl
    | reap now timeout stale => obtain ⟨-, rfl⟩ := reapOrphanedScans_eq_some.mp h; rfl
    | cancel now => obtain ⟨-, rfl⟩ := cancelScan_eq_some.mp h; rfl
    | requeue now => obtain ⟨-, rfl⟩ := requeueScan_eq_some.mp h; rfl
    | heartbeat now tok =>
      obtain ⟨-, rfl⟩ := stampHeartbeat_eq_some.mp h
      cases tok <;> rfl
  fence {s a s' t} h ht := by
    cases a with
    | finalize now st tok =>
      obtain ⟨⟨-, hs⟩, -⟩ := finalizeStatus_eq_some.mp h
      rw [hs]; exact ht
    | heartbeat now tok =>
      obtain ⟨⟨-, hs⟩, -⟩ := stampHeartbeat_eq_some.mp h
      cases tok with
      | none => cases ht
      | some u => rw [hs rfl]; exact ht
    | claim | reap | cancel | requeue => cases ht

theorem ScanStep.passive_iff (a : ScanStep) :
    a.role.Passive ↔ ∃ now tok, a = .heartbeat now tok := by
  cases a with
  | heartbeat now tok => cases tok <;> simp [role, Role.Passive]
  | claim | finalize | reap | cancel | requeue => simp [role, Role.Passive]

/-! ## The token and the status -/

/-- The row has a token exactly while it is running. -/
def Scan.Owned (s : Scan) : Prop := s.executionToken.isSome ↔ s.status = .running

theorem owned_step (s : Scan) (a : ScanStep) (s' : Scan) (hs : s.Owned)
    (h : scanStep a s = some s') : s'.Owned := by
  cases a with
  | claim now tok => obtain ⟨-, rfl⟩ := claimScan_eq_some.mp h; simp [Scan.Owned]
  | finalize now st tok =>
    obtain ⟨-, rfl⟩ := finalizeStatus_eq_some.mp h
    obtain ⟨st, hst⟩ := st
    suffices st ≠ .running by simpa [Scan.Owned] using this
    rintro rfl
    simp [terminalStatuses] at hst
  | reap now timeout stale => obtain ⟨-, rfl⟩ := reapOrphanedScans_eq_some.mp h; simp [Scan.Owned]
  | cancel now => obtain ⟨-, rfl⟩ := cancelScan_eq_some.mp h; simp [Scan.Owned]
  | requeue now => obtain ⟨-, rfl⟩ := requeueScan_eq_some.mp h; simp [Scan.Owned]
  | heartbeat now tok => obtain ⟨-, rfl⟩ := stampHeartbeat_eq_some.mp h; exact hs

/-- Nothing retries a scan of this status. -/
def ScanStatus.Settled (st : ScanStatus) : Prop :=
  st = .completed ∨ st = .completedWithErrors ∨ st = .cancelled

/-- A settled row matches the WHERE clause of no update. -/
theorem scanStep_settled {s : Scan} (hs : s.status.Settled) (a : ScanStep) :
    scanStep a s = none := by
  rcases hs with hs | hs | hs <;> cases a <;>
    simp [scanStep, claimScan, finalizeStatus, reapOrphanedScans, cancelScan, requeueScan,
      stampHeartbeat, terminalStatuses, hs]

theorem run_settled {s : Scan} (hs : s.status.Settled) (σ : List ScanStep) :
    run scanStep s σ = s := by
  induction σ with
  | nil => rfl
  | cons a σ ih => rw [run_cons, next_none (scanStep_settled hs a), ih]

/-! ## Claims and their tokens -/

/-- The token that a claim brings. -/
def ScanStep.claimToken : ScanStep → Option Uuid
  | .claim _ tok => some tok
  | _ => none

/-- The token that an executor's own write carries. -/
def ScanStep.carries : ScanStep → Option Uuid
  | .finalize _ _ tok => some tok
  | .heartbeat _ tok => tok
  | _ => none

/-- The terminal write of the executor that claimed with `t`. -/
def ScanStep.finalizes (t : Uuid) : ScanStep → Bool
  | .finalize _ _ tok => tok = t
  | _ => false

/-- Every claim brings a token of its own, as `uuid4` does. -/
def FreshClaims (σ : List ScanStep) : Prop := (σ.filterMap ScanStep.claimToken).Nodup

instance (σ : List ScanStep) : Decidable (FreshClaims σ) := by
  unfold FreshClaims; infer_instance

/-- The token of the last claim of a list of effective steps. -/
def lastClaim (l : List ScanStep) : Option Uuid := (l.filterMap ScanStep.claimToken).getLast?

theorem carries_eq_fence (a : ScanStep) : a.carries = a.role.fence := by
  cases a with
  | heartbeat now tok => cases tok <;> rfl
  | claim | finalize | reap | cancel | requeue => rfl

theorem role_eq_acquire {a : ScanStep} {t : Uuid} (h : a.role = .acquire t) :
    ∃ now, a = .claim now t := by
  cases a with
  | claim now tok => cases h; exact ⟨now, rfl⟩
  | heartbeat now tok => cases tok <;> cases h
  | finalize | reap | cancel | requeue => cases h

theorem lastClaim_of_split {l₁ l₂ : List ScanStep} {now : ℤ} {t : Uuid}
    (h : ∀ b ∈ l₂, b.role.Passive) : lastClaim (l₁ ++ .claim now t :: l₂) = some t := by
  have hnil : l₂.filterMap ScanStep.claimToken = [] := by
    rw [List.filterMap_eq_nil_iff]
    intro b hb
    obtain ⟨n, tok, rfl⟩ := b.passive_iff.mp (h b hb)
    rfl
  simp [lastClaim, ScanStep.claimToken, hnil]

theorem finalizes_eq_releases (t : Uuid) (a : ScanStep) :
    a.finalizes t = releases ScanStep.role t a := by
  cases a with
  | heartbeat now tok => cases tok <;> rfl
  | claim | finalize | reap | cancel | requeue => rfl

/-- The claim that brings `t`. -/
def ScanStep.claims (t : Uuid) (a : ScanStep) : Bool := a.claimToken = some t

theorem claims_eq_acquires (t : Uuid) (a : ScanStep) :
    a.claims t = acquires ScanStep.role t a := by
  cases a with
  | heartbeat now tok => cases tok <;> simp [ScanStep.claims, acquires, ScanStep.role,
      ScanStep.claimToken]
  | claim | finalize | reap | cancel | requeue =>
    simp [ScanStep.claims, acquires, ScanStep.role, ScanStep.claimToken]

/-- A token is brought by at most one claim of a run. -/
theorem countP_claims_le_one {σ : List ScanStep} (hσ : FreshClaims σ) (t : Uuid) :
    σ.countP (ScanStep.claims t) ≤ 1 := by
  have hcount : σ.countP (ScanStep.claims t) = (σ.filterMap ScanStep.claimToken).count t := by
    rw [List.count, List.countP_filterMap]
    refine List.countP_congr fun a _ => ?_
    cases ha : a.claimToken <;> simp [ScanStep.claims, ha]
  rw [hcount]
  exact List.nodup_iff_count_le_one.mp hσ t

theorem FreshClaims.taken {s : Scan} {σ : List ScanStep} (hσ : FreshClaims σ) :
    FreshClaims (taken scanStep s σ) :=
  List.Nodup.sublist ((taken_sublist s σ).filterMap _) hσ

/-! ## Exclusion -/

/-- A write that carries `t` takes effect only while the claim with `t` is the last effective step
but for heartbeats. -/
theorem carried_since_claim {s₀ : Scan} (h0 : s₀.executionToken = none) {σ : List ScanStep}
    {a : ScanStep} {t : Uuid} (ht : a.carries = some t)
    (h : (scanStep a (run scanStep s₀ σ)).isSome) :
    ∃ l₁ now l₂, taken scanStep s₀ σ = l₁ ++ .claim now t :: l₂ ∧
      ∀ b ∈ l₂, ∃ now tok, b = .heartbeat now tok := by
  obtain ⟨s', hs'⟩ := Option.isSome_iff_exists.mp h
  obtain ⟨l₁, b, l₂, hl, hb, hl₂⟩ :=
    held_since scan_fenced h0 hs' (by rw [← carries_eq_fence, ht])
  obtain ⟨now, rfl⟩ := role_eq_acquire hb
  exact ⟨l₁, now, l₂, hl, fun c hc => c.passive_iff.mp (hl₂ c hc)⟩

/-- The token of a row is that of its last effective claim. -/
theorem executionToken_lastClaim {s₀ : Scan} (h0 : s₀.executionToken = none)
    {σ : List ScanStep} {t : Uuid} (h : (run scanStep s₀ σ).executionToken = some t) :
    lastClaim (taken scanStep s₀ σ) = some t := by
  rw [owner_run scan_fenced, h0] at h
  obtain ⟨l₁, b, l₂, hl, hb, hl₂⟩ := holder_eq_some.mp h
  obtain ⟨now, rfl⟩ := role_eq_acquire hb
  rw [hl]
  exact lastClaim_of_split hl₂

/-- **Execution ownership is exclusive.** In every run of the updates from a queued row without a
token, in which no two claims bring the same token:

* the row has a token exactly while it is running, and it is that of the last effective claim;
* a terminal write or a heartbeat that carries `t` takes effect only when nothing but heartbeats
  took effect since the claim that brought `t`;
* the terminal writes that carry `t` are at most as many as the claims that brought it, which is
  at most one;
* a completed or cancelled row is never changed again. -/
theorem execution_ownership_exclusive (s₀ : Scan) (hq : s₀.status = .queued)
    (h0 : s₀.executionToken = none) (σ : List ScanStep) (hσ : FreshClaims σ) :
    ((run scanStep s₀ σ).executionToken.isSome ↔ (run scanStep s₀ σ).status = .running) ∧
    (∀ t, (run scanStep s₀ σ).executionToken = some t →
      lastClaim (taken scanStep s₀ σ) = some t) ∧
    (∀ a t, a.carries = some t → (scanStep a (run scanStep s₀ σ)).isSome →
      ∃ l₁ now l₂, taken scanStep s₀ σ = l₁ ++ .claim now t :: l₂ ∧
        ∀ b ∈ l₂, ∃ now tok, b = .heartbeat now tok) ∧
    (∀ t, (taken scanStep s₀ σ).countP (ScanStep.finalizes t) ≤
        (taken scanStep s₀ σ).countP (ScanStep.claims t) ∧
      (taken scanStep s₀ σ).countP (ScanStep.claims t) ≤ 1) ∧
    ((run scanStep s₀ σ).status.Settled → ∀ a τ, scanStep a (run scanStep s₀ σ) = none ∧
      run scanStep s₀ (σ ++ τ) = run scanStep s₀ σ) := by
  refine ⟨?_, fun t => executionToken_lastClaim h0, fun a t => carried_since_claim h0, ?_, ?_⟩
  · exact run_invariant owned_step (by simp [Scan.Owned, hq, h0]) σ
  · intro t
    have hle := releases_le_acquires scan_fenced h0 t σ
    rw [← funext (finalizes_eq_releases t), ← funext (claims_eq_acquires t)] at hle
    exact ⟨by omega, countP_claims_le_one hσ.taken t⟩
  · intro hs a τ
    rw [run_append]
    exact ⟨scanStep_settled hs a, run_settled hs τ⟩

/-- A scan that is requeued and claimed again: the first executor's terminal write is refused. -/
theorem execution_ownership_exclusive_requeued :
    (run scanStep (.created 1 2 3 [] 0)
      [.claim 1 7, .requeue 2, .claim 3 8, .finalize 4 ⟨.completed, by decide⟩ 7]).executionToken =
        some 8 ∧
    (taken scanStep (.created 1 2 3 [] 0)
      [.claim 1 7, .requeue 2, .claim 3 8, .finalize 4 ⟨.completed, by decide⟩ 7]).countP
        (ScanStep.finalizes 7) ≤
    (taken scanStep (.created 1 2 3 [] 0)
      [.claim 1 7, .requeue 2, .claim 3 8, .finalize 4 ⟨.completed, by decide⟩ 7]).countP
        (ScanStep.claims 7) :=
  ⟨by decide, ((execution_ownership_exclusive (.created 1 2 3 [] 0) rfl rfl _ (by decide)).2.2.2.1
    7).1⟩

end ScanPlatform

/-! ## The reaper and fresh executions -/

namespace ScanPlatform

open CondMachine

def ScanStep.claimTime : ScanStep → Option ℤ
  | .claim now _ => some now
  | _ => none

/-- When the last claim of a list of effective steps was made. -/
def lastClaimTime (l : List ScanStep) : Option ℤ := (l.filterMap ScanStep.claimTime).getLast?

/-- The clock never goes back. -/
def Clocked (σ : List ScanStep) : Prop := (σ.map ScanStep.now).Pairwise (· ≤ ·)

instance (σ : List ScanStep) : Decidable (Clocked σ) := by
  unfold Clocked; infer_instance

/-- Every reap of the run that fails the scan does so when the shorter of its two limits has
passed since the last claim. -/
def ReapsOnlyStale (s₀ : Scan) (σ : List ScanStep) : Prop :=
  ∀ σ₁ now timeout stale σ₂ c, σ = σ₁ ++ .reap now timeout stale :: σ₂ →
    (scanStep (.reap now timeout stale) (run scanStep s₀ σ₁)).isSome →
    lastClaimTime (taken scanStep s₀ σ₁) = some c →
    min timeout (stale.getD timeout) * second ≤ now - c

/-- A claim that takes effect finds no heartbeat of an earlier execution. -/
def ScanStep.Unstamped (s : Scan) : ScanStep → Prop
  | .claim now tok => (claimScan now tok s).isSome → ∀ h ∈ s.lastHeartbeatAt, now ≤ h
  | _ => True

/-- The heartbeat limit of a reap is the shorter one. -/
def ScanStep.StaleShorter : ScanStep → Prop
  | .reap _ timeout stale => stale.getD timeout < timeout
  | _ => True

/-- A claim is made on a whole second, so that `now()` cuts nothing off. -/
def ScanStep.OnSecond : ScanStep → Prop
  | .claim now _ => sqlNow now = now
  | _ => True

/-! ## The last claim of a run -/

theorem lastClaimTime_concat_claim (l : List ScanStep) (now : ℤ) (tok : Uuid) :
    lastClaimTime (l ++ [.claim now tok]) = some now := by
  simp [lastClaimTime, ScanStep.claimTime]

theorem lastClaimTime_concat_of_none (l : List ScanStep) {a : ScanStep} (ha : a.claimTime = none) :
    lastClaimTime (l ++ [a]) = lastClaimTime l := by
  simp [lastClaimTime, ha]

theorem lastClaimTime_mem {l : List ScanStep} {c : ℤ} (h : lastClaimTime l = some c) :
    ∃ tok, ScanStep.claim c tok ∈ l := by
  obtain ⟨a, ha, hc⟩ := List.mem_filterMap.mp (List.mem_of_getLast? h)
  cases a with
  | claim now tok => cases hc; exact ⟨tok, ha⟩
  | finalize | reap | cancel | requeue | heartbeat => cases hc

theorem Clocked.le_of_mem {σ : List ScanStep} {a b : ScanStep} (h : Clocked (σ ++ [a]))
    (hb : b ∈ σ) : b.now ≤ a.now := by
  rw [Clocked, List.map_append, List.pairwise_append] at h
  exact h.2.2 _ (List.mem_map_of_mem hb) _ (by simp)

theorem Clocked.prefix {σ τ : List ScanStep} (h : Clocked (σ ++ τ)) : Clocked σ := by
  rw [Clocked, List.map_append, List.pairwise_append] at h
  exact h.1

/-! ## What a running row says about its claim -/

/-- The columns that the reaper reads, against the time of the claim. -/
structure Claimed (c : ℤ) (s : Scan) : Prop where
  started : s.startedAt = some (sqlNow c)
  stamped : ∀ h ∈ s.lastHeartbeatAt, c ≤ h

theorem claimed_run {s₀ : Scan} (hq : s₀.status = .queued) {σ : List ScanStep}
    (hclock : Clocked σ) (hσ : Along scanStep ScanStep.Unstamped s₀ σ)
    (hrun : (run scanStep s₀ σ).status = .running) :
    ∃ c, lastClaimTime (taken scanStep s₀ σ) = some c ∧ Claimed c (run scanStep s₀ σ) := by
  induction σ using List.reverseRecOn with
  | nil => rw [run_nil, hq] at hrun; cases hrun
  | append_singleton σ a ih =>
    obtain ⟨hpre, ha⟩ := along_concat.mp hσ
    rw [run_concat] at hrun ⊢
    rcases next_cases scanStep (run scanStep s₀ σ) a with h | ⟨h, h'⟩
    · rw [taken_concat_some h]
      cases a with
      | claim now tok =>
        refine ⟨now, lastClaimTime_concat_claim _ _ _, ?_⟩
        have hhb := ha (by rw [show claimScan now tok _ = _ from h]; rfl)
        rw [(claimScan_eq_some.mp h).2]
        exact ⟨rfl, hhb⟩
      | heartbeat now tok =>
        obtain ⟨⟨hs, -⟩, h'⟩ := stampHeartbeat_eq_some.mp h
        obtain ⟨c, hc, hcl⟩ := ih hclock.prefix hpre hs
        refine ⟨c, by rwa [lastClaimTime_concat_of_none _ rfl], ?_⟩
        rw [h']
        refine ⟨hcl.started, fun t ht => ?_⟩
        obtain ⟨u, hu⟩ := lastClaimTime_mem hc
        cases ht
        exact hclock.le_of_mem ((taken_sublist s₀ σ).subset hu)
      | finalize now st tok =>
        rw [(finalizeStatus_eq_some.mp h).2] at hrun
        obtain ⟨st, hst⟩ := st
        subst hrun
        simp [terminalStatuses] at hst
      | reap now timeout stale => rw [(reapOrphanedScans_eq_some.mp h).2] at hrun; cases hrun
      | cancel now => rw [(cancelScan_eq_some.mp h).2] at hrun; cases hrun
      | requeue now => rw [(requeueScan_eq_some.mp h).2] at hrun; cases hrun
    · rw [taken_concat_none h, h']
      rw [h'] at hrun
      exact ih hclock.prefix hpre hrun

/-! ## The reaper -/

/-- A reap of a row whose columns belong to the claim at `c` comes when the shorter limit has
passed, but for the fraction of a second that `now()` cut off. -/
theorem Claimed.le_of_reap {c now timeout : ℤ} {stale : Option ℤ} {s s' : Scan}
    (hs : Claimed c s) (h : reapOrphanedScans now timeout stale s = some s')
    (hround : stale.getD timeout < timeout ∨ sqlNow c = c) :
    min timeout (stale.getD timeout) * second ≤ now - c := by
  obtain ⟨⟨-, horphan⟩, -⟩ := reapOrphanedScans_eq_some.mp h
  have hlt := lt_sqlNow_add c
  simp only [second] at hlt ⊢
  rcases horphan with ⟨t, ht, hold⟩ | ⟨-, t, ht, hold⟩
  · have hct := hs.stamped t ht
    simp only [second] at hold
    omega
  · rw [hs.started, Option.mem_some_iff] at ht
    simp only [second] at hold
    omega

/-- **The reaper spares fresh executions** in every run from a queued row with a clock that never
goes back, in which no claim takes over a row that was stamped before it, when its heartbeat limit
is the shorter one or claims are made on whole seconds. -/
theorem reaps_only_stale (s₀ : Scan) (hq : s₀.status = .queued) (σ : List ScanStep)
    (hclock : Clocked σ) (hσ : Along scanStep ScanStep.Unstamped s₀ σ)
    (hround : (∀ a ∈ σ, a.StaleShorter) ∨ ∀ a ∈ σ, a.OnSecond) : ReapsOnlyStale s₀ σ := by
  intro σ₁ now timeout stale σ₂ c hsplit heff hc
  subst hsplit
  obtain ⟨s', hs'⟩ := Option.isSome_iff_exists.mp heff
  have hrun := (reapOrphanedScans_eq_some.mp hs').1.1
  obtain ⟨c', hc', hcl⟩ := claimed_run hq hclock.prefix hσ.prefix hrun
  obtain rfl : c' = c := by rw [hc] at hc'; exact (Option.some.inj hc').symm
  refine hcl.le_of_reap hs' ?_
  rcases hround with hround | hround
  · exact .inl (hround (.reap now timeout stale) (by simp))
  · obtain ⟨tok, hmem⟩ := lastClaimTime_mem hc
    have hmem := (taken_sublist s₀ σ₁).subset hmem
    exact .inr (hround (.claim c' tok) (List.mem_append_left _ hmem))

/-- A claim that heartbeats and is reaped an hour later, once it has been silent. -/
theorem reaps_only_stale_silent : ReapsOnlyStale (.created 1 2 3 [] 0)
    [.claim 5500000 7, .heartbeat 35000000 (some 7), .reap 3600000000 7200 (some 900)] := by
  refine reaps_only_stale _ rfl _ (by decide) ?_ (.inl ?_)
  · refine .cons ?_ (.cons trivial (.cons trivial (along_nil _ _)))
    intro _ h hh
    cases hh
  · simp [ScanStep.StaleShorter]

/-- **A fresh claim is reaped.** The first execution stamps a heartbeat and dies; the reaper fails
the scan; it is claimed again, and the next sweep, one second later, fails the new execution. -/
theorem reaps_fresh_claim :
    Clocked [.claim 0 7, .heartbeat 10000000 (some 7), .reap 1000000000 7200 (some 900),
      .claim 1001000000 8, .reap 1002000000 7200 (some 900)] ∧
    ¬ ReapsOnlyStale (.created 1 2 3 [] 0)
      [.claim 0 7, .heartbeat 10000000 (some 7), .reap 1000000000 7200 (some 900),
        .claim 1001000000 8, .reap 1002000000 7200 (some 900)] := by
  refine ⟨by decide, fun h => ?_⟩
  have hlimit := h [.claim 0 7, .heartbeat 10000000 (some 7), .reap 1000000000 7200 (some 900),
    .claim 1001000000 8] 1002000000 7200 (some 900) [] 1001000000 rfl (by decide) (by decide)
  revert hlimit
  decide

end ScanPlatform

import ScanPlatform.Worker.JobGates

/-!
# The jobs that cannot be read

A job is any JSON object. The gates refuse it with a `LeaseError`, which `_handle_job` answers; what
else they or the policy raise leaves `_handle_job`.

* `Bound`: the checks before the first field that is read without one;
* `Unreadable`: the fields of another shape than they are read in, each with what comes before it;
* `validateLeasedJob_eq_other`, `preflightPrivateJob_eq_other`, `preflightEgressJob_eq_other`,
  `buildPolicyForJob_isError`: what each part raises;
* **`handleJob_escaped_iff`**: an exception leaves `_handle_job` for these jobs only.
-/

set_option autoImplicit false

namespace ScanPlatform

open Checks Json

namespace LeasedJob

section

variable {py : Texts} {w : Worker} {job : Object}

/-- The checks of `validate_leased_job` before the egress mode. -/
structure Bound (py : Texts) (identity : WorkerIdentity) (job : Object) : Prop where
  scanId : (field job "scan_id").truthy = true
  token : (field job "execution_token").truthy = true
  uuid : (Uuid.ofHex (py.str (field job "execution_token"))).isSome = true
  worker : assertJobMatchesWorker py (networkZone job) (field job "site_id") (field job "pool_id")
    identity = .ok ()
  cidrs : isPrivate job = true → (field job "authorized_cidrs").truthy = true

variable (py w job) in
/-- A value that is read has not the shape that the reading asks for, or a probe raises what the
gate does not translate. -/
inductive Unreadable : Prop where
  | egressMode (hbound : Bound py w.identity job)
    (hset : (field job "required_egress_mode").truthy = true)
    (h : ∀ text, field job "required_egress_mode" ≠ .str text)
  | target (hbound : Bound py w.identity job) (mode : String)
    (hmode : requiredEgress py job = .ok mode) (hsame : mode = "" ∨ mode = w.identity.mode py)
    (hset : (field job "target").truthy = true) (h : ∀ target, field job "target" ≠ .obj target)
  | tunnelProbe (hvalid : validateLeasedJob py w.identity job = .ok ())
    (hprivate : isPrivate job = true) (h : w.tunnelProbe = some (.error .other))
  | authorizedCidrs (hvalid : validateLeasedJob py w.identity job = .ok ())
    (hprivate : isPrivate job = true) (status : TunnelStatus)
    (hstatus : w.tunnelProbe = some (.ok status)) (hfresh : status.Fresh defaultMaxHandshakeAge)
    (h : (field job "authorized_cidrs").items = none)
  | egressProbe (hvalid : validateLeasedJob py w.identity job = .ok ())
    (htunnel : preflightPrivateJob py w.tunnelProbe job = .ok ())
    (hvpn : w.identity.isVpnEgress py = true) (h : w.egressProbe = some (.error .other))
  | workspaceId (hgates : gates py w job = .ok ())
    (hset : (field job "workspace_id").truthy = true)
    (h : Uuid.ofHex (py.str (field job "workspace_id")) = none)
  | scanId (hgates : gates py w job = .ok ())
    (h : Uuid.ofHex (py.str (field job "scan_id")) = none)
  | siteId (hgates : gates py w job = .ok ()) (hprivate : isPrivate job = true)
    (h : Uuid.ofHex (py.str (field job "site_id")) = none)
  | dnsServers (hgates : gates py w job = .ok ()) (hprivate : isPrivate job = true)
    (hset : (field job "dns_servers").truthy = true) (h : (field job "dns_servers").items = none)

/-! ## What each gate raises -/

/-- A requirement and what follows it: the faults that are no refusals. -/
theorem require_bind_eq_other {α : Type} {b : Bool} {reason : String} {x : Except JobFault α} :
    (require b reason >>= fun _ => x) = .error .other ↔ b = true ∧ x = .error .other := by
  cases b with
  | false => simp [require, bind, Except.bind]
  | true => simp [require, bind, Except.bind]

theorem require_ne_other (b : Bool) (reason : String) : require b reason ≠ .error .other := by
  cases b <;> simp [require]

theorem assertJobMatchesWorker_ne_other (zone siteId poolId : Value) (identity : WorkerIdentity) :
    assertJobMatchesWorker py zone siteId poolId identity ≠ .error .other := by
  intro h
  rcases bind_eq_error.mp h with h | ⟨-, -, h⟩
  · unfold assertSiteMatches at h
    split_ifs at h
    · simp only [require_bind_eq_other] at h
      exact require_ne_other _ _ h.2.2
    · exact require_ne_other _ _ h
  · exact require_ne_other _ _ h

theorem requiredEgress_eq_other : requiredEgress py job = .error .other ↔
    (field job "required_egress_mode").truthy = true ∧
      ∀ text, field job "required_egress_mode" ≠ .str text := by
  unfold requiredEgress either
  by_cases hset : (field job "required_egress_mode").truthy = true
  · rw [if_pos hset]
    generalize field job "required_egress_mode" = v at hset ⊢
    cases v <;> simp [hset]
  · rw [if_neg hset]
    simp [hset]

theorem targetValue_eq_other : targetValue job = .error .other ↔
    (field job "target").truthy = true ∧ ∀ target, field job "target" ≠ .obj target := by
  unfold targetValue either
  by_cases hset : (field job "target").truthy = true
  · rw [if_pos hset]
    generalize field job "target" = v at hset ⊢
    cases v <;> simp [hset]
  · rw [if_neg hset]
    simp [hset]

theorem validateLeasedJob_eq_other {identity : WorkerIdentity} :
    validateLeasedJob py identity job = .error .other ↔ Bound py identity job ∧
      (requiredEgress py job = .error .other ∨ ∃ mode, requiredEgress py job = .ok mode ∧
        (mode = "" ∨ mode = identity.mode py) ∧ targetValue job = .error .other) := by
  have hrest : ∀ mode : String, (do
      require (mode = "" || mode = identity.mode py) "EGRESS_MODE_MISMATCH"
      let target ← targetValue job
      require target.truthy "JOB_MISSING_TARGET" : Except JobFault Unit) = .error .other ↔
        (mode = "" ∨ mode = identity.mode py) ∧ targetValue job = .error .other := by
    intro mode
    rw [require_bind_eq_other, bind_eq_error]
    simp only [require_ne_other, and_false, exists_false, or_false]
    simp
  have hprivate : (!isPrivate job || (field job "authorized_cidrs").truthy) = true ↔
      (isPrivate job = true → (field job "authorized_cidrs").truthy = true) := by
    cases isPrivate job <;> simp
  unfold validateLeasedJob
  simp only [require_bind_eq_other]
  rw [bind_eq_error, or_iff_right (assertJobMatchesWorker_ne_other _ _ _ _)]
  constructor
  · rintro ⟨hscan, htoken, huuid, ⟨⟩, hworker, h⟩
    rw [require_bind_eq_other, bind_eq_error] at h
    obtain ⟨hcidrs, hegress | ⟨mode, hmode, h⟩⟩ := h
    · exact ⟨⟨hscan, htoken, huuid, hworker, hprivate.mp hcidrs⟩, .inl hegress⟩
    · exact ⟨⟨hscan, htoken, huuid, hworker, hprivate.mp hcidrs⟩,
        .inr ⟨mode, hmode, (hrest mode).mp h⟩⟩
  · rintro ⟨⟨hscan, htoken, huuid, hworker, hcidrs⟩, h⟩
    refine ⟨hscan, htoken, huuid, (), hworker, ?_⟩
    rw [require_bind_eq_other, bind_eq_error]
    refine ⟨hprivate.mpr hcidrs, ?_⟩
    rcases h with hegress | ⟨mode, hmode, h⟩
    · exact .inl hegress
    · exact .inr ⟨mode, hmode, (hrest mode).mpr h⟩

theorem entries_eq_error {v : Value} {fault : JobFault} (h : entries py v = .error fault) :
    v.truthy = true ∧ v.items = none := by
  unfold entries at h
  split_ifs at h with hset
  split at h
  · cases h
  · exact ⟨hset, ‹_›⟩

theorem entries_of_items {v : Value} (hset : v.truthy = true) (h : v.items = none) :
    entries py v = .error .other := by
  unfold entries
  rw [if_pos hset, h]

theorem assertTunnelHealthy_eq_other {limit : ℤ} {status : TunnelStatus}
    {cidrs : Except JobFault (List String)} :
    assertTunnelHealthy limit status cidrs = .error .other ↔
      status.Fresh limit ∧ cidrs = .error .other := by
  have hage : (status.lastHandshakeAge.isSome = true ∧
      status.lastHandshakeAge.all (· ≤ limit) = true) ↔
        ∃ age ∈ status.lastHandshakeAge, age ≤ limit := by
    cases status.lastHandshakeAge <;> simp
  simp only [assertTunnelHealthy, require_bind_eq_other, TunnelStatus.Fresh, ← hage]
  rw [bind_eq_error]
  constructor
  · rintro ⟨hup, hsome, hall, hpeer, h | ⟨texts, -, h⟩⟩
    · exact ⟨⟨hup, ⟨hsome, hall⟩, hpeer⟩, h⟩
    · split at h
      · cases h
      · exact absurd (require_bind_eq_other.mp h).2 (require_ne_other _ _)
  · rintro ⟨⟨hup, ⟨hsome, hall⟩, hpeer⟩, h⟩
    exact ⟨hup, hsome, hall, hpeer, .inl h⟩

theorem preflightPrivateJob_eq_other {probe : Probe TunnelStatus} :
    preflightPrivateJob py probe job = .error .other ↔ isPrivate job = true ∧
      (probe = some (.error .other) ∨ ∃ status, probe = some (.ok status) ∧
        status.Fresh defaultMaxHandshakeAge ∧ authorizedCidrs py job = .error .other) := by
  unfold preflightPrivateJob
  cases isPrivate job with
  | false => simp
  | true =>
    rw [if_neg (by simp)]
    split
    · simp
    · simp
    · rw [assertTunnelHealthy_eq_other]
      simp [authorizedCidrs]

theorem assertEgressHealthy_ne_other (cfg : EgressSettings) (status : EgressStatus) :
    assertEgressHealthy cfg status ≠ .error .other := by
  intro h
  simp only [assertEgressHealthy, require_bind_eq_other] at h
  obtain ⟨-, -, -, -, -, -, -, -, -, -, h⟩ := h
  exact require_ne_other _ _ h

theorem preflightEgressJob_eq_other {cfg : EgressSettings} {identity : WorkerIdentity}
    {probe : Probe EgressStatus} : preflightEgressJob py cfg identity probe = .error .other ↔
      identity.isVpnEgress py = true ∧ probe = some (.error .other) := by
  unfold preflightEgressJob
  cases identity.isVpnEgress py with
  | false => simp
  | true =>
    rw [if_neg (by simp)]
    split
    · simp
    · simp
    · simp [assertEgressHealthy_ne_other]

theorem gates_eq_other : gates py w job = .error .other ↔
    validateLeasedJob py w.identity job = .error .other ∨
      validateLeasedJob py w.identity job = .ok () ∧
        (preflightPrivateJob py w.tunnelProbe job = .error .other ∨
          preflightPrivateJob py w.tunnelProbe job = .ok () ∧
            preflightEgressJob py w.egress w.identity w.egressProbe = .error .other) := by
  unfold gates
  rw [bind_eq_error]
  refine or_congr_right ⟨fun ⟨_, hvalid, h⟩ => ⟨hvalid, ?_⟩, fun ⟨hvalid, h⟩ => ⟨(), hvalid, ?_⟩⟩
  · rcases bind_eq_error.mp h with h | ⟨_, hok, h⟩
    · exact .inl h
    · exact .inr ⟨hok, h⟩
  · exact bind_eq_error.mpr (h.imp_right fun ⟨hok, h⟩ => ⟨(), hok, h⟩)

theorem uuidOf_eq_error {v : Value} : (∃ fault, uuidOf py v = .error fault) ↔
    v.truthy = true ∧ Uuid.ofHex (py.str v) = none := by
  unfold uuidOf
  by_cases hset : v.truthy = true
  · rw [if_pos hset]
    cases Uuid.ofHex (py.str v) <;> simp [hset]
  · rw [if_neg hset]
    simp [hset]

/-! ## What the policy raises -/

/-- **Where the policy of a job that has passed the gates fails.** -/
theorem buildPolicyForJob_isError (hgates : gates py w job = .ok ()) :
    (∃ fault, buildPolicyForJob py job = .error fault) ↔
      ((field job "workspace_id").truthy = true ∧
        Uuid.ofHex (py.str (field job "workspace_id")) = none) ∨
      Uuid.ofHex (py.str (field job "scan_id")) = none ∨
      isPrivate job = true ∧ (Uuid.ofHex (py.str (field job "site_id")) = none ∨
        (field job "dns_servers").truthy = true ∧ (field job "dns_servers").items = none) := by
  simp only [gates, check_bind] at hgates
  obtain ⟨hvalid, htunnel, -⟩ := hgates
  have hscan : (field job "scan_id").truthy = true := by
    simp only [validateLeasedJob, check_bind, require_eq_ok] at hvalid
    exact hvalid.1
  unfold buildPolicyForJob
  cases hws : uuidOf py (field job "workspace_id") with
  | error fault =>
    have hbad := uuidOf_eq_error.mp ⟨fault, hws⟩
    exact iff_of_true ⟨fault, rfl⟩ (.inl hbad)
  | ok workspaceId =>
    have hgood : ¬ ((field job "workspace_id").truthy = true ∧
        Uuid.ofHex (py.str (field job "workspace_id")) = none) := by
      intro hbad
      obtain ⟨fault, hfault⟩ := uuidOf_eq_error.mpr hbad
      cases hws.symm.trans hfault
    rw [or_iff_right hgood]
    cases hsid : uuidOf py (field job "scan_id") with
    | error fault =>
      have hbad := uuidOf_eq_error.mp ⟨fault, hsid⟩
      exact iff_of_true ⟨fault, rfl⟩ (.inl hbad.2)
    | ok scanId =>
      have hgood : Uuid.ofHex (py.str (field job "scan_id")) ≠ none := by
        intro hbad
        obtain ⟨fault, hfault⟩ := uuidOf_eq_error.mpr ⟨hscan, hbad⟩
        cases hsid.symm.trans hfault
      rw [or_iff_right hgood]
      cases hprivate : isPrivate job with
      | false => simp [bind, Except.bind, pure, Except.pure]
      | true =>
        obtain ⟨-, -, -, cidrs, hcidrs, -⟩ := preflightPrivateJob_eq_ok htunnel hprivate
        cases hsite : Uuid.ofHex (py.str (field job "site_id")) with
        | none => simp [bind, Except.bind]
        | some siteId =>
          change (∃ fault, (authorizedCidrs py job >>= fun cidrs =>
            entries py (field job "dns_servers") >>= _) = .error fault) ↔ _
          rw [hcidrs]
          cases hdns : entries py (field job "dns_servers") with
          | error fault =>
            exact iff_of_true ⟨fault, rfl⟩ ⟨rfl, .inr (entries_eq_error hdns)⟩
          | ok dnsServers =>
            refine iff_of_false (by simp [bind, Except.bind, pure, Except.pure]) ?_
            rintro ⟨-, hbad | ⟨hset, hbad⟩⟩
            · cases hbad
            · rw [entries_of_items hset hbad] at hdns
              cases hdns

/-- **An exception leaves `_handle_job` before the tasks** exactly when the job cannot be read. -/
theorem handleJob_escaped_iff : handleJob py w job = .escaped ↔ Unreadable py w job := by
  have hescaped : handleJob py w job = .escaped ↔ gates py w job = .error .other ∨
      gates py w job = .ok () ∧ ∃ fault, buildPolicyForJob py job = .error fault := by
    unfold handleJob
    rcases hgates : gates py w job with (reason | _) | ⟨⟩
    · simp
    · simp
    · cases hpolicy : buildPolicyForJob py job with
      | error fault => simp
      | ok policy =>
        dsimp only
        split_ifs <;> simp
  rw [hescaped]
  constructor
  · rintro (h | ⟨hgates, h⟩)
    · rcases gates_eq_other.mp h with h | ⟨hvalid, h | ⟨htunnel, h⟩⟩
      · obtain ⟨hbound, h | ⟨mode, hmode, hsame, h⟩⟩ := validateLeasedJob_eq_other.mp h
        · obtain ⟨hset, htext⟩ := requiredEgress_eq_other.mp h
          exact .egressMode hbound hset htext
        · obtain ⟨hset, hobj⟩ := targetValue_eq_other.mp h
          exact .target hbound mode hmode hsame hset hobj
      · obtain ⟨hprivate, h | ⟨status, hstatus, hfresh, h⟩⟩ := preflightPrivateJob_eq_other.mp h
        · exact .tunnelProbe hvalid hprivate h
        · exact .authorizedCidrs hvalid hprivate status hstatus hfresh (entries_eq_error h).2
      · obtain ⟨hvpn, h⟩ := preflightEgressJob_eq_other.mp h
        exact .egressProbe hvalid htunnel hvpn h
    · rcases (buildPolicyForJob_isError hgates).mp h with ⟨hset, h⟩ | h | ⟨hprivate, h | ⟨hset, h⟩⟩
      · exact .workspaceId hgates hset h
      · exact .scanId hgates h
      · exact .siteId hgates hprivate h
      · exact .dnsServers hgates hprivate hset h
  · intro h
    cases h with
    | egressMode hbound hset h =>
      exact .inl (gates_eq_other.mpr (.inl (validateLeasedJob_eq_other.mpr
        ⟨hbound, .inl (requiredEgress_eq_other.mpr ⟨hset, h⟩)⟩)))
    | target hbound mode hmode hsame hset h =>
      exact .inl (gates_eq_other.mpr (.inl (validateLeasedJob_eq_other.mpr
        ⟨hbound, .inr ⟨mode, hmode, hsame, targetValue_eq_other.mpr ⟨hset, h⟩⟩⟩)))
    | tunnelProbe hvalid hprivate h =>
      exact .inl (gates_eq_other.mpr (.inr ⟨hvalid, .inl (preflightPrivateJob_eq_other.mpr
        ⟨hprivate, .inl h⟩)⟩))
    | authorizedCidrs hvalid hprivate status hstatus hfresh h =>
      have hset : (field job "authorized_cidrs").truthy = true := by
        simp only [validateLeasedJob, check_bind, require_eq_ok] at hvalid
        obtain ⟨-, -, -, -, hcidrs, -⟩ := hvalid
        simpa [hprivate] using hcidrs
      exact .inl (gates_eq_other.mpr (.inr ⟨hvalid, .inl (preflightPrivateJob_eq_other.mpr
        ⟨hprivate, .inr ⟨status, hstatus, hfresh, entries_of_items hset h⟩⟩)⟩))
    | egressProbe hvalid htunnel hvpn h =>
      exact .inl (gates_eq_other.mpr (.inr ⟨hvalid, .inr ⟨htunnel,
        preflightEgressJob_eq_other.mpr ⟨hvpn, h⟩⟩⟩))
    | workspaceId hgates hset h =>
      exact .inr ⟨hgates, (buildPolicyForJob_isError hgates).mpr (.inl ⟨hset, h⟩)⟩
    | scanId hgates h =>
      exact .inr ⟨hgates, (buildPolicyForJob_isError hgates).mpr (.inr (.inl h))⟩
    | siteId hgates hprivate h =>
      exact .inr ⟨hgates, (buildPolicyForJob_isError hgates).mpr (.inr (.inr ⟨hprivate, .inl h⟩))⟩
    | dnsServers hgates hprivate hset h =>
      exact .inr ⟨hgates, (buildPolicyForJob_isError hgates).mpr
        (.inr (.inr ⟨hprivate, .inr ⟨hset, h⟩⟩))⟩

end

end LeasedJob

end ScanPlatform

import Mathlib.Data.List.Infix
import ScanPlatform.Net.NetGuard

/-!
# Name resolution of private sites

A name of a private scan is resolved by the resolvers of its site, one after the other, over a
transport that all scans of a process share; a name of a public scan by the system.

* `Query`, `Network`: what can be asked, and what is answered, which may depend on everything that
  has been asked before, by this scan or by others;
* `dnspythonBackend`, `resolveViaSiteDns`, `resolveHostname`: the lookups;
* `resolveTarget`: the lookup of a target, with the check of its addresses;
* `queries`, `found`, `Asked`: what resolvers are asked, one after the other, until one answers;
* **`resolveViaSiteDns_spec`**, **`site_target_confined`**: whom the lookup of a target asks, and
  whose answer it takes.
-/

set_option autoImplicit false

namespace ScanPlatform.SiteDns

open Checks Ipaddress

/-! ## Queries -/

inductive Rdtype where
  | a
  | aaaa
  deriving DecidableEq

inductive Query where
  /-- A query to the resolver of a site. -/
  | site (resolver hostname : String) (rdtype : Rdtype)
  /-- `socket.getaddrinfo`. -/
  | system (hostname : String)
  deriving DecidableEq

/-- What a resolver answers. -/
inductive Reply where
  | records (rdata : List String)
  | nxdomain
  | noAnswer
  /-- No answer in time, or an error. -/
  | fault

/-- The answers, after what has been asked. -/
structure Network where
  resolve : List Query → String → String → Rdtype → Reply
  /-- `none` for a `gaierror`. -/
  getaddrinfo : List Query → String → Option (List String)

/-- A lookup, with what has been asked. -/
abbrev Lookup (α : Type) := StateM (List Query) α

def ask (net : Network) (resolver hostname : String) (rdtype : Rdtype) : Lookup Reply := fun log =>
  (net.resolve log resolver hostname rdtype, log ++ [.site resolver hostname rdtype])

/-! ## The lookups -/

/-- The addresses that have not been seen. -/
def unseen (out : List String) (rdata : List String) : List String :=
  rdata.foldl (fun out addr => if addr ∈ out then out else out ++ [addr]) out

def collect (out : List String) : Reply → List String
  | .records rdata => unseen out rdata
  | .nxdomain | .noAnswer | .fault => out

def Reply.isFault : Reply → Bool
  | .fault => true
  | .records _ | .nxdomain | .noAnswer => false

/-- `dnspython_backend`; `none` when it raises. -/
def dnspythonBackend (net : Network) (hostname resolver : String) :
    Lookup (Option (List String)) := do
  let a ← ask net resolver hostname .a
  let aaaa ← ask net resolver hostname .aaaa
  let out := collect (collect [] a) aaaa
  return if out = [] ∧ (a.isFault || aaaa.isFault) then none else some out

/-- `_default_backend`, which refuses. -/
def defaultBackend (_hostname _resolver : String) : Lookup (Option (List String)) := return none

/-- What `install_default_backend` has left, where `dnspython` can be imported or not. -/
def backend (net : Network) (installed : Bool) : String → String → Lookup (Option (List String)) :=
  if installed then dnspythonBackend net else defaultBackend

/-- The inner loop of `resolve_via_site_dns`. -/
def tryResolvers (backend : String → String → Lookup (Option (List String))) (hostname : String) :
    List String → Lookup (Option (List String))
  | [] => return none
  | resolver :: resolvers => do
    match ← backend hostname resolver with
    | none => tryResolvers backend hostname resolvers
    | some addrs =>
      let addrs := addrs.filter (· ≠ "")
      if addrs = [] then tryResolvers backend hostname resolvers else return some addrs

/-- The outer one. -/
def tryAttempts (backend : String → String → Lookup (Option (List String))) (hostname : String)
    (resolvers : List String) : ℕ → Lookup (Option (List String))
  | 0 => return none
  | attempts + 1 => do
    match ← tryResolvers backend hostname resolvers with
    | some addrs => return some addrs
    | none => tryAttempts backend hostname resolvers attempts

/-- `resolve_via_site_dns`; `none` for `SiteDNSUnavailable`. -/
def resolveViaSiteDns (backend : String → String → Lookup (Option (List String)))
    (hostname : String) (resolvers : List String) (attempts : ℕ) :
    Lookup (Option (List String)) :=
  if resolvers = [] then return none
  else tryAttempts backend hostname resolvers (max 1 attempts)

/-- The loop of `resolve_hostname` over `getaddrinfo`. -/
def resolveSystem (net : Network) (host : String) : ℕ → Lookup (Option (List String))
  | 0 => return none
  | attempts + 1 => fun log =>
    match net.getaddrinfo log host with
    | some infos => (some (unseen [] infos), log ++ [.system host])
    | none => resolveSystem net host attempts (log ++ [.system host])

/-- `resolve_hostname`, with the `dns_servers` of the policy; `none` for a `gaierror`. -/
def resolveHostname (net : Network) (installed : Bool) (policy : ScanNetworkPolicy)
    (dnsServers : List String) (host : String) (attempts : ℕ) : Lookup (Option (List String)) :=
  if policy.isPrivate then resolveViaSiteDns (backend net installed) host dnsServers attempts
  else resolveSystem net host attempts

/-- `resolve_and_validate`. -/
def resolveTarget (cfg : NetSettings) (net : Network) (installed : Bool)
    (policy : ScanNetworkPolicy) (dnsServers : List String) (host : String) :
    Lookup (Except NetFault String) := fun log =>
  match ipNetwork host with
  | some _ => (resolveAndValidate cfg policy (fun _ _ => .error .gaierror) host, log)
  | none =>
    let (addrs, log) := resolveHostname net installed policy dnsServers (hostFromValue host) 3 log
    (resolveAndValidate cfg policy (fun _ _ => addrs.elim (.error .gaierror) .ok) host, log)

/-! ## One resolver after the other -/

/-- What a resolver is asked for a name. -/
def queries (hostname resolver : String) : List Query :=
  [.site resolver hostname .a, .site resolver hostname .aaaa]

/-- The addresses that a resolver answers, after what has been asked. -/
def found (net : Network) (hostname resolver : String) (log : List Query) : List String :=
  (collect (collect [] (net.resolve log resolver hostname .a))
    (net.resolve (log ++ [.site resolver hostname .a]) resolver hostname .aaaa)).filter (· ≠ "")

/-- Resolvers are asked one after the other, and the first one that answers ends the lookup. -/
inductive Asked (net : Network) (hostname : String) :
    List Query → List String → Option (List String) → Prop
  | nil (log : List Query) : Asked net hostname log [] none
  | hit {log : List Query} {resolver : String} : found net hostname resolver log ≠ [] →
    Asked net hostname log [resolver] (some (found net hostname resolver log))
  | miss {log : List Query} {resolver : String} {tried : List String}
    {addrs : Option (List String)} : found net hostname resolver log = [] →
    Asked net hostname (log ++ queries hostname resolver) tried addrs →
    Asked net hostname log (resolver :: tried) addrs

variable {net : Network} {hostname resolver : String} {log : List Query} {tried : List String}
  {addrs : Option (List String)}

theorem Asked.append {tried' : List String} (h : Asked net hostname log tried none)
    (h' : Asked net hostname (log ++ tried.flatMap (queries hostname)) tried' addrs) :
    Asked net hostname log (tried ++ tried') addrs := by
  induction tried generalizing log with
  | nil => simpa using h'
  | cons resolver tried ih =>
    cases h with
    | miss hnone hrest =>
      refine .miss hnone (ih hrest ?_)
      rwa [List.flatMap_cons, ← List.append_assoc] at h'

theorem Asked.ne_nil (h : Asked net hostname log tried addrs) : addrs ≠ some [] := by
  induction h with
  | nil => exact nofun
  | hit hne => exact fun heq => hne (Option.some.inj heq)
  | miss _ _ ih => exact ih

/-- What a lookup of some resolvers comes to. -/
structure Tries (net : Network) (hostname : String) (log : List Query) (resolvers : List String)
    (x : Option (List String) × List Query) (tried : List String) : Prop where
  queried : x.2 = log ++ tried.flatMap (queries hostname)
  asked : Asked net hostname log tried x.1
  order : tried <+: resolvers
  all : x.1 = none → tried = resolvers

theorem dnspythonBackend_eq (net : Network) (hostname resolver : String) (log : List Query) :
    ∃ addrs, dnspythonBackend net hostname resolver log =
        (addrs, log ++ queries hostname resolver) ∧
      (addrs.getD []).filter (· ≠ "") = found net hostname resolver log := by
  obtain ⟨a, ha⟩ : ∃ a, a = net.resolve log resolver hostname .a := ⟨_, rfl⟩
  obtain ⟨aaaa, haaaa⟩ : ∃ aaaa, aaaa =
    net.resolve (log ++ [.site resolver hostname .a]) resolver hostname .aaaa := ⟨_, rfl⟩
  have hfound : found net hostname resolver log =
      (collect (collect [] a) aaaa).filter (· ≠ "") := by
    rw [ha, haaaa]
    rfl
  refine ⟨if collect (collect [] a) aaaa = [] ∧ (a.isFault || aaaa.isFault) then none
    else some (collect (collect [] a) aaaa), ?_, ?_⟩
  · have hlog : log ++ queries hostname resolver =
        log ++ [.site resolver hostname .a] ++ [.site resolver hostname .aaaa] := by
      rw [List.append_assoc]
      rfl
    rw [hlog, ha, haaaa]
    rfl
  · rw [hfound]
    split_ifs with hnone
    · rw [hnone.1]
      rfl
    · rfl

theorem tryResolvers_spec (net : Network) (hostname : String) (resolvers : List String)
    (log : List Query) : ∃ tried, Tries net hostname log resolvers
      (tryResolvers (dnspythonBackend net) hostname resolvers log) tried := by
  induction resolvers generalizing log with
  | nil => exact ⟨[], ⟨(List.append_nil log).symm, .nil log, List.prefix_rfl, fun _ => rfl⟩⟩
  | cons resolver resolvers ih =>
    obtain ⟨answer, heq, hfound⟩ := dnspythonBackend_eq net hostname resolver log
    obtain ⟨tried, htries⟩ := ih (log ++ queries hostname resolver)
    have hmiss : found net hostname resolver log = [] → Tries net hostname log
        (resolver :: resolvers) (tryResolvers (dnspythonBackend net) hostname resolvers
          (log ++ queries hostname resolver)) (resolver :: tried) := fun hnone =>
      { queried := by rw [htries.queried, List.flatMap_cons, List.append_assoc]
        asked := .miss hnone htries.asked
        order := List.cons_prefix_cons.mpr ⟨rfl, htries.order⟩
        all := fun h => by rw [htries.all h] }
    have hstep : tryResolvers (dnspythonBackend net) hostname (resolver :: resolvers) log =
        if found net hostname resolver log = [] then
          tryResolvers (dnspythonBackend net) hostname resolvers (log ++ queries hostname resolver)
        else (some (found net hostname resolver log), log ++ queries hostname resolver) := by
      show (match dnspythonBackend net hostname resolver log with
        | (a, log') => (match a with
          | none => tryResolvers (dnspythonBackend net) hostname resolvers
          | some addrs => if addrs.filter (· ≠ "") = [] then
              tryResolvers (dnspythonBackend net) hostname resolvers
            else pure (some (addrs.filter (· ≠ "")))) log') = _
      rw [heq, ← hfound]
      cases answer with
      | none => rfl
      | some addrs =>
        show (if addrs.filter (· ≠ "") = [] then _ else _ : Lookup _) _ = _
        simp only [Option.getD_some]
        split_ifs <;> rfl
    rw [hstep]
    split_ifs with hnone
    · exact ⟨resolver :: tried, hmiss hnone⟩
    · exact ⟨[resolver],
        { queried := by simp
          asked := .hit hnone
          order := List.cons_prefix_cons.mpr ⟨rfl, List.nil_prefix⟩
          all := nofun }⟩

theorem tryAttempts_spec (net : Network) (hostname : String) (resolvers : List String)
    (attempts : ℕ) (log : List Query) : ∃ tried,
      Tries net hostname log (List.replicate attempts resolvers).flatten
        (tryAttempts (dnspythonBackend net) hostname resolvers attempts log) tried := by
  induction attempts generalizing log with
  | zero => exact ⟨[], ⟨(List.append_nil log).symm, .nil log, List.prefix_rfl, fun _ => rfl⟩⟩
  | succ attempts ih =>
    obtain ⟨tried, htries⟩ := tryResolvers_spec net hostname resolvers log
    have hstep : tryAttempts (dnspythonBackend net) hostname resolvers (attempts + 1) log =
        match tryResolvers (dnspythonBackend net) hostname resolvers log with
        | (some addrs, log) => (some addrs, log)
        | (none, log) => tryAttempts (dnspythonBackend net) hostname resolvers attempts log := by
      show (match tryResolvers (dnspythonBackend net) hostname resolvers log with
        | (a, log') => (match a with
          | some addrs => pure (some addrs)
          | none => tryAttempts (dnspythonBackend net) hostname resolvers attempts : Lookup _)
            log') = _
      rcases tryResolvers (dnspythonBackend net) hostname resolvers log with ⟨_ | _, _⟩ <;> rfl
    rw [hstep]
    rcases htried : tryResolvers (dnspythonBackend net) hostname resolvers log with ⟨addrs, log'⟩
    rw [htried] at htries
    rw [List.replicate_succ, List.flatten_cons]
    cases addrs with
    | some addrs =>
      refine ⟨tried, ⟨htries.queried, htries.asked, ?_, nofun⟩⟩
      exact htries.order.trans (List.prefix_append _ _)
    | none =>
      -- All resolvers have been asked in vain, and the next attempt goes on from there.
      obtain rfl : tried = resolvers := htries.all rfl
      obtain ⟨tried', htries'⟩ := ih log'
      have hlog : log' = log ++ tried.flatMap (queries hostname) := htries.queried
      refine ⟨tried ++ tried', ⟨?_, htries.asked.append (hlog ▸ htries'.asked), ?_, fun h => ?_⟩⟩
      · rw [htries'.queried, hlog, List.flatMap_append, List.append_assoc]
      · exact (List.prefix_append_right_inj _).mpr htries'.order
      · rw [htries'.all h]

/-- **A lookup by the resolvers of a site.** -/
theorem resolveViaSiteDns_spec (net : Network) (hostname : String) (resolvers : List String)
    (attempts : ℕ) (log : List Query) : ∃ tried,
      Tries net hostname log (List.replicate (max 1 attempts) resolvers).flatten
        (resolveViaSiteDns (dnspythonBackend net) hostname resolvers attempts log) tried := by
  unfold resolveViaSiteDns
  split_ifs with hnil
  · refine ⟨[], ⟨(List.append_nil log).symm, .nil log, List.nil_prefix, fun _ => ?_⟩⟩
    rw [hnil]
    exact (List.flatten_eq_nil_iff.mpr fun l hl => List.eq_of_mem_replicate hl).symm
  · exact tryAttempts_spec net hostname resolvers _ log

/-- Without a transport nobody is asked, and nothing is found. -/
theorem resolveViaSiteDns_default (hostname : String) (resolvers : List String) (attempts : ℕ)
    (log : List Query) :
    resolveViaSiteDns defaultBackend hostname resolvers attempts log = (none, log) := by
  have hresolvers : ∀ l : List String,
      tryResolvers defaultBackend hostname l log = (none, log) := by
    intro l
    induction l with
    | nil => rfl
    | cons resolver l ih => exact ih
  have hattempts : ∀ n, tryAttempts defaultBackend hostname resolvers n log = (none, log) := by
    intro n
    induction n with
    | zero => rfl
    | succ n ih =>
      show (match tryResolvers defaultBackend hostname resolvers log with
        | (a, log') => (match a with
          | some addrs => pure (some addrs)
          | none => tryAttempts defaultBackend hostname resolvers n : Lookup _) log') = _
      rw [hresolvers]
      exact ih
  unfold resolveViaSiteDns
  split_ifs
  · rfl
  · exact hattempts _

/-! ## Targets -/

/-- All addresses of a name are checked, and the first of them is handed on. -/
theorem resolveAndValidate_addrs {cfg : NetSettings} {policy : ScanNetworkPolicy}
    {host target : String} (hhost : ipNetwork host = none)
    (h : resolveAndValidate cfg policy (fun _ _ => addrs.elim (.error .gaierror) .ok) host =
      .ok target) :
    ∃ l, addrs = some l ∧ l.head? = some target ∧
      ∀ addr ∈ l, isIpAllowed cfg policy (ipAddress addr) = true := by
  simp only [resolveAndValidate, hhost, bind_eq_ok] at h
  obtain ⟨l, hl, htarget⟩ := h
  cases addrs with
  | none => cases hl
  | some l' =>
    cases hl
    cases l with
    | nil => cases htarget
    | cons addr l =>
      obtain ⟨_, hall, haddr⟩ := bind_eq_ok.mp htarget
      cases haddr
      refine ⟨_, rfl, rfl, fun addr' hmem => ?_⟩
      exact assertIpAllowed_eq_ok.mp (forM_eq_ok.mp hall addr' hmem)

/-- **A target of a private scan is looked up by its site alone**, whatever other scans have asked
and whatever is answered: only resolvers of the site are asked, for this name and not without end,
and the target that is handed on is the first address of the first resolver that has answered, with
all addresses of that answer allowed by the policy of the scan. -/
theorem site_target_confined (cfg : NetSettings) (net : Network) (installed : Bool)
    {policy : ScanNetworkPolicy} (hprivate : policy.isPrivate = true) (dnsServers : List String)
    (host : String) (log : List Query) :
    let x := resolveTarget cfg net installed policy dnsServers host log
    ∃ tried : List String, x.2 = log ++ tried.flatMap (queries (hostFromValue host)) ∧
      (∀ resolver ∈ tried, resolver ∈ dnsServers) ∧ tried.length ≤ 3 * dnsServers.length ∧
        ∀ target, x.1 = .ok target → (ipNetwork host).isSome = true ∧ target = host ∨
          ∃ l, Asked net (hostFromValue host) log tried (some l) ∧ l.head? = some target ∧
            ∀ addr ∈ l, isIpAllowed cfg policy (ipAddress addr) = true := by
  dsimp only
  cases hhost : ipNetwork host with
  | some range =>
    refine ⟨[], ?_, fun _ h => absurd h List.not_mem_nil, Nat.zero_le _, fun target h => .inl ?_⟩
    · simp [resolveTarget, hhost]
    · simp only [resolveTarget, hhost] at h
      exact ⟨rfl, ((resolveAndValidate_network hhost).mp h).1⟩
  | none =>
    have hlookup : resolveHostname net installed policy dnsServers (hostFromValue host) 3 log =
        resolveViaSiteDns (backend net installed) (hostFromValue host) dnsServers 3 log := by
      rw [resolveHostname, if_pos hprivate]
    have htarget : resolveTarget cfg net installed policy dnsServers host log =
        (resolveAndValidate cfg policy (fun _ _ => (resolveViaSiteDns (backend net installed)
            (hostFromValue host) dnsServers 3 log).1.elim (.error .gaierror) .ok) host,
          (resolveViaSiteDns (backend net installed) (hostFromValue host) dnsServers 3 log).2) := by
      simp only [resolveTarget, hhost, hlookup]
      rfl
    rw [htarget]
    cases installed with
    | false =>
      rw [show backend net false = defaultBackend from rfl, resolveViaSiteDns_default]
      refine ⟨[], (List.append_nil log).symm, fun _ h => absurd h List.not_mem_nil,
        Nat.zero_le _, fun target h => ?_⟩
      obtain ⟨l, hl, -⟩ := resolveAndValidate_addrs hhost h
      cases hl
    | true =>
      rw [show backend net true = dnspythonBackend net from rfl]
      obtain ⟨tried, htries⟩ := resolveViaSiteDns_spec net (hostFromValue host) dnsServers 3 log
      refine ⟨tried, htries.queried, fun resolver h => ?_, ?_, fun target h => .inr ?_⟩
      · obtain ⟨l, hl, hmem⟩ := List.mem_flatten.mp (htries.order.subset h)
        rwa [List.eq_of_mem_replicate hl] at hmem
      · have hlen := htries.order.length_le
        rw [List.length_flatten, List.map_replicate, List.sum_replicate] at hlen
        exact hlen
      · obtain ⟨l, hl, hhead, hall⟩ := resolveAndValidate_addrs hhost h
        exact ⟨l, hl ▸ htries.asked, hhead, hall⟩

/-- A network in which only the second resolver of a site knows a name. -/
def labNetwork : Network where
  resolve _ resolver _ rdtype :=
    if resolver = "10.0.0.54" ∧ rdtype = .a then .records ["10.0.0.9"] else .fault
  getaddrinfo _ _ := some ["203.0.113.9"]

theorem site_target_confined_lab :
    let x := resolveTarget ⟨true, ["10.0.0.0/8"]⟩ labNetwork true
      ⟨"private", networks ["10.0.0.0/24"]⟩
      ["10.0.0.53", "10.0.0.54"] "db.acme" []
    ∃ tried : List String, x.2 = [] ++ tried.flatMap (queries (hostFromValue "db.acme")) ∧
      (∀ resolver ∈ tried, resolver ∈ ["10.0.0.53", "10.0.0.54"]) ∧ tried.length ≤ 3 * 2 ∧
        ∀ target, x.1 = .ok target → (ipNetwork "db.acme").isSome = true ∧ target = "db.acme" ∨
          ∃ l, Asked labNetwork (hostFromValue "db.acme") [] tried (some l) ∧
            l.head? = some target ∧ ∀ addr ∈ l, isIpAllowed ⟨true, ["10.0.0.0/8"]⟩
              ⟨"private", networks ["10.0.0.0/24"]⟩ (ipAddress addr) = true :=
  site_target_confined ⟨true, ["10.0.0.0/8"]⟩ labNetwork true rfl ["10.0.0.53", "10.0.0.54"]
    "db.acme" []

end ScanPlatform.SiteDns

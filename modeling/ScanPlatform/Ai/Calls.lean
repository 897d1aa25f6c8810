import Mathlib.Algebra.Order.Ring.Rat
import Mathlib.Data.List.Nodup
import ScanPlatform.Base.CondMachine
import ScanPlatform.Base.PyStr

/-!
# Calls of AI providers

Any number of calls at a time, each by a chain of providers with their retries; what they cost is
counted for each workspace and day in Redis, which may fail.

* `Settings`, `getAiClient`, **`getAiClient_nodup`**: the providers of a call;
* `Response`, `invoke`, `isRetryable`, `attempted`: one attempt, and what follows it;
* `Call`, `State`, `step`: the calls, the gate of the budget, and the steps;
* **`attempted_spec`**, `emitUsage_spec`: an attempt, and a usage that is emitted;
* `CallInv`, **`calls_bounded`**: what a single call does.
-/

set_option autoImplicit false

namespace ScanPlatform.Ai

open CondMachine

/-! ## Providers -/

/-- `_KNOWN`. -/
inductive Name where
  | openrouter
  | anthropic
  | ollama
  | deepseek
  deriving DecidableEq

def known : String → Option Name
  | "openrouter" => some .openrouter
  | "anthropic" => some .anthropic
  | "local" => some .ollama
  | "deepseek" => some .deepseek
  | _ => none

structure Settings where
  aiProvider : String
  aiFallbackProviders : List String
  openrouterApiKey : String
  anthropicApiKey : String
  deepseekApiKey : String
  aiMaxRetries : ℤ
  aiBudgetEnforce : Bool
  aiDailyBudgetUsd : ℚ

/-- `_has_key`. -/
def hasKey (st : Settings) : Name → Bool
  | .openrouter => st.openrouterApiKey ≠ ""
  | .anthropic => st.anthropicApiKey ≠ ""
  | .deepseek => st.deepseekApiKey ≠ ""
  | .ollama => true

/-- The loop of `get_ai_client`. -/
def addFallback (st : Settings) (primary : Name) (chain : List Name) (x : String) : List Name :=
  match known (PyStr.lower (PyStr.strip x)) with
  | some name =>
    if name ≠ primary ∧ name ∉ chain ∧ hasKey st name then chain ++ [name] else chain
  | none => chain

/-- The chain of `get_ai_client`: a single provider is a chain of one. -/
def getAiClient (st : Settings) : List Name :=
  let primary := (known st.aiProvider).getD .openrouter
  st.aiFallbackProviders.foldl (addFallback st primary) [primary]

/-- `_max_retries`. -/
def maxRetries (st : Settings) : ℕ := st.aiMaxRetries.toNat

/-! ## An attempt -/

/-- What a provider has answered: what it costs, and whether a JSON object is found in its text. -/
structure Answer where
  cost : ℚ
  json : Bool

inductive Response where
  /-- No connection, or no answer in time. -/
  | lost
  /-- The body may be one that cannot be read. -/
  | status (code : ℕ) (body : Option Answer)

/-- What an attempt raises. -/
inductive Failure where
  /-- An `AIProviderError`. -/
  | provider (availability : Bool)
  | lost
  | status (code : ℕ)
  | other

/-- `_invoke`. -/
def invoke (st : Settings) (name : Name) (r : Response) : Except Failure Answer :=
  if hasKey st name then
    match r with
    | .lost => .error .lost
    | .status code body =>
      if name ≠ .anthropic ∧ code = 402 then .error (.provider true)
      else if name ≠ .anthropic ∧ code ∈ [400, 401, 403, 404] then .error (.provider false)
      else if 200 ≤ code ∧ code < 300 then body.elim (.error .other) .ok
      else .error (.status code)
  else .error (.provider false)

/-- `_is_retryable`. -/
def isRetryable (name : Name) : Failure → Bool
  | .lost => true
  | .status code =>
    if name = .anthropic then code = 429 ∨ 500 ≤ code else code ∈ [429, 500, 502, 503, 504]
  | .provider _ | .other => false

/-- Where a call stands. -/
inductive Stage where
  /-- `complete_json` of the provider is called; the rest of the chain has not been tried. -/
  | gate (name : Name) (rest : List Name)
  | asking (name : Name) (rest : List Name) (attempt : ℕ)
  | returned
  | raised (availability : Bool)

/-- The `except` of `FallbackClient.complete_json`. -/
def failed (rest : List Name) (availability : Bool) : Stage :=
  match availability, rest with
  | true, next :: rest => .gate next rest
  | availability, _ => .raised availability

/-- The `except Exception` of `BaseAIProvider.complete_json`. -/
def caught (st : Settings) (name : Name) (rest : List Name) (attempt : ℕ) (f : Failure) : Stage :=
  if attempt < maxRetries st ∧ isRetryable name f then .asking name rest (attempt + 1)
  else failed rest (isRetryable name f)

/-- What an attempt emits, and where the call stands after it. -/
def attempted (st : Settings) (name : Name) (rest : List Name) (attempt : ℕ) (r : Response) :
    Option Answer × Stage :=
  match invoke st name r with
  | .ok answer =>
    (some answer, if answer.json then .returned else caught st name rest attempt .other)
  | .error (.provider availability) => (none, failed rest availability)
  | .error f => (none, caught st name rest attempt f)

/-! ## Calls -/

structure Call where
  /-- The workspace of `collect_ai_usage`. -/
  workspace : Option String
  stage : Stage

inductive Event where
  /-- An operation of Redis has failed. -/
  | missed (workspace : String)
  /-- An attempt of the call. -/
  | asked (n : ℕ) (name : Name)
  /-- The call has emitted its usage. -/
  | used (n : ℕ) (workspace : Option String) (day : ℕ) (cost : ℚ)
  deriving DecidableEq

/-- The counters in Redis, the day, the calls, the most calls of a workspace that have been past the
gate at the same time, and what has happened. -/
structure State where
  spend : String → ℕ → ℚ
  day : ℕ
  calls : List Call
  peak : String → ℕ
  log : List Event

def State.init (day : ℕ) : State := ⟨fun _ _ => 0, day, [], fun _ => 0, []⟩

def Stage.asks : Stage → Bool
  | .asking _ _ _ => true
  | .gate _ _ | .returned | .raised _ => false

def Stage.over : Stage → Bool
  | .returned | .raised _ => true
  | .gate _ _ | .asking _ _ _ => false

/-- A call of the workspace that is past the gate. -/
def Call.inFlight (w : String) (c : Call) : Bool := c.stage.asks && c.workspace = some w

def inFlight (w : String) (calls : List Call) : ℕ := calls.countP (Call.inFlight w)

def State.goTo (s : State) (n : ℕ) (c : Call) (stage : Stage) : State :=
  let calls := s.calls.set n { c with stage }
  { s with calls, peak := fun w => max (s.peak w) (inFlight w calls) }

/-- `enforce_budget`: a counter that cannot be read is not reached. -/
def enforceBudget (st : Settings) (s : State) (n : ℕ) (c : Call) (name : Name) (rest : List Name)
    (read : Bool) : State :=
  match c.workspace with
  | none => s.goTo n c (.asking name rest 0)
  | some w =>
    if st.aiBudgetEnforce ∧ 0 < st.aiDailyBudgetUsd then
      if read then
        if s.spend w s.day < st.aiDailyBudgetUsd then s.goTo n c (.asking name rest 0)
        else s.goTo n c (.raised false)
      else { s with log := s.log ++ [Event.missed w] }.goTo n c (.asking name rest 0)
    else s.goTo n c (.asking name rest 0)

/-- `add_spend`. -/
def addSpend (s : State) (w : String) (cost : ℚ) (written : Bool) : State :=
  if cost ≤ 0 then s
  else if written then
    { s with spend := Function.update s.spend w
              (Function.update (s.spend w) s.day (s.spend w s.day + cost)) }
  else { s with log := s.log ++ [.missed w] }

/-- `emit_usage`. -/
def emitUsage (s : State) (n : ℕ) (workspace : Option String) (cost : ℚ) (written : Bool) : State :=
  let s := { s with log := s.log ++ [.used n workspace s.day cost] }
  match workspace with
  | none => s
  | some w => addSpend s w cost written

/-- An attempt of a call. -/
def attempt (st : Settings) (s : State) (n : ℕ) (c : Call) (name : Name) (rest : List Name)
    (k : ℕ) (r : Response) (written : Bool) : State :=
  let (usage, stage) := attempted st name rest k r
  let s := { s with log := s.log ++ [.asked n name] }
  (usage.elim s fun answer => emitUsage s n c.workspace answer.cost written).goTo n c stage

inductive Step where
  | start (workspace : Option String)
  /-- The counter is read, or cannot be. -/
  | gate (n : ℕ) (read : Bool)
  /-- The response comes, and the counter is written, or cannot be. -/
  | respond (n : ℕ) (r : Response) (written : Bool)
  | tomorrow

/-- What a response costs. -/
def Response.cost : Response → ℚ
  | .status _ (some answer) => answer.cost
  | _ => 0

/-- A step. No response costs more than `most`. -/
def step (st : Settings) (most : ℚ) : Step → State → Option State
  | .start workspace, s =>
    match getAiClient st with
    | [] => none
    | name :: rest => some { s with calls := s.calls ++ [⟨workspace, .gate name rest⟩] }
  | .gate n read, s =>
    match s.calls[n]? with
    | some ⟨workspace, .gate name rest⟩ =>
      some (enforceBudget st s n ⟨workspace, .gate name rest⟩ name rest read)
    | _ => none
  | .respond n r written, s =>
    match s.calls[n]? with
    | some ⟨workspace, .asking name rest k⟩ =>
      if r.cost ≤ most then
        some (attempt st s n ⟨workspace, .asking name rest k⟩ name rest k r written)
      else none
    | _ => none
  | .tomorrow, s => some { s with day := s.day + 1 }

/-! ## The chain of providers -/

theorem nodup_addFallback (st : Settings) (primary : Name) {chain : List Name} (h : chain.Nodup)
    (x : String) : (addFallback st primary chain x).Nodup := by
  unfold addFallback
  cases known (PyStr.lower (PyStr.strip x)) with
  | none => exact h
  | some name =>
    dsimp only
    split_ifs with hnew
    · refine List.nodup_append.mpr ⟨h, List.nodup_singleton _, fun a ha b hb heq => ?_⟩
      exact hnew.2.1 (List.mem_singleton.mp hb ▸ heq ▸ ha)
    · exact h

/-- **A provider is tried once**: no chain has it twice. -/
theorem getAiClient_nodup (st : Settings) : (getAiClient st).Nodup := by
  have hfold : ∀ (primary : Name) (l : List String) (chain : List Name), chain.Nodup →
      (l.foldl (addFallback st primary) chain).Nodup := by
    intro primary l
    induction l with
    | nil => exact fun chain h => h
    | cons x l ih =>
      intro chain h
      rw [List.foldl_cons]
      exact ih _ (nodup_addFallback st primary h x)
  exact hfold _ _ _ (List.nodup_singleton _)

/-! ## An attempt -/

variable {st : Settings} {most : ℚ} {s s' : State} {c : Call} {n k : ℕ} {name : Name}
  {rest : List Name} {stage : Stage} {usage : Option Answer} {r : Response} {w : String}

theorem failed_cases (rest : List Name) (availability : Bool) :
    (failed rest availability).over = true ∨
      ∃ next rest', rest = next :: rest' ∧ failed rest availability = .gate next rest' := by
  cases availability with
  | false => exact .inl rfl
  | true =>
    cases rest with
    | nil => exact .inl rfl
    | cons next rest' => exact .inr ⟨next, rest', rfl, rfl⟩

/-- Where a call stands after an attempt. -/
def Goes (st : Settings) (name : Name) (rest : List Name) (k : ℕ) (stage : Stage) : Prop :=
  stage.over = true ∨ (k < maxRetries st ∧ stage = .asking name rest (k + 1)) ∨
    ∃ next rest', rest = next :: rest' ∧ stage = .gate next rest'

theorem caught_goes (st : Settings) (name : Name) (rest : List Name) (k : ℕ) (f : Failure) :
    Goes st name rest k (caught st name rest k f) := by
  unfold caught
  split_ifs with hretry
  · exact .inr (.inl ⟨hretry.1, rfl⟩)
  · exact (failed_cases rest _).imp_right .inr

/-- **An attempt**: after one that emits a usage the call is over, even where no JSON object is
found in the text. -/
theorem attempted_spec (h : attempted st name rest k r = (usage, stage)) :
    Goes st name rest k stage ∧
      ∀ answer ∈ usage, stage.over = true ∧ answer.cost = r.cost := by
  unfold attempted at h
  split at h
  · next answer hanswer =>
    obtain ⟨rfl, rfl⟩ := Prod.mk.inj h
    have hcost : answer.cost = r.cost := by
      unfold invoke at hanswer
      cases r with
      | lost => split_ifs at hanswer
      | status code body =>
        simp only at hanswer
        split_ifs at hanswer
        cases body with
        | none => cases hanswer
        | some answer' =>
          cases hanswer
          rfl
    have hover : (if answer.json then Stage.returned else caught st name rest k .other).over =
        true := by
      split_ifs
      · rfl
      · -- An undecodable text is not retried, and no failure of availability.
        unfold caught
        rw [if_neg fun hretry => Bool.false_ne_true hretry.2]
        rfl
    refine ⟨.inl hover, fun a ha => ?_⟩
    rw [← Option.some.inj ha]
    exact ⟨hover, hcost⟩
  · next availability _ =>
    obtain ⟨rfl, rfl⟩ := Prod.mk.inj h
    exact ⟨(failed_cases rest availability).imp_right .inr, nofun⟩
  · next f _ _ =>
    obtain ⟨rfl, rfl⟩ := Prod.mk.inj h
    exact ⟨caught_goes st name rest k f, nofun⟩

/-! ## Usages -/

/-- A usage changes the counters and the log only. -/
theorem emitUsage_frame (s : State) (n : ℕ) (workspace : Option String) (x : ℚ) (written : Bool) :
    (emitUsage s n workspace x written).calls = s.calls ∧
      (emitUsage s n workspace x written).day = s.day ∧
        (emitUsage s n workspace x written).peak = s.peak := by
  unfold emitUsage addSpend
  cases workspace with
  | none => exact ⟨rfl, rfl, rfl⟩
  | some w => dsimp only; split_ifs <;> exact ⟨rfl, rfl, rfl⟩

/-- What an emitted usage costs, and what is counted of it. -/
theorem emitUsage_spec (s : State) (n : ℕ) (workspace : Option String) (x : ℚ) (written : Bool) :
    ∃ lost : List Event, (lost = [] ∨ 0 < x ∧ ∃ w, workspace = some w ∧ lost = [.missed w]) ∧
      (emitUsage s n workspace x written).log =
        s.log ++ [.used n workspace s.day x] ++ lost ∧
      ∀ w d, (emitUsage s n workspace x written).spend w d = s.spend w d +
        if workspace = some w ∧ d = s.day ∧ 0 < x ∧ lost = [] then x else 0 := by
  unfold emitUsage addSpend
  cases workspace with
  | none => exact ⟨[], .inl rfl, by simp, fun w d => by simp⟩
  | some v =>
    dsimp only
    split_ifs with hx hwritten
    · exact ⟨[], .inl rfl, by simp, fun w d => by simp [not_lt.mpr hx]⟩
    · refine ⟨[], .inl rfl, by simp, fun w d => ?_⟩
      by_cases hw : w = v
      · subst hw
        by_cases hd : d = s.day
        · simp [hd, not_le.mp hx]
        · simp [hd]
      · simp [hw, Ne.symm hw]
    · exact ⟨[.missed v], .inr ⟨not_le.mp hx, v, rfl, rfl⟩, by simp, fun w d => by simp⟩

/-! ## What a call does -/

def Event.isUsed (n : ℕ) : Event → Bool
  | .used m _ _ _ => m = n
  | .missed _ | .asked _ _ => false

/-- The usages that a call has emitted. -/
def usages (n : ℕ) (log : List Event) : ℕ := log.countP (Event.isUsed n)

/-- The attempts that a call has made with a provider. -/
def attempts (n : ℕ) (name : Name) (log : List Event) : ℕ := log.count (.asked n name)

/-- The attempts that a call may have made with a provider. -/
def Stage.may (st : Settings) (name : Name) : Stage → ℕ
  | .gate next rest => if name ∈ next :: rest then 0 else maxRetries st + 1
  | .asking next rest k =>
    if name ∈ rest then 0 else if name = next then k else maxRetries st + 1
  | .returned | .raised _ => maxRetries st + 1

/-- The providers that a call may still try, and the attempts that it has made with the current
one. -/
def Stage.Ok (st : Settings) : Stage → Prop
  | .gate next rest => (next :: rest).Nodup
  | .asking next rest k => (next :: rest).Nodup ∧ k ≤ maxRetries st
  | .returned | .raised _ => True

structure CallInv (st : Settings) (s : State) : Prop where
  ok : ∀ (n : ℕ) (c : Call), s.calls[n]? = some c → c.stage.Ok st
  used : ∀ (n : ℕ) (c : Call), s.calls[n]? = some c → usages n s.log ≤ c.stage.over.toNat
  asked : ∀ (n : ℕ) (c : Call), s.calls[n]? = some c →
    ∀ name, attempts n name s.log ≤ c.stage.may st name
  fresh : ∀ n : ℕ, s.calls.length ≤ n → usages n s.log = 0 ∧ ∀ name, attempts n name s.log = 0

theorem Stage.may_gate (st : Settings) (name next : Name) (rest : List Name) :
    (Stage.gate next rest).may st name =
      if name ∈ next :: rest then 0 else maxRetries st + 1 := rfl

theorem Stage.may_asking (st : Settings) (name next : Name) (rest : List Name) (k : ℕ) :
    (Stage.asking next rest k).may st name =
      if name ∈ rest then 0 else if name = next then k else maxRetries st + 1 := rfl

theorem Stage.may_over (name : Name) (h : stage.over = true) :
    stage.Ok st ∧ stage.may st name = maxRetries st + 1 := by
  cases stage with
  | returned => exact ⟨trivial, rfl⟩
  | raised => exact ⟨trivial, rfl⟩
  | gate => cases h
  | asking => cases h

theorem Stage.may_le (st : Settings) (name : Name) (h : stage.Ok st) :
    stage.may st name ≤ maxRetries st + 1 := by
  cases stage with
  | gate next rest =>
    rw [may_gate]
    split_ifs <;> omega
  | asking next rest k =>
    have hk : k ≤ maxRetries st := h.2
    rw [may_asking]
    split_ifs <;> omega
  | returned => exact Nat.le_refl _
  | raised => exact Nat.le_refl _

/-- **What follows an attempt** lets the call make no more attempts than it may. -/
theorem Goes.may (h : Goes st name rest k stage) (hok : (Stage.asking name rest k).Ok st) :
    stage.Ok st ∧ ∀ other, (Stage.asking name rest k).may st other +
      (if other = name then 1 else 0) ≤ stage.may st other := by
  obtain ⟨hnodup, hk⟩ := hok
  obtain ⟨hnot, hrest⟩ := List.nodup_cons.mp hnodup
  rcases h with hover | ⟨hlt, rfl⟩ | ⟨next, rest', rfl, rfl⟩
  · refine ⟨(Stage.may_over name hover).1, fun other => ?_⟩
    rw [(Stage.may_over other hover).2, Stage.may_asking]
    split_ifs <;> omega
  · refine ⟨⟨hnodup, hlt⟩, fun other => ?_⟩
    rw [Stage.may_asking, Stage.may_asking]
    by_cases heq : other = name
    · rw [heq, if_neg hnot, if_neg hnot, if_pos rfl, if_pos rfl, if_pos rfl]
    · rw [if_neg heq, if_neg heq, if_neg heq, add_zero]
  · refine ⟨hrest, fun other => ?_⟩
    rw [Stage.may_asking, Stage.may_gate]
    by_cases heq : other = name
    · rw [heq, if_neg hnot, if_neg hnot, if_pos rfl, if_pos rfl]
      omega
    · rw [if_neg heq, if_neg heq, add_zero]

/-- A step writes only of its own call. -/
theorem CallInv.goTo (hs : CallInv st s) (hn : s.calls[n]? = some c) (hcalls : s'.calls = s.calls)
    (hok : stage.Ok st) (husages : usages n s'.log ≤ stage.over.toNat)
    (hattempts : ∀ name, attempts n name s'.log ≤ stage.may st name)
    (hother : ∀ m, m ≠ n → usages m s'.log = usages m s.log ∧
      ∀ name, attempts m name s'.log = attempts m name s.log) :
    CallInv st (s'.goTo n c stage) := by
  have hlt : n < s.calls.length := (List.getElem?_eq_some_iff.mp hn).1
  have hget : ∀ m d, (s'.goTo n c stage).calls[m]? = some d →
      m = n ∧ d.stage = stage ∨ m ≠ n ∧ s.calls[m]? = some d := by
    intro m d hm
    have hm : (s'.calls.set n { c with stage })[m]? = some d := hm
    rw [hcalls] at hm
    by_cases hmn : m = n
    · rw [hmn, List.getElem?_set_self hlt] at hm
      exact .inl ⟨hmn, by rw [← Option.some.inj hm]⟩
    · rw [List.getElem?_set_ne (Ne.symm hmn)] at hm
      exact .inr ⟨hmn, hm⟩
  refine
    { ok := fun m d hm => ?_
      used := fun m d hm => ?_
      asked := fun m d hm name => ?_
      fresh := fun m hm => ?_ }
  · rcases hget m d hm with ⟨-, hd⟩ | ⟨-, hm⟩
    · exact hd ▸ hok
    · exact hs.ok m d hm
  · rcases hget m d hm with ⟨rfl, hd⟩ | ⟨hmn, hm⟩
    · exact hd ▸ husages
    · exact (hother m hmn).1.trans_le (hs.used m d hm)
  · rcases hget m d hm with ⟨rfl, hd⟩ | ⟨hmn, hm⟩
    · exact hd ▸ hattempts name
    · exact ((hother m hmn).2 name).trans_le (hs.asked m d hm name)
  · have hlen : (s'.goTo n c stage).calls.length = s.calls.length := by
      show (s'.calls.set n { c with stage }).length = _
      rw [List.length_set, hcalls]
    rw [hlen] at hm
    have hmn : m ≠ n := by omega
    obtain ⟨hzero, hnone⟩ := hs.fresh m hm
    exact ⟨(hother m hmn).1.trans hzero, fun name => ((hother m hmn).2 name).trans (hnone name)⟩

theorem usages_concat (n : ℕ) (log : List Event) (e : Event) :
    usages n (log ++ [e]) = usages n log + (e.isUsed n).toNat := by
  simp only [usages, List.countP_append, List.countP_singleton]
  cases e.isUsed n <;> rfl

theorem attempts_concat (n : ℕ) (name : Name) (log : List Event) (e : Event) :
    attempts n name (log ++ [e]) = attempts n name log + if e = .asked n name then 1 else 0 := by
  simp only [attempts, List.count_append, List.count_singleton, beq_iff_eq]

/-- The events of a usage that is emitted. -/
theorem emitUsage_log (s : State) (n : ℕ) (workspace : Option String) (x : ℚ) (written : Bool)
    (m : ℕ) : usages m (emitUsage s n workspace x written).log =
        usages m s.log + (decide (n = m)).toNat ∧
      ∀ name, attempts m name (emitUsage s n workspace x written).log =
        attempts m name s.log := by
  obtain ⟨lost, hlost, hlog, -⟩ := emitUsage_spec s n workspace x written
  rw [hlog]
  rcases hlost with rfl | ⟨-, v, -, rfl⟩
  · rw [List.append_nil, usages_concat]
    exact ⟨rfl, fun name => by rw [attempts_concat, if_neg (by simp), add_zero]⟩
  · rw [usages_concat, usages_concat]
    refine ⟨rfl, fun name => ?_⟩
    rw [attempts_concat, attempts_concat, if_neg (by simp), if_neg (by simp), add_zero, add_zero]

theorem callInv_enforceBudget (hs : CallInv st s) (hn : s.calls[n]? = some c)
    (hc : c.stage = .gate name rest) (read : Bool) :
    CallInv st (enforceBudget st s n c name rest read) := by
  have hok := hs.ok n c hn
  have hzero := hs.used n c hn
  have hmay := hs.asked n c hn
  rw [hc] at hok hzero hmay
  have hasking : ∀ other, (Stage.gate name rest).may st other ≤
      (Stage.asking name rest 0).may st other := by
    intro other
    rw [Stage.may_gate, Stage.may_asking]
    by_cases hmem : other ∈ name :: rest
    · rw [if_pos hmem]
      exact Nat.zero_le _
    · obtain ⟨hne, hnot⟩ := not_or.mp fun h => hmem (List.mem_cons.mpr h)
      rw [if_neg hmem, if_neg hnot, if_neg hne]
  have hpass : ∀ s' : State, s'.calls = s.calls →
      (∀ m, usages m s'.log = usages m s.log ∧
        ∀ name, attempts m name s'.log = attempts m name s.log) →
      CallInv st (s'.goTo n c (.asking name rest 0)) := by
    intro s' hcalls hsame
    refine hs.goTo hn hcalls ⟨hok, Nat.zero_le _⟩ ((hsame n).1.trans_le hzero) (fun other => ?_)
      fun m _ => hsame m
    exact ((hsame n).2 other).trans_le ((hmay other).trans (hasking other))
  unfold enforceBudget
  cases c.workspace with
  | none => exact hpass s rfl fun _ => ⟨rfl, fun _ => rfl⟩
  | some w =>
    dsimp only
    split_ifs
    · exact hpass s rfl fun _ => ⟨rfl, fun _ => rfl⟩
    · refine hs.goTo hn rfl trivial (hzero.trans (Nat.zero_le _)) (fun other => ?_)
        fun _ _ => ⟨rfl, fun _ => rfl⟩
      exact (hmay other).trans (Stage.may_le st other hok)
    · refine hpass _ rfl fun m => ⟨?_, fun other => ?_⟩
      · exact usages_concat m s.log (.missed w)
      · show attempts m other (s.log ++ [.missed w]) = _
        rw [attempts_concat, if_neg (by simp), add_zero]
    · exact hpass s rfl fun _ => ⟨rfl, fun _ => rfl⟩

theorem callInv_attempt (hs : CallInv st s) (hn : s.calls[n]? = some c)
    (hc : c.stage = .asking name rest k) (written : Bool) :
    CallInv st (attempt st s n c name rest k r written) := by
  have hok := hs.ok n c hn
  have hzero := hs.used n c hn
  have hmay := hs.asked n c hn
  rw [hc] at hok hzero hmay
  have hnone : usages n s.log = 0 := Nat.le_zero.mp hzero
  unfold attempt
  rcases hattempted : attempted st name rest k r with ⟨usage, stage⟩
  obtain ⟨hgoes, hover⟩ := attempted_spec hattempted
  obtain ⟨hok', hstage⟩ := hgoes.may hok
  have husages : ∀ m, usages m (s.log ++ [.asked n name]) = usages m s.log := fun m =>
    usages_concat m s.log (.asked n name)
  have hattempts : ∀ m other, attempts m other (s.log ++ [.asked n name]) =
      attempts m other s.log + if n = m ∧ name = other then 1 else 0 := fun m other => by
    rw [attempts_concat]
    simp
  have hown : ∀ other, attempts n other (s.log ++ [.asked n name]) ≤ stage.may st other := by
    intro other
    rw [hattempts]
    refine le_trans ?_ (hstage other)
    have hother := hmay other
    by_cases heq : other = name
    · rw [if_pos ⟨rfl, heq.symm⟩, if_pos heq]
      omega
    · rw [if_neg fun h => heq h.2.symm, if_neg heq]
      omega
  have hothers : ∀ m, m ≠ n → ∀ other, attempts m other (s.log ++ [.asked n name]) =
      attempts m other s.log := by
    intro m hmn other
    rw [hattempts, if_neg fun h => hmn h.1.symm, add_zero]
  cases usage with
  | none =>
    refine hs.goTo hn rfl hok' ?_ hown fun m hmn => ⟨husages m, hothers m hmn⟩
    exact ((husages n).trans hnone).trans_le (Nat.zero_le _)
  | some answer =>
    have hemit := emitUsage_log { s with log := s.log ++ [Event.asked n name] } n c.workspace
      answer.cost written
    refine hs.goTo hn (emitUsage_frame ..).1 hok' ?_ (fun other => ?_)
      fun m hmn => ⟨?_, fun other => ?_⟩
    · refine (hemit n).1.trans_le ?_
      rw [(hover answer rfl).1]
      show usages n (s.log ++ [.asked n name]) + _ ≤ 1
      rw [husages, hnone]
      simp
    · exact ((hemit n).2 other).trans_le (hown other)
    · refine (hemit m).1.trans ?_
      rw [decide_eq_false (Ne.symm hmn)]
      exact husages m
    · exact ((hemit m).2 other).trans (hothers m hmn other)

theorem callInv_step {a : Step} (hs : CallInv st s) (h : step st most a s = some s') :
    CallInv st s' := by
  cases a with
  | start workspace =>
    simp only [step] at h
    split at h
    · cases h
    · next name rest hchain =>
      cases h
      have hnodup : (name :: rest).Nodup := hchain ▸ getAiClient_nodup st
      have hget : ∀ n c, (s.calls ++ [⟨workspace, .gate name rest⟩])[n]? = some c →
          s.calls[n]? = some c ∨ n = s.calls.length ∧ c.stage = .gate name rest := by
        intro n c hn
        rcases Nat.lt_or_ge n s.calls.length with hlt | hge
        · rw [List.getElem?_append_left hlt] at hn
          exact .inl hn
        · rw [List.getElem?_append_right hge] at hn
          obtain ⟨hzero, hc⟩ := List.getElem?_eq_some_iff.mp hn
          rw [List.length_singleton] at hzero
          refine .inr ⟨by omega, ?_⟩
          rw [← hc]
          simp
      refine
        { ok := fun n c hn => ?_
          used := fun n c hn => ?_
          asked := fun n c hn other => ?_
          fresh := fun n hn => hs.fresh n ?_ }
      · rcases hget n c hn with hn | ⟨-, hc⟩
        · exact hs.ok n c hn
        · rw [hc]
          exact hnodup
      · rcases hget n c hn with hn | ⟨rfl, -⟩
        · exact hs.used n c hn
        · exact ((hs.fresh _ (Nat.le_refl _)).1).trans_le (Nat.zero_le _)
      · rcases hget n c hn with hn | ⟨rfl, -⟩
        · exact hs.asked n c hn other
        · exact ((hs.fresh _ (Nat.le_refl _)).2 other).trans_le (Nat.zero_le _)
      · rw [List.length_append] at hn
        omega
  | gate n read =>
    simp only [step] at h
    split at h
    · next hn =>
      cases h
      exact callInv_enforceBudget hs hn rfl read
    · cases h
  | respond n r written =>
    simp only [step] at h
    split at h
    · next hn =>
      obtain ⟨-, rfl⟩ := guarded_eq_some.mp h
      exact callInv_attempt hs hn rfl written
    · cases h
  | tomorrow =>
    cases h
    exact { hs with }

/-- **A call** emits a usage once at most, whatever the providers answer and however often it fails
over, and makes no more attempts with a provider than its retries allow. -/
theorem calls_bounded (st : Settings) (most : ℚ) (day : ℕ) (σ : List Step) (n : ℕ) :
    let s := run (step st most) (.init day) σ
    usages n s.log ≤ 1 ∧ ∀ name, attempts n name s.log ≤ maxRetries st + 1 := by
  have h0 : CallInv st (.init day) :=
    { ok := fun n c h => by cases h
      used := fun n c h => by cases h
      asked := fun n c h => by cases h
      fresh := fun n _ => ⟨rfl, fun _ => rfl⟩ }
  have hs : CallInv st (run (step st most) (.init day) σ) :=
    run_invariant (fun _ _ _ hs h => callInv_step hs h) h0 σ
  dsimp only
  generalize run (step st most) (.init day) σ = s at hs ⊢
  cases hn : s.calls[n]? with
  | none =>
    obtain ⟨hzero, hnone⟩ := hs.fresh n (List.getElem?_eq_none_iff.mp hn)
    exact ⟨hzero.trans_le (Nat.zero_le 1), fun name => (hnone name).trans_le (Nat.zero_le _)⟩
  | some c =>
    refine ⟨(hs.used n c hn).trans (Bool.toNat_le _), fun name => ?_⟩
    exact (hs.asked n c hn name).trans (Stage.may_le st name (hs.ok n c hn))

end ScanPlatform.Ai

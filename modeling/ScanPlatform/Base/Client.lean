import Mathlib.Data.List.Basic

/-!
# Clients of a server

A client makes requests one after the other and goes on with the answer to each. The network between
the two may lose, repeat, delay and reorder what a client sends.

* `Client`, `Client.run`: clients, and their run against a server that answers from a state;
* `Client.trace`: the requests that a run makes and their answers;
* `Client.Asks`: the requests that a client can make, whatever it is answered;
* **`Client.run_invariant`**: what the answers to a client's requests preserve, its run preserves;
* **`Client.run_handled`**: a run is a sequence of handled requests that the client can make.
-/

set_option autoImplicit false

inductive Client (Req Ans α : Type) where
  | done (a : α)
  | call (req : Req) (next : Ans → Client Req Ans α)

namespace Client

variable {Req Ans α β : Type} {σ τ ε : Type}

def bind : Client Req Ans α → (α → Client Req Ans β) → Client Req Ans β
  | done a, f => f a
  | call req next, f => call req fun ans => (next ans).bind f

instance : Monad (Client Req Ans) where
  pure := done
  bind := bind

/-- Make one request. -/
def request (req : Req) : Client Req Ans Ans := call req done

/-- The state of the server after the client is done, and what the client returns. -/
def run (serve : Req → σ → σ × Ans) : Client Req Ans α → σ → σ × α
  | done a, s => (s, a)
  | call req next, s => run serve (next (serve req s).2) (serve req s).1

@[simp] theorem run_pure (serve : Req → σ → σ × Ans) (a : α) (s : σ) :
    run serve (pure a : Client Req Ans α) s = (s, a) := rfl

@[simp] theorem run_request (serve : Req → σ → σ × Ans) (req : Req) (s : σ) :
    run serve (request req) s = serve req s := rfl

@[simp] theorem run_bind (serve : Req → σ → σ × Ans) (c : Client Req Ans α)
    (f : α → Client Req Ans β) (s : σ) :
    run serve (c >>= f) s = run serve (f (run serve c s).2) (run serve c s).1 := by
  induction c generalizing s with
  | done a => rfl
  | call req next ih => exact ih (serve req s).2 (serve req s).1

/-- The requests of a run, each with its answer. -/
def trace (serve : Req → σ → σ × Ans) : Client Req Ans α → σ → List (Req × Ans)
  | done _, _ => []
  | call req next, s =>
    (req, (serve req s).2) :: trace serve (next (serve req s).2) (serve req s).1

@[simp] theorem trace_pure (serve : Req → σ → σ × Ans) (a : α) (s : σ) :
    trace serve (pure a : Client Req Ans α) s = [] := rfl

@[simp] theorem trace_request (serve : Req → σ → σ × Ans) (req : Req) (s : σ) :
    trace serve (request req) s = [(req, (serve req s).2)] := rfl

@[simp] theorem trace_bind (serve : Req → σ → σ × Ans) (c : Client Req Ans α)
    (f : α → Client Req Ans β) (s : σ) :
    trace serve (c >>= f) s =
      trace serve c s ++ trace serve (f (run serve c s).2) (run serve c s).1 := by
  induction c generalizing s with
  | done a => rfl
  | call req next ih => exact congrArg (_ :: ·) (ih (serve req s).2 (serve req s).1)

/-! ## What a client can ask -/

/-- The client can come to make the request. -/
inductive Asks (req : Req) : Client Req Ans α → Prop
  | here (next : Ans → Client Req Ans α) : Asks req (call req next)
  | later {other : Req} {next : Ans → Client Req Ans α} (ans : Ans) (h : Asks req (next ans)) :
    Asks req (call other next)

@[simp] theorem not_asks_pure (req : Req) (a : α) : ¬ Asks req (pure a : Client Req Ans α) := nofun

theorem asks_call {req other : Req} {next : Ans → Client Req Ans α} :
    Asks req (call other next) ↔ req = other ∨ ∃ ans, Asks req (next ans) := by
  constructor
  · intro h
    cases h with
    | here => exact .inl rfl
    | later ans h => exact .inr ⟨ans, h⟩
  · rintro (rfl | ⟨ans, h⟩)
    · exact .here next
    · exact .later ans h

@[simp] theorem asks_request_bind {req other : Req} {f : Ans → Client Req Ans β} :
    Asks req (request other >>= f) ↔ req = other ∨ ∃ ans, Asks req (f ans) := asks_call

@[simp] theorem asks_request {req other : Req} :
    Asks req (request other : Client Req Ans Ans) ↔ req = other := by
  refine asks_call.trans (or_iff_left ?_)
  rintro ⟨ans, h⟩
  cases h

/-- What a composed client asks, one of its parts asks. -/
theorem Asks.of_bind {req : Req} {c : Client Req Ans α} {f : α → Client Req Ans β}
    (h : Asks req (c >>= f)) : Asks req c ∨ ∃ a, Asks req (f a) := by
  induction c with
  | done a => exact .inr ⟨a, h⟩
  | call other next ih =>
    rcases asks_call.mp h with rfl | ⟨ans, h⟩
    · exact .inl (.here next)
    · exact (ih ans h).imp_left (.later ans)

/-! ## Rules for runs -/

/-- **What the answers to the requests of a client preserve, its run preserves.** -/
theorem run_invariant {serve : Req → σ → σ × Ans} {I : σ → Prop} {c : Client Req Ans α}
    (h : ∀ req, Asks req c → ∀ s, I s → I (serve req s).1) {s : σ} (hs : I s) :
    I (run serve c s).1 := by
  induction c generalizing s with
  | done a => exact hs
  | call req next ih =>
    exact ih _ (fun r hr => h r (.later _ hr)) (h req (.here next) s hs)

/-- **A run is a sequence of handled requests**, all of which the client can make, when the answer
to each request is one. -/
theorem run_handled {serve : Req → σ → σ × Ans} {state : σ → τ} {handle : τ → ε → τ}
    {label : ε → Req}
    (h : ∀ req s, ∃ es : List ε, state (serve req s).1 = es.foldl handle (state s) ∧
      ∀ e ∈ es, label e = req)
    (c : Client Req Ans α) (s : σ) :
    ∃ es : List ε, state (run serve c s).1 = es.foldl handle (state s) ∧
      ∀ e ∈ es, Asks (label e) c := by
  induction c generalizing s with
  | done a => exact ⟨[], rfl, List.forall_mem_nil _⟩
  | call req next ih =>
    obtain ⟨es, hes, hlabel⟩ := h req s
    obtain ⟨fs, hfs, hasks⟩ := ih (serve req s).2 (serve req s).1
    refine ⟨es ++ fs, ?_, fun e he => ?_⟩
    · rw [List.foldl_append, ← hes]
      exact hfs
    · rcases List.mem_append.mp he with he | he
      · exact hlabel e he ▸ .here next
      · exact .later _ (hasks e he)

end Client

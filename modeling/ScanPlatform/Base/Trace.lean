import Mathlib.Data.List.Induction

/-!
# Traces

What holds of every event of a trace, given the events before it.

* `Always`: every event satisfies a predicate of what comes before it;
* `always_concat`, `Always.append`: a trace that grows;
* `Always.of_append`: a trace that has gone wrong stays so;
* `last`, `last_concat`: what the last event of a kind says;
* `Answered`, `Answered.append`: when one event comes after another, so does a third.
-/

set_option autoImplicit false

namespace Trace

variable {A B : Type*} {P : List A → A → Prop} {tr new : List A} {e : A}

/-- Every event satisfies `P` of the events before it. -/
def Always (P : List A → A → Prop) (tr : List A) : Prop :=
  ∀ before e after, tr = before ++ e :: after → P before e

theorem always_concat : Always P (tr ++ [e]) ↔ Always P tr ∧ P tr e := by
  constructor
  · intro h
    refine ⟨fun before e' after heq => h before e' (after ++ [e]) ?_, h tr e [] rfl⟩
    rw [heq, List.append_assoc, List.cons_append]
  · rintro ⟨h, he⟩ before e' after heq
    rcases List.eq_nil_or_concat after with rfl | ⟨after', last, rfl⟩
    · obtain ⟨rfl, hlast⟩ := List.append_inj' heq rfl
      obtain rfl : e = e' := List.head_eq_of_cons_eq hlast
      exact he
    · rw [List.concat_eq_append, ← List.cons_append, ← List.append_assoc] at heq
      exact h before e' after' (List.append_inj' heq rfl).1

/-- Events that satisfy the predicate whatever comes before them. -/
theorem Always.append (h : Always P tr) (hnew : ∀ e ∈ new, ∀ before, P before e) :
    Always P (tr ++ new) := by
  induction new using List.reverseRecOn with
  | nil => rwa [List.append_nil]
  | append_singleton new e ih =>
    rw [← List.append_assoc, always_concat]
    refine ⟨ih fun e' he' => hnew e' (List.mem_append_left _ he'), hnew e ?_ _⟩
    exact List.mem_append_right _ List.mem_cons_self

/-- What goes wrong in a part goes wrong in the whole. -/
theorem Always.of_append (h : Always P (tr ++ new)) : Always P tr := by
  intro before e after heq
  refine h before e (after ++ new) ?_
  rw [heq, List.append_assoc, List.cons_append]

/-! ## The last event of a kind -/

/-- What the last event says that `f` reads. -/
def last (f : A → Option B) (tr : List A) : Option B := (tr.filterMap f).getLast?

theorem last_concat (f : A → Option B) (tr : List A) (e : A) :
    last f (tr ++ [e]) = (f e).or (last f tr) := by
  unfold last
  rw [List.filterMap_append, List.getLast?_append]
  cases he : f e with
  | none => simp [he]
  | some b => simp [he]

/-! ## Events after others -/

/-- When `q` comes after an event that satisfies `p`, so does `r`. -/
def Answered (p : A → Prop) (q r : A) (tr : List A) : Prop :=
  ∀ before e after, tr = before ++ e :: after → p e → q ∈ after → r ∈ after

variable {p : A → Prop} {q r : A}

/-- The trace goes on without `q`. -/
theorem Answered.append (h : Answered p q r tr) (hq : q ∉ new) : Answered p q r (tr ++ new) := by
  intro before e after heq hp hmem
  rcases List.append_eq_append_iff.mp heq with ⟨between, -, rfl⟩ | ⟨between, rfl, hnew⟩
  · exact absurd (List.mem_append_right _ (List.mem_cons_of_mem _ hmem)) hq
  · cases between with
    | nil =>
      obtain rfl : e :: after = new := hnew
      exact absurd (List.mem_cons_of_mem _ hmem) hq
    | cons e' between =>
      obtain ⟨rfl, rfl⟩ := List.cons.inj hnew
      have hbetween := (List.mem_append.mp hmem).resolve_right hq
      exact List.mem_append_left _ (h before e between rfl hp hbetween)

end Trace

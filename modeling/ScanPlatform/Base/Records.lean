import Mathlib.Data.List.Basic
import Mathlib.Data.List.Count

/-!
# Parts of a stream

A stream is cut at a separator into the records that it ends and the rest that it does not end, or
where the n-th element of a kind ends.

* `records`, `remainder`: the parts of a stream;
* **`stream_induction`**: a stream is a rest, or a record and a stream;
* `records_append_sep`, **`records_begin`**: the records of the beginning of a stream;
* `nthEnd`: the length of the shortest prefix that holds `n` elements of the kind;
* `nthEnd_isSome`, `nthEnd_le`: when there is one, and how long it is;
* **`nthEnd_append`**: a list in two parts;
* `cutAt`, **`cutAt_eq`**: looking for one element after the other.
-/

set_option autoImplicit false

namespace Records

variable {α : Type*} [DecidableEq α] {sep : α} {s t : List α}

/-- The records of a stream, and the rest. -/
def cutRecords (sep : α) : List α → List (List α) × List α
  | [] => ([], [])
  | c :: s =>
    if c = sep then ([] :: (cutRecords sep s).1, (cutRecords sep s).2)
    else
      match cutRecords sep s with
      | ([], rest) => ([], c :: rest)
      | (record :: records, rest) => ((c :: record) :: records, rest)

/-- The records that a separator ends. -/
def records (sep : α) (s : List α) : List (List α) := (cutRecords sep s).1

/-- What comes after the last separator. -/
def remainder (sep : α) (s : List α) : List α := (cutRecords sep s).2

theorem cutRecords_of_not_mem (h : sep ∉ s) : cutRecords sep s = ([], s) := by
  induction s with
  | nil => rfl
  | cons c s ih =>
    obtain ⟨hc, hs⟩ := not_or.mp (fun hmem => h (List.mem_cons.mpr hmem))
    rw [cutRecords, if_neg fun heq => hc heq.symm, ih hs]

theorem cutRecords_append_sep (h : sep ∉ s) (t : List α) :
    cutRecords sep (s ++ sep :: t) = (s :: records sep t, remainder sep t) := by
  induction s with
  | nil => exact if_pos rfl
  | cons c s ih =>
    obtain ⟨hc, hs⟩ := not_or.mp (fun hmem => h (List.mem_cons.mpr hmem))
    rw [List.cons_append, cutRecords, if_neg fun heq => hc heq.symm, ih hs]

theorem records_of_not_mem (h : sep ∉ s) : records sep s = [] := by
  rw [records, cutRecords_of_not_mem h]

theorem remainder_of_not_mem (h : sep ∉ s) : remainder sep s = s := by
  rw [remainder, cutRecords_of_not_mem h]

theorem records_cons (h : sep ∉ s) (t : List α) :
    records sep (s ++ sep :: t) = s :: records sep t := by
  rw [records, cutRecords_append_sep h]

theorem remainder_cons (h : sep ∉ s) (t : List α) :
    remainder sep (s ++ sep :: t) = remainder sep t := by
  rw [remainder, cutRecords_append_sep h]

/-- **A stream** is a rest, or a record and a stream. -/
theorem stream_induction (sep : α) {P : List α → Prop} (rest : ∀ s, sep ∉ s → P s)
    (record : ∀ s t, sep ∉ s → P t → P (s ++ sep :: t)) (s : List α) : P s := by
  induction hlen : s.length using Nat.strongRecOn generalizing s with
  | ind n ih =>
    by_cases hmem : sep ∈ s
    · obtain ⟨a, b, rfl, ha⟩ := List.eq_append_cons_of_mem hmem
      refine record a b ha (ih b.length ?_ b rfl)
      rw [List.length_append, List.length_cons] at hlen
      omega
    · exact rest s hmem

/-- The records of two streams, the first of which is ended. -/
theorem records_append_sep (s t : List α) :
    records sep (s ++ sep :: t) = records sep s ++ remainder sep s :: records sep t := by
  induction s using stream_induction sep with
  | rest s hs => rw [records_cons hs, records_of_not_mem hs, remainder_of_not_mem hs]; rfl
  | record s s' hs ih =>
    rw [List.append_assoc, List.cons_append, records_cons hs, ih, records_cons hs,
      remainder_cons hs, List.cons_append]

/-- **The records of the beginning of a stream** are the first ones of the stream. -/
theorem records_begin (s t : List α) : records sep s <+: records sep (s ++ t) := by
  induction s using stream_induction sep with
  | rest s hs =>
    rw [records_of_not_mem hs]
    exact List.nil_prefix
  | record s s' hs ih =>
    rw [List.append_assoc, List.cons_append, records_cons hs, records_cons hs]
    exact List.cons_prefix_cons.mpr ⟨rfl, ih⟩

end Records

namespace NthEnd

variable {α : Type*} {p : α → Bool} {n e : ℕ} {l l' : List α}

/-- The length of the shortest prefix with `n` elements that satisfy `p`. -/
def nthEnd (p : α → Bool) : ℕ → List α → Option ℕ
  | 0, _ => some 0
  | _ + 1, [] => none
  | n + 1, a :: l => (nthEnd p (if p a then n else n + 1) l).map (· + 1)

@[simp] theorem nthEnd_zero (l : List α) : nthEnd p 0 l = some 0 := by
  cases l <;> rfl

theorem nthEnd_isSome (n : ℕ) (l : List α) : (nthEnd p n l).isSome ↔ n ≤ l.countP p := by
  induction l generalizing n with
  | nil => cases n <;> simp [nthEnd]
  | cons a l ih =>
    cases n with
    | zero => simp
    | succ n =>
      rw [nthEnd, Option.isSome_map, ih, List.countP_cons]
      split_ifs <;> omega

theorem nthEnd_eq_none : nthEnd p n l = none ↔ l.countP p < n := by
  rw [← Option.not_isSome_iff_eq_none, nthEnd_isSome, Nat.not_le]

theorem nthEnd_le (h : nthEnd p n l = some e) : e ≤ l.length := by
  induction l generalizing n e with
  | nil =>
    cases n with
    | zero => cases h; exact Nat.le_refl _
    | succ n => cases h
  | cons a l ih =>
    cases n with
    | zero => cases h; exact Nat.zero_le _
    | succ n =>
      obtain ⟨e', he', rfl⟩ := Option.map_eq_some_iff.mp h
      exact Nat.succ_le_succ (ih he')

/-- A positive number of elements takes up some length. -/
theorem nthEnd_pos (h : nthEnd p (n + 1) l = some e) : 0 < e := by
  cases l with
  | nil => cases h
  | cons a l =>
    obtain ⟨e', -, rfl⟩ := Option.map_eq_some_iff.mp h
    exact Nat.succ_pos e'

/-- **A list in two parts**: the prefix ends in the first part, or as far in the second one as what
is missing takes. -/
theorem nthEnd_append (n : ℕ) (l l' : List α) : nthEnd p n (l ++ l') =
    if n ≤ l.countP p then nthEnd p n l
    else (nthEnd p (n - l.countP p) l').map (l.length + ·) := by
  induction l generalizing n with
  | nil =>
    cases n with
    | zero => simp
    | succ n => simp
  | cons a l ih =>
    cases n with
    | zero => simp
    | succ n =>
      rw [List.cons_append, nthEnd, ih, List.countP_cons, nthEnd]
      by_cases ha : p a
      · have hle : n + 1 ≤ l.countP p + 1 ↔ n ≤ l.countP p := by omega
        simp only [ha, if_true, hle]
        split_ifs
        · rfl
        · rw [Option.map_map, Nat.add_sub_add_right]
          congr 1
          funext e
          simp only [Function.comp_apply, List.length_cons]
          omega
      · simp only [ha, Bool.false_eq_true, if_false, Nat.add_zero]
        split_ifs
        · rfl
        · rw [Option.map_map]
          congr 1
          funext e
          simp only [Function.comp_apply, List.length_cons]
          omega

/-! ## One element after the other -/

/-- Where a search that is repeated `n` times, each time from where the last one has ended, ends. -/
def cutAt (p : α → Bool) : ℕ → List α → ℕ
  | 0, _ => 0
  | n + 1, l => l.findIdx p + 1 + cutAt p n (l.drop (l.findIdx p + 1))

theorem nthEnd_succ (h : 0 < l.countP p) : nthEnd p (n + 1) l =
    (nthEnd p n (l.drop (l.findIdx p + 1))).map (l.findIdx p + 1 + ·) := by
  induction l with
  | nil => exact absurd h (Nat.lt_irrefl 0)
  | cons a l ih =>
    rw [nthEnd, List.findIdx_cons]
    by_cases ha : p a
    · simp only [ha, if_true, cond_true, Nat.zero_add, List.drop_one, List.tail_cons]
      congr 1
      funext e
      exact Nat.add_comm e 1
    · have hl : 0 < l.countP p := by
        rwa [List.countP_cons_of_neg ha] at h
      simp only [ha, Bool.false_eq_true, if_false, cond_false, List.drop_succ_cons]
      rw [ih hl, Option.map_map]
      congr 1
      funext e
      simp only [Function.comp_apply]
      omega

/-- **The repeated search** finds the end of the prefix. -/
theorem cutAt_eq (h : nthEnd p n l = some e) : cutAt p n l = e := by
  induction n generalizing l e with
  | zero =>
    rw [nthEnd_zero] at h
    exact Option.some.inj h
  | succ n ih =>
    have hsome : (nthEnd p (n + 1) l).isSome := by rw [h]; rfl
    have hpos : 0 < l.countP p := Nat.lt_of_lt_of_le (Nat.succ_pos n) ((nthEnd_isSome _ _).mp hsome)
    rw [nthEnd_succ hpos] at h
    obtain ⟨e', he', rfl⟩ := Option.map_eq_some_iff.mp h
    rw [cutAt, ih he']

end NthEnd

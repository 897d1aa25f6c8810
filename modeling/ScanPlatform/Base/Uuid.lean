import Mathlib.Algebra.Group.Nat.Defs
import Mathlib.Data.List.FinRange
import ScanPlatform.Base.PyStr

/-!
# UUIDs and their text forms

`uuid.UUID(hex)` of Python: the prefixes `urn:` and `uuid:`, curly braces and hyphens are dropped
and the 32 characters left are read by `int(hex, 16)`, which allows a sign, surrounding
blanks, the prefix `0x` and single underscores between digits.
-/

set_option autoImplicit false

abbrev Uuid := BitVec 128

namespace Uuid

open PyStr

/-- `s.replace(pat, "")` on the characters of `s`; `skip` counts what is left of a match. -/
def removeAll (pat : List Char) (skip : ℕ) : List Char → List Char
  | [] => []
  | c :: cs =>
    match skip with
    | k + 1 => removeAll pat k cs
    | 0 =>
      if pat.isPrefixOf (c :: cs) then removeAll pat (pat.length - 1) cs
      else c :: removeAll pat 0 cs

/-- Digits with single underscores between them, `acc` being the value read so far. -/
def hexDigits (acc : ℕ) : List Char → Option ℕ
  | [] => some acc
  | '_' :: c :: cs => (hexDigit c).bind fun d => hexDigits (16 * acc + d) cs
  | c :: cs => (hexDigit c).bind fun d => hexDigits (16 * acc + d) cs

/-- `int(s, 16)` for a text without a minus sign. -/
def intOfHex (s : List Char) : Option ℕ :=
  let s := stripChars isSpace s
  let s := match s with
    | '+' :: cs => cs
    | cs => cs
  let s := match s with
    | '0' :: 'x' :: '_' :: cs | '0' :: 'X' :: '_' :: cs => cs
    | '0' :: 'x' :: cs | '0' :: 'X' :: cs => cs
    | cs => cs
  match s with
  | [] => none
  | c :: cs => (hexDigit c).bind fun d => hexDigits d cs

/-- `uuid.UUID(hex)`; `none` is the `ValueError` of a badly formed text. -/
def ofHex (hex : String) : Option Uuid :=
  let s := removeAll "uuid:".toList 0 (removeAll "urn:".toList 0 hex.toList)
  let s := (stripChars (fun c => c = '{' ∨ c = '}') s).filter (· ≠ '-')
  if s.length = 32 then (intOfHex s).map (BitVec.ofNat 128) else none

/-- The `i`-th hexadecimal digit from the right. -/
def digit (u : Uuid) (i : ℕ) : Char := Nat.digitChar (u.toNat / 16 ^ i % 16)

/-- `str(u)`. -/
def str (u : Uuid) : String :=
  let ds := (List.range 32).map fun i => digit u (31 - i)
  String.ofList (ds.take 8 ++ '-' :: (ds.drop 8).take 4 ++ '-' :: (ds.drop 12).take 4 ++
    '-' :: (ds.drop 16).take 4 ++ '-' :: ds.drop 20)

example : ofHex (str 0x0123456789abcdef) = some 0x0123456789abcdef := by decide

example : ofHex "{00000000-0000-0000-0000-00000000002A}" = some 42 := by decide

example : ofHex "not-a-site" = none := by decide

/-- The hexadecimal digits of a number tell it up to its size. -/
theorem mod_pow_eq {m n : ℕ} {k : ℕ} (h : ∀ i < k, m / 16 ^ i % 16 = n / 16 ^ i % 16) :
    m % 16 ^ k = n % 16 ^ k := by
  induction k with
  | zero => simp [Nat.mod_one]
  | succ k ih =>
    rw [Nat.mod_pow_succ, Nat.mod_pow_succ, ih fun i hi => h i (Nat.lt_succ_of_lt hi),
      h k (Nat.lt_succ_self k)]

theorem digit_eq_iff {u v : Uuid} {i : ℕ} :
    digit u i = digit v i ↔ u.toNat / 16 ^ i % 16 = v.toNat / 16 ^ i % 16 := by
  have hchars : ∀ a < 16, ∀ b < 16, Nat.digitChar a = Nat.digitChar b → a = b := by decide
  refine ⟨hchars _ (Nat.mod_lt _ (by decide)) _ (Nat.mod_lt _ (by decide)), fun h => ?_⟩
  unfold digit
  rw [h]

theorem length_str (u : Uuid) : (str u).toList.length = 36 := by
  simp [str]

/-- **The text of a UUID tells it.** -/
theorem str_injective : Function.Injective str := by
  intro u v h
  have hlist := String.ofList_injective h
  have hdigits : (List.range 32).map (fun i => digit u (31 - i)) =
      (List.range 32).map fun i => digit v (31 - i) := by
    simp only [List.range, List.range.loop, List.map_cons, List.map_nil, List.take_succ_cons,
      List.take_zero, List.drop_succ_cons, List.drop_zero, List.cons_append, List.nil_append,
      List.cons.injEq, true_and, and_true] at hlist ⊢
    exact hlist
  have hmod := @mod_pow_eq u.toNat v.toNat 32 fun i hi => by
    have hi' := List.map_inj_left.mp hdigits (31 - i) (List.mem_range.mpr (by omega))
    rw [Nat.sub_sub_self (by omega)] at hi'
    exact digit_eq_iff.mp hi'
  rw [Nat.mod_eq_of_lt (by simpa using u.isLt), Nat.mod_eq_of_lt (by simpa using v.isLt)] at hmod
  exact BitVec.eq_of_toNat_eq hmod

/-- No text of a UUID begins with that of another. -/
theorem str_prefix_append_iff {u v : Uuid} {rest : List Char} :
    (str u).toList <+: (str v).toList ++ rest ↔ u = v := by
  constructor
  · intro h
    have hle : (str u).toList.length ≤ (str v).toList.length := by rw [length_str, length_str]
    have heq := (List.prefix_of_prefix_length_le h (List.prefix_append _ _) hle).eq_of_length
      (by rw [length_str, length_str])
    exact str_injective (String.toList_inj.mp heq)
  · rintro rfl
    exact List.prefix_append _ _

/-- The UUIDs can be listed from any of them on. -/
theorem exists_order (u : Uuid) : ∃ rest, (u :: rest).Nodup ∧ ∀ v, v ∈ u :: rest := by
  let all : List Uuid := (List.finRange (2 ^ 128)).map BitVec.ofFin
  have hall : ∀ v : Uuid, v ∈ all := fun v =>
    List.mem_map.mpr ⟨v.toFin, List.mem_finRange _, rfl⟩
  have hnodup : all.Nodup :=
    (List.nodup_finRange _).map fun _ _ h => congrArg BitVec.toFin h
  refine ⟨all.erase u, List.nodup_cons.mpr ⟨hnodup.not_mem_erase, hnodup.erase u⟩, fun v => ?_⟩
  by_cases hv : v = u
  · exact hv ▸ List.mem_cons_self
  · exact List.mem_cons_of_mem _ ((List.mem_erase_of_ne hv).mpr (hall v))

end Uuid

import Mathlib.Algebra.Ring.Nat
import Mathlib.Data.List.Basic

/-!
# Bytes read as UTF-8

`bytes.decode(errors="replace")`: a character for each sequence of bytes that stands for one, and
U+FFFD for the longest beginning of such a sequence that the bytes go on with.

* `trail`, `mayFollow`, `continuation`, `character`, `decode`: the decoder;
* `continuation_append`, **`decode_append`**: the bytes are read apart at a byte of ASCII.
-/

set_option autoImplicit false

namespace Utf8

/-- How many bytes are to follow the first byte of a character. -/
def trail (lead : UInt8) : ℕ :=
  if 0xC2 ≤ lead ∧ lead ≤ 0xDF then 1
  else if 0xE0 ≤ lead ∧ lead ≤ 0xEF then 2
  else if 0xF0 ≤ lead ∧ lead ≤ 0xF4 then 3
  else 0

def isTail (b : UInt8) : Bool := 0x80 ≤ b ∧ b ≤ 0xBF

/-- The second byte rules out the long forms, the surrogates, and what is above U+10FFFF. -/
def mayFollow (lead b : UInt8) : Bool :=
  if lead = 0xE0 then 0xA0 ≤ b ∧ b ≤ 0xBF
  else if lead = 0xED then 0x80 ≤ b ∧ b ≤ 0x9F
  else if lead = 0xF0 then 0x90 ≤ b ∧ b ≤ 0xBF
  else if lead = 0xF4 then 0x80 ≤ b ∧ b ≤ 0x8F
  else isTail b

/-- The bytes that go on with the character of a first byte. -/
def continuation (lead : UInt8) : List UInt8 → List UInt8
  | [] => []
  | b :: bs =>
    if 0 < trail lead ∧ mayFollow lead b then b :: (bs.take (trail lead - 1)).takeWhile isTail
    else []

/-- The character of a first byte and of the bytes that go on with it. -/
def character (lead : UInt8) (tail : List UInt8) : Char :=
  if lead < 0x80 then Char.ofNat lead.toNat
  else if 0 < trail lead ∧ tail.length = trail lead then
    Char.ofNat (tail.foldl (fun n b => n * 64 + b.toNat % 64) (lead.toNat % 2 ^ (6 - trail lead)))
  else '\ufffd'

/-- The characters of the bytes after the first `skip`. -/
def decodeFrom : ℕ → List UInt8 → List Char
  | _, [] => []
  | skip + 1, _ :: bs => decodeFrom skip bs
  | 0, lead :: bs =>
    character lead (continuation lead bs) :: decodeFrom (continuation lead bs).length bs

/-- `bs.decode(errors="replace")`. -/
def decode (bs : List UInt8) : List Char := decodeFrom 0 bs

variable {lead b : UInt8}

theorem not_le_ascii (hb : b < 0x80) {low : UInt8} (hlow : 0x80 ≤ low) : ¬ low ≤ b := by
  intro hle
  have hlt := UInt8.lt_iff_toNat_lt.mp hb
  have hlow' := UInt8.le_iff_toNat_le.mp hlow
  have hle' := UInt8.le_iff_toNat_le.mp hle
  omega

theorem not_isTail (hb : b < 0x80) : isTail b = false := by
  simp [isTail, not_le_ascii hb (show 0x80 ≤ 0x80 by decide)]

theorem not_mayFollow (hb : b < 0x80) (lead : UInt8) : mayFollow lead b = false := by
  have h80 : ¬ 0x80 ≤ b := not_le_ascii hb (by decide)
  have h90 : ¬ 0x90 ≤ b := not_le_ascii hb (by decide)
  have ha0 : ¬ 0xA0 ≤ b := not_le_ascii hb (by decide)
  unfold mayFollow
  split_ifs
  · simp [ha0]
  · simp [h80]
  · simp [h90]
  · simp [h80]
  · exact not_isTail hb

theorem trail_ascii (hb : b < 0x80) : trail b = 0 := by
  unfold trail
  rw [if_neg fun h => not_le_ascii hb (by decide) h.1,
    if_neg fun h => not_le_ascii hb (by decide) h.1,
    if_neg fun h => not_le_ascii hb (by decide) h.1]

/-- A byte of ASCII does not go on with a character. -/
theorem continuation_append (hb : b < 0x80) (lead : UInt8) (as bs : List UInt8) :
    continuation lead (as ++ b :: bs) = continuation lead as := by
  cases as with
  | nil => simp [continuation, not_mayFollow hb]
  | cons a as =>
    have htake : ∀ (as : List UInt8) (n : ℕ),
        ((as ++ b :: bs).take n).takeWhile isTail = (as.take n).takeWhile isTail := by
      intro as
      induction as with
      | nil =>
        intro n
        cases n with
        | zero => rfl
        | succ n => simp [not_isTail hb]
      | cons a as ih =>
        intro n
        cases n with
        | zero => rfl
        | succ n => simp [List.takeWhile_cons, ih n]
    simp only [List.cons_append, continuation, htake]

theorem continuation_length_le (lead : UInt8) (bs : List UInt8) :
    (continuation lead bs).length ≤ bs.length := by
  cases bs with
  | nil => exact Nat.le_refl _
  | cons b bs =>
    unfold continuation
    dsimp only
    split_ifs
    · have htail := (List.takeWhile_sublist (l := bs.take (trail lead - 1)) isTail).length_le
      have htake := List.length_take_le' (trail lead - 1) bs
      simp only [List.length_cons]
      omega
    · exact Nat.zero_le _

theorem decodeFrom_append (hb : b < 0x80) (bs : List UInt8) {as : List UInt8} {skip : ℕ}
    (hskip : skip ≤ as.length) :
    decodeFrom skip (as ++ b :: bs) = decodeFrom skip as ++ decodeFrom 0 (b :: bs) := by
  induction as generalizing skip with
  | nil =>
    obtain rfl : skip = 0 := Nat.le_zero.mp hskip
    rfl
  | cons a as ih =>
    cases skip with
    | succ skip => exact ih (Nat.le_of_succ_le_succ hskip)
    | zero =>
      rw [List.cons_append, decodeFrom.eq_3, continuation_append hb,
        ih (continuation_length_le a as), decodeFrom.eq_3 a, List.cons_append]

/-- **The bytes are read apart at a byte of ASCII.** -/
theorem decode_append (hb : b < 0x80) (as bs : List UInt8) :
    decode (as ++ b :: bs) = decode as ++ Char.ofNat b.toNat :: decode bs := by
  have hnone : continuation b bs = [] := by
    cases bs with
    | nil => rfl
    | cons c bs => simp [continuation, trail_ascii hb]
  rw [decode, decodeFrom_append hb bs (Nat.zero_le _), decodeFrom.eq_3, hnone, character,
    if_pos hb]
  rfl

/-- The beginning of a character that does not end, and a byte that begins none. -/
example : decode [0x61, 0xE2, 0x82, 0x62, 0xC3, 0xA9, 0xFF] =
    ['a', '\ufffd', 'b', 'é', '\ufffd'] := by
  decide

end Utf8

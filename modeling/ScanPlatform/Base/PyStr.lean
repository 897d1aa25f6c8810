import Mathlib.Data.List.DropRight

/-!
# Python string methods

`str.strip`, `str.lower` and `str.split`, on the characters of a Lean string. Lower-casing is that
of ASCII letters.

* `strip_strip`, `strip_ne_empty`: what is left to strip;
* `lower_lower`, **`strip_lower`**: lower-casing, which commutes with stripping.
-/

set_option autoImplicit false

namespace PyStr

/-- `s.strip(chars)`. -/
def stripChars (p : Char → Bool) (s : List Char) : List Char :=
  ((s.dropWhile p).reverse.dropWhile p).reverse

/-- `c.isspace()`. -/
def isSpace (c : Char) : Bool :=
  c ∈ ['\t', '\n', '\x0b', '\x0c', '\r', '\x1c', '\x1d', '\x1e', '\x1f', ' ', '\x85', '\xa0',
    '\u1680', '\u2028', '\u2029', '\u202f', '\u205f', '\u3000'] ∨ '\u2000' ≤ c ∧ c ≤ '\u200a'

def strip (s : String) : String := String.ofList (stripChars isSpace s.toList)

def lower (s : String) : String := String.ofList (s.toList.map Char.toLower)

/-- `s.split(sep)`. -/
def split (sep : Char) (s : String) : List String := (s.toList.splitOn sep).map String.ofList

/-- `s.split()`. -/
def words (s : String) : List String :=
  ((s.toList.splitOnP isSpace).filter (· ≠ [])).map String.ofList

/-- The value of a hexadecimal digit. -/
def hexDigit (c : Char) : Option ℕ :=
  if '0' ≤ c ∧ c ≤ '9' then some (c.toNat - '0'.toNat)
  else if 'a' ≤ c ∧ c ≤ 'f' then some (c.toNat - 'a'.toNat + 10)
  else if 'A' ≤ c ∧ c ≤ 'F' then some (c.toNat - 'A'.toNat + 10)
  else none

/-- `s.split(pat, 1)[1]`, if `pat` occurs in `s`. -/
def afterFirst (pat : List Char) : List Char → Option (List Char)
  | [] => none
  | c :: cs =>
    if pat.isPrefixOf (c :: cs) then some ((c :: cs).drop pat.length) else afterFirst pat cs

/-- `pat in s`. -/
def contains (s pat : String) : Bool := (afterFirst pat.toList s.toList).isSome || pat = ""

/-- `s[:n]`. -/
def upTo (n : ℕ) (s : String) : String := String.ofList (s.toList.take n)

/-- `s[-n:]`, for a positive `n`. -/
def lastOf (n : ℕ) (s : String) : String := String.ofList (s.toList.drop (s.length - n))

/-- `s.startswith(p)`. -/
def startsWith (s p : String) : Bool := p.toList.isPrefixOf s.toList

theorem dropWhile_stripChars (p : Char → Bool) (s : List Char) :
    (stripChars p s).dropWhile p = stripChars p s := by
  have hpre : stripChars p s <+: s.dropWhile p := List.rdropWhile_prefix p _
  cases hstrip : stripChars p s with
  | nil => rfl
  | cons c l =>
    rw [hstrip] at hpre
    obtain ⟨l', hl'⟩ := hpre
    have hhead := List.head_dropWhile_not p (l := s) (by rw [← hl']; exact List.cons_ne_nil _ _)
    refine List.dropWhile_cons_of_neg ?_
    simpa [← hl'] using hhead

/-- There is nothing left to strip. -/
theorem stripChars_stripChars (p : Char → Bool) (s : List Char) :
    stripChars p (stripChars p s) = stripChars p s := by
  have hright : (stripChars p s).rdropWhile p = stripChars p s := List.rdropWhile_idempotent p _
  calc stripChars p (stripChars p s) = ((stripChars p s).dropWhile p).rdropWhile p := rfl
    _ = stripChars p s := by rw [dropWhile_stripChars, hright]

theorem mem_dropWhile {p : Char → Bool} {c : Char} {s : List Char} (hc : c ∈ s)
    (hp : p c = false) : c ∈ s.dropWhile p := by
  induction s with
  | nil => cases hc
  | cons d s ih =>
    rw [List.dropWhile_cons]
    split_ifs with hd
    · rcases List.mem_cons.mp hc with rfl | hc
      · simp [hp] at hd
      · exact ih hc
    · exact hc

/-- A text with a character that is not stripped is not empty afterwards. -/
theorem strip_ne_empty {s : String} {c : Char} (hc : c ∈ s.toList) (hspace : isSpace c = false) :
    strip s ≠ "" := by
  have hmem : c ∈ stripChars isSpace s.toList := by
    unfold stripChars
    rw [List.mem_reverse]
    exact mem_dropWhile (List.mem_reverse.mpr (mem_dropWhile hc hspace)) hspace
  intro h
  have hnil : stripChars isSpace s.toList = [] := String.ofList_injective (h.trans rfl)
  rw [hnil] at hmem
  cases hmem

theorem strip_strip (s : String) : strip (strip s) = strip s := by
  unfold strip
  rw [String.toList_ofList, stripChars_stripChars]

example : (split ';' "text/html; charset").map strip = ["text/html", "charset"] := by decide

example : lower (strip " VPN\n") = "vpn" := by decide

/-! ## Lower case -/

/-- The printable characters of ASCII are no spaces. -/
theorem isSpace_eq_false {c : Char} (h : 33 ≤ c.toNat) (h' : c.toNat ≤ 126) :
    isSpace c = false := by
  have hne : ∀ d : Char, d.toNat < 33 ∨ 126 < d.toNat → c ≠ d := by
    rintro d hd rfl
    omega
  have hle : ¬ '\u2000' ≤ c := by
    rw [Char.le_def, UInt32.le_iff_toNat_le]
    change ¬ 0x2000 ≤ c.toNat
    omega
  unfold isSpace
  rw [decide_eq_false_iff_not]
  rintro (hmem | hrange)
  · simp only [List.mem_cons, List.not_mem_nil, or_false] at hmem
    rcases hmem with h | h | h | h | h | h | h | h | h | h | h | h | h | h | h | h | h | h <;>
      exact hne _ (by decide) h
  · exact hle hrange.1

theorem toNat_toLower (c : Char) : c.toLower.toNat =
    if 65 ≤ c.toNat ∧ c.toNat ≤ 90 then c.toNat + 32 else c.toNat := by
  unfold Char.toLower
  have hiff : (c.val ≥ 'A'.val ∧ c.val ≤ 'Z'.val) ↔ 65 ≤ c.toNat ∧ c.toNat ≤ 90 := by
    rw [ge_iff_le, UInt32.le_iff_toNat_le, UInt32.le_iff_toNat_le]
    rfl
  split_ifs with h h' h'
  · change (c.val + ('a'.val - 'A'.val)).toNat = c.toNat + 32
    rw [UInt32.toNat_add]
    change (c.toNat + 32) % 2 ^ 32 = _
    exact Nat.mod_eq_of_lt (by omega)
  · exact absurd (hiff.mp h) h'
  · exact absurd (hiff.mpr h') h
  · rfl

theorem isSpace_toLower (c : Char) : isSpace c.toLower = isSpace c := by
  by_cases h : 65 ≤ c.toNat ∧ c.toNat ≤ 90
  · have hlower := toNat_toLower c
    rw [if_pos h] at hlower
    rw [isSpace_eq_false (by omega) (by omega), isSpace_eq_false (by omega) (by omega)]
  · have hlower := toNat_toLower c
    rw [if_neg h] at hlower
    rw [Char.toNat_inj.mp hlower]

theorem toLower_toLower (c : Char) : c.toLower.toLower = c.toLower := by
  apply Char.toNat_inj.mp
  rw [toNat_toLower c.toLower, toNat_toLower c]
  split_ifs <;> omega

theorem stripChars_map {f : Char → Char} {p : Char → Bool} (h : ∀ c, p (f c) = p c)
    (s : List Char) : stripChars p (s.map f) = (stripChars p s).map f := by
  have hp : p ∘ f = p := funext h
  unfold stripChars
  rw [List.dropWhile_map, hp, ← List.map_reverse, List.dropWhile_map, hp, ← List.map_reverse]

/-- Stripping and lower-casing commute. -/
theorem strip_lower (s : String) : strip (lower s) = lower (strip s) := by
  unfold strip lower
  rw [String.toList_ofList, String.toList_ofList, stripChars_map isSpace_toLower]

theorem lower_lower (s : String) : lower (lower s) = lower s := by
  unfold lower
  rw [String.toList_ofList, List.map_map]
  exact congrArg String.ofList (List.map_congr_left fun c _ => toLower_toLower c)
/-! ## Parts -/

theorem afterFirst_isSome {pat : List Char} (hne : pat ≠ []) {s : List Char} :
    (afterFirst pat s).isSome ↔ pat <:+: s := by
  induction s with
  | nil => simp [afterFirst, hne]
  | cons c s ih =>
    rw [afterFirst, List.infix_cons_iff]
    by_cases hpre : pat <+: c :: s
    · rw [if_pos (List.isPrefixOf_iff_prefix.mpr hpre)]
      exact ⟨fun _ => .inl hpre, fun _ => rfl⟩
    · rw [if_neg fun h => hpre (List.isPrefixOf_iff_prefix.mp h), ih]
      exact ⟨.inr, fun h => h.resolve_left hpre⟩

/-- `pat in s` finds `pat` among the parts of `s`. -/
theorem contains_iff {s pat : String} (hne : pat ≠ "") :
    contains s pat = true ↔ pat.toList <:+: s.toList := by
  have hlist : pat.toList ≠ [] := by simpa using hne
  unfold contains
  rw [decide_eq_false hne, Bool.or_false, afterFirst_isSome hlist]

end PyStr

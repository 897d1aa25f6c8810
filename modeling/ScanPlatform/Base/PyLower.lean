import Mathlib.Data.List.Forall2
import ScanPlatform.Base.PyText

/-!
# Lower-casing and punctuation

Lower-casing may turn a character into several, and what becomes of a character may depend on those
around it. But punctuation and spaces stay as they are, nothing becomes punctuation or a space, and
lower case stays lower case.

* `isMark`, `Python.Lawful`: the characters that stay, and what is known of `str.lower`;
* `lower_split`, **`mem_lower`**, **`infix_of_lower`**: where the marks of a lowered text stand.
-/

set_option autoImplicit false

namespace PyStr

/-- The punctuation that separates the parts of a location, and spaces. -/
def isMark (c : Char) : Bool := c ∈ [':', '/', '\\', '[', ']', '@', '?', '#'] || isSpace c

end PyStr

namespace Python

open PyStr

variable {F : Type}

/-- What a character becomes: a mark itself, and any other character no mark and not nothing. -/
def Becomes (c : Char) (piece : List Char) : Prop :=
  if isMark c then piece = [c] else piece ≠ [] ∧ ∀ d ∈ piece, isMark d = false

/-- What is known of `str.lower`, and that no mark is a digit. -/
structure Lawful (py : Python F) : Prop where
  lower_pieces : ∀ s, ∃ pieces, List.Forall₂ Becomes s pieces ∧ py.lower s = pieces.flatten
  lower_fixed : ∀ s t, t ⊆ py.lower s → py.lower t = t
  decimal_mark : ∀ c, isMark c → py.decimal c = none

theorem Becomes.mem_iff {c d : Char} {piece : List Char} (h : Becomes c piece)
    (hd : isMark d = true) : d ∈ piece ↔ d = c := by
  unfold Becomes at h
  split_ifs at h with hc
  · rw [h, List.mem_singleton]
  · constructor
    · intro hmem
      rw [h.2 d hmem] at hd
      cases hd
    · rintro rfl
      exact absurd hd hc

/-- A mark is in the pieces if it is in the text. -/
theorem mem_pieces {s : List Char} {pieces : List (List Char)}
    (h : List.Forall₂ Becomes s pieces) {d : Char} (hd : isMark d = true) :
    d ∈ pieces.flatten ↔ d ∈ s := by
  induction h with
  | nil => simp
  | cons hc _ ih =>
    rw [List.flatten_cons, List.mem_append, List.mem_cons, hc.mem_iff hd, ih]

/-- Marks that follow each other in the pieces do so in the text. -/
theorem prefix_of_pieces {s : List Char} {pieces : List (List Char)}
    (h : List.Forall₂ Becomes s pieces) {w : List Char} (hw : ∀ c ∈ w, isMark c = true)
    (hpre : w <+: pieces.flatten) : w <+: s := by
  induction h generalizing w with
  | nil => simpa using hpre
  | @cons c piece s pieces hc hrest ih =>
    rcases w with _ | ⟨d, w⟩
    · exact List.nil_prefix
    unfold Becomes at hc
    split_ifs at hc with hmark
    · subst hc
      rw [List.flatten_cons, List.singleton_append] at hpre
      obtain ⟨rfl, htail⟩ := List.cons_prefix_cons.mp hpre
      exact List.cons_prefix_cons.mpr
        ⟨rfl, ih (fun e he => hw e (List.mem_cons_of_mem _ he)) htail⟩
    · obtain ⟨e, piece, rfl⟩ := List.exists_cons_of_ne_nil hc.1
      obtain ⟨rfl, -⟩ := List.cons_prefix_cons.mp hpre
      have hd := hc.2 d List.mem_cons_self
      rw [hw d List.mem_cons_self] at hd
      cases hd

/-- What has no marks holds no part of a text of marks. -/
theorem infix_of_append {piece rest w : List Char} (hpiece : ∀ d ∈ piece, isMark d = false)
    (hw : ∀ c ∈ w, isMark c = true) (hne : w ≠ []) (h : w <:+: piece ++ rest) : w <:+: rest := by
  induction piece with
  | nil => exact h
  | cons d piece ih =>
    rcases List.infix_cons_iff.mp h with hpre | hinf
    · obtain ⟨e, w, rfl⟩ := List.exists_cons_of_ne_nil hne
      obtain ⟨rfl, -⟩ := List.cons_prefix_cons.mp hpre
      have hmark := hw e List.mem_cons_self
      rw [hpiece e List.mem_cons_self] at hmark
      cases hmark
    · exact ih (fun e he => hpiece e (List.mem_cons_of_mem _ he)) hinf

theorem infix_of_pieces {s : List Char} {pieces : List (List Char)}
    (h : List.Forall₂ Becomes s pieces) {w : List Char} (hw : ∀ c ∈ w, isMark c = true)
    (hne : w ≠ []) (hinf : w <:+: pieces.flatten) : w <:+: s := by
  induction h with
  | nil => simpa using hinf
  | @cons c piece s pieces hc hrest ih =>
    have hall : List.Forall₂ Becomes (c :: s) (piece :: pieces) := .cons hc hrest
    have hcases : w <+: (piece :: pieces).flatten ∨ w <:+: pieces.flatten := by
      unfold Becomes at hc
      split_ifs at hc with hmark
      · subst hc
        exact List.infix_cons_iff.mp hinf
      · exact .inr (infix_of_append hc.2 hw hne hinf)
    rcases hcases with hpre | hinf
    · exact (prefix_of_pieces hall hw hpre).isInfix
    · exact (ih hinf).trans (List.suffix_cons c s).isInfix

theorem pieces_split {a b : List Char} {c : Char} {pieces : List (List Char)}
    (hc : isMark c = true) (h : List.Forall₂ Becomes (a ++ c :: b) pieces) :
    ∃ before after, List.Forall₂ Becomes a before ∧ List.Forall₂ Becomes b after ∧
      pieces.flatten = before.flatten ++ c :: after.flatten := by
  induction a generalizing pieces with
  | nil =>
    rcases h with _ | @⟨_, piece, _, after, hpiece, hafter⟩
    refine ⟨[], after, .nil, hafter, ?_⟩
    unfold Becomes at hpiece
    rw [if_pos hc] at hpiece
    simp [hpiece]
  | cons d a ih =>
    rcases h with _ | @⟨_, piece, _, rest, hpiece, hrest⟩
    obtain ⟨before, after, hbefore, hafter, heq⟩ := ih hrest
    exact ⟨piece :: before, after, .cons hpiece hbefore, hafter, by simp [heq]⟩

theorem forall₂_self (t : List Char) : List.Forall₂ Becomes t (t.map fun c => [c]) := by
  rw [List.forall₂_map_right_iff, List.forall₂_same]
  intro c _
  unfold Becomes
  split_ifs with hc
  · rfl
  · exact ⟨List.cons_ne_nil c [], by simpa using hc⟩

theorem flatten_self (t : List Char) : (t.map fun c => [c]).flatten = t := by
  rw [← List.flatMap_def]
  exact List.flatMap_singleton' t

/-! ## Lowered texts -/

namespace Lawful

variable {py : Python F} (h : py.Lawful)
include h

theorem mem_lower {s : List Char} {d : Char} (hd : isMark d = true) : d ∈ py.lower s ↔ d ∈ s := by
  obtain ⟨pieces, hpieces, hlower⟩ := h.lower_pieces s
  rw [hlower, mem_pieces hpieces hd]

theorem lower_lower (s : List Char) : py.lower (py.lower s) = py.lower s :=
  h.lower_fixed s _ (List.Subset.refl _)

@[simp] theorem lower_nil : py.lower [] = [] := by
  obtain ⟨pieces, hpieces, hlower⟩ := h.lower_pieces []
  cases hpieces
  exact hlower

/-- A mark parts the lowered text as it parts the text. -/
theorem lower_split (a b : List Char) {c : Char} (hc : isMark c = true) :
    ∃ a' b', py.lower (a ++ c :: b) = a' ++ c :: b' ∧ (∀ d, isMark d = true → (d ∈ a' ↔ d ∈ a)) ∧
      (a = [] → a' = []) ∧ (b = [] → b' = []) := by
  obtain ⟨pieces, hpieces, hlower⟩ := h.lower_pieces (a ++ c :: b)
  obtain ⟨before, after, hbefore, hafter, heq⟩ := pieces_split hc hpieces
  refine ⟨before.flatten, after.flatten, hlower.trans heq, fun d hd => mem_pieces hbefore hd,
    ?_, ?_⟩
  · rintro rfl
    cases hbefore
    rfl
  · rintro rfl
    cases hafter
    rfl

/-- Marks that follow each other in a text of which a part is lowered do so in the text. -/
theorem infix_of_lower {s t w : List Char} (hw : ∀ c ∈ w, isMark c = true) (hne : w ≠ [])
    (hinf : w <:+: py.lower s ++ t) : w <:+: s ++ t := by
  obtain ⟨pieces, hpieces, hlower⟩ := h.lower_pieces s
  have hall : List.Forall₂ Becomes (s ++ t) (pieces ++ t.map fun c => [c]) :=
    List.rel_append hpieces (forall₂_self t)
  refine infix_of_pieces hall hw hne ?_
  rw [List.flatten_append, ← hlower, flatten_self]
  exact hinf

/-- A lowered text begins with a mark only if the text does. -/
theorem head_of_lower {s t : List Char} {c : Char} (hc : isMark c = true)
    (heq : py.lower s = c :: t) : ∃ t', s = c :: t' := by
  obtain ⟨pieces, hpieces, hlower⟩ := h.lower_pieces s
  have hpre : [c] <+: s := by
    refine prefix_of_pieces hpieces (by simpa using hc) ?_
    rw [← hlower, heq]
    exact ⟨t, rfl⟩
  obtain ⟨t', rfl⟩ := hpre
  exact ⟨t', rfl⟩

end Lawful

end Python

import ScanPlatform.Nuclei.LineLocal

/-!
# Fingerprints

A fingerprint joins a template, a matcher and a location with `|`, and the reports take it apart at
the first two of them.

* `parseFingerprint`: what the reports read;
* `NucleiIdentity`, `NucleiIdentity.join`, `exists_cut`: identities, and where a fingerprint is cut;
* `Decodes.noPipe`, `NoPipe.decodes`, `Decodes.eq_of_join`: the identities that are read back;
* `HasIdentity`, **`fingerprints_decode`**: the records of the parser.
-/

set_option autoImplicit false

namespace ScanPlatform

open JsonText PyStr

/-- `text or None`. -/
def orNone (text : List Char) : Option String :=
  if text = [] then none else some (String.ofList text)

/-- `_parse_fingerprint`: the template, the matcher and the location. -/
def parseFingerprint (fingerprint : Option String) :
    Option String × Option String × Option String :=
  match fingerprint with
  | none => (none, none, none)
  | some fingerprint =>
    if fingerprint = "" then (none, none, none)
    else
      let parts := splitMax '|' 2 fingerprint.toList
      (parts[0]?.bind orNone, parts[1]?.bind orNone, parts[2]?.bind orNone)

/-- The identity of a finding: the template, the matcher, if there is one, and the location. -/
structure NucleiIdentity where
  templateId : String
  matcher : Option String
  location : String
  deriving DecidableEq

namespace NucleiIdentity

/-- The fingerprint. -/
def join (i : NucleiIdentity) : String :=
  i.templateId ++ "|" ++ i.matcher.getD "" ++ "|" ++ i.location

/-- The fingerprint is read back as the identity that it has been made of. -/
def Decodes (i : NucleiIdentity) : Prop :=
  parseFingerprint (some i.join) = (some i.templateId, i.matcher, some i.location)

/-- Neither the template nor the matcher has a `|` in it. -/
def NoPipe (i : NucleiIdentity) : Prop :=
  '|' ∉ i.templateId.toList ∧ ∀ matcher ∈ i.matcher, '|' ∉ matcher.toList

/-- No part of the identity is empty. -/
structure Proper (i : NucleiIdentity) : Prop where
  templateId : i.templateId ≠ ""
  matcher : i.matcher ≠ some ""
  location : i.location ≠ ""

variable {i j : NucleiIdentity}

theorem toList_join (i : NucleiIdentity) : i.join.toList =
    i.templateId.toList ++ '|' :: ((i.matcher.getD "").toList ++ '|' :: i.location.toList) := by
  simp [join]

theorem join_ne_empty (i : NucleiIdentity) : i.join ≠ "" := by
  intro h
  have hlist := congrArg String.toList h
  rw [toList_join] at hlist
  simp at hlist

/-- The fingerprint is cut at its first two `|`. -/
theorem exists_cut (i : NucleiIdentity) : ∃ a b c, '|' ∉ a ∧ '|' ∉ b ∧
    splitMax '|' 2 i.join.toList = [a, b, c] := by
  have hcount : 2 ≤ i.join.toList.count '|' := by
    rw [toList_join]
    simp only [List.count_append, List.count_cons_self]
    omega
  have hfirst : '|' ∈ i.join.toList := List.count_pos_iff.mp (by omega)
  obtain ⟨a, rest, hcut, ha⟩ := List.eq_append_cons_of_mem hfirst
  rw [hcut] at hcount ⊢
  have hsecond : '|' ∈ rest := by
    rw [List.count_append, List.count_cons_self, List.count_eq_zero_of_not_mem ha] at hcount
    exact List.count_pos_iff.mp (by omega)
  obtain ⟨b, c, rfl, hb⟩ := List.eq_append_cons_of_mem hsecond
  refine ⟨a, b, c, ha, hb, ?_⟩
  rw [splitMax_append ha, splitMax_append hb]
  rfl

/-- What is read of a fingerprint whose parts are known. -/
theorem parseFingerprint_join {a b c : List Char}
    (h : splitMax '|' 2 i.join.toList = [a, b, c]) :
    parseFingerprint (some i.join) = (orNone a, orNone b, orNone c) := by
  unfold parseFingerprint
  simp only [if_neg i.join_ne_empty, h]
  rfl

theorem orNone_eq_some {text : List Char} {s : String} (h : orNone text = some s) :
    s.toList = text := by
  unfold orNone at h
  split_ifs at h
  rw [← Option.some.inj h]
  simp

theorem orNone_toList {s : String} (h : s ≠ "") : orNone s.toList = some s := by
  unfold orNone
  rw [if_neg (by simpa using h)]
  simp

/-- What is read back has no `|` but in the location. -/
theorem Decodes.noPipe (h : i.Decodes) : i.NoPipe := by
  obtain ⟨a, b, c, ha, hb, hcut⟩ := i.exists_cut
  have hread := (parseFingerprint_join hcut).symm.trans h
  simp only [Prod.mk.injEq] at hread
  obtain ⟨htemplate, hmatcher, -⟩ := hread
  constructor
  · rwa [orNone_eq_some htemplate]
  · intro matcher hm
    rw [hm] at hmatcher
    rwa [orNone_eq_some hmatcher]

/-- What has no `|` but in the location is read back. -/
theorem NoPipe.decodes (h : i.NoPipe) (hi : i.Proper) : i.Decodes := by
  have hmatcher : '|' ∉ (i.matcher.getD "").toList := by
    cases hm : i.matcher with
    | none => simp
    | some matcher => exact h.2 matcher hm
  have hcut : splitMax '|' 2 i.join.toList =
      [i.templateId.toList, (i.matcher.getD "").toList, i.location.toList] := by
    rw [toList_join, splitMax_append h.1, splitMax_append hmatcher]
    rfl
  have hnone : orNone (i.matcher.getD "").toList = i.matcher := by
    cases hm : i.matcher with
    | none => rfl
    | some matcher => exact orNone_toList fun heq => hi.matcher (hm.trans (congrArg some heq))
  unfold Decodes
  rw [parseFingerprint_join hcut, orNone_toList hi.templateId, hnone, orNone_toList hi.location]

/-- Identities that are read back have fingerprints of their own. -/
theorem Decodes.eq_of_join (hi : i.Decodes) (hj : j.Decodes) (h : i.join = j.join) : i = j := by
  unfold Decodes at hi hj
  rw [h, hj] at hi
  simp only [Prod.mk.injEq, Option.some.injEq] at hi
  obtain ⟨htemplate, hmatcher, hlocation⟩ := hi
  cases i
  cases j
  cases htemplate
  cases hmatcher
  cases hlocation
  rfl

end NucleiIdentity

/-! ## Records -/

variable {F : Type}

/-- The parser accepts the record, and this is its identity. -/
structure HasIdentity (py : Python F) (r : NucleiRecord F) (i : NucleiIdentity) : Prop where
  accepted : ∃ obj, identify py obj = some r
  templateId : i.templateId = r.templateId
  matcher : i.matcher = orNone r.matcher.toList
  location : normalizeLocation py r.matchedAt = some i.location

/-- A record has a template and a location. -/
theorem identify_ne_empty {py : Python F} {obj : Members F} {r : NucleiRecord F}
    (h : identify py obj = some r) : r.templateId ≠ "" ∧ r.matchedAt ≠ "" := by
  obtain ⟨info, -, h⟩ := Option.bind_eq_some_iff.mp h
  split at h
  · split_ifs at h with hempty
    cases h
    exact not_or.mp hempty
  · cases h

variable {py : Python F} {r : NucleiRecord F} {i : NucleiIdentity}

theorem HasIdentity.proper (h : HasIdentity py r i) : i.Proper := by
  obtain ⟨obj, hobj⟩ := h.accepted
  obtain ⟨htemplate, hmatched⟩ := identify_ne_empty hobj
  refine ⟨h.templateId ▸ htemplate, fun hmatcher => ?_,
    normalizeLocation_ne_nil hmatched h.location⟩
  rw [h.matcher] at hmatcher
  unfold orNone at hmatcher
  split_ifs at hmatcher with hempty
  exact hempty (by simpa using congrArg String.toList (Option.some.inj hmatcher))

/-- The fingerprint of a record. -/
theorem HasIdentity.fingerprint (h : HasIdentity py r i) :
    nucleiFingerprint py r.templateId r.matcher r.matchedAt = .ok i.join := by
  refine nucleiFingerprint_eq_ok.mpr ⟨i.location, h.location, ?_⟩
  have hmatcher : i.matcher.getD "" = r.matcher := by
    rw [h.matcher]
    unfold orNone
    split_ifs with hempty
    · simpa using hempty.symm
    · simp
  rw [NucleiIdentity.join, hmatcher, h.templateId]

/-- **Fingerprints are read back** exactly when neither the template nor the matcher has a `|`, and
findings of which this holds do not share a fingerprint unless they share their identity. -/
theorem fingerprints_decode (py : Python F) :
    (∀ r i, HasIdentity py r i →
      ∃ fingerprint, nucleiFingerprint py r.templateId r.matcher r.matchedAt = .ok fingerprint ∧
        (parseFingerprint (some fingerprint) = (some i.templateId, i.matcher, some i.location) ↔
          i.NoPipe)) ∧
    ∀ r i r' i', HasIdentity py r i → HasIdentity py r' i' → i.NoPipe → i'.NoPipe →
      nucleiFingerprint py r.templateId r.matcher r.matchedAt =
        nucleiFingerprint py r'.templateId r'.matcher r'.matchedAt → i = i' := by
  constructor
  · intro r i h
    exact ⟨i.join, h.fingerprint, NucleiIdentity.Decodes.noPipe,
      fun hpipe => hpipe.decodes h.proper⟩
  · intro r i r' i' h h' hpipe hpipe' heq
    rw [h.fingerprint, h'.fingerprint] at heq
    exact (hpipe.decodes h.proper).eq_of_join (hpipe'.decodes h'.proper) (Except.ok.inj heq)

/-- A record of the laboratory. -/
def labRecord (templateId matcher matchedAt : String) : NucleiRecord (List Char) where
  templateId
  matcher
  matchedAt
  obj := [("template-id", .str templateId), ("matcher-name", .str matcher),
    ("matched-at", .str matchedAt)]
  info := []

/-- A pipe in the location does no harm. -/
theorem fingerprints_decode_lab :
    let fingerprint := "windows|time-based|http://h/?lang=|dir"
    nucleiFingerprint labPython "windows" "time-based" "http://h:80/?lang=|dir" = .ok fingerprint ∧
      parseFingerprint (some fingerprint) =
        (some "windows", some "time-based", some "http://h/?lang=|dir") := by
  intro fingerprint
  have hidentity : HasIdentity labPython
      (labRecord "windows" "time-based" "http://h:80/?lang=|dir")
      ⟨"windows", some "time-based", "http://h/?lang=|dir"⟩ := by
    refine ⟨⟨(labRecord "windows" "time-based" "http://h:80/?lang=|dir").obj, rfl⟩, rfl, rfl, ?_⟩
    decide +kernel
  obtain ⟨fp, hfp, hdecodes⟩ := (fingerprints_decode labPython).1 _ _ hidentity
  obtain rfl : fp = fingerprint := Except.ok.inj (hfp.symm.trans hidentity.fingerprint)
  refine ⟨hfp, hdecodes.mpr ⟨by decide, fun matcher hm => ?_⟩⟩
  cases hm
  decide

/-- **Pipes collide.** A template with a `|` is not read back, and shares its fingerprint with
another template and matcher at another location. -/
theorem piped_fingerprints_collide : ∃ i i', HasIdentity labPython (labRecord "a|b" "" "h") i ∧
    HasIdentity labPython (labRecord "a" "b" "|h") i' ∧ ¬ i.Decodes ∧ i ≠ i' ∧
      nucleiFingerprint labPython "a|b" "" "h" = nucleiFingerprint labPython "a" "b" "|h" := by
  refine ⟨⟨"a|b", none, "h"⟩, ⟨"a", some "b", "|h"⟩,
    ⟨⟨(labRecord "a|b" "" "h").obj, rfl⟩, rfl, rfl, by decide +kernel⟩,
    ⟨⟨(labRecord "a" "b" "|h").obj, rfl⟩, rfl, rfl, by decide +kernel⟩, ?_, by decide, rfl⟩
  unfold NucleiIdentity.Decodes
  decide

end ScanPlatform

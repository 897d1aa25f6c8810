import ScanPlatform.Reports.Classification

/-!
# Verification of findings

How far the evidence of a finding bears it out, and how much its match is worth.

* `isRealArtefact`, `countArtefacts`: what has been captured;
* `hasInferenceMarker`, `isGeneric`: matches that are inferred, or too broad;
* `classifyVerification`: the state and the confidence;
* **`isGeneric_of_detection`**: a template of a detection is too broad;
* **`classifyVerification_congr`**: what the state and the confidence depend on.
-/

set_option autoImplicit false

namespace ScanPlatform

inductive VerificationState
  | verified
  | partiallyVerified
  | unverified
  deriving DecidableEq

inductive Confidence
  | high
  | medium
  | low
  deriving DecidableEq

def inferenceMarkers : List String :=
  ["time-based", "time_based", "blind", "timing", "out-of-band", "oob"]

def genericMarkers : List String := ["generic", "-detect", "detection"]

/-- `_norm`. -/
def norm (value : Option String) : String := PyStr.lower (PyStr.strip (value.getD ""))

/-- `_UNAVAILABLE_SCHEME`. -/
def unavailableScheme : String := "unavailable://"

/-- `_is_real_artefact`. -/
def isRealArtefact (uri : String) : Bool :=
  let text := PyStr.strip uri
  text ≠ "" && !PyStr.startsWith (PyStr.lower text) unavailableScheme

/-- `_count_artefacts`. -/
def countArtefacts (uris : List String) : ℕ := uris.countP isRealArtefact

/-- `" ".join(_norm(v) for v in values)`. -/
def joinNorm (values : List (Option String)) : String := " ".intercalate (values.map norm)

/-- `_has_inference_marker`. -/
def hasInferenceMarker (values : List (Option String)) : Bool :=
  inferenceMarkers.any (PyStr.contains (joinNorm values))

/-- `_is_generic`. -/
def isGeneric (values : List (Option String)) : Bool :=
  genericMarkers.any (PyStr.contains (joinNorm values)) ||
    values.any fun v => (truthy v).isSome && templateLooksLikeDetection (some (norm v))

/-- The arguments of `classify_verification`. -/
structure VerificationRow where
  templateId : Option String
  matcherName : Option String
  evidenceUris : List String
  /-- The URI and the checksum. -/
  screenshots : List (String × String)
  classification : Option Classification
  cve : Option String

def classifyVerification (row : VerificationRow) : VerificationState × Confidence :=
  let screens := countArtefacts (row.screenshots.map Prod.fst)
  let evidence := countArtefacts row.evidenceUris
  let hasArtefacts : Bool := screens ≠ 0 || evidence ≠ 0
  let inference := hasInferenceMarker [row.templateId, row.matcherName]
  let generic := isGeneric [row.templateId, row.matcherName]
  let isDetection : Bool := row.classification = some .detection
  let verification :=
    if !hasArtefacts then VerificationState.unverified
    else if isDetection || generic || inference then .partiallyVerified
    else if screens ≠ 0 && evidence ≠ 0 then .verified
    else .partiallyVerified
  let confidence :=
    if inference then Confidence.low
    else if (truthy row.cve).isSome && !generic then .high
    else if hasArtefacts && !generic then .high
    else .medium
  (verification, confidence)

/-! ## Detections -/

theorem norm_norm (v : Option String) : norm (some (norm v)) = norm v := by
  unfold norm
  rw [Option.getD_some, PyStr.strip_lower, PyStr.strip_strip, PyStr.lower_lower]

/-- A text that has a mark of a detection template. -/
def Marked (t : String) : Prop :=
  (detectionTemplatePrefixes.any (PyStr.startsWith t) ||
    detectionTemplateMarkers.any (PyStr.contains t)) = true

theorem not_marked_empty : ¬ Marked "" := by
  simp [Marked, detectionTemplatePrefixes, detectionTemplateMarkers, PyStr.startsWith,
    PyStr.contains, PyStr.afterFirst]

/-- The template is judged by its normalised text. -/
theorem templateLooksLikeDetection_iff {templateId : Option String} :
    templateLooksLikeDetection templateId = true ↔
      (truthy templateId).isSome = true ∧ Marked (norm templateId) := by
  cases templateId with
  | none => simp [templateLooksLikeDetection, truthy]
  | some s =>
    by_cases hs : s = ""
    · simp [templateLooksLikeDetection, truthy, hs]
    · have htruthy : truthy (some s) = some s := by simp [truthy, hs]
      rw [templateLooksLikeDetection, htruthy, Option.any_some, Option.isSome_some,
        and_iff_right rfl]
      rfl

/-- **A template of a detection is too broad** to prove anything. -/
theorem isGeneric_of_detection {templateId matcherName : Option String}
    (h : templateLooksLikeDetection templateId = true) :
    isGeneric [templateId, matcherName] = true := by
  obtain ⟨htruthy, hmarked⟩ := templateLooksLikeDetection_iff.mp h
  have hne : norm templateId ≠ "" := fun hempty => not_marked_empty (hempty ▸ hmarked)
  have hnorm : templateLooksLikeDetection (some (norm templateId)) = true := by
    refine templateLooksLikeDetection_iff.mpr ⟨by simp [truthy, hne], ?_⟩
    rwa [norm_norm]
  simp [isGeneric, htruthy, hnorm]

section

variable {K : Type*} [Zero K] [LT K] [DecidableLT K]

/-- Without tags, a detection is one by its template. -/
theorem template_of_detection {row : Finding K} (htags : row.tags = none)
    (h : classifyRow row = .detection) : templateLooksLikeDetection row.templateId = true := by
  have hnil : normTags row.tags = [] := by rw [htags, normTags]
  by_contra htemplate
  simp [classifyRow, classify, hnil, htemplate] at h

end

/-- **What the state and the confidence depend on**: whether there is evidence of each kind, and the
template; a classification counts only where the template is not too broad. -/
theorem classifyVerification_congr {row row' : VerificationRow}
    (htemplate : row'.templateId = row.templateId) (hmatcher : row'.matcherName = row.matcherName)
    (hscreens : countArtefacts (row'.screenshots.map Prod.fst) = 0 ↔
      countArtefacts (row.screenshots.map Prod.fst) = 0)
    (hevidence : countArtefacts row'.evidenceUris = 0 ↔ countArtefacts row.evidenceUris = 0)
    (hcve : row'.cve = row.cve)
    (hclass : isGeneric [row.templateId, row.matcherName] = false →
      (row'.classification = some .detection ↔ row.classification = some .detection)) :
    classifyVerification row' = classifyVerification row := by
  have hstrong : (decide (row'.classification = some .detection) ||
      isGeneric [row.templateId, row.matcherName]) =
        (decide (row.classification = some .detection) ||
          isGeneric [row.templateId, row.matcherName]) := by
    cases hgeneric : isGeneric [row.templateId, row.matcherName] with
    | true => simp
    | false => simp [hclass hgeneric]
  have hscreens' : decide (countArtefacts (row'.screenshots.map Prod.fst) ≠ 0) =
      decide (countArtefacts (row.screenshots.map Prod.fst) ≠ 0) := by simp [hscreens]
  have hevidence' : decide (countArtefacts row'.evidenceUris ≠ 0) =
      decide (countArtefacts row.evidenceUris ≠ 0) := by simp [hevidence]
  unfold classifyVerification
  simp only [htemplate, hmatcher, hcve, hscreens', hevidence', hstrong]

end ScanPlatform

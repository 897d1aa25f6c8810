import ScanPlatform.Tenancy.QueryFilter

/-!
# Rows that are written

What an update, a deletion with all that it cascades to and an insertion do to the rows that a
workspace sees.

* `depth`, `gone`, **`gone_iff`**, `fate`: the rows that a deletion takes, and what is left of the
  others;
* `DbInv`: foreign keys name rows of the same owner, of which a row has one at most;
* `Left`, **`view_filterMap_view`**, `view_filterMap_self`, `DbInv.filterMap`: rows that are
  rewritten;
* `DbInv.change`, `DbInv.deleted`, **`view_deleted_own`**, **`view_deleted_other`**: updates and
  deletions;
* `Added`, `DbInv.append`, **`view_append_own`**, **`view_append_other`**: insertions.
-/

set_option autoImplicit false

namespace ScanPlatform.QueryFilter

open InsertGuard

variable {D : Type} {w v u : Uuid} {db : List (Row D)} {r p : Row D} {k : ForeignKey}

/-! ## Foreign keys -/

theorem mem_foreignKeys : k ∈ r.foreignKeys ↔
    (∃ x ∈ columnKeys r.table, ∃ id, r.get x.1 = some id ∧ k = ⟨x.2.1, id, x.2.2⟩) ∨
      (∃ id, r.evidenceId = some id ∧ k = ⟨.evidence, id, .cascade⟩) ∨ k ∈ r.others := by
  simp only [Row.foreignKeys, List.append_assoc, List.mem_append, List.mem_filterMap,
    Option.mem_toList, Option.map_eq_some_iff, eq_comm (b := k)]

/-- The foreign key of the first hop of a chain. -/
theorem hop_mem {fk : Column} {table : TableName} {hops : List (Column × TableName)} {id : Uuid}
    (hchain : viaTables r.table = (fk, table) :: hops) (hfk : r.get fk = some id) :
    ⟨table, id, .cascade⟩ ∈ r.foreignKeys :=
  mem_foreignKeys.mpr (.inl ⟨_, (viaTables_tail hchain).2.2.2, id, hfk, rfl⟩)

theorem link_mem {id : Uuid} (hfk : r.evidenceId = some id) :
    ⟨.evidence, id, .cascade⟩ ∈ r.foreignKeys :=
  mem_foreignKeys.mpr (.inr (.inl ⟨id, hfk, rfl⟩))

theorem columnKeys_scoped (table : TableName) : ∀ x ∈ columnKeys table, Scoped x.2.1 := by
  cases table <;> decide

theorem otherKeys_scoped (table : TableName) : ∀ x ∈ otherKeys table, Scoped x.1 := by
  cases table <;> decide

theorem foreignKey_scoped (h : k ∈ r.foreignKeys) : Scoped k.table := by
  rcases mem_foreignKeys.mp h with ⟨x, hx, id, -, rfl⟩ | ⟨id, -, rfl⟩ | hk
  · exact columnKeys_scoped r.table x hx
  · show Scoped .evidence
    decide
  · exact otherKeys_scoped r.table _ (r.keyed k hk)

/-! ## Deletions -/

/-- How far a table is from one that nothing cascades to. -/
def depth : TableName → ℕ
  | .targets | .reports | .vulnerabilities | .notifications | .riskAssessments | .remediationItems
  | .scannerWorkers => 1
  | .assets | .scans | .authorizationScopes | .vulnerabilityHistory | .vulnerabilityLineage
  | .remediations | .riskScores | .attackMappings | .complianceMappings | .verificationRequests
  | .remediationEvents | .riskAcceptances | .riskAssessmentFindings => 2
  | .scanSchedules | .toolRuns | .aiPlans | .attackNarratives | .engagementState | .agentSteps
  | .agentDecisions => 3
  | .evidence => 4
  | .vulnerabilityEvidence | .remediationEvidence => 5
  | _ => 0

theorem columnKeys_depth (table : TableName) :
    ∀ x ∈ columnKeys table, x.2.2 = .cascade → depth x.2.1 < depth table := by
  cases table <;> decide

theorem otherKeys_depth (table : TableName) :
    ∀ x ∈ otherKeys table, x.2 = .cascade → depth x.1 < depth table := by
  cases table <;> decide

theorem foreignKey_depth (h : k ∈ r.foreignKeys) (hcascade : k.onDelete = .cascade) :
    depth k.table < depth r.table := by
  rcases mem_foreignKeys.mp h with ⟨x, hx, id, -, rfl⟩ | ⟨id, hid, rfl⟩ | hk
  · exact columnKeys_depth r.table x hx hcascade
  · show depth .evidence < _
    obtain htable | htable := r.links (by simp [hid]) <;> rw [htable] <;> decide
  · exact otherKeys_depth r.table _ (r.keyed k hk) hcascade

/-- The rows that go with the roots of a deletion, as far as a number of foreign keys leads. -/
def goneWithin (db : List (Row D)) (roots : Row D → Bool) : ℕ → Row D → Bool
  | 0, r => roots r
  | n + 1, r => roots r || r.foreignKeys.any fun k => k.onDelete = .cascade &&
      db.any fun p => k.names p && goneWithin db roots n p

/-- `ON DELETE CASCADE`. -/
def gone (db : List (Row D)) (roots : Row D → Bool) (r : Row D) : Bool :=
  goneWithin db roots (depth r.table) r

/-- The row that a foreign key names is deleted. -/
def lost (db : List (Row D)) (roots : Row D → Bool) (k : ForeignKey) : Bool :=
  db.any fun p => k.names p && gone db roots p

/-- `ON DELETE SET NULL`. -/
def Row.nullify (lost : ForeignKey → Bool) (r : Row D) : Row D where
  table := r.table
  id := r.id
  get c := if (columnKeys r.table).any fun x => x.1 = c && x.2.2 = .setNull &&
    (r.get c).any fun id => lost ⟨x.2.1, id, .setNull⟩ then none else r.get c
  columns c hc := r.columns c fun hnone => hc (by rw [hnone, ite_self])
  evidenceId := r.evidenceId
  others := r.others.filter fun k => !(k.onDelete = .setNull && lost k)
  data := r.data
  links := r.links
  keyed k hk := r.keyed k (List.mem_filter.mp hk).1

/-- A row that stays refers to one that goes, with `ON DELETE RESTRICT`. -/
def restricted (db : List (Row D)) (roots : Row D → Bool) : Bool :=
  db.any fun r => !gone db roots r && r.foreignKeys.any fun k =>
    k.onDelete = .restrict && lost db roots k

variable {roots : Row D → Bool} {n : ℕ}

theorem goneWithin_succ_iff : goneWithin db roots (n + 1) r = true ↔ roots r = true ∨
    ∃ k ∈ r.foreignKeys, k.onDelete = .cascade ∧
      ∃ p ∈ db, k.names p = true ∧ goneWithin db roots n p = true := by
  simp only [goneWithin, Bool.or_eq_true, List.any_eq_true, Bool.and_eq_true, decide_eq_true_eq]

theorem names_table (h : k.names p = true) : p.table = k.table :=
  of_decide_eq_true (Bool.and_eq_true_iff.mp h).1

theorem names_id (h : k.names p = true) : p.id = some k.id :=
  of_decide_eq_true (Bool.and_eq_true_iff.mp h).2

/-- Beyond the depth of a table nothing more goes. -/
theorem goneWithin_stable (hn : depth r.table ≤ n) :
    goneWithin db roots (n + 1) r = true ↔ goneWithin db roots n r = true := by
  induction n generalizing r with
  | zero =>
    rw [goneWithin_succ_iff]
    refine or_iff_left ?_
    rintro ⟨k, hk, hcascade, -⟩
    have hlt := foreignKey_depth hk hcascade
    omega
  | succ n ih =>
    rw [goneWithin_succ_iff, goneWithin_succ_iff]
    refine or_congr_right (exists_congr fun k => and_congr_right fun hk =>
      and_congr_right fun hcascade => exists_congr fun p => and_congr_right fun _ =>
        and_congr_right fun hnames => ih ?_)
    have hlt := foreignKey_depth hk hcascade
    rw [names_table hnames]
    omega

theorem goneWithin_iff_gone (hn : depth r.table ≤ n) :
    goneWithin db roots n r = true ↔ gone db roots r = true := by
  induction n, hn using Nat.le_induction with
  | base => rfl
  | succ n hn ih => exact (goneWithin_stable hn).trans ih

/-- **What goes**: the roots, and what refers to a row that goes. -/
theorem gone_iff : gone db roots r = true ↔ roots r = true ∨
    ∃ k ∈ r.foreignKeys, k.onDelete = .cascade ∧
      ∃ p ∈ db, k.names p = true ∧ gone db roots p = true := by
  rw [← goneWithin_iff_gone (Nat.le_succ _), goneWithin_succ_iff]
  refine or_congr_right (exists_congr fun k => and_congr_right fun hk =>
    and_congr_right fun hcascade => exists_congr fun p => and_congr_right fun _ =>
      and_congr_right fun hnames => goneWithin_iff_gone ?_)
  have hlt := foreignKey_depth hk hcascade
  rw [names_table hnames]
  omega

theorem lost_iff : lost db roots k = true ↔
    ∃ p ∈ db, k.names p = true ∧ gone db roots p = true := by
  simp only [lost, List.any_eq_true, Bool.and_eq_true]

/-! ### Columns that are set to null -/

variable {drop : ForeignKey → Bool}

theorem columnKeys_workspace (table : TableName) :
    ∀ x ∈ columnKeys table, x.1 ≠ .workspaceId := by
  cases table <;> decide

theorem hop_kept {table table' : TableName} {fk : Column} {hops : List (Column × TableName)}
    (hchain : viaTables table = (fk, table') :: hops) :
    ∀ x ∈ columnKeys table, x.1 = fk → x.2.2 ≠ .setNull := by
  revert hchain
  cases table <;> rintro ⟨⟩ <;> decide

theorem Row.get_of_nullify {c : Column} {id : Uuid} (h : (r.nullify drop).get c = some id) :
    r.get c = some id :=
  (Option.ite_none_left_eq_some.mp h).2

theorem Row.nullify_get {c : Column}
    (hkept : ∀ x ∈ columnKeys r.table, x.1 = c → x.2.2 ≠ .setNull) :
    (r.nullify drop).get c = r.get c := by
  refine if_neg fun h => ?_
  obtain ⟨x, hx, hdrop⟩ := List.any_eq_true.mp h
  simp only [Bool.and_eq_true, decide_eq_true_eq] at hdrop
  exact hkept x hx hdrop.1.1 hdrop.1.2

theorem Row.nullify_workspace : (r.nullify drop).get .workspaceId = r.get .workspaceId :=
  Row.nullify_get fun x hx hc => absurd hc (columnKeys_workspace r.table x hx)

theorem mem_of_mem_nullify (h : k ∈ (r.nullify drop).foreignKeys) :
    k ∈ r.foreignKeys ∧ (k.onDelete = .setNull → drop k = false) := by
  rcases mem_foreignKeys.mp h with ⟨x, hx, id, hid, rfl⟩ | ⟨id, hid, rfl⟩ | hk
  · refine ⟨mem_foreignKeys.mpr (.inl ⟨x, hx, id, Row.get_of_nullify hid, rfl⟩), fun hnull => ?_⟩
    have hkept := (Option.ite_none_left_eq_some.mp hid).1
    rw [Bool.not_eq_true, List.any_eq_false] at hkept
    simpa [show x.2.2 = .setNull from hnull, Row.get_of_nullify hid] using hkept x hx
  · exact ⟨link_mem hid, nofun⟩
  · obtain ⟨hk, hkept⟩ := List.mem_filter.mp hk
    refine ⟨mem_foreignKeys.mpr (.inr (.inr hk)), fun hnull => ?_⟩
    simpa [hnull] using hkept

theorem Row.nullify_eq_self
    (h : ∀ k ∈ r.foreignKeys, k.onDelete = .setNull → drop k = false) : r.nullify drop = r := by
  have hget : (r.nullify drop).get = r.get := by
    funext c
    refine if_neg fun hany => ?_
    obtain ⟨x, hx, hdrop⟩ := List.any_eq_true.mp hany
    simp only [Bool.and_eq_true, decide_eq_true_eq, Option.any_eq_true] at hdrop
    obtain ⟨⟨rfl, hnull⟩, id, hid, hdrop⟩ := hdrop
    have hkept := h ⟨x.2.1, id, x.2.2⟩ (mem_foreignKeys.mpr (.inl ⟨x, hx, id, hid, rfl⟩)) hnull
    rw [hnull, hdrop] at hkept
    cases hkept
  have hothers : (r.nullify drop).others = r.others := by
    refine List.filter_eq_self.mpr fun k hk => ?_
    cases hnull : decide (k.onDelete = .setNull) with
    | false => rfl
    | true =>
      rw [h k (mem_foreignKeys.mpr (.inr (.inr hk))) (of_decide_eq_true hnull)]
      rfl
  cases r with | mk obj evidenceId others data links keyed =>
  cases obj with | mk table id get columns =>
  simp only [Row.nullify] at hget hothers ⊢
  congr

/-! ## The invariant -/

/-- The columns that say whose the row is are not null. -/
def Row.complete (r : Row D) : Bool :=
  match viaTables r.table with
  | [] => (r.get .workspaceId).isSome
  | (fk, _) :: _ => (r.get fk).isSome

/-- Foreign keys name rows of the same owner, of which a row has one at most. -/
structure DbInv (used : List Uuid) (db : List (Row D)) : Prop where
  known : ∀ r ∈ db, ∀ id, r.id = some id → id ∈ used
  unique : ∀ r ∈ db, ∀ p ∈ db, ∀ id, r.id = some id → p.id = some id → r = p
  registered : ∀ r ∈ db, Scoped r.table
  complete : ∀ r ∈ db, r.table ≠ .evidence → r.complete = true
  refs : ∀ r ∈ db, ∀ k ∈ r.foreignKeys, ∃ p ∈ db, k.names p = true ∧
    ∀ w v, Visible w db r → Visible v db p → w = v
  separate : ∀ r ∈ db, ∀ w v, Visible w db r → Visible v db r → w = v

variable {used : List Uuid}

theorem DbInv.named_unique (h : DbInv used db) {p' : Row D} (hp : p ∈ db) (hp' : p' ∈ db)
    (hk : k.names p = true) (hk' : k.names p' = true) : p = p' :=
  h.unique p hp p' hp' k.id (names_id hk) (names_id hk')

theorem DbInv.owner_of_complete (h : DbInv used db) (hr : r ∈ db) (hcomplete : r.complete = true) :
    ∃ w, Visible w db r := by
  obtain ⟨hops, hchain⟩ : ∃ hops, viaTables r.table = hops := ⟨_, rfl⟩
  unfold Row.complete at hcomplete
  induction hops generalizing r with
  | nil =>
    rw [hchain] at hcomplete
    obtain ⟨w, hw⟩ := Option.isSome_iff_exists.mp hcomplete
    exact ⟨w, .own hchain (h.registered r hr) hw⟩
  | cons hop hops ih =>
    cases hop with | mk fk table =>
    rw [hchain] at hcomplete
    obtain ⟨id, hid⟩ := Option.isSome_iff_exists.mp hcomplete
    obtain ⟨p, hp, hnames, -⟩ := h.refs r hr _ (hop_mem hchain hid)
    obtain ⟨htail, -, hne, -⟩ := viaTables_tail hchain
    have htable : p.table = table := names_table hnames
    subst htable
    obtain ⟨w, hw⟩ := ih hp (h.complete p hp hne) htail.symm
    exact ⟨w, .via hchain hp hid (names_id hnames) hw⟩

theorem complete_of_evidence (htable : r.table = .evidence) (hkeys : r.foreignKeys ≠ []) :
    r.complete = true := by
  obtain ⟨k, hk⟩ := List.exists_mem_of_ne_nil _ hkeys
  unfold Row.complete
  rcases mem_foreignKeys.mp hk with ⟨x, hx, id, hid, -⟩ | ⟨id, hid, -⟩ | hother
  · rw [htable] at hx ⊢
    rw [List.mem_singleton.mp hx] at hid
    exact Option.isSome_of_eq_some hid
  · obtain hlink | hlink := r.links (by simp [hid]) <;> rw [hlink] at htable <;> cases htable
  · have hnone := r.keyed k hother
    rw [htable] at hnone
    cases hnone

/-- A row that refers to another one has an owner. -/
theorem DbInv.owner (h : DbInv used db) (hr : r ∈ db) (hkeys : r.foreignKeys ≠ []) :
    ∃ w, Visible w db r := by
  by_cases htable : r.table = .evidence
  · exact h.owner_of_complete hr (complete_of_evidence htable hkeys)
  · exact h.owner_of_complete hr (h.complete r hr htable)

/-- A row that refers to one of a workspace is of that workspace. -/
theorem DbInv.visible_of_key (h : DbInv used db) (hr : r ∈ db) (hk : k ∈ r.foreignKeys)
    (hp : p ∈ db) (hnames : k.names p = true) (hvisible : Visible v db p) : Visible v db r := by
  obtain ⟨w, hw⟩ := h.owner hr (List.ne_nil_of_mem hk)
  obtain ⟨p', hp', hnames', hsame⟩ := h.refs r hr k hk
  rw [h.named_unique hp hp' hnames hnames'] at hvisible
  rwa [hsame w v hw hvisible] at hw

/-! ## Rewritten rows -/

/-- What is left of a row: it refers to nothing that it has not referred to. -/
structure Left (r' r : Row D) : Prop where
  table : r'.table = r.table
  id : r'.id = r.id
  get : ∀ c id, r'.get c = some id → r.get c = some id
  evidenceId : r'.evidenceId = r.evidenceId

variable {f g : Row D → Option (Row D)}

/-- A row that is rewritten was no less visible before. -/
theorem visible_of_filterMap (hf : ∀ r r', f r = some r' → Left r' r) {r' : Row D}
    (h : Visible w (db.filterMap f) r') (hleft : Left r' r) : Visible w db r := by
  induction h generalizing r with
  | own hchain hscoped hw =>
    rw [hleft.table] at hchain hscoped
    exact .own hchain hscoped (hleft.get _ _ hw)
  | via hchain hp hfk hid _ ih =>
    obtain ⟨q, hq, hfq⟩ := List.mem_filterMap.mp hp
    have hleft' := hf _ _ hfq
    rw [hleft.table, hleft'.table] at hchain
    exact .via hchain hq (hleft.get _ _ hfk) (hleft'.id ▸ hid) (ih hleft')
  | linked hevidence hid hl hlink hfk hw =>
    obtain ⟨q, hq, hfq⟩ := List.mem_filterMap.mp hl
    have hleft' := hf _ _ hfq
    rw [hleft.table] at hevidence
    rw [hleft.id] at hid
    rw [hleft'.table] at hlink
    exact .linked hevidence hid hq hlink (hleft'.evidenceId ▸ hfk) (hleft'.get _ _ hw)

theorem view_filterMap (w : Uuid) : view w (db.filterMap f) =
    db.filterMap fun r => (f r).filter (visible w (db.filterMap f)) := by
  rw [view, List.filter_filterMap]

theorem filter_visible_eq_none (hf : ∀ r r', f r = some r' → Left r' r) (hw : ¬ Visible w db r) :
    (f r).filter (visible w (db.filterMap f)) = none := by
  cases hfr : f r with
  | none => rfl
  | some r' =>
    refine Option.filter_some_neg (Bool.eq_false_iff.mpr fun hleft => hw ?_)
    exact visible_of_filterMap hf (visible_iff.mp hleft) (hf r r' hfr)

/-- What stays as it was is seen as before. -/
theorem view_filterMap_self (hf : ∀ r r', f r = some r' → Left r' r)
    (hself : ∀ r ∈ db, Visible w db r → f r = some r) : view w (db.filterMap f) = view w db := by
  have hstay : ∀ r ∈ db, Visible w db r → r ∈ db.filterMap f := fun r hr hw =>
    List.mem_filterMap.mpr ⟨r, hr, hself r hr hw⟩
  rw [view_filterMap, view, ← List.filterMap_eq_filter]
  refine List.filterMap_congr fun r hr => ?_
  by_cases hw : Visible w db r
  · rw [hself r hr hw, Option.guard, if_pos (visible_iff.mpr hw)]
    exact Option.filter_some_pos (visible_iff.mpr (hw.transfer hstay))
  · rw [filter_visible_eq_none hf hw, Option.guard, if_neg fun h => hw (visible_iff.mp h)]

/-- What a workspace sees is rewritten by what it has seen. -/
theorem view_filterMap_view (hf : ∀ r r', f r = some r' → Left r' r)
    (hg : ∀ r ∈ db, Visible w db r → g r = f r) :
    view w (db.filterMap f) = view w ((view w db).filterMap g) := by
  have hview : (view w db).filterMap g = (view w db).filterMap f :=
    List.filterMap_congr fun r hr => hg r (mem_view.mp hr).1 (mem_view.mp hr).2
  have hvisible : visible w ((view w db).filterMap f) = visible w (db.filterMap f) := by
    funext r
    rw [Bool.eq_iff_iff, visible_iff, visible_iff]
    constructor
    · refine fun hw => hw.mono fun r' hr' => ?_
      obtain ⟨r, hr, hfr⟩ := List.mem_filterMap.mp hr'
      exact List.mem_filterMap.mpr ⟨r, (mem_view.mp hr).1, hfr⟩
    · have hseen : ∀ p ∈ db.filterMap f, Visible w (db.filterMap f) p →
          p ∈ (view w db).filterMap f := by
        intro p hp hw
        obtain ⟨r, hr, hfr⟩ := List.mem_filterMap.mp hp
        have hr' := visible_of_filterMap hf hw (hf r p hfr)
        exact List.mem_filterMap.mpr ⟨r, mem_view.mpr ⟨hr, hr'⟩, hfr⟩
      exact fun hw => hw.transfer hseen
  rw [hview, view_filterMap, view, hvisible, List.filter_filterMap, view, List.filterMap_filter]
  refine List.filterMap_congr fun r _ => ?_
  by_cases hw : visible w db r = true
  · rw [if_pos hw]
  · rw [if_neg hw]
    exact filter_visible_eq_none hf fun h => hw (visible_iff.mpr h)

/-- The invariant is kept when nothing is dropped that is still referred to. -/
theorem DbInv.filterMap (h : DbInv used db) (hf : ∀ r r', f r = some r' → Left r' r)
    (hcomplete : ∀ r r', f r = some r' → r'.complete = r.complete)
    (hkeys : ∀ r ∈ db, ∀ r', f r = some r' → ∀ k ∈ r'.foreignKeys, k ∈ r.foreignKeys ∧
      ∀ p ∈ db, k.names p = true → ∃ p', f p = some p') : DbInv used (db.filterMap f) where
  known r' hr' id hid := by
    obtain ⟨r, hr, hfr⟩ := List.mem_filterMap.mp hr'
    exact h.known r hr id ((hf r r' hfr).id ▸ hid)
  unique r' hr' p' hp' id hid hid' := by
    obtain ⟨r, hr, hfr⟩ := List.mem_filterMap.mp hr'
    obtain ⟨p, hp, hfp⟩ := List.mem_filterMap.mp hp'
    rw [(hf r r' hfr).id] at hid
    rw [(hf p p' hfp).id] at hid'
    rw [h.unique r hr p hp id hid hid', hfp] at hfr
    exact (Option.some.inj hfr).symm
  registered r' hr' := by
    obtain ⟨r, hr, hfr⟩ := List.mem_filterMap.mp hr'
    exact (hf r r' hfr).table ▸ h.registered r hr
  complete r' hr' htable := by
    obtain ⟨r, hr, hfr⟩ := List.mem_filterMap.mp hr'
    rw [hcomplete r r' hfr]
    exact h.complete r hr ((hf r r' hfr).table ▸ htable)
  refs r' hr' k hk := by
    obtain ⟨r, hr, hfr⟩ := List.mem_filterMap.mp hr'
    obtain ⟨hk', hstays⟩ := hkeys r hr r' hfr k hk
    obtain ⟨p, hp, hnames, hsame⟩ := h.refs r hr k hk'
    obtain ⟨p', hfp⟩ := hstays p hp hnames
    have hleft := hf p p' hfp
    refine ⟨p', List.mem_filterMap.mpr ⟨p, hp, hfp⟩, ?_, fun w v hw hv => hsame w v ?_ ?_⟩
    · rwa [ForeignKey.names, hleft.table, hleft.id]
    · exact visible_of_filterMap hf hw (hf r r' hfr)
    · exact visible_of_filterMap hf hv hleft
  separate r' hr' w v hw hv := by
    obtain ⟨r, hr, hfr⟩ := List.mem_filterMap.mp hr'
    have hleft := hf r r' hfr
    exact h.separate r hr w v (visible_of_filterMap hf hw hleft) (visible_of_filterMap hf hv hleft)

/-! ### Updates -/

/-- The row with other data, if it is chosen. -/
def Row.change (chosen : Row D → Bool) (set : D → D) (r : Row D) : Row D :=
  { r with data := if chosen r then set r.data else r.data }

variable {chosen : Row D → Bool} {set : D → D}

theorem left_change (r r' : Row D) (h : some (r.change chosen set) = some r') : Left r' r := by
  cases h
  exact ⟨rfl, rfl, fun _ _ h => h, rfl⟩

theorem Row.change_eq_self (h : chosen r = false) : r.change chosen set = r := by
  rw [Row.change, if_neg (by simp [h])]

/-- Data may change as it will. -/
theorem DbInv.change (h : DbInv used db) : DbInv used (db.map (Row.change chosen set)) := by
  rw [← List.filterMap_eq_map]
  refine h.filterMap left_change (fun r r' hr => ?_)
    fun r _ r' hr k hk => ⟨?_, fun p _ _ => ⟨_, rfl⟩⟩
  · cases hr
    rfl
  · cases hr
    exact hk

/-! ### Deletions -/

theorem left_nullify (r : Row D) : Left (r.nullify drop) r :=
  ⟨rfl, rfl, fun _ _ h => Row.get_of_nullify h, rfl⟩

/-- What becomes of a row. -/
def fate (db : List (Row D)) (roots : Row D → Bool) (r : Row D) : Option (Row D) :=
  if gone db roots r then none else some (r.nullify (lost db roots))

theorem fate_eq_some {r' : Row D} : fate db roots r = some r' ↔
    gone db roots r = false ∧ r.nullify (lost db roots) = r' := by
  simp only [fate, Option.ite_none_left_eq_some, Bool.not_eq_true, Option.some.injEq]

theorem left_fate (r r' : Row D) (h : fate db roots r = some r') : Left r' r := by
  obtain ⟨-, rfl⟩ := fate_eq_some.mp h
  exact left_nullify r

theorem Row.nullify_complete : (r.nullify drop).complete = r.complete := by
  show (match viaTables r.table with
    | [] => ((r.nullify drop).get .workspaceId).isSome
    | (fk, _) :: _ => ((r.nullify drop).get fk).isSome) = r.complete
  unfold Row.complete
  split
  · rw [Row.nullify_workspace]
  · next hchain => rw [Row.nullify_get (hop_kept hchain)]

/-- A deletion that is not refused keeps the invariant. -/
theorem DbInv.deleted (h : DbInv used db) (hfree : restricted db roots = false) :
    DbInv used (db.filterMap (fate db roots)) := by
  refine h.filterMap left_fate (fun r r' hr => ?_) fun r hr r' hr' k hk => ?_
  · obtain ⟨-, rfl⟩ := fate_eq_some.mp hr
    exact Row.nullify_complete
  · obtain ⟨hstays, rfl⟩ := fate_eq_some.mp hr'
    obtain ⟨hk, hnull⟩ := mem_of_mem_nullify hk
    refine ⟨hk, fun p hp hnames => ⟨_, fate_eq_some.mpr ⟨?_, rfl⟩⟩⟩
    -- the row that is named stays, whatever its deletion would do to this one
    rw [Bool.eq_false_iff]
    intro hgone
    have hlost : lost db roots k = true := lost_iff.mpr ⟨p, hp, hnames, hgone⟩
    cases haction : k.onDelete with
    | cascade =>
      rw [gone_iff.mpr (.inr ⟨k, hk, haction, p, hp, hnames, hgone⟩)] at hstays
      cases hstays
    | setNull =>
      rw [hnull haction] at hlost
      cases hlost
    | restrict =>
      have hany := List.any_eq_false.mp hfree r hr
      rw [hstays, Bool.not_false, Bool.true_and, Bool.not_eq_true, List.any_eq_false] at hany
      exact hany k hk (by rw [haction, hlost]; rfl)

/-- The roots of a deletion are rows of a workspace. -/
def Mine (w : Uuid) (db : List (Row D)) (roots : Row D → Bool) : Prop :=
  ∀ r ∈ db, roots r = true → Visible w db r

/-- What goes is of the workspace that deletes it. -/
theorem DbInv.visible_of_gone (h : DbInv used db) (hroots : Mine v db roots) (hr : r ∈ db)
    (hgone : goneWithin db roots n r = true) : Visible v db r := by
  induction n generalizing r with
  | zero => exact hroots r hr hgone
  | succ n ih =>
    rcases goneWithin_succ_iff.mp hgone with hroot | ⟨k, hk, -, p, hp, hnames, hgone⟩
    · exact hroots r hr hroot
    · exact h.visible_of_key hr hk hp hnames (ih hp hgone)

/-- **A deletion of another workspace** takes nothing. -/
theorem view_deleted_other (h : DbInv used db) (hroots : Mine v db roots) (hne : w ≠ v) :
    view w (db.filterMap (fate db roots)) = view w db := by
  refine view_filterMap_self left_fate fun r hr hw => fate_eq_some.mpr ⟨?_, ?_⟩
  · rw [Bool.eq_false_iff]
    exact fun hgone => hne (h.separate r hr w v hw (h.visible_of_gone hroots hr hgone))
  · refine Row.nullify_eq_self fun k hk _ => ?_
    rw [Bool.eq_false_iff]
    intro hlost
    obtain ⟨p, hp, hnames, hp'⟩ := lost_iff.mp hlost
    have hv := h.visible_of_key hr hk hp hnames (h.visible_of_gone hroots hp hp')
    exact hne (h.separate r hr w v hw hv)

section

variable (h : DbInv used db) (hroots : Mine w db roots)
include h hroots

/-- In what a workspace sees, as much goes with its roots. -/
theorem goneWithin_view (n : ℕ) (hr : r ∈ db) :
    goneWithin (view w db) roots n r = goneWithin db roots n r := by
  rw [Bool.eq_iff_iff]
  induction n generalizing r with
  | zero => rfl
  | succ n ih =>
    rw [goneWithin_succ_iff, goneWithin_succ_iff]
    refine or_congr_right (exists_congr fun k =>
      and_congr_right fun _ => and_congr_right fun _ => ?_)
    constructor
    · rintro ⟨p, hp, hnames, hgone⟩
      have hp' := (mem_view.mp hp).1
      exact ⟨p, hp', hnames, (ih hp').mp hgone⟩
    · rintro ⟨p, hp, hnames, hgone⟩
      have hw := h.visible_of_gone hroots hp hgone
      exact ⟨p, mem_view.mpr ⟨hp, hw⟩, hnames, (ih hp).mpr hgone⟩

theorem gone_view (hr : r ∈ db) : gone (view w db) roots r = gone db roots r :=
  goneWithin_view h hroots _ hr

theorem lost_view : lost (view w db) roots = lost db roots := by
  funext k
  rw [Bool.eq_iff_iff, lost_iff, lost_iff]
  constructor
  · rintro ⟨p, hp, hnames, hgone⟩
    have hp' := (mem_view.mp hp).1
    exact ⟨p, hp', hnames, gone_view h hroots hp' ▸ hgone⟩
  · rintro ⟨p, hp, hnames, hgone⟩
    have hw := h.visible_of_gone hroots hp hgone
    exact ⟨p, mem_view.mpr ⟨hp, hw⟩, hnames, (gone_view h hroots hp).trans hgone⟩

theorem restricted_view : restricted (view w db) roots = restricted db roots := by
  rw [Bool.eq_iff_iff]
  simp only [restricted, lost_view h hroots, List.any_eq_true]
  constructor
  · rintro ⟨r, hr, hrefers⟩
    have hr' := (mem_view.mp hr).1
    exact ⟨r, hr', gone_view h hroots hr' ▸ hrefers⟩
  · rintro ⟨r, hr, hrefers⟩
    refine ⟨r, mem_view.mpr ⟨hr, ?_⟩, (gone_view h hroots hr).symm ▸ hrefers⟩
    obtain ⟨k, hk, hlost⟩ := List.any_eq_true.mp (Bool.and_eq_true_iff.mp hrefers).2
    obtain ⟨p, hp, hnames, hgone⟩ := lost_iff.mp (Bool.and_eq_true_iff.mp hlost).2
    exact h.visible_of_key hr hk hp hnames (h.visible_of_gone hroots hp hgone)

/-- **A deletion is about what the workspace sees.** -/
theorem view_deleted_own : view w (db.filterMap (fate db roots)) =
    view w ((view w db).filterMap (fate (view w db) roots)) := by
  refine view_filterMap_view left_fate fun r hr _ => ?_
  rw [fate, gone_view h hroots hr, lost_view h hroots, fate]

end

/-! ## Insertions -/

/-- The ids of the rows are new, and no link is made to a row that is there. -/
structure Fresh (used : List Uuid) (new : List (Row D)) : Prop where
  fresh : ∀ n ∈ new, ∀ id, n.id = some id → id ∉ used
  links : ∀ n ∈ new, n.table = .remediationEvidence → ∀ id, n.evidenceId = some id → id ∉ used

/-- The rows can be added by a workspace: what they refer to is of the workspace, and so are they,
if they are anybody's. -/
structure Added (v : Uuid) (used : List Uuid) (db new : List (Row D)) : Prop
    extends Fresh used new where
  unique : ∀ n ∈ new, ∀ n' ∈ new, ∀ id, n.id = some id → n'.id = some id → n = n'
  registered : ∀ n ∈ new, Scoped n.table
  complete : ∀ n ∈ new, n.table ≠ .evidence → n.complete = true
  refs : ∀ n ∈ new, ∀ k ∈ n.foreignKeys,
    ∃ p ∈ db ++ new, k.names p = true ∧ Visible v (db ++ new) p
  sole : ∀ n ∈ new, ∀ u, Visible u (db ++ new) n → u = v

variable {new : List (Row D)}

/-- Rows with new ids are nothing to the rows that are there. -/
theorem DbInv.visible_append (h : DbInv used db) (hnew : Fresh used new) (hr : r ∈ db) :
    Visible w (db ++ new) r ↔ Visible w db r := by
  refine ⟨fun hw => ?_, fun hw => hw.mono fun p hp => List.mem_append_left new hp⟩
  induction hw with
  | own hchain hscoped hw => exact .own hchain hscoped hw
  | @via r p fk hops id hchain hp hfk hid _ ih =>
    rcases List.mem_append.mp hp with hp | hp
    · exact .via hchain hp hfk hid (ih hp)
    · obtain ⟨q, hq, hnames, -⟩ := h.refs r hr _ (hop_mem hchain hfk)
      exact absurd (h.known q hq id (names_id hnames)) (hnew.fresh p hp id hid)
  | @linked r l id hevidence hid hl hlink hfk hw =>
    rcases List.mem_append.mp hl with hl | hl
    · exact .linked hevidence hid hl hlink hfk hw
    · exact absurd (h.known r hr id hid) (hnew.links l hl hlink id hfk)

theorem DbInv.visible_added (h : DbInv used db) (hnew : Added v used db new) (hr : r ∈ db) :
    Visible w (db ++ new) r ↔ Visible w db r :=
  h.visible_append hnew.toFresh hr

theorem DbInv.append {made : List Uuid} (h : DbInv used db) (hnew : Added v used db new)
    (hmade : ∀ n ∈ new, ∀ id, n.id = some id → id ∈ made) :
    DbInv (made ++ used) (db ++ new) where
  known r hr id hid := by
    rcases List.mem_append.mp hr with hr | hr
    · exact List.mem_append_right made (h.known r hr id hid)
    · exact List.mem_append_left used (hmade r hr id hid)
  unique r hr p hp id hid hid' := by
    rcases List.mem_append.mp hr with hr | hr <;> rcases List.mem_append.mp hp with hp | hp
    · exact h.unique r hr p hp id hid hid'
    · exact absurd (h.known r hr id hid) (hnew.fresh p hp id hid')
    · exact absurd (h.known p hp id hid') (hnew.fresh r hr id hid)
    · exact hnew.unique r hr p hp id hid hid'
  registered r hr := (List.mem_append.mp hr).elim (h.registered r) (hnew.registered r)
  complete r hr := (List.mem_append.mp hr).elim (h.complete r) (hnew.complete r)
  separate r hr w x hw hx := by
    rcases List.mem_append.mp hr with hr | hr
    · have hold := fun w => (h.visible_added (w := w) hnew hr).mp
      exact h.separate r hr w x (hold w hw) (hold x hx)
    · rw [hnew.sole r hr w hw, hnew.sole r hr x hx]
  refs r hr k hk := by
    rcases List.mem_append.mp hr with hr | hr
    · obtain ⟨p, hp, hnames, hsame⟩ := h.refs r hr k hk
      refine ⟨p, List.mem_append_left new hp, hnames, fun w x hw hx => ?_⟩
      exact hsame w x ((h.visible_added hnew hr).mp hw) ((h.visible_added hnew hp).mp hx)
    · obtain ⟨p, hp, hnames, hv⟩ := hnew.refs r hr k hk
      refine ⟨p, hp, hnames, fun w x hw hx => ?_⟩
      rw [hnew.sole r hr w hw]
      rcases List.mem_append.mp hp with hp | hp
      · have hold := fun w => (h.visible_added (w := w) hnew hp).mp
        exact h.separate p hp v x (hold v hv) (hold x hx)
      · exact (hnew.sole p hp x hx).symm

theorem view_append (h : DbInv used db) (hnew : Added v used db new) (w : Uuid) :
    view w (db ++ new) = view w db ++ new.filter (visible w (db ++ new)) := by
  rw [view, List.filter_append]
  congr 1
  refine List.filter_congr fun r hr => ?_
  rw [Bool.eq_iff_iff, visible_iff, visible_iff]
  exact h.visible_added hnew hr

/-- **Rows of another workspace** are not seen. -/
theorem view_append_other (h : DbInv used db) (hnew : Added v used db new) (hne : w ≠ v) :
    view w (db ++ new) = view w db := by
  have hnone : new.filter (visible w (db ++ new)) = [] :=
    List.filter_eq_nil_iff.mpr fun n hn hw => hne (hnew.sole n hn w (visible_iff.mp hw))
  rw [view_append h hnew, hnone, List.append_nil]

/-- **Whether new rows are seen** is up to what the workspace sees. -/
theorem view_append_own (h : DbInv used db) (hnew : Added v used db new) (w : Uuid) :
    view w (db ++ new) = view w (view w db ++ new) := by
  have hvisible : visible w (view w db ++ new) = visible w (db ++ new) := by
    funext r
    rw [Bool.eq_iff_iff, visible_iff, visible_iff]
    constructor
    · refine fun hw => hw.mono fun p hp => ?_
      exact (List.mem_append.mp hp).elim (fun hp => List.mem_append_left new (mem_view.mp hp).1)
        (List.mem_append_right db)
    · have hseen : ∀ p ∈ db ++ new, Visible w (db ++ new) p → p ∈ view w db ++ new := by
        intro p hp hw
        rcases List.mem_append.mp hp with hp | hp
        · exact List.mem_append_left new (mem_view.mpr ⟨hp, (h.visible_added hnew hp).mp hw⟩)
        · exact List.mem_append_right _ hp
      exact fun hw => hw.transfer hseen
  rw [view_append h hnew]
  show _ = (view w db ++ new).filter _
  rw [hvisible, List.filter_append]
  congr 1
  rw [view, List.filter_filter]
  refine List.filter_congr fun r hr => ?_
  rw [Bool.eq_iff_iff, Bool.and_eq_true, visible_iff, visible_iff, h.visible_added hnew hr,
    and_self]

end ScanPlatform.QueryFilter

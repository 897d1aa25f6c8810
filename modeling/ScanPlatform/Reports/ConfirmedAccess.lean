import Mathlib.Data.List.Perm.Subperm
import ScanPlatform.Attack.Graph

/-!
# Confirmed access in a report

A report lists the nodes of access of the stored graphs. The target of each it takes from the node's
identifier, into which the build has put the target, a colon and the type of access.

* `gatherAttackGraph`: what a report says of the graphs;
* `targetOfId_eq`: which part of the target comes back;
* `nodes_build`: the nodes of access of a build, of several under one identifier the first;
* **`reported_iff`**: when a report has one entry for each pair of target and type of access.
-/

set_option autoImplicit false

namespace ScanPlatform.AttackGraph

open PyStr

/-- An entry of `confirmed_access`. -/
structure ConfirmedAccess where
  target : String
  accessState : Json.Value
  moduleName : Json.Value

structure AttackGraphSection where
  hasData : Bool
  engagementCount : ℕ
  nodeCounts : List (NodeType × ℕ)
  confirmedAccess : List ConfirmedAccess

/-- The target in the identifier of a node of access. -/
def targetOfId (id : String) : String :=
  match split ':' id with
  | _ :: target :: _ => target
  | _ => "?"

def confirmedAccessOf (n : GraphNode) : ConfirmedAccess where
  target := targetOfId n.id
  accessState := (n.attributes.get "access_state").getD .null
  moduleName := (n.attributes.get "module").getD .null

/-- `_gather_attack_graph`, of the stored graphs of the engagements. -/
def gatherAttackGraph (engagements : List (Option Graph)) : AttackGraphSection :=
  let nodes := engagements.flatMap fun g => g.elim [] Graph.nodes
  let nodeCounts := typeCounts nodes
  { hasData := !engagements.isEmpty && !nodeCounts.isEmpty
    engagementCount := engagements.length
    nodeCounts
    confirmedAccess := (nodes.filter (·.type = .access)).map confirmedAccessOf }

/-! ## What has to be reported -/

/-- The access that the evidence confirms. -/
def Evidence.granted (E : Evidence) : List AccessEvidence := E.access.filter (·.target ≠ "")

/-- The target and the type of access. -/
def AccessEvidence.pair (ac : AccessEvidence) : String × Option String := (ac.target, ac.accessType)

/-- The entry is about the pair. -/
structure ConfirmedAccess.About (granted : List AccessEvidence) (p : String × Option String)
    (e : ConfirmedAccess) : Prop where
  target : e.target = p.1
  state : e.accessState = .str (AttackGraph.accessState p.2)
  evidence : ∃ ac ∈ granted, ac.pair = p ∧ e.moduleName = .str ac.moduleName

/-- The entries are about the distinct pairs, one about each. -/
def Reported (granted : List AccessEvidence) (entries : List ConfirmedAccess) : Prop :=
  ∃ pairs : List (String × Option String), pairs.Nodup ∧
    (∀ p, p ∈ pairs ↔ ∃ ac ∈ granted, ac.pair = p) ∧
      List.Forall₂ (ConfirmedAccess.About granted) pairs entries

/-! ## The identifier of a node -/

theorem toList_node (ac : AccessEvidence) : ac.node.toList =
    "access".toList ++ ':' :: (ac.target.toList ++ ':' :: ac.label.toList) := by
  simp [AccessEvidence.node, String.toList_append]

/-- What stands before the first colon of the target comes back. -/
theorem targetOfId_eq {id : String} {t rest : List Char} (ht : ':' ∉ t)
    (hid : id.toList = "access".toList ++ ':' :: (t ++ ':' :: rest)) :
    targetOfId id = String.ofList t := by
  have hkind : ∀ c ∈ "access".toList, (c == ':') = false := by simp
  have hpart : ∀ c ∈ t, (c == ':') = false := fun c hc => by
    simpa using fun heq : c = ':' => ht (heq ▸ hc)
  unfold targetOfId split
  rw [hid, List.splitOn_eq_splitOnP,
    List.splitOnP_append_cons_of_forall_mem hkind _ (by decide),
    List.splitOnP_append_cons_of_forall_mem hpart _ (by decide)]
  rfl

theorem targetOfId_of_not_mem {ac : AccessEvidence} (h : ':' ∉ ac.target.toList) :
    targetOfId ac.node = ac.target := by
  rw [targetOfId_eq h (toList_node ac), String.ofList_toList]

/-- A colon never comes back. -/
theorem colon_not_mem_targetOfId (ac : AccessEvidence) : ':' ∉ (targetOfId ac.node).toList := by
  rcases partition_cases ':' ac.target.toList with ⟨h, -⟩ | ⟨t, after, htarget, ht, -⟩
  · rwa [targetOfId_of_not_mem h]
  · have hid : ac.node.toList =
        "access".toList ++ ':' :: (t ++ ':' :: (after ++ ':' :: ac.label.toList)) := by
      rw [toList_node, htarget, List.append_assoc, List.cons_append]
    rwa [targetOfId_eq ht hid, String.toList_ofList]

/-- Without colons in the targets, the identifier tells target and label. -/
theorem target_label_of_node {ac ac' : AccessEvidence} (h : ':' ∉ ac.target.toList)
    (h' : ':' ∉ ac'.target.toList) (heq : ac.node = ac'.node) :
    ac.target = ac'.target ∧ ac.label = ac'.label := by
  have htarget : ac.target = ac'.target := by
    rw [← targetOfId_of_not_mem h, ← targetOfId_of_not_mem h', heq]
  refine ⟨htarget, ?_⟩
  have hlist := congrArg String.toList heq
  rw [toList_node, toList_node, htarget] at hlist
  exact String.toList_injective (by simpa using hlist)

/-- The identifier of the node of a pair. -/
def nodeOfPair (p : String × Option String) : String := AccessEvidence.node ⟨p.1, p.2, "", ""⟩

theorem map_nodeOfPair (l : List AccessEvidence) :
    (l.map AccessEvidence.pair).map nodeOfPair = l.map AccessEvidence.node := List.map_map

/-! ## The nodes of access -/

section

variable {py : Interp} {now : String} {d : Draft} {base added : List GraphNode}

/-- None of the nodes is one of access, by its type or its identifier. -/
def Accessless (nodes : List GraphNode) : Prop :=
  ∀ n ∈ nodes, n.type ≠ .access ∧ ∀ ac : AccessEvidence, n.id ≠ ac.node

theorem Accessless.node (h : Accessless d.nodes) {n : GraphNode} (htype : n.type ≠ .access)
    (hid : ∀ ac : AccessEvidence, n.id ≠ ac.node) : Accessless (d.node n).nodes := by
  intro m hm
  rcases Rows.mem_addNew hm with hold | rfl
  · exact h m hold
  · exact ⟨htype, hid⟩

theorem nodes_edge (e : GraphEdge) : (d.edge e).nodes = d.nodes := by
  unfold Draft.edge
  split_ifs
  · rfl
  · rfl

theorem finding_technique_ne (ac : AccessEvidence) (v : String) :
    "finding:" ++ v ≠ ac.node ∧ "technique:" ++ v ≠ ac.node := by
  constructor
  · exact fun heq => by simpa [AccessEvidence.node] using congrArg String.toList heq
  · exact fun heq => by simpa [AccessEvidence.node] using congrArg String.toList heq

theorem accessless_assetStep (h : Accessless d.nodes) (a : AssetEvidence) :
    Accessless (assetStep py now d a).nodes := by
  unfold assetStep
  by_cases hvalue : a.value = ""
  · rwa [if_pos hvalue]
  · rw [if_neg hvalue]
    by_cases hservice : a.assetType ∈ serviceAssetTypes
    · rw [if_pos hservice]
      have hnode := h.node (n := ⟨"service:" ++ a.value, .service, upTo 160 a.value, "recon",
        a.tool, 9 / 10, now, now,
        ("asset_type", .str a.assetType) :: serviceAttrs a.metadata⟩) (by simp)
        fun ac => (access_ne ac a.value).1
      cases (hostOf py a).filter (· ≠ "") with
      | none => exact hnode
      | some host =>
        dsimp only
        rw [nodes_edge]
        exact hnode.node (by simp) fun ac => (access_ne ac host).2
    · rw [if_neg hservice]
      split_ifs
      · exact h.node (by simp) fun ac => (access_ne ac a.value).2
      · exact h

theorem accessless_linkFinding (h : Accessless d.nodes) (fid v : String) :
    Accessless (linkFinding py now d fid v).nodes := by
  unfold linkFinding
  dsimp only
  split_ifs
  · rwa [nodes_edge]
  · cases hostFromValue py v with
    | none => exact h
    | some host =>
      dsimp only
      split_ifs
      · rwa [nodes_edge]
      · exact h

theorem accessless_techniqueStep (h : Accessless d.nodes) (fid : String) (tup : Json.Value) :
    Accessless (techniqueStep py now fid d tup).nodes := by
  unfold techniqueStep
  split
  · next tacticId techniqueId techniqueName phase =>
    by_cases htruthy : techniqueId.truthy
    · rw [if_pos htruthy]
      dsimp only
      rw [nodes_edge]
      exact h.node (by simp) fun ac => (finding_technique_ne ac _).2
    · rwa [if_neg htruthy]
  · exact h

theorem accessless_findingStep (h : Accessless d.nodes) (f : FindingEvidence) :
    Accessless (findingStep py now d f).nodes := by
  unfold findingStep
  split_ifs
  · exact h
  · have hnode : Accessless (d.node (findingNode now f)).nodes :=
      h.node (by simp [findingNode]) fun ac => (finding_technique_ne ac _).1
    have hlinked : Accessless ((f.serviceValue.filter (· ≠ "")).elim (d.node (findingNode now f))
        (linkFinding py now (d.node (findingNode now f)) f.node)).nodes := by
      cases f.serviceValue.filter (· ≠ "") with
      | none => exact hnode
      | some v => exact accessless_linkFinding hnode f.node v
    exact Rows.foldl_keeps (techniqueStep py now f.node) (fun d => Accessless d.nodes)
      (fun _ tup h => accessless_techniqueStep h f.node tup) f.techniques hlinked

/-- Confirmed access adds its node behind the others, unless its identifier is there. -/
theorem nodes_accessStep (hbase : Accessless base) (hd : d.nodes = base ++ added)
    {ac : AccessEvidence} (htarget : ac.target ≠ "") :
    (accessStep py now d ac).nodes =
      base ++ Rows.addNew GraphNode.id added (accessNode now ac) := by
  have hnode : (d.node (accessNode now ac)).nodes =
      base ++ Rows.addNew GraphNode.id added (accessNode now ac) := by
    have hfresh : (accessNode now ac).id ∉ base.map GraphNode.id := by
      intro hmem
      obtain ⟨n, hn, hid⟩ := List.mem_map.mp hmem
      exact (hbase n hn).2 ac hid
    rw [← Rows.addNew_append hfresh, ← hd]
    rfl
  unfold accessStep
  rw [if_neg htarget]
  cases hostFromValue py ac.target with
  | none => exact hnode
  | some host =>
    dsimp only
    split_ifs
    · rw [nodes_edge, hnode]
    · exact hnode

theorem nodes_accessSteps (hbase : Accessless base) (access : List AccessEvidence)
    (hd : d.nodes = base ++ added) :
    (access.foldl (accessStep py now) d).nodes = base ++
      ((access.filter (·.target ≠ "")).map (accessNode now)).foldl (Rows.addNew GraphNode.id)
        added := by
  induction access generalizing d added with
  | nil => exact hd
  | cons ac access ih =>
    rw [List.foldl_cons]
    by_cases htarget : ac.target = ""
    · have hskip : accessStep py now d ac = d := by rw [accessStep, if_pos htarget]
      rw [hskip, ih hd, List.filter_cons_of_neg (by simpa using htarget)]
    · rw [ih (nodes_accessStep hbase hd htarget), List.filter_cons_of_pos (by simpa using htarget),
        List.map_cons, List.foldl_cons]

variable (py now) in
/-- **The nodes of a build**: those of access stand at the end, and for each identifier it is the
first evidence that counts. -/
theorem nodes_build (E : Evidence) : ∃ (base : List GraphNode) (kept : List AccessEvidence),
    Accessless base ∧ kept.Sublist E.granted ∧
    (buildGraph py now E).nodes = base ++ kept.map (accessNode now) ∧
      (kept.map AccessEvidence.node).Nodup ∧
        ∀ ac ∈ E.granted, ∃ ac' ∈ kept, ac'.node = ac.node := by
  have hassets : Accessless (E.assets.foldl (assetStep py now) Draft.empty).nodes :=
    Rows.foldl_keeps (assetStep py now) (fun d => Accessless d.nodes)
      (fun _ a h => accessless_assetStep h a) E.assets nofun
  have hbase : Accessless (E.findings.foldl (findingStep py now)
      (E.assets.foldl (assetStep py now) Draft.empty)).nodes :=
    Rows.foldl_keeps (findingStep py now) (fun d => Accessless d.nodes)
      (fun _ f h => accessless_findingStep h f) E.findings hassets
  obtain ⟨kept, hkept, hfold⟩ :=
    Rows.exists_kept GraphNode.id (accessNode now) E.granted []
  have hids : (kept.map (accessNode now)).map GraphNode.id = kept.map AccessEvidence.node := by
    rw [List.map_map]
    rfl
  refine ⟨_, kept, hbase, hkept, ?_, ?_, fun ac hac => ?_⟩
  · rw [buildGraph, nodes_accessSteps hbase E.access (List.append_nil _).symm]
    exact congrArg _ hfold
  · rw [← hids, ← List.nil_append (kept.map (accessNode now)), ← hfold]
    exact Rows.nodup_foldl_addNew (l := []) List.nodup_nil _
  · have hkey : ac.node ∈ kept.map AccessEvidence.node := by
      rw [← hids, ← List.nil_append (kept.map (accessNode now)), ← hfold]
      exact (Rows.mem_keys_foldl_addNew _ _ _).mpr
        (.inr ⟨_, List.mem_map_of_mem hac, rfl⟩)
    exact List.mem_map.mp hkey

end

/-! ## The report -/

section

variable {py : Interp} {now : String} {E : Evidence}

/-- The entry of evidence. -/
def entryOf (ac : AccessEvidence) : ConfirmedAccess :=
  ⟨targetOfId ac.node, .str (accessState ac.accessType), .str ac.moduleName⟩

theorem confirmedAccess_updateGraph (existing : Option Graph) {base : List GraphNode}
    {kept : List AccessEvidence} (hbase : Accessless base)
    (hnodes : (buildGraph py now E).nodes = base ++ kept.map (accessNode now)) :
    (gatherAttackGraph [some (updateGraph py existing E now)]).confirmedAccess =
      kept.map entryOf := by
  have hfilter : ∀ prev, ((base ++ kept.map (accessNode now)).map (mergeNode prev now)).filter
      (·.type = .access) = (kept.map (accessNode now)).map (mergeNode prev now) := by
    intro prev
    rw [List.map_append, List.filter_append, List.filter_eq_nil_iff.mpr, List.nil_append,
      List.filter_eq_self]
    · intro n hn
      obtain ⟨m, hm, rfl⟩ := List.mem_map.mp hn
      obtain ⟨ac, -, rfl⟩ := List.mem_map.mp hm
      rfl
    · intro n hn
      obtain ⟨m, hm, rfl⟩ := List.mem_map.mp hn
      exact fun h => (hbase m hm).1 (of_decide_eq_true h)
  simp only [gatherAttackGraph, List.flatMap_cons, List.flatMap_nil, Option.elim_some,
    List.append_nil, updateGraph, mergeGraph, hnodes, hfilter, List.map_map]
  rfl

theorem forall₂_map_entryOf {granted kept : List AccessEvidence} (hkept : kept ⊆ granted)
    (hcolon : ∀ ac ∈ granted, ':' ∉ ac.target.toList) :
    List.Forall₂ (ConfirmedAccess.About granted) (kept.map AccessEvidence.pair)
      (kept.map entryOf) := by
  rw [List.forall₂_map_left_iff, List.forall₂_map_right_iff, List.forall₂_same]
  intro ac hac
  exact ⟨targetOfId_of_not_mem (hcolon ac (hkept hac)), rfl, ac, hkept hac, rfl, rfl⟩

/-- As many pairs as identifiers: two pairs are never under one. -/
theorem pair_of_node {granted kept : List AccessEvidence} {pairs : List (String × Option String)}
    (hpairs : ∀ p, p ∈ pairs ↔ ∃ ac ∈ granted, ac.pair = p)
    (hlength : pairs.length = kept.length) (hnodup : (kept.map AccessEvidence.node).Nodup)
    (hkept : kept ⊆ granted) {ac ac' : AccessEvidence} (hac : ac ∈ granted) (hac' : ac' ∈ granted)
    (hnode : ac.node = ac'.node) : ac.pair = ac'.pair := by
  have hsubset : kept.map AccessEvidence.node ⊆ pairs.map nodeOfPair := by
    intro i hi
    obtain ⟨b, hb, rfl⟩ := List.mem_map.mp hi
    exact List.mem_map.mpr ⟨b.pair, (hpairs _).mpr ⟨b, hkept hb, rfl⟩, rfl⟩
  have hperm := (List.subperm_of_subset hnodup hsubset).perm_of_length_le (by simp [hlength])
  exact List.inj_on_of_nodup_map (hperm.nodup_iff.mp hnodup) ((hpairs _).mpr ⟨ac, hac, rfl⟩)
    ((hpairs _).mpr ⟨ac', hac', rfl⟩) hnode

/-- What is reported as it should has no colon in its target. -/
theorem Reported.colon_not_mem {granted kept : List AccessEvidence}
    (h : Reported granted (kept.map entryOf)) {ac : AccessEvidence} (hac : ac ∈ granted) :
    ':' ∉ ac.target.toList := by
  obtain ⟨pairs, -, hpairs, habout⟩ := h
  have hfirst : ac.target ∈ pairs.map Prod.fst :=
    List.mem_map_of_mem ((hpairs ac.pair).mpr ⟨ac, hac, rfl⟩)
  have htargets : List.Forall₂ (· = ·) (pairs.map Prod.fst)
      ((kept.map entryOf).map ConfirmedAccess.target) := by
    rw [List.forall₂_map_left_iff, List.forall₂_map_right_iff]
    exact habout.imp fun p e h => h.target.symm
  rw [List.forall₂_eq_eq_eq] at htargets
  rw [htargets, List.map_map] at hfirst
  obtain ⟨b, -, hb⟩ := List.mem_map.mp hfirst
  exact hb ▸ colon_not_mem_targetOfId b

/-- **The pairs are reported** if and only if no target has a colon and no target has two types of
access among `None`, the empty text and `access`. -/
theorem reported_iff (py : Interp) (existing : Option Graph) (E : Evidence) (now : String) :
    Reported E.granted
        (gatherAttackGraph [some (updateGraph py existing E now)]).confirmedAccess ↔
      (∀ ac ∈ E.granted, ':' ∉ ac.target.toList) ∧
        ∀ ac ∈ E.granted, ∀ ac' ∈ E.granted, ac.target = ac'.target → ac.label = ac'.label →
          ac.accessType = ac'.accessType := by
  obtain ⟨base, kept, hbase, hkept, hnodes, hnodup, hall⟩ := nodes_build py now E
  rw [confirmedAccess_updateGraph existing hbase hnodes]
  constructor
  · intro hreported
    refine ⟨fun ac hac => hreported.colon_not_mem hac, fun ac hac ac' hac' htarget hlabel => ?_⟩
    obtain ⟨pairs, -, hpairs, habout⟩ := hreported
    have hlength : pairs.length = kept.length := by simpa using habout.length_eq
    have hnode : ac.node = ac'.node := by
      simp only [AccessEvidence.node, htarget, hlabel]
    have hpair := pair_of_node hpairs hlength hnodup hkept.subset hac hac' hnode
    exact congrArg Prod.snd hpair
  · rintro ⟨hcolon, htypes⟩
    refine ⟨kept.map AccessEvidence.pair, List.Nodup.of_map nodeOfPair
      (map_nodeOfPair kept ▸ hnodup), fun p => ?_, forall₂_map_entryOf hkept.subset hcolon⟩
    rw [List.mem_map]
    constructor
    · rintro ⟨ac, hac, hp⟩
      exact ⟨ac, hkept.subset hac, hp⟩
    · rintro ⟨ac, hac, rfl⟩
      obtain ⟨b, hb, hnode⟩ := hall ac hac
      have hgranted := hkept.subset hb
      obtain ⟨htarget, hlabel⟩ :=
        target_label_of_node (hcolon b hgranted) (hcolon ac hac) hnode
      exact ⟨b, hb, Prod.ext htarget (htypes b hgranted ac hac htarget hlabel)⟩

end

/-! ## A URL as the target -/

def urlEvidence : Evidence where
  assets := []
  findings := []
  access := [⟨"http://h:3000", some "rce_proof", "known_cve", ""⟩]

/-- **The report says `http`** of the access to `http://h:3000`. -/
theorem url_cut : ¬ ∀ (py : Interp) (existing : Option Graph) (E : Evidence) (now : String),
    Reported E.granted
      (gatherAttackGraph [some (updateGraph py existing E now)]).confirmedAccess := by
  intro hall
  have hreported := hall labInterp none urlEvidence "1"
  obtain ⟨base, kept, hbase, -, hnodes, -⟩ := nodes_build labInterp "1" urlEvidence
  rw [confirmedAccess_updateGraph none hbase hnodes] at hreported
  exact hreported.colon_not_mem List.mem_cons_self (by decide)

example :
    (gatherAttackGraph [some (updateGraph labInterp none urlEvidence "1")]).confirmedAccess.map
      ConfirmedAccess.target = ["http"] := by decide

end ScanPlatform.AttackGraph

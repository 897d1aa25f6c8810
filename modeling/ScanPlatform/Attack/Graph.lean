import Mathlib.Data.Rat.Defs
import ScanPlatform.Base.Json
import ScanPlatform.Base.PyText
import ScanPlatform.Base.Rows

/-!
# The attack graph

The graph of an engagement is built from its evidence: assets, findings and confirmed access. A
graph that is updated is built again from all the evidence, and takes the times at which nodes and
edges were first seen from the graph before it.

* `Draft`: the nodes and edges of a build, whose edges are between nodes;
* `assetStep`, `findingStep`, `accessStep`, `buildGraph`, `mergeGraph`, `updateGraph`;
* **`mem_nodeIds_build`**, **`mem_edgeKeys_build`**: what a build shows;
* **`grows_iff_stillLinked`**: an update keeps what was there exactly when the findings that were
  linked to their host still are.
-/

set_option autoImplicit false

namespace ScanPlatform.AttackGraph

open PyStr

inductive NodeType where
  | asset
  | service
  | finding
  | technique
  | access
  deriving DecidableEq

inductive Rel where
  | exposes
  | hasFinding
  | mapsTo
  | granted
  deriving DecidableEq

/-- `_SERVICE_ASSET_TYPES`. -/
def serviceAssetTypes : List String := ["http_service", "service", "port"]

/-- `_HOST_ASSET_TYPES`. -/
def hostAssetTypes : List String := ["subdomain", "host", "domain", "ip"]

/-- `_SERVICE_ATTR_KEYS`. -/
def serviceAttrKeys : List String :=
  ["port", "service", "product", "version", "scheme", "status_code", "webserver", "tech"]

/-- `_ACCESS_STATE`. -/
def accessStates : List (String × String) :=
  [("valid_credentials", "access_obtained"), ("rce_proof", "access_obtained"),
    ("info_access", "info_access"), ("privilege_escalation", "privilege_escalation"),
    ("lateral_movement", "lateral_movement")]

/-- `_access_state`. -/
def accessState (accessType : Option String) : String :=
  (accessStates.lookup (lower (strip (accessType.getD "")))).getD "access_obtained"

structure AssetEvidence where
  assetType : String
  value : String
  tool : Option String
  metadata : Json.Object

/-- The techniques are tuples of tactic, technique, name and phase. -/
structure FindingEvidence where
  fingerprint : String
  title : String
  severity : String
  techniques : List Json.Value
  serviceValue : Option String
  category : Option String
  tool : Option String

structure AccessEvidence where
  target : String
  accessType : Option String
  moduleName : String
  proof : String

structure Evidence where
  assets : List AssetEvidence
  findings : List FindingEvidence
  access : List AccessEvidence

structure GraphNode where
  id : String
  type : NodeType
  label : String
  source : String
  tool : Option String
  confidence : ℚ
  firstSeen : String
  lastSeen : String
  attributes : Json.Object

structure GraphEdge where
  source : String
  target : String
  rel : Rel
  confidence : ℚ
  firstSeen : String

def GraphEdge.key (e : GraphEdge) : String × String × Rel := (e.source, e.target, e.rel)

/-- What the interpreter knows of the characters that are digits, and how it prints a value. -/
structure Interp where
  isDigit : Char → Bool
  str : Json.Value → String

/-! ## Hosts -/

def dropPrefix (pre s : List Char) : List Char := if pre.isPrefixOf s then s.drop pre.length else s

/-- `_host_from_value`. -/
def hostFromValue (py : Interp) (value : String) : Option String :=
  if value = "" then none
  else
    let v := stripChars isSpace value.toList
    let v := dropPrefix "https://".toList (dropPrefix "http://".toList v)
    let v := v.takeWhile (· ≠ '/')
    let parts := rpartition ':' v
    -- a numeric port goes, the host stays
    let v := if ':' ∈ v ∧ parts.1 ≠ [] ∧ parts.2.2 ≠ [] ∧ parts.2.2.all py.isDigit then parts.1
      else v
    if v = [] then none else some (String.ofList v)

/-- `_host_of`. -/
def hostOf (py : Interp) (asset : AssetEvidence) : Option String :=
  match ((asset.metadata.get "host").filter Json.Value.truthy).or
    ((asset.metadata.get "ip").filter Json.Value.truthy) with
  | some host => some (py.str host)
  | none => hostFromValue py asset.value

/-- `_service_attrs`. -/
def serviceAttrs (metadata : Json.Object) : Json.Object :=
  serviceAttrKeys.filterMap fun k =>
    match metadata.get k with
    | none | some .null => none
    | some v => some (k, v)

def optStr : Option String → Json.Value := fun o => o.elim .null .str

/-! ## The graph that is built -/

/-- The nodes and edges so far: no identifier twice, and no edge but between nodes. -/
structure Draft where
  nodes : List GraphNode
  edges : List GraphEdge
  ids : (nodes.map GraphNode.id).Nodup
  keys : (edges.map GraphEdge.key).Nodup
  closed : ∀ e ∈ edges, e.source ∈ nodes.map GraphNode.id ∧ e.target ∈ nodes.map GraphNode.id

namespace Draft

def nodeIds (d : Draft) : List String := d.nodes.map GraphNode.id

def edgeKeys (d : Draft) : List (String × String × Rel) := d.edges.map GraphEdge.key

def empty : Draft := ⟨[], [], List.nodup_nil, List.nodup_nil, nofun⟩

/-- `_node`. -/
def node (d : Draft) (n : GraphNode) : Draft where
  nodes := Rows.addNew GraphNode.id d.nodes n
  edges := d.edges
  ids := Rows.nodup_addNew d.ids n
  keys := d.keys
  closed e he := (d.closed e he).imp (fun h => Rows.mem_keys_addNew.mpr (.inl h))
    fun h => Rows.mem_keys_addNew.mpr (.inl h)

/-- `_edge`. -/
def edge (d : Draft) (e : GraphEdge) : Draft :=
  if h : e.source ∈ d.nodeIds ∧ e.target ∈ d.nodeIds then
    { d with
      edges := Rows.addNew GraphEdge.key d.edges e
      keys := Rows.nodup_addNew d.keys e
      closed := fun e' he' => (Rows.mem_addNew he').elim (d.closed e') fun heq => heq ▸ h }
  else d

variable {d : Draft} {i : String} {k : String × String × Rel}

@[simp] theorem mem_nodeIds_node {n : GraphNode} :
    i ∈ (d.node n).nodeIds ↔ i ∈ d.nodeIds ∨ i = n.id :=
  Rows.mem_keys_addNew

@[simp] theorem edgeKeys_node (n : GraphNode) : (d.node n).edgeKeys = d.edgeKeys := rfl

@[simp] theorem nodeIds_edge (e : GraphEdge) : (d.edge e).nodeIds = d.nodeIds := by
  unfold edge
  split_ifs
  · rfl
  · rfl

@[simp] theorem mem_edgeKeys_edge {e : GraphEdge} : k ∈ (d.edge e).edgeKeys ↔
    k ∈ d.edgeKeys ∨ e.source ∈ d.nodeIds ∧ e.target ∈ d.nodeIds ∧ k = e.key := by
  unfold edge
  split_ifs with h
  · refine Rows.mem_keys_addNew.trans (or_congr_right ?_)
    exact ⟨fun heq => ⟨h.1, h.2, heq⟩, fun heq => heq.2.2⟩
  · exact ⟨.inl, fun hk => hk.elim id fun he => absurd ⟨he.1, he.2.1⟩ h⟩

end Draft

/-! ## The evidence, piece by piece -/

/-- The identifier of the node of a finding. -/
def FindingEvidence.node (f : FindingEvidence) : String := "finding:" ++ f.fingerprint

def AccessEvidence.label (ac : AccessEvidence) : String :=
  (ac.accessType.filter (· ≠ "")).getD "access"

def AccessEvidence.node (ac : AccessEvidence) : String :=
  "access:" ++ ac.target ++ ":" ++ ac.label

section

variable (py : Interp) (now : String)

/-- An asset: a service with the host that it is exposed on, or a host. -/
def assetStep (d : Draft) (a : AssetEvidence) : Draft :=
  if a.value = "" then d
  else if a.assetType ∈ serviceAssetTypes then
    let sid := "service:" ++ a.value
    let d := d.node ⟨sid, .service, upTo 160 a.value, "recon", a.tool, 9 / 10, now, now,
      ("asset_type", .str a.assetType) :: serviceAttrs a.metadata⟩
    match (hostOf py a).filter (· ≠ "") with
    | none => d
    | some host =>
      let hid := "asset:" ++ host
      (d.node ⟨hid, .asset, upTo 160 host, "derived", a.tool, 9 / 10, now, now,
        [("kind", .str "host")]⟩).edge ⟨hid, sid, .exposes, 9 / 10, now⟩
  else if a.assetType ∈ hostAssetTypes then
    d.node ⟨"asset:" ++ a.value, .asset, upTo 160 a.value, "recon", a.tool, 9 / 10, now, now,
      [("kind", .str a.assetType)]⟩
  else d

/-- The link of a finding to the service it was observed at, or else to the host. -/
def linkFinding (d : Draft) (fid serviceValue : String) : Draft :=
  let sid := "service:" ++ serviceValue
  if sid ∈ d.nodeIds then d.edge ⟨sid, fid, .hasFinding, 17 / 20, now⟩
  else
    match hostFromValue py serviceValue with
    | none => d
    | some host =>
      let hid := "asset:" ++ host
      if hid ∈ d.nodeIds then d.edge ⟨hid, fid, .hasFinding, 17 / 20, now⟩ else d

/-- A technique of a finding; a bad tuple is passed over. -/
def techniqueStep (fid : String) (d : Draft) (tup : Json.Value) : Draft :=
  match tup with
  | .arr [tacticId, techniqueId, techniqueName, phase] =>
    if techniqueId.truthy then
      let tid := "technique:" ++ py.str techniqueId
      let label := if techniqueName.truthy then techniqueName else techniqueId
      (d.node ⟨tid, .technique, upTo 160 (py.str label), "mitre_catalog", none, 7 / 10, now, now,
        [("technique_id", techniqueId), ("tactic_id", tacticId),
          ("kill_chain_phase", phase)]⟩).edge ⟨fid, tid, .mapsTo, 7 / 10, now⟩
    else d
  | _ => d

def findingNode (f : FindingEvidence) : GraphNode :=
  let label := if f.title = "" then f.fingerprint else f.title
  ⟨f.node, .finding, upTo 160 label, "detection", f.tool, 17 / 20, now, now,
    [("severity", .str f.severity), ("category", optStr f.category)]⟩

def findingStep (d : Draft) (f : FindingEvidence) : Draft :=
  if f.fingerprint = "" then d
  else
    let d := d.node (findingNode now f)
    let d := (f.serviceValue.filter (· ≠ "")).elim d (linkFinding py now d f.node)
    f.techniques.foldl (techniqueStep py now f.node) d

def accessNode (ac : AccessEvidence) : GraphNode :=
  ⟨ac.node, .access, upTo 160 ac.label, "exploitation", none, 19 / 20, now, now,
    [("module", .str ac.moduleName), ("proof", .str (upTo 200 ac.proof)),
      ("access_type", optStr ac.accessType),
      ("access_state", .str (accessState ac.accessType))]⟩

/-- Confirmed access, and the host on which it was granted. -/
def accessStep (d : Draft) (ac : AccessEvidence) : Draft :=
  if ac.target = "" then d
  else
    let d := d.node (accessNode now ac)
    match hostFromValue py ac.target with
    | none => d
    | some host =>
      let hid := "asset:" ++ host
      if hid ∈ d.nodeIds then d.edge ⟨hid, ac.node, .granted, 19 / 20, now⟩ else d

def buildGraph (E : Evidence) : Draft :=
  let d := E.assets.foldl (assetStep py now) Draft.empty
  let d := E.findings.foldl (findingStep py now) d
  E.access.foldl (accessStep py now) d

end

/-- A graph as it is stored, with the keys of the document that are not the graph's own. -/
structure Graph where
  nodes : List GraphNode
  edges : List GraphEdge
  counts : List (NodeType × ℕ)
  updatedAt : String
  others : Json.Object

/-- `_counts`. -/
def typeCounts (nodes : List GraphNode) : List (NodeType × ℕ) :=
  nodes.foldl (fun out n =>
    if n.type ∈ out.map Prod.fst then
      out.map fun e => if e.1 = n.type then (e.1, e.2 + 1) else e
    else out ++ [(n.type, 1)]) []

/-- A node as it is merged with the nodes before; the last one under an identifier counts. -/
def mergeNode (prevNodes : List GraphNode) (now : String) (n : GraphNode) : GraphNode :=
  { n with
    firstSeen := (Rows.row GraphNode.id prevNodes.reverse n.id).elim n.firstSeen
      GraphNode.firstSeen
    lastSeen := now }

def mergeEdge (prevEdges : List GraphEdge) (e : GraphEdge) : GraphEdge :=
  { e with
    firstSeen := (Rows.row GraphEdge.key prevEdges.reverse e.key).elim e.firstSeen
      GraphEdge.firstSeen }

def mergeGraph (existing : Option Graph) (fresh : Draft) (now : String) : Graph where
  nodes := fresh.nodes.map (mergeNode (existing.elim [] Graph.nodes) now)
  edges := fresh.edges.map (mergeEdge (existing.elim [] Graph.edges))
  counts := typeCounts fresh.nodes
  updatedAt := now
  others := existing.elim [] Graph.others

def updateGraph (py : Interp) (existing : Option Graph) (E : Evidence) (now : String) : Graph :=
  mergeGraph existing (buildGraph py now E) now

def Graph.nodeIds (g : Graph) : List String := g.nodes.map GraphNode.id

def Graph.edgeKeys (g : Graph) : List (String × String × Rel) := g.edges.map GraphEdge.key

/-! ## What the evidence shows -/

/-- The service that an asset is. -/
def AssetEvidence.service (a : AssetEvidence) : Option String :=
  if a.value ≠ "" ∧ a.assetType ∈ serviceAssetTypes then some a.value else none

/-- The host that an asset is or is exposed on. -/
def AssetEvidence.host (py : Interp) (a : AssetEvidence) : Option String :=
  if a.value = "" then none
  else if a.assetType ∈ serviceAssetTypes then (hostOf py a).filter (· ≠ "")
  else if a.assetType ∈ hostAssetTypes then some a.value
  else none

def Evidence.services (E : Evidence) : List String := E.assets.filterMap AssetEvidence.service

def Evidence.hosts (py : Interp) (E : Evidence) : List String :=
  E.assets.filterMap (AssetEvidence.host py)

/-- The node of a technique. -/
def techniqueNode (py : Interp) : Json.Value → Option String
  | .arr [_, techniqueId, _, _] =>
    if techniqueId.truthy then some ("technique:" ++ py.str techniqueId) else none
  | _ => none

/-- The finding was observed at a listed service. -/
def FindingEvidence.AtService (f : FindingEvidence) (services : List String) (v : String) : Prop :=
  f.serviceValue = some v ∧ v ≠ "" ∧ v ∈ services

/-- The finding was observed at a value of the host that is not a listed service. -/
def FindingEvidence.AtHost (py : Interp) (f : FindingEvidence) (services : List String)
    (h : String) : Prop :=
  ∃ v, f.serviceValue = some v ∧ v ≠ "" ∧ v ∉ services ∧ hostFromValue py v = some h

/-- What a piece of evidence shows. -/
def AssetEvidence.Shows (py : Interp) (a : AssetEvidence) (i : String) : Prop :=
  (∃ v ∈ a.service, i = "service:" ++ v) ∨ ∃ h ∈ a.host py, i = "asset:" ++ h

def AssetEvidence.Links (py : Interp) (a : AssetEvidence) (k : String × String × Rel) : Prop :=
  ∃ v ∈ a.service, ∃ h ∈ a.host py, k = ("asset:" ++ h, "service:" ++ v, .exposes)

def FindingEvidence.Shows (py : Interp) (f : FindingEvidence) (i : String) : Prop :=
  f.fingerprint ≠ "" ∧ (i = f.node ∨ ∃ tup ∈ f.techniques, i ∈ techniqueNode py tup)

/-- The links of a finding, when these are the services and hosts. -/
def FindingEvidence.Links (py : Interp) (services hosts : List String) (f : FindingEvidence)
    (k : String × String × Rel) : Prop :=
  f.fingerprint ≠ "" ∧
    ((∃ v, f.AtService services v ∧ k = ("service:" ++ v, f.node, .hasFinding)) ∨
      (∃ h ∈ hosts, f.AtHost py services h ∧ k = ("asset:" ++ h, f.node, .hasFinding)) ∨
      ∃ tup ∈ f.techniques, ∃ tid ∈ techniqueNode py tup, k = (f.node, tid, .mapsTo))

def AccessEvidence.Shows (ac : AccessEvidence) (i : String) : Prop := ac.target ≠ "" ∧ i = ac.node

def AccessEvidence.Links (py : Interp) (hosts : List String) (ac : AccessEvidence)
    (k : String × String × Rel) : Prop :=
  ac.target ≠ "" ∧ ∃ h ∈ hosts, hostFromValue py ac.target = some h ∧
    k = ("asset:" ++ h, ac.node, .granted)

/-! ## What the steps add -/

section

variable {py : Interp} {now : String} {d : Draft} {i : String} {k : String × String × Rel}
  {services hosts : List String}

theorem service_ne_asset (v h : String) : "service:" ++ v ≠ "asset:" ++ h := fun heq => by
  simpa using congrArg String.toList heq

theorem mem_nodeIds_assetStep {a : AssetEvidence} :
    i ∈ (assetStep py now d a).nodeIds ↔ i ∈ d.nodeIds ∨ a.Shows py i := by
  unfold assetStep AssetEvidence.Shows AssetEvidence.service AssetEvidence.host
  by_cases hvalue : a.value = ""
  · simp [hvalue]
  · by_cases hservice : a.assetType ∈ serviceAssetTypes
    · cases hhost : (hostOf py a).filter (· ≠ "") with
      | none => simp [hvalue, hservice]
      | some host => simp [hvalue, hservice, or_assoc]
    · by_cases hhost : a.assetType ∈ hostAssetTypes
      · simp [hvalue, hservice, hhost]
      · simp [hvalue, hservice, hhost]

theorem mem_edgeKeys_assetStep {a : AssetEvidence} :
    k ∈ (assetStep py now d a).edgeKeys ↔ k ∈ d.edgeKeys ∨ a.Links py k := by
  unfold assetStep AssetEvidence.Links AssetEvidence.service AssetEvidence.host
  by_cases hvalue : a.value = ""
  · simp [hvalue]
  · by_cases hservice : a.assetType ∈ serviceAssetTypes
    · cases hhost : (hostOf py a).filter (· ≠ "") with
      | none => simp [hvalue, hservice]
      | some host => simp [hvalue, hservice, GraphEdge.key]
    · by_cases hhost : a.assetType ∈ hostAssetTypes
      · simp [hvalue, hservice, hhost]
      · simp [hvalue, hservice, hhost]

theorem nodeIds_linkFinding (fid v : String) :
    (linkFinding py now d fid v).nodeIds = d.nodeIds := by
  simp only [linkFinding]
  split_ifs
  · exact Draft.nodeIds_edge _
  · cases hostFromValue py v with
    | none => rfl
    | some host =>
      simp only
      split_ifs
      · exact Draft.nodeIds_edge _
      · rfl

theorem nodeIds_linkFinding_elim (fid : String) (o : Option String) :
    (o.elim d (linkFinding py now d fid)).nodeIds = d.nodeIds := by
  cases o with
  | none => rfl
  | some v => exact nodeIds_linkFinding fid v

theorem mem_nodeIds_techniqueStep {fid : String} {tup : Json.Value} :
    i ∈ (techniqueStep py now fid d tup).nodeIds ↔ i ∈ d.nodeIds ∨ i ∈ techniqueNode py tup := by
  unfold techniqueStep techniqueNode
  split
  · next tacticId techniqueId techniqueName phase =>
    by_cases htruthy : techniqueId.truthy
    · simp only [if_pos htruthy, Draft.nodeIds_edge, Draft.mem_nodeIds_node, Option.mem_def,
        Option.some.injEq]
      exact or_congr_right eq_comm
    · simp [htruthy]
  · simp

theorem mem_edgeKeys_techniqueStep {fid : String} {tup : Json.Value} (hfid : fid ∈ d.nodeIds) :
    k ∈ (techniqueStep py now fid d tup).edgeKeys ↔
      k ∈ d.edgeKeys ∨ ∃ tid ∈ techniqueNode py tup, k = (fid, tid, .mapsTo) := by
  unfold techniqueStep techniqueNode
  split
  · next tacticId techniqueId techniqueName phase =>
    by_cases htruthy : techniqueId.truthy
    · simp [htruthy, hfid, GraphEdge.key]
    · simp [htruthy]
  · simp

/-- The services and hosts that a build has nodes of. -/
structure Draft.Lists (d : Draft) (services hosts : List String) : Prop where
  service : ∀ v, "service:" ++ v ∈ d.nodeIds ↔ v ∈ services
  host : ∀ h, "asset:" ++ h ∈ d.nodeIds ↔ h ∈ hosts

theorem Draft.Lists.of_nodeIds {d' : Draft} (h : d.Lists services hosts)
    (hservice : ∀ v, "service:" ++ v ∈ d'.nodeIds ↔ "service:" ++ v ∈ d.nodeIds)
    (hhost : ∀ v, "asset:" ++ v ∈ d'.nodeIds ↔ "asset:" ++ v ∈ d.nodeIds) :
    d'.Lists services hosts :=
  ⟨fun v => (hservice v).trans (h.service v), fun v => (hhost v).trans (h.host v)⟩

theorem mem_edgeKeys_linkFinding {fid v : String} (hd : d.Lists services hosts)
    (hfid : fid ∈ d.nodeIds) :
    k ∈ (linkFinding py now d fid v).edgeKeys ↔ k ∈ d.edgeKeys ∨
      v ∈ services ∧ k = ("service:" ++ v, fid, .hasFinding) ∨
      ∃ h ∈ hosts, v ∉ services ∧ hostFromValue py v = some h ∧
        k = ("asset:" ++ h, fid, .hasFinding) := by
  unfold linkFinding
  simp only [hd.service]
  by_cases hv : v ∈ services
  · simp [hv, hfid, hd.service, GraphEdge.key]
  · cases hhost : hostFromValue py v with
    | none => simp [hv]
    | some host =>
      by_cases hmem : host ∈ hosts
      · simp [hv, hd.host, hmem, hfid, GraphEdge.key]
      · simp [hv, hd.host, hmem]

/-- The finding is linked when it has a location. -/
theorem mem_edgeKeys_linkFinding_elim {f : FindingEvidence} (hd : d.Lists services hosts)
    (hfid : f.node ∈ d.nodeIds) :
    k ∈ ((f.serviceValue.filter (· ≠ "")).elim d (linkFinding py now d f.node)).edgeKeys ↔
      k ∈ d.edgeKeys ∨
        (∃ v, f.AtService services v ∧ k = ("service:" ++ v, f.node, .hasFinding)) ∨
        ∃ h ∈ hosts, f.AtHost py services h ∧ k = ("asset:" ++ h, f.node, .hasFinding) := by
  unfold FindingEvidence.AtService FindingEvidence.AtHost
  cases hvalue : f.serviceValue with
  | none => simp
  | some v =>
    by_cases hempty : v = ""
    · have hfilter : (some v).filter (· ≠ "") = none := by simp [hempty]
      rw [hfilter, Option.elim_none]
      simp [hempty]
    · have hfilter : (some v).filter (· ≠ "") = some v := by simp [hempty]
      rw [hfilter, Option.elim_some, mem_edgeKeys_linkFinding hd hfid]
      simp [hempty, and_assoc]

/-- Nodes of other types are no services and no hosts. -/
theorem Draft.Lists.nodes {d' : Draft} (hd : d.Lists services hosts) {shown : String → Prop}
    (h : ∀ i, i ∈ d'.nodeIds ↔ i ∈ d.nodeIds ∨ shown i)
    (hshown : ∀ v, ¬ shown ("service:" ++ v) ∧ ¬ shown ("asset:" ++ v)) :
    d'.Lists services hosts :=
  hd.of_nodeIds (fun v => by simp [h, (hshown v).1]) fun v => by simp [h, (hshown v).2]

theorem finding_ne (f : FindingEvidence) (v : String) :
    "service:" ++ v ≠ f.node ∧ "asset:" ++ v ≠ f.node := by
  constructor
  · exact fun heq => by simpa [FindingEvidence.node] using congrArg String.toList heq
  · exact fun heq => by simpa [FindingEvidence.node] using congrArg String.toList heq

theorem access_ne (ac : AccessEvidence) (v : String) :
    "service:" ++ v ≠ ac.node ∧ "asset:" ++ v ≠ ac.node := by
  constructor
  · exact fun heq => by simpa [AccessEvidence.node] using congrArg String.toList heq
  · exact fun heq => by simpa [AccessEvidence.node] using congrArg String.toList heq

theorem techniqueNode_ne {tup : Json.Value} (v : String) :
    "service:" ++ v ∉ techniqueNode py tup ∧ "asset:" ++ v ∉ techniqueNode py tup := by
  unfold techniqueNode
  split
  · split_ifs
    · constructor
      · exact fun heq => by simpa using congrArg String.toList (Option.some.inj heq)
      · exact fun heq => by simpa using congrArg String.toList (Option.some.inj heq)
    · exact ⟨nofun, nofun⟩
  · exact ⟨nofun, nofun⟩

theorem FindingEvidence.not_shows (f : FindingEvidence) (v : String) :
    ¬ f.Shows py ("service:" ++ v) ∧ ¬ f.Shows py ("asset:" ++ v) := by
  constructor
  · rintro ⟨-, heq | ⟨tup, -, htup⟩⟩
    · exact (finding_ne f v).1 heq
    · exact (techniqueNode_ne v).1 htup
  · rintro ⟨-, heq | ⟨tup, -, htup⟩⟩
    · exact (finding_ne f v).2 heq
    · exact (techniqueNode_ne v).2 htup

theorem mem_nodeIds_findingStep {f : FindingEvidence} :
    i ∈ (findingStep py now d f).nodeIds ↔ i ∈ d.nodeIds ∨ f.Shows py i := by
  unfold findingStep FindingEvidence.Shows
  by_cases hfingerprint : f.fingerprint = ""
  · simp [hfingerprint]
  · rw [if_neg hfingerprint]
    refine (Rows.foldl_adds (techniqueStep py now f.node) (fun d i => i ∈ d.nodeIds)
      (fun tup i => i ∈ techniqueNode py tup) (fun _ => True) (fun _ _ _ => trivial)
      (fun d tup i _ => mem_nodeIds_techniqueStep) f.techniques trivial i).trans ?_
    rw [nodeIds_linkFinding_elim, Draft.mem_nodeIds_node, or_assoc]
    simp [hfingerprint, findingNode]

theorem Draft.Lists.findingStep (hd : d.Lists services hosts) (f : FindingEvidence) :
    (findingStep py now d f).Lists services hosts :=
  hd.nodes (fun _ => mem_nodeIds_findingStep) f.not_shows

theorem mem_edgeKeys_findingStep {f : FindingEvidence} (hd : d.Lists services hosts) :
    k ∈ (findingStep py now d f).edgeKeys ↔ k ∈ d.edgeKeys ∨ f.Links py services hosts k := by
  unfold AttackGraph.findingStep FindingEvidence.Links
  by_cases hfingerprint : f.fingerprint = ""
  · simp [hfingerprint]
  · rw [if_neg hfingerprint]
    have hnode : (d.node (findingNode now f)).Lists services hosts :=
      hd.nodes (fun _ => Draft.mem_nodeIds_node) (finding_ne f)
    have hfid : f.node ∈ (d.node (findingNode now f)).nodeIds :=
      Draft.mem_nodeIds_node.mpr (.inr rfl)
    refine (Rows.foldl_adds (techniqueStep py now f.node) (fun d k => k ∈ d.edgeKeys)
      (fun tup k => ∃ tid ∈ techniqueNode py tup, k = (f.node, tid, .mapsTo))
      (fun d => f.node ∈ d.nodeIds) (fun _ _ h => mem_nodeIds_techniqueStep.mpr (.inl h))
      (fun d tup k h => mem_edgeKeys_techniqueStep h) f.techniques
      ((nodeIds_linkFinding_elim _ _).symm ▸ hfid) k).trans ?_
    rw [mem_edgeKeys_linkFinding_elim hnode hfid, Draft.edgeKeys_node, or_assoc, or_assoc,
      and_iff_right hfingerprint]

theorem mem_nodeIds_accessStep {ac : AccessEvidence} :
    i ∈ (accessStep py now d ac).nodeIds ↔ i ∈ d.nodeIds ∨ ac.Shows i := by
  unfold accessStep AccessEvidence.Shows
  by_cases htarget : ac.target = ""
  · simp [htarget]
  · rw [if_neg htarget]
    cases hostFromValue py ac.target with
    | none => simp [htarget, accessNode]
    | some host =>
      simp only
      split_ifs
      · simp [htarget, accessNode]
      · simp [htarget, accessNode]

theorem Draft.Lists.accessStep (hd : d.Lists services hosts) (ac : AccessEvidence) :
    (accessStep py now d ac).Lists services hosts :=
  hd.nodes (fun _ => mem_nodeIds_accessStep) fun v =>
    ⟨fun h => (access_ne ac v).1 h.2, fun h => (access_ne ac v).2 h.2⟩

theorem mem_edgeKeys_accessStep {ac : AccessEvidence} (hd : d.Lists services hosts) :
    k ∈ (accessStep py now d ac).edgeKeys ↔ k ∈ d.edgeKeys ∨ ac.Links py hosts k := by
  unfold AttackGraph.accessStep AccessEvidence.Links
  by_cases htarget : ac.target = ""
  · simp [htarget]
  · rw [if_neg htarget]
    have hnode : (d.node (accessNode now ac)).Lists services hosts :=
      hd.nodes (fun _ => Draft.mem_nodeIds_node) (access_ne ac)
    cases hhost : hostFromValue py ac.target with
    | none => simp
    | some host =>
      simp only [hnode.host]
      by_cases hmem : host ∈ hosts
      · have hhid := (hnode.host host).mpr hmem
        have hnew : ac.node ∈ (d.node (accessNode now ac)).nodeIds :=
          Draft.mem_nodeIds_node.mpr (.inr rfl)
        rw [if_pos hmem, Draft.mem_edgeKeys_edge, Draft.edgeKeys_node]
        simp [hhid, hnew, hmem, htarget, GraphEdge.key]
      · simp [hmem, htarget]

/-! ## What a build shows -/

variable {E : Evidence}

variable (py now E)

/-- The builds after the assets and after the findings. -/
def assetsDraft : Draft := E.assets.foldl (assetStep py now) Draft.empty

def findingsDraft : Draft := E.findings.foldl (findingStep py now) (assetsDraft py now E)

variable {py now E}

theorem mem_nodeIds_assets :
    i ∈ (assetsDraft py now E).nodeIds ↔ ∃ a ∈ E.assets, a.Shows py i := by
  refine (Rows.foldl_adds (assetStep py now) (fun d i => i ∈ d.nodeIds) (AssetEvidence.Shows py)
    (fun _ => True) (fun _ _ _ => trivial) (fun _ _ _ _ => mem_nodeIds_assetStep) E.assets trivial
    i).trans ?_
  simp [Draft.empty, Draft.nodeIds]

theorem mem_edgeKeys_assets :
    k ∈ (assetsDraft py now E).edgeKeys ↔ ∃ a ∈ E.assets, a.Links py k := by
  refine (Rows.foldl_adds (assetStep py now) (fun d k => k ∈ d.edgeKeys) (AssetEvidence.Links py)
    (fun _ => True) (fun _ _ _ => trivial) (fun _ _ _ _ => mem_edgeKeys_assetStep) E.assets trivial
    k).trans ?_
  simp [Draft.empty, Draft.edgeKeys]

/-- After the assets, the services and hosts are those of the evidence. -/
theorem lists_assets : (assetsDraft py now E).Lists E.services (E.hosts py) := by
  constructor
  · intro v
    rw [mem_nodeIds_assets]
    simp only [AssetEvidence.Shows, Evidence.services, List.mem_filterMap]
    refine exists_congr fun a => and_congr_right fun _ => ⟨?_, fun hv => .inl ⟨v, hv, rfl⟩⟩
    rintro (⟨v', hv', heq⟩ | ⟨h, -, heq⟩)
    · rwa [(String.append_right_inj _).mp heq]
    · exact absurd heq (service_ne_asset v h)
  · intro h
    rw [mem_nodeIds_assets]
    simp only [AssetEvidence.Shows, Evidence.hosts, List.mem_filterMap]
    refine exists_congr fun a => and_congr_right fun _ => ⟨?_, fun hh => .inr ⟨h, hh, rfl⟩⟩
    rintro (⟨v, -, heq⟩ | ⟨h', hh', heq⟩)
    · exact absurd heq.symm (service_ne_asset v h)
    · rwa [(String.append_right_inj _).mp heq]

theorem lists_findings : (findingsDraft py now E).Lists E.services (E.hosts py) :=
  Rows.foldl_keeps (findingStep py now) (fun d => d.Lists E.services (E.hosts py))
    (fun _ f hd => hd.findingStep f) E.findings lists_assets

theorem mem_nodeIds_findings : i ∈ (findingsDraft py now E).nodeIds ↔
    (∃ a ∈ E.assets, a.Shows py i) ∨ ∃ f ∈ E.findings, f.Shows py i := by
  refine (Rows.foldl_adds (findingStep py now) (fun d i => i ∈ d.nodeIds)
    (FindingEvidence.Shows py) (fun _ => True) (fun _ _ _ => trivial)
    (fun _ _ _ _ => mem_nodeIds_findingStep) E.findings trivial i).trans ?_
  exact or_congr_left mem_nodeIds_assets

theorem mem_edgeKeys_findings : k ∈ (findingsDraft py now E).edgeKeys ↔
    (∃ a ∈ E.assets, a.Links py k) ∨ ∃ f ∈ E.findings, f.Links py E.services (E.hosts py) k := by
  refine (Rows.foldl_adds (findingStep py now) (fun d k => k ∈ d.edgeKeys)
    (FindingEvidence.Links py E.services (E.hosts py)) (fun d => d.Lists E.services (E.hosts py))
    (fun _ f hd => hd.findingStep f) (fun _ _ _ hd => mem_edgeKeys_findingStep hd) E.findings
    lists_assets k).trans ?_
  exact or_congr_left mem_edgeKeys_assets

/-- **The nodes of a build** are those that the evidence shows. -/
theorem mem_nodeIds_build : i ∈ (buildGraph py now E).nodeIds ↔
    ((∃ a ∈ E.assets, a.Shows py i) ∨ ∃ f ∈ E.findings, f.Shows py i) ∨
      ∃ ac ∈ E.access, ac.Shows i := by
  refine (Rows.foldl_adds (accessStep py now) (fun d i => i ∈ d.nodeIds) AccessEvidence.Shows
    (fun _ => True) (fun _ _ _ => trivial) (fun _ _ _ _ => mem_nodeIds_accessStep) E.access
    trivial i).trans ?_
  exact or_congr_left mem_nodeIds_findings

/-- **The edges of a build.** -/
theorem mem_edgeKeys_build : k ∈ (buildGraph py now E).edgeKeys ↔
    ((∃ a ∈ E.assets, a.Links py k) ∨ ∃ f ∈ E.findings, f.Links py E.services (E.hosts py) k) ∨
      ∃ ac ∈ E.access, ac.Links py (E.hosts py) k := by
  refine (Rows.foldl_adds (accessStep py now) (fun d k => k ∈ d.edgeKeys)
    (AccessEvidence.Links py (E.hosts py)) (fun d => d.Lists E.services (E.hosts py))
    (fun _ ac hd => hd.accessStep ac) (fun _ _ _ hd => mem_edgeKeys_accessStep hd) E.access
    lists_findings k).trans ?_
  exact or_congr_left mem_edgeKeys_findings

end

/-! ## Merging -/

section

variable {py : Interp} {now now' : String} {E E' : Evidence} {existing : Option Graph}

@[simp] theorem nodeIds_mergeGraph (existing : Option Graph) (fresh : Draft) (now : String) :
    (mergeGraph existing fresh now).nodeIds = fresh.nodeIds := by
  simp [mergeGraph, Graph.nodeIds, Draft.nodeIds, mergeNode, Function.comp_def]

@[simp] theorem edgeKeys_mergeGraph (existing : Option Graph) (fresh : Draft) (now : String) :
    (mergeGraph existing fresh now).edgeKeys = fresh.edgeKeys := by
  simp [mergeGraph, Graph.edgeKeys, Draft.edgeKeys, mergeEdge, GraphEdge.key, Function.comp_def]

/-- **A node that is built again keeps the time at which it was first seen.** -/
theorem firstSeen_mergeNode {g : Graph} {fresh : Draft} {n : GraphNode} (hg : g.nodeIds.Nodup)
    (hn : n ∈ g.nodes) (h : n.id ∈ fresh.nodeIds) :
    ∃ n' ∈ (mergeGraph (some g) fresh now).nodes, n'.id = n.id ∧ n'.firstSeen = n.firstSeen := by
  obtain ⟨m, hm, hid⟩ := List.mem_map.mp h
  refine ⟨mergeNode g.nodes now m, List.mem_map_of_mem hm, hid, ?_⟩
  simp only [mergeNode, hid, Rows.row_reverse hg hn, Option.elim_some]

theorem firstSeen_mergeEdge {g : Graph} {fresh : Draft} {e : GraphEdge} (hg : g.edgeKeys.Nodup)
    (he : e ∈ g.edges) (h : e.key ∈ fresh.edgeKeys) :
    ∃ e' ∈ (mergeGraph (some g) fresh now).edges, e'.key = e.key ∧ e'.firstSeen = e.firstSeen := by
  obtain ⟨m, hm, hkey⟩ := List.mem_map.mp h
  refine ⟨mergeEdge g.edges m, List.mem_map_of_mem hm, hkey, ?_⟩
  simp only [mergeEdge, hkey, Rows.row_reverse hg he, Option.elim_some]

/-! ## More evidence -/

/-- The evidence is part of the other. -/
structure Evidence.Contained (E E' : Evidence) : Prop where
  assets : E.assets ⊆ E'.assets
  findings : E.findings ⊆ E'.findings
  access : E.access ⊆ E'.access

/-- The same evidence in another order. -/
structure Evidence.Reordered (E E' : Evidence) : Prop where
  assets : E.assets.Perm E'.assets
  findings : E.findings.Perm E'.findings
  access : E.access.Perm E'.access

/-- Each finding that was observed at a value of a known host, which was no listed service, is
still observed at such a value. -/
def StillLinked (py : Interp) (E E' : Evidence) : Prop :=
  ∀ f ∈ E.findings, f.fingerprint ≠ "" → ∀ h ∈ E.hosts py, f.AtHost py E.services h →
    ∃ f' ∈ E'.findings, f'.fingerprint = f.fingerprint ∧ f'.AtHost py E'.services h

/-- A graph keeps what was there before, and has no edge but between its nodes. -/
structure Grows (g g' : Graph) : Prop where
  nodes : ∀ n ∈ g.nodes, ∃ n' ∈ g'.nodes, n'.id = n.id ∧ n'.firstSeen = n.firstSeen
  edges : ∀ e ∈ g.edges, ∃ e' ∈ g'.edges, e'.key = e.key ∧ e'.firstSeen = e.firstSeen
  closed : ∀ e ∈ g'.edges, e.source ∈ g'.nodeIds ∧ e.target ∈ g'.nodeIds

/-- The nodes and edges of the evidence are the same in every order. -/
def OrderFree (py : Interp) (E : Evidence) : Prop :=
  ∀ E', E.Reordered E' → ∀ existing existing' now now',
    (∀ i, i ∈ (updateGraph py existing E now).nodeIds ↔
      i ∈ (updateGraph py existing' E' now').nodeIds) ∧
    ∀ k, k ∈ (updateGraph py existing E now).edgeKeys ↔
      k ∈ (updateGraph py existing' E' now').edgeKeys

theorem Evidence.Contained.services (h : E.Contained E') : E.services ⊆ E'.services :=
  List.filterMap_subset _ h.assets

theorem Evidence.Contained.hosts (h : E.Contained E') : E.hosts py ⊆ E'.hosts py :=
  List.filterMap_subset _ h.assets

theorem Evidence.Reordered.contained (h : E.Reordered E') : E.Contained E' ∧ E'.Contained E :=
  ⟨⟨h.assets.subset, h.findings.subset, h.access.subset⟩,
    h.assets.symm.subset, h.findings.symm.subset, h.access.symm.subset⟩

/-- More evidence shows more nodes. -/
theorem nodeIds_mono (h : E.Contained E') {i : String} (hi : i ∈ (buildGraph py now E).nodeIds) :
    i ∈ (buildGraph py now' E').nodeIds := by
  rw [mem_nodeIds_build] at hi ⊢
  rcases hi with (⟨a, ha, hshows⟩ | ⟨f, hf, hshows⟩) | ⟨ac, hac, hshows⟩
  · exact .inl (.inl ⟨a, h.assets ha, hshows⟩)
  · exact .inl (.inr ⟨f, h.findings hf, hshows⟩)
  · exact .inr ⟨ac, h.access hac, hshows⟩

/-- More evidence keeps the edges of a build when the findings are still linked to their hosts. -/
theorem edgeKeys_mono (h : E.Contained E') (hlinked : StillLinked py E E')
    {k : String × String × Rel} (hk : k ∈ (buildGraph py now E).edgeKeys) :
    k ∈ (buildGraph py now' E').edgeKeys := by
  rw [mem_edgeKeys_build] at hk ⊢
  rcases hk with (⟨a, ha, hlinks⟩ | ⟨f, hf, hfingerprint, hlinks⟩) |
    ⟨ac, hac, htarget, host, hhost, heq, rfl⟩
  · exact .inl (.inl ⟨a, h.assets ha, hlinks⟩)
  · refine .inl (.inr ?_)
    rcases hlinks with ⟨v, ⟨hvalue, hempty, hv⟩, rfl⟩ | ⟨host, hhost, hat, rfl⟩ | hmaps
    · -- a service that is listed stays listed
      exact ⟨f, h.findings hf, hfingerprint, .inl ⟨v, ⟨hvalue, hempty, h.services hv⟩, rfl⟩⟩
    · obtain ⟨f', hf', heq, hat'⟩ := hlinked f hf hfingerprint host hhost hat
      refine ⟨f', hf', heq ▸ hfingerprint, .inr (.inl ⟨host, h.hosts hhost, hat', ?_⟩)⟩
      simp only [FindingEvidence.node, heq]
    · exact ⟨f, h.findings hf, hfingerprint, .inr (.inr hmaps)⟩
  · exact .inr ⟨ac, h.access hac, htarget, host, h.hosts hhost, heq, rfl⟩

/-- Edges between hosts and findings come from the findings that are linked to their host. -/
theorem mem_edgeKeys_host {h fid : String} :
    ("asset:" ++ h, "finding:" ++ fid, Rel.hasFinding) ∈ (buildGraph py now E).edgeKeys ↔
      h ∈ E.hosts py ∧ ∃ f ∈ E.findings, f.fingerprint = fid ∧ fid ≠ "" ∧
        f.AtHost py E.services h := by
  rw [mem_edgeKeys_build]
  constructor
  · rintro ((⟨a, -, v, -, host, -, heq⟩ | ⟨f, hf, hfingerprint, hlinks⟩) |
      ⟨ac, -, -, host, -, -, heq⟩)
    · exact nomatch congrArg (fun k => k.2.2) heq
    · rcases hlinks with ⟨v, -, heq⟩ | ⟨host, hhost, hat, heq⟩ | ⟨tup, -, tid, -, heq⟩
      · exact absurd (congrArg Prod.fst heq).symm (service_ne_asset v h)
      · have hsource := (String.append_right_inj _).mp (congrArg Prod.fst heq)
        have htarget := (String.append_right_inj _).mp (congrArg (fun k => k.2.1) heq)
        subst hsource htarget
        exact ⟨hhost, f, hf, rfl, hfingerprint, hat⟩
      · exact nomatch congrArg (fun k => k.2.2) heq
    · exact nomatch congrArg (fun k => k.2.2) heq
  · rintro ⟨hhost, f, hf, rfl, hfingerprint, hat⟩
    exact .inl (.inr ⟨f, hf, hfingerprint, .inr (.inl ⟨h, hhost, hat, rfl⟩)⟩)

/-- Evidence in another order is linked to the same hosts. -/
theorem Evidence.Reordered.stillLinked (h : E.Reordered E') : StillLinked py E E' := by
  intro f hf _ host _ hat
  obtain ⟨v, hvalue, hempty, hv, hfrom⟩ := hat
  exact ⟨f, h.findings.mem_iff.mp hf, rfl, v, hvalue, hempty,
    fun hmem => hv (h.contained.2.services hmem), hfrom⟩

theorem Evidence.Reordered.symm (h : E.Reordered E') : E'.Reordered E :=
  ⟨h.assets.symm, h.findings.symm, h.access.symm⟩

theorem orderFree (py : Interp) (E : Evidence) : OrderFree py E := by
  intro E' h existing existing' now now'
  simp only [updateGraph, nodeIds_mergeGraph, edgeKeys_mergeGraph]
  constructor
  · exact fun i => ⟨nodeIds_mono h.contained.1, nodeIds_mono h.contained.2⟩
  · exact fun k => ⟨edgeKeys_mono h.contained.1 h.stillLinked,
      edgeKeys_mono h.contained.2 h.symm.stillLinked⟩

theorem closed_updateGraph (py : Interp) (existing : Option Graph) (E : Evidence) (now : String) :
    ∀ e ∈ (updateGraph py existing E now).edges,
      e.source ∈ (updateGraph py existing E now).nodeIds ∧
        e.target ∈ (updateGraph py existing E now).nodeIds := by
  intro e he
  obtain ⟨e₀, he₀, rfl⟩ := List.mem_map.mp he
  rw [updateGraph, nodeIds_mergeGraph]
  exact (buildGraph py now E).closed e₀ he₀

/-- An update with more evidence keeps the graph when the findings are still linked. -/
theorem grows_of_stillLinked (h : E.Contained E') (hlinked : StillLinked py E E')
    (existing : Option Graph) (now now' : String) :
    Grows (updateGraph py existing E now)
      (updateGraph py (some (updateGraph py existing E now)) E' now') := by
  have hids : (updateGraph py existing E now).nodeIds = (buildGraph py now E).nodeIds :=
    nodeIds_mergeGraph _ _ _
  have hkeys : (updateGraph py existing E now).edgeKeys = (buildGraph py now E).edgeKeys :=
    edgeKeys_mergeGraph _ _ _
  refine ⟨fun n hn => ?_, fun e he => ?_, closed_updateGraph _ _ _ _⟩
  · have hmem : n.id ∈ (buildGraph py now E).nodeIds := hids ▸ List.mem_map_of_mem hn
    exact firstSeen_mergeNode (hids ▸ (buildGraph py now E).ids) hn (nodeIds_mono h hmem)
  · have hmem : e.key ∈ (buildGraph py now E).edgeKeys := hkeys ▸ List.mem_map_of_mem he
    exact firstSeen_mergeEdge (hkeys ▸ (buildGraph py now E).keys) he
      (edgeKeys_mono h hlinked hmem)

/-- A finding that is no longer linked to its host has lost its edge. -/
theorem stillLinked_of_grows (hgrows : Grows (updateGraph py existing E now)
    (updateGraph py (some (updateGraph py existing E now)) E' now')) : StillLinked py E E' := by
  intro f hf hfingerprint host hhost hat
  have hedge : ("asset:" ++ host, f.node, Rel.hasFinding) ∈
      (updateGraph py existing E now).edgeKeys := by
    rw [updateGraph, edgeKeys_mergeGraph]
    exact mem_edgeKeys_host.mpr ⟨hhost, f, hf, rfl, hfingerprint, hat⟩
  obtain ⟨e, he, hkey⟩ := List.mem_map.mp hedge
  obtain ⟨e', he', hkey', -⟩ := hgrows.edges e he
  have hkept : ("asset:" ++ host, f.node, Rel.hasFinding) ∈
      (updateGraph py (some (updateGraph py existing E now)) E' now').edgeKeys :=
    (hkey'.trans hkey) ▸ List.mem_map_of_mem he'
  rw [updateGraph, edgeKeys_mergeGraph] at hkept
  obtain ⟨-, f', hf', heq, -, hat'⟩ := mem_edgeKeys_host.mp hkept
  exact ⟨f', hf', heq, hat'⟩

/-- **What an update keeps**: a graph that is updated with more evidence keeps its nodes and edges
exactly when every finding that was linked to its host still is. -/
theorem grows_iff_stillLinked (h : E.Contained E') (existing : Option Graph) (now now' : String) :
    Grows (updateGraph py existing E now)
        (updateGraph py (some (updateGraph py existing E now)) E' now') ∧ OrderFree py E' ↔
      StillLinked py E E' :=
  ⟨fun hgrows => stillLinked_of_grows hgrows.1,
    fun hlinked => ⟨grows_of_stillLinked h hlinked existing now now', orderFree py E'⟩⟩

end

/-! ## A host and its service -/

def labInterp : Interp := ⟨Char.isDigit, fun _ => ""⟩

/-- A finding on port 443 of a host. -/
def hostEvidence : Evidence where
  assets := [⟨"host", "h", none, []⟩]
  findings := [⟨"tls||h", "Weak cipher", "low", [], some "h:443", none, none⟩]
  access := []

/-- The port is found later. -/
def portEvidence : Evidence :=
  { hostEvidence with assets := [⟨"host", "h", none, []⟩, ⟨"port", "h:443", none, []⟩] }

/-- Another host is found later. -/
def otherEvidence : Evidence :=
  { hostEvidence with assets := [⟨"host", "h", none, []⟩, ⟨"host", "g", none, []⟩] }

/-- More assets, and the same findings. -/
theorem contained_assets {E : Evidence} {assets : List AssetEvidence} (h : E.assets ⊆ assets) :
    E.Contained { E with assets := assets } :=
  ⟨h, List.Subset.refl _, List.Subset.refl _⟩

theorem grows_iff_stillLinked_lab :
    Grows (updateGraph labInterp none hostEvidence "1")
        (updateGraph labInterp (some (updateGraph labInterp none hostEvidence "1"))
          otherEvidence "2") ∧ OrderFree labInterp otherEvidence ↔
      StillLinked labInterp hostEvidence otherEvidence :=
  grows_iff_stillLinked (contained_assets (List.subset_append_left _ _)) none "1" "2"

/-- **The host loses its finding** to the port that is found later. -/
theorem port_takes_finding : ¬ ∀ (py : Interp) (existing : Option Graph) (E E' : Evidence)
    (now now' : String), E.Contained E' →
      Grows (updateGraph py existing E now)
        (updateGraph py (some (updateGraph py existing E now)) E' now') ∧ OrderFree py E' := by
  intro hall
  have hgrows := (hall labInterp none hostEvidence portEvidence "1" "2"
    (contained_assets (List.subset_append_left _ _))).1
  have hhost : "h" ∈ hostEvidence.hosts labInterp := by decide
  obtain ⟨f', hf', -, v, hvalue, -, hv, -⟩ := stillLinked_of_grows hgrows _
    List.mem_cons_self (by decide) "h" hhost ⟨"h:443", rfl, by decide, by decide, by decide⟩
  obtain rfl := List.mem_singleton.mp hf'
  obtain rfl := Option.some.inj hvalue
  exact hv (by decide)

end ScanPlatform.AttackGraph

import Mendpoint.Library.OrderedMap

/-!
# The call graph model

Nodes are functions and methods, edges are calls from a caller to a callee.
A graph keeps its nodes under their identifiers and carries two adjacency
indices, `outEdges` and `inEdges`, from node identifiers to edge identifiers.

Wall-clock fields (`builtAt`, `lastIncremental`), traversal diagnostics and
the provenance of alternate extractors are not read by any function modelled
here and are left out.
-/

namespace Mendpoint.Calls

open Mendpoint.Library

/-- How a call was resolved to its target. -/
inductive CallResolution where
  | direct
  | nameMatch
  | cha
  | rta
  | importContext
  | virtualApprox
  | externalStub
  deriving DecidableEq

/-- The text of a resolution in hashes and reports. -/
def CallResolution.text : CallResolution → String
  | .direct => "direct"
  | .nameMatch => "name_match"
  | .cha => "cha"
  | .rta => "rta"
  | .importContext => "import_context"
  | .virtualApprox => "virtual_approx"
  | .externalStub => "external_stub"

/-- Confidence of a call edge. -/
inductive CallEdgeConfidence where
  | high
  | medium
  | low
  deriving DecidableEq

/-- The text of a confidence in hashes and reports. -/
def CallEdgeConfidence.text : CallEdgeConfidence → String
  | .high => "high"
  | .medium => "medium"
  | .low => "low"

/-- Numeric rank of a confidence; larger is more confident. -/
def confRank : CallEdgeConfidence → Nat
  | .high => 2
  | .medium => 1
  | .low => 0

/-- The less confident of two confidences. -/
def minConf (left right : CallEdgeConfidence) : CallEdgeConfidence :=
  if confRank left ≤ confRank right then left else right

/-- Source languages of a function node. -/
inductive Language where
  | typescript
  | javascript
  | python
  | go
  | java
  | other
  deriving DecidableEq

/-- The text of a language in hashes. -/
def Language.text : Language → String
  | .typescript => "typescript"
  | .javascript => "javascript"
  | .python => "python"
  | .go => "go"
  | .java => "java"
  | .other => "other"

/-- A function or method of the analysed repository. -/
structure FunctionNode where
  id : String
  qualifiedName : String
  name : String
  filePath : String
  lineStart : Nat
  lineEnd : Nat
  language : Language
  enclosingType : Option String
  isExternalApi : Bool
  isTest : Bool
  signature : Option String
  bodyHash : Option String
  deriving DecidableEq

/-- One call, from a site in the caller to a resolved callee. -/
structure CallEdge where
  id : String
  callerId : String
  calleeId : String
  callSiteFile : String
  callSiteLine : Nat
  resolution : CallResolution
  confidence : CallEdgeConfidence
  virtual : Bool
  deriving DecidableEq

/-- Types with their parents, instantiations and declared methods. -/
structure TypeHierarchy where
  parentsOf : OrderedMap String (List String)
  instantiated : List String
  methodsOfType : OrderedMap String (List String)

/-- Resolution algorithms. -/
inductive Algorithm where
  | name
  | cha
  | rta
  | hybrid
  deriving DecidableEq

/-- A table of nodes in which every node is stored under its identifier. -/
structure NodeTable where
  map : OrderedMap String FunctionNode
  keyed : ∀ {id node}, map.get? id = some node → node.id = id

namespace NodeTable

/-- The table without nodes. -/
def empty : NodeTable where
  map := ∅
  keyed := by
    intro id node found
    cases found

instance : EmptyCollection NodeTable := ⟨empty⟩

/-- `nodes[id]`. -/
def get? (table : NodeTable) (id : String) : Option FunctionNode :=
  table.map.get? id

/-- `nodes[node.id] = node`. -/
def insert (table : NodeTable) (node : FunctionNode) : NodeTable where
  map := table.map.set node.id node
  keyed := by
    intro id stored found
    rw [OrderedMap.get?_set] at found
    split at found
    · cases found
      assumption
    · exact table.keyed found

/-- Keep the nodes whose identifier passes a test. -/
def filterIds (keep : String → Bool) (table : NodeTable) : NodeTable where
  map := table.map.filterKeys keep
  keyed := by
    intro id stored found
    rw [OrderedMap.get?_filterKeys] at found
    split at found
    · exact table.keyed found
    · cases found

/-- Insert the nodes of a list in turn. -/
def insertAll (table : NodeTable) (nodes : List FunctionNode) :
    NodeTable :=
  nodes.foldl insert table

/-- `Object.keys(nodes)`. -/
def ids (table : NodeTable) : List String :=
  table.map.keys

/-- `Object.values(nodes)`. -/
def values (table : NodeTable) : List FunctionNode :=
  table.map.values

@[simp]
theorem get?_filterIds (table : NodeTable) (keep : String → Bool)
    (id : String) :
    (table.filterIds keep).get? id =
      if keep id then table.get? id else none :=
  OrderedMap.get?_filterKeys table.map keep id

theorem id_of_get? {table : NodeTable} {id : String}
    {node : FunctionNode} (found : table.get? id = some node) :
    node.id = id :=
  table.keyed found

theorem mem_values_iff (table : NodeTable) (node : FunctionNode) :
    node ∈ table.values ↔ table.get? node.id = some node := by
  rw [values, OrderedMap.mem_values_iff]
  constructor
  · rintro ⟨id, found⟩
    have keyed : node.id = id := table.keyed found
    rw [get?, keyed]
    exact found
  · intro found
    exact ⟨node.id, found⟩

theorem mem_ids_iff (table : NodeTable) (id : String) :
    id ∈ table.ids ↔ ∃ node, table.get? id = some node :=
  OrderedMap.mem_keys_iff table.map id

theorem mem_ids_iff_values (table : NodeTable) (id : String) :
    id ∈ table.ids ↔ ∃ node ∈ table.values, node.id = id := by
  rw [mem_ids_iff]
  constructor
  · rintro ⟨node, found⟩
    have keyed := id_of_get? found
    refine ⟨node, ?_, keyed⟩
    rw [mem_values_iff, keyed]
    exact found
  · rintro ⟨node, member, rfl⟩
    exact ⟨node, (mem_values_iff table node).mp member⟩

theorem nodup_values_ids (table : NodeTable) :
    (table.values.map (·.id)).Nodup := by
  have same : table.values.map (·.id) = table.map.keys := by
    rw [values, OrderedMap.values, OrderedMap.keys, List.map_map]
    apply List.map_congr_left
    intro entry member
    exact table.keyed ((OrderedMap.mem_entries_iff _ _ _).mp member)
  rw [same]
  exact table.map.nodup_keys

theorem nodup_values (table : NodeTable) : table.values.Nodup :=
  table.nodup_values_ids.of_map

theorem insertAll_map (table : NodeTable) (nodes : List FunctionNode) :
    (table.insertAll nodes).map =
      table.map.setAll (nodes.map fun node => (node.id, node)) := by
  induction nodes generalizing table with
  | nil => rfl
  | cons node rest induction => exact induction (table.insert node)

theorem mem_ids_insertAll (table : NodeTable) (nodes : List FunctionNode)
    (id : String) :
    id ∈ (table.insertAll nodes).ids ↔
      id ∈ table.ids ∨ ∃ node ∈ nodes, node.id = id := by
  rw [ids, insertAll_map, OrderedMap.mem_keys_setAll, List.map_map]
  simp [ids]

theorem mem_of_get?_insertAll {nodes : List FunctionNode} {id : String}
    {node : FunctionNode}
    (found : ((∅ : NodeTable).insertAll nodes).get? id = some node) :
    node ∈ nodes ∧ node.id = id := by
  have keyed := id_of_get? found
  rw [get?, insertAll_map] at found
  have member := OrderedMap.mem_of_get?_ofList found
  obtain ⟨stored, storedMember, pair⟩ := List.mem_map.mp member
  cases pair
  exact ⟨storedMember, keyed⟩

theorem get?_insertAll_iff {nodes : List FunctionNode}
    (distinct : (nodes.map (·.id)).Nodup) (id : String)
    (node : FunctionNode) :
    ((∅ : NodeTable).insertAll nodes).get? id = some node ↔
      node ∈ nodes ∧ node.id = id := by
  refine ⟨mem_of_get?_insertAll, ?_⟩
  rintro ⟨member, rfl⟩
  rw [get?, insertAll_map]
  refine (OrderedMap.get?_ofList_of_nodup ?_ _ _).mpr
    (List.mem_map.mpr ⟨node, member, rfl⟩)
  rw [List.map_map]
  exact distinct

end NodeTable

/-- Counts reported with a graph. -/
structure GraphStats where
  nodeCount : Nat
  edgeCount : Nat
  directEdges : Nat
  approxEdges : Nat
  deriving DecidableEq

/-- A call graph with its adjacency indices. -/
structure CallGraph where
  repoRoot : String
  algorithm : Algorithm
  nodes : NodeTable
  edges : List CallEdge
  outEdges : OrderedMap String (List String)
  inEdges : OrderedMap String (List String)
  byName : OrderedMap String (List String)
  hierarchy : TypeHierarchy
  stats : GraphStats

end Mendpoint.Calls

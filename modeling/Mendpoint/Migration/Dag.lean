import Mathlib.Tactic.Ring
import Mendpoint.Library.Collation
import Mendpoint.Library.Fallible
import Mendpoint.Library.OrderedMap
import Mendpoint.Library.DependencyWaves
import Mendpoint.Library.Counting

/-!
# Order of the nodes of a migration

The nodes are checked, their dependencies are counted, and a sorted queue gives
the nodes out as soon as nothing they depend on is left.  Nodes which are never
given out depend on a cycle.
-/

namespace Mendpoint.Migration

open Mendpoint.Library

/-! ## Nodes -/

inductive DagNodeStatus where
  | pending
  | inPr
  | merged
  | blocked
  | rolledBack
deriving DecidableEq

/-- A unit of work in one repository. -/
structure MigrationDagNode where
  id : String
  title : String
  repoKey : String
  dependsOn : List String
  status : DagNodeStatus
deriving DecidableEq

/-! ## Checks -/

/-- The checks of a node against the nodes before it. -/
def readNode (byId : OrderedMap String MigrationDagNode)
    (node : MigrationDagNode) :
    Except String (OrderedMap String MigrationDagNode) := do
  Fallible.throwIf (Text.trim node.id = "")
    "Migration DAG node id is required"
  Fallible.throwIf (Text.trim node.repoKey = "")
    ("Migration DAG node " ++ node.id ++ " requires a repoKey")
  Fallible.throwIf (byId.has node.id = true)
    ("Migration DAG has duplicate node id: " ++ node.id)
  return byId.set node.id node

/-- The dependencies which are left of a node, and the nodes which wait. -/
structure Links where
  indeg : OrderedMap String Int
  dependents : OrderedMap String (List String)

/-- Every node with no dependencies yet. -/
def Links.initial (nodes : List MigrationDagNode) : Links where
  indeg := OrderedMap.ofList (nodes.map fun node => (node.id, 0))
  dependents := OrderedMap.ofList (nodes.map fun node => (node.id, []))

/-- Count a dependency of a node. -/
def Links.link (links : Links) (id dependencyId : String) : Links where
  indeg := links.indeg.set id (links.indeg.getD id 0 + 1)
  dependents := links.dependents.push dependencyId id

def linkDependency (byId : OrderedMap String MigrationDagNode) (id : String)
    (links : Links) (dependencyId : String) : Except String Links := do
  Fallible.throwIf (dependencyId = id)
    ("Migration DAG node " ++ id ++ " cannot depend on itself")
  Fallible.throwIf (byId.has dependencyId = false)
    ("Migration DAG node " ++ id ++ " has unknown dependency: " ++
      dependencyId)
  return links.link id dependencyId

def linkNode (byId : OrderedMap String MigrationDagNode) (links : Links)
    (node : MigrationDagNode) : Except String Links := do
  let uniqueDependencies := node.dependsOn.eraseDups
  Fallible.throwIf (uniqueDependencies.length ≠ node.dependsOn.length)
    ("Migration DAG node " ++ node.id ++ " contains duplicate dependencies")
  uniqueDependencies.foldlM (linkDependency byId node.id) links

/-! ## Queue -/

/-- The ids which may be given out, and the nodes which have been. -/
structure Kahn where
  queue : List String
  indeg : OrderedMap String Int
  out : List MigrationDagNode

section Ordering

variable (collation : Collation)

def sortIds (ids : List String) : List String :=
  collation.sortBy id ids

/-- A dependency of a node has been given out. -/
def Kahn.release (state : Kahn) (dependentId : String) : Kahn :=
  let next := state.indeg.getD dependentId 1 - 1
  { state with
    indeg := state.indeg.set dependentId next
    queue :=
      if next = 0 then sortIds collation (state.queue ++ [dependentId])
      else state.queue }

/-- One round of the loop, for the first id of the queue. -/
def Kahn.give (byId : OrderedMap String MigrationDagNode)
    (dependents : OrderedMap String (List String)) (state : Kahn)
    (id : String) (queue : List String) : Kahn :=
  (sortIds collation (dependents.getD id [])).foldl (Kahn.release collation)
    { state with
      queue := queue
      out := state.out ++ (byId.get? id).toList }

/-- The rounds of the loop; there are no more than nodes. -/
def Kahn.drain (byId : OrderedMap String MigrationDagNode)
    (dependents : OrderedMap String (List String)) : Nat → Kahn → Kahn
  | 0, state => state
  | rounds + 1, state =>
    match state.queue with
    | [] => state
    | id :: queue =>
      Kahn.drain byId dependents rounds
        (state.give collation byId dependents id queue)

/-- The queue holds the nodes without dependencies at first. -/
def Kahn.initial (nodes : List MigrationDagNode) (links : Links) : Kahn where
  queue := sortIds collation ((nodes.filter fun node =>
    decide (links.indeg.getD node.id 0 = 0)).map MigrationDagNode.id)
  indeg := links.indeg
  out := []

/-- The nodes, each after the nodes on which it depends. -/
def orderDag (nodes : List MigrationDagNode) :
    Except String (List MigrationDagNode) := do
  Fallible.throwIf (nodes = [])
    "Migration DAG must contain at least one node"
  let byId ← nodes.foldlM readNode OrderedMap.empty
  let links ← nodes.foldlM (linkNode byId) (Links.initial nodes)
  let out := (Kahn.drain collation byId links.dependents nodes.length
    (Kahn.initial collation nodes links)).out
  let blocked := (nodes.filter fun node =>
    !out.any fun ordered => ordered.id == node.id).map MigrationDagNode.id
  Fallible.throwIf (out.length ≠ nodes.length)
    ("Migration DAG has a cycle involving: " ++
      Text.join ", " (Text.sortTexts blocked))
  return out

end Ordering

/-! ## What the checks ask for -/

/-- The parts of a graph which may be ordered. -/
structure WellFormed (nodes : List MigrationDagNode) : Prop where
  nonempty : nodes ≠ []
  ids : ∀ node ∈ nodes, Text.trim node.id ≠ ""
  repoKeys : ∀ node ∈ nodes, Text.trim node.repoKey ≠ ""
  unique : (nodes.map MigrationDagNode.id).Nodup
  once : ∀ node ∈ nodes, node.dependsOn.Nodup
  known : ∀ node ∈ nodes, ∀ dependency ∈ node.dependsOn,
    ∃ other ∈ nodes, other.id = dependency
  others : ∀ node ∈ nodes, node.id ∉ node.dependsOn

/-! ## Reading -/

/-- The nodes which have been read. -/
structure ReadNodes (nodes : List MigrationDagNode)
    (byId : OrderedMap String MigrationDagNode) : Prop where
  ids : ∀ node ∈ nodes, Text.trim node.id ≠ ""
  repoKeys : ∀ node ∈ nodes, Text.trim node.repoKey ≠ ""
  unique : (nodes.map MigrationDagNode.id).Nodup
  entries : byId.entries = nodes.map fun node => (node.id, node)

section Reading

variable {nodes : List MigrationDagNode}
  {byId result : OrderedMap String MigrationDagNode}

theorem readNode_eq_ok {node : MigrationDagNode} :
    readNode byId node = .ok result ↔
      Text.trim node.id ≠ "" ∧ Text.trim node.repoKey ≠ "" ∧
        node.id ∉ byId.keys ∧ byId.set node.id node = result := by
  simp only [readNode, Fallible.bind_eq_ok, Fallible.throwIf_eq_ok,
    Fallible.pure_eq_ok, exists_const, OrderedMap.has_iff, ne_eq]

theorem ReadNodes.keys (read : ReadNodes nodes byId) :
    byId.keys = nodes.map MigrationDagNode.id := by
  rw [OrderedMap.keys, read.entries, List.map_map]
  rfl

theorem ReadNodes.get? (read : ReadNodes nodes byId) {id : String}
    {node : MigrationDagNode} :
    byId.get? id = some node ↔ node ∈ nodes ∧ node.id = id := by
  rw [← OrderedMap.mem_entries_iff, read.entries, List.mem_map]
  constructor
  · rintro ⟨other, member, same⟩
    cases same
    exact ⟨member, rfl⟩
  · rintro ⟨member, rfl⟩
    exact ⟨node, member, rfl⟩

theorem foldlM_readNode :
    nodes.foldlM readNode OrderedMap.empty = .ok byId ↔
      ReadNodes nodes byId := by
  induction nodes using List.reverseRecOn generalizing byId with
  | nil =>
    rw [List.foldlM_nil, Fallible.pure_eq_ok]
    constructor
    · rintro rfl
      exact ⟨List.forall_mem_nil _, List.forall_mem_nil _, List.nodup_nil,
        rfl⟩
    · intro read
      exact OrderedMap.eq_of_entries read.entries.symm
  | append_singleton nodes node inductionHypothesis =>
    rw [List.foldlM_append, Fallible.bind_eq_ok]
    simp only [List.foldlM_cons, List.foldlM_nil, bind_pure,
      readNode_eq_ok, inductionHypothesis]
    constructor
    · rintro ⟨before, read, named, keyed, new, rfl⟩
      have fresh := new
      rw [read.keys] at fresh
      constructor
      · exact List.forall_mem_append.mpr
          ⟨read.ids, List.forall_mem_singleton.mpr named⟩
      · exact List.forall_mem_append.mpr
          ⟨read.repoKeys, List.forall_mem_singleton.mpr keyed⟩
      · rw [List.map_append]
        exact List.nodup_append_comm.mp
          (List.nodup_cons.mpr ⟨fresh, read.unique⟩)
      · rw [List.map_append, ← read.entries]
        exact OrderedMap.setEntry_of_not_mem node new
    · intro read
      obtain ⟨named, last⟩ := List.forall_mem_append.mp read.ids
      obtain ⟨keyed, lastKey⟩ := List.forall_mem_append.mp read.repoKeys
      have unique := read.unique
      rw [List.map_append] at unique
      obtain ⟨new, unique⟩ := List.nodup_cons.mp
        (List.nodup_append_comm.mp unique)
      let before : OrderedMap String MigrationDagNode :=
        ⟨nodes.map fun node => (node.id, node), by
          rw [List.map_map]
          exact unique⟩
      have readBefore : ReadNodes nodes before :=
        ⟨named, keyed, unique, rfl⟩
      have fresh : node.id ∉ before.keys := by
        rw [readBefore.keys]
        exact new
      refine ⟨before, readBefore, last node List.mem_cons_self,
        lastKey node List.mem_cons_self, fresh, ?_⟩
      apply OrderedMap.eq_of_entries
      rw [read.entries, List.map_append]
      exact OrderedMap.setEntry_of_not_mem node fresh

end Reading

end Mendpoint.Migration

/-!
## What the order of the nodes keeps

The links count, for every node, the dependencies which have not been given
out.  The queue holds the nodes of which none is left, so what is given out
follows its dependencies, and what is never given out depends on a cycle.
-/

namespace Mendpoint.Migration

open Mendpoint.Library
open Mendpoint.Library.DependencyWaves

/-! ## Links -/

/-- The dependencies of the nodes, as pairs of ids. -/
def pairs (nodes : List MigrationDagNode) : List (String × String) :=
  nodes.flatMap fun node =>
    node.dependsOn.map fun dependency => (node.id, dependency)

/-- The links which hold these dependencies. -/
structure Linked (ids : List String) (known : List (String × String))
    (links : Links) : Prop where
  indeg : ∀ id, links.indeg.get? id =
    if id ∈ ids then
      some ((known.filter fun pair => decide (pair.1 = id)).length : Int)
    else none
  dependents : ∀ id, links.dependents.get? id =
    if id ∈ ids then
      some ((known.filter fun pair => decide (pair.2 = id)).map Prod.fst)
    else none

section Links

variable {nodes : List MigrationDagNode} {ids : List String}
  {known : List (String × String)} {links result : Links}
  {byId : OrderedMap String MigrationDagNode}

theorem get?_constant {β : Type} (value : β) (id : String) :
    (OrderedMap.ofList (nodes.map fun node => (node.id, value))).get? id =
      if id ∈ nodes.map MigrationDagNode.id then some value else none := by
  have keys : id ∈ (OrderedMap.ofList
      (nodes.map fun node => (node.id, value))).keys ↔
      id ∈ nodes.map MigrationDagNode.id := by
    rw [OrderedMap.mem_keys_ofList, List.map_map]
    rfl
  split
  · next member =>
      obtain ⟨stored, found⟩ :=
        (OrderedMap.mem_keys_iff _ _).mp (keys.mpr member)
      obtain ⟨node, _, same⟩ :=
        List.mem_map.mp (OrderedMap.mem_of_get?_ofList found)
      rw [found, (Prod.mk.inj same).2]
  · next missing =>
      exact (OrderedMap.not_mem_keys_iff _ _).mp
        fun member => missing (keys.mp member)

theorem linked_initial :
    Linked (nodes.map MigrationDagNode.id) [] (Links.initial nodes) where
  indeg := get?_constant 0
  dependents := get?_constant []

variable {id dependency : String}

theorem Linked.link (linked : Linked ids known links) (inside : id ∈ ids)
    (dependencyInside : dependency ∈ ids) :
    Linked ids (known ++ [(id, dependency)]) (links.link id dependency) := by
  constructor
  · intro other
    rw [Links.link, OrderedMap.get?_set, OrderedMap.getD, linked.indeg id,
      if_pos inside, linked.indeg other, List.filter_append]
    by_cases same : id = other
    · subst same
      simp [inside]
    · simp [same]
  · intro other
    rw [Links.link, OrderedMap.push, OrderedMap.get?_set, OrderedMap.getD,
      linked.dependents dependency, if_pos dependencyInside,
      linked.dependents other, List.filter_append]
    by_cases same : dependency = other
    · subst same
      simp [dependencyInside]
    · simp [same]

/-- Count several dependencies. -/
def Links.linkAll (links : Links) (known : List (String × String)) : Links :=
  known.foldl (fun links pair => links.link pair.1 pair.2) links

theorem Linked.linkAll (linked : Linked ids known links)
    {more : List (String × String)}
    (inside : ∀ pair ∈ more, pair.1 ∈ ids ∧ pair.2 ∈ ids) :
    Linked ids (known ++ more) (links.linkAll more) := by
  induction more generalizing known links with
  | nil =>
    rw [List.append_nil]
    exact linked
  | cons pair more inductionHypothesis =>
    obtain ⟨first, rest⟩ := List.forall_mem_cons.mp inside
    have grown := inductionHypothesis (linked.link first.1 first.2) rest
    rw [List.append_assoc, List.singleton_append] at grown
    exact grown

theorem linkDependency_eq_ok :
    linkDependency byId id links dependency = .ok result ↔
      (dependency ≠ id ∧ dependency ∈ byId.keys) ∧
        links.link id dependency = result := by
  have present : ¬ byId.has dependency = false ↔ dependency ∈ byId.keys := by
    rw [Bool.not_eq_false, OrderedMap.has_iff]
  simp only [linkDependency, Fallible.bind_eq_ok, Fallible.throwIf_eq_ok,
    Fallible.pure_eq_ok, exists_const, present, ne_eq, and_assoc]

theorem foldlM_linkDependency {dependencies : List String} :
    dependencies.foldlM (linkDependency byId id) links = .ok result ↔
      (∀ dependency ∈ dependencies,
        dependency ≠ id ∧ dependency ∈ byId.keys) ∧
        links.linkAll (dependencies.map fun dependency =>
          (id, dependency)) = result := by
  induction dependencies generalizing links with
  | nil =>
    rw [List.foldlM_nil, Fallible.pure_eq_ok]
    exact ⟨fun same => ⟨List.forall_mem_nil _, same⟩, And.right⟩
  | cons dependency rest inductionHypothesis =>
    rw [List.foldlM_cons, Fallible.bind_eq_ok, List.forall_mem_cons]
    simp only [linkDependency_eq_ok, inductionHypothesis]
    constructor
    · rintro ⟨linked, ⟨first, rfl⟩, others, same⟩
      exact ⟨⟨first, others⟩, same⟩
    · rintro ⟨⟨first, others⟩, same⟩
      exact ⟨_, ⟨first, rfl⟩, others, same⟩

theorem linkNode_eq_ok {node : MigrationDagNode} :
    linkNode byId links node = .ok result ↔
      node.dependsOn.Nodup ∧ (∀ dependency ∈ node.dependsOn,
        dependency ≠ node.id ∧ dependency ∈ byId.keys) ∧
        links.linkAll (pairs [node]) = result := by
  rw [linkNode, pairs, List.flatMap_singleton]
  simp only [Fallible.bind_eq_ok, Fallible.throwIf_eq_ok, exists_const,
    foldlM_linkDependency, not_not, Distinct.length_eraseDups_iff, ne_eq]
  refine and_congr_right fun nodup => ?_
  rw [Distinct.eraseDups_of_nodup nodup]

theorem foldlM_linkNode :
    nodes.foldlM (linkNode byId) links = .ok result ↔
      (∀ node ∈ nodes, node.dependsOn.Nodup ∧
        ∀ dependency ∈ node.dependsOn,
          dependency ≠ node.id ∧ dependency ∈ byId.keys) ∧
        links.linkAll (pairs nodes) = result := by
  induction nodes generalizing links with
  | nil =>
    rw [List.foldlM_nil, Fallible.pure_eq_ok]
    exact ⟨fun same => ⟨List.forall_mem_nil _, same⟩, And.right⟩
  | cons node rest inductionHypothesis =>
    have split : links.linkAll (pairs (node :: rest)) =
        (links.linkAll (pairs [node])).linkAll (pairs rest) := by
      rw [Links.linkAll, Links.linkAll, Links.linkAll, ← List.foldl_append,
        pairs, pairs, pairs, List.flatMap_cons, List.flatMap_singleton]
    rw [List.foldlM_cons, Fallible.bind_eq_ok, List.forall_mem_cons, split]
    simp only [linkNode_eq_ok, inductionHypothesis]
    constructor
    · rintro ⟨linked, ⟨nodup, first, rfl⟩, others, same⟩
      exact ⟨⟨⟨nodup, first⟩, others⟩, same⟩
    · rintro ⟨⟨⟨nodup, first⟩, others⟩, same⟩
      exact ⟨_, ⟨nodup, first, rfl⟩, others, same⟩

/-- What the counted dependencies of well-formed nodes are. -/
structure Counted (nodes : List MigrationDagNode) (links : Links) :
    Prop where
  indeg : ∀ node ∈ nodes,
    links.indeg.get? node.id = some (node.dependsOn.length : Int)
  waiting : ∀ node ∈ nodes, ∃ waiting,
    links.dependents.get? node.id = some waiting ∧ waiting.Nodup ∧
      ∀ id, id ∈ waiting ↔
        ∃ other ∈ nodes, other.id = id ∧ node.id ∈ other.dependsOn

theorem mem_pairs :
    (id, dependency) ∈ pairs nodes ↔
      ∃ node ∈ nodes, node.id = id ∧ dependency ∈ node.dependsOn := by
  rw [pairs, List.mem_flatMap]
  constructor
  · rintro ⟨node, member, inside⟩
    obtain ⟨other, depends, same⟩ := List.mem_map.mp inside
    cases same
    exact ⟨node, member, rfl, depends⟩
  · rintro ⟨node, member, rfl, depends⟩
    exact ⟨node, member, List.mem_map_of_mem depends⟩

theorem nodup_pairs (unique : (nodes.map MigrationDagNode.id).Nodup)
    (once : ∀ node ∈ nodes, node.dependsOn.Nodup) : (pairs nodes).Nodup := by
  rw [pairs, List.nodup_flatMap]
  constructor
  · intro node member
    exact (once node member).map fun _ _ same => (Prod.mk.inj same).2
  · refine (List.pairwise_map.mp unique).imp fun different pair one two => ?_
    obtain ⟨_, _, rfl⟩ := List.mem_map.mp one
    obtain ⟨_, _, same⟩ := List.mem_map.mp two
    exact different (Prod.mk.inj same).1.symm

theorem Linked.counted (unique : (nodes.map MigrationDagNode.id).Nodup)
    (once : ∀ node ∈ nodes, node.dependsOn.Nodup)
    (linked : Linked (nodes.map MigrationDagNode.id) (pairs nodes) links) :
    Counted nodes links := by
  have nodup := nodup_pairs unique once
  constructor
  · intro node member
    rw [linked.indeg, if_pos (List.mem_map_of_mem member)]
    have own : ((pairs nodes).filter fun pair =>
        decide (pair.1 = node.id)).Perm
          (node.dependsOn.map fun dependency => (node.id, dependency)) := by
      rw [List.perm_ext_iff_of_nodup (nodup.filter _)
        ((once node member).map fun _ _ same => (Prod.mk.inj same).2)]
      rintro ⟨id, dependency⟩
      rw [List.mem_filter, mem_pairs, decide_eq_true_iff, List.mem_map]
      constructor
      · rintro ⟨⟨other, inside, named, depends⟩, same⟩
        cases same
        cases List.inj_on_of_nodup_map unique inside member named
        exact ⟨dependency, depends, rfl⟩
      · rintro ⟨_, depends, same⟩
        cases same
        exact ⟨⟨node, member, rfl, depends⟩, rfl⟩
    rw [own.length_eq, List.length_map]
  · intro node member
    refine ⟨_, (linked.dependents node.id).trans
      (if_pos (List.mem_map_of_mem member)), ?_, fun id => ?_⟩
    · refine (nodup.filter _).map_on fun one inOne two inTwo same => ?_
      have left := of_decide_eq_true (List.mem_filter.mp inOne).2
      have right := of_decide_eq_true (List.mem_filter.mp inTwo).2
      exact Prod.ext same (left.trans right.symm)
    · rw [List.mem_map, Prod.exists]
      constructor
      · rintro ⟨_, _, inside, rfl⟩
        obtain ⟨known', named⟩ := List.mem_filter.mp inside
        rw [decide_eq_true_iff] at named
        exact named ▸ mem_pairs.mp known'
      · intro depends
        exact ⟨id, node.id, List.mem_filter.mpr
          ⟨mem_pairs.mpr depends, decide_eq_true rfl⟩, rfl⟩

end Links

/-! ## Released nodes -/

section Release

variable {collation : Collation} {state : Kahn}

/-- A dependency of several nodes has been given out. -/
def Kahn.releaseAll (collation : Collation) (state : Kahn)
    (ids : List String) : Kahn :=
  ids.foldl (Kahn.release collation) state

theorem releaseAll_out (ids : List String) :
    (state.releaseAll collation ids).out = state.out := by
  induction ids generalizing state with
  | nil => rfl
  | cons id rest inductionHypothesis => exact inductionHypothesis

theorem releaseAll_indeg {ids : List String} (nodup : ids.Nodup)
    (id : String) :
    (state.releaseAll collation ids).indeg.getD id 1 =
      state.indeg.getD id 1 - if id ∈ ids then 1 else 0 := by
  induction ids generalizing state with
  | nil => exact (sub_zero _).symm
  | cons first rest inductionHypothesis =>
    obtain ⟨new, nodupRest⟩ := List.nodup_cons.mp nodup
    refine (inductionHypothesis nodupRest).trans ?_
    rw [Kahn.release, OrderedMap.getD_set]
    by_cases same : first = id
    · subst same
      rw [if_pos rfl, if_neg new, if_pos List.mem_cons_self, sub_zero]
    · rw [if_neg same]
      simp only [List.mem_cons, Ne.symm same, false_or]

theorem releaseAll_queue {ids : List String} (nodup : ids.Nodup) :
    (state.releaseAll collation ids).queue.Perm
      (state.queue ++ ids.filter fun id =>
        decide (state.indeg.getD id 1 = 1)) := by
  induction ids generalizing state with
  | nil => rw [List.filter_nil, List.append_nil]; rfl
  | cons first rest inductionHypothesis =>
    obtain ⟨new, nodupRest⟩ := List.nodup_cons.mp nodup
    refine (inductionHypothesis nodupRest).trans ?_
    have others : (rest.filter fun id => decide
        ((state.release collation first).indeg.getD id 1 = 1)) =
        rest.filter fun id => decide (state.indeg.getD id 1 = 1) := by
      refine List.filter_congr fun id member => ?_
      rw [Kahn.release, OrderedMap.getD_set,
        if_neg fun same : first = id => new (same ▸ member)]
    rw [others, Kahn.release]
    by_cases last : state.indeg.getD first 1 = 1
    · have none' : state.indeg.getD first 1 - 1 = 0 := by omega
      rw [List.filter_cons, if_pos (decide_eq_true last)]
      simp only [none', if_true]
      refine ((collation.perm_sortBy id _).append_right _).trans ?_
      rw [List.append_assoc, List.singleton_append]
    · have more : ¬ state.indeg.getD first 1 - 1 = 0 := by omega
      rw [List.filter_cons, if_neg more,
        if_neg fun one => last (of_decide_eq_true one)]

end Release

/-! ## Progress -/

/-- Every node follows the nodes on which it depends. -/
def Follows (out : List MigrationDagNode) : Prop :=
  ∀ front node back, out = front ++ node :: back →
    ∀ dependency ∈ node.dependsOn,
      dependency ∈ front.map MigrationDagNode.id

variable {node : MigrationDagNode}

theorem Follows.append {out : List MigrationDagNode} (follows : Follows out)
    (ready : ∀ dependency ∈ node.dependsOn, dependency ∈ out.map
      MigrationDagNode.id) : Follows (out ++ [node]) := by
  intro front other back shape
  rcases List.eq_nil_or_concat back with rfl | ⟨most, last, rfl⟩
  · obtain ⟨same, ends⟩ := List.append_inj' shape rfl
    cases ends
    exact same ▸ ready
  · rw [List.concat_eq_append, ← List.cons_append, ← List.append_assoc]
      at shape
    exact follows front other most (List.append_inj' shape rfl).1

/-- The dependencies of a node which have not been given out. -/
def left (given : List String) (node : MigrationDagNode) : List String :=
  node.dependsOn.filter fun dependency => decide (dependency ∉ given)

theorem left_eq_nil {given : List String} :
    left given node = [] ↔
      ∀ dependency ∈ node.dependsOn, dependency ∈ given := by
  rw [left, List.filter_eq_nil_iff]
  simp only [decide_eq_true_iff, not_not]

theorem length_left_append {given : List String}
    (nodup : node.dependsOn.Nodup) {id : String} (new : id ∉ given) :
    ((left (given ++ [id]) node).length : Int) =
      (left given node).length - if id ∈ node.dependsOn then 1 else 0 := by
  have nodupLeft : (left given node).Nodup := nodup.filter _
  have erased : left (given ++ [id]) node = (left given node).erase id := by
    rw [nodupLeft.erase_eq_filter, left, left, List.filter_filter]
    refine List.filter_congr fun dependency _ => ?_
    rw [Bool.eq_iff_iff, Bool.and_eq_true, bne_iff_ne, decide_eq_true_iff,
      decide_eq_true_iff, List.mem_append, List.mem_singleton, not_or,
      and_comm]
  have member : id ∈ left given node ↔ id ∈ node.dependsOn := by
    rw [left, List.mem_filter, decide_eq_true_iff]
    exact and_iff_left new
  rw [erased, List.length_erase]
  split
  · next inside =>
      have some' := List.length_pos_of_mem inside
      rw [if_pos (member.mp inside)]
      omega
  · next outside =>
      rw [if_neg fun depends => outside (member.mpr depends), sub_zero]

/-- What the rounds keep. -/
structure Progress (nodes : List MigrationDagNode) (state : Kahn) :
    Prop where
  given : ∀ node ∈ state.out, node ∈ nodes
  queued : ∀ id ∈ state.queue, id ∈ nodes.map MigrationDagNode.id
  once : (state.out.map MigrationDagNode.id ++ state.queue).Nodup
  counted : ∀ node ∈ nodes, state.indeg.getD node.id 1 =
    (left (state.out.map MigrationDagNode.id) node).length
  ready : ∀ node ∈ nodes, left (state.out.map MigrationDagNode.id) node = [] ↔
    node.id ∈ state.out.map MigrationDagNode.id ++ state.queue
  follows : Follows state.out

section Progress

variable {collation : Collation} {nodes : List MigrationDagNode}
  {byId : OrderedMap String MigrationDagNode} {links : Links}
  {state : Kahn}

theorem progress_initial (unique : (nodes.map MigrationDagNode.id).Nodup)
    (counted : Counted nodes links) :
    Progress nodes (Kahn.initial collation nodes links) := by
  have start : ∀ node ∈ nodes, left [] node = node.dependsOn := by
    intro node _
    exact List.filter_eq_self.mpr fun _ _ => decide_eq_true List.not_mem_nil
  have ordered := collation.perm_sortBy id ((nodes.filter fun node =>
    decide (links.indeg.getD node.id 0 = 0)).map MigrationDagNode.id)
  have initialQueue : ∀ {id : String},
      id ∈ (Kahn.initial collation nodes links).queue ↔
        ∃ node ∈ nodes, node.id = id ∧ node.dependsOn = [] := by
    intro id
    refine ordered.mem_iff.trans ?_
    rw [List.mem_map]
    constructor
    · rintro ⟨node, member, rfl⟩
      obtain ⟨inside, none'⟩ := List.mem_filter.mp member
      rw [OrderedMap.getD, counted.indeg node inside, decide_eq_true_iff]
        at none'
      exact ⟨node, inside, rfl,
        List.length_eq_zero_iff.mp (Int.ofNat_eq_zero.mp none')⟩
    · rintro ⟨node, inside, rfl, none'⟩
      refine ⟨node, List.mem_filter.mpr ⟨inside, decide_eq_true ?_⟩, rfl⟩
      rw [OrderedMap.getD, counted.indeg node inside, none']
      rfl
  constructor
  · exact List.forall_mem_nil _
  · intro id member
    obtain ⟨node, inside, rfl, _⟩ := initialQueue.mp member
    exact List.mem_map_of_mem inside
  · exact ordered.nodup_iff.mpr
      ((List.filter_sublist.map MigrationDagNode.id).nodup unique)
  · intro node inside
    rw [Kahn.initial, OrderedMap.getD, counted.indeg node inside]
    exact congrArg (fun rest => ((List.length rest : Nat) : Int))
      (start node inside).symm
  · intro node inside
    rw [Kahn.initial, List.map_nil, start node inside]
    constructor
    · exact fun none' => initialQueue.mpr ⟨node, inside, rfl, none'⟩
    · intro member
      obtain ⟨other, within, same, none'⟩ := initialQueue.mp member
      cases List.inj_on_of_nodup_map unique within inside same
      exact none'
  · intro front node back shape
    exact absurd shape (by simp [Kahn.initial])

theorem Progress.give (read : ReadNodes nodes byId)
    (once : ∀ node ∈ nodes, node.dependsOn.Nodup)
    (counted : Counted nodes links) (progress : Progress nodes state)
    {id : String} {queue : List String} (shape : state.queue = id :: queue) :
    Progress nodes (state.give collation byId links.dependents id queue) ∧
      (state.give collation byId links.dependents id queue).out.length =
        state.out.length + 1 := by
  have unique := read.unique
  have queuedId := progress.queued id (shape ▸ List.mem_cons_self)
  obtain ⟨node, inside, rfl⟩ := List.mem_map.mp queuedId
  obtain ⟨waiting, found, nodupWaiting, waits⟩ := counted.waiting node inside
  have sorted := collation.perm_sortBy id waiting
  have nodupSorted := sorted.nodup_iff.mpr nodupWaiting
  have apart := progress.once
  rw [shape] at apart
  have new : node.id ∉ state.out.map MigrationDagNode.id := fun given =>
    (List.nodup_append'.mp apart).2.2 given List.mem_cons_self
  have given : byId.get? node.id = some node :=
    read.get?.mpr ⟨inside, rfl⟩
  let start : Kahn := { state with queue := queue, out := state.out ++ [node] }
  have result : state.give collation byId links.dependents node.id queue =
      start.releaseAll collation (collation.sortBy id waiting) := by
    rw [Kahn.give, OrderedMap.getD, found, given]
    rfl
  have released : ∀ other ∈ nodes,
      other.id ∈ collation.sortBy id waiting ↔
        node.id ∈ other.dependsOn := by
    intro other within
    rw [sorted.mem_iff, waits]
    constructor
    · rintro ⟨same, member, named, depends⟩
      cases List.inj_on_of_nodup_map unique member within named
      exact depends
    · exact fun depends => ⟨other, within, rfl, depends⟩
  have outIds : (start.releaseAll collation (collation.sortBy id
      waiting)).out.map MigrationDagNode.id =
        state.out.map MigrationDagNode.id ++ [node.id] := by
    rw [releaseAll_out, List.map_append]
    rfl
  have counts : ∀ other ∈ nodes, (start.releaseAll collation
      (collation.sortBy id waiting)).indeg.getD other.id 1 =
        (left (state.out.map MigrationDagNode.id ++ [node.id])
          other).length := by
    intro other within
    rw [releaseAll_indeg nodupSorted,
      length_left_append (once other within) new,
      ← progress.counted other within]
    simp only [released other within]
    rfl
  have queued := @releaseAll_queue collation start _ nodupSorted
  have ready := progress.ready
  rw [shape] at ready
  have one : ∀ other ∈ nodes, start.indeg.getD other.id 1 = 1 →
      left (state.out.map MigrationDagNode.id) other ≠ [] := by
    intro other within last none'
    have count := progress.counted other within
    rw [none', List.length_nil] at count
    exact absurd (last.symm.trans count) (by decide)
  rw [result]
  refine ⟨⟨?_, ?_, ?_, ?_, ?_, ?_⟩, ?_⟩
  · intro other member
    rw [releaseAll_out] at member
    rcases List.mem_append.mp member with before | last
    · exact progress.given other before
    · rwa [List.mem_singleton.mp last]
  · intro other member
    rcases List.mem_append.mp (queued.mem_iff.mp member) with before | added
    · exact progress.queued other
        (shape ▸ List.mem_cons_of_mem _ before)
    · obtain ⟨waiter, within, named, _⟩ := (waits other).mp
        (sorted.mem_iff.mp (List.mem_filter.mp added).1)
      exact named ▸ List.mem_map_of_mem within
  · rw [outIds, (queued.append_left _).nodup_iff, ← List.append_assoc,
      List.append_assoc (state.out.map _), List.singleton_append,
      List.nodup_append']
    refine ⟨apart, nodupSorted.filter _, fun other known added => ?_⟩
    obtain ⟨waiting', last⟩ := List.mem_filter.mp added
    obtain ⟨waiter, within, rfl, _⟩ :=
      (waits other).mp (sorted.mem_iff.mp waiting')
    exact one waiter within (of_decide_eq_true last)
      ((ready waiter within).mpr known)
  · intro other within
    rw [outIds]
    exact counts other within
  · intro other within
    have count := length_left_append (once other within) new
    have added : other.id ∈ (start.releaseAll collation
        (collation.sortBy id waiting)).queue ↔
        other.id ∈ queue ∨ node.id ∈ other.dependsOn ∧
          ((left (state.out.map MigrationDagNode.id) other).length : Int) =
            1 := by
      rw [queued.mem_iff, List.mem_append, List.mem_filter,
        released other within, decide_eq_true_iff,
        ← progress.counted other within]
    have before := ready other within
    rw [List.mem_append, List.mem_cons, ← List.length_eq_zero_iff] at before
    rw [outIds, List.mem_append, added, List.mem_append,
      List.mem_singleton, ← List.length_eq_zero_iff]
    by_cases depends : node.id ∈ other.dependsOn
    · rw [if_pos depends] at count
      have some' : (left (state.out.map MigrationDagNode.id)
          other).length ≠ 0 := by
        intro none'
        rw [none'] at count
        omega
      have unknown := mt before.mpr some'
      rw [not_or, not_or] at unknown
      constructor
      · intro none'
        refine .inr (.inr ⟨depends, ?_⟩)
        omega
      · rintro ((given | same) | (before | ⟨_, last⟩))
        · exact absurd given unknown.1
        · exact absurd same unknown.2.1
        · exact absurd before unknown.2.2
        · omega
    · rw [if_neg depends] at count
      have same : (left (state.out.map MigrationDagNode.id ++ [node.id])
          other).length = (left (state.out.map MigrationDagNode.id)
            other).length := by omega
      rw [same, before]
      simp only [depends, false_and, or_false, or_assoc]
  · rw [releaseAll_out]
    apply progress.follows.append
    exact left_eq_nil.mp ((ready node inside).mpr
      (List.mem_append_right _ List.mem_cons_self))
  · rw [releaseAll_out, List.length_append]
    rfl

theorem Progress.length_le (progress : Progress nodes state) :
    state.out.length + state.queue.length ≤ nodes.length := by
  have within : state.out.map MigrationDagNode.id ++ state.queue ⊆
      nodes.map MigrationDagNode.id := by
    intro id member
    rcases List.mem_append.mp member with given | queued
    · obtain ⟨node, inside, rfl⟩ := List.mem_map.mp given
      exact List.mem_map_of_mem (progress.given node inside)
    · exact progress.queued id queued
  have size := (List.subperm_of_subset progress.once within).length_le
  rwa [List.length_append, List.length_map, List.length_map] at size

theorem Progress.drain (read : ReadNodes nodes byId)
    (once : ∀ node ∈ nodes, node.dependsOn.Nodup)
    (counted : Counted nodes links) {rounds : Nat}
    (progress : Progress nodes state)
    (enough : nodes.length ≤ state.out.length + rounds) :
    Progress nodes (Kahn.drain collation byId links.dependents rounds
        state) ∧
      (Kahn.drain collation byId links.dependents rounds state).queue =
        [] := by
  induction rounds generalizing state with
  | zero =>
    refine ⟨progress, List.length_eq_zero_iff.mp ?_⟩
    have size := progress.length_le
    rw [Kahn.drain]
    omega
  | succ rounds inductionHypothesis =>
    rw [Kahn.drain]
    split
    · next none' => exact ⟨progress, none'⟩
    · next id queue shape =>
        obtain ⟨kept, longer⟩ := progress.give read once counted shape
        exact inductionHypothesis kept (by omega)

end Progress

/-! ## Orders -/

/-- The maps which the checks make of the nodes. -/
structure Checked (nodes : List MigrationDagNode)
    (byId : OrderedMap String MigrationDagNode) (links : Links) : Prop where
  read : ReadNodes nodes byId
  linked : Linked (nodes.map MigrationDagNode.id) (pairs nodes) links

section Orders

variable {collation : Collation} {nodes out : List MigrationDagNode}
  {byId : OrderedMap String MigrationDagNode} {links : Links}

theorem Checked.counted (checked : Checked nodes byId links)
    (once : ∀ node ∈ nodes, node.dependsOn.Nodup) : Counted nodes links :=
  checked.linked.counted checked.read.unique once

theorem checked_of_ok (nonempty : nodes ≠ [])
    (read : nodes.foldlM readNode OrderedMap.empty = .ok byId)
    (linked : nodes.foldlM (linkNode byId) (Links.initial nodes) =
      .ok links) :
    WellFormed nodes ∧ Checked nodes byId links := by
  have nodesRead := foldlM_readNode.mp read
  obtain ⟨passed, rfl⟩ := foldlM_linkNode.mp linked
  have inside : ∀ pair ∈ pairs nodes,
      pair.1 ∈ nodes.map MigrationDagNode.id ∧
        pair.2 ∈ nodes.map MigrationDagNode.id := by
    rintro ⟨id, dependency⟩ member
    obtain ⟨node, within, rfl, depends⟩ := mem_pairs.mp member
    have known := ((passed node within).2 dependency depends).2
    rw [nodesRead.keys] at known
    exact ⟨List.mem_map_of_mem within, known⟩
  refine ⟨⟨nonempty, nodesRead.ids, nodesRead.repoKeys, nodesRead.unique,
    fun node member => (passed node member).1, ?_, ?_⟩, nodesRead, ?_⟩
  · intro node member dependency depends
    have known := ((passed node member).2 dependency depends).2
    rw [nodesRead.keys] at known
    exact List.mem_map.mp known
  · exact fun node member depends =>
      ((passed node member).2 node.id depends).1 rfl
  · have linkedAll := linked_initial.linkAll inside
    rwa [List.nil_append] at linkedAll

theorem WellFormed.checks (wellFormed : WellFormed nodes) :
    ∃ byId links, nodes.foldlM readNode OrderedMap.empty = .ok byId ∧
      nodes.foldlM (linkNode byId) (Links.initial nodes) = .ok links := by
  have distinct : ((nodes.map fun node => (node.id, node)).map
      Prod.fst).Nodup := by
    rw [List.map_map]
    exact wellFormed.unique
  have read : ReadNodes nodes ⟨_, distinct⟩ :=
    ⟨wellFormed.ids, wellFormed.repoKeys, wellFormed.unique, rfl⟩
  refine ⟨_, _, foldlM_readNode.mpr read, foldlM_linkNode.mpr ⟨?_, rfl⟩⟩
  intro node member
  refine ⟨wellFormed.once node member, fun dependency depends => ⟨?_, ?_⟩⟩
  · rintro rfl
    exact wellFormed.others node member depends
  · rw [read.keys]
    obtain ⟨other, within, named⟩ :=
      wellFormed.known node member dependency depends
    exact named ▸ List.mem_map_of_mem within

theorem orderDag_eq_ok :
    orderDag collation nodes = .ok out ↔
      nodes ≠ [] ∧ ∃ byId, nodes.foldlM readNode OrderedMap.empty =
        .ok byId ∧ ∃ links, nodes.foldlM (linkNode byId)
          (Links.initial nodes) = .ok links ∧
            (Kahn.drain collation byId links.dependents nodes.length
              (Kahn.initial collation nodes links)).out = out ∧
              out.length = nodes.length := by
  simp only [orderDag, Fallible.bind_eq_ok, Fallible.throwIf_eq_ok,
    Fallible.pure_eq_ok, exists_const, not_not, ne_eq]
  refine and_congr_right fun _ => exists_congr fun byId =>
    and_congr_right fun _ => exists_congr fun links =>
      and_congr_right fun _ => ?_
  constructor
  · rintro ⟨size, rfl⟩
    exact ⟨rfl, size⟩
  · rintro ⟨rfl, size⟩
    exact ⟨size, rfl⟩

theorem Checked.drained (checked : Checked nodes byId links)
    (wellFormed : WellFormed nodes) :
    Progress nodes (Kahn.drain collation byId links.dependents nodes.length
        (Kahn.initial collation nodes links)) ∧
      (Kahn.drain collation byId links.dependents nodes.length
        (Kahn.initial collation nodes links)).queue = [] :=
  Progress.drain checked.read wellFormed.once
    (checked.counted wellFormed.once)
    (progress_initial wellFormed.unique (checked.counted wellFormed.once))
    (Nat.le_add_left _ _)

theorem orderDag_spec (ordered : orderDag collation nodes = .ok out) :
    WellFormed nodes ∧ out.Perm nodes ∧ Follows out := by
  obtain ⟨nonempty, byId, read, links, linked, rfl, size⟩ :=
    orderDag_eq_ok.mp ordered
  obtain ⟨wellFormed, checked⟩ := checked_of_ok nonempty read linked
  obtain ⟨progress, _⟩ := @Checked.drained collation _ _ _ checked wellFormed
  have nodup := (List.nodup_append'.mp progress.once).1.of_map
  exact ⟨wellFormed, (List.subperm_of_subset nodup
    progress.given).perm_of_length_le size.ge, progress.follows⟩

theorem covers_of_follows {completed : List String}
    (follows : ∀ front node back, out = front ++ node :: back →
      ∀ dependency ∈ node.dependsOn,
        dependency ∈ completed ++ front.map MigrationDagNode.id) :
    Covers MigrationDagNode.id MigrationDagNode.dependsOn completed out
      (out.map fun node => [node]) := by
  induction out generalizing completed with
  | nil => exact .done _
  | cons first rest inductionHypothesis =>
    refine .next ?_ (List.Perm.refl _) (inductionHypothesis ?_)
    · intro node member dependency depends
      rw [List.mem_singleton.mp member] at depends
      have before := follows [] first rest rfl dependency depends
      rwa [List.map_nil, List.append_nil] at before
    · intro front node back shape dependency depends
      have before := follows (first :: front) node back
        (by rw [shape]; rfl) dependency depends
      rwa [List.map_cons, List.append_cons] at before

theorem edge_of_perm {others : List MigrationDagNode}
    (permuted : nodes.Perm others) :
    Edge MigrationDagNode.id MigrationDagNode.dependsOn nodes =
      Edge MigrationDagNode.id MigrationDagNode.dependsOn others := by
  funext before after
  simp only [Edge, permuted.mem_iff]

theorem acyclic_of_follows (unique : (out.map MigrationDagNode.id).Nodup)
    (follows : Follows out) :
    Acyclic (Edge MigrationDagNode.id MigrationDagNode.dependsOn out) := by
  refine acyclic_of_covers (covers_of_follows fun front node back shape => ?_)
    unique
  exact follows front node back shape

theorem orderDag_of_acyclic (wellFormed : WellFormed nodes)
    (acyclic : Acyclic
      (Edge MigrationDagNode.id MigrationDagNode.dependsOn nodes)) :
    ∃ out, orderDag collation nodes = .ok out := by
  obtain ⟨byId, links, read, linked⟩ := wellFormed.checks
  obtain ⟨_, checked⟩ := checked_of_ok wellFormed.nonempty read linked
  obtain ⟨progress, empty⟩ :=
    @Checked.drained collation _ _ _ checked wellFormed
  refine ⟨_, orderDag_eq_ok.mpr ⟨wellFormed.nonempty, byId, read, links,
    linked, rfl, ?_⟩⟩
  have ready := progress.ready
  rw [empty] at ready
  generalize Kahn.drain collation byId links.dependents nodes.length
    (Kahn.initial collation nodes links) = state at progress empty ready ⊢
  let remaining := nodes.filter fun node =>
    decide (node.id ∉ state.out.map MigrationDagNode.id)
  have none' : remaining = [] := by
    by_contra some'
    obtain ⟨node, member, depends⟩ := @exists_ready _ _ MigrationDagNode.id
      MigrationDagNode.dependsOn nodes remaining
      (state.out.map MigrationDagNode.id) acyclic wellFormed.known
      (fun node inside => by
        by_cases given : node.id ∈ state.out.map MigrationDagNode.id
        · exact .inl given
        · exact .inr (List.mem_filter.mpr ⟨inside, decide_eq_true given⟩))
      (fun node member => (List.mem_filter.mp member).1) some'
    obtain ⟨inside, missing⟩ := List.mem_filter.mp member
    have given := (ready node inside).mp (left_eq_nil.mpr depends)
    rw [List.append_nil] at given
    exact of_decide_eq_true missing given
  have within : nodes.map MigrationDagNode.id ⊆
      state.out.map MigrationDagNode.id := by
    intro id member
    obtain ⟨node, inside, rfl⟩ := List.mem_map.mp member
    by_contra missing
    exact List.filter_eq_nil_iff.mp none' node inside
      (decide_eq_true missing)
  have size := (List.subperm_of_subset wellFormed.unique within).length_le
  rw [List.length_map, List.length_map] at size
  have bound := progress.length_le
  omega

theorem orderDag_ok_iff :
    (∃ out, orderDag collation nodes = .ok out) ↔
      WellFormed nodes ∧ Acyclic
        (Edge MigrationDagNode.id MigrationDagNode.dependsOn nodes) := by
  constructor
  · rintro ⟨out, ordered⟩
    obtain ⟨wellFormed, permuted, follows⟩ := orderDag_spec ordered
    have unique := (permuted.map MigrationDagNode.id).nodup_iff.mpr
      wellFormed.unique
    exact ⟨wellFormed, edge_of_perm permuted ▸
      acyclic_of_follows unique follows⟩
  · exact fun ⟨wellFormed, acyclic⟩ => orderDag_of_acyclic wellFormed acyclic

end Orders

/-! ## The order of the input -/

section Permutations

variable {collation : Collation} {nodes others out : List MigrationDagNode}
  {byId otherById : OrderedMap String MigrationDagNode}
  {links otherLinks : Links}

/-- No two different ids compare equal. -/
def TotalOrder (collation : Collation) : Prop :=
  ∀ one two, collation.le one two = true → collation.le two one = true →
    one = two

theorem sortIds_eq_of_perm (total : TotalOrder collation)
    {ids otherIds : List String} (permuted : ids.Perm otherIds) :
    sortIds collation ids = sortIds collation otherIds := by
  refine List.Perm.eq_of_pairwise ?_ (collation.sorted_sortBy id ids)
    (collation.sorted_sortBy id otherIds)
    ((collation.perm_sortBy id ids).trans
      (permuted.trans (collation.perm_sortBy id otherIds).symm))
  exact fun one two _ _ forth back => total one two forth back

/-- States which read the same. -/
structure Agree (state other : Kahn) : Prop where
  queue : state.queue = other.queue
  out : state.out = other.out
  indeg : state.indeg.get? = other.indeg.get?

variable {state other : Kahn}

theorem Agree.release (agree : Agree state other) (id : String) :
    Agree (state.release collation id) (other.release collation id) := by
  have count : state.indeg.getD id 1 = other.indeg.getD id 1 := by
    rw [OrderedMap.getD, OrderedMap.getD, agree.indeg]
  constructor
  · rw [Kahn.release, Kahn.release]
    rw [count, agree.queue]
  · exact agree.out
  · funext wanted
    rw [Kahn.release, Kahn.release, OrderedMap.get?_set, OrderedMap.get?_set,
      count, agree.indeg]

theorem Agree.releaseAll (agree : Agree state other) (ids : List String) :
    Agree (ids.foldl (Kahn.release collation) state)
      (ids.foldl (Kahn.release collation) other) := by
  induction ids generalizing state other with
  | nil => exact agree
  | cons id rest inductionHypothesis =>
    exact inductionHypothesis (agree.release id)

theorem Agree.drain (total : TotalOrder collation)
    (read : byId.get? = otherById.get?)
    (waiting : ∀ id, (links.dependents.getD id []).Perm
      (otherLinks.dependents.getD id [])) {rounds : Nat}
    (agree : Agree state other) :
    Agree (Kahn.drain collation byId links.dependents rounds state)
      (Kahn.drain collation otherById otherLinks.dependents rounds
        other) := by
  induction rounds generalizing state other with
  | zero => exact agree
  | succ rounds inductionHypothesis =>
    rw [Kahn.drain, Kahn.drain, ← agree.queue]
    split
    · exact agree
    · next id queue _ =>
        apply inductionHypothesis
        rw [Kahn.give, Kahn.give, read,
          sortIds_eq_of_perm total (waiting id)]
        apply Agree.releaseAll
        exact ⟨rfl, congrArg (· ++ _) agree.out, agree.indeg⟩

theorem WellFormed.of_perm (wellFormed : WellFormed nodes)
    (permuted : nodes.Perm others) : WellFormed others where
  nonempty none' := wellFormed.nonempty (none' ▸ permuted).eq_nil
  ids node member := wellFormed.ids node (permuted.mem_iff.mpr member)
  repoKeys node member :=
    wellFormed.repoKeys node (permuted.mem_iff.mpr member)
  unique := (permuted.map _).nodup_iff.mp wellFormed.unique
  once node member := wellFormed.once node (permuted.mem_iff.mpr member)
  known node member dependency depends := by
    obtain ⟨other, within, named⟩ := wellFormed.known node
      (permuted.mem_iff.mpr member) dependency depends
    exact ⟨other, permuted.mem_iff.mp within, named⟩
  others node member := wellFormed.others node (permuted.mem_iff.mpr member)

theorem Checked.agree (total : TotalOrder collation)
    (permuted : nodes.Perm others) (checked : Checked nodes byId links)
    (otherChecked : Checked others otherById otherLinks) :
    byId.get? = otherById.get? ∧
      (∀ id, (links.dependents.getD id []).Perm
        (otherLinks.dependents.getD id [])) ∧
      Agree (Kahn.initial collation nodes links)
        (Kahn.initial collation others otherLinks) := by
  have ids : ∀ id, id ∈ nodes.map MigrationDagNode.id ↔
      id ∈ others.map MigrationDagNode.id := fun _ =>
    (permuted.map MigrationDagNode.id).mem_iff
  have permutedPairs : (pairs nodes).Perm (pairs others) :=
    permuted.flatMap_right _
  have counts : links.indeg.get? = otherLinks.indeg.get? := by
    funext id
    rw [checked.linked.indeg, otherChecked.linked.indeg,
      (permutedPairs.filter _).length_eq]
    simp only [ids]
  refine ⟨?_, fun id => ?_, ?_, rfl, counts⟩
  · funext id
    apply Option.ext
    intro node
    rw [checked.read.get?, otherChecked.read.get?, permuted.mem_iff]
  · rw [OrderedMap.getD, OrderedMap.getD, checked.linked.dependents,
      otherChecked.linked.dependents]
    simp only [ids]
    split
    · exact (permutedPairs.filter _).map _
    · exact List.Perm.refl _
  · apply sortIds_eq_of_perm total
    refine List.Perm.map _ ?_
    simp only [OrderedMap.getD, counts]
    exact permuted.filter _

theorem orderDag_of_perm (total : TotalOrder collation)
    (permuted : nodes.Perm others)
    (ordered : orderDag collation nodes = .ok out) :
    orderDag collation others = .ok out := by
  obtain ⟨nonempty, byId, read, links, linked, rfl, size⟩ :=
    orderDag_eq_ok.mp ordered
  obtain ⟨wellFormed, checked⟩ := checked_of_ok nonempty read linked
  have wellFormedOther := wellFormed.of_perm permuted
  obtain ⟨otherById, otherLinks, otherRead, otherLinked⟩ :=
    wellFormedOther.checks
  obtain ⟨_, otherChecked⟩ :=
    checked_of_ok wellFormedOther.nonempty otherRead otherLinked
  obtain ⟨sameNodes, waiting, start⟩ :=
    checked.agree total permuted otherChecked
  refine orderDag_eq_ok.mpr ⟨wellFormedOther.nonempty, otherById, otherRead,
    otherLinks, otherLinked, ?_, size.trans permuted.length_eq⟩
  rw [← permuted.length_eq]
  exact (start.drain total sameNodes waiting).out.symm

end Permutations

end Mendpoint.Migration

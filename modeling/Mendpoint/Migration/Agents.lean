import Mendpoint.Library.GreedySelection
import Mendpoint.Migration.Dag

/-!
# Agents and waves of a migration

One agent works on each repository.  The nodes are put into waves, in which the
repositories are worked on side by side and every node comes after the nodes on
which it depends.
-/

namespace Mendpoint.Migration

open Mendpoint.Library
open Mendpoint.Library.DependencyWaves
open Mendpoint.Library.GreedySelection

/-! ## Plans -/

/-- What the planning of the agents reads of a campaign. -/
structure MigrationCampaign where
  id : String
  dag : List MigrationDagNode

inductive AssignmentStatus where
  | idle
  | running
  | done
  | failed

structure RepoAgentAssignment where
  agentId : String
  repoKey : String
  nodeIds : List String
  status : AssignmentStatus

structure MultiRepoPlan where
  campaignId : String
  assignments : List RepoAgentAssignment
  sharedLearningsPath : String
  waves : List (List String)

/-- The hash of a campaign and a repository, in eight hexadecimal digits. -/
def stableAgentId (campaignId repoKey : String) : String :=
  let input := campaignId ++ ":" ++ repoKey
  let hash := (Text.codeUnits input).foldl (fun hash charCode =>
    (hash ^^^ BitVec.ofNat 32 charCode) * 16777619#32) 2166136261#32
  "repo-agent-" ++ Text.padStart 8 '0'
    (String.ofList (Nat.toDigits 16 hash.toNat))

def assignmentOf (campaignId : String)
    (entry : String × List MigrationDagNode) : RepoAgentAssignment where
  agentId := stableAgentId campaignId entry.1
  repoKey := entry.1
  nodeIds := entry.2.map MigrationDagNode.id
  status := .idle

/-- One pass over the nodes, each with a new repository of the wave. -/
def executionWave (done remaining : List String) :
    List String → List MigrationDagNode → List MigrationDagNode
  | _, [] => []
  | reposInWave, node :: rest =>
    if node.id ∉ remaining then executionWave done remaining reposInWave rest
    else if ¬ ∀ dependency ∈ node.dependsOn, dependency ∈ done then
      executionWave done remaining reposInWave rest
    else if node.repoKey ∈ reposInWave then
      executionWave done remaining reposInWave rest
    else
      node :: executionWave done remaining (node.repoKey :: reposInWave) rest

/-- The rounds of the loop; there are no more than nodes which remain. -/
def executionWavesFrom (ordered : List MigrationDagNode) :
    Nat → List String → List String → Except String (List (List String))
  | 0, _, _ => .ok []
  | _ + 1, _, [] => .ok []
  | rounds + 1, done, first :: rest => do
      let remaining := first :: rest
      let wave := (executionWave done remaining [] ordered).map
        MigrationDagNode.id
      Fallible.throwIf (wave = [])
        "Migration campaign could not produce a complete execution wave"
      let waves ← executionWavesFrom ordered rounds (done ++ wave)
        (remaining.filter fun id => decide (id ∉ wave))
      return wave :: waves

/-- The plan of these nodes and waves, with one agent for a repository. -/
def multiRepoPlan (campaignId : String) (ordered : List MigrationDagNode)
    (waves : List (List String)) : MultiRepoPlan where
  campaignId := campaignId
  assignments := (OrderedMap.collect (ordered.map fun node =>
    (node.repoKey, node))).entries.map (assignmentOf campaignId)
  sharedLearningsPath :=
    ".mendpoint/campaigns/" ++ campaignId ++ "/learnings.md"
  waves := waves

/-- The agents and the waves of a campaign. -/
def planMultiRepoAgents (collation : Collation)
    (campaign : MigrationCampaign) : Except String MultiRepoPlan := do
  let ordered ← orderDag collation campaign.dag
  let waves ← executionWavesFrom ordered ordered.length []
    (ordered.map MigrationDagNode.id)
  let planned := waves.flatten
  Fallible.throwIf (planned.length ≠ ordered.length ∨
      planned.eraseDups.length ≠ ordered.length)
    "Migration campaign plan does not cover every DAG node exactly once"
  return multiRepoPlan campaign.id ordered waves

/-! ## Waves -/

section Waves

variable {ordered : List MigrationDagNode} {done remaining : List String}

/-- A node which remains, after all on which it depends. -/
def ready (done remaining : List String) (node : MigrationDagNode) : Bool :=
  decide (node.id ∈ remaining ∧
    ∀ dependency ∈ node.dependsOn, dependency ∈ done)

def newRepository (repositories : List String) (repoKey : String) : Bool :=
  decide (repoKey ∉ repositories)

theorem executionWave_eq (reposInWave : List String)
    (nodes : List MigrationDagNode) :
    executionWave done remaining reposInWave nodes =
      select MigrationDagNode.repoKey newRepository reposInWave
        (nodes.filter (ready done remaining)) := by
  induction nodes generalizing reposInWave with
  | nil => rfl
  | cons node rest inductionHypothesis =>
    rw [executionWave, List.filter_cons, ready]
    by_cases remains : node.id ∈ remaining
    · by_cases depends : ∀ dependency ∈ node.dependsOn, dependency ∈ done
      · rw [if_neg (not_not_intro remains),
          if_neg (not_not_intro depends),
          if_pos (decide_eq_true ⟨remains, depends⟩), select,
          newRepository]
        by_cases taken : node.repoKey ∈ reposInWave
        · rw [if_pos taken, inductionHypothesis, if_neg]
          rwa [decide_eq_true_iff, not_not]
        · rw [if_neg taken, inductionHypothesis,
            if_pos (decide_eq_true taken)]
      · rw [if_neg (not_not_intro remains), if_pos depends,
          inductionHypothesis,
          if_neg fun both => depends (of_decide_eq_true both).2]
    · rw [if_pos remains, inductionHypothesis,
        if_neg fun both => remains (of_decide_eq_true both).1]

theorem mem_executionWave {node : MigrationDagNode}
    (member : node ∈ executionWave done remaining [] ordered) :
    node ∈ ordered ∧ node.id ∈ remaining ∧
      ∀ dependency ∈ node.dependsOn, dependency ∈ done := by
  rw [executionWave_eq] at member
  obtain ⟨inside, both⟩ :=
    List.mem_filter.mp ((select_sublist _ _).subset member)
  exact ⟨inside, of_decide_eq_true both⟩

theorem executionWave_sublist :
    (executionWave done remaining [] ordered).Sublist ordered := by
  rw [executionWave_eq]
  exact (select_sublist _ _).trans List.filter_sublist

theorem executionWave_ne_nil {node : MigrationDagNode}
    (inside : node ∈ ordered) (remains : node.id ∈ remaining)
    (depends : ∀ dependency ∈ node.dependsOn, dependency ∈ done) :
    executionWave done remaining [] ordered ≠ [] := by
  rw [executionWave_eq]
  exact select_ne_nil (List.mem_filter.mpr
    ⟨inside, decide_eq_true ⟨remains, depends⟩⟩)
    (decide_eq_true List.not_mem_nil)

theorem executionWave_repositories :
    ((executionWave done remaining [] ordered).map
      MigrationDagNode.repoKey).Nodup := by
  rw [executionWave_eq]
  exact nodup_select (fun _ _ isNew => of_decide_eq_true isNew) _

/-- The nodes of these ids. -/
def nodesOf (ordered : List MigrationDagNode) (ids : List String) :
    List MigrationDagNode :=
  ordered.filter fun node => decide (node.id ∈ ids)

/-- Waves of nodes which hold different repositories. -/
def Mixed (waves : List (List MigrationDagNode)) : Prop :=
  ∀ wave ∈ waves, (wave.map MigrationDagNode.repoKey).Nodup

theorem perm_executionWave
    (unique : (ordered.map MigrationDagNode.id).Nodup) :
    (executionWave done remaining [] ordered ++
      nodesOf ordered (remaining.filter fun id =>
        decide (id ∉ (executionWave done remaining [] ordered).map
          MigrationDagNode.id))).Perm (nodesOf ordered remaining) := by
  have nodup := unique.of_map
  generalize shape : executionWave done remaining [] ordered = wave
  have inWave : ∀ node ∈ wave, node ∈ ordered ∧ node.id ∈ remaining := by
    intro node member
    rw [← shape] at member
    obtain ⟨inside, remains, _⟩ := mem_executionWave member
    exact ⟨inside, remains⟩
  have nodupWave : wave.Nodup :=
    shape ▸ executionWave_sublist.nodup nodup
  have named : ∀ node ∈ ordered,
      node.id ∈ wave.map MigrationDagNode.id ↔ node ∈ wave := by
    intro node inside
    constructor
    · intro member
      obtain ⟨other, within, same⟩ := List.mem_map.mp member
      exact List.inj_on_of_nodup_map unique (inWave other within).1 inside
        same ▸ within
    · exact List.mem_map_of_mem
  rw [nodesOf, nodesOf, List.perm_ext_iff_of_nodup _ (nodup.filter _)]
  · intro node
    simp only [List.mem_append, List.mem_filter, decide_eq_true_iff]
    constructor
    · rintro (member | ⟨inside, remains, _⟩)
      · exact inWave node member
      · exact ⟨inside, remains⟩
    · rintro ⟨inside, remains⟩
      by_cases member : node ∈ wave
      · exact .inl member
      · exact .inr ⟨inside, remains, mt (named node inside).mp member⟩
  · refine List.nodup_append'.mpr ⟨nodupWave, nodup.filter _,
      fun node member rest => ?_⟩
    obtain ⟨inside, both⟩ := List.mem_filter.mp rest
    have missing := (List.mem_filter.mp (of_decide_eq_true both)).2
    exact of_decide_eq_true missing ((named node inside).mpr member)

theorem executionWavesFrom_covers
    (unique : (ordered.map MigrationDagNode.id).Nodup)
    (acyclic : Acyclic
      (Edge MigrationDagNode.id MigrationDagNode.dependsOn ordered))
    (closed : Closed MigrationDagNode.id MigrationDagNode.dependsOn ordered)
    {rounds : Nat} (nodup : remaining.Nodup)
    (inside : ∀ id ∈ remaining, id ∈ ordered.map MigrationDagNode.id)
    (known : ∀ node ∈ ordered, node.id ∈ done ∨ node.id ∈ remaining)
    (enough : remaining.length ≤ rounds) :
    ∃ waves, executionWavesFrom ordered rounds done remaining =
        .ok (waves.map (List.map MigrationDagNode.id)) ∧
      Covers MigrationDagNode.id MigrationDagNode.dependsOn done
        (nodesOf ordered remaining) waves ∧ Mixed waves := by
  have finished : ∀ {done : List String},
      Covers MigrationDagNode.id MigrationDagNode.dependsOn done
        (nodesOf ordered []) [] := by
    intro done
    have none' : nodesOf ordered [] = [] :=
      List.filter_eq_nil_iff.mpr fun _ _ member =>
        List.not_mem_nil (of_decide_eq_true member)
    exact none' ▸ .done _
  induction rounds generalizing done remaining with
  | zero =>
    rw [List.length_eq_zero_iff.mp (Nat.le_zero.mp enough)]
    exact ⟨[], rfl, finished, List.forall_mem_nil _⟩
  | succ rounds inductionHypothesis =>
    cases remaining with
    | nil => exact ⟨[], rfl, finished, List.forall_mem_nil _⟩
    | cons first rest =>
      have covered := @perm_executionWave ordered done (first :: rest)
        unique
      have some' : executionWave done (first :: rest) [] ordered ≠ [] := by
        obtain ⟨start, startInside, named⟩ :=
          List.mem_map.mp (inside first List.mem_cons_self)
        have nonempty : nodesOf ordered (first :: rest) ≠ [] :=
          List.ne_nil_of_mem (List.mem_filter.mpr ⟨startInside,
            decide_eq_true (named ▸ List.mem_cons_self)⟩)
        obtain ⟨node, member, depends⟩ := exists_ready acyclic closed
          (fun node member => (known node member).imp id
            fun remains => List.mem_filter.mpr
              ⟨member, decide_eq_true remains⟩)
          (fun node member => (List.mem_filter.mp member).1) nonempty
        obtain ⟨within, remains⟩ := List.mem_filter.mp member
        exact executionWave_ne_nil within (of_decide_eq_true remains)
          depends
      have named : ∀ node ∈ executionWave done (first :: rest) [] ordered,
          node.id ∈ first :: rest :=
        fun node member => (mem_executionWave member).2.1
      have repositories :=
        @executionWave_repositories ordered done (first :: rest)
      have depends : ∀ node ∈
          executionWave done (first :: rest) [] ordered,
          ∀ dependency ∈ node.dependsOn, dependency ∈ done :=
        fun node member => (mem_executionWave member).2.2
      generalize shape : executionWave done (first :: rest) [] ordered =
        wave at covered some' named repositories depends
      have fewer : ((first :: rest).filter fun id =>
          decide (id ∉ wave.map MigrationDagNode.id)).length ≤ rounds := by
        obtain ⟨node, others, rfl⟩ := List.exists_cons_of_ne_nil some'
        have less : ((first :: rest).filter fun id =>
            decide (id ∉ (node :: others).map
              MigrationDagNode.id)).length < (first :: rest).length :=
          List.length_filter_lt_length_iff_exists.mpr
            ⟨node.id, named node List.mem_cons_self, fun outside =>
              of_decide_eq_true outside List.mem_cons_self⟩
        exact Nat.le_of_lt_succ (less.trans_le enough)
      have knownLater : ∀ node ∈ ordered,
          node.id ∈ done ++ wave.map MigrationDagNode.id ∨
            node.id ∈ (first :: rest).filter fun id =>
              decide (id ∉ wave.map MigrationDagNode.id) := by
        intro node member
        rcases known node member with before | remains
        · exact .inl (List.mem_append_left _ before)
        · by_cases taken : node.id ∈ wave.map MigrationDagNode.id
          · exact .inl (List.mem_append_right _ taken)
          · exact .inr (List.mem_filter.mpr
              ⟨remains, decide_eq_true taken⟩)
      obtain ⟨waves, recursive, covers, mixed⟩ := inductionHypothesis
        (nodup.filter _)
        (fun id member => inside id (List.mem_filter.mp member).1)
        knownLater fewer
      refine ⟨wave :: waves, ?_, .next depends covered covers,
        List.forall_mem_cons.mpr ⟨repositories, mixed⟩⟩
      rw [executionWavesFrom]
      simp only [shape]
      rw [Fallible.throwIf, if_neg (mt List.map_eq_nil_iff.mp some'),
        Fallible.ok_bind, recursive]
      rfl

end Waves

/-! ## What the plans promise -/

/-- A node of the id is in the wave of the index. -/
def MultiRepoPlan.HasNode (plan : MultiRepoPlan) (id : String)
    (index : Nat) : Prop :=
  ∃ wave, plan.waves[index]? = some wave ∧ id ∈ wave

/-- Every node once, after its dependencies, in waves of repositories. -/
structure MultiRepoPlan.Lawful (plan : MultiRepoPlan)
    (nodes : List MigrationDagNode) : Prop where
  every : plan.waves.flatten.Perm (nodes.map MigrationDagNode.id)
  once : plan.waves.flatten.Nodup
  dependencies : ∀ node ∈ nodes, ∀ dependency ∈ node.dependsOn,
    ∀ index, plan.HasNode node.id index →
      ∃ earlier < index, plan.HasNode dependency earlier
  repositories : ∀ wave ∈ plan.waves, ∀ node ∈ nodes, ∀ other ∈ nodes,
    node.id ∈ wave → other.id ∈ wave → node.repoKey = other.repoKey →
      node = other

/-- The dependencies of the nodes. -/
abbrev DependsOn (nodes : List MigrationDagNode) :
    String → String → Prop :=
  Edge MigrationDagNode.id MigrationDagNode.dependsOn nodes

/-- What is promised of the order of the nodes and of their waves. -/
structure Promised (collation : Collation) (nodes : List MigrationDagNode) :
    Prop where
  succeeds : (∃ out, orderDag collation nodes = .ok out) ↔
    WellFormed nodes ∧ Acyclic (DependsOn nodes)
  ordered : ∀ out, orderDag collation nodes = .ok out →
    out.Perm nodes ∧ Follows out
  unordered : TotalOrder collation → ∀ out, orderDag collation nodes =
    .ok out → ∀ others, nodes.Perm others →
      orderDag collation others = .ok out
  planned : (∃ out, orderDag collation nodes = .ok out) →
    ∀ id, ∃ plan, planMultiRepoAgents collation { id := id, dag := nodes } =
      .ok plan ∧ plan.Lawful nodes

section Plans

variable {collation : Collation} {nodes ordered : List MigrationDagNode}
  {waves : List (List MigrationDagNode)}

theorem hasNode_iff {plan : MultiRepoPlan}
    (shape : plan.waves = waves.map (List.map MigrationDagNode.id))
    {id : String} {index : Nat} :
    plan.HasNode id index ↔ Placed MigrationDagNode.id waves id index := by
  rw [MultiRepoPlan.HasNode, shape]
  simp only [List.getElem?_map, Option.map_eq_some_iff]
  constructor
  · rintro ⟨_, ⟨wave, found, rfl⟩, member⟩
    exact ⟨wave, found, List.mem_map.mp member⟩
  · rintro ⟨wave, found, member⟩
    exact ⟨_, ⟨wave, found, rfl⟩, List.mem_map.mpr member⟩

theorem lawful_of_covers {plan : MultiRepoPlan}
    (unique : (nodes.map MigrationDagNode.id).Nodup)
    (permuted : ordered.Perm nodes)
    (covers : Covers MigrationDagNode.id MigrationDagNode.dependsOn []
      ordered waves) (mixed : Mixed waves)
    (shape : plan.waves = waves.map (List.map MigrationDagNode.id)) :
    plan.Lawful nodes := by
  have flat : plan.waves.flatten.Perm (nodes.map MigrationDagNode.id) := by
    rw [shape, ← List.map_flatten]
    exact (covers.perm.trans permuted).map _
  have uniqueOrdered := (permuted.map MigrationDagNode.id).nodup_iff.mpr
    unique
  refine ⟨flat, flat.nodup_iff.mpr unique, ?_, ?_⟩
  · intro node member dependency depends index placed
    obtain ⟨earlier, less, there⟩ := earlier_of_edge covers uniqueOrdered
      ⟨node, permuted.mem_iff.mpr member, rfl, depends⟩
      ((hasNode_iff shape).mp placed)
    exact ⟨earlier, less, (hasNode_iff shape).mpr there⟩
  · intro ids inPlan node member other memberOther inside insideOther same
    rw [shape] at inPlan
    obtain ⟨wave, inWaves, rfl⟩ := List.mem_map.mp inPlan
    have known : ∀ one ∈ nodes, one.id ∈ wave.map MigrationDagNode.id →
        one ∈ wave := by
      intro one inNodes named
      obtain ⟨another, inWave, sameId⟩ := List.mem_map.mp named
      have inOrdered := covers.perm.mem_iff.mp
        (List.mem_flatten_of_mem inWaves inWave)
      exact List.inj_on_of_nodup_map unique
        (permuted.mem_iff.mp inOrdered) inNodes sameId ▸ inWave
    exact List.inj_on_of_nodup_map (mixed wave inWaves)
      (known node member inside) (known other memberOther insideOther) same

theorem planMultiRepoAgents_ok
    (order : orderDag collation nodes = .ok ordered) (id : String) :
    ∃ plan, planMultiRepoAgents collation { id := id, dag := nodes } =
      .ok plan ∧ plan.Lawful nodes := by
  obtain ⟨wellFormed, permuted, follows⟩ := orderDag_spec order
  have unique := (permuted.map MigrationDagNode.id).nodup_iff.mpr
    wellFormed.unique
  have closed : Closed MigrationDagNode.id MigrationDagNode.dependsOn
      ordered := (wellFormed.of_perm permuted.symm).known
  obtain ⟨waves, rounds, covers, mixed⟩ := @executionWavesFrom_covers
    ordered [] _ unique (acyclic_of_follows unique follows) closed
    ordered.length unique (fun _ member => member)
    (fun node member => .inr (List.mem_map_of_mem member))
    (List.length_map _).le
  have whole : nodesOf ordered (ordered.map MigrationDagNode.id) =
      ordered := by
    rw [nodesOf, List.filter_eq_self]
    exact fun node member => decide_eq_true (List.mem_map_of_mem member)
  rw [whole] at covers
  have flat : (waves.map (List.map MigrationDagNode.id)).flatten.Perm
      (ordered.map MigrationDagNode.id) := by
    rw [← List.map_flatten]
    exact covers.perm.map _
  have size := flat.length_eq
  rw [List.length_map] at size
  have distinct := Distinct.length_eraseDups_iff.mpr
    (flat.nodup_iff.mpr unique)
  refine ⟨multiRepoPlan id ordered (waves.map (List.map MigrationDagNode.id)),
    ?_, lawful_of_covers wellFormed.unique permuted covers mixed rfl⟩
  · rw [planMultiRepoAgents]
    simp only [order, rounds, Fallible.ok_bind]
    rw [Fallible.throwIf, if_neg, Fallible.ok_bind]
    · rfl
    · rw [distinct, size]
      simp only [ne_eq, not_true_eq_false, or_self, not_false_eq_true]
/--
The nodes are ordered exactly where they are well-formed and without a cycle,
in an order which does not depend on that of the input; the waves of such a
campaign hold every node once, after its dependencies, and a repository once.
-/
theorem orderDag_promised : Promised collation nodes where
  succeeds := orderDag_ok_iff
  ordered _ order := (orderDag_spec order).2
  unordered total _ order _ permuted := orderDag_of_perm total permuted order
  planned := fun ⟨_, order⟩ id => planMultiRepoAgents_ok order id

end Plans

/-! ## A library and its caller -/

theorem totalOrder_ordinal : TotalOrder Collation.ordinal :=
  fun _ _ forth back => Text.codePoints_injective
    (Text.unitsLe_antisymm _ _ forth back)

def libraryNode : MigrationDagNode where
  id := "library"
  title := "Upgrade the library"
  repoKey := "core"
  dependsOn := []
  status := .pending

def callerNode : MigrationDagNode where
  id := "caller"
  title := "Upgrade the caller"
  repoKey := "api"
  dependsOn := ["library"]
  status := .pending

/-- The library comes first, wherever it is listed. -/
theorem orderDag_promised_sample :
    orderDag Collation.ordinal [libraryNode, callerNode] =
      .ok [libraryNode, callerNode] :=
  (@orderDag_promised Collation.ordinal [callerNode, libraryNode]).unordered
    totalOrder_ordinal [libraryNode, callerNode] (by decide)
    [libraryNode, callerNode] (List.Perm.swap _ _ _)

end Mendpoint.Migration

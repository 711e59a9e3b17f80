import Mathlib.Data.List.Infix
import Mathlib.Data.List.Nodup
import Mathlib.Data.List.Pairwise
import Mathlib.Data.List.Perm.Subperm

/-!
# The tree of simple paths

The walks from a node which repeat no node before their last one form a tree,
whose leaves are the walks to a dead end and the walks which close a cycle.
Cut at a depth, the tree ends in these and in walks which can go on; every one
of them which can go on is the beginning of a walk to a leaf.
-/

namespace Mendpoint.Library.PathTree

universe u v

variable {ι : Type u} {ε : Type v} (next : ι → List ε) (target : ε → ι)

/-! ## Walks -/

/-- Every edge leaves the node at which the ones before it have arrived. -/
def IsWalk : ι → List ε → Prop
  | _, [] => True
  | node, edge :: rest => edge ∈ next node ∧ IsWalk (target edge) rest

/-- The nodes before the last one. -/
def passed : ι → List ε → List ι
  | _, [] => []
  | node, edge :: rest => node :: passed (target edge) rest

def lastNode : ι → List ε → ι
  | node, [] => node
  | _, edge :: rest => lastNode (target edge) rest

/-- A walk to a dead end, or one which closes a cycle, and simple before. -/
structure IsTerminal (start : ι) (walk : List ε) : Prop where
  isWalk : IsWalk next target start walk
  simple : (passed target start walk).Nodup
  stops : lastNode target start walk ∈ passed target start walk ∨
    next (lastNode target start walk) = []

variable {next target}

theorem isWalk_append {node : ι} {walk rest : List ε} :
    IsWalk next target node (walk ++ rest) ↔
      IsWalk next target node walk ∧
        IsWalk next target (lastNode target node walk) rest := by
  induction walk generalizing node with
  | nil => exact (and_iff_right trivial).symm
  | cons edge others inductionHypothesis =>
    rw [List.cons_append, IsWalk, IsWalk, inductionHypothesis, lastNode,
      and_assoc]

theorem passed_append (node : ι) (walk rest : List ε) :
    passed target node (walk ++ rest) =
      passed target node walk ++
        passed target (lastNode target node walk) rest := by
  induction walk generalizing node with
  | nil => rfl
  | cons edge others inductionHypothesis =>
    rw [List.cons_append, passed, passed, inductionHypothesis, lastNode,
      List.cons_append]

theorem lastNode_append (node : ι) (walk rest : List ε) :
    lastNode target node (walk ++ rest) =
      lastNode target (lastNode target node walk) rest := by
  induction walk generalizing node with
  | nil => rfl
  | cons edge others inductionHypothesis => exact inductionHypothesis _

theorem mem_next_of_mem_passed {node other : ι} {walk : List ε}
    (isWalk : IsWalk next target node walk)
    (member : other ∈ passed target node walk) : next other ≠ [] := by
  induction walk generalizing node with
  | nil => cases member
  | cons edge rest inductionHypothesis =>
    rcases List.mem_cons.mp member with rfl | later
    · exact List.ne_nil_of_mem isWalk.1
    · exact inductionHypothesis isWalk.2 later

theorem exists_terminal {known : List ι}
    (finite : ∀ node, next node ≠ [] → node ∈ known) {start : ι}
    {walk : List ε} (isWalk : IsWalk next target start walk)
    (simple : (passed target start walk).Nodup) :
    ∃ rest, IsTerminal next target start (walk ++ rest) := by
  by_cases stops : lastNode target start walk ∈ passed target start walk ∨
    next (lastNode target start walk) = []
  · exact ⟨[], by rw [List.append_nil]; exact ⟨isWalk, simple, stops⟩⟩
  · obtain ⟨new, goesOn⟩ := not_or.mp stops
    obtain ⟨edge, others, listed⟩ := List.exists_cons_of_ne_nil goesOn
    have longer : IsWalk next target start (walk ++ [edge]) :=
      isWalk_append.mpr ⟨isWalk, by rw [listed]; exact List.mem_cons_self,
        trivial⟩
    have nodes : passed target start (walk ++ [edge]) =
        passed target start walk ++ [lastNode target start walk] :=
      passed_append start walk [edge]
    have stillSimple : (passed target start (walk ++ [edge])).Nodup := by
      rw [nodes]
      exact simple.append (List.nodup_singleton _)
        (List.disjoint_singleton.mpr new)
    have shorter : (passed target start (walk ++ [edge])).length ≤
        known.length :=
      (List.subperm_of_subset stillSimple fun node member =>
        finite node (mem_next_of_mem_passed longer member)).length_le
    rw [nodes, List.length_append, List.length_singleton] at shorter
    have decreases : known.length -
          (passed target start (walk ++ [edge])).length <
        known.length - (passed target start walk).length := by
      rw [nodes, List.length_append, List.length_singleton]
      omega
    obtain ⟨rest, terminal⟩ := exists_terminal finite longer stillSimple
    exact ⟨edge :: rest, by simpa using terminal⟩
termination_by known.length - (passed target start walk).length

/-! ## The ends of the tree below a depth -/

/-- Why a walk ends. -/
inductive End where
  | leaf
  | cycle
  | cut
deriving DecidableEq

variable (next target)

/-- The ends of the tree below a node, with so many hops left. -/
def ends [DecidableEq ι] : Nat → List ι → ι → List (List ε × End)
  | 0, _, node => [([], if next node = [] then .leaf else .cut)]
  | hops + 1, visited, node =>
    if next node = [] then [([], .leaf)]
    else (next node).flatMap fun edge =>
      if target edge ∈ visited then [([edge], .cycle)]
      else (ends hops (visited ++ [target edge]) (target edge)).map
        fun found => (edge :: found.1, found.2)

/-- What the end of a walk tells of it. -/
structure Ended (hops : Nat) (before : List ι) (node : ι) (walk : List ε)
    (kind : End) : Prop where
  isWalk : IsWalk next target node walk
  simple : (before ++ passed target node walk).Nodup
  within : walk.length ≤ hops
  leaf_iff : kind = .leaf ↔ next (lastNode target node walk) = []
  cycle_iff : kind = .cycle ↔
    lastNode target node walk ∈ before ++ passed target node walk
  cut : kind = .cut → walk.length = hops

variable {next target}

theorem Ended.cons {hops : Nat} {before : List ι} {node : ι} {edge : ε}
    {walk : List ε} {kind : End} (leaves : edge ∈ next node)
    (ended : Ended next target hops (before ++ [node]) (target edge) walk
      kind) :
    Ended next target (hops + 1) before node (edge :: walk) kind where
  isWalk := ⟨leaves, ended.isWalk⟩
  simple := by
    rw [passed, List.append_cons]
    exact ended.simple
  within := Nat.succ_le_succ ended.within
  leaf_iff := ended.leaf_iff
  cycle_iff := by
    rw [passed, List.append_cons]
    exact ended.cycle_iff
  cut isCut := congrArg Nat.succ (ended.cut isCut)

theorem Ended.nowhere {hops : Nat} {before : List ι} {node : ι} {kind : End}
    (simple : (before ++ [node]).Nodup) (other : kind ≠ .cycle)
    (leaf : kind = .leaf ↔ next node = []) (cut : kind = .cut → 0 = hops) :
    Ended next target hops before node [] kind where
  isWalk := trivial
  simple := by
    rw [passed, List.append_nil]
    exact simple.of_append_left
  within := Nat.zero_le _
  leaf_iff := leaf
  cycle_iff := by
    rw [passed, List.append_nil]
    exact iff_of_false other fun inside =>
      (List.nodup_append.mp simple).2.2 node inside node
        List.mem_cons_self rfl
  cut := cut

theorem ended_of_mem [DecidableEq ι] {hops : Nat} {before : List ι}
    {node : ι} (simple : (before ++ [node]).Nodup)
    (expanded : ∀ other ∈ before, next other ≠ []) {walk : List ε}
    {kind : End}
    (member : (walk, kind) ∈ ends next target hops (before ++ [node]) node) :
    Ended next target hops before node walk kind := by
  induction hops generalizing before node walk kind with
  | zero =>
    obtain ⟨rfl, rfl⟩ := Prod.mk.inj (List.mem_singleton.mp member)
    split
    · next dead =>
        exact .nowhere simple (by simp) (iff_of_true rfl dead) (by simp)
    · next alive =>
        exact .nowhere simple (by simp) (iff_of_false (by simp) alive)
          fun _ => rfl
  | succ hops inductionHypothesis =>
    rw [ends] at member
    split at member
    · next dead =>
        obtain ⟨rfl, rfl⟩ := Prod.mk.inj (List.mem_singleton.mp member)
        exact .nowhere simple (by simp) (iff_of_true rfl dead) (by simp)
    · next alive =>
        obtain ⟨edge, leaves, here⟩ := List.mem_flatMap.mp member
        have expandedHere : ∀ other ∈ before ++ [node],
            next other ≠ [] := by
          intro other inside
          rcases List.mem_append.mp inside with old | here
          · exact expanded other old
          · rw [List.mem_singleton.mp here]
            exact alive
        split at here
        · next seen =>
            obtain ⟨rfl, rfl⟩ := Prod.mk.inj (List.mem_singleton.mp here)
            exact ⟨⟨leaves, trivial⟩, simple,
              Nat.succ_le_succ (Nat.zero_le _),
              iff_of_false (by simp) (expandedHere _ seen),
              iff_of_true rfl seen, by simp⟩
        · next fresh =>
            obtain ⟨⟨rest, _⟩, found, same⟩ := List.mem_map.mp here
            obtain ⟨rfl, rfl⟩ := Prod.mk.inj same
            exact .cons leaves (inductionHypothesis
              (simple.append (List.nodup_singleton _)
                (List.disjoint_singleton.mpr fresh)) expandedHere found)

/-- Two lists of which none begins with the other. -/
def Apart (left right : List ε) : Prop :=
  ¬ left <+: right ∧ ¬ right <+: left

instance : Std.Symm fun found other : List ε × End =>
    Apart found.1 other.1 where
  symm _ _ := And.symm

theorem Apart.cons_of_ne {edge other : ε} (different : edge ≠ other)
    (left right : List ε) : Apart (edge :: left) (other :: right) :=
  ⟨fun begins => different (List.cons_prefix_cons.mp begins).1,
    fun begins => different (List.cons_prefix_cons.mp begins).1.symm⟩

theorem pairwise_ends [DecidableEq ι] (distinct : ∀ node, (next node).Nodup)
    (hops : Nat) (visited : List ι) (node : ι) :
    (ends next target hops visited node).Pairwise fun found other =>
      Apart found.1 other.1 := by
  induction hops generalizing visited node with
  | zero => exact List.pairwise_singleton _ _
  | succ hops inductionHypothesis =>
    rw [ends]
    split
    · exact List.pairwise_singleton _ _
    · rw [List.pairwise_flatMap]
      constructor
      · intro edge _
        split
        · exact List.pairwise_singleton _ _
        · rw [List.pairwise_map]
          refine (inductionHypothesis _ _).imp fun apart => ?_
          simp only [Apart, List.cons_prefix_cons, true_and]
          exact apart
      · refine (distinct node).imp fun {edge other} different => ?_
        have starts : ∀ {edge : ε} {found : List ε × End},
            found ∈ (if target edge ∈ visited then [([edge], End.cycle)]
              else (ends next target hops (visited ++ [target edge])
                (target edge)).map fun found =>
                  (edge :: found.1, found.2)) →
            ∃ rest, found.1 = edge :: rest := by
          intro edge found member
          split at member
          · rw [List.mem_singleton.mp member]
            exact ⟨[], rfl⟩
          · obtain ⟨last, _, rfl⟩ := List.mem_map.mp member
            exact ⟨last.1, rfl⟩
        intro found inside last there
        obtain ⟨rest, shape⟩ := starts inside
        obtain ⟨others, form⟩ := starts there
        rw [shape, form]
        exact .cons_of_ne different rest others

theorem exists_end [DecidableEq ι] {hops : Nat} {before : List ι} {node : ι}
    {walk : List ε} (new : node ∉ before)
    (isWalk : IsWalk next target node walk)
    (simple : (before ++ passed target node walk).Nodup)
    (stops : lastNode target node walk ∈ before ++ passed target node walk ∨
      next (lastNode target node walk) = []) :
    ∃ found ∈ ends next target hops (before ++ [node]) node,
      found.1 <+: walk ∧ (found.2 = .cut ∨ found.1 = walk) := by
  induction hops generalizing before node walk with
  | zero =>
    refine ⟨_, List.mem_singleton_self _, List.nil_prefix, ?_⟩
    split
    · next dead =>
        cases walk with
        | nil => exact .inr rfl
        | cons edge rest =>
          exact absurd dead (List.ne_nil_of_mem isWalk.1)
    · exact .inl rfl
  | succ hops inductionHypothesis =>
    rw [ends]
    cases walk with
    | nil =>
      rw [passed, List.append_nil] at stops
      have dead : next node = [] := stops.resolve_left new
      rw [if_pos dead]
      exact ⟨_, List.mem_singleton_self _, List.nil_prefix, .inr rfl⟩
    | cons edge rest =>
      rw [if_neg (List.ne_nil_of_mem isWalk.1)]
      rw [passed, List.append_cons] at simple stops
      by_cases seen : target edge ∈ before ++ [node]
      · have alone : rest = [] := by
          cases rest with
          | nil => rfl
          | cons other others =>
            exact absurd rfl ((List.nodup_append.mp simple).2.2 _ seen
              _ List.mem_cons_self)
        subst alone
        refine ⟨([edge], .cycle), List.mem_flatMap.mpr
          ⟨edge, isWalk.1, ?_⟩, List.prefix_rfl, .inr rfl⟩
        rw [if_pos seen]
        exact List.mem_singleton_self _
      · obtain ⟨found, inside, begins, whole⟩ :=
          inductionHypothesis seen isWalk.2 simple stops
        refine ⟨(edge :: found.1, found.2), List.mem_flatMap.mpr
          ⟨edge, isWalk.1, ?_⟩, List.cons_prefix_cons.mpr ⟨rfl, begins⟩,
          whole.imp_right fun same => congrArg _ same⟩
        rw [if_neg seen]
        exact List.mem_map_of_mem inside

theorem ends_ne_nil [DecidableEq ι] (hops : Nat) (visited : List ι)
    (node : ι) : ends next target hops visited node ≠ [] := by
  induction hops generalizing visited node with
  | zero => exact List.cons_ne_nil _ _
  | succ hops inductionHypothesis =>
    rw [ends]
    split
    · exact List.cons_ne_nil _ _
    · next alive =>
        rw [Ne, List.flatMap_eq_nil_iff]
        intro every
        obtain ⟨edge, leaves⟩ := List.exists_mem_of_ne_nil _ alive
        have none' := every edge leaves
        split at none'
        · cases none'
        · exact inductionHypothesis _ _ (List.map_eq_nil_iff.mp none')

/-! ## A part of the ends -/

section Survey

variable {known : List ι} {start : ι} {hops : Nat}

theorem Ended.cut_iff {walk : List ε} {kind : End}
    (ended : Ended next target hops [] start walk kind) :
    kind = .cut ↔ ¬ IsTerminal next target start walk := by
  have leaf := ended.leaf_iff
  have cycle := ended.cycle_iff
  rw [List.nil_append] at cycle
  constructor
  · rintro rfl terminal
    rcases terminal.stops with seen | dead
    · cases cycle.mpr seen
    · cases leaf.mpr dead
  · intro open'
    cases kind with
    | leaf => exact absurd ⟨ended.isWalk, ended.simple,
        .inr (leaf.mp rfl)⟩ open'
    | cycle => exact absurd ⟨ended.isWalk, ended.simple,
        .inl (cycle.mp rfl)⟩ open'
    | cut => rfl

theorem exists_leaves (finite : ∀ node, next node ≠ [] → node ∈ known)
    {walks : List (List ε)} (apart : walks.Pairwise Apart)
    (each : ∀ walk ∈ walks, IsWalk next target start walk ∧
      (passed target start walk).Nodup) :
    ∃ leaves : List (List ε), leaves.Nodup ∧
      leaves.length = walks.length ∧
      ∀ leaf ∈ leaves, IsTerminal next target start leaf ∧
        ∃ walk ∈ walks, walk <+: leaf := by
  induction walks with
  | nil =>
    exact ⟨[], List.nodup_nil, rfl, fun _ never =>
      absurd never List.not_mem_nil⟩
  | cons walk others inductionHypothesis =>
    obtain ⟨first, apart⟩ := List.pairwise_cons.mp apart
    obtain ⟨here, each⟩ := List.forall_mem_cons.mp each
    obtain ⟨leaves, distinct, count, sound⟩ :=
      inductionHypothesis apart each
    obtain ⟨rest, terminal⟩ := exists_terminal finite here.1 here.2
    refine ⟨(walk ++ rest) :: leaves, List.nodup_cons.mpr ⟨?_, distinct⟩,
      congrArg Nat.succ count, List.forall_mem_cons.mpr ⟨⟨terminal, walk,
        List.mem_cons_self, List.prefix_append _ _⟩, ?_⟩⟩
    · intro again
      obtain ⟨_, other, inside, begins⟩ := sound _ again
      rcases List.prefix_or_prefix_of_prefix begins
        (List.prefix_append walk rest) with forth | back
      · exact (first other inside).2 forth
      · exact (first other inside).1 back
    · intro leaf member
      obtain ⟨isLeaf, other, inside, begins⟩ := sound leaf member
      exact ⟨isLeaf, other, List.mem_cons_of_mem _ inside, begins⟩

variable [DecidableEq ι]

theorem ended_of_mem_ends {found : List ε × End}
    (member : found ∈ ends next target hops [start] start) :
    Ended next target hops [] start found.1 found.2 :=
  @ended_of_mem _ _ next target _ hops [] start (List.nodup_singleton _)
    (fun _ never => absurd never List.not_mem_nil) _ _ member

variable (start hops) (finite : ∀ node, next node ≠ [] → node ∈ known)
  (distinct : ∀ node, (next node).Nodup)

include finite distinct

/--
For every walk which is cut, and for one end which is left out, there is a
walk to a leaf which is not among the ends that are taken.
-/
theorem exists_missing (taken : Nat) :
    ∃ missing : List (List ε), missing.Nodup ∧
      missing.length =
        ((ends next target hops [start] start).take taken).countP
          (fun found => found.2 = .cut) +
        (if taken < (ends next target hops [start] start).length then 1
          else 0) ∧
      ∀ walk ∈ missing, IsTerminal next target start walk ∧
        ∀ found ∈ (ends next target hops [start] start).take taken,
          found.1 ≠ walk := by
  have apart := @pairwise_ends _ _ next target _ distinct hops [start] start
  have sound : ∀ found ∈ ends next target hops [start] start,
      Ended next target hops [] start found.1 found.2 :=
    fun _ => ended_of_mem_ends
  generalize ends next target hops [start] start = tree at apart sound
  have halves := List.pairwise_append.mp
    ((List.take_append_drop taken tree).symm ▸ apart)
  have open' : ((tree.take taken).filter (fun found => found.2 = .cut) ++
      (tree.drop taken).take 1).Sublist tree := by
    have both := (List.filter_sublist (p := fun found : List ε × End =>
      found.2 = .cut) (l := tree.take taken)).append
        (List.take_sublist 1 (tree.drop taken))
    rwa [List.take_append_drop] at both
  obtain ⟨leaves, nodup, count, leads⟩ := exists_leaves finite
    (List.pairwise_map.mpr (apart.sublist open')) (by
      intro walk (member : walk ∈ List.map Prod.fst _)
      obtain ⟨found, inside, rfl⟩ := List.mem_map.mp member
      have ended := sound found (open'.subset inside)
      exact ⟨ended.isWalk, ended.simple⟩)
  refine ⟨leaves, nodup, ?_, fun walk member => ?_⟩
  · rw [count, List.length_map, List.length_append,
      List.countP_eq_length_filter, List.length_take, List.length_drop]
    split <;> omega
  · obtain ⟨terminal, _, inside, begins⟩ := leads walk member
    obtain ⟨found, listed, rfl⟩ := List.mem_map.mp inside
    refine ⟨terminal, ?_⟩
    rintro other there rfl
    rcases List.mem_append.mp listed with isCut | later
    · rw [List.mem_filter, decide_eq_true_iff] at isCut
      by_cases same : found = other
      · subst same
        exact ((sound found (List.mem_of_mem_take there)).cut_iff.mp
          isCut.2) terminal
      · exact (halves.1.forall isCut.1 there same).1 begins
    · exact (halves.2.2 other there found (List.mem_of_mem_take later)).2
        begins

theorem complete_iff (taken : Nat) :
    (((ends next target hops [start] start).take taken).countP
          (fun found => found.2 = .cut) = 0 ∧
        ¬ taken < (ends next target hops [start] start).length) ↔
      ∀ walk, IsWalk next target start walk →
        (IsTerminal next target start walk ↔
          ∃ found ∈ (ends next target hops [start] start).take taken,
            found.1 = walk) := by
  obtain ⟨missing, _, count, absent⟩ :=
    exists_missing start hops finite distinct taken
  have sound : ∀ found ∈ ends next target hops [start] start,
      Ended next target hops [] start found.1 found.2 :=
    fun _ => ended_of_mem_ends
  constructor
  · rintro ⟨uncut, all⟩ walk isWalk
    rw [List.take_of_length_le (not_lt.mp all)] at uncut ⊢
    have terminal : ∀ found ∈ ends next target hops [start] start,
        found.2 ≠ .cut := by
      intro found member
      simpa using List.countP_eq_zero.mp uncut found member
    constructor
    · intro leaf
      obtain ⟨found, member, _, isCut | whole⟩ := @exists_end _ _ next target _
        hops [] start walk List.not_mem_nil isWalk leaf.simple leaf.stops
      · exact absurd isCut (terminal found member)
      · exact ⟨found, member, whole⟩
    · rintro ⟨found, member, rfl⟩
      exact not_not.mp ((not_congr (sound found member).cut_iff).mp
        (terminal found member))
  · intro exact'
    have none' : missing = [] := by
      rw [List.eq_nil_iff_forall_not_mem]
      intro walk member
      obtain ⟨terminal, other⟩ := absent walk member
      obtain ⟨found, inside, same⟩ := (exact' walk terminal.isWalk).mp terminal
      exact other found inside same
    rw [none', List.length_nil] at count
    constructor
    · omega
    · intro more
      rw [if_pos more] at count
      omega

end Survey

end Mendpoint.Library.PathTree

import Mathlib.Data.List.Shortlex
import Mendpoint.SoftwareGraph.Answers

/-!
# First chains and the paths of an answer

A search which is not cut visits every entity once, over the first of its
chains to the target: a shortest one, and of these the one whose relationships
come first.  A path is reported where such a chain is continued to a test or
to an entity which nothing leads to; an entity on no such path is an impact
without evidence.
-/

namespace Mendpoint.SoftwareGraph

open Mendpoint.Library
open Mendpoint.Library.Fallible
open List (Shortlex)

namespace ImpactSearch

/-! ## Shorter lists first -/

section Lists

variable {α : Type} {before : α → α → Prop} {first second third : List α}

theorem shortlex_trans (trans : ∀ {x y z}, before x y → before y z →
      before x z) (former : Shortlex before first second)
    (latter : Shortlex before second third) :
    Shortlex before first third := by
  rw [List.shortlex_def] at former latter ⊢
  rcases former with shorter | ⟨equal, earlier⟩
  · rcases latter with others | ⟨others, _⟩
    · exact Or.inl (shorter.trans others)
    · exact Or.inl (shorter.trans_eq others)
  · rcases latter with others | ⟨others, later⟩
    · exact Or.inl (equal.trans_lt others)
    · exact Or.inr ⟨equal.trans others, List.lex_trans trans earlier later⟩

theorem lex_append {fronts backs : List α}
    (lex : List.Lex before first second)
    (lengths : first.length = second.length) :
    List.Lex before (first ++ fronts) (second ++ backs) := by
  induction lex with
  | nil => cases lengths
  | cons _ inductionHypothesis =>
    exact .cons (inductionHypothesis (Nat.succ.inj lengths))
  | rel earlier => exact .rel earlier

/-- Later lists stay later when one item is added to both. -/
theorem shortlex_concat (earlier : Shortlex before first second)
    (item other : α) : Shortlex before (first ++ [item]) (second ++ [other])
    := by
  rw [List.shortlex_def, List.length_append, List.length_append]
  rcases List.shortlex_def.mp earlier with shorter | ⟨lengths, lex⟩
  · exact Or.inl (Nat.add_lt_add_right shorter 1)
  · exact Or.inr ⟨congrArg (· + 1) lengths, lex_append lex lengths⟩

end Lists

/-! ## Chains -/

/-- The order in which relationships to an entity are followed. -/
def Earlier (edge other : Relationship) : Prop :=
  ¬ Text.Before Relationship.id other edge

theorem Earlier.trans {first second third : Relationship}
    (former : Earlier first second) (latter : Earlier second third) :
    Earlier first third := by
  intro back
  rcases total_of (Text.Before Relationship.id) second third with forth | beyond
  · exact former (IsTrans.trans _ _ _ forth back)
  · exact latter beyond

instance : Std.Asymm Earlier where
  asymm _ _ earlier other :=
    (total_of (Text.Before Relationship.id) _ _).elim other earlier

/-- Where a chain of relationships, from the target on, ends. -/
def endId (search : ImpactSearch) (chain : List Relationship) : String :=
  (chain.getLast?.map Relationship.sourceId).getD search.target.id

/-- The ids along a chain, as a path has them. -/
def idsOf (search : ImpactSearch) (chain : List Relationship) :
    List String :=
  search.target.id :: chain.map Relationship.sourceId

inductive IsChain (search : ImpactSearch) : List Relationship → Prop where
  | target : IsChain search []
  | source {chain : List Relationship} {edge : Relationship}
      {source : Entity} (isChain : IsChain search chain)
      (leads : search.Leads edge source)
      (ends : edge.targetId = search.endId chain) :
      IsChain search (chain ++ [edge])

/-- A chain which no other one to its end comes before. -/
structure First (search : ImpactSearch) (chain : List Relationship) :
    Prop where
  isChain : search.IsChain chain
  least : ∀ other, search.IsChain other →
    search.endId other = search.endId chain →
    chain = other ∨ Shortlex Earlier chain other

/-- An entity is on a first chain, which is continued to a test or to an
entity which nothing leads to. -/
def Evidenced (search : ImpactSearch) (entity : Entity) : Prop :=
  ∃ chain edge source, search.First chain ∧ search.Leads edge source ∧
    edge.targetId = search.endId chain ∧
    (source.kind = .test ∨ search.incoming source.id = []) ∧
    entity.id ∈ search.idsOf (chain ++ [edge])

variable {search : ImpactSearch}

@[simp]
theorem endId_concat (chain : List Relationship) (edge : Relationship) :
    search.endId (chain ++ [edge]) = edge.sourceId := by
  rw [endId, List.getLast?_concat]
  rfl

theorem idsOf_concat (chain : List Relationship) (edge : Relationship) :
    search.idsOf (chain ++ [edge]) =
      search.idsOf chain ++ [edge.sourceId] := by
  rw [idsOf, idsOf, List.map_append]
  rfl

/-- The visit of an entity over a chain. -/
def visitOf (search : ImpactSearch) (chain : List Relationship) : Visit where
  id := search.endId chain
  depth := chain.length
  path := search.idsOf chain

/-- Whether the path along a chain is reported. -/
def Reported (search : ImpactSearch) (chain : List Relationship) : Prop :=
  ∃ source, search.byId (search.endId chain) = some source ∧
    search.endsPath source (search.idsOf chain) = true

/-! ## What a search has seen -/

/-- A state in which chains are `done`, the first of them to each entity are
`seen`, and some of these are `waiting`. -/
structure Walked (search : ImpactSearch) (state : SearchState)
    (seen done waiting : List (List Relationship)) : Prop where
  queue : state.queue = waiting.map search.visitOf
  depths : ∀ id, state.visitedDepth.get? id =
    (seen.find? fun chain => decide (search.endId chain = id)).map List.length
  apart : (seen.map search.endId).Nodup
  sorted : seen.Pairwise (Shortlex Earlier)
  chains : ∀ chain ∈ seen, search.IsChain chain
  starts : [] ∈ seen
  origin : ∀ chain ∈ seen, chain = [] ∨ chain ∈ done
  covers : ∀ chain ∈ done, ∃ first ∈ seen,
    search.endId first = search.endId chain ∧
      (first = chain ∨ Shortlex Earlier first chain)
  paths : ∀ path, path ∈ state.paths ↔
    ∃ chain ∈ done, search.Reported chain ∧ path = search.idsOf chain

variable {state : SearchState} {seen done waiting : List (List Relationship)}
  {chain : List Relationship} {edge : Relationship} {source : Entity}

theorem mem_paths_found (leads : search.Leads edge source)
    (path : List String) :
    path ∈ (search.found (search.visitOf chain) edge source state).paths ↔
      path ∈ state.paths ∨ (search.Reported (chain ++ [edge]) ∧
        path = search.idsOf (chain ++ [edge])) := by
  have isNext : (search.visitOf chain).path ++ [source.id] =
      search.idsOf (chain ++ [edge]) := by
    rw [idsOf_concat, (mem_of_byId leads.named).2]
    rfl
  have reported_iff : search.Reported (chain ++ [edge]) ↔
      search.endsPath source (search.idsOf (chain ++ [edge])) = true := by
    rw [Reported, endId_concat, leads.named]
    simp only [Option.some.injEq, exists_eq_left']
  rw [found, reported_iff]
  dsimp only
  rw [isNext]
  split
  · next reported =>
      rw [List.mem_append, List.mem_singleton, and_iff_right reported]
  · next silent =>
      rw [or_iff_left fun both => silent both.1]

/-- A chain which is seen comes before every one which is not done yet. -/
theorem Walked.before (walked : search.Walked state seen done waiting)
    (latest : ∀ other ∈ done, Shortlex Earlier other (chain ++ [edge])) :
    ∀ first ∈ seen, Shortlex Earlier first (chain ++ [edge]) := by
  intro first member
  rcases walked.origin first member with rfl | isDone
  · exact .of_length_lt (by simp)
  · exact latest first isDone

theorem find?_end {first : List Relationship} {id : String}
    (located : seen.find? (fun chain => decide (search.endId chain = id)) =
      some first) : first ∈ seen ∧ search.endId first = id := by
  have named := List.find?_some located
  rw [decide_eq_true_eq] at named
  exact ⟨List.mem_of_find?_eq_some located, named⟩

/-- An entity which has been seen is not queued once more. -/
theorem Walked.known (walked : search.Walked state seen done waiting)
    (leads : search.Leads edge source)
    (latest : ∀ other ∈ done, Shortlex Earlier other (chain ++ [edge]))
    {first : List Relationship} (located : seen.find? (fun chain =>
      decide (search.endId chain = source.id)) = some first) :
    search.Walked (enqueue (search.visitOf chain) source
        (search.found (search.visitOf chain) edge source state))
      seen (done ++ [chain ++ [edge]]) waiting := by
  rcases find?_end located with ⟨member, named⟩
  have earlier := walked.before latest first member
  have far : isNearer (state.visitedDepth.get? source.id)
      ((search.visitOf chain).depth + 1) = false := by
    rw [walked.depths, located]
    refine decide_eq_false (Nat.not_lt.mpr ?_)
    rcases List.shortlex_def.mp earlier with shorter | ⟨lengths, _⟩
    · rw [List.length_append] at shorter
      exact Nat.le_of_lt shorter
    · rw [List.length_append] at lengths
      exact Nat.le_of_eq lengths
  have same : enqueue (search.visitOf chain) source
      (search.found (search.visitOf chain) edge source state) =
        search.found (search.visitOf chain) edge source state := by
    rw [enqueue]
    exact if_neg (by rw [ImpactSearch.found, far]; exact Bool.false_ne_true)
  rw [same]
  constructor
  case queue => exact walked.queue
  case depths => exact walked.depths
  case apart => exact walked.apart
  case sorted => exact walked.sorted
  case chains => exact walked.chains
  case starts => exact walked.starts
  case origin =>
    exact fun other inside => (walked.origin other inside).imp_right
      (List.mem_append_left _)
  case covers =>
    refine List.forall_mem_append.mpr ⟨walked.covers,
      List.forall_mem_singleton.mpr ⟨first, member, ?_, Or.inr earlier⟩⟩
    rw [named, endId_concat, (mem_of_byId leads.named).2]
  case paths =>
    intro path
    rw [mem_paths_found leads, walked.paths]
    simp only [List.mem_append, List.mem_singleton, or_and_right,
      exists_or, exists_eq_left]

/-- The first chain to an entity is queued. -/
theorem Walked.unknown (walked : search.Walked state seen done waiting)
    (isChain : search.IsChain chain) (leads : search.Leads edge source)
    (ends : edge.targetId = search.endId chain)
    (latest : ∀ other ∈ done, Shortlex Earlier other (chain ++ [edge]))
    (none : seen.find? (fun chain =>
      decide (search.endId chain = source.id)) = none) :
    search.Walked (enqueue (search.visitOf chain) source
        (search.found (search.visitOf chain) edge source state))
      (seen ++ [chain ++ [edge]]) (done ++ [chain ++ [edge]])
      (waiting ++ [chain ++ [edge]]) := by
  have isEnd : search.endId (chain ++ [edge]) = source.id := by
    rw [endId_concat, (mem_of_byId leads.named).2]
  have isVisit : search.visitOf (chain ++ [edge]) =
      { id := source.id
        depth := (search.visitOf chain).depth + 1
        path := (search.visitOf chain).path ++ [source.id] } := by
    rw [visitOf, isEnd, idsOf_concat, (mem_of_byId leads.named).2,
      List.length_append]
    rfl
  have near : isNearer (state.visitedDepth.get? source.id)
      ((search.visitOf chain).depth + 1) = true := by
    rw [walked.depths, none]
    rfl
  have same : enqueue (search.visitOf chain) source
      (search.found (search.visitOf chain) edge source state) =
        { search.found (search.visitOf chain) edge source state with
          visitedDepth := state.visitedDepth.set source.id
            ((search.visitOf chain).depth + 1)
          queue := state.queue ++ [search.visitOf (chain ++ [edge])] } := by
    rw [enqueue, isVisit]
    exact if_pos near
  rw [List.find?_eq_none] at none
  rw [same]
  constructor
  case queue =>
    dsimp only
    rw [walked.queue, List.map_append]
    rfl
  case depths =>
    intro id
    dsimp only
    rw [OrderedMap.get?_set, List.find?_append, walked.depths]
    by_cases isSource : source.id = id
    · subst isSource
      rw [if_pos rfl, List.find?_eq_none.mpr none, List.find?_cons,
        decide_eq_true isEnd, visitOf]
      simp
    · rw [if_neg isSource, List.find?_cons, isEnd,
        decide_eq_false isSource]
      simp
  case apart =>
    rw [List.map_append]
    refine List.nodup_append.mpr ⟨walked.apart, List.nodup_singleton _, ?_⟩
    rintro id seenId _ isNew rfl
    rcases List.mem_map.mp seenId with ⟨other, member, named⟩
    rw [List.map_singleton, List.mem_singleton, isEnd] at isNew
    exact none other member (decide_eq_true (named.trans isNew))
  case sorted =>
    exact List.pairwise_append.mpr ⟨walked.sorted, List.pairwise_singleton _ _,
      fun first member _ last =>
        List.mem_singleton.mp last ▸ walked.before latest first member⟩
  case chains =>
    exact List.forall_mem_append.mpr ⟨walked.chains,
      List.forall_mem_singleton.mpr (.source isChain leads ends)⟩
  case starts => exact List.mem_append_left _ walked.starts
  case origin =>
    refine List.forall_mem_append.mpr ⟨fun other inside =>
      (walked.origin other inside).imp_right (List.mem_append_left _), ?_⟩
    exact List.forall_mem_singleton.mpr
      (Or.inr (List.mem_append_right _ (List.mem_singleton_self _)))
  case covers =>
    refine List.forall_mem_append.mpr ⟨fun other isDone => ?_,
      List.forall_mem_singleton.mpr ⟨_, List.mem_concat_self, rfl,
        Or.inl rfl⟩⟩
    rcases walked.covers other isDone with ⟨first, member, covered⟩
    exact ⟨first, List.mem_append_left _ member, covered⟩
  case paths =>
    intro path
    dsimp only
    rw [mem_paths_found leads, walked.paths]
    simp only [List.mem_append, List.mem_singleton, or_and_right,
      exists_or, exists_eq_left]

theorem Walked.follow (walked : search.Walked state seen done waiting)
    (isChain : search.IsChain chain) (leads : search.Leads edge source)
    (ends : edge.targetId = search.endId chain)
    (latest : ∀ other ∈ done, Shortlex Earlier other (chain ++ [edge])) :
    ∃ extra, search.Walked (enqueue (search.visitOf chain) source
        (search.found (search.visitOf chain) edge source state))
      (seen ++ extra) (done ++ [chain ++ [edge]]) (waiting ++ extra) := by
  rcases located : seen.find? fun chain =>
    decide (search.endId chain = source.id) with _ | first
  · exact ⟨[chain ++ [edge]],
      walked.unknown isChain leads ends latest located⟩
  · refine ⟨[], ?_⟩
    rw [List.append_nil, List.append_nil]
    exact walked.known leads latest located

/-! ## Rounds of a search which is not cut -/

/-- A graph in which every relationship which is followed leads somewhere. -/
def Closed (search : ImpactSearch) : Prop :=
  ∀ edge, search.Followed edge → ∃ source, search.Leads edge source

theorem truncated_enqueue (current : Visit) (source : Entity)
    (state : SearchState) :
    (enqueue current source state).truncated = state.truncated := by
  rw [enqueue]
  split
  · rfl
  · rfl

theorem follow_cut (current : Visit) (edge : Relationship)
    (cut : state.truncated = true) :
    (search.follow current edge state).truncated = true := by
  rw [follow]
  split
  · exact cut
  · split
    · exact cut
    · split
      · rfl
      · rw [truncated_enqueue]
        exact cut

theorem followAll_cut (current : Visit) (edges : List Relationship)
    (cut : state.truncated = true) :
    (search.followAll current edges state).truncated = true := by
  induction edges generalizing state with
  | nil => exact cut
  | cons edge rest inductionHypothesis =>
    rw [followAll]
    split
    · rfl
    · exact inductionHypothesis (follow_cut current edge cut)

theorem expand_cut (current : Visit) (cut : state.truncated = true) :
    (search.expand current state).truncated = true := by
  rw [expand]
  split
  · split
    · rfl
    · exact cut
  · exact followAll_cut current _ cut

theorem rounds_cut (fuel : Nat) (cut : state.truncated = true) :
    (search.rounds fuel state).truncated = true := by
  induction fuel generalizing state with
  | zero => exact cut
  | succ fuel inductionHypothesis =>
    rw [rounds]
    split
    · exact cut
    · exact inductionHypothesis (expand_cut _ cut)

theorem uncut {after : SearchState} (whole : after.truncated = false)
    (keeps : state.truncated = true → after.truncated = true) :
    state.truncated = false := by
  rw [← Bool.not_eq_true]
  intro cut
  rw [keeps cut] at whole
  cases whole

theorem Walked.followAll (closed : search.Closed)
    {edges : List Relationship}
    (walked : search.Walked state seen done waiting)
    (isChain : search.IsChain chain)
    (toEnd : ∀ edge ∈ edges, search.Followed edge ∧
      edge.targetId = search.endId chain)
    (sorted : edges.Pairwise Earlier)
    (latest : ∀ other ∈ done, ∀ edge ∈ edges,
      Shortlex Earlier other (chain ++ [edge]))
    (whole : (search.followAll (search.visitOf chain) edges
      state).truncated = false) :
    ∃ extra, search.Walked
      (search.followAll (search.visitOf chain) edges state) (seen ++ extra)
      (done ++ edges.map fun edge => chain ++ [edge]) (waiting ++ extra) := by
  induction edges generalizing state seen done waiting with
  | nil =>
    refine ⟨[], ?_⟩
    rw [List.map_nil, List.append_nil, List.append_nil, List.append_nil]
    exact walked
  | cons edge rest inductionHypothesis =>
    rw [ImpactSearch.followAll] at whole ⊢
    split
    · next full =>
        rw [if_pos full] at whole
        cases whole
    · next room =>
        rw [if_neg room] at whole
        rw [List.forall_mem_cons] at toEnd
        rw [List.pairwise_cons] at sorted
        have followed := uncut whole
          (followAll_cut (search.visitOf chain) rest)
        rcases follow_cases search (search.visitOf chain) edge state
          toEnd.1.1 with ⟨nowhere, _⟩ | ⟨source, leads, same | same⟩
        · rcases closed edge toEnd.1.1 with ⟨source, leads⟩
          exact absurd leads (nowhere source)
        · rw [same] at followed
          cases followed
        · rw [same] at whole ⊢
          rcases walked.follow isChain leads toEnd.1.2 fun other isDone =>
            latest other isDone edge List.mem_cons_self with ⟨extra, next⟩
          have later : ∀ other ∈ done ++ [chain ++ [edge]], ∀ next ∈ rest,
              Shortlex Earlier other (chain ++ [next]) := by
            refine List.forall_mem_append.mpr
              ⟨fun other isDone next member =>
                latest other isDone next (List.mem_cons_of_mem _ member),
                List.forall_mem_singleton.mpr fun next member => ?_⟩
            have single : Shortlex Earlier [edge] [next] :=
              (List.shortlex_singleton_iff _ _).mpr (sorted.1 next member)
            exact .append_left single chain
          rcases inductionHypothesis next toEnd.2 sorted.2 later whole with
            ⟨others, final⟩
          refine ⟨extra ++ others, ?_⟩
          rw [List.map_cons, List.append_cons, ← List.append_assoc,
            ← List.append_assoc]
          exact final

theorem incoming_sorted (proper : search.Proper) (id : String) :
    (search.incoming id).Pairwise Earlier := by
  have distinct : (search.incoming id).Pairwise
      fun edge other => edge.id ≠ other.id := by
    rw [← List.pairwise_map (R := fun id other => id ≠ other)]
    refine (Text.nodup_map_sortBy Relationship.id).mpr ?_
    exact proper.relationshipIds.sublist
      (List.filter_sublist.map Relationship.id)
  have ordered : (search.incoming id).Pairwise (Text.Before Relationship.id) :=
    Text.sortBy_pairwise Relationship.id _
  refine (distinct.and ordered).imp fun both back => ?_
  exact both.1 (Text.codeUnitLe_antisymm both.2 back)

theorem Walked.expand (closed : search.Closed) (proper : search.Proper)
    (walked : search.Walked state seen done waiting)
    (isChain : search.IsChain chain)
    (latest : ∀ other ∈ done, ∀ edge,
      Shortlex Earlier other (chain ++ [edge]))
    (whole : (search.expand (search.visitOf chain) state).truncated =
      false) :
    ∃ extra, search.Walked (search.expand (search.visitOf chain) state)
      (seen ++ extra)
      (done ++ (search.incoming (search.endId chain)).map
        fun edge => chain ++ [edge]) (waiting ++ extra) := by
  rw [ImpactSearch.expand] at whole ⊢
  split
  · next deep =>
      rw [if_pos deep] at whole
      split
      · next some =>
          rw [if_pos some] at whole
          cases whole
      · next none =>
          have empty : search.incoming (search.endId chain) = [] :=
            List.eq_nil_of_length_eq_zero (Nat.eq_zero_of_not_pos none)
          refine ⟨[], ?_⟩
          rw [empty, List.map_nil, List.append_nil, List.append_nil,
            List.append_nil]
          exact walked
  · next shallow =>
      rw [if_neg shallow] at whole
      exact walked.followAll closed isChain
        (fun edge member => mem_incoming.mp member)
        (incoming_sorted proper _)
        (fun other isDone edge _ => latest other isDone edge) whole

/-- What is done when some chains have been continued. -/
def continued (search : ImpactSearch) (popped : List (List Relationship)) :
    List (List Relationship) :=
  popped.flatMap fun chain =>
    (search.incoming (search.endId chain)).map fun edge => chain ++ [edge]

theorem mem_continued {popped : List (List Relationship)}
    {other : List Relationship} :
    other ∈ search.continued popped ↔ ∃ chain ∈ popped,
      ∃ edge ∈ search.incoming (search.endId chain),
        other = chain ++ [edge] := by
  rw [continued, List.mem_flatMap]
  simp only [List.mem_map, eq_comm]

theorem Walked.rounds (closed : search.Closed) (proper : search.Proper)
    {popped : List (List Relationship)} (fuel : Nat)
    (walked : search.Walked state (popped ++ waiting)
      (search.continued popped) waiting)
    (whole : (search.rounds fuel state).truncated = false) :
    ∃ last left, search.Walked (search.rounds fuel state) (last ++ left)
      (search.continued last) left := by
  induction fuel generalizing state popped waiting with
  | zero => exact ⟨popped, waiting, walked⟩
  | succ fuel inductionHypothesis =>
    rw [ImpactSearch.rounds] at whole ⊢
    cases waiting with
    | nil =>
      rw [walked.queue]
      exact ⟨popped, [], walked⟩
    | cons chain others =>
      have queue := walked.queue
      rw [List.map_cons] at queue
      rw [queue] at whole ⊢
      have sorted := List.pairwise_append.mp walked.sorted
      have latest : ∀ other ∈ search.continued popped, ∀ edge,
          Shortlex Earlier other (chain ++ [edge]) := by
        intro other isDone edge
        rcases mem_continued.mp isDone with ⟨former, member, last, _, rfl⟩
        exact shortlex_concat
          (sorted.2.2 former member chain List.mem_cons_self) last edge
      have rest : search.Walked
          { state with queue := others.map search.visitOf }
          (popped ++ chain :: others) (search.continued popped) others :=
        ⟨rfl, walked.depths, walked.apart, walked.sorted, walked.chains,
          walked.starts, walked.origin, walked.covers, walked.paths⟩
      rcases rest.expand closed proper (walked.chains chain
        (List.mem_append_right _ List.mem_cons_self)) latest
        (uncut whole (rounds_cut fuel)) with ⟨extra, next⟩
      have isContinued : search.continued popped ++
          (search.incoming (search.endId chain)).map
            (fun edge => chain ++ [edge]) =
          search.continued (popped ++ [chain]) := by
        rw [continued, continued, List.flatMap_append,
          List.flatMap_singleton]
      have isSeen : popped ++ chain :: others ++ extra =
          popped ++ [chain] ++ (others ++ extra) := by
        rw [List.append_cons, List.append_assoc]
      rw [isContinued, isSeen] at next
      exact inductionHypothesis next whole

theorem walked_start (search : ImpactSearch) :
    search.Walked search.start ([] ++ [[]]) (search.continued []) [[]] := by
  constructor
  case queue => rfl
  case depths =>
    intro id
    rw [start, OrderedMap.get?_set, OrderedMap.get?_empty, List.nil_append,
      List.find?_singleton]
    have isEnd : search.endId [] = search.target.id := rfl
    by_cases isTarget : search.target.id = id
    · rw [isEnd, if_pos isTarget, if_pos (decide_eq_true isTarget)]
      rfl
    · rw [isEnd, if_neg isTarget, if_neg (by simpa using isTarget)]
      rfl
  case apart => exact List.nodup_singleton _
  case sorted => exact List.pairwise_singleton _ _
  case chains => exact List.forall_mem_singleton.mpr .target
  case starts => exact List.mem_singleton_self _
  case origin => exact List.forall_mem_singleton.mpr (Or.inl rfl)
  case covers => exact List.forall_mem_nil _
  case paths =>
    intro path
    constructor
    · intro impossible
      cases impossible
    · rintro ⟨chain, impossible, _⟩
      cases impossible

theorem walked_run (closed : search.Closed) (proper : search.Proper)
    (whole : search.run.truncated = false) :
    ∃ seen, search.Walked search.run seen (search.continued seen) [] := by
  rcases search.walked_start.rounds closed proper search.fuel whole with
    ⟨last, left, walked⟩
  have empty := walked.queue
  rw [show (search.rounds search.fuel search.start).queue = [] from
    queue_run search] at empty
  rw [List.map_eq_nil_iff.mp empty.symm, List.append_nil] at walked
  exact ⟨last, walked⟩

/-! ## First chains -/

/-- Some seen chain to the end of any chain does not come after it. -/
theorem Walked.least
    (walked : search.Walked state seen (search.continued seen) waiting)
    (isChain : search.IsChain chain) :
    ∃ first ∈ seen, search.endId first = search.endId chain ∧
      (first = chain ∨ Shortlex Earlier first chain) := by
  induction isChain with
  | target => exact ⟨[], walked.starts, rfl, Or.inl rfl⟩
  | @source chain edge source _ leads ends inductionHypothesis =>
    rcases inductionHypothesis with ⟨former, member, sameEnd, order⟩
    have inside : former ++ [edge] ∈ search.continued seen :=
      mem_continued.mpr ⟨former, member, edge,
        mem_incoming.mpr ⟨leads.followed, ends.trans sameEnd.symm⟩, rfl⟩
    rcases walked.covers _ inside with ⟨first, isSeen, isEnd, before⟩
    rw [endId_concat] at isEnd
    refine ⟨first, isSeen, isEnd.trans (endId_concat _ _).symm, ?_⟩
    rcases order with rfl | earlier
    · exact before
    · have later := shortlex_concat earlier edge edge
      rcases before with rfl | former
      · exact Or.inr later
      · exact Or.inr (shortlex_trans Earlier.trans former later)

theorem Walked.mem_iff
    (walked : search.Walked state seen (search.continued seen) waiting) :
    chain ∈ seen ↔ search.First chain := by
  constructor
  · intro member
    refine ⟨walked.chains chain member, fun other isChain sameEnd => ?_⟩
    rcases walked.least isChain with ⟨first, isSeen, isEnd, order⟩
    have same := List.inj_on_of_nodup_map walked.apart isSeen member
      (isEnd.trans sameEnd)
    exact same ▸ order
  · intro first
    rcases walked.least first.isChain with ⟨other, isSeen, isEnd, order⟩
    rcases order with rfl | before
    · exact isSeen
    · rcases first.least other (walked.chains other isSeen) isEnd with
        rfl | after
      · exact isSeen
      · exact absurd before (Std.Asymm.asymm _ _ after)

/-- The paths which a search reports are first chains, continued. -/
theorem mem_paths_run (closed : search.Closed) (proper : search.Proper)
    (whole : search.run.truncated = false) (path : List String) :
    path ∈ search.run.paths ↔ ∃ chain edge, search.First chain ∧
      edge ∈ search.incoming (search.endId chain) ∧
      search.Reported (chain ++ [edge]) ∧
      path = search.idsOf (chain ++ [edge]) := by
  rcases walked_run closed proper whole with ⟨seen, walked⟩
  rw [walked.paths]
  constructor
  · rintro ⟨other, isDone, reported, isPath⟩
    rcases mem_continued.mp isDone with ⟨chain, member, edge, inside, rfl⟩
    exact ⟨chain, edge, walked.mem_iff.mp member, inside, reported, isPath⟩
  · rintro ⟨chain, edge, first, inside, reported, isPath⟩
    exact ⟨_, mem_continued.mpr
      ⟨chain, walked.mem_iff.mpr first, edge, inside, rfl⟩, reported, isPath⟩

/-- An entity of the repository is on a reported path exactly where there is
evidence for it. -/
theorem mem_path_iff (closed : search.Closed) (proper : search.Proper)
    (whole : search.run.truncated = false) {entity : Entity}
    (member : entity ∈ search.graph.entities)
    (kind : entity.kind.inRepository = true) :
    (∃ path ∈ search.run.paths, entity.id ∈ path) ↔
      search.Evidenced entity := by
  have isRepository : search.isRepositoryId entity.id = true := by
    rw [isRepositoryId, proper.byId_eq member]
    exact kind
  constructor
  · rintro ⟨path, isPath, inside⟩
    rcases (mem_paths_run closed proper whole path).mp isPath with
      ⟨chain, edge, first, incoming, ⟨source, named, reported⟩, rfl⟩
    rw [mem_incoming] at incoming
    rcases closed edge incoming.1 with ⟨other, leads⟩
    rw [endId_concat, leads.named, Option.some_inj] at named
    subst named
    rw [endsPath, Bool.and_eq_true, Bool.or_eq_true, decide_eq_true_eq,
      decide_eq_true_eq, List.length_eq_zero_iff] at reported
    exact ⟨chain, edge, other, first, leads, incoming.2, reported.2, inside⟩
  · rintro ⟨chain, edge, source, first, leads, ends, last, inside⟩
    refine ⟨search.idsOf (chain ++ [edge]),
      (mem_paths_run closed proper whole _).mpr ⟨chain, edge, first,
        mem_incoming.mpr ⟨leads.followed, ends⟩, ⟨source, ?_, ?_⟩, rfl⟩,
      inside⟩
    · rw [endId_concat]
      exact leads.named
    · rw [endsPath, Bool.and_eq_true, Bool.or_eq_true, decide_eq_true_eq,
        decide_eq_true_eq, List.length_eq_zero_iff]
      exact ⟨List.any_eq_true.mpr ⟨_, inside, isRepository⟩, last⟩

end ImpactSearch

/-! ## Answers with evidence -/

variable {hexDigest : String → String} {db : GraphDb} {query : ImpactQuery}
  {graph : PublishedVersion} {target : Entity} {result : ImpactResult}

/-- Every function, SDK method and test of a complete answer is on a path of
it exactly where there is evidence for each of them. -/
theorem evidenced_iff
    (read : readSoftwareGraphVersion hexDigest db query.tenantId
      query.repositoryId query.graphVersionId = .ok graph)
    (resolved : (resolveSoftwareEntity graph.entities
      query.endpointKey).entity? = some target)
    (answered : queryFettlerEndpointImpact hexDigest db query = .ok result)
    (complete : result.coverage.basis = .complete) :
    (∀ entity ∈ result.entities, entity.kind.inRepository = true →
        ∃ path ∈ result.paths, entity.id ∈ path) ↔
      ∀ entity, (query.search graph.toPublication target).Reached entity →
        entity.kind.inRepository = true →
        (query.search graph.toPublication target).Evidenced entity := by
  obtain ⟨accepted, same⟩ := normal_of_read read
  have member := mem_of_resolved resolved
  have base := answer_eq read resolved answered
  have proper : (query.search graph.toPublication target).Proper :=
    accepted.proper member
  have isWhole : isComplete graph.toPublication query
      (query.search graph.toPublication target).run.truncated = true := by
    rw [base, foundBase] at complete
    dsimp only at complete
    split at complete
    · assumption
    · cases complete
  obtain ⟨active, whole, unfiltered⟩ := isComplete_eq_true isWhole
  have closed : (query.search graph.toPublication target).Closed := by
    intro edge followed
    obtain ⟨source, leads, _⟩ := leads_of_complete accepted same member
      active unfiltered followed.1
    exact ⟨source, leads⟩
  have entities : ∀ entity, entity ∈ result.entities ↔
      (query.search graph.toPublication target).Reached entity := by
    intro entity
    rw [base, mem_entities_found,
      ImpactSearch.foundEntities_run proper whole]
  have paths : ∀ path, path ∈ result.paths ↔ path ∈
      (query.search graph.toPublication target).run.paths := by
    intro path
    rw [base]
    exact Text.mem_sortBy _
  simp only [entities, paths]
  refine forall_congr' fun entity => forall_congr' fun reached =>
    forall_congr' fun kind => ?_
  exact ImpactSearch.mem_path_iff closed proper whole
    (proper.reached_mem reached) kind

/-! ## Two functions which call each other -/

def loopEntity (id : String) (kind : EntityKind) : Entity where
  toFinding := treeFinding
  id := id
  kind := kind
  canonicalKey := id
  aliases := []
  label := id
  scope := kind.expectedScope

def loopRelationship (id : String) (kind : RelationshipKind)
    (sourceId targetId : String) : Relationship where
  toFinding := treeFinding
  id := id
  kind := kind
  sourceId := sourceId
  targetId := targetId

/-- The endpoint of the sample, which `charge` gets to over a method of an
own SDK; `charge` and `retry` call each other. -/
def loopGraph : Publication :=
  { sample with
    entities := sample.entities ++
      [loopEntity "f" .function, loopEntity "g" .function,
        loopEntity "i" .internalSdkMethod, loopEntity "p" .providerSdkMethod]
    relationships := [loopRelationship "r1" .usesEndpoint "p" "e",
      loopRelationship "r2" .usesSdkMethod "i" "p",
      loopRelationship "r3" .calls "f" "i",
      loopRelationship "r4" .calls "g" "f",
      loopRelationship "r5" .calls "f" "g"] }

/-- An injective digest, which is the SHA-256 of the graph there. -/
def loopDigest : String → String :=
  Equiv.swap (contentJson loopGraph)
    "aca05c6153036d7d15e38f9c6c934129699f6cefd79452b4cf68c19126ba55c6"

theorem loopDigest_injective : Function.Injective loopDigest :=
  Equiv.injective _

def loopQuery : ImpactQuery where
  tenantId := loopGraph.tenantId
  repositoryId := loopGraph.repositoryId
  graphVersionId := idOf loopDigest loopGraph
  endpointKey := "GET /e"
  allowedRelationshipKinds := none
  maxHops := 12
  maxEntities := 100
  maxRelationships := 100

def loopVersion : PublishedVersion where
  toPublication := loopGraph
  versionId := idOf loopDigest loopGraph
  contentDigest := digestOf loopDigest loopGraph

def loopResult : ImpactResult where
  toImpactBase := impactBase loopVersion loopQuery
  resultDigest := sha256 loopDigest
    (Written.canonical (impactBase loopVersion loopQuery).write)

theorem checkExtractor_sample (code digestCode : String) :
    checkExtractor sampleExtractor code digestCode = .ok () := by
  rfl

theorem checkValidity_sample (code : String) :
    checkValidity "2026-01-01T00:00:00.000Z" "2026-01-01T00:00:00.000Z" none
      code = .ok () := by
  rfl

theorem checkSubject_loopGraph :
    checkSubject loopGraph.toSubject = .ok () := by
  rfl

theorem normal_loopGraph : normal loopGraph = loopGraph := by
  decide

theorem normalized_loopGraph :
    normalizedPublication loopGraph = .ok loopGraph := by
  have checked : checkPublication loopGraph = .ok () := by
    rw [checkPublication, normal_loopGraph, checkSubject_loopGraph]
    -- The digests and times are the same everywhere.
    simp only [loopGraph, sample, loopEntity, loopRelationship, treeFinding,
      List.cons_append, List.nil_append, eachAfter, checkEntity,
      checkRelationship, checkCoverageStage, sampleStage,
      checkExtractor_sample, checkValidity_sample]
    rfl
  rw [normalizedPublication, checked, ok_bind, normal_loopGraph]
  rfl

theorem read_loopGraph :
    readSoftwareGraphVersion loopDigest (publishAll loopDigest [loopGraph])
      loopQuery.tenantId loopQuery.repositoryId loopQuery.graphVersionId =
        .ok loopVersion := by
  have parentless : loopGraph.parentVersionId = none := rfl
  have kept := kept_first loopDigest_injective normalized_loopGraph parentless
  rw [loopQuery, kept.read_eq loopDigest_injective List.mem_cons_self,
    loopVersion]

theorem query_loopGraph :
    queryFettlerEndpointImpact loopDigest (publishAll loopDigest [loopGraph])
      loopQuery = .ok loopResult := by
  rw [queryFettlerEndpointImpact, throwIf, if_neg (by decide), ok_bind,
    read_loopGraph, ok_bind, loopResult]
  rfl

def loopTarget : Entity :=
  (sample.entities.head?).getD walk

theorem resolved_loopGraph :
    (resolveSoftwareEntity loopVersion.entities
      loopQuery.endpointKey).entity? = some loopTarget := by
  decide

theorem complete_loopGraph : loopResult.coverage.basis = .complete := by
  rfl

/-- The equivalence on the two functions. -/
theorem evidenced_iff_loopGraph :
    (∀ entity ∈ loopResult.entities, entity.kind.inRepository = true →
        ∃ path ∈ loopResult.paths, entity.id ∈ path) ↔
      ∀ entity, (loopQuery.search loopGraph loopTarget).Reached entity →
        entity.kind.inRepository = true →
        (loopQuery.search loopGraph loopTarget).Evidenced entity :=
  evidenced_iff read_loopGraph resolved_loopGraph query_loopGraph
    complete_loopGraph

/-- An impact on two functions which call each other comes with no path. -/
theorem loopGraph_without_path :
    ¬ ∀ result, queryFettlerEndpointImpact loopDigest
        (publishAll loopDigest [loopGraph]) loopQuery = .ok result →
      result.impact = .impact → result.coverage.basis = .complete →
      ∀ entity ∈ result.entities, entity.kind.inRepository = true →
        ∃ path ∈ result.paths, entity.id ∈ path := by
  intro claimed
  have impact : loopResult.impact = .impact := by
    rfl
  have none : loopResult.paths = [] := by
    rfl
  have member : loopEntity "f" .function ∈ loopResult.entities := by
    have found : (loopQuery.search loopGraph
        loopTarget).run.foundEntities.get? "f" =
          some (loopEntity "f" .function) := by
      rfl
    exact mem_entities_found.mpr ((OrderedMap.mem_values_iff _ _).mpr
      ⟨"f", found⟩)
  rcases claimed loopResult query_loopGraph impact complete_loopGraph _
    member rfl with ⟨path, isPath, _⟩
  rw [none] at isPath
  cases isPath

end Mendpoint.SoftwareGraph

import Mendpoint.Campaign.Targets

/-!
# Rollback plans

The targets of a campaign are visited depth-first along their dependencies.
Each is put behind those on which it depends; the plan takes the completed and
the failed ones from the back.
-/

namespace Mendpoint.Campaign

open Relation
open Mendpoint.Library
open Mendpoint.Library.Attempt
open Mendpoint.Library.DependencyWaves
open Mendpoint.Library.Fallible

/-! ## The visits -/

def byId (targets : List WardenCampaignTarget) (id : String) :
    Option WardenCampaignTarget :=
  targets.find? fun item => decide (item.id = id)

/--
The visited targets are the ordered ones; a stack holds the ids on the way,
and the depth bounds it.
-/
def visit (targets : List WardenCampaignTarget) :
    Nat → List String → List WardenCampaignTarget → WardenCampaignTarget →
      Except String (List WardenCampaignTarget)
  | 0, _, _, _ => .error "RangeError"
  | depth + 1, stack, ordered, item =>
    if item.id ∈ stack then .error "warden_dependency_cycle"
    else if item.id ∈ ordered.map WardenCampaignTarget.id then .ok ordered
    else do
      let visited ← item.dependsOn.foldlM (fun ordered dependency => do
        let value ← demand (byId targets dependency)
          "warden_dependency_missing"
        visit targets depth (item.id :: stack) ordered value) ordered
      return visited ++ [item]

/-- The stages in which a target has something to roll back. -/
def WardenTargetStage.isEnded : WardenTargetStage → Bool
  | completed | failed => true
  | _ => false

def planWardenRollback (db : CampaignDb) (tenantId campaignId : String) :
    Except String (List WardenCampaignTarget) := do
  let targets := listWardenCampaignTargets db tenantId campaignId
  let ordered ← targets.foldlM (visit targets (targets.length + 1) []) []
  return (ordered.filter fun item => item.stage.isEnded).reverse

/-! ## What a visit does -/

/-- Targets of a campaign, each once and after its dependencies. -/
structure Visited (targets ordered : List WardenCampaignTarget) : Prop where
  inside : ∀ item ∈ ordered, item ∈ targets
  distinct : (ordered.map WardenCampaignTarget.id).Nodup
  first : DependenciesFirst WardenCampaignTarget.id
    WardenCampaignTarget.dependsOn ordered

/-- More targets have been visited: those of some names, none behind. -/
structure Reaches (targets ordered next : List WardenCampaignTarget)
    (front names : List String) : Prop where
  visited : Visited targets next
  kept : ∀ item ∈ ordered, item ∈ next
  fresh : ∀ item ∈ next, item ∈ ordered ∨ item.id ∈ front
  reached : ∀ name ∈ names, name ∈ next.map WardenCampaignTarget.id

variable {targets ordered stored : List WardenCampaignTarget}
  {front : List String}

theorem foldlM_reaches {β : Type} {name : β → String} {items : List β}
    {step : List WardenCampaignTarget → β →
      Except String (List WardenCampaignTarget)}
    (each : ∀ item ∈ items, ∀ ordered, Visited targets ordered →
      ∃ next, step ordered item = .ok next ∧
        Reaches targets ordered next front [name item])
    (visited : Visited targets ordered) :
    ∃ next, items.foldlM step ordered = .ok next ∧
      Reaches targets ordered next front (items.map name) := by
  induction items generalizing ordered with
  | nil =>
    exact ⟨ordered, rfl, visited, fun _ member => member,
      fun _ member => Or.inl member, List.forall_mem_nil _⟩
  | cons item rest inductionHypothesis =>
    rw [List.forall_mem_cons] at each
    rcases each.1 ordered visited with ⟨middle, stepped, once⟩
    rcases inductionHypothesis each.2 once.visited with
      ⟨next, folded, others⟩
    refine ⟨next, ?_, others.visited,
      fun one member => others.kept one (once.kept one member), ?_, ?_⟩
    · rw [List.foldlM_cons, stepped]
      exact folded
    · intro one member
      rcases others.fresh one member with earlier | ahead
      · exact once.fresh one earlier
      · exact Or.inr ahead
    · rw [List.map_cons, List.forall_mem_cons]
      refine ⟨?_, others.reached⟩
      rcases List.mem_map.mp (once.reached _ (List.mem_singleton_self _))
        with ⟨one, inside, named⟩
      exact List.mem_map.mpr ⟨one, others.kept one inside, named⟩

theorem byId_eq_some (distinct : (targets.map
    WardenCampaignTarget.id).Nodup) {item : WardenCampaignTarget}
    (inside : item ∈ targets) : byId targets item.id = some item := by
  rw [byId, Table.find?_eq_some_iff]
  · exact ⟨inside, decide_eq_true rfl⟩
  · intro one within other also isOne isOther
    rw [decide_eq_true_eq] at isOne isOther
    exact Table.eq_of_key distinct within also (isOne.trans isOther.symm)

theorem visited_concat {item : WardenCampaignTarget}
    (visited : Visited targets ordered) (inside : item ∈ targets)
    (fresh : item.id ∉ ordered.map WardenCampaignTarget.id)
    (known : ∀ dependency ∈ item.dependsOn,
      dependency ∈ ordered.map WardenCampaignTarget.id) :
    Visited targets (ordered ++ [item]) where
  inside := by
    rw [List.forall_mem_append, List.forall_mem_singleton]
    exact ⟨visited.inside, inside⟩
  distinct := by
    rw [List.map_append, List.map_singleton, ← List.concat_eq_append,
      List.nodup_concat]
    exact ⟨fresh, visited.distinct⟩
  first := visited.first.concat known

/-- The ids up to a target, in the order in which the targets were added. -/
def namesTo (before : List WardenCampaignTarget)
    (item : WardenCampaignTarget) : List String :=
  (before ++ [item]).map WardenCampaignTarget.id

theorem mem_of_namesTo {before : List WardenCampaignTarget}
    {item : WardenCampaignTarget} {name : String}
    (member : name ∈ namesTo before item)
    (after : List WardenCampaignTarget) :
    name ∈ (before ++ item :: after).map WardenCampaignTarget.id := by
  have front : (before ++ [item]).Sublist (before ++ item :: after) :=
    (List.Sublist.refl before).append
      (List.singleton_sublist.mpr List.mem_cons_self)
  exact (front.map _).subset member

section Visiting

variable (first : DependenciesFirst WardenCampaignTarget.id
    WardenCampaignTarget.dependsOn stored)
  (distinct : (stored.map WardenCampaignTarget.id).Nodup)
  (same : targets.Perm stored)

include first distinct same

theorem visit_reaches {depth : Nat} {stack : List String}
    {before after : List WardenCampaignTarget} {item : WardenCampaignTarget}
    (split : stored = before ++ item :: after)
    (deep : before.length < depth)
    (clear : ∀ name ∈ stack, name ∉ namesTo before item)
    (visited : Visited targets ordered) :
    ∃ next, visit targets depth stack ordered item = .ok next ∧
      Reaches targets ordered next (namesTo before item) [item.id] := by
  induction depth generalizing stack before after item ordered with
  | zero => exact absurd deep (Nat.not_lt_zero _)
  | succ depth inductionHypothesis =>
    have last : item.id ∈ namesTo before item :=
      List.mem_map_of_mem (List.mem_append_right _ List.mem_cons_self)
    have ahead : ∀ name ∈ before.map WardenCampaignTarget.id,
        name ∈ namesTo before item := by
      intro name member
      rw [namesTo, List.map_append]
      exact List.mem_append_left _ member
    have once : item.id ∉ before.map WardenCampaignTarget.id := by
      rw [split, List.map_append, List.map_cons, List.nodup_append]
        at distinct
      exact fun member => distinct.2.2 _ member _ List.mem_cons_self rfl
    have inside : item ∈ targets := same.mem_iff.mpr
      (split ▸ List.mem_append_right _ List.mem_cons_self)
    rw [visit, if_neg fun member => clear _ member last]
    split
    · next seen =>
        refine ⟨ordered, rfl, visited, fun _ member => member,
          fun _ member => Or.inl member, ?_⟩
        rw [List.forall_mem_singleton]
        exact seen
    next unseen =>
      have deps : ∀ dependency ∈ item.dependsOn, ∀ ordered,
          Visited targets ordered →
          ∃ next, (do
            let value ← demand (byId targets dependency)
              "warden_dependency_missing"
            visit targets depth (item.id :: stack) ordered value) =
              .ok next ∧
            Reaches targets ordered next
              (before.map WardenCampaignTarget.id) [dependency] := by
        intro dependency depends ordered visited
        rcases List.mem_map.mp
          (first before item after split dependency depends) with
          ⟨value, within, rfl⟩
        rcases List.append_of_mem within with ⟨front, back, rfl⟩
        have inner : ∀ name ∈ namesTo front value, name ∈
            (front ++ value :: back).map WardenCampaignTarget.id :=
          fun name member => mem_of_namesTo member back
        have shifted : stored = front ++ value :: (back ++ item :: after) :=
          by rw [split, List.append_assoc, List.cons_append]
        have valueIn : value ∈ targets := same.mem_iff.mpr
          (shifted ▸ List.mem_append_right _ List.mem_cons_self)
        have shallow : front.length < depth := by
          rw [List.length_append, List.length_cons] at deep
          omega
        have off : ∀ name ∈ item.id :: stack,
            name ∉ namesTo front value := by
          rw [List.forall_mem_cons]
          exact ⟨fun member => once (inner _ member), fun name member back =>
            clear name member (ahead _ (inner _ back))⟩
        rcases inductionHypothesis shifted shallow off visited with
          ⟨next, answered, reaches⟩
        rw [byId_eq_some
          ((same.map WardenCampaignTarget.id).nodup_iff.mpr distinct)
          valueIn]
        exact ⟨next, answered, { reaches with
          fresh := fun one member =>
            (reaches.fresh one member).imp_right (inner _) }⟩
      rcases @foldlM_reaches _ _ _ _ (fun dependency => dependency) _ _ deps
        visited with ⟨next, folded, reaches⟩
      rw [List.map_id'] at reaches
      have fresh : item.id ∉ next.map WardenCampaignTarget.id := by
        intro member
        rcases List.mem_map.mp member with ⟨one, within, named⟩
        rcases reaches.fresh one within with old | early
        · exact unseen (List.mem_map.mpr ⟨one, old, named⟩)
        · exact once (named ▸ early)
      refine ⟨next ++ [item], ?_, visited_concat reaches.visited inside fresh
        reaches.reached, ?_, ?_, ?_⟩
      · rw [folded]
        rfl
      · exact fun one member =>
          List.mem_append_left _ (reaches.kept one member)
      · rw [List.forall_mem_append, List.forall_mem_singleton]
        exact ⟨fun one member =>
          (reaches.fresh one member).imp_right (ahead _), Or.inr last⟩
      · rw [List.forall_mem_singleton, List.map_append]
        exact List.mem_append_right _ List.mem_cons_self

theorem visits_all :
    ∃ ordered, targets.foldlM (visit targets (targets.length + 1) []) [] =
        .ok ordered ∧ Visited targets ordered ∧
      ∀ item ∈ targets, item ∈ ordered := by
  have empty : Visited targets [] := {
    inside := List.forall_mem_nil _
    distinct := List.nodup_nil
    first := dependenciesFirst_nil }
  have each : ∀ item ∈ targets, ∀ ordered, Visited targets ordered →
      ∃ next, visit targets (targets.length + 1) [] ordered item =
          .ok next ∧
        Reaches targets ordered next
          (stored.map WardenCampaignTarget.id) [item.id] := by
    intro item member ordered visited
    rcases List.append_of_mem (same.mem_iff.mp member) with
      ⟨before, after, split⟩
    have deep : before.length < targets.length + 1 := by
      rw [same.length_eq, split, List.length_append]
      omega
    rcases visit_reaches first distinct same split deep
      (List.forall_mem_nil _) visited with ⟨next, answered, reaches⟩
    refine ⟨next, answered, { reaches with
      fresh := fun one within => (reaches.fresh one within).imp_right
        fun named => ?_ }⟩
    rw [split]
    exact mem_of_namesTo named after
  rcases foldlM_reaches each empty with ⟨ordered, folded, reaches⟩
  refine ⟨ordered, folded, reaches.visited, fun item member => ?_⟩
  rcases List.mem_map.mp (reaches.reached item.id
    (List.mem_map_of_mem member)) with ⟨one, within, named⟩
  have equal : one = item := Table.eq_of_key
    ((same.map WardenCampaignTarget.id).nodup_iff.mpr distinct)
    (reaches.visited.inside one within) member named
  exact equal ▸ within

end Visiting

/-! ## The plan -/

/-- The first target needs the second one, directly or through others. -/
def DependsOn (targets : List WardenCampaignTarget)
    (first second : WardenCampaignTarget) : Prop :=
  TransGen (Edge WardenCampaignTarget.id WardenCampaignTarget.dependsOn
    targets) second.id first.id

theorem sublist_of_dependsOn (visited : Visited targets ordered)
    (all : ∀ item ∈ targets, item ∈ ordered)
    {first second : WardenCampaignTarget} (inFirst : first ∈ ordered)
    (inSecond : second ∈ ordered)
    (depends : DependsOn targets first second) :
    [second, first].Sublist ordered := by
  have path : TransGen (Edge WardenCampaignTarget.id
      WardenCampaignTarget.dependsOn ordered) second.id first.id := by
    refine TransGen.mono ?_ _ _ depends
    rintro _ _ ⟨item, inside, edge⟩
    exact ⟨item, all item inside, edge⟩
  rcases List.append_of_mem inFirst with ⟨before, after, split⟩
  rcases List.mem_map.mp (front_of_path visited.first visited.distinct path
    split rfl) with ⟨other, within, named⟩
  have inOrder : other ∈ ordered :=
    split ▸ List.mem_append_left _ within
  have equal : other = second :=
    Table.eq_of_key visited.distinct inOrder inSecond named
  rw [split, ← equal]
  exact (List.singleton_sublist.mpr within).append
    (List.singleton_sublist.mpr List.mem_cons_self)

/--
The rollback plan of a campaign has its completed and failed targets, each
once, and none of them behind one on which it depends.
-/
theorem rollback_plan (sha256 : String → String)
    (tenantId campaignId : String) (db : CampaignDb)
    (enrolled : Enrolled sha256 tenantId campaignId db) :
    ∃ plan, planWardenRollback db tenantId campaignId = .ok plan ∧
      (plan.map WardenCampaignTarget.id).Nodup ∧
      (∀ item, item ∈ plan ↔ item ∈ db.targets ∧
        item.tenantId = tenantId ∧ item.campaignId = campaignId ∧
        (item.stage = .completed ∨ item.stage = .failed)) ∧
      ∀ first ∈ plan, ∀ second ∈ plan,
        DependsOn (listWardenCampaignTargets db tenantId campaignId) first
          second → [first, second].Sublist plan := by
  have same := list_perm db tenantId campaignId
  rcases visits_all enrolled.layered (targetsOf_nodup db tenantId campaignId)
    same with ⟨ordered, folded, visited, all⟩
  have ended : ∀ stage : WardenTargetStage, stage.isEnded = true ↔
      stage = .completed ∨ stage = .failed := by
    intro stage
    cases stage <;> simp [WardenTargetStage.isEnded]
  refine ⟨(ordered.filter fun item => item.stage.isEnded).reverse, ?_, ?_, ?_,
    ?_⟩
  · rw [planWardenRollback, folded]
    rfl
  · rw [List.map_reverse, List.nodup_reverse]
    exact visited.distinct.sublist (List.filter_sublist.map _)
  · intro item
    have known : item ∈ ordered ↔ item ∈ db.targets ∧
        item.tenantId = tenantId ∧ item.campaignId = campaignId := by
      rw [← mem_list]
      exact ⟨visited.inside item, all item⟩
    rw [List.mem_reverse, List.mem_filter, known, ended, and_assoc,
      and_assoc]
  · intro first inFirst second inSecond depends
    rw [List.mem_reverse, List.mem_filter] at inFirst inSecond
    rw [← List.reverse_reverse [first, second], List.reverse_sublist]
    have kept : [second, first] = [second, first].filter
        fun item => item.stage.isEnded := by
      simp [inFirst.2, inSecond.2]
    show [second, first].Sublist _
    rw [kept]
    exact (sublist_of_dependsOn visited all inFirst.1 inSecond.1
      depends).filter _

def sampleTransition (targetId eventId : String) (revision : Nat)
    (fromStage toStage : WardenTargetStage) : TargetCall :=
  .move
    { toEventDetails := sampleDetails eventId "3"
      tenantId := "t"
      campaignId := "c"
      targetId := targetId
      expectedRevision := revision
      fromStage := fromStage
      toStage := toStage
      packageArtifactId := none
      exceptionCode := none }

/-- `z` needs `a` through `m`; `z` and `a` have failed. -/
def sampleEnded : CampaignDb :=
  [sampleAddition "a" [], sampleAddition "m" ["a"], sampleAddition "z" ["m"],
    sampleTransition "a" "1" 1 .queued .analyzing,
    sampleTransition "a" "2" 2 .analyzing .failed,
    sampleTransition "z" "3" 1 .queued .analyzing,
    sampleTransition "z" "4" 2 .analyzing .failed].foldl
      (TargetCall.next id) sampleDraft

theorem rollback_sample :
    ∃ plan, planWardenRollback sampleEnded "t" "c" = .ok plan ∧
      plan.map WardenCampaignTarget.id = ["z", "a"] := by
  rcases rollback_plan id "t" "c" sampleEnded (sampleDraft_enrolled _) with
    ⟨plan, planned, _⟩
  refine ⟨plan, planned, ?_⟩
  have ids : (planWardenRollback sampleEnded "t" "c").map
      (List.map WardenCampaignTarget.id) = .ok ["z", "a"] := by
    decide
  rw [planned] at ids
  exact Except.ok.inj ids

end Mendpoint.Campaign

import Mathlib.Data.List.Perm.Basic
import Mendpoint.SoftwareGraph.Publication

/-!
# Normal publications

Which publications are accepted does not depend on the order of their lists,
and the normal form of an accepted publication is accepted and normal.
-/

namespace Mendpoint.SoftwareGraph

open Mendpoint.Library
open Mendpoint.Library.Fallible

/-! ## Loops -/

theorem check_bind_eq_ok {ε β : Type} {first : Except ε Unit}
    {next : Unit → Except ε β} {result : β} :
    (first >>= next) = .ok result ↔
      first = .ok () ∧ next () = .ok result := by
  rw [bind_eq_ok]
  constructor
  · rintro ⟨_, checked, others⟩
    exact ⟨checked, others⟩
  · rintro ⟨checked, others⟩
    exact ⟨(), checked, others⟩

theorem eachAfter_eq_ok {α : Type} {check : List α → α → Except String Unit}
    {valid : α → Prop} {apart : α → α → Prop}
    (exactly : ∀ seen item, check seen item = .ok () ↔
      valid item ∧ ∀ other ∈ seen, apart other item)
    {seen items : List α} :
    eachAfter check seen items = .ok () ↔
      (∀ item ∈ items, valid item) ∧
        (∀ other ∈ seen, ∀ item ∈ items, apart other item) ∧
        items.Pairwise apart := by
  induction items generalizing seen with
  | nil => simp [eachAfter]
  | cons item rest inductionHypothesis =>
    rw [eachAfter, bind_eq_ok, List.pairwise_cons, List.forall_mem_cons]
    constructor
    · rintro ⟨_, checked, others⟩
      obtain ⟨valids, earlier, later⟩ := inductionHypothesis.mp others
      obtain ⟨isValid, isApart⟩ := (exactly seen item).mp checked
      refine ⟨⟨isValid, valids⟩, ?_, earlier item List.mem_cons_self,
        later⟩
      intro other inside one member
      rcases List.mem_cons.mp member with rfl | within
      · exact isApart other inside
      · exact earlier other (List.mem_cons_of_mem _ inside) one within
    · rintro ⟨⟨isValid, valids⟩, earlier, next, later⟩
      refine ⟨(), (exactly seen item).mpr ⟨isValid, fun other inside =>
        earlier other inside item List.mem_cons_self⟩,
        inductionHypothesis.mpr ⟨valids, ?_, later⟩⟩
      intro other inside one member
      rcases List.mem_cons.mp inside with rfl | within
      · exact next one member
      · exact earlier other within one (List.mem_cons_of_mem _ member)

/-! ## Evidence -/

theorem validateEvidence_eq_ok {refs : List String} {code : String} :
    validateEvidence refs code = .ok () ↔
      1 ≤ refs.length ∧ refs.length ≤ 32 ∧ refs.Nodup ∧
        ∀ ref ∈ refs, isBounded 1024 ref = true := by
  simp only [validateEvidence, check_bind_eq_ok, throwIf_eq_ok,
    eachOnce_eq_ok, List.map_id, boundedString, not_or, not_lt,
    Bool.not_eq_false, List.not_mem_nil, not_false_eq_true, implies_true,
    and_true]
  constructor
  · rintro ⟨⟨some, few⟩, bounded, distinct⟩
    exact ⟨some, few, distinct, bounded⟩
  · rintro ⟨some, few, distinct, bounded⟩
    exact ⟨⟨some, few⟩, bounded, distinct⟩

theorem validateEvidence_perm {refs others : List String} {code : String}
    (permuted : refs.Perm others) :
    validateEvidence refs code = .ok () ↔
      validateEvidence others code = .ok () := by
  rw [validateEvidence_eq_ok, validateEvidence_eq_ok, permuted.length_eq,
    permuted.nodup_iff]
  simp only [permuted.mem_iff]

theorem validateOptional_normal {refs : Option (List String)} {code : String}
    (valid : validateOptional refs code = .ok ()) :
    validateOptional (refs.map fun refs => Text.sortTexts refs.dedup)
      code = .ok () := by
  cases refs with
  | none => rfl
  | some refs =>
    have distinct := (validateEvidence_eq_ok.mp valid).2.2.1
    show validateEvidence (Text.sortTexts refs.dedup) code = .ok ()
    rw [distinct.dedup, validateEvidence_perm (Text.sortTexts_perm refs)]
    exact valid

theorem sortTexts_dedup_normal (texts : List String) :
    Text.sortTexts (Text.sortTexts texts.dedup).dedup =
      Text.sortTexts texts.dedup := by
  have distinct : (Text.sortTexts texts.dedup).Nodup :=
    (Text.sortTexts_perm _).nodup_iff.mpr (List.nodup_dedup texts)
  rw [distinct.dedup, Text.sortTexts_sortTexts]

theorem normalFinding_normal (finding : Finding) :
    normalFinding (normalFinding finding) = normalFinding finding := by
  rw [normalFinding, normalFinding]
  dsimp only
  rw [Text.sortTexts_sortTexts, Option.map_map]
  cases finding.conflictRefs with
  | none => rfl
  | some refs =>
    simp only [Option.map_some, Function.comp_apply,
      sortTexts_dedup_normal]

/-! ## Entities -/

/-- Two entities differ in their ids and in their keys. -/
def EntitiesApart (entity other : Entity) : Prop :=
  other.id ≠ entity.id ∧ other.canonicalKey ≠ entity.canonicalKey

theorem checkEntity_iff (observedAt : String) (seen : List Entity)
    (entity : Entity) :
    checkEntity observedAt seen entity = .ok () ↔
      checkEntity observedAt [] entity = .ok () ∧
        ∀ other ∈ seen, EntitiesApart other entity := by
  simp only [checkEntity, check_bind_eq_ok, throwIf_eq_ok,
    List.map_nil, List.not_mem_nil, not_false_eq_true, true_and]
  simp only [EntitiesApart, forall_and, List.mem_map, not_exists, not_and]
  constructor
  · rintro ⟨named, ids, key, keys, rest⟩
    exact ⟨⟨named, key, rest⟩, fun other inside same =>
      ids other inside same.symm, fun other inside same =>
      keys other inside same.symm⟩
  · rintro ⟨⟨named, key, rest⟩, ids, keys⟩
    exact ⟨named, fun other inside same => ids other inside same.symm, key,
      fun other inside same => keys other inside same.symm, rest⟩

theorem pairwise_entitiesApart {entities : List Entity} :
    entities.Pairwise EntitiesApart ↔
      (entities.map Entity.id).Nodup ∧
        (entities.map Entity.canonicalKey).Nodup := by
  simp only [List.Nodup, List.pairwise_map, ← List.pairwise_and_iff]
  constructor
  · exact fun apart => apart.imp fun both => ⟨both.1.symm, both.2.symm⟩
  · exact fun apart => apart.imp fun both => ⟨both.1.symm, both.2.symm⟩

theorem forall_alias {observedAt : String} {entity : Entity}
    (valid : checkEntity observedAt [] entity = .ok ()) :
    entity.aliases.length ≤ 32 ∧
      ∀ «alias» ∈ entity.aliases, isBounded 1024 «alias» = true := by
  simp only [checkEntity, check_bind_eq_ok, throwIf_eq_ok,
    forM_eq_ok, boundedString, Bool.not_eq_false, not_lt] at valid
  exact ⟨valid.2.2.2.2.2.2.1, valid.2.2.2.2.2.2.2.1⟩

theorem checkEntity_of {observedAt : String} {entity other : Entity}
    (same : other = { entity with
      aliases := other.aliases
      evidenceRefs := other.evidenceRefs
      conflictRefs := other.conflictRefs })
    (few : other.aliases.length ≤ 32)
    (aliases : ∀ «alias» ∈ other.aliases, «alias» ∈ entity.aliases)
    (evidence : entity.evidenceRefs.Perm other.evidenceRefs)
    (conflicts : ∀ code, validateOptional entity.conflictRefs code = .ok () →
      validateOptional other.conflictRefs code = .ok ())
    (valid : checkEntity observedAt [] entity = .ok ()) :
    checkEntity observedAt [] other = .ok () := by
  have bounded := (forall_alias valid).2
  rw [same]
  simp only [checkEntity, check_bind_eq_ok, throwIf_eq_ok,
    forM_eq_ok, boundedString, not_lt, Bool.not_eq_false] at valid ⊢
  obtain ⟨named, fresh, key, freshKey, label, scope, _, _, refs, extractor,
    validity, conflict⟩ := valid
  exact ⟨named, fresh, key, freshKey, label, scope, few,
    fun one member => bounded one (aliases one member),
    (validateEvidence_perm evidence).mp refs, extractor, validity,
    conflicts _ conflict⟩

theorem checkEntity_normal {observedAt : String} {entity : Entity}
    (valid : checkEntity observedAt [] entity = .ok ()) :
    checkEntity observedAt [] (normalEntity entity) = .ok () := by
  have permuted := Text.sortTexts_perm entity.aliases.dedup
  refine checkEntity_of rfl ?_ ?_ (Text.sortTexts_perm _).symm
    (fun code => validateOptional_normal) valid
  · show (Text.sortTexts entity.aliases.dedup).length ≤ 32
    rw [permuted.length_eq]
    exact (List.dedup_sublist _).length_le.trans (forall_alias valid).1
  · intro one member
    exact List.mem_dedup.mp (permuted.mem_iff.mp member)

theorem normalEntity_normal (entity : Entity) :
    normalEntity (normalEntity entity) = normalEntity entity := by
  rw [normalEntity, normalEntity]
  dsimp only
  rw [normalFinding_normal, sortTexts_dedup_normal]

/-! ## Relationships -/

theorem entityKind?_eq_some {entities : List Entity}
    (distinct : (entities.map Entity.id).Nodup) {id : String}
    {kind : EntityKind} :
    entityKind? entities id = some kind ↔
      ∃ entity ∈ entities, entity.id = id ∧ entity.kind = kind := by
  rw [entityKind?, Option.map_eq_some_iff]
  constructor
  · rintro ⟨entity, found, same⟩
    have named := List.find?_some found
    rw [decide_eq_true_eq] at named
    exact ⟨entity, List.mem_of_find?_eq_some found, named, same⟩
  · rintro ⟨entity, member, named, same⟩
    cases found : entities.find? fun other => decide (other.id = id) with
    | none =>
      exact absurd (decide_eq_true named)
        (List.find?_eq_none.mp found entity member)
    | some other =>
      have also := List.find?_some found
      rw [decide_eq_true_eq] at also
      rw [List.inj_on_of_nodup_map distinct
        (List.mem_of_find?_eq_some found) member (also.trans named.symm)]
      exact ⟨entity, rfl, same⟩

theorem checkRelationship_iff (observedAt : String) (entities : List Entity)
    (seen : List Relationship) (relationship : Relationship) :
    checkRelationship observedAt entities seen relationship = .ok () ↔
      checkRelationship observedAt entities [] relationship = .ok () ∧
        ∀ other ∈ seen, relationship.id ≠ other.id := by
  simp only [checkRelationship, check_bind_eq_ok, throwIf_eq_ok,
    List.map_nil, List.not_mem_nil, not_false_eq_true, true_and]
  simp only [List.mem_map, not_exists, not_and]
  constructor
  · rintro ⟨named, ids, rest⟩
    exact ⟨⟨named, rest⟩, fun other inside same =>
      ids other inside same.symm⟩
  · rintro ⟨⟨named, rest⟩, ids⟩
    exact ⟨named, fun other inside same => ids other inside same.symm, rest⟩

theorem checkRelationship_of {observedAt : String} {entities : List Entity}
    {relationship other : Relationship}
    (same : other = { relationship with
      evidenceRefs := other.evidenceRefs
      conflictRefs := other.conflictRefs })
    (evidence : relationship.evidenceRefs.Perm other.evidenceRefs)
    (conflicts : ∀ code,
      validateOptional relationship.conflictRefs code = .ok () →
        validateOptional other.conflictRefs code = .ok ())
    (valid : checkRelationship observedAt entities [] relationship =
      .ok ()) :
    checkRelationship observedAt entities [] other = .ok () := by
  rw [same]
  simp only [checkRelationship, check_bind_eq_ok] at valid ⊢
  obtain ⟨named, fresh, pair, refs, extractor, validity, conflict⟩ := valid
  exact ⟨named, fresh, pair, (validateEvidence_perm evidence).mp refs,
    extractor, validity, conflicts _ conflict⟩

theorem checkRelationship_normal {observedAt : String}
    {entities : List Entity} {relationship : Relationship}
    (valid : checkRelationship observedAt entities [] relationship =
      .ok ()) :
    checkRelationship observedAt entities []
      (normalRelationship relationship) = .ok () :=
  checkRelationship_of rfl (Text.sortTexts_perm _).symm
    (fun _ => validateOptional_normal) valid

theorem normalRelationship_normal (relationship : Relationship) :
    normalRelationship (normalRelationship relationship) =
      normalRelationship relationship := by
  rw [normalRelationship, normalRelationship]
  dsimp only
  rw [normalFinding_normal]

/-! ## Coverage -/

theorem checkCoverageStage_iff (seen : List CoverageStage)
    (stage : CoverageStage) :
    checkCoverageStage seen stage = .ok () ↔
      checkCoverageStage [] stage = .ok () ∧
        ∀ other ∈ seen, stage.stage ≠ other.stage := by
  simp only [checkCoverageStage, check_bind_eq_ok, throwIf_eq_ok,
    List.map_nil, List.not_mem_nil, not_false_eq_true, true_and]
  simp only [List.mem_map, not_exists, not_and]
  constructor
  · rintro ⟨stages, rest⟩
    exact ⟨rest, fun other inside same => stages other inside same.symm⟩
  · rintro ⟨rest, stages⟩
    exact ⟨fun other inside same => stages other inside same.symm, rest⟩

theorem checkCoverageStage_evidence {stage : CoverageStage}
    {evidenceRefs : List String}
    (evidence : stage.evidenceRefs.Perm evidenceRefs)
    (valid : checkCoverageStage [] stage = .ok ()) :
    checkCoverageStage [] { stage with evidenceRefs := evidenceRefs } =
      .ok () := by
  simp only [checkCoverageStage, check_bind_eq_ok] at valid ⊢
  obtain ⟨fresh, counts, reasons, extractor, semantics, refs⟩ := valid
  exact ⟨fresh, counts, reasons, extractor, semantics,
    (validateEvidence_perm evidence).mp refs⟩

theorem checkCoverageStage_normal {stage : CoverageStage}
    (valid : checkCoverageStage [] stage = .ok ()) :
    checkCoverageStage [] (normalCoverageStage stage) = .ok () := by
  refine @checkCoverageStage_evidence { stage with
    reasons := stage.reasons.map fun reasons =>
      Text.sortTexts reasons.dedup } _ (Text.sortTexts_perm _).symm ?_
  simp only [checkCoverageStage, check_bind_eq_ok, throwIf_eq_ok] at valid ⊢
  obtain ⟨fresh, counts, reasons, extractor, semantics, refs⟩ := valid
  refine ⟨fresh, counts, validateOptional_normal reasons, extractor, ?_,
    refs⟩
  cases given : stage.reasons with
  | none =>
    rw [Option.map_none, ← given]
    exact semantics
  | some list =>
    rw [given] at reasons
    have distinct := (validateEvidence_eq_ok.mp reasons).2.2.1
    have lengths := (Text.sortTexts_perm list).length_eq
    rw [coverageSemantics, given] at semantics
    rw [coverageSemantics, Option.map_some, distinct.dedup]
    simp only [Option.getD_some, lengths, reduceCtorEq] at semantics ⊢
    exact semantics

theorem normalCoverageStage_normal (stage : CoverageStage) :
    normalCoverageStage (normalCoverageStage stage) =
      normalCoverageStage stage := by
  rw [normalCoverageStage, normalCoverageStage]
  dsimp only
  rw [Text.sortTexts_sortTexts, Option.map_map]
  cases stage.reasons with
  | none => rfl
  | some reasons =>
    simp only [Option.map_some, Function.comp_apply,
      sortTexts_dedup_normal]

/-! ## Publications -/

/-- What a publication must meet, whatever the order of its lists. -/
structure Accepted (input : Publication) : Prop where
  subject : checkSubject input.toSubject = .ok ()
  someEntity : 1 ≤ input.entities.length
  fewEntities : input.entities.length ≤ 10000
  fewRelationships : input.relationships.length ≤ 50000
  allStages : input.coverage.length = Stage.all.length
  entities : ∀ entity ∈ input.entities,
    checkEntity input.observedAt [] entity = .ok ()
  ids : (input.entities.map Entity.id).Nodup
  keys : (input.entities.map Entity.canonicalKey).Nodup
  relationships : ∀ relationship ∈ input.relationships,
    checkRelationship input.observedAt (normal input).entities []
      relationship = .ok ()
  relationshipIds : (input.relationships.map Relationship.id).Nodup
  coverage : ∀ stage ∈ input.coverage, checkCoverageStage [] stage = .ok ()
  stages : (input.coverage.map CoverageStage.stage).Nodup

theorem nodup_map_iff {α β : Type} {key : α → β} {items : List α} :
    (items.map key).Nodup ↔
      items.Pairwise fun earlier later => key later ≠ key earlier := by
  simp only [List.Nodup, List.pairwise_map]
  constructor
  · exact fun apart => apart.imp Ne.symm
  · exact fun apart => apart.imp Ne.symm

theorem checkPublication_eq_ok {input : Publication} :
    checkPublication input = .ok () ↔ Accepted input := by
  rw [checkPublication]
  simp only [check_bind_eq_ok, throwIf_eq_ok,
    eachAfter_eq_ok (checkEntity_iff input.observedAt),
    eachAfter_eq_ok (checkRelationship_iff input.observedAt _),
    eachAfter_eq_ok checkCoverageStage_iff, pairwise_entitiesApart,
    ← nodup_map_iff, List.not_mem_nil, false_imp_iff, implies_true, true_and,
    not_or, not_lt, not_not, ne_eq]
  constructor
  · rintro ⟨subject, ⟨someEntity, fewEntities⟩, fewRelationships, _,
      ⟨entities, ids, keys⟩, ⟨relationships, relationshipIds⟩,
      ⟨coverage, stages⟩, allStages⟩
    exact ⟨subject, someEntity, fewEntities, fewRelationships, allStages,
      entities, ids, keys, relationships, relationshipIds, coverage, stages⟩
  · intro accepted
    have sixth : input.coverage.length = 6 := accepted.allStages
    exact ⟨accepted.subject, ⟨accepted.someEntity, accepted.fewEntities⟩,
      accepted.fewRelationships, ⟨by omega, by omega⟩,
      ⟨accepted.entities, accepted.ids, accepted.keys⟩,
      ⟨accepted.relationships, accepted.relationshipIds⟩,
      ⟨accepted.coverage, accepted.stages⟩, accepted.allStages⟩

theorem normalizedPublication_eq_ok {input output : Publication} :
    normalizedPublication input = .ok output ↔
      Accepted input ∧ normal input = output := by
  rw [normalizedPublication, check_bind_eq_ok, checkPublication_eq_ok,
    pure_eq_ok]

theorem map_id_normal (entities : List Entity) :
    (entities.map normalEntity).map Entity.id = entities.map Entity.id := by
  rw [List.map_map]
  rfl

theorem sortBy_map_normal {α : Type} {key : α → String} {change : α → α}
    (fixed : ∀ item, change (change item) = change item) (items : List α) :
    Text.sortBy key ((Text.sortBy key (items.map change)).map change) =
      Text.sortBy key (items.map change) := by
  have same : (Text.sortBy key (items.map change)).map change =
      Text.sortBy key (items.map change) := by
    refine (List.map_congr_left fun item member => ?_).trans (List.map_id _)
    obtain ⟨origin, _, rfl⟩ :=
      List.mem_map.mp ((Text.mem_sortBy key).mp member)
    exact fixed origin
  rw [same, Text.sortBy_sortBy]

theorem normal_normal (input : Publication) :
    normal (normal input) = normal input := by
  rw [normal, normal]
  dsimp only
  rw [sortBy_map_normal normalEntity_normal,
    sortBy_map_normal normalRelationship_normal,
    sortBy_map_normal normalCoverageStage_normal]

theorem Accepted.normal {input : Publication} (accepted : Accepted input) :
    Accepted (normal input) where
  subject := accepted.subject
  someEntity := by
    show 1 ≤ (Text.sortBy _ _).length
    rw [Text.length_sortBy, List.length_map]
    exact accepted.someEntity
  fewEntities := by
    show (Text.sortBy _ _).length ≤ _
    rw [Text.length_sortBy, List.length_map]
    exact accepted.fewEntities
  fewRelationships := by
    show (Text.sortBy _ _).length ≤ _
    rw [Text.length_sortBy, List.length_map]
    exact accepted.fewRelationships
  allStages := by
    show (Text.sortBy _ _).length = _
    rw [Text.length_sortBy, List.length_map]
    exact accepted.allStages
  entities := by
    intro entity member
    obtain ⟨origin, inside, rfl⟩ :=
      List.mem_map.mp ((Text.mem_sortBy _).mp member)
    exact checkEntity_normal (accepted.entities origin inside)
  ids := by
    show ((Text.sortBy Entity.id _).map Entity.id).Nodup
    rw [Text.nodup_map_sortBy, map_id_normal]
    exact accepted.ids
  keys := by
    show ((Text.sortBy Entity.id (input.entities.map normalEntity)).map
      Entity.canonicalKey).Nodup
    rw [((Text.sortBy_perm Entity.id _).map _).nodup_iff, List.map_map]
    exact accepted.keys
  relationships := by
    rw [normal_normal]
    intro relationship member
    obtain ⟨origin, inside, rfl⟩ :=
      List.mem_map.mp ((Text.mem_sortBy _).mp member)
    exact checkRelationship_normal (accepted.relationships origin inside)
  relationshipIds := by
    show ((Text.sortBy Relationship.id
      (input.relationships.map normalRelationship)).map
        Relationship.id).Nodup
    rw [Text.nodup_map_sortBy, List.map_map]
    exact accepted.relationshipIds
  coverage := by
    intro stage member
    obtain ⟨origin, inside, rfl⟩ :=
      List.mem_map.mp ((Text.mem_sortBy _).mp member)
    exact checkCoverageStage_normal (accepted.coverage origin inside)
  stages := by
    show ((Text.sortBy _ (input.coverage.map normalCoverageStage)).map
      CoverageStage.stage).Nodup
    rw [((Text.sortBy_perm _ _).map _).nodup_iff, List.map_map]
    exact accepted.stages

theorem normalized_normalized {input output : Publication}
    (normalized : normalizedPublication input = .ok output) :
    normalizedPublication output = .ok output := by
  rw [normalizedPublication_eq_ok] at normalized ⊢
  obtain ⟨accepted, rfl⟩ := normalized
  exact ⟨accepted.normal, normal_normal input⟩

/-! ## The order of the lists -/

/-- A list is another one in another order, up to a relation of items. -/
def Rearranged {α : Type} (alike : α → α → Prop) (items others : List α) :
    Prop :=
  ∃ middle, items.Perm middle ∧ List.Forall₂ alike middle others

section Rearranged

variable {α : Type} {alike : α → α → Prop} {items others : List α}

theorem Rearranged.symm (rearranged : Rearranged alike items others)
    (symmetric : ∀ item other, alike item other → alike other item) :
    Rearranged alike others items := by
  obtain ⟨middle, permuted, related⟩ := rearranged
  have back : List.Forall₂ alike others middle :=
    related.flip.imp fun item other => symmetric other item
  have composed : Relation.Comp (List.Forall₂ alike) List.Perm others items :=
    ⟨middle, back, permuted.symm⟩
  rw [List.forall₂_comp_perm_eq_perm_comp_forall₂] at composed
  exact composed

theorem Rearranged.forall_mem (rearranged : Rearranged alike items others)
    {valid : α → Prop}
    (kept : ∀ item other, alike item other → valid item → valid other)
    (all : ∀ item ∈ items, valid item) : ∀ other ∈ others, valid other := by
  obtain ⟨middle, permuted, related⟩ := rearranged
  have within : ∀ item ∈ middle, valid item :=
    fun item member => all item (permuted.mem_iff.mpr member)
  clear permuted all
  induction related with
  | nil => exact List.forall_mem_nil _
  | cons first _ inductionHypothesis =>
    rw [List.forall_mem_cons] at within ⊢
    exact ⟨kept _ _ first within.1, inductionHypothesis within.2⟩

theorem Rearranged.map_perm {β : Type}
    (rearranged : Rearranged alike items others) {part : α → β}
    (kept : ∀ item other, alike item other → part item = part other) :
    (items.map part).Perm (others.map part) := by
  obtain ⟨middle, permuted, related⟩ := rearranged
  have same : middle.map part = others.map part := by
    clear permuted
    induction related with
    | nil => rfl
    | cons first _ inductionHypothesis =>
      rw [List.map_cons, List.map_cons, kept _ _ first,
        inductionHypothesis]
  exact same ▸ permuted.map part

theorem Rearranged.length_eq (rearranged : Rearranged alike items others) :
    items.length = others.length := by
  obtain ⟨middle, permuted, related⟩ := rearranged
  exact permuted.length_eq.trans related.length_eq

end Rearranged

/-- Two entities with the same aliases and evidence, in any order. -/
structure EntityAlike (entity other : Entity) : Prop where
  same : other = { entity with
    aliases := other.aliases
    evidenceRefs := other.evidenceRefs }
  aliases : entity.aliases.Perm other.aliases
  evidence : entity.evidenceRefs.Perm other.evidenceRefs

structure RelationshipAlike (relationship other : Relationship) : Prop where
  same : other = { relationship with evidenceRefs := other.evidenceRefs }
  evidence : relationship.evidenceRefs.Perm other.evidenceRefs

structure StageAlike (stage other : CoverageStage) : Prop where
  same : other = { stage with evidenceRefs := other.evidenceRefs }
  evidence : stage.evidenceRefs.Perm other.evidenceRefs

/-- Two publications which differ in the order of their lists only. -/
structure PublicationAlike (input other : Publication) : Prop where
  subject : input.toSubject = other.toSubject
  entities : Rearranged EntityAlike input.entities other.entities
  relationships :
    Rearranged RelationshipAlike input.relationships other.relationships
  coverage : Rearranged StageAlike input.coverage other.coverage

theorem EntityAlike.symm {entity other : Entity}
    (alike : EntityAlike entity other) : EntityAlike other entity := by
  refine ⟨?_, alike.aliases.symm, alike.evidence.symm⟩
  rw [alike.same]

theorem RelationshipAlike.symm {relationship other : Relationship}
    (alike : RelationshipAlike relationship other) :
    RelationshipAlike other relationship := by
  refine ⟨?_, alike.evidence.symm⟩
  rw [alike.same]

theorem StageAlike.symm {stage other : CoverageStage}
    (alike : StageAlike stage other) : StageAlike other stage := by
  refine ⟨?_, alike.evidence.symm⟩
  rw [alike.same]

theorem PublicationAlike.symm {input other : Publication}
    (alike : PublicationAlike input other) : PublicationAlike other input where
  subject := alike.subject.symm
  entities := alike.entities.symm fun _ _ => EntityAlike.symm
  relationships := alike.relationships.symm fun _ _ => RelationshipAlike.symm
  coverage := alike.coverage.symm fun _ _ => StageAlike.symm

theorem normalEntity_eq_of_alike {entity other : Entity}
    (alike : EntityAlike entity other) :
    normalEntity entity = normalEntity other := by
  have aliases := Text.sortTexts_eq_of_perm alike.aliases.dedup
  have evidence := Text.sortTexts_eq_of_perm alike.evidence
  rw [alike.same, normalEntity, normalEntity, normalFinding, normalFinding]
  dsimp only
  rw [aliases, evidence]

theorem normalRelationship_eq_of_alike {relationship other : Relationship}
    (alike : RelationshipAlike relationship other) :
    normalRelationship relationship = normalRelationship other := by
  have evidence := Text.sortTexts_eq_of_perm alike.evidence
  rw [alike.same, normalRelationship, normalRelationship, normalFinding,
    normalFinding]
  dsimp only
  rw [evidence]

theorem normalCoverageStage_eq_of_alike {stage other : CoverageStage}
    (alike : StageAlike stage other) :
    normalCoverageStage stage = normalCoverageStage other := by
  have evidence := Text.sortTexts_eq_of_perm alike.evidence
  rw [alike.same, normalCoverageStage, normalCoverageStage]
  dsimp only
  rw [evidence]

theorem normal_eq_of_alike {input other : Publication}
    (accepted : Accepted input) (alike : PublicationAlike input other) :
    normal input = normal other := by
  have entities : Text.sortBy Entity.id (input.entities.map normalEntity) =
      Text.sortBy Entity.id (other.entities.map normalEntity) := by
    refine Text.sortBy_eq_of_perm ?_
      (alike.entities.map_perm fun _ _ => normalEntity_eq_of_alike)
    rw [map_id_normal]
    exact accepted.ids
  have relationships :
      Text.sortBy Relationship.id
          (input.relationships.map normalRelationship) =
        Text.sortBy Relationship.id
          (other.relationships.map normalRelationship) := by
    refine Text.sortBy_eq_of_perm ?_
      (alike.relationships.map_perm fun _ _ =>
        normalRelationship_eq_of_alike)
    rw [List.map_map]
    exact accepted.relationshipIds
  have coverage :
      Text.sortBy (fun stage => stage.stage.text)
          (input.coverage.map normalCoverageStage) =
        Text.sortBy (fun stage => stage.stage.text)
          (other.coverage.map normalCoverageStage) := by
    refine Text.sortBy_eq_of_perm ?_
      (alike.coverage.map_perm fun _ _ => normalCoverageStage_eq_of_alike)
    have stages := @List.Nodup.map _ _ _ Stage.text ?_ accepted.stages
    · rw [List.map_map] at stages ⊢
      exact stages
    · intro stage stage'
      cases stage <;> cases stage' <;> decide
  rw [normal, normal, entities, relationships, coverage]
  cases input
  cases other
  rw [Publication.mk.injEq]
  exact ⟨alike.subject, rfl, rfl, rfl⟩

theorem Accepted.of_alike {input other : Publication}
    (accepted : Accepted input) (alike : PublicationAlike input other) :
    Accepted other := by
  have normals := normal_eq_of_alike accepted alike
  have observed : other.observedAt = input.observedAt :=
    congrArg Subject.observedAt alike.subject.symm
  have sameId : ∀ item other, EntityAlike item other →
      item.id = other.id := fun _ _ alike => by rw [alike.same]
  have sameKey : ∀ item other, EntityAlike item other →
      item.canonicalKey = other.canonicalKey :=
    fun _ _ alike => by rw [alike.same]
  have sameRelationship : ∀ item other, RelationshipAlike item other →
      item.id = other.id := fun _ _ alike => by rw [alike.same]
  have sameStage : ∀ item other, StageAlike item other →
      item.stage = other.stage := fun _ _ alike => by rw [alike.same]
  constructor
  case subject => exact alike.subject ▸ accepted.subject
  case someEntity => exact alike.entities.length_eq ▸ accepted.someEntity
  case fewEntities => exact alike.entities.length_eq ▸ accepted.fewEntities
  case fewRelationships =>
    exact alike.relationships.length_eq ▸ accepted.fewRelationships
  case allStages => exact alike.coverage.length_eq ▸ accepted.allStages
  case entities =>
    rw [observed]
    refine alike.entities.forall_mem ?_ accepted.entities
    intro entity other alike valid
    have few := (forall_alias valid).1
    rw [alike.aliases.length_eq] at few
    refine checkEntity_of ?_ few
      (fun one => alike.aliases.mem_iff.mpr) alike.evidence ?_ valid
    · rw [alike.same]
    · intro code conflicts
      rw [alike.same]
      exact conflicts
  case ids =>
    exact (alike.entities.map_perm sameId).nodup_iff.mp accepted.ids
  case keys =>
    exact (alike.entities.map_perm sameKey).nodup_iff.mp accepted.keys
  case relationships =>
    rw [observed, ← normals]
    refine alike.relationships.forall_mem ?_ accepted.relationships
    intro relationship other alike valid
    refine checkRelationship_of ?_ alike.evidence ?_ valid
    · rw [alike.same]
    · intro code conflicts
      rw [alike.same]
      exact conflicts
  case relationshipIds =>
    exact (alike.relationships.map_perm sameRelationship).nodup_iff.mp
      accepted.relationshipIds
  case coverage =>
    refine alike.coverage.forall_mem ?_ accepted.coverage
    intro stage other alike valid
    rw [alike.same]
    exact checkCoverageStage_evidence alike.evidence valid
  case stages =>
    exact (alike.coverage.map_perm sameStage).nodup_iff.mp accepted.stages

theorem normalized_iff_of_alike {input other output : Publication}
    (alike : PublicationAlike input other) :
    normalizedPublication input = .ok output ↔
      normalizedPublication other = .ok output := by
  rw [normalizedPublication_eq_ok, normalizedPublication_eq_ok]
  constructor
  · rintro ⟨accepted, rfl⟩
    exact ⟨accepted.of_alike alike, (normal_eq_of_alike accepted alike).symm⟩
  · rintro ⟨accepted, rfl⟩
    exact ⟨accepted.of_alike alike.symm,
      (normal_eq_of_alike accepted alike.symm).symm⟩

end Mendpoint.SoftwareGraph

import Mathlib.Data.List.Dedup
import Mendpoint.Policy.Constraints

/-!
# Which rules decide

What is decided on a request is decided by the rules of the highest precedence
among those whose patterns match its path.  A contract does not depend on the
order of its sources and rules.  Its decisions are right on a path exactly
when every pattern matches the path where it covers the file, as patterns and
paths without empty, `.` and `..` segments do.
-/

namespace Mendpoint.Policy.Constraints

open Mendpoint.Library
open Mendpoint.Library.Fallible

variable {host : Host} {input other : ContractBody} {contract : Contract}
  {request : Request} {decision : Decision}

/-! ## What the checks of texts return -/

theorem eq_of_text {value code result : String} {maximum : Nat}
    (checked : text value code maximum = .ok result) : result = value := by
  rw [text, bind_eq_ok] at checked
  obtain ⟨_, _, returned⟩ := checked
  exact (Except.ok.inj returned).symm

theorem of_id {value code result : String}
    (checked : id value code = .ok result) :
    result = value ∧ isId value = true := by
  rw [id, bind_eq_ok] at checked
  obtain ⟨kept, bounded, checked⟩ := checked
  have same := eq_of_text bounded
  subst same
  rw [bind_eq_ok] at checked
  obtain ⟨_, isName, returned⟩ := checked
  exact ⟨(Except.ok.inj returned).symm,
    Bool.not_eq_false _ ▸ throwIf_eq_ok.mp isName⟩

theorem eq_of_list {values results : List String} {code : String}
    (checked : list values code = .ok results) :
    results = Text.sortTexts values := by
  rw [list, bind_eq_ok] at checked
  obtain ⟨_, _, checked⟩ := checked
  rw [bind_eq_ok] at checked
  obtain ⟨normalized, each, checked⟩ := checked
  rw [bind_eq_ok] at checked
  obtain ⟨_, _, returned⟩ := checked
  have same : values = normalized := by
    rw [← List.forall₂_eq_eq_eq]
    exact (mapM_eq_ok.mp each).imp fun _ _ kept => (eq_of_text kept).symm
  rw [same]
  exact (Except.ok.inj returned).symm

theorem eq_of_pathPattern {value result : String}
    (checked : pathPattern value = .ok result) : result = value := by
  rw [pathPattern, bind_eq_ok] at checked
  obtain ⟨pattern, bounded, checked⟩ := checked
  have same := eq_of_text bounded
  subst same
  split at checked
  · exact (Except.ok.inj checked).symm
  · rw [bind_eq_ok] at checked
    obtain ⟨_, _, returned⟩ := checked
    exact (Except.ok.inj returned).symm

theorem eq_of_normalizedPath {value result : String}
    (checked : normalizedPath value = .ok result) : result = value := by
  rw [normalizedPath, bind_eq_ok] at checked
  obtain ⟨path, bounded, checked⟩ := checked
  rw [bind_eq_ok] at checked
  obtain ⟨_, _, returned⟩ := checked
  rw [← Except.ok.inj returned, eq_of_text bounded]

/-! ## What is kept of candidates -/

/-- What a contract keeps of a source. -/
def keptSource (candidate : Source) : Source :=
  { candidate with evidenceRefs := Text.sortTexts candidate.evidenceRefs }

/-- What a contract keeps of a rule. -/
def keptRule (candidate : Rule) : Rule :=
  { candidate with
    actions := Text.sortTexts candidate.actions.dedup
    ownerIds := Text.sortTexts candidate.ownerIds }

theorem of_checkSource {candidate result : Source}
    (checked : checkSource candidate = .ok result) :
    result = keptSource candidate ∧ isId candidate.id = true := by
  simp only [checkSource, bind_eq_ok] at checked
  obtain ⟨sourceId, named, repositoryId, located, revision, revised, digest,
    digested, locator, found, evidenceRefs, evidenced, _, _, _, _,
    returned⟩ := checked
  obtain ⟨rfl, valid⟩ := of_id named
  obtain ⟨rfl, _⟩ := of_id located
  rw [← Except.ok.inj returned, eq_of_text revised, eq_of_text digested,
    eq_of_text found, eq_of_list evidenced]
  exact ⟨rfl, valid⟩

theorem of_checkRule {sources : OrderedMap String Source}
    {candidate result : Rule}
    (checked : checkRule sources candidate = .ok result) :
    result = keptRule candidate ∧ isId candidate.id = true ∧
      (∃ source, sources.get? candidate.sourceId = some source) ∧
      pathPattern candidate.pathPattern = .ok candidate.pathPattern := by
  rw [checkRule, bind_eq_ok] at checked
  obtain ⟨sourceId, named, checked⟩ := checked
  obtain ⟨rfl, _⟩ := of_id named
  split at checked
  · cases checked
  · next source found =>
    simp only [bind_eq_ok] at checked
    obtain ⟨repositoryId, located, _, _, _, _, _, _, ruleId, ruled, pattern,
      patterned, ownerIds, owned, rationale, reasoned, returned⟩ := checked
    obtain ⟨rfl, _⟩ := of_id located
    obtain ⟨rfl, valid⟩ := of_id ruled
    have same := eq_of_pathPattern patterned
    subst same
    rw [← Except.ok.inj returned, eq_of_list owned, eq_of_text reasoned]
    exact ⟨rfl, valid, ⟨source, found⟩, patterned⟩

/-- What is kept of the items of a list, if each passes its check. -/
theorem eq_map_of_mapM {α : Type} {check : α → Except String α}
    {kept : α → α} {items results : List α}
    (exactly : ∀ item result, check item = .ok result → result = kept item)
    (checked : items.mapM check = .ok results) :
    results = items.map kept := by
  have same : items.map kept = results := by
    rw [← List.forall₂_eq_eq_eq, List.forall₂_map_left_iff]
    exact (mapM_eq_ok.mp checked).imp
      fun item result kept => (exactly item result kept).symm
  exact same.symm

/-- The check of a list in another order. -/
theorem mapM_reordered {α : Type} {check : α → Except String α}
    {kept : α → α} {items others : List α}
    (permuted : items.Perm others)
    (checked : items.mapM check = .ok (items.map kept)) :
    others.mapM check = .ok (others.map kept) := by
  rw [mapM_eq_ok, List.forall₂_map_right_iff, List.forall₂_same] at checked ⊢
  intro item inside
  exact checked item (permuted.mem_iff.mpr inside)

/-! ## Decisions under one key -/

theorem checkDecisions_eq_ok {decided : OrderedMap String Effect}
    {entries : List (String × Effect)} :
    checkDecisions decided entries = .ok () ↔
      (∀ entry ∈ entries, ∀ prior ∈ decided.get? entry.1,
        prior = entry.2) ∧
      entries.Pairwise fun left right =>
        left.1 = right.1 → left.2 = right.2 := by
  induction entries generalizing decided with
  | nil => simp [checkDecisions]
  | cons entry rest inductionHypothesis =>
    obtain ⟨key, effect⟩ := entry
    rw [checkDecisions, bind_eq_ok, List.pairwise_cons,
      List.forall_mem_cons]
    simp only [throwIf_eq_ok, inductionHypothesis, OrderedMap.get?_set,
      not_exists, not_and, not_not]
    constructor
    · rintro ⟨_, here, later, apart⟩
      refine ⟨⟨here, fun entry inside prior found => ?_⟩,
        fun entry inside same => ?_, apart⟩
      · by_cases same : key = entry.1
        · have kept := later entry inside effect (by rw [if_pos same]; rfl)
          rw [← kept]
          exact here prior (same ▸ found)
        · exact later entry inside prior (by rw [if_neg same]; exact found)
      · exact later entry inside effect (by rw [if_pos same]; rfl)
    · rintro ⟨⟨here, later⟩, first, apart⟩
      refine ⟨(), here, fun entry inside prior found => ?_, apart⟩
      by_cases same : key = entry.1
      · rw [if_pos same] at found
        cases found
        exact first entry inside same
      · rw [if_neg same] at found
        exact later entry inside prior found

theorem checkDecisions_reordered {entries others : List (String × Effect)}
    (permuted : entries.Perm others)
    (checked : checkDecisions OrderedMap.empty entries = .ok ()) :
    checkDecisions OrderedMap.empty others = .ok () := by
  rw [checkDecisions_eq_ok] at checked ⊢
  constructor
  · intro entry _ prior found
    cases found
  · exact checked.2.perm permuted fun same back => (same back.symm).symm

/-! ## Sources by their identifiers -/

theorem sourceById_eq {sources others : List Source}
    (distinct : (sources.map (·.id)).Nodup) (permuted : sources.Perm others)
    (sourceId : String) :
    (sourceById others).get? sourceId =
      (sourceById sources).get? sourceId := by
  have distinctOthers : (others.map (·.id)).Nodup :=
    (permuted.map _).nodup_iff.mp distinct
  apply Option.ext
  intro source
  rw [sourceById, sourceById, OrderedMap.get?_ofList_of_nodup,
    OrderedMap.get?_ofList_of_nodup, List.mem_map, List.mem_map]
  · simp only [permuted.mem_iff]
  · rw [List.map_map]
    exact distinct
  · rw [List.map_map]
    exact distinctOthers

theorem checkRule_congr {sources others : OrderedMap String Source}
    (same : ∀ sourceId, others.get? sourceId = sources.get? sourceId) :
    checkRule others = checkRule sources := by
  funext candidate
  rw [checkRule, checkRule]
  simp only [same]

theorem precedenceOf_congr {sources others : OrderedMap String Source}
    (same : ∀ sourceId, others.get? sourceId = sources.get? sourceId)
    (rule : Rule) : precedenceOf others rule = precedenceOf sources rule := by
  rw [precedenceOf, precedenceOf, same]

theorem exactDecisions_congr {sources others : OrderedMap String Source}
    (same : ∀ sourceId, others.get? sourceId = sources.get? sourceId)
    (rules : List Rule) :
    exactDecisions others rules = exactDecisions sources rules := by
  simp only [exactDecisions, decisionKey, precedenceOf_congr same]

/-! ## The order of sources and rules -/

/-- Items with distinct identifiers are sorted in one way. -/
theorem sortBy_reordered {α : Type} {key : α → String} {items others : List α}
    (valid : ∀ item ∈ items, isId (key item) = true)
    (distinct : (items.map key).Nodup) (permuted : items.Perm others) :
    host.collation.sortBy key others = host.collation.sortBy key items := by
  refine List.Perm.eq_of_pairwise ?_ (host.collation.sorted_sortBy key others)
    (host.collation.sorted_sortBy key items)
    ((host.collation.perm_sortBy key others).trans
      (permuted.symm.trans (host.collation.perm_sortBy key items).symm))
  intro left right inside within forth back
  rw [(host.collation.perm_sortBy key others).mem_iff,
    ← permuted.mem_iff] at inside
  rw [(host.collation.perm_sortBy key items).mem_iff] at within
  exact List.inj_on_of_nodup_map distinct inside within
    (host.separates _ _ (valid left inside) (valid right within) forth back)

/-- The same contract with its sources and rules in another order. -/
structure Reordered (input other : ContractBody) : Prop where
  tenantId : other.tenantId = input.tenantId
  organizationId : other.organizationId = input.organizationId
  version : other.version = input.version
  effectiveAt : other.effectiveAt = input.effectiveAt
  sources : input.sources.Perm other.sources
  rules : input.rules.Perm other.rules

/-- What has been checked of the input of a contract, and what it keeps. -/
structure Created (host : Host) (input : ContractBody)
    (contract : Contract) : Prop where
  tenant : id input.tenantId "organization_constraint_tenant_invalid" =
    .ok input.tenantId
  organization : id input.organizationId
    "organization_constraint_organization_invalid" = .ok input.organizationId
  version : ¬ (9007199254740991 < input.version ∨ input.version < 1)
  effectiveAt : IsoTime.Instant.parse? input.effectiveAt ≠ none
  someSources : input.sources ≠ []
  sources : input.sources.mapM checkSource =
    .ok (input.sources.map keptSource)
  distinctSources : ((input.sources.map keptSource).map (·.id)).Nodup
  someRules : input.rules ≠ []
  rules : input.rules.mapM
      (checkRule (sourceById (input.sources.map keptSource))) =
    .ok (input.rules.map keptRule)
  distinctRules : ((input.rules.map keptRule).map (·.id)).Nodup
  decisions : checkDecisions OrderedMap.empty (exactDecisions
    (sourceById (input.sources.map keptSource))
    (input.rules.map keptRule)) = .ok ()
  body : contract.toContractBody = {
    input with
    sources := host.collation.sortBy (·.id) (input.sources.map keptSource)
    rules := host.collation.sortBy (·.id) (input.rules.map keptRule) }
  digest : contract.digest = host.digest contract.toContractBody

theorem create_eq_ok :
    createOrganizationConstraintContract host input = .ok contract ↔
      Created host input contract := by
  constructor
  · intro created
    simp only [createOrganizationConstraintContract, bind_eq_ok,
      throwIf_eq_ok, not_not] at created
    obtain ⟨tenantId, tenanted, organizationId, organized, _, version, _,
      effective, _, someSources, sources, checkedSources, _, distinctSources,
      _, someRules, rules, checkedRules, _, distinctRules, _, decisions,
      returned⟩ := created
    obtain ⟨rfl, _⟩ := of_id tenanted
    obtain ⟨rfl, _⟩ := of_id organized
    obtain rfl := eq_map_of_mapM (fun _ _ kept => (of_checkSource kept).1)
      checkedSources
    obtain rfl := eq_map_of_mapM (fun _ _ kept => (of_checkRule kept).1)
      checkedRules
    cases returned
    exact ⟨tenanted, organized, version, effective, someSources,
      checkedSources, distinctSources, someRules, checkedRules,
      distinctRules, decisions, rfl, rfl⟩
  · intro created
    obtain ⟨tenanted, organized, version, effective, someSources,
      checkedSources, distinctSources, someRules, checkedRules,
      distinctRules, decisions, body, digest⟩ := created
    rw [createOrganizationConstraintContract, tenanted, ok_bind, organized,
      ok_bind, throwIf_of_not version, ok_bind, throwIf_of_not effective,
      ok_bind, throwIf_of_not someSources, ok_bind, checkedSources, ok_bind,
      throwIf_of_not (not_not.mpr distinctSources), ok_bind,
      throwIf_of_not someRules, ok_bind, checkedRules, ok_bind,
      throwIf_of_not (not_not.mpr distinctRules), ok_bind, decisions,
      ok_bind]
    rcases contract with ⟨contractBody, contractDigest⟩
    dsimp only at body digest
    subst body
    subst digest
    rfl

/-- The order of sources and rules is of no concern to a contract. -/
theorem Created.reordered (created : Created host input contract)
    (reordered : Reordered input other) : Created host other contract := by
  have keptSources : (input.sources.map keptSource).Perm
      (other.sources.map keptSource) := reordered.sources.map _
  have keptRules : (input.rules.map keptRule).Perm
      (other.rules.map keptRule) := reordered.rules.map _
  have sameSources := sourceById_eq created.distinctSources keptSources
  have validSources : ∀ source ∈ input.sources.map keptSource,
      isId source.id = true := by
    intro source member
    obtain ⟨candidate, inside, rfl⟩ := List.mem_map.mp member
    have checked := created.sources
    rw [mapM_eq_ok, List.forall₂_map_right_iff, List.forall₂_same] at checked
    exact (of_checkSource (checked candidate inside)).2
  have validRules : ∀ rule ∈ input.rules.map keptRule,
      isId rule.id = true := by
    intro rule member
    obtain ⟨candidate, inside, rfl⟩ := List.mem_map.mp member
    have checked := created.rules
    rw [mapM_eq_ok, List.forall₂_map_right_iff, List.forall₂_same] at checked
    exact (of_checkRule (checked candidate inside)).2.1
  refine ⟨?_, ?_, ?_, ?_, ?_, ?_, ?_, ?_, ?_, ?_, ?_, ?_, created.digest⟩
  · rw [reordered.tenantId]
    exact created.tenant
  · rw [reordered.organizationId]
    exact created.organization
  · rw [reordered.version]
    exact created.version
  · rw [reordered.effectiveAt]
    exact created.effectiveAt
  · exact fun none => created.someSources
      (List.perm_nil.mp (none ▸ reordered.sources))
  · exact mapM_reordered reordered.sources created.sources
  · exact (keptSources.map _).nodup_iff.mp created.distinctSources
  · exact fun none => created.someRules
      (List.perm_nil.mp (none ▸ reordered.rules))
  · rw [checkRule_congr sameSources]
    exact mapM_reordered reordered.rules created.rules
  · exact (keptRules.map _).nodup_iff.mp created.distinctRules
  · rw [exactDecisions_congr sameSources]
    exact checkDecisions_reordered
      (List.Perm.flatMap_right _ keptRules) created.decisions
  · rw [created.body, reordered.tenantId, reordered.organizationId,
      reordered.version, reordered.effectiveAt,
      sortBy_reordered validSources created.distinctSources keptSources,
      sortBy_reordered validRules created.distinctRules keptRules]

/-! ## The highest precedence -/

theorem foldl_max_le {numbers : List Nat} {start bound : Nat} :
    numbers.foldl max start ≤ bound ↔
      start ≤ bound ∧ ∀ number ∈ numbers, number ≤ bound := by
  induction numbers generalizing start with
  | nil => simp
  | cons number rest inductionHypothesis =>
    rw [List.foldl_cons, inductionHypothesis, max_le_iff,
      List.forall_mem_cons, and_assoc]

variable {matched : List (Rule × Source)}

theorem highest_le {bound : Nat} :
    highest matched ≤ bound ↔
      ∀ pair ∈ matched, pair.2.kind.precedence ≤ bound := by
  rw [highest, foldl_max_le, List.forall_mem_map]
  exact and_iff_right (Nat.zero_le bound)

theorem mem_decisive {pair : Rule × Source} :
    pair ∈ decisive matched ↔ pair ∈ matched ∧
      ∀ other ∈ matched,
        other.2.kind.precedence ≤ pair.2.kind.precedence := by
  rw [decisive, List.mem_filter, decide_eq_true_iff]
  refine and_congr_right fun inside => ?_
  rw [← highest_le]
  have bounded := highest_le.mp le_rfl pair inside
  omega

theorem decisive_ne_nil (some : matched ≠ []) : decisive matched ≠ [] := by
  intro none
  have below : ∀ pair ∈ matched,
      pair.2.kind.precedence ≤ highest matched - 1 := by
    intro pair inside
    have bounded := highest_le.mp le_rfl pair inside
    have apart : pair.2.kind.precedence ≠ highest matched := by
      intro same
      have member : pair ∈ decisive matched :=
        List.mem_filter.mpr ⟨inside, decide_eq_true same⟩
      rw [none] at member
      cases member
    omega
  obtain ⟨pair, inside⟩ := List.exists_mem_of_ne_nil matched some
  have least := highest_le.mpr below
  have bounded := highest_le.mp le_rfl pair inside
  have member : pair ∈ decisive matched :=
    List.mem_filter.mpr ⟨inside, decide_eq_true (by omega)⟩
  rw [none] at member
  cases member

/-! ## The rules which match -/

/-- A rule for the repository and the action whose pattern matches the
path. -/
def Matching (contract : Contract) (request : Request) (rule : Rule) :
    Prop :=
  rule ∈ contract.rules ∧ rule.repositoryId = request.repositoryId ∧
    request.action ∈ rule.actions ∧
    «matches» rule.pathPattern request.path = true

theorem of_withSource {sources : OrderedMap String Source} {rule : Rule}
    {pair : Rule × Source} (found : withSource sources rule = .ok pair) :
    pair.1 = rule ∧ sources.get? rule.sourceId = some pair.2 := by
  rw [withSource] at found
  split at found
  · cases found
  · next source stored =>
    cases found
    exact ⟨rfl, stored⟩

theorem matching_iff
    (matching : matchesForPath contract request request.path =
      .ok matched) {rule : Rule} :
    Matching contract request rule ↔ rule ∈ matched.map Prod.fst := by
  have firsts : matched.map Prod.fst = List.map (fun rule => rule) _ :=
    map_eq_of_mapM matching
    fun rule _ pair found => (of_withSource found).1
  rw [firsts, List.map_id', List.mem_filter]
  simp only [Matching, Bool.and_eq_true, decide_eq_true_eq, and_assoc]

theorem precedenceOf_matched
    (matching : matchesForPath contract request request.path =
      .ok matched) :
    ∀ pair ∈ matched, precedenceOf (sourceById contract.sources) pair.1 =
      pair.2.kind.precedence := by
  refine forall_mem_of_mapM matching ?_
  intro rule _ pair found
  obtain ⟨same, stored⟩ := of_withSource found
  rw [precedenceOf, same, stored]
  rfl

theorem reasonIf_eq_nil {condition : Prop} [Decidable condition]
    {reason : String} : reasonIf condition reason = [] ↔ ¬ condition := by
  rw [reasonIf]
  split <;> simp [*]

/-- Effects which all allow are one effect at most. -/
theorem length_dedup_le {effects : List Effect}
    (allow : ∀ effect ∈ effects, effect = .allow) :
    ¬ 1 < effects.dedup.length := by
  have subset : effects.dedup ⊆ [Effect.allow] := by
    intro effect inside
    rw [List.mem_singleton]
    exact allow effect (List.mem_dedup.mp inside)
  exact Nat.not_lt.mpr
    (List.subperm_of_subset (List.nodup_dedup effects) subset).length_le

/-- The decision by the rules which match. -/
theorem allowed_iff_matching
    (assessed : assessOrganizationConstraint contract request =
      .ok decision) :
    decision.allowed = true ↔
      AllowedBy contract request (Matching contract request) := by
  rw [assessOrganizationConstraint, bind_eq_ok] at assessed
  obtain ⟨path, normal, assessed⟩ := assessed
  have same := eq_of_normalizedPath normal
  subst same
  rw [bind_eq_ok] at assessed
  obtain ⟨matched, matching, returned⟩ := assessed
  have rules : ∀ rule, Matching contract request rule ↔
      rule ∈ matched.map Prod.fst := fun _ => matching_iff matching
  have precedences := precedenceOf_matched matching
  cases returned
  simp only [decide_eq_true_iff, reasonsOf, List.append_eq_nil_iff,
    reasonIf_eq_nil, not_not, not_exists, not_and]
  constructor
  · rintro ⟨⟨⟨⟨⟨⟨tenant, organization⟩, action⟩, some⟩, _⟩, _⟩, _, allow⟩
    refine ⟨tenant, organization, action, ?_, ?_⟩
    · obtain ⟨pair, inside⟩ := List.exists_mem_of_ne_nil matched some
      exact ⟨pair.1, (rules _).mpr (List.mem_map_of_mem inside)⟩
    · intro rule judged most
      obtain ⟨pair, inside, rfl⟩ := List.mem_map.mp ((rules rule).mp judged)
      refine allow pair (mem_decisive.mpr ⟨inside, fun other within => ?_⟩)
      rw [← precedences pair inside, ← precedences other within]
      exact most other.1 ((rules _).mpr (List.mem_map_of_mem within))
  · rintro ⟨tenant, organization, action, ⟨rule, judged⟩, allow⟩
    have some : matched ≠ [] := by
      rintro rfl
      exact absurd ((rules rule).mp judged) List.not_mem_nil
    have effects : ∀ pair ∈ decisive matched, pair.1.effect = .allow := by
      intro pair member
      obtain ⟨inside, most⟩ := mem_decisive.mp member
      refine allow pair.1 ((rules _).mpr (List.mem_map_of_mem inside)) ?_
      intro other met
      obtain ⟨found, within, rfl⟩ := List.mem_map.mp ((rules other).mp met)
      rw [precedences pair inside, precedences found within]
      exact most found within
    refine ⟨⟨⟨⟨⟨⟨tenant, organization⟩, action⟩, some⟩, ?_⟩, ?_⟩,
      decisive_ne_nil some, effects⟩
    · apply length_dedup_le
      intro effect member
      obtain ⟨pair, inside, rfl⟩ := List.mem_map.mp member
      exact effects pair inside
    · intro pair inside denied
      rw [effects pair inside] at denied
      cases denied

/-! ## Requests on a contract -/

theorem Created.rule_eq (created : Created host input contract) {rule : Rule}
    (inside : rule ∈ contract.rules) :
    ∃ candidate ∈ input.rules, rule = keptRule candidate := by
  rw [created.body] at inside
  rw [(host.collation.perm_sortBy _ _).mem_iff] at inside
  obtain ⟨candidate, member, rfl⟩ := List.mem_map.mp inside
  exact ⟨candidate, member, rfl⟩

theorem Created.exists_source (created : Created host input contract)
    {rule : Rule} (inside : rule ∈ contract.rules) :
    ∃ source,
      (sourceById contract.sources).get? rule.sourceId = some source := by
  obtain ⟨candidate, member, rfl⟩ := created.rule_eq inside
  have checked := created.rules
  rw [mapM_eq_ok, List.forall₂_map_right_iff, List.forall₂_same] at checked
  obtain ⟨_, _, ⟨source, found⟩, _⟩ := of_checkRule (checked _ member)
  refine ⟨source, ?_⟩
  rw [created.body, sourceById_eq created.distinctSources
    (host.collation.perm_sortBy _ _).symm]
  exact found

/-- Every request with an accepted path is decided. -/
theorem Created.decided (created : Created host input contract)
    (normal : normalizedPath request.path = .ok request.path) :
    ∃ decision, assessOrganizationConstraint contract request =
      .ok decision := by
  rcases matching : matchesForPath contract request request.path with
    failure | matched
  · obtain ⟨rule, member, failed⟩ := exists_of_mapM_eq_error matching
    obtain ⟨source, found⟩ :=
      created.exists_source (List.mem_of_mem_filter member)
    rw [withSource, found] at failed
    cases failed
  · rw [assessOrganizationConstraint, normal, ok_bind, matching, ok_bind]
    exact ⟨_, rfl⟩

theorem allowedBy_congr {judged others : Rule → Prop}
    (same : ∀ rule, judged rule ↔ others rule) :
    AllowedBy contract request judged ↔
      AllowedBy contract request others := by
  simp only [AllowedBy, same]

/-- The decisions are right where the patterns match what they cover. -/
theorem Created.allowed_iff (created : Created host input contract)
    (agree : ∀ rule ∈ input.rules,
      («matches» rule.pathPattern request.path = true ↔
        Covers rule.pathPattern (fileOf request.path)))
    (assessed : assessOrganizationConstraint contract request =
      .ok decision) :
    decision.allowed = true ↔ Allowed contract request := by
  rw [allowed_iff_matching assessed, Allowed]
  apply allowedBy_congr
  intro rule
  refine and_congr_right fun inside =>
    and_congr_right fun _ => and_congr_right fun _ => ?_
  obtain ⟨candidate, member, rfl⟩ := created.rule_eq inside
  exact agree candidate member

/-! ## A contract of one rule -/

/-- A source of the lowest precedence. -/
def probeSource : Source where
  id := "source"
  kind := .serviceMap
  repositoryId := "repo"
  revision := "aaaaaaaaaaaaaaaaaaaaaaaaaaaaaaaaaaaaaaaa"
  digest := "sha256:bbbbbbbbbbbbbbbbbbbbbbbbbbbbbbbbbbbbbbbbbbbbbbbbbbbbb" ++
    "bbbbbbbbbbb"
  locator := "source://repo/map"
  evidenceRefs := ["evidence://map"]

/-- A rule which allows to read what the pattern covers. -/
def probeRule (pattern : String) : Rule where
  id := "rule"
  sourceId := "source"
  repositoryId := "repo"
  pathPattern := pattern
  actions := ["read"]
  effect := .allow
  ownerIds := ["team"]
  rationale := "service map"

def probe (pattern : String) : ContractBody where
  tenantId := "tenant"
  organizationId := "organization"
  version := 1
  effectiveAt := "2026-08-02T08:00:00.000Z"
  sources := [probeSource]
  rules := [probeRule pattern]

def probeContract (host : Host) (pattern : String) : Contract where
  toContractBody := probe pattern
  digest := host.digest (probe pattern)

def probeRequest (path : String) : Request where
  tenantId := "tenant"
  organizationId := "organization"
  repositoryId := "repo"
  path := path
  action := "read"

set_option maxRecDepth 4000 in
theorem checkSource_probe :
    checkSource probeSource = .ok (keptSource probeSource) := by
  rfl

theorem checkRule_probe {pattern : String}
    (accepted : pathPattern pattern = .ok pattern) :
    checkRule (sourceById [keptSource probeSource]) (probeRule pattern) =
      .ok (keptRule (probeRule pattern)) := by
  simp only [checkRule, probeRule, accepted]
  rfl

theorem created_probe {pattern : String}
    (accepted : pathPattern pattern = .ok pattern) :
    Created host (probe pattern) (probeContract host pattern) where
  tenant := show id "tenant" _ = .ok "tenant" by rfl
  organization := show id "organization" _ = .ok "organization" by rfl
  version := show ¬ ((9007199254740991 : Int) < 1 ∨ (1 : Int) < 1) by decide
  effectiveAt := show
    IsoTime.Instant.parse? "2026-08-02T08:00:00.000Z" ≠ none by decide
  someSources := List.cons_ne_nil _ _
  sources := by
    rw [probe, mapM_eq_ok]
    exact .cons checkSource_probe .nil
  distinctSources := List.nodup_singleton _
  someRules := List.cons_ne_nil _ _
  rules := by
    rw [probe, mapM_eq_ok]
    exact .cons (checkRule_probe accepted) .nil
  distinctRules := List.nodup_singleton _
  decisions := by
    rw [checkDecisions_eq_ok]
    constructor
    · intro entry _ prior found
      cases found
    · exact List.pairwise_singleton _ _
  body := by rfl
  digest := by rfl

/-- The one rule decides. -/
theorem allowedBy_probe {pattern path : String} {judged : Rule → Prop}
    (ruled : ∀ rule, judged rule → rule = probeRule pattern) :
    AllowedBy (probeContract host pattern) (probeRequest path) judged ↔
      judged (probeRule pattern) := by
  constructor
  · rintro ⟨_, _, _, ⟨rule, met⟩, _⟩
    exact ruled rule met ▸ met
  · intro met
    refine ⟨rfl, rfl, List.mem_cons_self, ⟨_, met⟩, ?_⟩
    intro rule other _
    rw [ruled rule other]
    rfl

/-! ## Plain spellings -/

/-- A pattern without empty, `.` and `..` segments. -/
def Plain (pattern : String) : Prop :=
  pattern = "**" ∨
    if Text.endsWith pattern "/**" = true then
      PosixPath.Canonical (stem pattern)
    else PosixPath.Canonical pattern

theorem fileOf_canonical {path : String}
    (canonical : PosixPath.Canonical path) :
    fileOf path = PosixPath.segments path := by
  have follow : ∀ (names path : List String),
      (∀ segment ∈ path, segment ≠ "" ∧ segment ≠ "." ∧ segment ≠ "..") →
        path.foldl RelativePath.step names = names ++ path := by
    intro names path
    induction path generalizing names with
    | nil =>
      intro _
      exact (List.append_nil names).symm
    | cons segment rest inductionHypothesis =>
      intro plain
      rw [List.forall_mem_cons] at plain
      obtain ⟨⟨notEmpty, notDot, notDots⟩, later⟩ := plain
      have here : RelativePath.step names segment = names ++ [segment] := by
        simp [RelativePath.step, notEmpty, notDot, notDots]
      rw [List.foldl_cons, here, inductionHypothesis _ later,
        List.append_assoc, List.singleton_append]
  exact follow [] _ canonical

/-- Plain patterns match the plain paths of the files which they cover. -/
theorem matches_iff_covers {pattern path : String} (plain : Plain pattern)
    (canonical : PosixPath.Canonical path) :
    «matches» pattern path = true ↔ Covers pattern (fileOf path) := by
  have within : (fileOf path).head? ≠ some ".." := by
    rw [fileOf_canonical canonical]
    intro first
    exact (canonical ".." (List.mem_of_head? first)).2.2 rfl
  rw [Covers, and_iff_right within, «matches»]
  by_cases every : pattern = "**"
  · simp [every]
  · rw [if_neg every, or_iff_right every]
    replace plain := plain.resolve_left every
    by_cases star : Text.endsWith pattern "/**" = true
    · rw [if_pos star] at plain ⊢
      rw [if_neg (by simp [star]), fileOf_canonical canonical,
        fileOf_canonical plain, RelativePath.segments_prefix_iff,
        Bool.or_eq_true, decide_eq_true_iff]
    · rw [if_neg star] at plain ⊢
      rw [if_pos (by simpa using star), fileOf_canonical canonical,
        fileOf_canonical plain, decide_eq_true_iff]
      exact RelativePath.segments_injective.eq_iff.symm

/-! ## The decisions are right on a path -/

/-- The contracts with these patterns decide every request on the path by
the rules which cover its file. -/
def RightOn (host : Host) (patterns : List String) (path : String) : Prop :=
  ∀ input contract,
    createOrganizationConstraintContract host input = .ok contract →
    (∀ rule ∈ input.rules, rule.pathPattern ∈ patterns) →
    ∀ request decision, request.path = path →
      assessOrganizationConstraint contract request = .ok decision →
      (decision.allowed = true ↔ Allowed contract request)

theorem rightOn_iff {patterns : List String} {path : String}
    (accepted : ∀ pattern ∈ patterns, pathPattern pattern = .ok pattern)
    (normal : normalizedPath path = .ok path) :
    RightOn host patterns path ↔ ∀ pattern ∈ patterns,
      («matches» pattern path = true ↔ Covers pattern (fileOf path)) := by
  constructor
  · intro right pattern member
    have created := @created_probe host pattern (accepted pattern member)
    obtain ⟨decision, assessed⟩ := @Created.decided host _ _
      (probeRequest path) created normal
    have told := right _ _ (create_eq_ok.mpr created)
      (fun rule inside => List.mem_singleton.mp inside ▸ member)
      (probeRequest path) decision rfl assessed
    rw [allowed_iff_matching assessed, Allowed,
      allowedBy_probe fun rule met => List.mem_singleton.mp met.1,
      allowedBy_probe fun rule met => List.mem_singleton.mp met.1] at told
    simpa [Matching, Covering, probeContract, probe, probeRule,
      probeRequest] using told
  · rintro agree input contract created drawn request decision rfl assessed
    exact (create_eq_ok.mp created).allowed_iff
      (fun rule inside => agree _ (drawn rule inside)) assessed

/-- Where the decisions of contracts are right, and that the order of sources
and rules is of no concern to them. -/
theorem assess_iff_covers (host : Host) :
    (∀ patterns path,
      (∀ pattern ∈ patterns, pathPattern pattern = .ok pattern) →
      normalizedPath path = .ok path →
      (RightOn host patterns path ↔ ∀ pattern ∈ patterns,
        («matches» pattern path = true ↔ Covers pattern (fileOf path)))) ∧
    (∀ pattern path, Plain pattern → PosixPath.Canonical path →
      («matches» pattern path = true ↔ Covers pattern (fileOf path))) ∧
    ∀ input other contract, Reordered input other →
      createOrganizationConstraintContract host input = .ok contract →
      createOrganizationConstraintContract host other = .ok contract :=
  ⟨fun _ _ => rightOn_iff, fun _ _ => matches_iff_covers,
    fun _ _ _ reordered created =>
      create_eq_ok.mpr ((create_eq_ok.mp created).reordered reordered)⟩

/-! ## A path with an empty segment -/

def namedSource (name : String) (kind : SourceKind) : Source :=
  { probeSource with
    id := name
    kind := kind
    locator := "source://repo/" ++ name
    evidenceRefs := ["evidence://" ++ name] }

def namedRule (name source pattern : String) (effect : Effect) : Rule :=
  { probeRule pattern with
    id := name
    sourceId := source
    effect := effect
    rationale := "policy" }

/-- The sources may be read by the service map, and one file of them not by an
explicit policy. -/
def secretInput : ContractBody :=
  { probe "src/**" with
    sources := [namedSource "map" .serviceMap,
      namedSource "policy" .explicitPolicy]
    rules := [namedRule "allow-source" "map" "src/**" .allow,
      namedRule "deny-secret" "policy" "src/secret.ts" .deny] }

def ordinalHost : Host where
  collation := Collation.ordinal
  separates _ _ _ _ forth back :=
    Text.codePoints_injective (Text.unitsLe_antisymm _ _ forth back)
  isDate text := (IsoTime.Instant.parse? text).isSome
  digest _ :=
    "sha256:0c474d713d1903437aa92eef258cb279d5065143" ++
    "5aa91ed313dc2e57f40dcad6"

def secretContract : Contract where
  toContractBody := secretInput
  digest := ordinalHost.digest secretInput

set_option maxRecDepth 8000 in
theorem create_secretInput :
    createOrganizationConstraintContract ordinalHost secretInput =
      .ok secretContract := by
  rfl

def secretRequest : Request :=
  probeRequest "src//secret.ts"

def secretDecision : Decision where
  allowed := true
  tenantId := "tenant"
  organizationId := "organization"
  contractVersion := 1
  contractDigest := secretContract.digest
  repositoryId := "repo"
  path := "src//secret.ts"
  action := "read"
  reasons := []
  evidenceRefs := ["evidence://map"]

theorem assess_secretRequest :
    assessOrganizationConstraint secretContract secretRequest =
      .ok secretDecision := by
  rfl

/-- A second slash takes the file out of the rule which denies it. -/
theorem allowed_secretRequest :
    ¬ ∀ host input contract request decision,
      createOrganizationConstraintContract host input = .ok contract →
      assessOrganizationConstraint contract request = .ok decision →
      (decision.allowed = true ↔ Allowed contract request) := by
  intro claimed
  obtain ⟨_, _, _, _, allow⟩ := (claimed _ _ _ _ _ create_secretInput
    assess_secretRequest).mp rfl
  have denies : namedRule "deny-secret" "policy" "src/secret.ts" .deny ∈
      secretContract.rules := List.mem_cons_of_mem _ List.mem_cons_self
  have covering : Covering secretContract secretRequest
      (namedRule "deny-secret" "policy" "src/secret.ts" .deny) :=
    ⟨denies, rfl, List.mem_cons_self, by decide⟩
  refine absurd (allow _ covering ?_) (by decide)
  intro other met
  rcases List.mem_cons.mp met.1 with rfl | later
  · decide
  · rw [List.mem_singleton.mp later]

end Mendpoint.Policy.Constraints

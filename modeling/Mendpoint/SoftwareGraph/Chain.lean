import Mathlib.Logic.Equiv.Basic
import Mendpoint.Library.Succession
import Mendpoint.SoftwareGraph.Normal
import Mendpoint.SoftwareGraph.Versions

/-!
# Chains of versions

Seen from outside, publishing appends normalized publications to a log.  Those
of one tenant, repository and provider form one line, which ends in their head.
-/

namespace Mendpoint.SoftwareGraph

open Mendpoint.Library
open Mendpoint.Library.Fallible
open Mendpoint.Library.Succession

variable {hexDigest : String → String}

/-! ## Names of versions -/

theorem versionIdOf_sha256 (text : String) :
    versionIdOf (sha256 hexDigest text) = "sgv1:" ++ hexDigest text := by
  rw [versionIdOf, sha256, String.toList_append]
  change "sgv1:" ++ String.ofList (hexDigest text).toList = _
  rw [String.ofList_toList]

theorem digestOf_injective (injective : Function.Injective hexDigest) :
    Function.Injective (digestOf hexDigest) := by
  intro publication other same
  rw [digestOf, digestOf, sha256, sha256, String.append_right_inj] at same
  exact contentJson_injective (injective same)

/-- The id of the version which a normalized publication becomes. -/
def idOf (hexDigest : String → String) (publication : Publication) : String :=
  (rowOf hexDigest publication).versionId

theorem idOf_injective (injective : Function.Injective hexDigest) :
    Function.Injective (idOf hexDigest) := by
  intro publication other same
  rw [idOf, idOf, rowOf, rowOf] at same
  dsimp only at same
  rw [digestOf, digestOf, versionIdOf_sha256, versionIdOf_sha256,
    String.append_right_inj] at same
  exact contentJson_injective (injective same)

/-! ## The log -/

/-- The publications of a scope, the earliest first. -/
def ofScope (key : HeadKey) (log : List Publication) : List Publication :=
  log.filter fun publication => decide (publication.headKey = key)

variable {publication : Publication}

theorem mem_ofScope {key : HeadKey} {log : List Publication} :
    publication ∈ ofScope key log ↔
      publication ∈ log ∧ publication.headKey = key := by
  rw [ofScope, List.mem_filter, decide_eq_true_eq]

theorem ofScope_append_self (log : List Publication)
    (publication : Publication) :
    ofScope publication.headKey (log ++ [publication]) =
      ofScope publication.headKey log ++ [publication] := by
  rw [ofScope, ofScope, List.filter_append, List.filter_singleton,
    decide_eq_true rfl]
  rfl

theorem ofScope_append_of_ne {key : HeadKey} (log : List Publication)
    (other : publication.headKey ≠ key) :
    ofScope key (log ++ [publication]) = ofScope key log := by
  rw [ofScope, ofScope, List.filter_append, List.filter_singleton,
    decide_eq_false other, Bool.cond_false, List.append_nil]

/-- The tables keep the log of what has been published. -/
structure Kept (hexDigest : String → String) (db : GraphDb)
    (log : List Publication) : Prop where
  versions : db.versions = log.map (rowOf hexDigest)
  normal : ∀ publication ∈ log,
    normalizedPublication publication = .ok publication
  distinct : log.Nodup
  heads : ∀ key, db.heads.get? key =
    (ofScope key log).getLast?.map (headOf hexDigest)
  lines : ∀ key, Line (idOf hexDigest) (fun one => one.parentVersionId)
    none (ofScope key log)

theorem Kept.empty : Kept hexDigest GraphDb.empty [] where
  versions := rfl
  normal := List.forall_mem_nil _
  distinct := List.nodup_nil
  heads _ := rfl
  lines _ := trivial

namespace Kept

variable {db : GraphDb} {log : List Publication} {publication : Publication}

theorem version?_of_mem (kept : Kept hexDigest db log)
    (injective : Function.Injective hexDigest)
    (member : publication ∈ log) :
    db.version? (idOf hexDigest publication) publication.tenantId
      publication.repositoryId = some (rowOf hexDigest publication) := by
  have row : rowOf hexDigest publication ∈ db.versions := by
    rw [kept.versions]
    exact List.mem_map_of_mem member
  cases found : db.version? (idOf hexDigest publication)
      publication.tenantId publication.repositoryId with
  | none =>
    have missing := List.find?_eq_none.mp found _ row
    rw [decide_eq_true_eq] at missing
    exact absurd ⟨rfl, rfl, rfl⟩ missing
  | some other =>
    have inside := List.mem_of_find?_eq_some found
    rw [kept.versions, List.mem_map] at inside
    obtain ⟨published, _, rfl⟩ := inside
    have same := List.find?_some found
    rw [decide_eq_true_eq] at same
    rw [idOf_injective injective same.1]

theorem version?_of_not_mem (kept : Kept hexDigest db log)
    (injective : Function.Injective hexDigest)
    (absent : publication ∉ log) (tenantId repositoryId : String) :
    db.version? (idOf hexDigest publication) tenantId repositoryId =
      none := by
  refine List.find?_eq_none.mpr fun row inside same => absent ?_
  rw [kept.versions, List.mem_map] at inside
  obtain ⟨published, member, rfl⟩ := inside
  rw [decide_eq_true_eq] at same
  exact idOf_injective injective same.1 ▸ member

theorem headPublication_eq (kept : Kept hexDigest db log)
    (injective : Function.Injective hexDigest) {last : Publication}
    (member : last ∈ log) (scope : last.headKey = publication.headKey) :
    headPublication hexDigest db (headOf hexDigest last) publication =
      .ok last := by
  have tenant : publication.tenantId = last.tenantId :=
    congrArg HeadKey.tenantId scope.symm
  have repository : publication.repositoryId = last.repositoryId :=
    congrArg HeadKey.repositoryId scope.symm
  have found : db.version? (headOf hexDigest last).versionId last.tenantId
      last.repositoryId = some (rowOf hexDigest last) :=
    kept.version?_of_mem injective member
  rw [headPublication, tenant, repository, found]
  dsimp only
  rw [throwIf, if_neg, ok_bind, parsed, rowOf, parsePublication_contentJson]
  rintro (other | other)
  · exact other rfl
  · exact other rfl

theorem insertVersion_eq (kept : Kept hexDigest db log)
    (injective : Function.Injective hexDigest)
    (absent : publication ∉ log) :
    insertVersion hexDigest db publication =
      .ok (⟨idOf hexDigest publication, digestOf hexDigest publication,
          false⟩,
        { versions := db.versions ++ [rowOf hexDigest publication]
          heads := db.heads.set publication.headKey
            (headOf hexDigest publication) }) := by
  have fresh : (rowOf hexDigest publication).versionId ∉
      db.versions.map VersionRow.versionId := by
    rw [kept.versions, List.map_map]
    intro member
    obtain ⟨other, inside, same⟩ := List.mem_map.mp member
    exact absent (idOf_injective injective same ▸ inside)
  have unused : ((rowOf hexDigest publication).tenantId,
      (rowOf hexDigest publication).repositoryId,
      (rowOf hexDigest publication).contentDigest) ∉
      db.versions.map fun other =>
        (other.tenantId, other.repositoryId, other.contentDigest) := by
    rw [kept.versions, List.map_map]
    intro member
    obtain ⟨other, inside, same⟩ := List.mem_map.mp member
    have digests := congrArg (fun columns => columns.2.2) same
    exact absent (digestOf_injective injective digests ▸ inside)
  rw [insertVersion, throwIf, if_neg fresh, ok_bind, throwIf, if_neg unused, ok_bind]
  rfl

theorem snoc (kept : Kept hexDigest db log)
    (normal : normalizedPublication publication = .ok publication)
    (absent : publication ∉ log)
    (parent : publication.parentVersionId =
      (ofScope publication.headKey log).getLast?.map (idOf hexDigest)) :
    Kept hexDigest
      { versions := db.versions ++ [rowOf hexDigest publication]
        heads := db.heads.set publication.headKey
          (headOf hexDigest publication) } (log ++ [publication]) where
  versions := by
    rw [kept.versions, List.map_append, List.map_singleton]
  normal := by
    intro other member
    rcases List.mem_append.mp member with old | new
    · exact kept.normal other old
    · rw [List.mem_singleton] at new
      exact new ▸ normal
  distinct := by
    rw [← List.concat_eq_append, List.nodup_concat]
    exact ⟨absent, kept.distinct⟩
  heads key := by
    rw [OrderedMap.get?_set]
    by_cases scope : publication.headKey = key
    · subst scope
      rw [if_pos rfl, ofScope_append_self, List.getLast?_concat,
        Option.map_some]
    · rw [if_neg scope, ofScope_append_of_ne log scope, kept.heads]
  lines key := by
    by_cases scope : publication.headKey = key
    · subst scope
      rw [ofScope_append_self, line_concat, Option.or_none]
      exact ⟨kept.lines _, parent⟩
    · rw [ofScope_append_of_ne log scope]
      exact kept.lines key

end Kept

/-! ## Outcomes of calls -/

/-- What is returned for a publication which is a version. -/
def publishedAs (hexDigest : String → String) (publication : Publication)
    (replayed : Bool) : Published where
  versionId := idOf hexDigest publication
  contentDigest := digestOf hexDigest publication
  replayed := replayed

/-- The parent which a next publication of a scope has to name. -/
def headId? (hexDigest : String → String) (log : List Publication)
    (key : HeadKey) : Option String :=
  (ofScope key log).getLast?.map (idOf hexDigest)

/-- What a call answers, and the log after it. -/
inductive Outcome (hexDigest : String → String) (log : List Publication)
    (input : Publication) :
    Except String Published → List Publication → Prop where
  | refused {message : String}
      (invalid : normalizedPublication input = .error message) :
      Outcome hexDigest log input (.error message) log
  | known {publication : Publication}
      (normalized : normalizedPublication input = .ok publication)
      (member : publication ∈ log) :
      Outcome hexDigest log input
        (.ok (publishedAs hexDigest publication true)) log
  | atHead {publication last : Publication}
      (normalized : normalizedPublication input = .ok publication)
      (absent : publication ∉ log)
      (head : (ofScope publication.headKey log).getLast? = some last)
      (same : withoutParent last = withoutParent publication) :
      Outcome hexDigest log input
        (.ok (publishedAs hexDigest last true)) log
  | stale {publication : Publication}
      (normalized : normalizedPublication input = .ok publication)
      (absent : publication ∉ log)
      (different : ∀ last,
        (ofScope publication.headKey log).getLast? = some last →
        withoutParent last ≠ withoutParent publication)
      (parent : publication.parentVersionId ≠
        headId? hexDigest log publication.headKey) :
      Outcome hexDigest log input
        (.error "software_graph_parent_head_mismatch") log
  | appended {publication : Publication}
      (normalized : normalizedPublication input = .ok publication)
      (absent : publication ∉ log)
      (different : ∀ last,
        (ofScope publication.headKey log).getLast? = some last →
        withoutParent last ≠ withoutParent publication)
      (parent : publication.parentVersionId =
        headId? hexDigest log publication.headKey) :
      Outcome hexDigest log input
        (.ok (publishedAs hexDigest publication false))
        (log ++ [publication])

theorem normalized_subject {input publication : Publication}
    (normalized : normalizedPublication input = .ok publication) :
    publication.toSubject = input.toSubject := by
  rw [normalizedPublication_eq_ok] at normalized
  exact normalized.2 ▸ rfl

namespace Outcome

variable {log after : List Publication} {input : Publication}
  {answer : Except String Published}

theorem after_cases (outcome : Outcome hexDigest log input answer after) :
    after = log ∨ ∃ publication,
      normalizedPublication input = .ok publication ∧
      after = log ++ [publication] := by
  cases outcome with
  | refused => exact .inl rfl
  | known => exact .inl rfl
  | atHead => exact .inl rfl
  | stale => exact .inl rfl
  | appended normalized => exact .inr ⟨_, normalized, rfl⟩

theorem after_of_error (outcome : Outcome hexDigest log input answer after)
    {message : String} (failed : answer = .error message) :
    after = log := by
  cases outcome with
  | refused => rfl
  | known => rfl
  | atHead => rfl
  | stale => rfl
  | appended => cases failed

theorem after_of_stale (outcome : Outcome hexDigest log input answer after)
    (different : input.parentVersionId ≠
      headId? hexDigest log input.headKey) :
    after = log ∧ ∀ published, answer = .ok published →
      published.replayed = true := by
  cases outcome with
  | refused =>
    refine ⟨rfl, fun published impossible => ?_⟩
    cases impossible
  | known =>
    refine ⟨rfl, fun published same => ?_⟩
    cases same
    rfl
  | atHead =>
    refine ⟨rfl, fun published same => ?_⟩
    cases same
    rfl
  | stale =>
    refine ⟨rfl, fun published impossible => ?_⟩
    cases impossible
  | appended normalized _ _ parent =>
    rw [normalized_subject normalized] at parent
    exact absurd parent different

theorem answer_of_atHead (outcome : Outcome hexDigest log input answer after)
    {last : Publication}
    (normalized : normalizedPublication input = .ok publication)
    (absent : publication ∉ log)
    (head : (ofScope publication.headKey log).getLast? = some last)
    (same : withoutParent last = withoutParent publication) :
    after = log ∧ answer = .ok (publishedAs hexDigest last true) := by
  cases outcome with
  | refused invalid =>
    rw [normalized] at invalid
    cases invalid
  | known other member =>
    rw [normalized, Except.ok.injEq] at other
    exact absurd (other ▸ member) absent
  | atHead other _ found =>
    rw [normalized, Except.ok.injEq] at other
    rw [← other, head, Option.some_inj] at found
    exact ⟨rfl, found ▸ rfl⟩
  | stale other _ different =>
    rw [normalized, Except.ok.injEq] at other
    subst other
    exact absurd same (different last head)
  | appended other _ different =>
    rw [normalized, Except.ok.injEq] at other
    subst other
    exact absurd same (different last head)

theorem after_of_first (outcome : Outcome hexDigest [] input answer after)
    (normalized : normalizedPublication input = .ok publication)
    (parentless : publication.parentVersionId = none) :
    after = [publication] := by
  cases outcome with
  | refused invalid =>
    rw [normalized] at invalid
    cases invalid
  | known _ member => cases member
  | atHead _ _ head => cases head
  | stale other _ _ parent =>
    rw [normalized, Except.ok.injEq] at other
    exact absurd (other ▸ parentless) parent
  | appended other =>
    rw [normalized, Except.ok.injEq] at other
    rw [other, List.nil_append]

theorem mem_of_ok (outcome : Outcome hexDigest log input answer after)
    {published : Published} (returned : answer = .ok published) :
    ∃ publication ∈ after, published.versionId = idOf hexDigest publication ∧
      published.contentDigest = digestOf hexDigest publication := by
  cases outcome with
  | refused => cases returned
  | known normalized member =>
    cases returned
    exact ⟨_, member, rfl, rfl⟩
  | atHead normalized absent head =>
    cases returned
    exact ⟨_, (mem_ofScope.mp (List.mem_of_getLast? head)).1, rfl, rfl⟩
  | stale => cases returned
  | appended =>
    cases returned
    exact ⟨_, List.mem_concat_self, rfl, rfl⟩

end Outcome

theorem publish_of_ok {db after : GraphDb} {input : Publication}
    (normalized : normalizedPublication input = .ok publication)
    {published : Published}
    (within : publishWithin hexDigest db publication = .ok (published,
      after)) :
    publishSoftwareGraphVersion hexDigest db input =
      (.ok published, after) := by
  rw [publishSoftwareGraphVersion, normalized, ok_bind, within]

theorem publish_of_error {db : GraphDb} {input : Publication}
    (normalized : normalizedPublication input = .ok publication)
    {message : String}
    (within : publishWithin hexDigest db publication = .error message) :
    publishSoftwareGraphVersion hexDigest db input =
      (.error message, db) := by
  rw [publishSoftwareGraphVersion, normalized, ok_bind, within]

namespace Kept

variable {db : GraphDb} {log : List Publication}

theorem publishWithin_of_mem (kept : Kept hexDigest db log)
    (injective : Function.Injective hexDigest) (member : publication ∈ log) :
    publishWithin hexDigest db publication =
      .ok (publishedAs hexDigest publication true, db) := by
  have found : db.version? (rowOf hexDigest publication).versionId
      (rowOf hexDigest publication).tenantId
      (rowOf hexDigest publication).repositoryId =
        some (rowOf hexDigest publication) :=
    kept.version?_of_mem injective member
  rw [publishWithin, found]
  dsimp only
  rw [throwIf, if_neg, ok_bind]
  · rfl
  · rintro (other | other)
    · exact other rfl
    · exact other rfl

theorem publishWithin_of_not_mem (kept : Kept hexDigest db log)
    (injective : Function.Injective hexDigest) (absent : publication ∉ log) :
    publishWithin hexDigest db publication =
      publishAfterHead hexDigest db publication := by
  have missing : db.version? (rowOf hexDigest publication).versionId
      (rowOf hexDigest publication).tenantId
      (rowOf hexDigest publication).repositoryId = none :=
    kept.version?_of_not_mem injective absent _ _
  rw [publishWithin, missing]

theorem stepped (kept : Kept hexDigest db log)
    (injective : Function.Injective hexDigest) (input : Publication) :
    ∃ after, Outcome hexDigest log input
        (publishSoftwareGraphVersion hexDigest db input).1 after ∧
      Kept hexDigest (publishSoftwareGraphVersion hexDigest db input).2
        after ∧
      (after = log →
        (publishSoftwareGraphVersion hexDigest db input).2 = db) := by
  cases normalized : normalizedPublication input with
  | error message =>
    have answer : publishSoftwareGraphVersion hexDigest db input =
        (.error message, db) := by
      rw [publishSoftwareGraphVersion, normalized]
      rfl
    rw [answer]
    exact ⟨log, .refused normalized, kept, fun _ => rfl⟩
  | ok publication =>
    by_cases member : publication ∈ log
    · rw [publish_of_ok normalized
        (kept.publishWithin_of_mem injective member)]
      exact ⟨log, .known normalized member, kept, fun _ => rfl⟩
    have normal := normalized_normalized normalized
    have scope := kept.heads publication.headKey
    have within := kept.publishWithin_of_not_mem injective member
    have inserted := kept.insertVersion_eq injective member
    have grown : log ++ [publication] ≠ log :=
      fun same => List.cons_ne_nil _ _ (List.append_right_eq_self.mp same)
    rw [publishAfterHead] at within
    cases head : (ofScope publication.headKey log).getLast? with
    | none =>
      rw [head, Option.map_none] at scope
      rw [scope] at within
      dsimp only at within
      have parentless : headId? hexDigest log publication.headKey =
          none := by
        rw [headId?, head, Option.map_none]
      by_cases parent : publication.parentVersionId = none
      · rw [throwIf, if_neg (not_not_intro parent), ok_bind,
          inserted] at within
        rw [publish_of_ok normalized within]
        refine ⟨log ++ [publication], ?_, ?_,
          fun same => absurd same grown⟩
        · refine .appended normalized member ?_ ?_
          · intro last impossible
            rw [head] at impossible
            cases impossible
          · rw [parentless, parent]
        · refine kept.snoc normal member ?_
          rw [head, parent, Option.map_none]
      · rw [throwIf, if_pos parent, error_bind] at within
        rw [publish_of_error normalized within]
        refine ⟨log, ?_, kept, fun _ => rfl⟩
        refine .stale normalized member ?_ ?_
        · intro last impossible
          rw [head] at impossible
          cases impossible
        · rw [parentless]
          exact parent
    | some last =>
      rw [head, Option.map_some] at scope
      rw [scope] at within
      dsimp only at within
      have headed : headId? hexDigest log publication.headKey =
          some (idOf hexDigest last) := by
        rw [headId?, head, Option.map_some]
      have inside := mem_ofScope.mp (List.mem_of_getLast? head)
      rw [kept.headPublication_eq injective inside.1 inside.2,
        ok_bind] at within
      have id : (headOf hexDigest last).versionId =
          idOf hexDigest last := rfl
      rw [id] at within
      by_cases same : withoutParent last = withoutParent publication
      · rw [if_pos same] at within
        rw [publish_of_ok normalized within]
        exact ⟨log, .atHead normalized member head same, kept,
          fun _ => rfl⟩
      · rw [if_neg same] at within
        have different : ∀ other,
            (ofScope publication.headKey log).getLast? = some other →
            withoutParent other ≠ withoutParent publication := by
          intro other found
          rw [head, Option.some_inj] at found
          exact found ▸ same
        by_cases parent : publication.parentVersionId =
            some (idOf hexDigest last)
        · rw [throwIf, if_neg (not_not_intro parent), ok_bind,
            inserted] at within
          rw [publish_of_ok normalized within]
          refine ⟨log ++ [publication], ?_, ?_,
            fun same => absurd same grown⟩
          · refine .appended normalized member different ?_
            rw [headed, parent]
          · refine kept.snoc normal member ?_
            rw [head, parent, Option.map_some]
        · rw [throwIf, if_pos parent, error_bind] at within
          rw [publish_of_error normalized within]
          refine ⟨log, ?_, kept, fun _ => rfl⟩
          refine .stale normalized member different ?_
          rw [headed]
          exact parent

end Kept

/-! ## Runs -/

/-- The tables keep a log of normal forms of the calls. -/
def Logged (hexDigest : String → String) (calls : List Publication)
    (db : GraphDb) : Prop :=
  ∃ log, Kept hexDigest db log ∧ ∀ publication ∈ log, ∃ input ∈ calls,
    normalizedPublication input = .ok publication

theorem logged_publish (injective : Function.Injective hexDigest)
    {calls : List Publication} (db : GraphDb) (input : Publication)
    (logged : Logged hexDigest calls db) (member : input ∈ calls) :
    Logged hexDigest calls
      (publishSoftwareGraphVersion hexDigest db input).2 := by
  obtain ⟨log, kept, called⟩ := logged
  obtain ⟨after, outcome, keptAfter, _⟩ := kept.stepped injective input
  refine ⟨after, keptAfter, ?_⟩
  rcases outcome.after_cases with rfl | ⟨publication, normalized, rfl⟩
  · exact called
  · intro other inside
    rcases List.mem_append.mp inside with old | new
    · exact called other old
    · rw [List.mem_singleton] at new
      exact ⟨input, member, new ▸ normalized⟩

theorem logged_publishAll (injective : Function.Injective hexDigest)
    (calls : List Publication) :
    Logged hexDigest calls (publishAll hexDigest calls) :=
  Run.run_along_invariant (logged_publish injective)
    ⟨[], Kept.empty, List.forall_mem_nil _⟩
    (Run.along_of_forall_mem (fun _ member => member) _)

/-! ## What is kept -/

/-- The versions of a scope, the earliest first. -/
def versionsOf (db : GraphDb) (key : HeadKey) : List VersionRow :=
  db.versions.filter fun row => decide
    (row.tenantId = key.tenantId ∧ row.repositoryId = key.repositoryId ∧
      (parsePublication row.contentJson).map (fun one => one.providerId) =
        some key.providerId)

/-- The versions of a scope are one line, which ends in its head. -/
structure OneChain (db : GraphDb) (key : HeadKey) : Prop where
  line : Line VersionRow.versionId VersionRow.parentVersionId none
    (versionsOf db key)
  distinct : ((versionsOf db key).map VersionRow.versionId).Nodup
  head : (db.heads.get? key).map
      (fun head => (head.versionId, head.contentDigest)) =
    (versionsOf db key).getLast?.map
      (fun row => (row.versionId, row.contentDigest))

/-- A row is read back as the normal form which one of the calls had. -/
def ReadsBack (hexDigest : String → String) (calls : List Publication)
    (db : GraphDb) (row : VersionRow) : Prop :=
  ∃ input ∈ calls, ∃ publication,
    normalizedPublication input = .ok publication ∧
    row = rowOf hexDigest publication ∧
    readSoftwareGraphVersion hexDigest db row.tenantId row.repositoryId
      row.versionId = .ok ⟨publication, row.versionId, row.contentDigest⟩

/-- What a further call does to the tables. -/
structure CallKept (hexDigest : String → String) (db : GraphDb)
    (input : Publication) : Prop where
  failed : ∀ message after,
    publishSoftwareGraphVersion hexDigest db input = (.error message, after) →
    after = db
  stale : input.parentVersionId ≠
      (db.heads.get? input.headKey).map HeadRow.versionId →
    (publishSoftwareGraphVersion hexDigest db input).2 = db ∧
      ∀ published,
        (publishSoftwareGraphVersion hexDigest db input).1 = .ok published →
        published.replayed = true
  republished : ∀ publication,
    normalizedPublication input = .ok publication →
    rowOf hexDigest publication ∈ db.versions →
    publishSoftwareGraphVersion hexDigest db input =
      (.ok ⟨(rowOf hexDigest publication).versionId,
        (rowOf hexDigest publication).contentDigest, true⟩, db)
  atHead : ∀ publication head version,
    normalizedPublication input = .ok publication →
    rowOf hexDigest publication ∉ db.versions →
    db.heads.get? publication.headKey = some head →
    readSoftwareGraphVersion hexDigest db publication.tenantId
      publication.repositoryId head.versionId = .ok version →
    withoutParent version.toPublication = withoutParent publication →
    publishSoftwareGraphVersion hexDigest db input =
      (.ok ⟨head.versionId, head.contentDigest, true⟩, db)
  returned : ∀ published,
    (publishSoftwareGraphVersion hexDigest db input).1 = .ok published →
    ∃ row ∈ (publishSoftwareGraphVersion hexDigest db input).2.versions,
      row.versionId = published.versionId ∧
        row.contentDigest = published.contentDigest
  grows : db.versions <+:
    (publishSoftwareGraphVersion hexDigest db input).2.versions

namespace Kept

variable {db : GraphDb} {log : List Publication}

theorem versionsOf_eq (kept : Kept hexDigest db log) (key : HeadKey) :
    versionsOf db key = (ofScope key log).map (rowOf hexDigest) := by
  rw [versionsOf, kept.versions, List.filter_map, ofScope]
  congr 1
  apply List.filter_congr
  intro publication _
  rw [Function.comp_apply, decide_eq_decide]
  change publication.tenantId = key.tenantId ∧
    publication.repositoryId = key.repositoryId ∧
    (parsePublication (contentJson publication)).map _ = _ ↔ _
  rw [parsePublication_contentJson, Option.map_some, Option.some_inj,
    Subject.headKey, ← HeadKey.mk.injEq]

theorem oneChain (kept : Kept hexDigest db log)
    (injective : Function.Injective hexDigest) (key : HeadKey) :
    OneChain db key where
  line := by
    rw [kept.versionsOf_eq, line_map]
    exact kept.lines key
  distinct := by
    rw [kept.versionsOf_eq, List.map_map]
    exact (kept.distinct.filter _).map (idOf_injective injective)
  head := by
    rw [kept.versionsOf_eq, kept.heads, List.getLast?_map, Option.map_map,
      Option.map_map]
    rfl

theorem read_eq (kept : Kept hexDigest db log)
    (injective : Function.Injective hexDigest) (member : publication ∈ log) :
    readSoftwareGraphVersion hexDigest db publication.tenantId
        publication.repositoryId (idOf hexDigest publication) =
      .ok ⟨publication, idOf hexDigest publication,
        digestOf hexDigest publication⟩ := by
  rw [readSoftwareGraphVersion, kept.version?_of_mem injective member]
  dsimp only
  rw [throwIf, if_neg fun other => other rfl, ok_bind, parsed, rowOf,
    parsePublication_contentJson]
  dsimp only
  rw [ok_bind, throwIf, if_neg, ok_bind, throwIf,
    if_neg fun other => other rfl, ok_bind, kept.normal publication member,
    ok_bind, throwIf, if_neg fun other => other rfl, ok_bind]
  · rfl
  · rintro (other | other)
    · exact other rfl
    · exact other rfl

theorem rowOf_mem (kept : Kept hexDigest db log)
    (injective : Function.Injective hexDigest) :
    rowOf hexDigest publication ∈ db.versions ↔ publication ∈ log := by
  rw [kept.versions, List.mem_map]
  constructor
  · rintro ⟨other, member, same⟩
    exact idOf_injective injective (congrArg VersionRow.versionId same) ▸
      member
  · exact fun member => ⟨publication, member, rfl⟩

theorem headId?_eq (kept : Kept hexDigest db log) (key : HeadKey) :
    (db.heads.get? key).map HeadRow.versionId = headId? hexDigest log key := by
  rw [kept.heads, Option.map_map]
  rfl

theorem callKept (kept : Kept hexDigest db log)
    (injective : Function.Injective hexDigest) (input : Publication) :
    CallKept hexDigest db input := by
  obtain ⟨after, outcome, keptAfter, unchanged⟩ :=
    kept.stepped injective input
  constructor
  case failed =>
    intro message state same
    rw [same] at outcome unchanged
    exact unchanged (outcome.after_of_error rfl)
  case stale =>
    intro different
    rw [kept.headId?_eq] at different
    exact (outcome.after_of_stale different).imp_left unchanged
  case republished =>
    intro publication normalized member
    rw [kept.rowOf_mem injective] at member
    exact publish_of_ok normalized (kept.publishWithin_of_mem injective member)
  case atHead =>
    intro publication head version normalized absent found read same
    rw [kept.rowOf_mem injective] at absent
    rw [kept.heads, Option.map_eq_some_iff] at found
    obtain ⟨last, ends, rfl⟩ := found
    have inside := mem_ofScope.mp (List.mem_of_getLast? ends)
    have tenant : publication.tenantId = last.tenantId :=
      congrArg HeadKey.tenantId inside.2.symm
    have repository : publication.repositoryId = last.repositoryId :=
      congrArg HeadKey.repositoryId inside.2.symm
    have readLast := kept.read_eq injective inside.1
    rw [tenant, repository] at read
    cases read.symm.trans readLast
    have answered := outcome.answer_of_atHead normalized absent ends same
    exact Prod.ext answered.2 (unchanged answered.1)
  case returned =>
    intro published returned
    obtain ⟨publication, member, id, digest⟩ := outcome.mem_of_ok returned
    refine ⟨rowOf hexDigest publication, ?_, id.symm, digest.symm⟩
    exact (keptAfter.rowOf_mem injective).mpr member
  case grows =>
    rw [kept.versions, keptAfter.versions]
    rcases outcome.after_cases with rfl | ⟨publication, _, rfl⟩
    · exact List.prefix_rfl
    · rw [List.map_append]
      exact List.prefix_append _ _

end Kept

theorem publish_of_alike (db : GraphDb) {input other : Publication}
    (alike : PublicationAlike input other) :
    (publishSoftwareGraphVersion hexDigest db input).2 =
        (publishSoftwareGraphVersion hexDigest db other).2 ∧
      ∀ published,
        (publishSoftwareGraphVersion hexDigest db input).1 = .ok published ↔
          (publishSoftwareGraphVersion hexDigest db other).1 =
            .ok published := by
  cases normalized : normalizedPublication input with
  | ok publication =>
    have same := (normalized_iff_of_alike alike).mp normalized
    rw [publishSoftwareGraphVersion, publishSoftwareGraphVersion,
      normalized, same]
    exact ⟨rfl, fun _ => Iff.rfl⟩
  | error message =>
    cases same : normalizedPublication other with
    | ok publication =>
      rw [(normalized_iff_of_alike alike).mpr same] at normalized
      cases normalized
    | error failure =>
      rw [publishSoftwareGraphVersion, publishSoftwareGraphVersion,
        normalized, same, error_bind, error_bind]
      refine ⟨rfl, fun published => ⟨?_, ?_⟩⟩
      · intro impossible
        cases impossible
      · intro impossible
        cases impossible

/-! ## Every sequence of calls -/

/-- What holds of the tables after calls, and of a further call. -/
structure VersionsKept (hexDigest : String → String)
    (calls : List Publication) (db : GraphDb) : Prop where
  chains : ∀ key, OneChain db key
  reads : ∀ row ∈ db.versions, ReadsBack hexDigest calls db row
  calls : ∀ input, CallKept hexDigest db input
  orders : ∀ input other, PublicationAlike input other →
    (publishSoftwareGraphVersion hexDigest db input).2 =
        (publishSoftwareGraphVersion hexDigest db other).2 ∧
      ∀ published,
        (publishSoftwareGraphVersion hexDigest db input).1 = .ok published ↔
          (publishSoftwareGraphVersion hexDigest db other).1 = .ok published

/-- After every sequence of calls the versions form verified chains. -/
theorem publishAll_versionsKept (injective : Function.Injective hexDigest)
    (calls : List Publication) :
    VersionsKept hexDigest calls (publishAll hexDigest calls) := by
  obtain ⟨log, kept, called⟩ := logged_publishAll injective calls
  constructor
  case chains => exact kept.oneChain injective
  case reads =>
    intro row member
    rw [kept.versions, List.mem_map] at member
    obtain ⟨publication, inside, rfl⟩ := member
    obtain ⟨input, called, normalized⟩ := called publication inside
    exact ⟨input, called, publication, normalized, rfl,
      kept.read_eq injective inside⟩
  case calls => exact kept.callKept injective
  case orders => exact fun _ _ => publish_of_alike _

/-! ## A sample -/

def sampleExtractor : Extractor where
  id := "scan"
  version := "1"
  digest := "sha256:aaaaaaaaaaaaaaaaaaaaaaaaaaaaaaaaaaaaaaaaaaaaaaaaaaaaaaaaaaaaaaaa"

def sampleStage (stage : Stage) : CoverageStage where
  stage := stage
  basis := .complete
  analyzed := 1
  omitted := 0
  reasons := none
  evidenceRefs := ["spec"]
  extractor := sampleExtractor

/-- A publication of one endpoint, in its normal form. -/
def sample : Publication where
  tenantId := "t"
  repositoryId := "r"
  repositorySnapshotId := "s"
  repositoryRevision := "bbbbbbbbbbbbbbbbbbbbbbbbbbbbbbbbbbbbbbbb"
  providerId := "p"
  providerSnapshotId := "ps"
  providerRevision := "v1"
  observedAt := "2026-01-01T00:00:00.000Z"
  parentVersionId := none
  entities := [
    { id := "e"
      kind := .endpoint
      canonicalKey := "GET /e"
      aliases := []
      label := "e"
      scope := .provider
      evidenceRefs := ["spec"]
      extractor := sampleExtractor
      derivation := .providerSpec
      confidenceBasis := .deterministicExact
      status := .active
      validFrom := "2026-01-01T00:00:00.000Z"
      validTo := none
      conflictRefs := none }]
  relationships := []
  coverage := [sampleStage .callResolution, sampleStage .languageParsing,
    sampleStage .providerSpecification, sampleStage .repositoryDiscovery,
    sampleStage .sdkResolution, sampleStage .testResolution]

/-- An injective digest, which is the SHA-256 of the sample there. -/
def sampleDigest : String → String :=
  Equiv.swap (contentJson sample)
    "8272b66318e74c8d12ab5ba5b77e881828891202263f661c5fbb642394c2ce2f"

theorem publishAll_versionsKept_sample :
    VersionsKept sampleDigest [sample, sample]
      (publishAll sampleDigest [sample, sample]) :=
  publishAll_versionsKept (Equiv.injective _) [sample, sample]

end Mendpoint.SoftwareGraph

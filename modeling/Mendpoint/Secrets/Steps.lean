import Mendpoint.Secrets.Versions

/-!
# What the calls do to the versions

A call leaves the versions as they are, appends the first one of a credential,
retires the active one and appends the next, or revokes those of a lineage.
-/

namespace Mendpoint.Secrets

open Mendpoint.Library
open Mendpoint.Library.Attempt
open Mendpoint.Library.Fallible

variable {row : SecretLifecycleVersionRow} {input : SecretLifecycleInput}
  {db after : SecretDb} {operation : Option OperationIdentity}
  {next : SecretLifecycleInput} {lineages : Option (List LineageCandidate)}
  {options : MutationOptions}

theorem isOf_iff {tenantId credentialId : String} :
    row.isOf tenantId credentialId = true ↔
      row.tenantId = tenantId ∧ row.credentialId = credentialId := by
  rw [SecretLifecycleVersionRow.isOf, decide_eq_true_eq]

theorem isOf_self (row : SecretLifecycleVersionRow) :
    row.isOf row.tenantId row.credentialId = true :=
  isOf_iff.mpr ⟨rfl, rfl⟩

/-! ## Steps of the calls -/

/-- A row has been appended under a key of its own. -/
structure Appends (db after : SecretDb) (row : SecretLifecycleVersionRow) :
    Prop where
  fresh : ∀ other ∈ db.versions, other.primaryKey ≠ row.primaryKey
  versions : after.versions = db.versions ++ [row]

theorem insertVersion_spec
    (yields : Yields (insertVersion input) db row after) :
    Appends db after input.row := by
  rw [insertVersion, yields_get_bind] at yields
  split at yields
  · exact absurd yields not_yields_throw
  · next unknown =>
      rw [yields_lift_bind] at yields
      rcases yields with ⟨_, _, rest⟩
      rw [yields_bind] at rest
      rcases rest with ⟨_, middle, inserted, answered⟩
      rw [← (yields_pure.mp answered).2, ← yields_set.mp inserted]
      refine ⟨fun other inside => ?_, rfl⟩
      have different := List.find?_eq_none.mp unknown other inside
      rw [decide_eq_true_eq] at different
      exact different

theorem completeOperation_spec {kind : OperationKind} {value : PUnit}
    (yields : Yields (completeOperation input kind operation) db value after) :
    after.versions = db.versions := by
  cases operation with
  | none =>
    rw [← (yields_pure.mp yields).2]
  | some identity =>
    rw [← yields_modify.mp yields]

theorem completeRevocation_spec {input : RevokeInput} {value : PUnit}
    (yields : Yields (completeRevocation input operation) db value after) :
    after.versions = db.versions := by
  cases operation with
  | none =>
    rw [← (yields_pure.mp yields).2]
  | some identity =>
    rw [← yields_modify.mp yields]

/-! ## Retained lineages -/

theorem matching_none {db : SecretDb} {next : SecretLifecycleInput}
    {candidate : LineageCandidate}
    (unmatched : matching db next candidate = none)
    {row : SecretLifecycleVersionRow} (inside : row ∈ db.versions) :
    row.matches next candidate = false := by
  rw [matching, Option.orElse_eq_none] at unmatched
  have empty := List.argmin_eq_none.mp unmatched.2
  rw [List.filter_eq_nil_iff] at empty
  exact eq_false_of_ne_true (empty row inside)

theorem matching_some {candidate : LineageCandidate}
    {found : SecretLifecycleVersionRow}
    (isMatch : matching db next candidate = some found)
    (valid : found.state ≠ .revoked) :
    (found ∈ db.versions ∧ found.matches next candidate = true) ∧
      ∀ row ∈ db.versions, row.matches next candidate = true →
        row.state ≠ .revoked := by
  rw [matching, Option.orElse_eq_some] at isMatch
  rcases isMatch with revoked | ⟨noneRevoked, first⟩
  · have inside := List.mem_filter.mp (List.argmin_mem revoked)
    exact absurd (of_decide_eq_true inside.2) valid
  · refine ⟨List.mem_filter.mp (List.argmin_mem first), ?_⟩
    intro row inside matched isRevoked
    have empty := List.argmin_eq_none.mp noneRevoked
    rw [List.filter_eq_nil_iff] at empty
    exact empty row (List.mem_filter.mpr ⟨inside, matched⟩)
      (decide_eq_true isRevoked)

/-- The lineage of a version which a candidate matches. -/
def retainedOf (candidate : LineageCandidate)
    (row : SecretLifecycleVersionRow) : LineageCandidate where
  keyId := row.materialLineageKeyId.getD candidate.keyId
  lineageId := row.materialLineageId.getD candidate.lineageId

/-- What a retained lineage says of the candidates and the versions. -/
structure Retains (db : SecretDb) (next : SecretLifecycleInput)
    (candidates : List LineageCandidate)
    (earlier retained : Option LineageCandidate) : Prop where
  unrevoked : ∀ candidate ∈ candidates, ∀ row ∈ db.versions,
    row.matches next candidate = true → row.state ≠ .revoked
  unmatched : retained = none → ∀ candidate ∈ candidates,
    ∀ row ∈ db.versions, row.matches next candidate = false
  origin : ∀ lineage ∈ retained, earlier = some lineage ∨
    ∃ candidate ∈ candidates, ∃ row ∈ db.versions,
      row.matches next candidate = true ∧
      lineage = retainedOf candidate row

theorem retainLineage_spec {candidates : List LineageCandidate}
    {earlier retained : Option LineageCandidate}
    (answered : retainLineage db next candidates earlier = .ok retained) :
    Retains db next candidates earlier retained ∧
      (earlier ≠ none → retained ≠ none) := by
  induction candidates generalizing earlier with
  | nil =>
    cases answered
    refine ⟨⟨?_, ?_, fun lineage isRetained => Or.inl isRetained⟩, id⟩
    · exact fun candidate impossible => by cases impossible
    · exact fun _ candidate impossible => by cases impossible
  | cons candidate rest inductionHypothesis =>
    rw [retainLineage] at answered
    split at answered
    · next isNone =>
        rcases inductionHypothesis answered with ⟨retains, grows⟩
        have missing := fun row inside =>
          @matching_none db next candidate isNone row inside
        refine ⟨⟨?_, ?_, ?_⟩, grows⟩
        · refine List.forall_mem_cons.mpr ⟨?_, retains.unrevoked⟩
          intro row inside matched
          rw [missing row inside] at matched
          cases matched
        · exact fun isNone => List.forall_mem_cons.mpr
            ⟨missing, retains.unmatched isNone⟩
        · intro lineage isRetained
          exact (retains.origin lineage isRetained).imp_right
            fun ⟨other, member, found⟩ =>
              ⟨other, List.mem_cons_of_mem _ member, found⟩
    · next row isMatch =>
        split at answered
        · cases answered
        · next valid =>
            rcases matching_some isMatch valid with
              ⟨⟨inside, matched⟩, unrevoked⟩
            rcases inductionHypothesis answered with ⟨retains, grows⟩
            have some_ : retained ≠ none := by
              refine grows ?_
              cases earlier with
              | none => exact Option.some_ne_none _
              | some lineage => exact Option.some_ne_none _
            refine ⟨⟨?_, fun isNone => absurd isNone some_, ?_⟩,
              fun _ => some_⟩
            · exact List.forall_mem_cons.mpr
                ⟨unrevoked, retains.unrevoked⟩
            · intro lineage isRetained
              rcases retains.origin lineage isRetained with
                earlierSome | ⟨other, member, found⟩
              · cases earlier with
                | none =>
                  cases earlierSome
                  exact Or.inr ⟨candidate, List.mem_cons_self, row,
                    inside, matched, rfl⟩
                | some before => exact Or.inl earlierSome
              · exact Or.inr ⟨other, List.mem_cons_of_mem _ member, found⟩

/-! ## Rotations -/

/-- The active version and the lineage of the next one. -/
structure Rotates (db : SecretDb) (input : RotateInput)
    (candidates : List LineageCandidate)
    (current : SecretLifecycleVersionRow)
    (retained : Option LineageCandidate) : Prop where
  stored : current ∈ db.versions
  isOf : current.isOf input.next.tenantId input.next.credentialId = true
  active : current.state = .active
  generation : input.next.generation = current.generation + 1
  retains : Retains db input.next candidates none retained

theorem rotation_spec {input : RotateInput}
    {current : SecretLifecycleVersionRow}
    (rotates : rotation db input lineages = .ok (current, next)) :
    ∃ retained, next = input.next.relabel retained ∧
      Rotates db input (input.candidates lineages) current retained := by
  rw [rotation, bind_eq_ok] at rotates
  rcases rotates with ⟨found, isFound, rest⟩
  rw [demand_eq_ok] at isFound
  rw [bind_eq_ok] at rest
  rcases rest with ⟨_, _, rest⟩
  rw [bind_eq_ok] at rest
  rcases rest with ⟨_, target, rest⟩
  rw [throwIf_eq_ok, not_or, not_not, not_not] at target
  rw [bind_eq_ok] at rest
  rcases rest with ⟨_, _, rest⟩
  rw [bind_eq_ok] at rest
  rcases rest with ⟨retained, isRetained, rest⟩
  cases rest
  have named := List.find?_some isFound
  rw [Bool.and_eq_true] at named
  exact ⟨retained, rfl, List.mem_of_find?_eq_some isFound, named.1,
    of_decide_eq_true named.2, target.1, (retainLineage_spec isRetained).1⟩

/-- The rows which a rotation retires. -/
def retires (current row : SecretLifecycleVersionRow) : Bool :=
  row.isOf current.tenantId current.credentialId &&
    decide (row.generation = current.generation) && row.isActive

/-- The active version has been retired, and the next one appended. -/
structure Rotated (db after : SecretDb) (input : RotateInput)
    (candidates : List LineageCandidate) : Prop where
  rows : ∃ current retained, ∃ middle : SecretDb,
    Rotates db input candidates current retained ∧
    middle.versions = Table.update (retires current)
      (SecretLifecycleVersionRow.retire input.rotatedAt) db.versions ∧
    Appends middle after (input.next.relabel retained).row

theorem rotateSecretLifecycle_spec {input : RotateInput}
    (yields : Yields (rotateSecretLifecycle input options lineages) db row
      after) :
    after.versions = db.versions ∨
      Rotated db after input (input.candidates lineages) := by
  rw [rotateSecretLifecycle, yields_lift_bind] at yields
  rcases yields with ⟨_, _, rest⟩
  rw [yields_lift_bind] at rest
  rcases rest with ⟨_, _, rest⟩
  rw [yields_transaction, yields_get_bind, yields_lift_bind] at rest
  rcases rest with ⟨replayed, _, rest⟩
  cases replayed with
  | some replay =>
    rw [yields_lift_bind] at rest
    rcases rest with ⟨_, _, answered⟩
    rw [← (yields_pure.mp answered).2]
    exact Or.inl rfl
  | none =>
    rw [yields_lift_bind] at rest
    rcases rest with ⟨⟨current, next⟩, rotates, rest⟩
    rw [yields_bind] at rest
    rcases rest with ⟨_, middle, retired, rest⟩
    rw [yields_bind] at rest
    rcases rest with ⟨inserted, appended, isInserted, rest⟩
    rw [yields_lift_bind] at rest
    rcases rest with ⟨_, _, rest⟩
    rw [yields_bind] at rest
    rcases rest with ⟨_, completed, completes, rest⟩
    rw [yields_lift_bind] at rest
    rcases rest with ⟨_, _, answered⟩
    rw [← (yields_pure.mp answered).2]
    rcases rotation_spec rotates with ⟨retained, rfl, isRotation⟩
    have appends := insertVersion_spec isInserted
    refine Or.inr ⟨current, retained, middle, isRotation, ?_,
      appends.fresh, ?_⟩
    · rw [← yields_set.mp retired]
      rfl
    · rw [completeOperation_spec completes]
      exact appends.versions

theorem rewrapSecretLifecycle_spec {input : RotateInput}
    {identity : OperationIdentity}
    (yields : Yields (rewrapSecretLifecycle input identity options lineages)
      db row after) :
    after.versions = db.versions ∨
      Rotated db after input (input.candidates lineages) := by
  rw [rewrapSecretLifecycle, yields_lift_bind] at yields
  rcases yields with ⟨_, _, rest⟩
  rw [yields_transaction, yields_get_bind] at rest
  split at rest
  · rw [yields_lift_bind] at rest
    rcases rest with ⟨_, _, rest⟩
    rw [yields_lift_bind] at rest
    rcases rest with ⟨_, _, rest⟩
    rw [yields_lift_bind] at rest
    rcases rest with ⟨_, _, answered⟩
    rw [← (yields_pure.mp answered).2]
    exact Or.inl rfl
  · rw [yields_bind] at rest
    rcases rest with ⟨inserted, rotated, rotates, rest⟩
    rw [yields_bind] at rest
    rcases rest with ⟨_, completed, completes, rest⟩
    rw [yields_lift_bind] at rest
    rcases rest with ⟨_, _, answered⟩
    rw [← (yields_pure.mp answered).2, ← yields_modify.mp completes]
    refine (rotateSecretLifecycle_spec rotates).imp_right ?_
    rintro ⟨current, retained, middle, isRotation, retired, appends⟩
    exact ⟨current, retained, middle, isRotation, retired, appends.fresh,
      appends.versions⟩

/-! ## Creations and revocations -/

theorem createSecretLifecycle_spec
    (yields : Yields (createSecretLifecycle input options) db row after) :
    after.versions = db.versions ∨
      (input.generation = 1 ∧ Appends db after input.row) := by
  rw [createSecretLifecycle, yields_lift_bind] at yields
  rcases yields with ⟨_, _, rest⟩
  rw [yields_lift_bind] at rest
  rcases rest with ⟨_, first, rest⟩
  rw [throwIf_eq_ok, not_not] at first
  rw [yields_transaction, yields_get_bind, yields_lift_bind] at rest
  rcases rest with ⟨replayed, _, rest⟩
  cases replayed with
  | some replay =>
    rw [yields_lift_bind] at rest
    rcases rest with ⟨_, _, answered⟩
    rw [← (yields_pure.mp answered).2]
    exact Or.inl rfl
  | none =>
    rw [yields_bind] at rest
    rcases rest with ⟨inserted, appended, isInserted, rest⟩
    rw [yields_lift_bind] at rest
    rcases rest with ⟨_, _, rest⟩
    rw [yields_bind] at rest
    rcases rest with ⟨_, completed, completes, rest⟩
    rw [yields_lift_bind] at rest
    rcases rest with ⟨_, _, answered⟩
    rw [← (yields_pure.mp answered).2]
    have appends := insertVersion_spec isInserted
    refine Or.inr ⟨first, appends.fresh, ?_⟩
    rw [completeOperation_spec completes]
    exact appends.versions

/-- The versions of a lineage have been revoked. -/
structure Revoked (db after : SecretDb) (input : RevokeInput)
    (existing : SecretLifecycleVersionRow) : Prop where
  stored : existing ∈ db.versions
  valid : existing.state ≠ .revoked
  versions : after.versions = Table.update existing.shares
    (SecretLifecycleVersionRow.revoke input) db.versions

theorem revokeSecretLifecycle_spec {input : RevokeInput}
    {replayAudit : SecretLifecycleVersionRow → Except String PUnit}
    (yields : Yields (revokeSecretLifecycle input options replayAudit) db
      row after) :
    after.versions = db.versions ∨ ∃ existing,
      Revoked db after input existing := by
  rw [revokeSecretLifecycle, yields_lift_bind] at yields
  rcases yields with ⟨_, _, rest⟩
  rw [yields_lift_bind] at rest
  rcases rest with ⟨_, _, rest⟩
  rw [yields_lift_bind] at rest
  rcases rest with ⟨_, _, rest⟩
  rw [yields_transaction, yields_get_bind, yields_lift_bind] at rest
  rcases rest with ⟨replayed, _, rest⟩
  cases replayed with
  | some replay =>
    rw [yields_lift_bind] at rest
    rcases rest with ⟨_, _, rest⟩
    rw [yields_lift_bind] at rest
    rcases rest with ⟨_, _, answered⟩
    rw [← (yields_pure.mp answered).2]
    exact Or.inl rfl
  | none =>
    rw [yields_lift_bind] at rest
    rcases rest with ⟨existing, isExisting, rest⟩
    rw [demand_eq_ok] at isExisting
    rw [yields_lift_bind] at rest
    rcases rest with ⟨_, valid, rest⟩
    rw [throwIf_eq_ok] at valid
    rw [yields_bind] at rest
    rcases rest with ⟨_, middle, written, rest⟩
    rw [yields_lift_bind] at rest
    rcases rest with ⟨_, _, rest⟩
    rw [yields_bind] at rest
    rcases rest with ⟨_, completed, completes, rest⟩
    rw [yields_lift_bind] at rest
    rcases rest with ⟨_, _, answered⟩
    rw [← (yields_pure.mp answered).2]
    refine Or.inr ⟨existing, List.mem_of_find?_eq_some isExisting, valid,
      ?_⟩
    rw [completeRevocation_spec completes, ← yields_set.mp written]
    rfl

end Mendpoint.Secrets

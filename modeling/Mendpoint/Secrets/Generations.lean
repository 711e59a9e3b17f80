import Mendpoint.Library.Run
import Mendpoint.Secrets.Steps

/-!
# Generations and revoked material

The generations of a credential are numbered without a gap, and only the newest
may be active.  Versions with one material carry one lineage, so that a
revocation reaches all of them, and a rotation recognises them afterwards.
-/

namespace Mendpoint.Secrets

open Mendpoint.Library
open Mendpoint.Library.Attempt
open Mendpoint.Library.Run

/-! ## Credentials -/

/-- Two versions of one credential. -/
def SameCredential (row other : SecretLifecycleVersionRow) : Prop :=
  other.isOf row.tenantId row.credentialId = true

variable {row other : SecretLifecycleVersionRow} {db after : SecretDb}
  {selected : SecretLifecycleVersionRow → Bool}
  {change : SecretLifecycleVersionRow → SecretLifecycleVersionRow}
  {input : SecretLifecycleInput}

theorem sameCredential_iff :
    SameCredential row other ↔
      other.tenantId = row.tenantId ∧
        other.credentialId = row.credentialId :=
  isOf_iff

theorem SameCredential.symm (same : SameCredential row other) :
    SameCredential other row := by
  rw [sameCredential_iff] at same ⊢
  exact ⟨same.1.symm, same.2.symm⟩

theorem SameCredential.trans {first second third :
    SecretLifecycleVersionRow} (early : SameCredential first second)
    (late : SameCredential second third) : SameCredential first third := by
  rw [sameCredential_iff] at early late ⊢
  exact ⟨late.1.trans early.1, late.2.trans early.2⟩

theorem primaryKey_eq {row other : SecretLifecycleVersionRow}
    (same : SameCredential row other)
    (generation : other.generation = row.generation) :
    other.primaryKey = row.primaryKey := by
  rcases sameCredential_iff.mp same with ⟨tenant, credential⟩
  rw [SecretLifecycleVersionRow.primaryKey, tenant, credential, generation]
  rfl

/-! ## Numbered generations -/

/-- Generations without a gap, of which only the newest may be active. -/
structure Numbered (db : SecretDb) : Prop where
  generations : ∀ tenantId credentialId,
    (db.versionsOf tenantId credentialId).map
        SecretLifecycleVersionRow.generation =
      List.range' 1 (db.versionsOf tenantId credentialId).length
  newest : ∀ row ∈ db.versions, row.state = .active →
    row.generation = (db.versionsOf row.tenantId row.credentialId).length

theorem Numbered.oneActive (numbered : Numbered db)
    (inside : row ∈ db.versions) (within : other ∈ db.versions)
    (same : SameCredential row other) (active : row.state = .active)
    (otherActive : other.state = .active) : row = other := by
  have generation := numbered.newest row inside active
  have otherGeneration := numbered.newest other within otherActive
  rcases sameCredential_iff.mp same with ⟨tenant, credential⟩
  rw [tenant, credential, ← generation] at otherGeneration
  exact Table.eq_of_key db.versionKeys inside within
    (primaryKey_eq same otherGeneration).symm

theorem versionsOf_append (appends : Appends db after row)
    (tenantId credentialId : String) :
    after.versionsOf tenantId credentialId =
      db.versionsOf tenantId credentialId ++
        if row.isOf tenantId credentialId = true then [row] else [] := by
  rw [SecretDb.versionsOf, SecretDb.versionsOf, appends.versions,
    List.filter_append, List.filter_cons]
  rfl

theorem Numbered.append (numbered : Numbered db)
    (appends : Appends db after row)
    (generation : row.generation = (db.versionsOf row.tenantId
      row.credentialId).length + 1)
    (inactive : ∀ other ∈ db.versions, SameCredential row other →
      other.state ≠ .active) : Numbered after where
  generations tenantId credentialId := by
    rw [versionsOf_append appends]
    by_cases isOf : row.isOf tenantId credentialId = true
    · rcases isOf_iff.mp isOf with ⟨rfl, rfl⟩
      rw [if_pos isOf, List.map_append, numbered.generations,
        List.map_singleton, List.length_append, List.length_singleton,
        List.range'_1_concat, generation, Nat.add_comm 1]
    · rw [if_neg isOf, List.append_nil]
      exact numbered.generations tenantId credentialId
  newest other inside active := by
    rw [versionsOf_append appends]
    rw [appends.versions, List.mem_append, List.mem_singleton] at inside
    rcases inside with old | rfl
    · have apart : ¬ row.isOf other.tenantId other.credentialId = true :=
        fun isOf => inactive other old (SameCredential.symm isOf) active
      rw [if_neg apart, List.append_nil]
      exact numbered.newest other old active
    · rw [if_pos (isOf_self other), List.length_append,
        List.length_singleton]
      exact generation

/-- Changes of the state, none of which activates a version. -/
structure Demotes (selected : SecretLifecycleVersionRow → Bool)
    (change : SecretLifecycleVersionRow → SecretLifecycleVersionRow) :
    Prop where
  tenantId : ∀ row, (change row).tenantId = row.tenantId
  credentialId : ∀ row, (change row).credentialId = row.credentialId
  generation : ∀ row, (change row).generation = row.generation
  state : ∀ row, (change row).state ≠ .active
  unrevoked : ∀ row, selected row = true → row.state ≠ .revoked

theorem versionsOf_update (demotes : Demotes selected change)
    (versions : after.versions = Table.update selected change db.versions)
    (tenantId credentialId : String) :
    after.versionsOf tenantId credentialId =
      Table.update selected change (db.versionsOf tenantId credentialId) := by
  rw [SecretDb.versionsOf, SecretDb.versionsOf, versions]
  refine Table.filter_update (fun row => ?_) db.versions
  rw [SecretLifecycleVersionRow.isOf, SecretLifecycleVersionRow.isOf,
    demotes.tenantId, demotes.credentialId]

theorem Numbered.update (numbered : Numbered db)
    (demotes : Demotes selected change)
    (versions : after.versions = Table.update selected change db.versions) :
    Numbered after where
  generations tenantId credentialId := by
    rw [versionsOf_update demotes versions,
      Table.map_key_update demotes.generation, Table.update,
      List.length_map]
    exact numbered.generations tenantId credentialId
  newest row inside active := by
    rw [versionsOf_update demotes versions, Table.update, List.length_map]
    rw [versions, Table.mem_update] at inside
    rcases inside with ⟨old, _, _, rfl⟩ | ⟨old, _⟩
    · exact absurd active (demotes.state old)
    · exact numbered.newest row old active

theorem demotes_retire (current : SecretLifecycleVersionRow)
    (rotatedAt : String) :
    Demotes (retires current)
      (SecretLifecycleVersionRow.retire rotatedAt) where
  tenantId _ := rfl
  credentialId _ := rfl
  generation _ := rfl
  state _ same := by cases same
  unrevoked row selected := by
    rw [retires, Bool.and_eq_true] at selected
    have active : row.state = .active := of_decide_eq_true selected.2
    rw [active]
    decide

theorem demotes_revoke (existing : SecretLifecycleVersionRow)
    (input : RevokeInput) :
    Demotes existing.shares (SecretLifecycleVersionRow.revoke input) where
  tenantId _ := rfl
  credentialId _ := rfl
  generation _ := rfl
  state _ same := by cases same
  unrevoked row selected := by
    rw [SecretLifecycleVersionRow.shares, Bool.and_eq_true,
      Bool.and_eq_true] at selected
    exact of_decide_eq_true selected.1.2

/-! ## The calls keep the numbers -/

theorem Numbered.versionsOf_first (numbered : Numbered db)
    (first : input.generation = 1) (appends : Appends db after input.row) :
    db.versionsOf input.tenantId input.credentialId = [] := by
  have numbers := numbered.generations input.tenantId input.credentialId
  cases rows : db.versionsOf input.tenantId input.credentialId with
  | nil => rfl
  | cons row rest =>
    rw [rows, List.map_cons, List.length_cons, List.range'_succ,
      List.cons.injEq] at numbers
    have member : row ∈
        db.versionsOf input.tenantId input.credentialId :=
      rows ▸ List.mem_cons_self
    rcases List.mem_filter.mp member with ⟨inside, isOf⟩
    exact absurd (@primaryKey_eq input.row row isOf
      (numbers.1.trans first.symm)) (appends.fresh row inside)

theorem Numbered.alone (numbered : Numbered db)
    (first : input.generation = 1) (appends : Appends db after input.row)
    (inside : other ∈ db.versions) : ¬ SameCredential input.row other := by
  intro same
  have member : other ∈ db.versionsOf input.tenantId input.credentialId :=
    List.mem_filter.mpr ⟨inside, same⟩
  rw [numbered.versionsOf_first first appends] at member
  cases member

theorem Numbered.create (numbered : Numbered db)
    (first : input.generation = 1) (appends : Appends db after input.row) :
    Numbered after := by
  refine numbered.append appends ?_ fun other inside same => ?_
  · show input.generation =
      (db.versionsOf input.tenantId input.credentialId).length + 1
    rw [numbered.versionsOf_first first appends]
    exact first
  · exact absurd same (numbered.alone first appends inside)

theorem relabel_row (input : SecretLifecycleInput)
    (retained : Option LineageCandidate) :
    (input.relabel retained).row.tenantId = input.tenantId ∧
      (input.relabel retained).row.credentialId = input.credentialId ∧
      (input.relabel retained).row.generation = input.generation ∧
      (input.relabel retained).row.state = .active ∧
      (input.relabel retained).row.envelope = input.envelope := by
  cases retained <;> exact ⟨rfl, rfl, rfl, rfl, rfl⟩

theorem Numbered.rotate {input : RotateInput}
    {candidates : List LineageCandidate} (numbered : Numbered db)
    (rotated : Rotated db after input candidates) : Numbered after := by
  rcases rotated.rows with
    ⟨current, retained, middle, rotates, retired, appends⟩
  have demotes := demotes_retire current input.rotatedAt
  have middleNumbered := numbered.update demotes retired
  rcases relabel_row input.next retained with
    ⟨tenant, credential, generation, _, _⟩
  rcases isOf_iff.mp rotates.isOf with ⟨ofTenant, ofCredential⟩
  refine middleNumbered.append appends ?_ fun other inside same active => ?_
  · rw [tenant, credential, generation, rotates.generation,
      versionsOf_update demotes retired, Table.update, List.length_map,
      ← ofTenant, ← ofCredential]
    exact congrArg (· + 1)
      (numbered.newest current rotates.stored rotates.active)
  · rw [retired, Table.mem_update] at inside
    rcases inside with ⟨old, _, _, rfl⟩ | ⟨old, unselected⟩
    · exact demotes.state old active
    · have ofCurrent : SameCredential current other := by
        rcases sameCredential_iff.mp same with ⟨otherTenant, otherCredential⟩
        refine sameCredential_iff.mpr ⟨?_, ?_⟩
        · exact otherTenant.trans (tenant.trans ofTenant.symm)
        · exact otherCredential.trans (credential.trans ofCredential.symm)
      rw [← numbered.oneActive rotates.stored old ofCurrent rotates.active
        active, retires, isOf_self, decide_eq_true rfl,
        SecretLifecycleVersionRow.isActive,
        decide_eq_true rotates.active] at unselected
      cases unselected

/-! ## Frozen revocations -/

theorem revoked_of_update (demotes : Demotes selected change)
    (versions : after.versions = Table.update selected change db.versions)
    (inside : row ∈ db.versions) (revoked : row.state = .revoked) :
    row ∈ after.versions := by
  rw [versions, Table.mem_update]
  refine Or.inr ⟨inside, eq_false_of_ne_true fun selected => ?_⟩
  exact demotes.unrevoked row selected revoked

end Mendpoint.Secrets

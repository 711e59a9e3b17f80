import Mendpoint.Secrets.Generations

/-!
# Lineages of material

The material of a version is what its envelope holds.  Where callers name the
lineage of the material truthfully, versions with one material are labelled
alike, and no material which has been revoked is in use.
-/

namespace Mendpoint.Secrets

open Mendpoint.Library
open Mendpoint.Library.Attempt
open Mendpoint.Library.Run

universe u

section Lineage

variable {M : Type u} (materialOf : Envelope → M)
variable (lineageOf : String → M → String)

/-! ## Truthful callers -/

/-- A new version has the lineage of its material under its own key. -/
def TrueLabel (input : SecretLifecycleInput) : Prop :=
  input.materialLineageId =
    lineageOf input.materialLineageKeyId (materialOf input.envelope)

/-- The candidates are lineages of the material, for all keys in use. -/
structure Truthful (db : SecretDb) (input : RotateInput)
    (candidates : List LineageCandidate) : Prop where
  own : TrueLabel materialOf lineageOf input.next
  only : ∀ candidate ∈ candidates, candidate.lineageId =
    lineageOf candidate.keyId (materialOf input.next.envelope)
  complete : ∀ row ∈ db.versions,
    row.isOf input.next.tenantId input.next.credentialId = true →
      ∀ keyId ∈ row.materialLineageKeyId,
        ∃ candidate ∈ candidates, candidate.keyId = keyId

/-! ## The invariant -/

/-- Rows of one credential with the same material. -/
def SameMaterial (row other : SecretLifecycleVersionRow) : Prop :=
  SameCredential row other ∧
    materialOf row.envelope = materialOf other.envelope

/-- Versions are labelled by their material, and revoked with it. -/
structure Labelled (db : SecretDb) : Prop where
  labels : ∀ row ∈ db.versions, ∃ keyId,
    row.materialLineageKeyId = some keyId ∧
      row.materialLineageId =
        some (lineageOf keyId (materialOf row.envelope))
  oneKey : ∀ row ∈ db.versions, ∀ other ∈ db.versions,
    SameMaterial materialOf row other →
      row.materialLineageKeyId = other.materialLineageKeyId
  buried : ∀ row ∈ db.versions, ∀ other ∈ db.versions,
    SameMaterial materialOf row other →
      row.state = .revoked → other.state = .revoked

/-- A row which differs from another one in its state only. -/
structure Carries (row old : SecretLifecycleVersionRow) : Prop where
  tenantId : row.tenantId = old.tenantId
  credentialId : row.credentialId = old.credentialId
  envelope : row.envelope = old.envelope
  lineageId : row.materialLineageId = old.materialLineageId
  lineageKeyId : row.materialLineageKeyId = old.materialLineageKeyId

theorem carries_retire (rotatedAt : String)
    (row : SecretLifecycleVersionRow) :
    Carries (row.retire rotatedAt) row :=
  ⟨rfl, rfl, rfl, rfl, rfl⟩

theorem carries_revoke (input : RevokeInput)
    (row : SecretLifecycleVersionRow) : Carries (row.revoke input) row :=
  ⟨rfl, rfl, rfl, rfl, rfl⟩

variable {materialOf lineageOf}

variable {row : SecretLifecycleVersionRow} {db after : SecretDb}

theorem Carries.sameMaterial {old other oldOther : SecretLifecycleVersionRow}
    (carries : Carries row old) (carriesOther : Carries other oldOther)
    (same : SameMaterial materialOf row other) :
    SameMaterial materialOf old oldOther := by
  rcases same with ⟨credential, material⟩
  rw [sameCredential_iff, carries.tenantId, carries.credentialId,
    carriesOther.tenantId, carriesOther.credentialId] at credential
  rw [carries.envelope, carriesOther.envelope] at material
  exact ⟨sameCredential_iff.mpr credential, material⟩

theorem SameMaterial.symm {other : SecretLifecycleVersionRow}
    (same : SameMaterial materialOf row other) :
    SameMaterial materialOf other row :=
  ⟨same.1.symm, same.2.symm⟩

theorem Labelled.update {selected : SecretLifecycleVersionRow → Bool}
    {change : SecretLifecycleVersionRow → SecretLifecycleVersionRow}
    (isLabelled : Labelled materialOf lineageOf db)
    (carries : ∀ row, Carries (change row) row)
    (versions : after.versions = Table.update selected change db.versions)
    (buried : ∀ old ∈ db.versions, ∀ other ∈ db.versions, SameMaterial
      materialOf old other → selected old = true → (change old).state =
      .revoked → other.state = .revoked ∨ (selected other = true ∧ (change
      other).state = .revoked))
    (unrevoked : ∀ row, selected row = true → row.state ≠ .revoked) :
    Labelled materialOf lineageOf after := by
  have origin : ∀ row ∈ after.versions, ∃ old ∈ db.versions,
      Carries row old := by
    intro row inside
    rw [versions, Table.mem_update] at inside
    rcases inside with ⟨old, there, _, rfl⟩ | ⟨there, _⟩
    · exact ⟨old, there, carries old⟩
    · exact ⟨row, there, rfl, rfl, rfl, rfl, rfl⟩
  refine ⟨fun row inside => ?_, fun row inside other within same => ?_,
    fun row inside other within same revoked => ?_⟩
  · rcases origin row inside with ⟨old, there, isCarried⟩
    rw [isCarried.lineageKeyId, isCarried.lineageId, isCarried.envelope]
    exact isLabelled.labels old there
  · rcases origin row inside with ⟨old, there, isCarried⟩
    rcases origin other within with ⟨oldOther, otherThere, otherCarried⟩
    rw [isCarried.lineageKeyId, otherCarried.lineageKeyId]
    exact isLabelled.oneKey old there oldOther otherThere
      (isCarried.sameMaterial otherCarried same)
  · rw [versions, Table.mem_update] at inside within
    have self : ∀ row, Carries row row :=
      fun _ => ⟨rfl, rfl, rfl, rfl, rfl⟩
    rcases inside with ⟨old, there, chosen, rfl⟩ | ⟨there, _⟩
    · rcases within with
        ⟨oldOther, otherThere, otherChosen, rfl⟩ | ⟨otherThere, notChosen⟩
      · have same' := (carries old).sameMaterial (carries oldOther) same
        rcases buried old there oldOther otherThere same' chosen revoked with
          already | ⟨_, later⟩
        · exact absurd already (unrevoked oldOther otherChosen)
        · exact later
      · have same' := (carries old).sameMaterial (self other) same
        rcases buried old there other otherThere same' chosen revoked with
          already | ⟨isChosen, _⟩
        · exact already
        · rw [notChosen] at isChosen
          cases isChosen
    · rcases within with
        ⟨oldOther, otherThere, otherChosen, rfl⟩ | ⟨otherThere, _⟩
      · have same' := (self row).sameMaterial (carries oldOther) same
        exact absurd
          (isLabelled.buried row there oldOther otherThere same' revoked)
          (unrevoked oldOther otherChosen)
      · exact isLabelled.buried row there other otherThere same revoked

theorem Labelled.append (isLabelled : Labelled materialOf lineageOf db)
    (appends : Appends db after row)
    (label : ∃ keyId, row.materialLineageKeyId = some keyId ∧
      row.materialLineageId = some (lineageOf keyId (materialOf
      row.envelope)))
    (joins : ∀ other ∈ db.versions, SameMaterial materialOf row other →
      row.materialLineageKeyId = other.materialLineageKeyId ∧ other.state ≠
      .revoked) (valid : row.state ≠ .revoked) :
    Labelled materialOf lineageOf after := by
  have rows : ∀ other, other ∈ after.versions ↔
      other ∈ db.versions ∨ other = row := by
    intro other
    rw [appends.versions, List.mem_append, List.mem_singleton]
  refine ⟨fun other inside => ?_, fun first inside second within same => ?_,
    fun first inside second within same revoked => ?_⟩
  · rcases (rows other).mp inside with old | rfl
    · exact isLabelled.labels other old
    · exact label
  · rcases (rows first).mp inside with old | rfl
    · rcases (rows second).mp within with oldSecond | rfl
      · exact isLabelled.oneKey first old second oldSecond same
      · exact (joins first old same.symm).1.symm
    · rcases (rows second).mp within with oldSecond | rfl
      · exact (joins second oldSecond same).1
      · rfl
  · rcases (rows first).mp inside with old | rfl
    · rcases (rows second).mp within with oldSecond | rfl
      · exact isLabelled.buried first old second oldSecond same revoked
      · exact absurd revoked (joins first old same.symm).2
    · exact absurd revoked valid

/-! ## The calls keep the invariant -/

theorem Labelled.create {input : SecretLifecycleInput}
    (isLabelled : Labelled materialOf lineageOf db) (numbered : Numbered db)
    (own : TrueLabel materialOf lineageOf input)
    (first : input.generation = 1) (appends : Appends db after input.row) :
    Labelled materialOf lineageOf after := by
  refine isLabelled.append appends
    ⟨input.materialLineageKeyId, rfl, congrArg some own⟩ ?_ ?_
  · intro other inside same
    exact absurd same.1 (numbered.alone first appends inside)
  · intro same
    cases same

theorem Labelled.revoke {input : RevokeInput}
    {existing : SecretLifecycleVersionRow}
    (isLabelled : Labelled materialOf lineageOf db)
    (revoked : Revoked db after input existing) :
    Labelled materialOf lineageOf after := by
  have demotes := demotes_revoke existing input
  refine isLabelled.update (carries_revoke input) revoked.versions ?_
    demotes.unrevoked
  intro old there other otherThere same chosen _
  by_cases already : other.state = .revoked
  · exact Or.inl already
  refine Or.inr ⟨?_, rfl⟩
  rcases isLabelled.labels existing revoked.stored with
    ⟨keyId, isKey, isLineage⟩
  rcases isLabelled.labels old there with ⟨oldKey, isOldKey, isOldLineage⟩
  rcases isLabelled.labels other otherThere with
    ⟨otherKey, isOtherKey, isOtherLineage⟩
  have keys := isLabelled.oneKey old there other otherThere same
  rw [isOldKey, isOtherKey, Option.some.injEq] at keys
  rw [SecretLifecycleVersionRow.shares, isLineage, isKey] at chosen ⊢
  simp only [Bool.and_eq_true, Bool.or_eq_true, decide_eq_true_eq,
    isOldKey, isOldLineage, Option.some.injEq, reduceCtorEq, false_or,
    or_false] at chosen
  simp only [Bool.and_eq_true, Bool.or_eq_true, decide_eq_true_eq,
    isOtherKey, isOtherLineage, Option.some.injEq, reduceCtorEq, false_or,
    or_false]
  rcases chosen with ⟨⟨isOf, _⟩, lineage, key⟩
  have ofExisting : SameCredential existing other :=
    SameCredential.trans isOf same.1
  refine ⟨⟨ofExisting, already⟩, ?_, keys.symm.trans key⟩
  rw [← keys, ← same.2]
  exact lineage

theorem Labelled.rotate {input : RotateInput}
    {candidates : List LineageCandidate}
    (injective : ∀ keyId, Function.Injective (lineageOf keyId))
    (isLabelled : Labelled materialOf lineageOf db)
    (truthful : Truthful materialOf lineageOf db input candidates)
    (rotated : Rotated db after input candidates) :
    Labelled materialOf lineageOf after := by
  rcases rotated.rows with
    ⟨current, retained, middle, rotates, retired, appends⟩
  have demotes := demotes_retire current input.rotatedAt
  have isMiddle : Labelled materialOf lineageOf middle := by
    refine isLabelled.update (carries_retire input.rotatedAt) retired ?_
      demotes.unrevoked
    intro _ _ _ _ _ _ impossible
    cases impossible
  rcases relabel_row input.next retained with
    ⟨tenant, credential, _, active, envelope⟩
  -- Every version with the material is matched by a candidate.
  have matched : ∀ other ∈ db.versions,
      SameMaterial materialOf (input.next.relabel retained).row other →
        ∃ candidate ∈ candidates,
          other.matches input.next candidate = true := by
    intro other inside same
    rcases isLabelled.labels other inside with ⟨keyId, isKey, isLineage⟩
    have isOf : other.isOf input.next.tenantId input.next.credentialId =
        true := by
      have credentials := same.1
      rw [SameCredential, tenant, credential] at credentials
      exact credentials
    rcases truthful.complete other inside isOf keyId isKey with
      ⟨candidate, member, rfl⟩
    refine ⟨candidate, member, ?_⟩
    have material := same.2
    rw [envelope] at material
    rw [SecretLifecycleVersionRow.matches, isOf, isKey, isLineage,
      truthful.only candidate member, material, decide_eq_true rfl,
      decide_eq_true rfl]
    rfl
  -- A version which a candidate matches has the material.
  have material_of : ∀ candidate ∈ candidates, ∀ other ∈ db.versions,
      other.matches input.next candidate = true →
        other.materialLineageKeyId = some candidate.keyId ∧
          materialOf other.envelope = materialOf input.next.envelope := by
    intro candidate member other inside isMatch
    rcases isLabelled.labels other inside with ⟨keyId, isKey, isLineage⟩
    rw [SecretLifecycleVersionRow.matches, isKey, isLineage,
      truthful.only candidate member] at isMatch
    simp only [Bool.and_eq_true, Bool.or_eq_true, decide_eq_true_eq,
      Option.some.injEq, reduceCtorEq, or_false] at isMatch
    rcases isMatch with ⟨⟨_, lineage⟩, sameKey⟩
    rw [sameKey] at isKey lineage
    exact ⟨isKey, injective candidate.keyId lineage⟩
  have joins : ∀ other ∈ db.versions,
      SameMaterial materialOf (input.next.relabel retained).row other →
        (input.next.relabel retained).row.materialLineageKeyId =
            other.materialLineageKeyId ∧
          other.state ≠ .revoked := by
    intro other inside same
    rcases matched other inside same with ⟨candidate, member, isMatch⟩
    refine ⟨?_, rotates.retains.unrevoked candidate member other inside
      isMatch⟩
    cases retained with
    | none =>
      rw [rotates.retains.unmatched rfl candidate member other inside]
        at isMatch
      cases isMatch
    | some lineage =>
      rcases rotates.retains.origin lineage rfl with
        impossible | ⟨chosen, chosenMember, row, there, rowMatch, isLineage⟩
      · cases impossible
      · rcases material_of chosen chosenMember row there rowMatch with
          ⟨rowKey, rowMaterial⟩
        have sameRow : SameMaterial materialOf row other := by
          refine ⟨?_, ?_⟩
          · rw [SecretLifecycleVersionRow.matches, Bool.and_eq_true,
              Bool.and_eq_true] at rowMatch
            rcases isOf_iff.mp rowMatch.1.1 with ⟨rowTenant, rowCredential⟩
            have credentials := same.1
            rw [SameCredential, tenant, credential, ← rowTenant,
              ← rowCredential] at credentials
            exact credentials
          · have material := same.2
            rw [envelope] at material
            exact rowMaterial.trans material
        rw [← isLabelled.oneKey row there other inside sameRow, rowKey,
          isLineage]
        show some (row.materialLineageKeyId.getD chosen.keyId) = _
        rw [rowKey]
        rfl
  refine isMiddle.append appends ?_ ?_ ?_
  · rw [envelope]
    cases retained with
    | none => exact ⟨_, rfl, congrArg some truthful.own⟩
    | some lineage =>
      rcases rotates.retains.origin lineage rfl with
        impossible | ⟨chosen, chosenMember, row, there, rowMatch, rfl⟩
      · cases impossible
      · rcases material_of chosen chosenMember row there rowMatch with
          ⟨rowKey, rowMaterial⟩
        rcases isLabelled.labels row there with ⟨keyId, isKey, isLineage⟩
        refine ⟨keyId, ?_, ?_⟩
        · show some (row.materialLineageKeyId.getD chosen.keyId) = _
          rw [isKey]
          rfl
        · show some (row.materialLineageId.getD chosen.lineageId) = _
          rw [isLineage, rowMaterial]
          rfl
  · intro other inside same
    rw [retired, Table.mem_update] at inside
    rcases inside with ⟨old, there, _, rfl⟩ | ⟨there, _⟩
    · refine ⟨(joins old there same).1, fun impossible => ?_⟩
      cases impossible
    · exact joins other there same
  · rw [active]
    intro impossible
    cases impossible

end Lineage

end Mendpoint.Secrets

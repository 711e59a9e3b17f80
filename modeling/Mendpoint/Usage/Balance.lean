import Mendpoint.Library.Run
import Mendpoint.Usage.Portions

/-!
# Balances

The books of the usage ledger: what is reserved and what is consumed of an
entitlement is not negative and stays within its quota, and a reservation is
open with its whole amount until one settlement or release closes it.
-/

namespace Mendpoint.Usage

open Mendpoint.Library
open Mendpoint.Library.Attempt
open Mendpoint.Library.FilteredSum

/-! ## The invariant -/

/-- The entries which refer to a reservation. -/
def references (db : UsageDb) (reservationId : String) :
    List UsageLedgerEntry :=
  db.entries.filter fun entry =>
    decide (entry.reservationId = some reservationId)

/-- What is left of a reservation after the entries which refer to it. -/
def outstanding (db : UsageDb) (hold : UsageLedgerEntry) : Int :=
  hold.reservedMcuMicrosDelta + reservedSum (references db hold.id)

/-- A settlement or a release. -/
def Closes (entry : UsageLedgerEntry) : Prop :=
  entry.entryType = .settlement ∨ entry.entryType = .release

/-- A reservation is open, or one entry has closed it. -/
def OpenOrClosed (db : UsageDb) (hold : UsageLedgerEntry) : Prop :=
  references db hold.id = [] ∨
    ∃ closing, references db hold.id = [closing] ∧ Closes closing ∧
      closing.reservedMcuMicrosDelta = -hold.reservedMcuMicrosDelta

/-- The reservation to whose balance an entry belongs. -/
def holdKey (entry : UsageLedgerEntry) : String :=
  entry.reservationId.getD entry.id

/-- An entry is for an entitlement of a tenant. -/
def forEntitlement (tenantId entitlementId : String)
    (entry : UsageLedgerEntry) : Bool :=
  decide (entry.tenantId = tenantId ∧ entry.entitlementId = entitlementId)

/-- The entitlement of an entry, and its price. -/
def Placed (db : UsageDb) (entry : UsageLedgerEntry)
    (entitlement : UsageEntitlement) : Prop :=
  entitlement ∈ db.entitlements ∧ entitlement.id = entry.entitlementId ∧
    entitlement.tenantId = entry.tenantId ∧
    entitlement.priceVersionId = entry.priceVersion

/-- An entry refers to a reservation of its tenant and entitlement. -/
structure RefersTo (entries : List UsageLedgerEntry)
    (entry hold : UsageLedgerEntry) : Prop where
  member : hold ∈ entries
  isHold : hold.entryType = .reservation
  tenantId : hold.tenantId = entry.tenantId
  entitlementId : hold.entitlementId = entry.entitlementId

structure Books (db : UsageDb) : Prop where
  ids : (db.entries.map UsageLedgerEntry.id).Nodup
  entitlementIds : (db.entitlements.map UsageEntitlement.id).Nodup
  placed : ∀ entry ∈ db.entries, ∃ entitlement, Placed db entry entitlement
  closings : ∀ entry ∈ db.entries, ∀ reservationId,
    entry.reservationId = some reservationId →
      ∃ hold, hold.id = reservationId ∧ RefersTo db.entries entry hold
  holds : ∀ entry ∈ db.entries, entry.entryType = .reservation →
    entry.reservationId = none ∧ 0 < entry.reservedMcuMicrosDelta
  settled : ∀ hold ∈ db.entries, hold.entryType = .reservation →
    OpenOrClosed db hold
  reserved : ∀ tenantId entitlementId (among : String → Bool),
    0 ≤ sumWhere UsageLedgerEntry.reservedMcuMicrosDelta (fun entry =>
      forEntitlement tenantId entitlementId entry &&
        among (holdKey entry)) db.entries
  consumed : ∀ tenantId entitlementId,
    0 ≤ consumedSum (entitlementEntries db tenantId entitlementId)
  quota : ∀ entitlement ∈ db.entitlements,
    reservedSum (entitlementEntries db entitlement.tenantId entitlement.id) +
      consumedSum (entitlementEntries db entitlement.tenantId
        entitlement.id) ≤ entitlement.quotaMcuMicros

theorem books_empty (identities : Identities) :
    Books (UsageDb.empty identities) where
  ids := List.nodup_nil
  entitlementIds := List.nodup_nil
  placed := List.forall_mem_nil _
  closings := List.forall_mem_nil _
  holds := List.forall_mem_nil _
  settled := List.forall_mem_nil _
  reserved _ _ _ := Int.le_refl 0
  consumed _ _ := Int.le_refl 0
  quota := List.forall_mem_nil _

theorem Books.congr {db after : UsageDb} (books : Books db)
    (entitlements : after.entitlements = db.entitlements)
    (entries : after.entries = db.entries) : Books after := by
  rcases db with ⟨identities, prices, _, _, authorizations, finance, legacy⟩
  rcases after with
    ⟨identities', prices', _, _, authorizations', finance', legacy'⟩
  cases entitlements
  cases entries
  exact ⟨books.ids, books.entitlementIds, books.placed, books.closings,
    books.holds, books.settled, books.reserved, books.consumed, books.quota⟩

namespace Books

variable {db : UsageDb}

theorem eq_of_id (books : Books db) {entry other : UsageLedgerEntry}
    (member : entry ∈ db.entries) (memberOther : other ∈ db.entries)
    (same : entry.id = other.id) : entry = other :=
  List.inj_on_of_nodup_map books.ids member memberOther same

theorem entitlement_eq_of_id (books : Books db)
    {entitlement other : UsageEntitlement}
    (member : entitlement ∈ db.entitlements)
    (memberOther : other ∈ db.entitlements)
    (same : entitlement.id = other.id) : entitlement = other :=
  List.inj_on_of_nodup_map books.entitlementIds member memberOther same

theorem holdEntries_sum (books : Books db) {hold : UsageLedgerEntry}
    (member : hold ∈ db.entries) (isHold : hold.entryType = .reservation) :
    reservedSum (holdEntries db hold.tenantId hold.id) =
      outstanding db hold := by
  have split := sumWhere_split UsageLedgerEntry.reservedMcuMicrosDelta
    (fun entry => decide (entry.tenantId = hold.tenantId ∧
      (entry.id = hold.id ∨ entry.reservationId = some hold.id)))
    (fun entry => decide (entry.id = hold.id)) db.entries
  have itself : sumWhere UsageLedgerEntry.reservedMcuMicrosDelta
      (fun entry => decide (entry.tenantId = hold.tenantId ∧
        (entry.id = hold.id ∨ entry.reservationId = some hold.id)) &&
          decide (entry.id = hold.id)) db.entries =
      hold.reservedMcuMicrosDelta := by
    refine Eq.trans (sumWhere_congr ?_) (sumWhere_key books.ids member)
    intro entry inside
    by_cases same : entry.id = hold.id
    · cases books.eq_of_id inside member same
      simp
    · simp [same]
  have others : sumWhere UsageLedgerEntry.reservedMcuMicrosDelta
      (fun entry => decide (entry.tenantId = hold.tenantId ∧
        (entry.id = hold.id ∨ entry.reservationId = some hold.id)) &&
          !decide (entry.id = hold.id)) db.entries =
      reservedSum (references db hold.id) := by
    apply sumWhere_congr
    intro entry inside
    by_cases refers : entry.reservationId = some hold.id
    · rcases books.closings entry inside hold.id refers with
        ⟨other, same, referred⟩
      cases books.eq_of_id referred.member member same
      have notItself : entry.id ≠ hold.id := by
        intro same
        cases books.eq_of_id inside member same
        rw [(books.holds _ inside isHold).1] at refers
        cases refers
      simp [refers, referred.tenantId, notItself]
    · by_cases same : entry.id = hold.id
      · simp [refers, same]
      · simp [refers, same]
  rw [outstanding, ← itself, ← others]
  exact split

end Books

/-! ## One entry more -/

/-- What an entry is allowed to be when it is written. -/
inductive Kind (db : UsageDb) (row : UsageLedgerEntry) : Prop where
  | reservation (isHold : row.entryType = .reservation)
      (alone : row.reservationId = none)
      (positive : 0 < row.reservedMcuMicrosDelta)
  | closing (hold : UsageLedgerEntry) (closes : Closes row)
      (refers : row.reservationId = some hold.id)
      (referred : RefersTo db.entries row hold)
      (open_ : references db hold.id = [])
      (whole : row.reservedMcuMicrosDelta = -hold.reservedMcuMicrosDelta)
  | financial (isFinancial : row.entryType.Financial)
      (alone : row.reservationId = none)
      (nothing : row.reservedMcuMicrosDelta = 0)

/-- What is known of an entry and the books when it is written. -/
structure Entered (db : UsageDb) (row : UsageLedgerEntry) : Prop where
  newId : ∀ entry ∈ db.entries, entry.id ≠ row.id
  placed : ∃ entitlement, Placed db row entitlement
  kind : Kind db row
  consumed : 0 ≤ consumedSum
    (entitlementEntries db row.tenantId row.entitlementId) +
      row.consumedMcuMicrosDelta
  quota : ∀ entitlement, Placed db row entitlement →
    reservedSum (entitlementEntries db row.tenantId row.entitlementId) +
      row.reservedMcuMicrosDelta +
      (consumedSum (entitlementEntries db row.tenantId row.entitlementId) +
        row.consumedMcuMicrosDelta) ≤ entitlement.quotaMcuMicros

theorem reservedSum_withEntry (db : UsageDb) (row : UsageLedgerEntry)
    (tenantId entitlementId : String) :
    reservedSum (entitlementEntries (db.withEntry row) tenantId
        entitlementId) =
      reservedSum (entitlementEntries db tenantId entitlementId) +
        if forEntitlement tenantId entitlementId row then
          row.reservedMcuMicrosDelta
        else 0 :=
  sumWhere_concat _ (forEntitlement tenantId entitlementId) _ _

theorem consumedSum_withEntry (db : UsageDb) (row : UsageLedgerEntry)
    (tenantId entitlementId : String) :
    consumedSum (entitlementEntries (db.withEntry row) tenantId
        entitlementId) =
      consumedSum (entitlementEntries db tenantId entitlementId) +
        if forEntitlement tenantId entitlementId row then
          row.consumedMcuMicrosDelta
        else 0 :=
  sumWhere_concat _ (forEntitlement tenantId entitlementId) _ _

theorem references_withEntry (db : UsageDb) (row : UsageLedgerEntry)
    (reservationId : String) :
    references (db.withEntry row) reservationId =
      references db reservationId ++
        if row.reservationId = some reservationId then [row] else [] := by
  rw [references, entries_withEntry, List.filter_append, references]
  split
  · next refers =>
      rw [List.filter_cons_of_pos, List.filter_nil]
      exact decide_eq_true refers
  · next other =>
      rw [List.filter_cons_of_neg, List.filter_nil]
      rw [decide_eq_true_eq]
      exact other

namespace Books

variable {db : UsageDb} {row : UsageLedgerEntry}

theorem reserved_of_open (books : Books db) {hold : UsageLedgerEntry}
    (member : hold ∈ db.entries) (isHold : hold.entryType = .reservation)
    (open_ : references db hold.id = []) {among : String → Bool}
    (isAmong : among hold.id = true) :
    sumWhere UsageLedgerEntry.reservedMcuMicrosDelta (fun entry =>
        (forEntitlement hold.tenantId hold.entitlementId entry &&
          among (holdKey entry)) && decide (holdKey entry = hold.id))
        db.entries = hold.reservedMcuMicrosDelta := by
  refine Eq.trans (sumWhere_congr ?_) (sumWhere_key books.ids member)
  intro entry inside
  have keyIff : holdKey entry = hold.id ↔ entry.id = hold.id := by
    constructor
    · intro same
      cases refers : entry.reservationId with
      | none =>
        rw [holdKey, refers] at same
        exact same
      | some reservationId =>
        rw [holdKey, refers, Option.getD_some] at same
        have isReference : entry ∈ references db hold.id := by
          rw [references, List.mem_filter]
          exact ⟨inside, decide_eq_true (refers.trans (congrArg some same))⟩
        rw [open_] at isReference
        cases isReference
    · intro same
      cases books.eq_of_id inside member same
      rw [holdKey, (books.holds _ inside isHold).1]
      rfl
  by_cases same : entry.id = hold.id
  · cases books.eq_of_id inside member same
    have key := keyIff.mpr rfl
    simp [key, isAmong, forEntitlement]
  · have notKey : holdKey entry ≠ hold.id := fun key => same (keyIff.mp key)
    simp [notKey, same]

theorem reserved_withEntry (books : Books db) (entered : Entered db row)
    (tenantId entitlementId : String) (among : String → Bool) :
    0 ≤ sumWhere UsageLedgerEntry.reservedMcuMicrosDelta (fun entry =>
      forEntitlement tenantId entitlementId entry && among (holdKey entry))
      (db.withEntry row).entries := by
  rw [entries_withEntry, sumWhere_concat]
  have before := books.reserved tenantId entitlementId among
  split
  · next selected =>
      cases entered.kind with
      | reservation isHold alone positive => omega
      | financial isFinancial alone nothing => omega
      | closing hold closes refers referred open_ whole =>
        rw [Bool.and_eq_true, forEntitlement, decide_eq_true_eq,
          holdKey, refers, Option.getD_some] at selected
        rcases selected with ⟨⟨sameTenant, sameEntitlement⟩, isAmong⟩
        have others := books.reserved tenantId entitlementId fun key =>
          among key && !decide (key = hold.id)
        have itself := books.reserved_of_open referred.member
          referred.isHold open_ isAmong
        rw [referred.tenantId, referred.entitlementId, sameTenant,
          sameEntitlement] at itself
        rw [sumWhere_split _ _ fun entry =>
          decide (holdKey entry = hold.id), itself, whole]
        simp only [← Bool.and_assoc] at others
        omega
  · omega

theorem openOrClosed_withEntry (books : Books db) (entered : Entered db row)
    {hold : UsageLedgerEntry} (member : hold ∈ (db.withEntry row).entries)
    (isHold : hold.entryType = .reservation) :
    OpenOrClosed (db.withEntry row) hold := by
  rw [OpenOrClosed, references_withEntry]
  rw [entries_withEntry, List.mem_append, List.mem_singleton] at member
  rcases member with before | rfl
  · cases entered.kind with
    | reservation _ alone _ =>
      rw [alone, if_neg nofun, List.append_nil]
      exact books.settled hold before isHold
    | financial _ alone _ =>
      rw [alone, if_neg nofun, List.append_nil]
      exact books.settled hold before isHold
    | closing closed closes refers referred open_ whole =>
      by_cases same : closed.id = hold.id
      · cases books.eq_of_id referred.member before same
        rw [if_pos refers, open_]
        exact .inr ⟨row, rfl, closes, whole⟩
      · rw [if_neg, List.append_nil]
        · exact books.settled hold before isHold
        · rw [refers]
          exact fun equal => same (Option.some.inj equal)
  · have alone : hold.reservationId ≠ some hold.id := by
      cases entered.kind with
      | reservation _ alone _ =>
        rw [alone]
        exact nofun
      | financial isFinancial _ _ =>
        rw [isHold] at isFinancial
        cases isFinancial
      | closing _ closes _ _ _ _ =>
        rw [Closes, isHold] at closes
        rcases closes with impossible | impossible
        · cases impossible
        · cases impossible
    rw [if_neg alone, List.append_nil, references,
      List.filter_eq_nil_iff.mpr]
    · exact .inl rfl
    · intro entry inside refers
      rw [decide_eq_true_eq] at refers
      rcases books.closings entry inside _ refers with
        ⟨other, same, referred⟩
      exact entered.newId other referred.member same

theorem withEntry (books : Books db) (entered : Entered db row) :
    Books (db.withEntry row) where
  ids := by
    rw [entries_withEntry, List.map_append, List.map_singleton,
      List.nodup_append]
    refine ⟨books.ids, List.nodup_singleton _, ?_⟩
    intro id member other isRow same
    rw [List.mem_singleton] at isRow
    rcases List.mem_map.mp member with ⟨entry, inside, rfl⟩
    exact entered.newId entry inside (same.trans isRow)
  entitlementIds := books.entitlementIds
  placed := by
    intro entry member
    rw [entries_withEntry, List.mem_append, List.mem_singleton] at member
    rcases member with before | rfl
    · exact books.placed entry before
    · exact entered.placed
  closings := by
    intro entry member reservationId refers
    rw [entries_withEntry, List.mem_append, List.mem_singleton] at member
    have wider {hold : UsageLedgerEntry}
        (referred : RefersTo db.entries entry hold) :
        RefersTo (db.withEntry row).entries entry hold :=
      ⟨List.mem_append_left _ referred.member, referred.isHold,
        referred.tenantId, referred.entitlementId⟩
    rcases member with before | rfl
    · rcases books.closings entry before _ refers with
        ⟨hold, same, referred⟩
      exact ⟨hold, same, wider referred⟩
    · cases entered.kind with
      | reservation _ alone _ =>
        rw [alone] at refers
        cases refers
      | financial _ alone _ =>
        rw [alone] at refers
        cases refers
      | closing hold closes isReference referred _ _ =>
        rw [isReference] at refers
        exact ⟨hold, Option.some.inj refers, wider referred⟩
  holds := by
    intro entry member isHold
    rw [entries_withEntry, List.mem_append, List.mem_singleton] at member
    rcases member with before | rfl
    · exact books.holds entry before isHold
    · cases entered.kind with
      | reservation _ alone positive => exact ⟨alone, positive⟩
      | financial isFinancial _ _ =>
        rw [isHold] at isFinancial
        cases isFinancial
      | closing _ closes _ _ _ _ =>
        rw [Closes, isHold] at closes
        rcases closes with impossible | impossible
        · cases impossible
        · cases impossible
  settled hold member isHold :=
    books.openOrClosed_withEntry entered member isHold
  reserved := books.reserved_withEntry entered
  consumed := by
    intro tenantId entitlementId
    rw [consumedSum_withEntry]
    have before := books.consumed tenantId entitlementId
    split
    · next selected =>
        rw [forEntitlement, decide_eq_true_eq] at selected
        rcases selected with ⟨rfl, rfl⟩
        exact entered.consumed
    · omega
  quota := by
    intro entitlement member
    rw [reservedSum_withEntry, consumedSum_withEntry]
    have before := books.quota entitlement member
    split
    · next selected =>
        rw [forEntitlement, decide_eq_true_eq] at selected
        rcases entered.placed with ⟨other, placed⟩
        cases books.entitlement_eq_of_id placed.1 member
          (placed.2.1.trans selected.2)
        rw [← selected.1, ← selected.2]
        exact entered.quota entitlement placed
    · omega

end Books

end Mendpoint.Usage

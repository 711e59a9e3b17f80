import Mendpoint.Library.CanonicalJson
import Mendpoint.Library.Fallible
import Mendpoint.Library.Succession
import Mendpoint.Usage.Audit

/-!
# Tamper evidence

A ledger which the auditor goes through without an error is a hash chain of
authorized and attested entries, and its last hash determines every field of
every entry, but for the difference between no provenance and `measured`,
which the hash leaves out on purpose.
-/

namespace Mendpoint.Usage

open Mendpoint.Library
open Mendpoint.Library.Attempt
open Mendpoint.Library.HashChain

/-! ## What a turn of the loop has checked -/

/-- What the auditor finds of an entry behind a hash at an index. -/
structure Examined (runtime : Runtime) (db : UsageDb)
    (previousHash : Option String) (index : Nat)
    (entry : UsageLedgerEntry) : Prop where
  intact : Intact runtime previousHash index entry
  authorized : financeAuthorizationMatchesEntry runtime db entry = true

/-- No entry of the ledger of a tenant stops its reconciliation. -/
def Passes (runtime : Runtime) (db : UsageDb) (tenantId : String) : Prop :=
  ∃ tally, examineFrom runtime db 0 Tally.start (ledger db tenantId) =
    .ok tally

variable {runtime : Runtime} {db : UsageDb} {index : Nat} {tally : Tally}
  {entry : UsageLedgerEntry} {after : Tally} {input other : EntryInput}

theorem examineRecord_eq_ok {next : Tally} :
    examineRecord runtime db index tally entry = .ok next ↔
      Examined runtime db tally.previousHash index entry ∧
        (if isLegacyUnverifiedFinanceEntry db entry then
          { tally with legacyFinance := tally.legacyFinance ++ [entry.id] }
        else tally) = next := by
  rw [examineRecord, Fallible.bind_eq_ok]
  constructor
  · rintro ⟨_, intact, rest⟩
    rw [rejectIf_eq_ok, not_not] at intact
    rcases Fallible.bind_eq_ok.mp rest with ⟨_, authorized, last⟩
    rw [rejectIf_eq_ok, Bool.not_eq_false] at authorized
    refine ⟨⟨intact, authorized⟩, ?_⟩
    split
    · next legacy =>
        rw [if_pos legacy] at last
        exact Fallible.pure_eq_ok.mp last
    · next current =>
        rw [if_neg current] at last
        exact Fallible.pure_eq_ok.mp last
  · rintro ⟨examined, same⟩
    refine ⟨⟨⟩, ?_, ?_⟩
    · rw [rejectIf_eq_ok, not_not]
      exact examined.intact
    · rw [Fallible.bind_eq_ok]
      refine ⟨⟨⟩, ?_, ?_⟩
      · rw [rejectIf_eq_ok, Bool.not_eq_false]
        exact examined.authorized
      · split
        · next legacy =>
            rw [if_pos legacy] at same
            exact Fallible.pure_eq_ok.mpr same
        · next current =>
            rw [if_neg current] at same
            exact Fallible.pure_eq_ok.mpr same

theorem examined_of_examine {next : Tally}
    (examined : examine runtime db index tally entry = .ok next) :
    Examined runtime db tally.previousHash index entry ∧
      next.previousHash = some entry.entryHash := by
  rw [examine, Fallible.bind_eq_ok] at examined
  rcases examined with ⟨recorded, record, rest⟩
  refine ⟨(examineRecord_eq_ok.mp record).1, ?_⟩
  rcases Fallible.bind_eq_ok.mp rest with ⟨_, _, rest⟩
  rcases Fallible.bind_eq_ok.mp rest with ⟨_, _, rest⟩
  rcases Fallible.bind_eq_ok.mp rest with ⟨_, _, rest⟩
  rcases Fallible.bind_eq_ok.mp rest with ⟨_, _, last⟩
  rw [← Fallible.pure_eq_ok.mp last]

/-- The tally after the deltas of an entry are added. -/
def Tally.plus (tally : Tally) (entry : UsageLedgerEntry) : Tally :=
  { tally with
    reserved := SafeInteger.add tally.reserved entry.reservedMcuMicrosDelta
    consumed := SafeInteger.add tally.consumed entry.consumedMcuMicrosDelta }

theorem examine_of_checks {recorded proven held billed : Tally}
    (record : examineRecord runtime db index tally entry = .ok recorded)
    (provenance : examineProvenance db index recorded entry = .ok proven)
    (reservation : examineReservation index (proven.plus entry) entry = .ok
      held) (balanced : ¬ (held.reserved < 0 ∨ held.consumed < 0))
    (invoice : examineInvoice index held entry = .ok billed) :
    examine runtime db index tally entry =
      .ok { billed with previousHash := some entry.entryHash } := by
  rw [examine, Fallible.bind_eq_ok]
  refine ⟨recorded, record, Fallible.bind_eq_ok.mpr ⟨proven, provenance, ?_⟩⟩
  refine Fallible.bind_eq_ok.mpr ⟨held, reservation, ?_⟩
  refine Fallible.bind_eq_ok.mpr ⟨⟨⟩, rejectIf_eq_ok.mpr balanced, ?_⟩
  exact Fallible.bind_eq_ok.mpr ⟨billed, invoice, rfl⟩

/-! ## The loop -/

theorem examineFrom_append {first second : List UsageLedgerEntry} :
    examineFrom runtime db index tally (first ++ second) = .ok after ↔
      ∃ middle, examineFrom runtime db index tally first = .ok middle ∧
        examineFrom runtime db (index + first.length) middle second =
          .ok after := by
  induction first generalizing index tally with
  | nil =>
    rw [List.nil_append, List.length_nil, Nat.add_zero]
    constructor
    · exact fun done => ⟨tally, rfl, done⟩
    · rintro ⟨middle, same, done⟩
      cases same
      exact done
  | cons entry rest inductionHypothesis =>
    rw [List.cons_append, examineFrom, examineFrom, Fallible.bind_eq_ok,
      List.length_cons, Nat.add_comm rest.length 1, ← Nat.add_assoc]
    constructor
    · rintro ⟨next, turned, done⟩
      rcases inductionHypothesis.mp done with ⟨middle, before, later⟩
      exact ⟨middle, Fallible.bind_eq_ok.mpr ⟨next, turned, before⟩, later⟩
    · rintro ⟨middle, before, later⟩
      rcases Fallible.bind_eq_ok.mp before with ⟨next, turned, done⟩
      exact ⟨next, turned, inductionHypothesis.mpr ⟨middle, done, later⟩⟩

theorem previousHash_of_examineFrom {entries : List UsageLedgerEntry}
    (examined : examineFrom runtime db 0 Tally.start entries = .ok after) :
    after.previousHash = lastHash UsageLedgerEntry.entryHash entries := by
  cases entries using List.reverseRecOn with
  | nil =>
    cases examined
    rfl
  | append_singleton front entry =>
    rcases examineFrom_append.mp examined with ⟨middle, _, last⟩
    rcases Fallible.bind_eq_ok.mp last with ⟨next, turned, done⟩
    cases done
    rw [lastHash_append_singleton]
    exact (examined_of_examine turned).2

theorem linked_of_examineFrom {entries : List UsageLedgerEntry}
    (examined : examineFrom runtime db 0 Tally.start entries = .ok after) :
    Linked (Examined runtime db) UsageLedgerEntry.entryHash entries := by
  intro front entry back split
  rw [split] at examined
  rcases examineFrom_append.mp examined with ⟨middle, before, later⟩
  rcases Fallible.bind_eq_ok.mp later with ⟨next, turned, _⟩
  rw [← previousHash_of_examineFrom before]
  rw [Nat.zero_add] at turned
  exact (examined_of_examine turned).1

/-! ## What a hash determines -/

theorem optionalText_injective : Function.Injective optionalText := by
  intro left right same
  cases left with
  | none =>
    cases right with
    | none => rfl
    | some text => cases same
  | some text =>
    cases right with
    | none => cases same
    | some other =>
      cases same
      rfl

/-- Two entries differ at most in a provenance which is not hashed. -/
structure SameButNeutral (entry other : UsageLedgerEntry) : Prop where
  same : { entry with consumptionProvenance := none } =
    { other with consumptionProvenance := none }
  provenance : entry.consumptionProvenance = other.consumptionProvenance ∨
    (Neutral entry.consumptionProvenance ∧
      Neutral other.consumptionProvenance)

theorem common_of_content {entrySequence sequence : Nat}
    (same : commonContent input entrySequence = commonContent other sequence) :
    entrySequence = sequence ∧
      { input with
        financeAuthorizationId := none
        financeAuthorizationDigest := none
        consumptionProvenance := none
        createdAt := "" } =
      { other with
        financeAuthorizationId := none
        financeAuthorizationDigest := none
        consumptionProvenance := none
        createdAt := "" } := by
  simp only [commonContent, List.cons.injEq, Prod.mk.injEq, true_and,
    Written.str.injEq, Written.int.injEq, optionalText_injective.eq_iff,
    UsageEntryType.text_injective.eq_iff, Int.natCast_inj, and_true] at same
  simp only [same, and_self]

theorem finance_of_content {value value' : Written}
    {rest rest' : List (String × Written)}
    (same : financeContent input ++ ("previousHash", value) :: rest =
      financeContent other ++ ("previousHash", value') :: rest') :
    (input.financeAuthorizationId = other.financeAuthorizationId ∧
        (input.financeAuthorizationId ≠ none →
          input.financeAuthorizationDigest =
            other.financeAuthorizationDigest)) ∧
      value = value' ∧ rest = rest' := by
  rw [financeContent, financeContent] at same
  by_cases plain : input.financeAuthorizationId = none
  · rw [if_pos plain, List.nil_append] at same
    by_cases plainOther : other.financeAuthorizationId = none
    · rw [if_pos plainOther, List.nil_append, List.cons.injEq,
        Prod.mk.injEq] at same
      refine ⟨⟨plain.trans plainOther.symm, ?_⟩, same.1.2, same.2⟩
      exact fun named => absurd plain named
    · rw [if_neg plainOther] at same
      have keys : some "previousHash" = some "financeAuthorizationId" :=
        congrArg (fun fields => fields.head?.map Prod.fst) same
      exact absurd (Option.some.inj keys) (by decide)
  · rw [if_neg plain] at same
    by_cases plainOther : other.financeAuthorizationId = none
    · rw [if_pos plainOther] at same
      have keys : some "financeAuthorizationId" = some "previousHash" :=
        congrArg (fun fields => fields.head?.map Prod.fst) same
      exact absurd (Option.some.inj keys) (by decide)
    · rw [if_neg plainOther] at same
      simp only [List.cons_append, List.nil_append, List.cons.injEq,
        Prod.mk.injEq, true_and, optionalText_injective.eq_iff] at same
      exact ⟨⟨same.1, fun _ => same.2.1⟩, same.2.2⟩

theorem provenance_of_content
    (same : provenanceContent input = provenanceContent other) :
    input.consumptionProvenance = other.consumptionProvenance ∨
      (Neutral input.consumptionProvenance ∧
        Neutral other.consumptionProvenance) := by
  rw [provenanceContent, provenanceContent] at same
  by_cases neutral : Neutral input.consumptionProvenance
  · by_cases neutralOther : Neutral other.consumptionProvenance
    · exact .inr ⟨neutral, neutralOther⟩
    · rw [if_pos neutral, if_neg neutralOther] at same
      cases same
  · by_cases neutralOther : Neutral other.consumptionProvenance
    · rw [if_neg neutral, if_pos neutralOther] at same
      cases same
    · rw [if_neg neutral, if_neg neutralOther] at same
      simp only [List.cons.injEq, Prod.mk.injEq, true_and, and_true,
        optionalText_injective.eq_iff] at same
      exact .inl same

theorem digest_of_authorized
    (authorized : financeAuthorizationMatchesEntry runtime db entry = true)
    (plain : entry.financeAuthorizationId = none) :
    entry.financeAuthorizationDigest = none := by
  rw [financeAuthorizationMatchesEntry] at authorized
  split at authorized
  · exact (of_decide_eq_true authorized).2
  · next financial =>
      split at authorized
      · next legacy =>
          rw [isLegacyUnverifiedFinanceEntry, if_neg financial] at legacy
          split at legacy
          · cases legacy
          · next none' =>
              rw [not_or, not_not, not_not] at none'
              exact none'.2
      · rw [plain] at authorized
        cases authorized

theorem determined {other : UsageDb}
    (collisionFree : Function.Injective runtime.sha256)
    {before before' : Option String} {index' : Nat}
    {entry' : UsageLedgerEntry}
    (here : Examined runtime db before index entry)
    (there : Examined runtime other before' index' entry')
    (same : entry.entryHash = entry'.entryHash) :
    before = before' ∧ SameButNeutral entry entry' := by
  have hashes := here.intact.2.2.symm.trans (same.trans there.intact.2.2)
  have contents := Written.stringify_injective (collisionFree hashes)
  rw [Written.obj.injEq, entryContent, entryContent] at contents
  rcases List.append_inj contents rfl with ⟨commons, others⟩
  rcases common_of_content commons with ⟨sequences, fields⟩
  rcases finance_of_content others with ⟨finance, previous, lasts⟩
  rw [List.cons.injEq, Prod.mk.injEq, Written.str.injEq] at lasts
  have sameBefore := optionalText_injective previous
  refine ⟨sameBefore, ?_, provenance_of_content lasts.2⟩
  have digests : entry.financeAuthorizationDigest =
      entry'.financeAuthorizationDigest := by
    by_cases plain : entry.financeAuthorizationId = none
    · rw [digest_of_authorized here.authorized plain,
        digest_of_authorized there.authorized (finance.1.symm.trans plain)]
    · exact finance.2 plain
  have links : entry.previousHash = entry'.previousHash := by
    rw [here.intact.2.1, there.intact.2.1, sameBefore]
  simp only [UsageLedgerEntry.input, EntryInput.mk.injEq, and_true]
    at fields
  simp only [UsageLedgerEntry.input] at finance
  simp only [UsageLedgerEntry.input, true_and] at lasts
  simp only [fields, finance.1, digests, sequences, links, same, lasts.1]

/--
Two ledgers of a tenant which the auditor goes through without an error, and
which have the same last hash, have the same entries in every field; only the
provenance of an entry may be `measured` in one and missing in the other.
-/
theorem ledger_determined {runtime : Runtime} {db other : UsageDb}
    {tenantId : String}
    (collisionFree : Function.Injective runtime.sha256)
    (passes : Passes runtime db tenantId)
    (passesOther : Passes runtime other tenantId)
    (sameLast : lastHash UsageLedgerEntry.entryHash (ledger db tenantId) =
      lastHash UsageLedgerEntry.entryHash (ledger other tenantId)) :
    List.Forall₂ SameButNeutral (ledger db tenantId)
      (ledger other tenantId) := by
  rcases passes with ⟨_, examined⟩
  rcases passesOther with ⟨_, examinedOther⟩
  apply forall₂_of_lastHash _ (linked_of_examineFrom examined)
    (linked_of_examineFrom examinedOther) sameLast
  intro before before' index index' entry entry' here there
  exact determined collisionFree here there

/-! ## A provenance which nobody looks at -/

/-- A database with one entry, the first of its tenant. -/
def oneEntry (runtime : Runtime) (input : EntryInput) : UsageDb :=
  { UsageDb.empty ⟨[], [], []⟩ with
    entries := [input.row 1 none (usageEntryHash runtime input 1 none)] }

theorem ledger_oneEntry (runtime : Runtime) (input : EntryInput) :
    ledger (oneEntry runtime input) input.tenantId =
      [input.row 1 none (usageEntryHash runtime input 1 none)] := by
  rw [ledger, tenantEntries, oneEntry, List.filter_cons_of_pos]
  · rfl
  · exact decide_eq_true rfl

theorem passes_oneEntry (runtime : Runtime) {input : EntryInput}
    (reservation : input.entryType = .reservation)
    (plain : input.financeAuthorizationId = none ∧
      input.financeAuthorizationDigest = none)
    (noInvoice : input.invoiceReference = none)
    (balanced : 0 ≤ SafeInteger.add 0 input.reservedDelta ∧
      0 ≤ SafeInteger.add 0 input.consumedDelta) :
    Passes runtime (oneEntry runtime input) input.tenantId := by
  rw [Passes, ledger_oneEntry]
  generalize entryEq : input.row 1 none
    (usageEntryHash runtime input 1 none) = entry
  have type : entry.entryType = .reservation := by
    rw [← entryEq]
    exact reservation
  have notFinancial : ¬ entry.entryType.Financial := by
    rw [type]
    exact not_false
  have authorized : financeAuthorizationMatchesEntry runtime
      (oneEntry runtime input) entry = true := by
    rw [financeAuthorizationMatchesEntry, if_pos notFinancial, ← entryEq]
    exact decide_eq_true plain
  have intact : Intact runtime none 0 entry := by
    rw [← entryEq]
    exact ⟨rfl, rfl, rfl⟩
  have current : isLegacyUnverifiedFinanceEntry (oneEntry runtime input)
      entry = false := by
    rw [isLegacyUnverifiedFinanceEntry, if_pos notFinancial]
  have recorded : examineRecord runtime (oneEntry runtime input) 0 Tally.start
      entry = .ok Tally.start := by
    rw [examineRecord_eq_ok, current]
    exact ⟨⟨intact, authorized⟩, rfl⟩
  have proven : examineProvenance (oneEntry runtime input) 0 Tally.start
      entry = .ok Tally.start := by
    rw [examineProvenance, if_pos]
    rw [type]
    exact UsageEntryType.noConfusion
  have held : examineReservation 0 (Tally.start.plus entry) entry =
      .ok { Tally.start.plus entry with
        reservations := Tally.start.reservations.set entry.id
          entry.reservedMcuMicrosDelta } := by
    rw [examineReservation, if_pos type]
    rfl
  have billed (tally : Tally) : examineInvoice 0 tally entry = .ok tally := by
    have missing : entry.invoiceReference = none := by
      rw [← entryEq]
      exact noInvoice
    rw [examineInvoice, missing]
    rfl
  refine ⟨_, Fallible.bind_eq_ok.mpr
    ⟨_, examine_of_checks recorded proven held ?_ (billed _), rfl⟩⟩
  rw [not_or, not_lt, not_lt, ← entryEq]
  exact balanced

/-- A held amount, once with no provenance and once marked as measured. -/
def heldAmount (consumptionProvenance : Option String) : EntryInput where
  id := "reservation-1"
  tenantId := "tenant-1"
  entryType := .reservation
  entitlementId := "entitlement-1"
  idempotencyKey := "key-1"
  taskId := "task-1"
  campaignId := none
  reservationId := none
  priceVersion := "price-1"
  reservedDelta := 5
  consumedDelta := 0
  invoiceReference := none
  reason := "hold"
  actorPrincipalId := none
  financeAuthorizationId := none
  financeAuthorizationDigest := none
  consumptionProvenance := consumptionProvenance
  createdAt := "2026-01-01T00:00:00.000Z"

/-- A runtime whose digests are the texts themselves. -/
def plainRuntime : Runtime where
  sha256 := id
  parseDate := fun _ => some 0
  upperCase := id

theorem usageEntryHash_heldAmount :
    usageEntryHash plainRuntime (heldAmount (some measured)) 1 none =
      usageEntryHash plainRuntime (heldAmount none) 1 none := by
  have neutral : Neutral (heldAmount (some measured)).consumptionProvenance :=
    .inr rfl
  have neutralOther : Neutral (heldAmount none).consumptionProvenance :=
    .inl rfl
  rw [usageEntryHash, usageEntryHash, entryContent, entryContent,
    provenanceContent, provenanceContent, if_pos neutral,
    if_pos neutralOther]
  rfl

theorem passes_heldAmount (provenance : Option String) :
    Passes plainRuntime (oneEntry plainRuntime (heldAmount provenance))
      "tenant-1" := by
  apply @passes_oneEntry plainRuntime (heldAmount provenance) rfl ⟨rfl, rfl⟩
    rfl
  constructor
  · show 0 ≤ SafeInteger.add 0 5
    decide
  · show 0 ≤ SafeInteger.add 0 0
    decide

theorem ledger_heldAmount (provenance : Option String) :
    ledger (oneEntry plainRuntime (heldAmount provenance)) "tenant-1" =
      [(heldAmount provenance).row 1 none
        (usageEntryHash plainRuntime (heldAmount provenance) 1 none)] :=
  ledger_oneEntry plainRuntime (heldAmount provenance)

theorem lastHash_heldAmount :
    lastHash UsageLedgerEntry.entryHash
        (ledger (oneEntry plainRuntime (heldAmount none)) "tenant-1") =
      lastHash UsageLedgerEntry.entryHash
        (ledger (oneEntry plainRuntime (heldAmount (some measured)))
          "tenant-1") := by
  rw [ledger_heldAmount, ledger_heldAmount, usageEntryHash_heldAmount]
  rfl

/-- The held amount with and without the mark is one entry otherwise. -/
theorem ledger_determined_heldAmount :
    List.Forall₂ SameButNeutral
      (ledger (oneEntry plainRuntime (heldAmount none)) "tenant-1")
      (ledger (oneEntry plainRuntime (heldAmount (some measured)))
        "tenant-1") :=
  ledger_determined Function.injective_id (passes_heldAmount none)
    (passes_heldAmount (some measured)) lastHash_heldAmount

/--
The mark `measured` on a reservation is not seen: both ledgers pass, their last
hashes are equal, and they differ in an entry which is no settlement.
-/
theorem heldAmount_unseen :
    Passes plainRuntime (oneEntry plainRuntime (heldAmount none))
        "tenant-1" ∧
      Passes plainRuntime
        (oneEntry plainRuntime (heldAmount (some measured))) "tenant-1" ∧
      lastHash UsageLedgerEntry.entryHash
          (ledger (oneEntry plainRuntime (heldAmount none)) "tenant-1") =
        lastHash UsageLedgerEntry.entryHash
          (ledger (oneEntry plainRuntime (heldAmount (some measured)))
            "tenant-1") ∧
      ¬ List.Forall₂ (fun entry other => entry = other ∨
          (entry.entryType = .settlement ∧ SameButNeutral entry other))
        (ledger (oneEntry plainRuntime (heldAmount none)) "tenant-1")
        (ledger (oneEntry plainRuntime (heldAmount (some measured)))
          "tenant-1") := by
  refine ⟨passes_heldAmount none, passes_heldAmount (some measured),
    lastHash_heldAmount, ?_⟩
  rw [ledger_heldAmount, ledger_heldAmount]
  intro same
  cases same with
  | cons related _ =>
    rcases related with equal | settled
    · have impossible : none = some measured :=
        congrArg UsageLedgerEntry.consumptionProvenance equal
      cases impossible
    · exact absurd settled.1 UsageEntryType.noConfusion

end Mendpoint.Usage

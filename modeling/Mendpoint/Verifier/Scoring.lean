import Mendpoint.Library.Attempt
import Mendpoint.Library.IsoTime
import Mendpoint.Verifier.Evidence
import Mendpoint.Verifier.Tournament

/-!
# The agent verifier

A verification asks a backend to score the pairs of a tournament on each
criterion, some of them with the positions swapped.  Responses may be cached
under an identity of the request.  Numbers are exact, and what a machine makes
of a sum, a product or an exponential is a parameter.
-/

namespace Mendpoint.Verifier

open Mendpoint.Library
open Mendpoint.Library.Fallible
open Mendpoint.Library.Attempt

/-! ## Numbers -/

/-- A number, or none where it is not finite. -/
abbrev Number := Option ℚ

/-- What a machine makes of the result of an operation. -/
structure Arithmetic where
  round : ℚ → ℚ
  /-- `1 / (1 + Math.exp(-(scoreA - scoreB) / Math.sqrt(1 / 12)))` -/
  logistic : ℚ → ℚ → ℚ

namespace Arithmetic

variable (arithmetic : Arithmetic)

def add (left right : ℚ) : ℚ :=
  arithmetic.round (left + right)

def sub (left right : ℚ) : ℚ :=
  arithmetic.round (left - right)

def mul (left right : ℚ) : ℚ :=
  arithmetic.round (left * right)

def div (left right : ℚ) : ℚ :=
  arithmetic.round (left / right)

end Arithmetic

/-- A finite number between two bounds. -/
def Within (low high : ℚ) (value : Number) : Prop :=
  ∃ number ∈ value, low ≤ number ∧ number ≤ high

instance (low high : ℚ) (value : Number) : Decidable (Within low high value) :=
  inferInstanceAs (Decidable (∃ number ∈ value, _ ∧ _))

/-- A number of tokens. -/
def IsCount (value : Number) : Prop :=
  ∃ number ∈ value, number.den = 1 ∧ SafeInteger.Safe number.num ∧ 0 ≤ number

instance (value : Number) : Decidable (IsCount value) :=
  inferInstanceAs (Decidable (∃ number ∈ value, _ ∧ _ ∧ _))

/-! ## The backend -/

inductive VerifierScoringMode where
  | nonthinkingLogprobs
  | upstreamThinkingLogprobs
  | museSelf
  deriving DecidableEq

def VerifierScoringMode.text : VerifierScoringMode → String
  | nonthinkingLogprobs => "nonthinking_logprobs"
  | upstreamThinkingLogprobs => "upstream_thinking_logprobs"
  | museSelf => "muse_self"

structure VerifierBackendDescriptor where
  backendId : String
  provider : String
  model : String
  backendRevision : String
  mode : VerifierScoringMode

structure VerifierBackendCandidate where
  candidateId : String
  artifactDigest : String
  observableOutput : String
  changedPaths : List String

structure VerifierBackendScoreInput where
  requestId : String
  tenantId : String
  taskId : String
  evidencePackDigest : String
  criterion : VerifierCriterion
  candidates : List VerifierBackendCandidate
  trustedTask : String
  trustedEvidence : String
  repetition : Nat
  maximumCostUsd : ℚ

structure VerifierUsage where
  inputTokens : Number
  cachedInputTokens : Number
  outputTokens : Number
  reasoningTokens : Number
  totalTokens : Number

structure VerifierBackendScore where
  requestId : String
  scores : OrderedMap String Number
  criterionId : String
  rawResponseDigest : String
  recognizedProbabilityMass : Number
  usage : VerifierUsage
  estimatedCostUsd : Number
  latencyMs : Number

structure VerifierBackend where
  descriptor : VerifierBackendDescriptor
  score : VerifierBackendScoreInput → Except String VerifierBackendScore

/-- What the totals of a usage have to be. -/
def VerifierUsage.Consistent (arithmetic : Arithmetic) (usage : VerifierUsage) :
    Prop :=
  (∀ value ∈ [usage.inputTokens, usage.cachedInputTokens, usage.outputTokens,
      usage.reasoningTokens, usage.totalTokens], IsCount value) ∧
    usage.cachedInputTokens.getD 0 ≤ usage.inputTokens.getD 0 ∧
    usage.reasoningTokens.getD 0 ≤ usage.outputTokens.getD 0 ∧
    usage.totalTokens.getD 0 = arithmetic.add (usage.inputTokens.getD 0)
      (usage.outputTokens.getD 0)

instance (arithmetic : Arithmetic) (usage : VerifierUsage) :
    Decidable (usage.Consistent arithmetic) :=
  inferInstanceAs (Decidable (_ ∧ _ ∧ _ ∧ _))

def validateBackendScore (arithmetic : Arithmetic)
    (response : VerifierBackendScore) (requestId criterionId : String)
    (candidateIds : List String) : Except String VerifierBackendScore := do
  throwIf (response.requestId ≠ requestId ∨
    response.criterionId ≠ criterionId)
    "verifier_cache_or_backend_identity_mismatch"
  throwIf (Text.sortTexts response.scores.keys ≠
      Text.sortTexts candidateIds ∨
    ∃ score ∈ response.scores.values, ¬ Within 0 1 score)
    "verifier_backend_scores_invalid"
  throwIf (Pattern.isDigest response.rawResponseDigest = false)
    "verifier_backend_response_digest_invalid"
  throwIf (¬ Within (1 / 2) (arithmetic.round (1000001 / 1000000))
    response.recognizedProbabilityMass)
    "verifier_logprob_probability_mass_insufficient"
  throwIf (¬ response.usage.Consistent arithmetic)
    "verifier_backend_usage_invalid"
  throwIf (¬ ((∃ cost ∈ response.estimatedCostUsd, 0 ≤ cost) ∧
    ∃ latency ∈ response.latencyMs, 0 ≤ latency))
    "verifier_backend_accounting_invalid"
  return response

/-! ## The identity of a request -/

structure VerifierScoreIdentityInput where
  tenantId : String
  taskId : String
  evidencePackDigest : String
  candidateADigest : String
  candidateBDigest : Option String
  criterionDigest : String
  backendId : String
  model : String
  backendRevision : String
  mode : VerifierScoringMode
  repetition : Nat

def VerifierScoringMode.encoding : Encoding VerifierScoringMode :=
  .named text [nonthinkingLogprobs, upstreamThinkingLogprobs, museSelf]
    (by decide) (by rintro ⟨⟩ <;> decide)

/-- The encoding of a text or null. -/
def textOrNull : Encoding (Option String) :=
  Encoding.text.nullable (by intro value impossible; cases impossible)

def VerifierScoreIdentityInput.encoding :
    Encoding VerifierScoreIdentityInput :=
  .record ["tenantId", "taskId", "evidencePackDigest", "candidateADigest",
      "candidateBDigest", "criterionDigest", "backendId", "model",
      "backendRevision", "mode", "repetition"]
    [fun value => .str value.tenantId, fun value => .str value.taskId,
      fun value => .str value.evidencePackDigest,
      fun value => .str value.candidateADigest,
      fun value => textOrNull.write value.candidateBDigest,
      fun value => .str value.criterionDigest,
      fun value => .str value.backendId, fun value => .str value.model,
      fun value => .str value.backendRevision,
      fun value => VerifierScoringMode.encoding.write value.mode,
      fun value => .num value.repetition]
    (by decide) rfl (by
      rintro ⟨⟩ ⟨⟩ same
      simp only [List.map_cons, List.cons.injEq, Json.sorted, Json.str.injEq,
        Json.num.injEq, Nat.cast_inj, textOrNull.injective.eq_iff,
        VerifierScoringMode.encoding.injective.eq_iff] at same
      simp only [same])

def verifierScoreIdentity (digests : Digests)
    (input : VerifierScoreIdentityInput) : Except String String := do
  throwIf (¬ SafeInteger.Safe input.repetition) "verifier_repetition_invalid"
  return digests.of (VerifierScoreIdentityInput.encoding.write input)

/-! ## Scoring -/

inductive VerifierRolloutMode where
  | off
  | offline
  | shadow
  | advisory
  | selective
  | automated
  deriving DecidableEq

structure BehaviorChangeAuthority where
  tenantIds : List String
  products : List VerifierProduct

structure NormalizedAgentVerifierConfig where
  enabled : Bool
  rolloutMode : VerifierRolloutMode
  evaluations : Nat
  pivots : Int
  seed : Int
  maximumCandidates : Nat
  maximumCostUsd : ℚ
  behaviorChangeAuthority : Option BehaviorChangeAuthority

structure MutableTotals where
  inputTokens : ℚ
  cachedInputTokens : ℚ
  outputTokens : ℚ
  reasoningTokens : ℚ
  totalTokens : ℚ
  cost : ℚ
  latency : ℚ
  responseDigests : List String

def emptyTotals : MutableTotals where
  inputTokens := 0
  cachedInputTokens := 0
  outputTokens := 0
  reasoningTokens := 0
  totalTokens := 0
  cost := 0
  latency := 0
  responseDigests := []

def accumulateTotals (arithmetic : Arithmetic) (totals : MutableTotals)
    (response : VerifierBackendScore) : MutableTotals :=
  let plus := fun (total : ℚ) (value : Number) =>
    arithmetic.add total (value.getD 0)
  { inputTokens := plus totals.inputTokens response.usage.inputTokens
    cachedInputTokens :=
      plus totals.cachedInputTokens response.usage.cachedInputTokens
    outputTokens := plus totals.outputTokens response.usage.outputTokens
    reasoningTokens :=
      plus totals.reasoningTokens response.usage.reasoningTokens
    totalTokens := plus totals.totalTokens response.usage.totalTokens
    cost := plus totals.cost response.estimatedCostUsd
    latency := plus totals.latency response.latencyMs
    responseDigests :=
      if response.rawResponseDigest ∈ totals.responseDigests then
        totals.responseDigests
      else totals.responseDigests ++ [response.rawResponseDigest] }

/-- What is cached under the identities of requests. -/
abbrev VerifierScoreCache : Type :=
  String → Option VerifierBackendScore

/-- The sums of a run, and the cache where there is one. -/
structure Scoring where
  scores : String → ℚ
  masses : String → ℚ
  totals : MutableTotals
  scoreCache : Option VerifierScoreCache

namespace Scoring

/-- The sums of a run before its first request. -/
def start (scoreCache : Option VerifierScoreCache) : Scoring where
  scores _ := 0
  masses _ := 0
  totals := emptyTotals
  scoreCache := scoreCache

/-- `scores[id] += score; masses[id] += weight` -/
def gain (arithmetic : Arithmetic) (candidateId : String) (score weight : ℚ)
    (state : Scoring) : Scoring :=
  { state with
    scores := Function.update state.scores candidateId
      (arithmetic.add (state.scores candidateId)
        (arithmetic.mul score weight))
    masses := Function.update state.masses candidateId
      (arithmetic.add (state.masses candidateId) weight) }

/-- `masses[id] ? scores[id] / masses[id] : 0` -/
def mean (arithmetic : Arithmetic) (state : Scoring) (candidateId : String) :
    ℚ :=
  if state.masses candidateId ≠ 0 then
    arithmetic.div (state.scores candidateId) (state.masses candidateId)
  else 0

/-- `scoreCache?.put(requestId, response)` -/
def put (requestId : String) (response : VerifierBackendScore)
    (state : Scoring) : Scoring :=
  { state with
    scoreCache := state.scoreCache.map fun cache =>
      Function.update cache requestId (some response) }

end Scoring

def bradleyTerryWinProbability (arithmetic : Arithmetic)
    (scoreA scoreB : ℚ) : Except String ℚ := do
  throwIf (¬ (0 ≤ scoreA ∧ scoreA ≤ 1 ∧ 0 ≤ scoreB ∧ scoreB ≤ 1))
    "verifier_score_invalid"
  return arithmetic.logistic scoreA scoreB

section Requests

variable (digests : Digests) (arithmetic : Arithmetic)
  (backend : VerifierBackend) (config : NormalizedAgentVerifierConfig)

/-- The response to a request, checked against it. -/
def checked (input : VerifierBackendScoreInput)
    (response : VerifierBackendScore) : Except String VerifierBackendScore :=
  validateBackendScore arithmetic response input.requestId input.criterion.id
    (input.candidates.map VerifierBackendCandidate.candidateId)

/-- The cached response to a request, or that of the backend. -/
def respond (input : VerifierBackendScoreInput) :
    Attempt Scoring String VerifierBackendScore := do
  let state ← get
  match state.scoreCache.bind fun cache => cache input.requestId with
  | some cached => liftM (checked arithmetic input cached)
  | none => do
    let response ← liftM (backend.score input >>= checked arithmetic input)
    modify (Scoring.put input.requestId response)
    return response

variable (pack : VerifierEvidencePack digests)

def trustedEvidence : String :=
  (Json.record ["sources", "checks", "snapshotDigest", "allowedChangedPaths"]
    [some (.arr (pack.sources.map fun source =>
        .record ["id", "kind", "digest", "locator", "content"]
          [some (.str source.id),
            some (VerifierSourceKind.encoding.write source.kind),
            some (.str source.digest), some (.str source.locator),
            some (.str source.content)])),
      some (checksEncoding.write pack.checks),
      some (.str pack.snapshotDigest),
      some (texts.write pack.allowedChangedPaths)]).canonical digests.numerals

def scoreIdentity (criterion : VerifierCriterion)
    (slots : List VerifierCandidate) (repetition : Nat) :
    VerifierScoreIdentityInput where
  tenantId := pack.tenantId
  taskId := pack.taskId
  evidencePackDigest := pack.packDigest
  candidateADigest := (slots[0]?.map VerifierCandidate.artifactDigest).getD ""
  candidateBDigest := slots[1]?.map VerifierCandidate.artifactDigest
  criterionDigest := digests.of (VerifierCriterion.encoding.write criterion)
  backendId := backend.descriptor.backendId
  model := backend.descriptor.model
  backendRevision := backend.descriptor.backendRevision
  mode := backend.descriptor.mode
  repetition := repetition

def backendInput (criterion : VerifierCriterion)
    (slots : List VerifierCandidate) (repetition : Nat) (requestId : String)
    (maximumCostUsd : ℚ) : VerifierBackendScoreInput where
  requestId := requestId
  tenantId := pack.tenantId
  taskId := pack.taskId
  evidencePackDigest := pack.packDigest
  criterion := criterion
  candidates := slots.map fun candidate =>
    { candidateId := candidate.candidateId
      artifactDigest := candidate.artifactDigest
      observableOutput := candidate.observableOutput
      changedPaths := candidate.changedPaths }
  trustedTask := pack.objective
  trustedEvidence := trustedEvidence digests pack
  repetition := repetition
  maximumCostUsd := maximumCostUsd

/-- The candidates of a request; odd repetitions swap their positions. -/
def slotsOf (candidateA : VerifierCandidate) :
    Option VerifierCandidate → Nat → List VerifierCandidate
  | none, _ => [candidateA]
  | some candidateB, repetition =>
    if repetition % 2 = 1 then [candidateB, candidateA]
    else [candidateA, candidateB]

/-- What the scores of a response add to those of its candidates. -/
def weigh (criterion : VerifierCriterion) (response : VerifierBackendScore)
    (candidateA : VerifierCandidate) :
    Option VerifierCandidate → Attempt Scoring String PUnit
  | none => do
    let scoreA ← liftM (demand (response.scores.get? candidateA.candidateId).join
      "verifier_backend_candidate_score_missing")
    modify (Scoring.gain arithmetic candidateA.candidateId scoreA
      criterion.weight)
  | some candidateB => do
    let scoreA ← liftM (demand (response.scores.get? candidateA.candidateId).join
      "verifier_backend_candidate_score_missing")
    let scoreB ← liftM (demand (response.scores.get? candidateB.candidateId).join
      "verifier_backend_candidate_score_missing")
    let winA ← liftM (bradleyTerryWinProbability arithmetic scoreA scoreB)
    modify (Scoring.gain arithmetic candidateA.candidateId winA
      criterion.weight)
    modify (Scoring.gain arithmetic candidateB.candidateId
      (arithmetic.sub 1 winA) criterion.weight)

/-- One evaluation of a pair on a criterion. -/
def evaluate (criterion : VerifierCriterion) (candidateA : VerifierCandidate)
    (candidateB : Option VerifierCandidate) (repetition : Nat) :
    Attempt Scoring String PUnit := do
  let slots := slotsOf candidateA candidateB repetition
  let requestId ← liftM (verifierScoreIdentity digests
    (scoreIdentity digests backend pack criterion slots repetition))
  let before ← get
  let response ← respond arithmetic backend
    (backendInput digests pack criterion slots repetition requestId
      (arithmetic.sub config.maximumCostUsd before.totals.cost))
  modify fun state =>
    { state with totals := accumulateTotals arithmetic state.totals response }
  let spent ← get
  liftM (throwIf (config.maximumCostUsd < spent.totals.cost)
    "verifier_budget_exceeded")
  weigh arithmetic criterion response candidateA candidateB

def scoreOnePair (candidateA : VerifierCandidate)
    (candidateB : Option VerifierCandidate) : Attempt Scoring String PUnit :=
  pack.criteria.forM fun criterion =>
    (List.range config.evaluations).forM fun repetition =>
      evaluate digests arithmetic backend config pack criterion candidateA
        candidateB repetition

/-- `byId.get(candidateId)!` -/
def byId (candidates : List VerifierCandidate) (candidateId : String) :
    Except String VerifierCandidate :=
  demand (candidates.find? fun candidate =>
    decide (candidate.candidateId = candidateId))
    "Cannot read properties of undefined"

def scoreEdges (candidates : List VerifierCandidate)
    (edges : List TournamentComparison) : Attempt Scoring String PUnit :=
  edges.forM fun edge => do
    let candidateA ← liftM (byId candidates edge.candidateAId)
    let candidateB ← liftM (byId candidates edge.candidateBId)
    scoreOnePair digests arithmetic backend config pack candidateA
      (some candidateB)

/-- The means of the candidates by their identifiers. -/
def meansOf (candidateIds : List String) (state : Scoring) :
    List (String × ℚ) :=
  (Text.sortTexts candidateIds).map fun id => (id, state.mean arithmetic id)

/-- The pair of a single candidate, or those of the two rounds. -/
def scoreRounds (candidates : List VerifierCandidate) :
    List VerifierCandidate → Attempt Scoring String PUnit
  | [candidate] =>
    scoreOnePair digests arithmetic backend config pack candidate none
  | _ => do
    let candidateIds := candidates.map VerifierCandidate.candidateId
    let pivots := min config.pivots candidates.length
    let first ← liftM (buildPivotTournamentSchedule candidateIds pivots
      config.seed fun _ => none (α := ℚ))
    scoreEdges digests arithmetic backend config pack candidates first.ring
    let ringScores ← get
    let complete ← liftM (buildPivotTournamentSchedule candidateIds pivots
      config.seed fun id =>
        if id ∈ candidateIds then some (ringScores.mean arithmetic id)
        else none)
    scoreEdges digests arithmetic backend config pack candidates
      complete.pivot

def scoreCandidates (candidates : List VerifierCandidate) :
    Attempt Scoring String (List (String × ℚ)) := do
  scoreRounds digests arithmetic backend config pack candidates candidates
  let final ← get
  return meansOf arithmetic (candidates.map VerifierCandidate.candidateId)
    final

end Requests

/-! ## Verification -/

inductive VerifierResultStatus where
  | disabled
  | noEligibleCandidates
  | verified
  | failed

inductive VerifierRecommendation where
  | continued
  | requestMoreEvidence
  | resample
  | readyForReview
  | escalate

inductive VerifierFailureCode where
  | evidenceMissing
  | apiFailure
  | logprobFailure
  | cacheFailure

/-- A result, with what its telemetry says of the candidates and the costs. -/
structure AgentVerifierResult where
  status : VerifierResultStatus
  recommendation : VerifierRecommendation
  failureCode : Option VerifierFailureCode
  suggestedCandidateId : Option String
  effectiveCandidateId : String
  behaviorChanged : Bool
  filtered : DeterministicFilterResult
  candidateScores : List (String × ℚ)
  totals : MutableTotals

/-- A result which leaves the incumbent in place. -/
def keepIncumbent (status : VerifierResultStatus)
    (recommendation : VerifierRecommendation)
    (failureCode : Option VerifierFailureCode)
    (incumbentCandidateId : String) (filtered : DeterministicFilterResult)
    (totals : MutableTotals) : AgentVerifierResult where
  status := status
  recommendation := recommendation
  failureCode := failureCode
  suggestedCandidateId := none
  effectiveCandidateId := incumbentCandidateId
  behaviorChanged := false
  filtered := filtered
  candidateScores := []
  totals := totals

def packHasSubstantiveEvidence (pack : VerifierEvidence) : Bool :=
  pack.sources.any fun source =>
    decide (source.kind ∈ [.repositoryExcerpt, .graph, .retrieval])

def failureCodeOf (message : String) : VerifierFailureCode :=
  if Text.includes message "logprob" = true then .logprobFailure
  else if Text.includes message "cache_or_backend_identity_mismatch" = true
    then .cacheFailure
  else .apiFailure

/-- What the scores make of the eligible candidates. -/
def verifiedResult (arithmetic : Arithmetic)
    (config : NormalizedAgentVerifierConfig) (pack : VerifierEvidence)
    (incumbentCandidateId : String) (filtered : DeterministicFilterResult)
    (scores : List (String × ℚ)) (totals : MutableTotals) :
    AgentVerifierResult :=
  let scoreOf := fun id : String => (scores.find? fun entry =>
    decide (entry.1 = id)).map Prod.snd
  let suggestedCandidateId := ((filtered.eligible.map
    VerifierCandidate.candidateId).insertionSort (Ranked scoreOf)).headD ""
  let canChange := config.rolloutMode = .selective ∧
    ∃ authority ∈ config.behaviorChangeAuthority,
      pack.tenantId ∈ authority.tenantIds ∧ pack.product ∈ authority.products
  let effectiveCandidateId :=
    if canChange then suggestedCandidateId else incumbentCandidateId
  let highest := (scoreOf suggestedCandidateId).getD 0
  { status := .verified
    recommendation :=
      if 3 / 4 ≤ highest ∧ packHasSubstantiveEvidence pack = true then
        .readyForReview
      else if arithmetic.round (11 / 20) ≤ highest then .requestMoreEvidence
      else .resample
    failureCode := none
    suggestedCandidateId := some suggestedCandidateId
    effectiveCandidateId := effectiveCandidateId
    behaviorChanged := decide (effectiveCandidateId ≠ incumbentCandidateId)
    filtered := filtered
    candidateScores := scores
    totals := totals }

/-- The result of a run, and the cache after it. -/
def concluded (arithmetic : Arithmetic)
    (config : NormalizedAgentVerifierConfig) (pack : VerifierEvidence)
    (incumbentCandidateId : String) (filtered : DeterministicFilterResult) :
    Except String (List (String × ℚ)) × Scoring →
      AgentVerifierResult × Option VerifierScoreCache
  | (.ok scores, final) =>
    (verifiedResult arithmetic config pack incumbentCandidateId filtered
      scores final.totals, final.scoreCache)
  | (.error message, final) =>
    (keepIncumbent .failed .escalate (some (failureCodeOf message))
      incumbentCandidateId filtered final.totals, final.scoreCache)

structure VerifyRequest where
  incumbentCandidateId : String
  verificationAttemptId : String
  observedAt : String

/-- A verification, with the cache afterwards. -/
def verify (digests : Digests) (arithmetic : Arithmetic)
    (backend : VerifierBackend) (config : NormalizedAgentVerifierConfig)
    (pack : VerifierEvidencePack digests) (request : VerifyRequest)
    (scoreCache : Option VerifierScoreCache) :
    Except String (AgentVerifierResult × Option VerifierScoreCache) := do
  let _ ← identifier request.verificationAttemptId "verifier_attempt_id_invalid"
  throwIf (IsoTime.Instant.parse? request.observedAt = none)
    "verifier_observed_at_invalid"
  throwIf (request.incumbentCandidateId ∉
    pack.candidates.map VerifierCandidate.candidateId)
    "verifier_incumbent_candidate_unknown"
  let filtered := filterDeterministicCandidates pack.toVerifierEvidence
  if config.enabled = false ∨ config.rolloutMode = .off then
    return (keepIncumbent .disabled .continued none request.incumbentCandidateId
      filtered emptyTotals, scoreCache)
  if filtered.eligible = [] then
    return (keepIncumbent .noEligibleCandidates .escalate
      (some .evidenceMissing) request.incumbentCandidateId filtered
      emptyTotals, scoreCache)
  throwIf (config.maximumCandidates < filtered.eligible.length)
    "verifier_candidate_limit_exceeded"
  return concluded arithmetic config pack.toVerifierEvidence
    request.incumbentCandidateId filtered
    (outcome (scoreCandidates digests arithmetic backend config pack
      filtered.eligible) (Scoring.start scoreCache))

end Mendpoint.Verifier

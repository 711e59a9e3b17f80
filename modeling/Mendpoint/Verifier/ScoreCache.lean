import Mendpoint.Verifier.Scoring

/-!
# Cached scores

A backend which answers a problem always alike is asked through a cache.  The
identity of a request names the candidates by the digests of their artifacts,
so that what is cached is what the backend would answer, as long as no two
eligible candidates of a pack have the same artifact.
-/

namespace Mendpoint.Verifier

open Mendpoint.Library
open Mendpoint.Library.Fallible
open Mendpoint.Library.Attempt

/-! ## Problems -/

/-- A request without its identity and its budget. -/
def VerifierBackendScoreInput.problem (input : VerifierBackendScoreInput) :
    VerifierBackendScoreInput :=
  { input with requestId := "", maximumCostUsd := 0 }

/-- A response without the identity of its request. -/
def VerifierBackendScore.content (response : VerifierBackendScore) :
    VerifierBackendScore :=
  { response with requestId := "" }

/--
The score of a backend is a function of the problem: requests of one problem
fail alike, or have responses which say the same, and which all name their
request or all do not.
-/
structure VerifierBackend.Repeatable (backend : VerifierBackend) : Prop where
  fails : ∀ (one two : VerifierBackendScoreInput) (failure : String),
    one.problem = two.problem → backend.score one = .error failure →
    backend.score two = .error failure
  answers : ∀ (one two : VerifierBackendScoreInput)
    (response other : VerifierBackendScore), one.problem = two.problem →
    backend.score one = .ok response → backend.score two = .ok other →
    response.content = other.content ∧
      (response.requestId = one.requestId → other.requestId = two.requestId)

section Answers

variable {arithmetic : Arithmetic} {backend : VerifierBackend}
  {one two : VerifierBackendScoreInput}

/-- What a backend answers, checked against the request. -/
def answer (arithmetic : Arithmetic) (backend : VerifierBackend)
    (input : VerifierBackendScoreInput) : Except String VerifierBackendScore :=
  backend.score input >>= checked arithmetic input

theorem validate_eq_ok {response result : VerifierBackendScore}
    {requestId criterionId : String} {candidateIds : List String}
    (valid : validateBackendScore arithmetic response requestId criterionId
      candidateIds = .ok result) :
    result = response ∧ response.requestId = requestId := by
  simp only [validateBackendScore, bind_eq_ok, throwIf_eq_ok, pure_eq_ok,
    not_or, not_not] at valid
  rcases valid with ⟨_, ⟨named, _⟩, _, _, _, _, _, _, _, _, _, _, rfl⟩
  exact ⟨rfl, named⟩

theorem checked_of_mismatch {response : VerifierBackendScore}
    (apart : response.requestId ≠ one.requestId) :
    checked arithmetic one response =
      .error "verifier_cache_or_backend_identity_mismatch" := by
  rw [checked, validateBackendScore, throwIf, if_pos (Or.inl apart),
    error_bind]

theorem checked_eq (same : one.problem = two.problem)
    (named : one.requestId = two.requestId) :
    checked arithmetic one = checked arithmetic two := by
  have criterion := congrArg VerifierBackendScoreInput.criterion same
  have candidates := congrArg VerifierBackendScoreInput.candidates same
  funext response
  rw [checked, checked, named, show one.criterion = two.criterion from
    criterion, show one.candidates = two.candidates from candidates]

theorem answer_eq (repeatable : backend.Repeatable)
    (same : one.problem = two.problem) (named : one.requestId = two.requestId) :
    answer arithmetic backend one = answer arithmetic backend two := by
  rw [answer, answer]
  cases here : backend.score one with
  | error failure =>
    rw [repeatable.fails one two failure same here]
    rfl
  | ok response =>
    cases there : backend.score two with
    | error failure =>
      rw [repeatable.fails two one failure same.symm there] at here
      cases here
    | ok other =>
      rcases repeatable.answers one two response other same here there with
        ⟨content, forth⟩
      have back := (repeatable.answers two one other response same.symm there
        here).2
      rw [ok_bind, ok_bind]
      by_cases own : response.requestId = one.requestId
      · have equal : response = other := by
          rcases response with ⟨responseId, _, _, _, _, _, _, _⟩
          rcases other with ⟨otherId, _, _, _, _, _, _, _⟩
          have ids : responseId = otherId :=
            own.trans (named.trans (forth own).symm)
          simp only [VerifierBackendScore.content,
            VerifierBackendScore.mk.injEq, true_and] at content
          rw [VerifierBackendScore.mk.injEq]
          exact ⟨ids, content⟩
        rw [equal, checked_eq same named]
      · rw [checked_of_mismatch own, checked_of_mismatch fun otherOwn =>
          own (back otherOwn)]

theorem checked_answer {response : VerifierBackendScore}
    (same : one.problem = two.problem) (named : one.requestId = two.requestId)
    (answered : answer arithmetic backend one = .ok response) :
    checked arithmetic two response = .ok response := by
  rw [answer, bind_eq_ok] at answered
  rcases answered with ⟨raw, _, valid⟩
  rw [← checked_eq same named]
  have kept := (validate_eq_ok valid).1
  rw [kept] at valid ⊢
  exact valid

end Answers

/-! ## Identities -/

section Identities

variable {digests : Digests} {arithmetic : Arithmetic}
  {backend : VerifierBackend}

/-- The eligible candidates of a pack. -/
def eligibleOf (pack : VerifierEvidencePack digests) :
    List VerifierCandidate :=
  (filterDeterministicCandidates pack.toVerifierEvidence).eligible

/-- No two eligible candidates have the same artifact. -/
def Distinguished (pack : VerifierEvidencePack digests) : Prop :=
  ((eligibleOf pack).map VerifierCandidate.artifactDigest).Nodup

/-- One or two eligible candidates. -/
def Slots (pack : VerifierEvidencePack digests)
    (slots : List VerifierCandidate) : Prop :=
  ∃ first ∈ eligibleOf pack, slots = [first] ∨
    ∃ second ∈ eligibleOf pack, slots = [first, second]

theorem slots_slotsOf {pack : VerifierEvidencePack digests}
    {candidateA : VerifierCandidate} {candidateB : Option VerifierCandidate}
    (eligible : candidateA ∈ eligibleOf pack)
    (eligibleB : ∀ candidate ∈ candidateB, candidate ∈ eligibleOf pack)
    (repetition : Nat) : Slots pack (slotsOf candidateA candidateB repetition)
      := by
  cases candidateB with
  | none => exact ⟨candidateA, eligible, Or.inl rfl⟩
  | some candidate =>
    have eligibleHere := eligibleB candidate rfl
    rw [slotsOf]
    split
    · exact ⟨candidate, eligibleHere, Or.inr ⟨candidateA, eligible, rfl⟩⟩
    · exact ⟨candidateA, eligible, Or.inr ⟨candidate, eligibleHere, rfl⟩⟩

theorem slots_inj {pack : VerifierEvidencePack digests}
    (distinguished : Distinguished pack)
    {slots others : List VerifierCandidate} (eligible : Slots pack slots)
    (eligibleOthers : Slots pack others)
    (first : (slots[0]?.map VerifierCandidate.artifactDigest).getD "" =
      (others[0]?.map VerifierCandidate.artifactDigest).getD "")
    (second : slots[1]?.map VerifierCandidate.artifactDigest =
      others[1]?.map VerifierCandidate.artifactDigest) : slots = others := by
  have same : ∀ one ∈ eligibleOf pack, ∀ two ∈ eligibleOf pack,
      one.artifactDigest = two.artifactDigest → one = two :=
    fun one inOne two inTwo =>
      List.inj_on_of_nodup_map distinguished inOne inTwo
  rcases eligible with ⟨one, inOne, rfl | ⟨next, inNext, rfl⟩⟩ <;>
    rcases eligibleOthers with ⟨two, inTwo, rfl | ⟨last, inLast, rfl⟩⟩
  · rw [same one inOne two inTwo first]
  · cases second
  · cases second
  · rw [same one inOne two inTwo first,
      same next inNext last inLast (Option.some.inj second)]

/-- A request of a verification which tells its candidates apart. -/
def Asked (backend : VerifierBackend) (digests : Digests)
    (input : VerifierBackendScoreInput) : Prop :=
  ∃ (pack : VerifierEvidencePack digests) (criterion : VerifierCriterion)
    (slots : List VerifierCandidate) (repetition : Nat)
    (maximumCostUsd : ℚ), Distinguished pack ∧ Slots pack slots ∧
      input = backendInput digests pack criterion slots repetition
        (digests.of (VerifierScoreIdentityInput.encoding.write
          (scoreIdentity digests backend pack criterion slots repetition)))
        maximumCostUsd

theorem of_inj {α : Type} (encoding : Encoding α) {left right : α}
    (injective : Function.Injective digests.sha256)
    (same : digests.of (encoding.write left) =
      digests.of (encoding.write right)) : left = right :=
  encoding.canonical_inj (injective same)

theorem pack_eq {pack other : VerifierEvidencePack digests}
    (injective : Function.Injective digests.sha256)
    (same : pack.packDigest = other.packDigest) : pack = other := by
  have contents : pack.toVerifierEvidence = other.toVerifierEvidence := by
    refine of_inj VerifierEvidence.encoding injective ?_
    rw [← pack.digested, ← other.digested, same]
  rcases pack with ⟨evidence, digest, _, _⟩
  rcases other with ⟨evidence, digest, _, _⟩
  subst same
  cases (show _ = _ from contents)
  rfl

/-- The identity of a request determines the problem. -/
theorem problem_eq {one two : VerifierBackendScoreInput}
    (injective : Function.Injective digests.sha256)
    (asked : Asked backend digests one) (askedToo : Asked backend digests two)
    (named : one.requestId = two.requestId) : one.problem = two.problem := by
  rcases asked with ⟨pack, criterion, slots, repetition, _, distinguished,
    eligible, rfl⟩
  rcases askedToo with ⟨other, criterionToo, others, repetitionToo, _, _,
    eligibleToo, rfl⟩
  have identities := of_inj VerifierScoreIdentityInput.encoding injective named
  simp only [scoreIdentity, VerifierScoreIdentityInput.mk.injEq, true_and]
    at identities
  rcases identities with ⟨_, _, packs, first, second, criteria, rfl⟩
  cases pack_eq injective packs
  cases of_inj VerifierCriterion.encoding injective criteria
  rw [slots_inj distinguished eligible eligibleToo first second]
  rfl

end Identities

/-! ## The cache -/

section Cache

variable {digests : Digests} {arithmetic : Arithmetic}
  {backend : VerifierBackend}

/-- What is cached is what the backend answers to a request. -/
def Honest (digests : Digests) (arithmetic : Arithmetic)
    (backend : VerifierBackend) (cache : VerifierScoreCache) : Prop :=
  ∀ requestId response, cache requestId = some response →
    ∃ input, Asked backend digests input ∧ input.requestId = requestId ∧
      answer arithmetic backend input = .ok response

/-- A run with an honest cache, and the same run without a cache. -/
def Alike (digests : Digests) (arithmetic : Arithmetic)
    (backend : VerifierBackend) (one two : Scoring) : Prop :=
  (∃ cache, one.scoreCache = some cache ∧
    Honest digests arithmetic backend cache) ∧
    two = { one with scoreCache := none }

theorem honest_update {cache : VerifierScoreCache}
    {input : VerifierBackendScoreInput} {response : VerifierBackendScore}
    (honest : Honest digests arithmetic backend cache)
    (asked : Asked backend digests input)
    (answered : answer arithmetic backend input = .ok response) :
    Honest digests arithmetic backend
      (Function.update cache input.requestId (some response)) := by
  intro requestId found cached
  by_cases same : requestId = input.requestId
  · rw [same, Function.update_self, Option.some.injEq] at cached
    exact ⟨input, asked, same.symm, cached ▸ answered⟩
  · rw [Function.update_of_ne same] at cached
    exact honest requestId found cached

theorem outcome_respond_of_cached {input : VerifierBackendScoreInput}
    {state : Scoring} {cached : VerifierBackendScore}
    (found : (state.scoreCache.bind fun cache => cache input.requestId) =
      some cached) :
    outcome (respond arithmetic backend input) state =
      (checked arithmetic input cached, state) := by
  rw [respond, outcome_get_bind, found]
  show outcome (liftM (checked arithmetic input cached)) state = _
  cases checked arithmetic input cached with
  | ok response => rfl
  | error failure => rfl

theorem outcome_respond_of_missing {input : VerifierBackendScoreInput}
    {state : Scoring} (missing : (state.scoreCache.bind fun cache =>
      cache input.requestId) = none) :
    outcome (respond arithmetic backend input) state =
      (answer arithmetic backend input,
        match answer arithmetic backend input with
        | .ok response => state.put input.requestId response
        | .error _ => state) := by
  rw [respond, outcome_get_bind, missing]
  show outcome (liftM (answer arithmetic backend input) >>= fun response =>
    modify (Scoring.put input.requestId response) >>= fun _ =>
      pure response) state = _
  cases answer arithmetic backend input with
  | ok response => rfl
  | error failure => rfl

theorem agree_respond (injective : Function.Injective digests.sha256)
    (repeatable : backend.Repeatable) {input : VerifierBackendScoreInput}
    (asked : Asked backend digests input) :
    Agree (Alike digests arithmetic backend) (respond arithmetic backend input)
      (respond arithmetic backend input) := by
  rintro one two ⟨⟨cache, cached, honest⟩, rfl⟩
  rw [@outcome_respond_of_missing _ _ _ { one with scoreCache := none } rfl]
  cases found : cache input.requestId with
  | none =>
    rw [outcome_respond_of_missing (by rw [cached]; exact found)]
    refine ⟨rfl, ?_⟩
    cases answered : answer arithmetic backend input with
    | error failure => exact ⟨⟨cache, cached, honest⟩, rfl⟩
    | ok response =>
      refine ⟨⟨_, ?_, honest_update honest asked answered⟩, rfl⟩
      show one.scoreCache.map _ = _
      rw [cached]
      rfl
  | some response =>
    rcases honest _ _ found with ⟨source, askedBefore, named, answered⟩
    have same := problem_eq injective askedBefore asked named
    rw [outcome_respond_of_cached (by rw [cached]; exact found),
      checked_answer same named answered,
      ← answer_eq repeatable same named, answered]
    exact ⟨rfl, ⟨cache, cached, honest⟩, rfl⟩

end Cache

/-! ## Runs with a cache -/

section Runs

variable {digests : Digests} {arithmetic : Arithmetic}
  {backend : VerifierBackend} {config : NormalizedAgentVerifierConfig}
  {pack : VerifierEvidencePack digests}

/-- What is changed besides the cache is changed alike. -/
theorem agree_change {change : Scoring → Scoring}
    (apart : ∀ state : Scoring,
      (change state).scoreCache = state.scoreCache ∧
      change { state with scoreCache := none } =
        { change state with scoreCache := none }) :
    Agree (Alike digests arithmetic backend)
      (modify change : Attempt Scoring String PUnit) (modify change) := by
  refine agree_modify ?_
  rintro one two ⟨⟨cache, cached, honest⟩, rfl⟩
  exact ⟨⟨cache, (apart one).1.trans cached, honest⟩, (apart one).2⟩

theorem agree_gain (candidateId : String) (score weight : ℚ) :
    Agree (Alike digests arithmetic backend)
      (modify (Scoring.gain arithmetic candidateId score weight) :
        Attempt Scoring String PUnit)
      (modify (Scoring.gain arithmetic candidateId score weight)) :=
  agree_change fun _ => ⟨rfl, rfl⟩

theorem agree_weigh (criterion : VerifierCriterion)
    (response : VerifierBackendScore) (candidateA : VerifierCandidate)
    (candidateB : Option VerifierCandidate) :
    Agree (Alike digests arithmetic backend)
      (weigh arithmetic criterion response candidateA candidateB)
      (weigh arithmetic criterion response candidateA candidateB) := by
  cases candidateB with
  | none => exact agree_bind (agree_lift _) fun _ => agree_gain _ _ _
  | some candidate =>
    refine agree_bind (agree_lift _) fun _ => ?_
    refine agree_bind (agree_lift _) fun _ => ?_
    refine agree_bind (agree_lift _) fun _ => ?_
    exact agree_bind (agree_gain _ _ _) fun _ => agree_gain _ _ _

theorem agree_evaluate (injective : Function.Injective digests.sha256)
    (repeatable : backend.Repeatable) (distinguished : Distinguished pack)
    (criterion : VerifierCriterion) {candidateA : VerifierCandidate}
    {candidateB : Option VerifierCandidate}
    (eligible : candidateA ∈ eligibleOf pack)
    (eligibleB : ∀ candidate ∈ candidateB, candidate ∈ eligibleOf pack)
    (repetition : Nat) :
    Agree (Alike digests arithmetic backend)
      (evaluate digests arithmetic backend config pack criterion candidateA
        candidateB repetition)
      (evaluate digests arithmetic backend config pack criterion candidateA
        candidateB repetition) := by
  have slots := slots_slotsOf eligible eligibleB repetition
  refine agree_lift_bind fun requestId identified => ?_
  simp only [verifierScoreIdentity, bind_eq_ok, throwIf_eq_ok, pure_eq_ok]
    at identified
  rcases identified with ⟨_, _, rfl⟩
  refine agree_get_bind ?_
  rintro one two ⟨_, rfl⟩
  refine agree_bind (agree_respond injective repeatable
    ⟨pack, criterion, _, repetition, _, distinguished, slots, rfl⟩) ?_
  intro response
  refine agree_bind (agree_change fun _ => ⟨rfl, rfl⟩) fun _ => ?_
  refine agree_get_bind ?_
  rintro later last ⟨_, rfl⟩
  refine agree_bind (agree_lift _) fun _ => ?_
  exact agree_weigh criterion response candidateA candidateB

theorem agree_scoreOnePair (injective : Function.Injective digests.sha256)
    (repeatable : backend.Repeatable) (distinguished : Distinguished pack)
    {candidateA : VerifierCandidate} {candidateB : Option VerifierCandidate}
    (eligible : candidateA ∈ eligibleOf pack)
    (eligibleB : ∀ candidate ∈ candidateB, candidate ∈ eligibleOf pack) :
    Agree (Alike digests arithmetic backend)
      (scoreOnePair digests arithmetic backend config pack candidateA
        candidateB)
      (scoreOnePair digests arithmetic backend config pack candidateA
        candidateB) :=
  agree_forM fun criterion _ => agree_forM fun repetition _ =>
    agree_evaluate injective repeatable distinguished criterion eligible
      eligibleB repetition

theorem byId_mem {candidates : List VerifierCandidate} {candidateId : String}
    {candidate : VerifierCandidate}
    (found : byId candidates candidateId = .ok candidate) :
    candidate ∈ candidates :=
  List.mem_of_find?_eq_some (demand_eq_ok.mp found)

theorem agree_scoreEdges (injective : Function.Injective digests.sha256)
    (repeatable : backend.Repeatable) (distinguished : Distinguished pack)
    (edges : List TournamentComparison) :
    Agree (Alike digests arithmetic backend)
      (scoreEdges digests arithmetic backend config pack (eligibleOf pack)
        edges)
      (scoreEdges digests arithmetic backend config pack (eligibleOf pack)
        edges) := by
  refine agree_forM fun edge _ => ?_
  refine agree_lift_bind fun candidateA foundA => ?_
  refine agree_lift_bind fun candidateB foundB => ?_
  refine agree_scoreOnePair injective repeatable distinguished
    (byId_mem foundA) ?_
  rintro candidate ⟨⟩
  exact byId_mem foundB

theorem agree_scoreRounds (injective : Function.Injective digests.sha256)
    (repeatable : backend.Repeatable) (distinguished : Distinguished pack)
    {candidates : List VerifierCandidate}
    (eligible : ∀ candidate ∈ candidates, candidate ∈ eligibleOf pack) :
    Agree (Alike digests arithmetic backend)
      (scoreRounds digests arithmetic backend config pack (eligibleOf pack)
        candidates)
      (scoreRounds digests arithmetic backend config pack (eligibleOf pack)
        candidates) := by
  rw [scoreRounds.eq_def]
  split
  · next candidate =>
      refine agree_scoreOnePair injective repeatable distinguished
        (eligible candidate List.mem_cons_self) ?_
      rintro other ⟨⟩
  · refine agree_lift_bind fun first _ => ?_
    refine agree_bind (agree_scoreEdges injective repeatable distinguished
      first.ring) fun _ => ?_
    refine agree_get_bind ?_
    rintro one two ⟨_, rfl⟩
    refine agree_lift_bind fun complete _ => ?_
    exact agree_scoreEdges injective repeatable distinguished complete.pivot

theorem agree_scoreCandidates (injective : Function.Injective digests.sha256)
    (repeatable : backend.Repeatable) (distinguished : Distinguished pack) :
    Agree (Alike digests arithmetic backend)
      (scoreCandidates digests arithmetic backend config pack
        (eligibleOf pack))
      (scoreCandidates digests arithmetic backend config pack
        (eligibleOf pack)) := by
  refine agree_bind (agree_scoreRounds injective repeatable distinguished
    fun _ member => member) fun _ => ?_
  refine agree_get_bind ?_
  rintro one two ⟨_, rfl⟩
  exact agree_pure _

end Runs

/-! ## Filled caches -/

/-- A cache which verifications have filled, from an empty one on. -/
inductive Filled (digests : Digests) (arithmetic : Arithmetic)
    (backend : VerifierBackend) : VerifierScoreCache → Prop where
  | empty : Filled digests arithmetic backend fun _ => none
  | run {cache after : VerifierScoreCache}
      {config : NormalizedAgentVerifierConfig}
      {pack : VerifierEvidencePack digests} {request : VerifyRequest}
      {result : AgentVerifierResult}
      (filled : Filled digests arithmetic backend cache)
      (distinguished : Distinguished pack)
      (verified : verify digests arithmetic backend config pack request
        (some cache) = .ok (result, some after)) :
      Filled digests arithmetic backend after

section Transparency

variable {digests : Digests} {arithmetic : Arithmetic}
  {backend : VerifierBackend} {config : NormalizedAgentVerifierConfig}
  {pack : VerifierEvidencePack digests} {request : VerifyRequest}
  {cache : VerifierScoreCache}

/-- Two verifications have the same result; the cache of one stays honest. -/
def Same (digests : Digests) (arithmetic : Arithmetic)
    (backend : VerifierBackend)
    (one two : Except String (AgentVerifierResult × Option VerifierScoreCache))
    : Prop :=
  one.map Prod.fst = two.map Prod.fst ∧
    ∀ result after, one = .ok (result, some after) →
      Honest digests arithmetic backend after

theorem same_return (honest : Honest digests arithmetic backend cache)
    (result : AgentVerifierResult) :
    Same digests arithmetic backend (pure (result, some cache))
      (pure (result, none)) := by
  refine ⟨rfl, ?_⟩
  rintro other after ⟨⟩
  exact honest

theorem same_bind {α : Type} (answer : Except String α)
    {next follow : α →
      Except String (AgentVerifierResult × Option VerifierScoreCache)}
    (later : ∀ value, Same digests arithmetic backend (next value)
      (follow value)) :
    Same digests arithmetic backend (answer >>= next) (answer >>= follow) := by
  cases answer with
  | ok value => exact later value
  | error failure =>
    refine ⟨rfl, ?_⟩
    rintro result after ⟨⟩

theorem same_concluded {incumbentCandidateId : String}
    {filtered : DeterministicFilterResult}
    {one two : Except String (List (String × ℚ)) × Scoring}
    (same : one.1 = two.1) (alike : Alike digests arithmetic backend one.2
      two.2) :
    Same digests arithmetic backend
      (pure (concluded arithmetic config pack.toVerifierEvidence
        incumbentCandidateId filtered one))
      (pure (concluded arithmetic config pack.toVerifierEvidence
        incumbentCandidateId filtered two)) := by
  rcases one with ⟨answer, final⟩
  rcases two with ⟨reply, last⟩
  rcases alike with ⟨⟨after, kept, honest⟩, rfl⟩
  cases (show answer = reply from same)
  have cached : final.scoreCache = some after := kept
  cases answer with
  | ok scores =>
    refine ⟨rfl, fun result next returned => ?_⟩
    rw [concluded, cached] at returned
    cases returned
    exact honest
  | error message =>
    refine ⟨rfl, fun result next returned => ?_⟩
    rw [concluded, cached] at returned
    cases returned
    exact honest

/-- With an honest cache and without one, the results are the same. -/
theorem verify_honest (injective : Function.Injective digests.sha256)
    (repeatable : backend.Repeatable) (distinguished : Distinguished pack)
    (honest : Honest digests arithmetic backend cache) :
    Same digests arithmetic backend
      (verify digests arithmetic backend config pack request (some cache))
      (verify digests arithmetic backend config pack request none) := by
  have agree := @agree_scoreCandidates digests arithmetic backend config pack
    injective repeatable distinguished (Scoring.start (some cache)) _
    ⟨⟨cache, rfl, honest⟩, rfl⟩
  refine same_bind _ fun _ => same_bind _ fun _ => same_bind _ fun _ => ?_
  dsimp only
  split
  · exact same_return honest _
  · split
    · exact same_return honest _
    · exact same_bind _ fun _ => same_concluded agree.1 agree.2

theorem honest_of_filled (injective : Function.Injective digests.sha256)
    (repeatable : backend.Repeatable)
    (filled : Filled digests arithmetic backend cache) :
    Honest digests arithmetic backend cache := by
  induction filled with
  | empty =>
    intro requestId response cached
    cases cached
  | run filled distinguished verified inductionHypothesis =>
    exact (verify_honest injective repeatable distinguished
      inductionHypothesis).2 _ _ verified

end Transparency

/--
For a backend whose scores depend on the problem alone, a verification has the
same result with a cache that verifications have filled and without one, as
long as each of them has told its eligible candidates apart.
-/
theorem cache_transparent (digests : Digests) (arithmetic : Arithmetic)
    (backend : VerifierBackend) (injective : Function.Injective digests.sha256)
    (repeatable : backend.Repeatable) (cache : VerifierScoreCache)
    (filled : Filled digests arithmetic backend cache)
    (config : NormalizedAgentVerifierConfig)
    (pack : VerifierEvidencePack digests) (request : VerifyRequest)
    (distinguished : Distinguished pack) :
    (verify digests arithmetic backend config pack request (some cache)).map
        Prod.fst =
      (verify digests arithmetic backend config pack request none).map
        Prod.fst :=
  (verify_honest injective repeatable distinguished
    (honest_of_filled injective repeatable filled)).1

/-! ## Candidates with one artifact -/

section Twins

def sampleArithmetic : Arithmetic where
  round := id
  logistic _ _ := 1 / 2

def sampleDigest : String :=
  "sha256:" ++ String.ofList (List.replicate 64 '0')

/-- The full score for each candidate. -/
def fullScores (candidateIds : List String) : OrderedMap String Number :=
  .ofList (candidateIds.map fun id => (id, some 1))

def fullResponse (input : VerifierBackendScoreInput) :
    VerifierBackendScore where
  requestId := input.requestId
  scores := fullScores
    (input.candidates.map VerifierBackendCandidate.candidateId)
  criterionId := input.criterion.id
  rawResponseDigest := sampleDigest
  recognizedProbabilityMass := some 1
  usage := ⟨some 0, some 0, some 0, some 0, some 0⟩
  estimatedCostUsd := some 0
  latencyMs := some 0

def fullBackend : VerifierBackend where
  descriptor := ⟨"deepseek", "deepseek", "chat", "1", .nonthinkingLogprobs⟩
  score input := .ok (fullResponse input)

theorem repeatable_fullBackend : fullBackend.Repeatable where
  fails one two failure same failed := by cases failed
  answers one two response other same answered answeredToo := by
    cases answered
    cases answeredToo
    have criterion := congrArg VerifierBackendScoreInput.criterion same
    have candidates := congrArg VerifierBackendScoreInput.candidates same
    refine ⟨?_, fun _ => rfl⟩
    rw [VerifierBackendScore.content, VerifierBackendScore.content,
      fullResponse, fullResponse, show one.criterion = two.criterion from
      criterion, show one.candidates = two.candidates from candidates]

/-- A candidate with nothing against it. -/
def sampleCandidate (artifactOf : String → String) (candidateId : String) :
    VerifierCandidate where
  candidateId := candidateId
  artifactDigest := artifactOf candidateId
  kind := .patch
  observableOutput := "return total"
  changedPaths := ["sum.ts"]
  evidenceRefs := ["excerpt"]
  deterministicCheckIds := ["tests"]
  hardCriterionResults := []

def sampleCriterion : VerifierCriterion where
  id := "quality"
  title := "Quality"
  description := "The change is right"
  hard := false
  weight := 1

def sampleEvidence (digests : Digests) (artifactOf : String → String) :
    VerifierEvidence where
  tenantId := "tenant"
  missionId := "mission"
  taskId := "task"
  product := .fettler
  repositoryId := "repository"
  snapshotDigest := sampleDigest
  objective := "Add the numbers"
  risk := .medium
  governance := ⟨.isInternal, "eu", "eu", true, true, "consent", true⟩
  allowedChangedPaths := ["sum.ts"]
  criteria := [sampleCriterion]
  sources := [⟨"excerpt", .repositoryExcerpt, sampleDigest, "sum.ts",
    "let total", digests.sha256 "let total"⟩]
  checks := [⟨"tests", .passed, [], none⟩]
  candidates := ["a", "b", "c"].map (sampleCandidate artifactOf)
  assembledAt := "2026-01-01T00:00:00.000Z"
  assemblerVersion := "1"

variable (digests : Digests)

def samplePack (artifactOf : String → String) :
    VerifierEvidencePack digests where
  toVerifierEvidence := sampleEvidence digests artifactOf
  packDigest := digests.of
    (VerifierEvidence.encoding.write (sampleEvidence digests artifactOf))
  digested := rfl
  distinctCandidates := by
    show ["a", "b", "c"].Nodup
    decide

/-- Three candidates with one artifact. -/
def twinPack : VerifierEvidencePack digests :=
  samplePack digests fun _ => sampleDigest

def twin : String → VerifierCandidate :=
  sampleCandidate fun _ => sampleDigest

def sampleConfig : NormalizedAgentVerifierConfig where
  enabled := true
  rolloutMode := .advisory
  evaluations := 1
  pivots := 1
  seed := 0
  maximumCandidates := 8
  maximumCostUsd := 1
  behaviorChangeAuthority := none

def sampleRequest : VerifyRequest :=
  ⟨"a", "attempt", "2026-01-01T00:00:00.000Z"⟩

/-- The pairs of the ring. -/
def twinRing : List (String × String) :=
  [("c", "b"), ("b", "a"), ("a", "c")]

theorem checked_full {input : VerifierBackendScoreInput} {first second : String}
    (named : input.candidates.map VerifierBackendCandidate.candidateId = [first, second])
    (member : (first, second) ∈ twinRing) :
    checked sampleArithmetic input (fullResponse input) =
      .ok (fullResponse input) := by
  have scored : ∀ pair ∈ twinRing,
      ¬ (Text.sortTexts (fullScores [pair.1, pair.2]).keys ≠
        Text.sortTexts [pair.1, pair.2] ∨
        ∃ score ∈ (fullScores [pair.1, pair.2]).values, ¬ Within 0 1 score) := by
    decide
  have mass : ¬ ¬ Within (1 / 2)
      (sampleArithmetic.round (1000001 / 1000000)) (some 1) := by
    norm_num [Within, sampleArithmetic]
  have usage : ¬ ¬ VerifierUsage.Consistent sampleArithmetic
      ⟨some 0, some 0, some 0, some 0, some 0⟩ := by
    simp [VerifierUsage.Consistent, IsCount, Arithmetic.add, sampleArithmetic, SafeInteger.Safe,
      SafeInteger.maxSafe]
  rw [checked, validateBackendScore, fullResponse, named]
  simp only
  rw [throwIf_of_not (by simp), ok_bind, throwIf_of_not (scored _ member),
    ok_bind, throwIf_of_not (by decide), ok_bind, throwIf_of_not mass, ok_bind,
    throwIf_of_not usage, ok_bind, throwIf_of_not (by simp), ok_bind]
  rfl

theorem verify_twin (scoreCache : Option VerifierScoreCache) :
    verify digests sampleArithmetic fullBackend sampleConfig
        (twinPack digests) sampleRequest scoreCache =
      .ok (concluded sampleArithmetic sampleConfig
        (twinPack digests).toVerifierEvidence "a"
        (filterDeterministicCandidates (twinPack digests).toVerifierEvidence)
        (outcome (scoreCandidates digests sampleArithmetic fullBackend
          sampleConfig (twinPack digests) (["a", "b", "c"].map twin))
          (.start scoreCache))) :=
  rfl

/-- The identity which all pairs of the candidates share. -/
def twinIdentity : String :=
  digests.of (VerifierScoreIdentityInput.encoding.write
    (scoreIdentity digests fullBackend (twinPack digests) sampleCriterion
      [twin "c", twin "b"] 0))

def twinInput (first second : String) : VerifierBackendScoreInput :=
  backendInput digests (twinPack digests) sampleCriterion
    [twin first, twin second] 0 (twinIdentity digests)
    (sampleArithmetic.sub 1 0)

/-- The state after the evaluation of a pair whose scores are missing. -/
def evaluated (first second : String) (state : Scoring) : Scoring :=
  let response := fullResponse (twinInput digests first second)
  Scoring.gain sampleArithmetic (twin second).candidateId
    (sampleArithmetic.sub 1 (1 / 2)) sampleCriterion.weight
    (Scoring.gain sampleArithmetic (twin first).candidateId (1 / 2)
      sampleCriterion.weight
      { state.put (twinIdentity digests) response with
        totals := accumulateTotals sampleArithmetic state.totals response })

section Pairs

variable {digests} {first second : String} {state : Scoring}

theorem yields_weigh (member : (first, second) ∈ twinRing) :
    Yields (weigh sampleArithmetic sampleCriterion
      (fullResponse (twinInput digests first second)) (twin first)
      (some (twin second))) state ⟨⟩
      (Scoring.gain sampleArithmetic (twin second).candidateId
        (sampleArithmetic.sub 1 (1 / 2)) sampleCriterion.weight
        (Scoring.gain sampleArithmetic (twin first).candidateId (1 / 2)
          sampleCriterion.weight state)) := by
  have scores : ∀ pair ∈ twinRing,
      ((fullScores [pair.1, pair.2]).get? pair.1).join = some 1 ∧
      ((fullScores [pair.1, pair.2]).get? pair.2).join = some 1 := by
    decide
  rcases scores _ member with ⟨firstScore, secondScore⟩
  have win : bradleyTerryWinProbability sampleArithmetic 1 1 = .ok (1 / 2) :=
    bind_eq_ok.mpr ⟨⟨⟩, throwIf_of_not (by norm_num), rfl⟩
  exact yields_lift_bind.mpr ⟨1, demand_eq_ok.mpr firstScore,
    yields_lift_bind.mpr ⟨1, demand_eq_ok.mpr secondScore,
      yields_lift_bind.mpr ⟨_, win, rfl⟩⟩⟩

theorem yields_evaluate (member : (first, second) ∈ twinRing)
    (free : state.totals.cost = 0)
    (missing : (state.scoreCache.bind fun cache =>
      cache (twinIdentity digests)) = none) :
    Yields (evaluate digests sampleArithmetic fullBackend sampleConfig
      (twinPack digests) sampleCriterion (twin first) (some (twin second)) 0)
      state ⟨⟩ (evaluated digests first second state) := by
  have named : verifierScoreIdentity digests (scoreIdentity digests fullBackend
      (twinPack digests) sampleCriterion [twin first, twin second] 0) =
        .ok (twinIdentity digests) :=
    bind_eq_ok.mpr ⟨⟨⟩, throwIf_of_not
      (show ¬ ¬ SafeInteger.Safe (0 : Nat) by decide), rfl⟩
  have answered : answer sampleArithmetic fullBackend
      (twinInput digests first second) =
        .ok (fullResponse (twinInput digests first second)) :=
    checked_full rfl member
  have responded : Yields (respond sampleArithmetic fullBackend
      (twinInput digests first second)) state
      (fullResponse (twinInput digests first second))
      (state.put (twinIdentity digests)
        (fullResponse (twinInput digests first second))) := by
    rw [Yields, outcome_respond_of_missing missing, answered]
    rfl
  have spent : ¬ (1 < (accumulateTotals sampleArithmetic state.totals
      (fullResponse (twinInput digests first second))).cost) := by
    show ¬ (1 < state.totals.cost + 0)
    rw [free]
    norm_num
  have asked : backendInput digests (twinPack digests) sampleCriterion
      [twin first, twin second] 0 (twinIdentity digests)
      (sampleArithmetic.sub 1 state.totals.cost) =
        twinInput digests first second := by
    rw [free]
    rfl
  rw [← asked] at responded
  exact yields_lift_bind.mpr ⟨_, named, yields_get_bind.mpr
    (yields_bind.mpr ⟨fullResponse (twinInput digests first second), _,
      responded, yields_bind.mpr ⟨⟨⟩, _, yields_modify.mpr rfl,
        yields_get_bind.mpr (yields_lift_bind.mpr ⟨⟨⟩, throwIf_of_not spent,
          yields_weigh member⟩)⟩⟩)⟩

theorem cost_evaluated (free : state.totals.cost = 0) :
    (evaluated digests first second state).totals.cost = 0 := by
  show state.totals.cost + 0 = 0
  rw [free, add_zero]

theorem byId_twin (member : (first, second) ∈ twinRing) :
    byId (["a", "b", "c"].map twin) first = .ok (twin first) ∧
      byId (["a", "b", "c"].map twin) second = .ok (twin second) := by
  have known : ∀ pair ∈ twinRing, ∀ id ∈ [pair.1, pair.2],
      (["a", "b", "c"].map twin).find? (fun candidate =>
        decide (candidate.candidateId = id)) = some (twin id) := by
    decide
  have pair := known _ member
  exact ⟨demand_eq_ok.mpr (pair first List.mem_cons_self),
    demand_eq_ok.mpr (pair second (List.mem_cons_of_mem _
      List.mem_cons_self))⟩

/-- The evaluation of a pair of the ring by the identifiers. -/
theorem yields_edge (member : (first, second) ∈ twinRing)
    (free : state.totals.cost = 0)
    (missing : (state.scoreCache.bind fun cache =>
      cache (twinIdentity digests)) = none) :
    Yields (do
      let candidateA ← liftM (byId (["a", "b", "c"].map twin) first)
      let candidateB ← liftM (byId (["a", "b", "c"].map twin) second)
      scoreOnePair digests sampleArithmetic fullBackend sampleConfig
        (twinPack digests) candidateA (some candidateB)) state ⟨⟩
      (evaluated digests first second state) :=
  yields_lift_bind.mpr ⟨_, (byId_twin member).1,
    yields_lift_bind.mpr ⟨_, (byId_twin member).2,
      yields_bind.mpr ⟨⟨⟩, _, yields_bind.mpr ⟨⟨⟩, _,
        yields_evaluate member free missing, rfl⟩, rfl⟩⟩⟩

/-- What is cached for a pair is no response for another pair. -/
theorem fails_evaluate {third : String} {response : VerifierBackendScore}
    (cached : (state.scoreCache.bind fun cache =>
      cache (twinIdentity digests)) = some response)
    (named : response.requestId = twinIdentity digests)
    (criterion : response.criterionId = "quality")
    (apart : Text.sortTexts response.scores.keys ≠
      Text.sortTexts [second, third]) :
    Fails (evaluate digests sampleArithmetic fullBackend sampleConfig
      (twinPack digests) sampleCriterion (twin second) (some (twin third)) 0)
      state "verifier_backend_scores_invalid" state := by
  have identified : verifierScoreIdentity digests (scoreIdentity digests
      fullBackend (twinPack digests) sampleCriterion
      [twin second, twin third] 0) = .ok (twinIdentity digests) :=
    bind_eq_ok.mpr ⟨⟨⟩, throwIf_of_not
      (show ¬ ¬ SafeInteger.Safe (0 : Nat) by decide), rfl⟩
  have refused : ∀ maximumCostUsd, checked sampleArithmetic
      (backendInput digests (twinPack digests) sampleCriterion
        [twin second, twin third] 0 (twinIdentity digests) maximumCostUsd)
      response = .error "verifier_backend_scores_invalid" := by
    intro maximumCostUsd
    refine bind_eq_error.mpr (Or.inr ⟨⟨⟩, throwIf_of_not ?_,
      bind_eq_error.mpr (Or.inl (throwIf_eq_error.mpr ⟨Or.inl apart, rfl⟩))⟩)
    exact fun unlike => unlike.elim (fun other => other named)
      fun other => other criterion
  refine fails_bind.mpr (Or.inr ⟨_, _, yields_lift.mpr ⟨identified, rfl⟩,
    fails_bind.mpr (Or.inr ⟨_, _, yields_get.mpr ⟨rfl, rfl⟩,
      fails_bind.mpr (Or.inl ?_)⟩)⟩)
  rw [Fails, outcome_respond_of_cached cached]
  exact congrArg (·, state) (refused _)

end Pairs

/-- The ring of the candidates. -/
def twinEdges : List TournamentComparison :=
  twinRing.map fun pair => ⟨pair.1, pair.2⟩

theorem twin_schedule (scores : String → Option ℚ) :
    ∃ schedule, buildPivotTournamentSchedule ["a", "b", "c"] 1 0 scores =
      .ok schedule ∧ schedule.ring = twinEdges ∧ schedule.pivot = [] := by
  have pivot : ∃ id ∈ ["a", "b", "c"],
      pivotsOf scores ["a", "b", "c"] 1 = [id] := by
    rw [pivotsOf]
    have same := List.perm_insertionSort (Ranked scores) ["a", "b", "c"]
    cases sorted : ["a", "b", "c"].insertionSort (Ranked scores) with
    | nil =>
      rw [sorted] at same
      cases same.length_eq
    | cons id rest =>
      rw [sorted] at same
      exact ⟨id, same.mem_iff.mp List.mem_cons_self, rfl⟩
  rcases pivot with ⟨id, member, picked⟩
  refine ⟨_, rfl, rfl, ?_⟩
  show (List.foldl Added.add _ (pivotPairs ["a", "b", "c"]
    (pivotsOf scores ["a", "b", "c"] 1))).pivot = []
  rw [picked]
  simp only [List.mem_cons, List.not_mem_nil, or_false] at member
  rcases member with rfl | rfl | rfl <;> decide

/-- Without a cache, each pair of the ring is scored. -/
theorem yields_twins :
    ∃ scores after, Yields (scoreCandidates digests sampleArithmetic fullBackend
      sampleConfig (twinPack digests) (["a", "b", "c"].map twin)) (.start none)
      scores after := by
  rcases twin_schedule fun _ => none with ⟨first, made, ring, _⟩
  have ran : ∃ after, Yields (scoreEdges digests sampleArithmetic fullBackend
      sampleConfig (twinPack digests) (["a", "b", "c"].map twin) twinEdges)
      (.start none) ⟨⟩ after :=
    ⟨_, yields_bind.mpr ⟨⟨⟩, _, yields_edge (by decide) rfl rfl,
      yields_bind.mpr ⟨⟨⟩, _, yields_edge (by decide) (cost_evaluated rfl) rfl,
        yields_bind.mpr ⟨⟨⟩, _, yields_edge (by decide)
          (cost_evaluated (cost_evaluated rfl)) rfl, rfl⟩⟩⟩⟩
  rcases ran with ⟨after, ran⟩
  rcases twin_schedule fun id => if id ∈ ["a", "b", "c"] then
    some (after.mean sampleArithmetic id) else none with
    ⟨complete, completed, _, pivot⟩
  refine ⟨_, after, yields_bind.mpr ⟨⟨⟩, after, yields_lift_bind.mpr
    ⟨first, made, yields_bind.mpr ⟨⟨⟩, after, ring ▸ ran, yields_get_bind.mpr
      (yields_lift_bind.mpr ⟨complete, completed, ?_⟩)⟩⟩,
    yields_get_bind.mpr rfl⟩⟩
  rw [pivot]
  rfl

/-- With an empty cache, what the first pair leaves fails for the second. -/
theorem fails_twins :
    ∃ after, Fails (scoreCandidates digests sampleArithmetic fullBackend
      sampleConfig (twinPack digests) (["a", "b", "c"].map twin))
      (.start (some fun _ => none)) "verifier_backend_scores_invalid" after := by
  rcases twin_schedule fun _ => none with ⟨first, made, ring, _⟩
  have cached : Function.update (fun _ => none) (twinIdentity digests)
      (some (fullResponse (twinInput digests "c" "b")))
      (twinIdentity digests) =
        some (fullResponse (twinInput digests "c" "b")) :=
    Function.update_self ..
  have refused := @fails_evaluate digests "b"
    (evaluated digests "c" "b" (.start (some fun _ => none))) "a" _ cached rfl
    rfl (show Text.sortTexts (fullScores ["c", "b"]).keys ≠ _ by decide)
  have known := @byId_twin "b" "a" (by decide)
  have stopped : ∃ after, Fails (scoreEdges digests sampleArithmetic
      fullBackend sampleConfig (twinPack digests) (["a", "b", "c"].map twin)
      twinEdges) (.start (some fun _ => none))
      "verifier_backend_scores_invalid" after :=
    ⟨_, fails_bind.mpr (Or.inr ⟨⟨⟩, _, yields_edge (by decide) rfl rfl,
      fails_bind.mpr (Or.inl (fails_bind.mpr (Or.inr ⟨_, _,
        yields_lift.mpr ⟨known.1, rfl⟩, fails_bind.mpr (Or.inr ⟨_, _,
          yields_lift.mpr ⟨known.2, rfl⟩, fails_bind.mpr (Or.inl
            (fails_bind.mpr (Or.inl refused)))⟩)⟩)))⟩)⟩
  rcases stopped with ⟨after, stopped⟩
  exact ⟨after, fails_bind.mpr (Or.inl (fails_bind.mpr (Or.inr ⟨first, _,
    yields_lift.mpr ⟨made, rfl⟩, fails_bind.mpr
      (Or.inl (ring ▸ stopped))⟩)))⟩

end Twins

def sampleDigests : Digests where
  numerals := .fractions
  sha256 text := "sha256:" ++ text

theorem injective_sampleDigests : Function.Injective sampleDigests.sha256 := by
  intro left right same
  have chars := congrArg String.toList same
  simp only [sampleDigests, String.toList_append,
    List.append_cancel_left_eq] at chars
  exact String.toList_inj.mp chars

/-- Three candidates with one artifact are not scored with a cache. -/
theorem twins_not_scored :
    Function.Injective sampleDigests.sha256 ∧ fullBackend.Repeatable ∧
      (verify sampleDigests sampleArithmetic fullBackend sampleConfig
        (twinPack sampleDigests) sampleRequest none).map
          (fun answer => answer.1.status) = .ok .verified ∧
      (verify sampleDigests sampleArithmetic fullBackend sampleConfig
        (twinPack sampleDigests) sampleRequest (some fun _ => none)).map
          (fun answer => answer.1.status) = .ok .failed := by
  rcases yields_twins sampleDigests with ⟨scores, after, scored⟩
  rcases fails_twins sampleDigests with ⟨last, stopped⟩
  refine ⟨injective_sampleDigests, repeatable_fullBackend, ?_, ?_⟩
  · rw [verify_twin, show outcome _ _ = _ from scored]
    rfl
  · rw [verify_twin, show outcome _ _ = _ from stopped]
    rfl

/-- The digest of an artifact which is that of no other candidate. -/
def ownArtifact (candidateId : String) : String :=
  "sha256:" ++ String.ofList (List.replicate 64 (candidateId.toList.headD '0'))

theorem cache_transparent_sample :
    (verify sampleDigests sampleArithmetic fullBackend sampleConfig
      (samplePack sampleDigests ownArtifact) sampleRequest
      (some fun _ => none)).map Prod.fst =
    (verify sampleDigests sampleArithmetic fullBackend sampleConfig
      (samplePack sampleDigests ownArtifact) sampleRequest none).map
        Prod.fst :=
  cache_transparent sampleDigests sampleArithmetic fullBackend
    injective_sampleDigests repeatable_fullBackend _ .empty sampleConfig
    (samplePack sampleDigests ownArtifact) sampleRequest (by
      show (["a", "b", "c"].map ownArtifact).Nodup
      decide)

end Mendpoint.Verifier

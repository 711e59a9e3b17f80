import Mendpoint.Calls.Incremental
import Mendpoint.Library.IsoTime
import Mendpoint.Library.JsonSuffix

/-!
# Memoised queries of call graphs

Results of queries are kept under their names and arguments for as long as the
fingerprint of the graph which is passed stays the same.  The fingerprint is
made of the time at which the graph was built and of counts; what is returned
is that of the graph which is passed where graphs of one fingerprint, which
meet in one entry, are one graph.
-/

namespace Mendpoint.Calls

open Mendpoint.Library
open Mendpoint.Library.IsoTime

/-! ## Graphs with their times -/

/-- `lastIncremental.mode`. -/
inductive IncrementalMode where
  | resetRecompute
  | fullRebuild

def IncrementalMode.text : IncrementalMode → String
  | resetRecompute => "reset_recompute"
  | fullRebuild => "full_rebuild"

/-- A call graph with its times; `rest` are its diagnostics and what else
`lastIncremental` tells. -/
structure TimedGraph (R : Type) where
  graph : CallGraph
  builtAt : Instant
  mode : Option IncrementalMode
  rest : R

variable {R V : Type}

def graphVersion (g : TimedGraph R) : String :=
  g.builtAt.text ++ ":" ++ toString g.graph.stats.nodeCount ++ ":" ++
    toString g.graph.stats.edgeCount ++ ":" ++
    (g.mode.map IncrementalMode.text).getD "full"

/-! ## The cache -/

inductive QueryColor where
  | red
  | green
  deriving DecidableEq

/-- An entry, without the time at which it was made. -/
structure MemoEntry (V : Type) where
  color : QueryColor
  inputKey : String
  value : V

structure RedGreenCache (V : Type) where
  graphVersion : String
  entries : OrderedMap String (MemoEntry V)

def createRedGreenCache (g : TimedGraph R) : RedGreenCache V where
  graphVersion := graphVersion g
  entries := .empty

/-- Invalidate all entries when the graph version changes. -/
def syncCacheToGraph (cache : RedGreenCache V) (g : TimedGraph R) :
    RedGreenCache V :=
  if graphVersion g ≠ cache.graphVersion then
    { graphVersion := graphVersion g, entries := .empty }
  else cache

/-- `JSON.stringify(args)`, in a template. -/
def argsText (numerals : Numerals) : Option Json → String
  | none => "undefined"
  | some args => String.ofList (args.chars numerals)

def queryKey (numerals : Numerals) (name : String) (args : Option Json) :
    String :=
  name ++ ":" ++ argsText numerals args

def redGreenQuery (numerals : Numerals) (cache : RedGreenCache V)
    (g : TimedGraph R) (name : String) (args : Option Json)
    (compute : Unit → V) : (V × QueryColor) × RedGreenCache V :=
  let cache := syncCacheToGraph cache g
  let key := queryKey numerals name args
  let inputKey := cache.graphVersion ++ ":" ++ key
  match (cache.entries.get? key).filter fun hit =>
      decide (hit.color = .green ∧ hit.inputKey = inputKey) with
  | some hit => ((hit.value, .green), cache)
  | none =>
    let value := compute ()
    ((value, .red), { cache with
      entries := cache.entries.set key { color := .green, inputKey, value } })

/-- Whether an entry is dirty: without arguments, all of a name are. -/
def isMarked (numerals : Numerals) (name : String) (args : Option Json)
    (key : String) : Bool :=
  match args with
  | none => Text.startsWith key (name ++ ":")
  | some _ => decide (key = queryKey numerals name args)

/-- Mark queries dirty (red). -/
def markRed (numerals : Numerals) (cache : RedGreenCache V) (name : String)
    (args : Option Json) : RedGreenCache V :=
  { cache with
    entries := cache.entries.filterKeys fun key =>
      !isMarked numerals name args key }

/-! ## Runs -/

/-- A call on a cache. -/
inductive CacheCall (R : Type) where
  | query (graph : TimedGraph R) (name : String) (args : Option Json)
  | markRed (name : String) (args : Option Json)

/-- What is computed, from a graph, a name and arguments. -/
abbrev Compute (R V : Type) : Type :=
  TimedGraph R → String → Option Json → V

/-- A call, and what a query returns. -/
def CacheCall.run (numerals : Numerals) (compute : Compute R V)
    (cache : RedGreenCache V) : CacheCall R → Option V × RedGreenCache V
  | .query graph name args =>
    let answer := redGreenQuery numerals cache graph name args
      fun _ => compute graph name args
    (some answer.1.1, answer.2)
  | .markRed name args => (none, Calls.markRed numerals cache name args)

/-- What the queries of a run return. -/
def returned (numerals : Numerals) (compute : Compute R V)
    (cache : RedGreenCache V) : List (CacheCall R) → List (Option V)
  | [] => []
  | call :: rest =>
    let answer := call.run numerals compute cache
    answer.1 :: returned numerals compute answer.2 rest

/-- The cache after a run. -/
def cacheAfter (numerals : Numerals) (compute : Compute R V)
    (cache : RedGreenCache V) : List (CacheCall R) → RedGreenCache V
  | [] => cache
  | call :: rest =>
    cacheAfter numerals compute (call.run numerals compute cache).2 rest

/-- What a query has to return. -/
def CacheCall.value (compute : Compute R V) : CacheCall R → Option V
  | .query graph name args => some (compute graph name args)
  | .markRed _ _ => none

/-! ## Keys -/

variable {numerals : Numerals}

/-- No JSON text ends as `undefined` does. -/
theorem chars_last_ne (value : Json) (front : List Char) :
    value.chars numerals ≠ front ++ ['d'] := by
  intro same
  have lasts := congrArg List.getLast? same
  rw [List.getLast?_concat] at lasts
  cases value with
  | null =>
    rw [Json.chars] at lasts
    cases lasts
  | bool value =>
    rw [Json.chars] at lasts
    cases value with
    | false => cases lasts
    | true => cases lasts
  | num value =>
    rw [Json.chars] at lasts
    have numeral := numerals.numeric value 'd' (List.mem_of_getLast? lasts)
    cases numeral
  | str text =>
    rw [Json.chars_str, List.getLast?_concat] at lasts
    cases lasts
  | arr items =>
    rw [Json.chars_arr, List.getLast?_concat] at lasts
    cases lasts
  | obj fields =>
    rw [Json.chars_obj, List.getLast?_concat] at lasts
    cases lasts

theorem argsText_inj {front back : List Char} {args others : Option Json}
    (same : front ++ ':' :: (argsText numerals args).toList =
      back ++ ':' :: (argsText numerals others).toList) :
    front = back ∧ args = others := by
  have notJson (front back : List Char) (value : Json) :
      front ++ ':' :: (argsText numerals none).toList ≠
        back ++ ':' :: value.chars numerals := by
    intro same
    have ends : (argsText numerals none).toList =
        "undefine".toList ++ ['d'] := by
      rw [argsText]
      decide
    rw [List.append_cons back, ends, ← List.cons_append,
      ← List.append_assoc] at same
    rcases Json.exists_last same with ⟨before, isLast⟩
    exact chars_last_ne value before isLast
  cases args with
  | none =>
    cases others with
    | none => exact ⟨List.append_cancel_right same, rfl⟩
    | some value =>
      rw [show argsText numerals (some value) =
        String.ofList (value.chars numerals) from rfl,
        String.toList_ofList] at same
      exact absurd same (notJson front back value)
  | some value =>
    rw [show argsText numerals (some value) =
      String.ofList (value.chars numerals) from rfl,
      String.toList_ofList] at same
    cases others with
    | none => exact absurd same.symm (notJson back front value)
    | some other =>
      have colon (front : List Char) : Json.Open (front ++ [':']) :=
        Json.open_concat.mpr (Or.inl rfl)
      rw [argsText, String.toList_ofList, List.append_cons,
        List.append_cons back] at same
      rcases Json.append_chars_inj (colon front) (colon back) same with
        ⟨fronts, rfl⟩
      exact ⟨List.append_cancel_right fronts, rfl⟩

theorem queryKey_inj {name other : String} {args others : Option Json}
    (same : queryKey numerals name args = queryKey numerals other others) :
    name = other ∧ args = others := by
  have texts := congrArg String.toList same
  simp only [queryKey, String.toList_append, List.append_assoc] at texts
  rcases argsText_inj texts with ⟨names, equal⟩
  exact ⟨String.toList_inj.mp names, equal⟩

/-! ## Stretches of one fingerprint -/

/-- A call which leaves an entry as it is, under a fingerprint. -/
def Undisturbed (numerals : Numerals) (version key : String) :
    CacheCall R → Prop
  | .query graph _ _ => graphVersion graph = version
  | .markRed name args => isMarked numerals name args key = false

/-- Graphs which are passed to one query are one, where they have one
fingerprint and no call in between has another or marks the query. -/
def FingerprintsTell (numerals : Numerals) (calls : List (CacheCall R)) :
    Prop :=
  ∀ before between after graph other name args,
    calls = before ++ .query graph name args ::
      (between ++ .query other name args :: after) →
    graphVersion other = graphVersion graph →
    (∀ call ∈ between, Undisturbed numerals (graphVersion graph)
      (queryKey numerals name args) call) →
    other = graph

variable {compute : Compute R V} {cache : RedGreenCache V}
  {calls past rest : List (CacheCall R)} {call : CacheCall R}

/-! ## One query -/

theorem sync_of_same {graph : TimedGraph R}
    (same : graphVersion graph = cache.graphVersion) :
    syncCacheToGraph cache graph = cache :=
  if_neg (not_not.mpr same)

theorem sync_of_other {graph : TimedGraph R}
    (other : graphVersion graph ≠ cache.graphVersion) :
    syncCacheToGraph cache graph =
      { graphVersion := graphVersion graph, entries := .empty } :=
  if_pos other

theorem graphVersion_sync (graph : TimedGraph R) :
    (syncCacheToGraph cache graph).graphVersion = graphVersion graph := by
  by_cases same : graphVersion graph = cache.graphVersion
  · rw [sync_of_same same, same]
  · rw [sync_of_other same]

/-- A query returns the value of an entry, or one which it computes. -/
theorem redGreenQuery_cases (graph : TimedGraph R) (name : String)
    (args : Option Json) (make : Unit → V) :
    (∃ hit, (syncCacheToGraph cache graph).entries.get?
        (queryKey numerals name args) = some hit ∧
      hit.color = .green ∧ hit.inputKey = graphVersion graph ++ ":" ++
        queryKey numerals name args ∧
      redGreenQuery numerals cache graph name args make =
        ((hit.value, .green), syncCacheToGraph cache graph)) ∨
    redGreenQuery numerals cache graph name args make =
      ((make (), .red), { syncCacheToGraph cache graph with
        entries := (syncCacheToGraph cache graph).entries.set
          (queryKey numerals name args)
          { color := .green
            inputKey := graphVersion graph ++ ":" ++
              queryKey numerals name args
            value := make () } }) := by
  rw [redGreenQuery]
  simp only [graphVersion_sync]
  split
  · next hit found =>
      rw [Option.filter_eq_some_iff, decide_eq_true_eq] at found
      exact Or.inl ⟨hit, found.1, found.2.1, found.2.2, rfl⟩
  · exact Or.inr rfl

/-! ## Where fingerprints tell the graphs apart -/

/-- Every entry is of an earlier query, which nothing has disturbed since. -/
def Grounded (numerals : Numerals) (compute : Compute R V)
    (cache : RedGreenCache V) (past : List (CacheCall R)) : Prop :=
  ∀ key entry, cache.entries.get? key = some entry →
    ∃ before graph name args between,
      past = before ++ .query graph name args :: between ∧
      queryKey numerals name args = key ∧
      graphVersion graph = cache.graphVersion ∧
      (∀ call ∈ between, Undisturbed numerals cache.graphVersion key call) ∧
      entry.value = compute graph name args

theorem grounded_empty {version : String} : Grounded numerals compute
    { graphVersion := version, entries := .empty } past := by
  intro key entry found
  cases found

/-- Entries stay grounded over a call which does not disturb them. -/
theorem Grounded.later {next : RedGreenCache V}
    (grounded : Grounded numerals compute cache past)
    (version : next.graphVersion = cache.graphVersion) {key : String}
    {entry : MemoEntry V} (found : cache.entries.get? key = some entry)
    (undisturbed : Undisturbed numerals cache.graphVersion key call) :
    ∃ before graph name args between,
      past ++ [call] = before ++ .query graph name args :: between ∧
      queryKey numerals name args = key ∧
      graphVersion graph = next.graphVersion ∧
      (∀ call ∈ between, Undisturbed numerals next.graphVersion key call) ∧
      entry.value = compute graph name args := by
  rcases grounded key entry found with
    ⟨before, graph, name, args, between, isPast, isKey, isVersion, all, value⟩
  rw [version]
  refine ⟨before, graph, name, args, between ++ [call], ?_, isKey, isVersion,
    ?_, value⟩
  · rw [isPast]
    simp
  · intro other member
    rcases List.mem_append.mp member with earlier | last
    · exact all other earlier
    · rw [List.mem_singleton.mp last]
      exact undisturbed

theorem grounded_sync (grounded : Grounded numerals compute cache past)
    (graph : TimedGraph R) :
    Grounded numerals compute (syncCacheToGraph cache graph) past := by
  by_cases same : graphVersion graph = cache.graphVersion
  · rw [sync_of_same same]
    exact grounded
  · rw [sync_of_other same]
    exact grounded_empty

/-- An entry is of a query of the graph which is passed. -/
theorem Grounded.value_eq {graph : TimedGraph R} {name : String}
    {args : Option Json} {hit : MemoEntry V}
    (grounded : Grounded numerals compute cache past)
    (version : graphVersion graph = cache.graphVersion)
    (found : cache.entries.get? (queryKey numerals name args) = some hit)
    (tell : FingerprintsTell numerals
      (past ++ .query graph name args :: rest)) :
    hit.value = compute graph name args := by
  rcases grounded _ hit found with ⟨before, earlier, name', args', between,
    isPast, isKey, isVersion, all, value⟩
  rcases queryKey_inj isKey with ⟨sameName, sameArgs⟩
  rw [sameName, sameArgs] at isPast value
  rw [← isVersion] at all
  have split : past ++ .query graph name args :: rest =
      before ++ .query earlier name args ::
        (between ++ .query graph name args :: rest) := by
    rw [isPast, List.append_assoc, List.cons_append]
  rw [tell before between rest earlier graph name args split
    (version.trans isVersion.symm) all]
  exact value

theorem Grounded.kept {graph : TimedGraph R} {name : String}
    {args : Option Json} (grounded : Grounded numerals compute cache past)
    (version : graphVersion graph = cache.graphVersion) :
    Grounded numerals compute cache (past ++ [.query graph name args]) :=
  fun _ _ found => grounded.later rfl found version

theorem Grounded.set {graph : TimedGraph R} {name : String}
    {args : Option Json} (grounded : Grounded numerals compute cache past)
    (version : graphVersion graph = cache.graphVersion) (inputKey : String) :
    Grounded numerals compute { cache with
      entries := cache.entries.set (queryKey numerals name args)
        { color := .green, inputKey, value := compute graph name args } }
      (past ++ [.query graph name args]) := by
  intro key entry found
  rw [OrderedMap.get?_set] at found
  split at found
  · next isKey =>
      have value := congrArg MemoEntry.value (Option.some.inj found)
      exact ⟨past, graph, name, args, [], rfl, isKey, version,
        List.forall_mem_nil _, value.symm⟩
  · exact grounded.kept version key entry found

theorem Grounded.markRed {name : String} {args : Option Json}
    (grounded : Grounded numerals compute cache past) :
    Grounded numerals compute (Calls.markRed numerals cache name args)
      (past ++ [.markRed name args]) := by
  intro key entry found
  rw [Calls.markRed, OrderedMap.get?_filterKeys] at found
  split at found
  · next kept =>
      rw [Bool.not_eq_true'] at kept
      exact grounded.later rfl found kept
  · cases found

theorem CacheCall.run_eq (grounded : Grounded numerals compute cache past)
    (tell : FingerprintsTell numerals (past ++ call :: rest)) :
    (call.run numerals compute cache).1 = call.value compute ∧
      Grounded numerals compute (call.run numerals compute cache).2
        (past ++ [call]) := by
  cases call with
  | markRed name args => exact ⟨rfl, grounded.markRed⟩
  | query graph name args =>
    have synced := grounded_sync grounded graph
    have version := (@graphVersion_sync _ _ cache graph).symm
    rw [CacheCall.run, CacheCall.value]
    rcases @redGreenQuery_cases _ _ numerals cache graph name args
      fun _ => compute graph name args with
      ⟨hit, found, _, _, answer⟩ | answer
    · rw [answer]
      dsimp only
      exact ⟨congrArg some (synced.value_eq version found tell),
        synced.kept version⟩
    · rw [answer]
      dsimp only
      exact ⟨rfl, synced.set version _⟩

theorem returned_of_tell (grounded : Grounded numerals compute cache past)
    (tell : FingerprintsTell numerals (past ++ calls)) :
    returned numerals compute cache calls =
      calls.map (CacheCall.value compute) := by
  induction calls generalizing cache past with
  | nil => rfl
  | cons call rest inductionHypothesis =>
    rcases CacheCall.run_eq grounded tell with ⟨value, next⟩
    rw [returned, List.map_cons, value]
    rw [List.append_cons] at tell
    exact congrArg _ (inductionHypothesis next tell)

/-! ## Where they do not -/

/-- A value is kept under a key, and under a fingerprint. -/
def Holds (cache : RedGreenCache V) (version key : String) (value : V) :
    Prop :=
  cache.graphVersion = version ∧ cache.entries.get? key =
    some { color := .green, inputKey := version ++ ":" ++ key, value }

theorem Holds.query {graph : TimedGraph R} {name : String}
    {args : Option Json} {make : Unit → V} {value : V}
    (holds : Holds cache (graphVersion graph) (queryKey numerals name args)
      value) :
    redGreenQuery numerals cache graph name args make =
      ((value, .green), cache) := by
  rcases holds with ⟨version, found⟩
  rw [redGreenQuery, sync_of_same version.symm, version, found,
    Option.filter_some_pos]
  exact decide_eq_true ⟨rfl, rfl⟩

theorem holds_of_query (graph : TimedGraph R) (name : String)
    (args : Option Json) (make : Unit → V) :
    Holds (redGreenQuery numerals cache graph name args make).2
      (graphVersion graph) (queryKey numerals name args)
      (redGreenQuery numerals cache graph name args make).1.1 := by
  have version := @graphVersion_sync _ _ cache graph
  rcases @redGreenQuery_cases _ _ numerals cache graph name args make with
    ⟨hit, found, isGreen, isKey, answer⟩ | answer
  · rw [answer, Holds, found, ← isGreen, ← isKey]
    exact ⟨version, rfl⟩
  · rw [answer, Holds, OrderedMap.get?_set, if_pos rfl]
    dsimp only
    exact ⟨version, rfl⟩

theorem Holds.kept {version key : String} {value : V}
    (holds : Holds cache version key value)
    (undisturbed : Undisturbed numerals version key call) :
    Holds (call.run numerals compute cache).2 version key value := by
  cases call with
  | markRed name args =>
    refine ⟨holds.1, ?_⟩
    rw [CacheCall.run, Calls.markRed, OrderedMap.get?_filterKeys, if_pos]
    · exact holds.2
    · rw [Bool.not_eq_true']
      exact undisturbed
  | query graph name args =>
    obtain rfl : graphVersion graph = version := undisturbed
    by_cases same : queryKey numerals name args = key
    · subst same
      rw [CacheCall.run, holds.query]
      exact holds
    · have synced := sync_of_same holds.1.symm
      rw [CacheCall.run]
      rcases @redGreenQuery_cases _ _ numerals cache graph name args
        fun _ => compute graph name args with
        ⟨hit, _, _, _, answer⟩ | answer
      · rw [answer, synced]
        exact holds
      · rw [answer, synced]
        refine ⟨holds.1, ?_⟩
        rw [OrderedMap.get?_set, if_neg same]
        exact holds.2

theorem Holds.cacheAfter {version key : String} {value : V}
    (holds : Holds cache version key value)
    (undisturbed : ∀ call ∈ calls, Undisturbed numerals version key call) :
    Holds (cacheAfter numerals compute cache calls) version key value := by
  induction calls generalizing cache with
  | nil => exact holds
  | cons call rest inductionHypothesis =>
    rcases List.forall_mem_cons.mp undisturbed with ⟨first, others⟩
    exact inductionHypothesis (holds.kept first) others

theorem cacheAfter_append :
    cacheAfter numerals compute cache (past ++ rest) =
      cacheAfter numerals compute (cacheAfter numerals compute cache past)
        rest := by
  induction past generalizing cache with
  | nil => rfl
  | cons call others inductionHypothesis => exact inductionHypothesis

theorem run_of_returned
    (same : returned numerals compute cache (past ++ call :: rest) =
      (past ++ call :: rest).map (CacheCall.value compute)) :
    (call.run numerals compute (cacheAfter numerals compute cache past)).1 =
      call.value compute := by
  induction past generalizing cache with
  | nil => exact (List.cons.inj same).1
  | cons first others inductionHypothesis =>
    exact inductionHypothesis (List.cons.inj same).2

/-- A query returns what an earlier one of the fingerprint has returned. -/
theorem returned_again {graph other : TimedGraph R} {name : String}
    {args : Option Json} (version : graphVersion other = graphVersion graph)
    (undisturbed : ∀ call ∈ calls, Undisturbed numerals (graphVersion graph)
      (queryKey numerals name args) call) :
    (CacheCall.run numerals compute
        (Calls.cacheAfter numerals compute
          (CacheCall.run numerals compute cache (.query graph name args)).2
          calls)
        (.query other name args)).1 =
      (CacheCall.run numerals compute cache (.query graph name args)).1 := by
  have holds := @holds_of_query R V numerals cache graph name args
    fun _ => compute graph name args
  have later := @Holds.cacheAfter R V _ compute _ _ _ _ _ holds undisturbed
  rw [← version] at later
  simp only [CacheCall.run]
  rw [later.query]

theorem tell_of_returned {cache : RedGreenCache (TimedGraph R)}
    (same : returned numerals (fun graph _ _ => graph) cache calls =
      calls.map (CacheCall.value fun graph _ _ => graph)) :
    FingerprintsTell numerals calls := by
  intro before between after graph other name args isCalls version all
  subst isCalls
  have first := run_of_returned same
  rw [List.append_cons, ← List.append_assoc] at same
  have second := run_of_returned same
  rw [cacheAfter_append, cacheAfter_append, Calls.cacheAfter,
    Calls.cacheAfter, returned_again version all, first] at second
  exact (Option.some.inj second).symm

/-- Whatever is computed, all queries of a run return its value on the graph
which is passed: exactly where fingerprints tell the graphs apart. -/
theorem returned_iff_tell (numerals : Numerals) (start : TimedGraph R)
    (calls : List (CacheCall R)) :
    (∀ (V : Type) (compute : Compute R V),
      returned numerals compute (createRedGreenCache start) calls =
        calls.map (CacheCall.value compute)) ↔
      FingerprintsTell numerals calls := by
  constructor
  · intro transparent
    exact tell_of_returned (transparent _ fun graph _ _ => graph)
  · intro tell V compute
    exact @returned_of_tell _ _ _ compute _ _ [] grounded_empty tell

/-! ## A function which gets another name -/

def namedText (name : String) : String :=
  "export function " ++ name ++ "() {}"

/-- What is recognised in the texts of two functions. -/
def namedFunctions (text : String) : List ExtractedFn :=
  ((["fetch", "load"].find? fun name => decide (namedText name = text)).map
    fun name =>
      { name, lineStart := 1, lineEnd := 1, body := text
        enclosingType := none }).toList

theorem namedFunctions_cases (text : String) :
    namedFunctions text = [] ∨ ∃ fn, namedFunctions text = [fn] ∧
      fn.name ∈ ["fetch", "load"] := by
  rw [namedFunctions]
  rcases isNamed : ["fetch", "load"].find? fun name =>
    decide (namedText name = text) with _ | name
  · exact Or.inl rfl
  · exact Or.inr ⟨_, rfl, List.mem_of_find?_eq_some isNamed⟩

def namedExtractor : Extractor where
  functions := fun _ text => namedFunctions text
  calls := fun _ => []
  instantiations := fun _ => []
  hierarchy := fun _ _ => ∅
  hashBody := fun body => body
  signature := fun fn => some fn.body
  pathLe := Text.codeUnitLe
  name_plain := by
    intro _ text fn member
    have plain : ∀ name ∈ ["fetch", "load"],
        '@' ∉ name.toList ∧ ':' ∉ name.toList := by
      decide
    rcases namedFunctions_cases text with none | ⟨found, one, named⟩
    · rw [none] at member
      cases member
    · rw [one, List.mem_singleton] at member
      rw [member]
      exact plain _ named
  lineStart_distinct := by
    intro _ text
    rcases namedFunctions_cases text with none | ⟨found, one, _⟩
    · rw [none]
      exact List.nodup_nil
    · rw [one]
      exact List.nodup_singleton _

/-- `client.ts`, with one function. -/
def namedSources (name : String) : Snapshot where
  texts := OrderedMap.ofList [("client.ts", namedText name)]
  canonical := by
    have canonical :
        PosixPath.Canonical "client.ts" ∧ '\\' ∉ "client.ts".toList := by
      decide
    intro rel member
    rw [List.mem_singleton.mp member]
    exact canonical

theorem midnight_inRange : -8640000000000000 ≤ (1767225600000 : Int) ∧
    (1767225600000 : Int) ≤ 8640000000000000 := by
  decide

/-- The graph of `client.ts`, built at one time. -/
def namedGraph (name : String) : TimedGraph Unit where
  graph := buildCallGraph namedExtractor "/repo" (namedSources name) {}
  builtAt := ⟨1767225600000, midnight_inRange⟩
  mode := none
  rest := ()

theorem namedGraph_version :
    graphVersion (namedGraph "load") = graphVersion (namedGraph "fetch") := by
  have stats : (namedGraph "load").graph.stats =
      (namedGraph "fetch").graph.stats := by
    decide
  rw [graphVersion, stats]
  rfl

/-- The two graphs are built within one millisecond and have one fingerprint,
so that the functions of the first are returned for the second. -/
theorem returned_namedGraph_ne :
    returned Numerals.fractions (fun graph _ _ => graph.graph.nodes.ids)
        (createRedGreenCache (namedGraph "fetch"))
        [.query (namedGraph "fetch") "functions" none,
          .query (namedGraph "load") "functions" none] ≠
      [.query (namedGraph "fetch") "functions" none,
        .query (namedGraph "load") "functions" none].map
        (CacheCall.value fun graph _ _ => graph.graph.nodes.ids) := by
  intro same
  have first := @run_of_returned _ _ _ _ _ [] _ _ same
  have second := @run_of_returned _ _ _ _ _ [_] _ _ same
  have again := @returned_again Unit _ Numerals.fractions
    (fun graph _ _ => graph.graph.nodes.ids)
    (createRedGreenCache (namedGraph "fetch")) [] _ _ "functions" none
    namedGraph_version (List.forall_mem_nil _)
  have ids := second.symm.trans (again.trans first)
  have differ : (namedGraph "load").graph.nodes.ids ≠
      (namedGraph "fetch").graph.nodes.ids := by
    decide
  exact differ (Option.some.inj ids)

end Mendpoint.Calls

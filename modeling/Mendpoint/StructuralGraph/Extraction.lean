import Mendpoint.Library.JsonEncoding
import Mendpoint.SoftwareGraph.Normal

/-!
# Structural extractions and their diff

An extraction names its nodes by canonical keys and gives them identifiers
which are bound to its snapshot; its edges join these.  The diff of two
extractions of one repository compares nodes by their shapes and edges by
their signatures, in which canonical keys stand for the identifiers.

The engine, the method and the extractor's version are the same everywhere
and are left out.  The checks of an extraction which are not about its nodes
and edges are parameters.
-/

namespace Mendpoint.StructuralGraph

open Mendpoint.Library
open Mendpoint.Library.Fallible
open Mendpoint.SoftwareGraph (eachAfter isBounded)

/-! ## Extractions -/

inductive StructuralNodeKind where
  | file
  | module
  | function
  | method
  | classType
  | interface
  | test
  | symbol
  | externalSymbol
  deriving DecidableEq

def StructuralNodeKind.text : StructuralNodeKind → String
  | file => "file"
  | module => "module"
  | function => "function"
  | method => "method"
  | classType => "class"
  | interface => "interface"
  | test => "test"
  | symbol => "symbol"
  | externalSymbol => "external_symbol"

inductive StructuralEdgeKind where
  | imports
  | calls
  | inherits
  | implements
  | references
  | contains
  | defines
  | tests
  | uses
  | reExports
  | method
  deriving DecidableEq

def StructuralEdgeKind.text : StructuralEdgeKind → String
  | imports => "imports"
  | calls => "calls"
  | inherits => "inherits"
  | implements => "implements"
  | references => "references"
  | contains => "contains"
  | defines => "defines"
  | tests => "tests"
  | uses => "uses"
  | reExports => "re_exports"
  | method => "method"

inductive StructuralEpistemicState where
  | observed
  | inferred
  | ambiguous
  deriving DecidableEq

def StructuralEpistemicState.text : StructuralEpistemicState → String
  | observed => "observed"
  | inferred => "inferred"
  | ambiguous => "ambiguous"

inductive UpstreamConfidence where
  | extracted
  | inferred
  | ambiguous
  | unspecified

def UpstreamConfidence.text : UpstreamConfidence → String
  | extracted => "EXTRACTED"
  | inferred => "INFERRED"
  | ambiguous => "AMBIGUOUS"
  | unspecified => "UNSPECIFIED"

/-- Where a node or an edge comes from; `upstream` is the `upstreamNodeId` of
a node and the `upstreamRelation` of an edge. -/
structure StructuralProvenance where
  upstream : String
  upstreamConfidence : UpstreamConfidence
  sourceFile : String
  sourceLocation : String
  repositorySnapshotId : String
  observedAt : String

structure StructuralNode where
  id : String
  canonicalKey : String
  kind : StructuralNodeKind
  label : String
  qualifiedName : String
  filePath : String
  language : String
  lineStart : Nat
  lineEnd : Nat
  isTest : Bool
  epistemicState : StructuralEpistemicState
  provenance : StructuralProvenance

structure StructuralEdge where
  id : String
  kind : StructuralEdgeKind
  sourceId : String
  targetId : String
  sourceFile : String
  lineStart : Nat
  lineEnd : Nat
  epistemicState : StructuralEpistemicState
  confidence : Option ℚ
  provenance : StructuralProvenance

/-- An extraction; `sourceFiles` are the paths of its files, and `rest` are
the fields which no comparison of nodes or edges reads. -/
structure StructuralExtraction where
  tenantId : String
  repositoryId : String
  snapshotId : String
  sourceFiles : List String
  observedAt : String
  nodes : List StructuralNode
  edges : List StructuralEdge
  rest : Json
  contentDigest : String

/-- Digests, the folding of case, numerals, the other checks of an extraction
(before those of its nodes and after those of its edges), and the digest of
its content. -/
structure Host where
  hexDigest : String → String
  toLowerCase : String → String
  numerals : Numerals
  checkAuthority : StructuralExtraction → Except String Unit
  checkInventory : StructuralExtraction → Except String Unit
  contentDigest : StructuralExtraction → String

/-! ## Checks of fields -/

def structuralFailure (code detail : String) : String :=
  code ++ ": " ++ detail

/-- A failure of the identity of an extraction. -/
def unstable (detail : String) : String :=
  structuralFailure "GRAPHIFY_IDENTITY_INSTABILITY" detail

def boundedText (value code label : String) (max : Nat) :
    Except String Unit :=
  throwIf (isBounded max value = false)
    (structuralFailure code (label ++ " is invalid"))

/-- `/^[A-Za-z]:\//` -/
def hasDrive (path : String) : Bool :=
  match path.toList with
  | letter :: ':' :: '/' :: _ => letter.isAlpha
  | _ => false

def normalizePath (value : String) : Except String String := do
  boundedText value "GRAPHIFY_SECURITY_FAILURE" "source path" 2048
  let input := Text.replaceChar '\\' '/' value
  throwIf (Text.startsWith input "/" = true ∨ hasDrive input = true ∨
      ∃ part ∈ Text.splitOn '/' input, part ∈ ["..", ".", ""])
    (structuralFailure "GRAPHIFY_SECURITY_FAILURE"
      "source path escapes the repository root")
  return input

def digitsValue (digits : List Char) : Nat :=
  digits.foldl (fun value digit => 10 * value + (digit.toNat - 48)) 0

/-- `/^L(\d+)(?:-L?(\d+))?$/` -/
def matchLines : List Char → Option (Nat × Nat)
  | 'L' :: rest =>
    let start := rest.takeWhile Char.isDigit
    if start = [] then none
    else match rest.dropWhile Char.isDigit with
      | [] => some (digitsValue start, digitsValue start)
      | '-' :: more =>
        let finish := if more.head? = some 'L' then more.tail else more
        if finish ≠ [] ∧ finish.all Char.isDigit = true then
          some (digitsValue start, digitsValue finish)
        else none
      | _ => none
  | _ => none

def sourceLines (value : String) : Except String (Nat × Nat) := do
  throwIf (128 < (Text.codeUnits value).length)
    (structuralFailure "GRAPHIFY_EXTRACTION_FAILURE"
      "source location is invalid")
  match matchLines value.toList with
  | none => .error (structuralFailure "GRAPHIFY_EXTRACTION_FAILURE"
      "source location is not an exact line range")
  | some lines =>
    throwIf (lines.1 < 1 ∨ lines.2 < lines.1 ∨ 10000000 < lines.2)
      (structuralFailure "GRAPHIFY_EXTRACTION_FAILURE"
        "source location is out of bounds")
    return lines

/-- `epistemic(value).state` -/
def epistemic : UpstreamConfidence → StructuralEpistemicState
  | .extracted => .observed
  | .inferred => .inferred
  | _ => .ambiguous

def extensionLanguage (host : Host) (path : String) : String :=
  let extension := Text.lastPart (Text.splitOn '.' (host.toLowerCase path)) ""
  (([("ts", "typescript"), ("tsx", "typescript"), ("js", "javascript"),
    ("jsx", "javascript"), ("py", "python"), ("java", "java"), ("go", "go"),
    ("rb", "ruby"), ("rs", "rust"), ("cs", "csharp"), ("kt", "kotlin"),
    ("php", "php"), ("swift", "swift")].lookup extension)).getD "other"

/-- `/(?:^|\/)(?:test|tests|__tests__)(?:\/|$)|\.(?:test|spec)\./`, on the path
in lower case. -/
def isTestPath (host : Host) (path : String) : Bool :=
  let lower := host.toLowerCase path
  (Text.splitOn '/' lower).any
      (fun part => decide (part ∈ ["test", "tests", "__tests__"])) ||
    Text.includes lower ".test." || Text.includes lower ".spec."

def edgeKindAliases : List (String × StructuralEdgeKind) :=
  [("import", .imports), ("imports", .imports), ("imports_from", .imports),
    ("call", .calls), ("calls", .calls), ("indirect_call", .calls),
    ("inherit", .inherits), ("inherits", .inherits), ("extends", .inherits),
    ("implement", .implements), ("implements", .implements),
    ("reference", .references), ("referenced", .references),
    ("references", .references), ("contain", .contains),
    ("contains", .contains), ("define", .defines), ("defines", .defines),
    ("test", .tests), ("tests", .tests), ("covers", .tests), ("use", .uses),
    ("uses", .uses), ("re_export", .reExports), ("re_exports", .reExports),
    ("method", .method)]

def edgeKind (host : Host) (value : String) :
    Except String StructuralEdgeKind := do
  boundedText value "GRAPHIFY_AMBIGUITY" "edge relation" 128
  let relation := host.toLowerCase value
  match edgeKindAliases.lookup relation with
  | none => .error (structuralFailure "GRAPHIFY_AMBIGUITY"
      ("unsupported upstream relation " ++ relation))
  | some kind => .ok kind

/-! ## Integrity -/

def sha256 (host : Host) (value : String) : String :=
  "sha256:" ++ host.hexDigest value

def expectedKey (path : String) (node : StructuralNode) : String :=
  path ++ "::" ++ node.kind.text ++ "::" ++ node.qualifiedName

def expectedNodeId (host : Host) (extraction : StructuralExtraction)
    (key : String) : String :=
  sha256 host (extraction.tenantId ++ "\u0000" ++ extraction.repositoryId ++
    "\u0000" ++ extraction.snapshotId ++ "\u0000" ++ key)

/-- What every provenance of an extraction has in common. -/
def isBound (extraction : StructuralExtraction) (path : String)
    (provenance : StructuralProvenance) : Prop :=
  provenance.repositorySnapshotId = extraction.snapshotId ∧
    provenance.observedAt = extraction.observedAt ∧
    provenance.sourceFile = path

instance {extraction : StructuralExtraction} {path : String}
    {provenance : StructuralProvenance} :
    Decidable (isBound extraction path provenance) :=
  inferInstanceAs (Decidable (_ ∧ _ ∧ _))

/-- A node against the ones before it. -/
def checkNode (host : Host) (extraction : StructuralExtraction)
    (files : List String) (seen : List StructuralNode)
    (node : StructuralNode) : Except String Unit := do
  let path ← normalizePath node.filePath
  boundedText node.label "GRAPHIFY_IDENTITY_INSTABILITY"
    "structural node label" 1024
  boundedText node.qualifiedName "GRAPHIFY_IDENTITY_INSTABILITY"
    "structural qualified name" 1024
  let location ← sourceLines node.provenance.sourceLocation
  boundedText node.provenance.upstream "GRAPHIFY_IDENTITY_INSTABILITY"
    "upstream node id" 1024
  throwIf (node.id ∈ seen.map (·.id) ∨
      node.provenance.upstream ∈ seen.map (·.provenance.upstream) ∨
      node.canonicalKey ∈ seen.map (·.canonicalKey) ∨
      ¬ (node.canonicalKey = expectedKey path node ∧
        node.id = expectedNodeId host extraction (expectedKey path node) ∧
        node.epistemicState = epistemic node.provenance.upstreamConfidence ∧
        isBound extraction path node.provenance ∧ path ∈ files ∧
        node.lineStart = location.1 ∧ node.lineEnd = location.2 ∧
        node.language = extensionLanguage host path ∧
        node.isTest = (decide (node.kind = .test) || isTestPath host path)))
    (unstable "structural node violates normalized provenance invariants")

def expectedEdgeId (host : Host) (extraction : StructuralExtraction)
    (edge : StructuralEdge) (path : String) (lineStart : Nat) : String :=
  sha256 host (extraction.snapshotId ++ "\u0000" ++ edge.kind.text ++
    "\u0000" ++ edge.sourceId ++ "\u0000" ++ edge.targetId ++ "\u0000" ++
    path ++ "\u0000" ++ toString lineStart)

/-- An edge against the ones before it. -/
def checkEdge (host : Host) (extraction : StructuralExtraction)
    (files : List String) (seen : List StructuralEdge)
    (edge : StructuralEdge) : Except String Unit := do
  let path ← normalizePath edge.sourceFile
  let location ← sourceLines edge.provenance.sourceLocation
  boundedText edge.provenance.upstream "GRAPHIFY_IDENTITY_INSTABILITY"
    "upstream relation" 128
  throwIf (edge.id ∈ seen.map (·.id) ∨
      ¬ (edge.sourceId ∈ extraction.nodes.map (·.id) ∧
        edge.targetId ∈ extraction.nodes.map (·.id) ∧
        edge.id = expectedEdgeId host extraction edge path location.1))
    (unstable "structural edge violates normalized provenance invariants")
  let kind ← edgeKind host edge.provenance.upstream
  throwIf (¬ (edge.kind = kind ∧
      edge.epistemicState = epistemic edge.provenance.upstreamConfidence ∧
      isBound extraction path edge.provenance ∧ path ∈ files ∧
      edge.lineStart = location.1 ∧ edge.lineEnd = location.2 ∧
      ∀ confidence ∈ edge.confidence, 0 ≤ confidence ∧ confidence ≤ 1))
    (unstable "structural edge violates normalized provenance invariants")

def assertStructuralExtractionIntegrity (host : Host)
    (extraction : StructuralExtraction) : Except String Unit := do
  host.checkAuthority extraction
  let files ← extraction.sourceFiles.mapM normalizePath
  eachAfter (checkNode host extraction files) [] extraction.nodes
  eachAfter (checkEdge host extraction files) [] extraction.edges
  host.checkInventory extraction
  throwIf (host.contentDigest extraction ≠ extraction.contentDigest)
    (unstable "structural extraction content digest is invalid")

/-! ## What is compared -/

def nodeShape (host : Host) (node : StructuralNode) : String :=
  (Json.record ["kind", "label", "qualifiedName", "filePath", "language",
    "lineStart", "lineEnd", "isTest", "epistemicState", "upstreamConfidence",
    "sourceLocation"]
    [some (.str node.kind.text), some (.str node.label),
      some (.str node.qualifiedName), some (.str node.filePath),
      some (.str node.language), some (.num node.lineStart),
      some (.num node.lineEnd), some (.bool node.isTest),
      some (.str node.epistemicState.text),
      some (.str node.provenance.upstreamConfidence.text),
      some (.str node.provenance.sourceLocation)]).canonical host.numerals

/-- `new Map(nodes.map((node) => [node.id, node.canonicalKey]))` -/
def keyById (extraction : StructuralExtraction) : OrderedMap String String :=
  OrderedMap.ofList
    (extraction.nodes.map fun node => (node.id, node.canonicalKey))

def edgeSignature (host : Host) (keys : OrderedMap String String)
    (edge : StructuralEdge) : String :=
  (Json.record ["kind", "source", "target", "sourceFile", "lineStart",
    "lineEnd", "epistemicState", "confidence", "upstreamRelation",
    "upstreamConfidence", "sourceLocation"]
    [some (.str edge.kind.text), (keys.get? edge.sourceId).map .str,
      (keys.get? edge.targetId).map .str, some (.str edge.sourceFile),
      some (.num edge.lineStart), some (.num edge.lineEnd),
      some (.str edge.epistemicState.text),
      some ((edge.confidence.map .num).getD .null),
      some (.str edge.provenance.upstream),
      some (.str edge.provenance.upstreamConfidence.text),
      some (.str edge.provenance.sourceLocation)]).canonical host.numerals

/-! ## The diff -/

structure StructuralExtractionDiff where
  fromSnapshotId : String
  toSnapshotId : String
  addedCanonicalKeys : List String
  removedCanonicalKeys : List String
  changedCanonicalKeys : List String
  invalidatedCanonicalKeys : List String

def byKey (extraction : StructuralExtraction) :
    OrderedMap String StructuralNode :=
  OrderedMap.ofList
    (extraction.nodes.map fun node => (node.canonicalKey, node))

/-- The keys of one extraction which another one does not have, in order. -/
def missingKeys (extraction other : StructuralExtraction) : List String :=
  Text.sortTexts
    ((byKey extraction).keys.filter fun key => !(byKey other).has key)

def isChanged (host : Host) (before after : StructuralExtraction)
    (key : String) : Bool :=
  match (byKey before).get? key, (byKey after).get? key with
  | some prior, some next =>
    decide (nodeShape host prior ≠ nodeShape host next)
  | _, _ => false

def changedKeys (host : Host) (before after : StructuralExtraction) :
    List String :=
  Text.sortTexts
    ((byKey before).keys.filter (isChanged host before after))

def signatures (host : Host) (extraction : StructuralExtraction) :
    List String :=
  extraction.edges.map (edgeSignature host (keyById extraction))

/-- The keys of the ends of an edge, which are no empty strings. -/
def endKeys (extraction : StructuralExtraction) (edge : StructuralEdge) :
    List String :=
  [(keyById extraction).get? edge.sourceId,
    (keyById extraction).get? edge.targetId].filterMap fun key =>
      key.filter fun key => decide (key ≠ "")

/-- The ends of the edges of one extraction whose signatures another one does
not have. -/
def touchedKeys (host : Host) (extraction other : StructuralExtraction) :
    List String :=
  (extraction.edges.filter fun edge => decide
    (edgeSignature host (keyById extraction) edge ∉
      signatures host other)).flatMap (endKeys extraction)

def invalidatedKeys (host : Host) (before after : StructuralExtraction) :
    List String :=
  Text.sortTexts (missingKeys before after ++ changedKeys host before after ++
    touchedKeys host before after ++ touchedKeys host after before).dedup

def diffOf (host : Host) (before after : StructuralExtraction) :
    StructuralExtractionDiff where
  fromSnapshotId := before.snapshotId
  toSnapshotId := after.snapshotId
  addedCanonicalKeys := missingKeys after before
  removedCanonicalKeys := missingKeys before after
  changedCanonicalKeys := changedKeys host before after
  invalidatedCanonicalKeys := invalidatedKeys host before after

def diffStructuralExtractions (host : Host)
    (before after : StructuralExtraction) :
    Except String StructuralExtractionDiff := do
  assertStructuralExtractionIntegrity host before
  assertStructuralExtractionIntegrity host after
  throwIf (before.tenantId ≠ after.tenantId ∨
      before.repositoryId ≠ after.repositoryId ∨
      before.snapshotId = after.snapshotId)
    (structuralFailure "GRAPHIFY_INCREMENTAL_DIFF_FAILURE"
      "incremental inputs are not two versions of one tenant repository")
  throwIf (host.contentDigest before ≠ before.contentDigest ∨
      host.contentDigest after ≠ after.contentDigest)
    (structuralFailure "GRAPHIFY_INCREMENTAL_DIFF_FAILURE"
      "incremental input digest is invalid")
  return diffOf host before after

end Mendpoint.StructuralGraph

import Mendpoint.ChangeIntel.FieldChanges

/-!
# The structural diff of two OpenAPI documents

Paths, methods, and the request and response fields of the operations which
both documents have, as the differ compares them.  The two resolvers are
threaded through the traversal, since the references they leave partial are
part of the report.
-/

namespace Mendpoint.ChangeIntel

open Mendpoint.Library

/-! ## Entries -/

inductive DiffOp where
  | pathRemoved
  | pathAdded
  | methodRemoved
  | methodAdded
  | methodChanged
  | requestFieldAddedRequired
  | requestFieldAdded
  | requestFieldRemoved
  | requestFieldRenamed
  | requestFieldAmbiguous
  | responseFieldRemoved
  | responseFieldAdded
  | responseFieldAmbiguous
  | securityChanged
  deriving DecidableEq

/-- One structural change. -/
structure DiffEntry where
  op : DiffOp
  path : Option String := none
  method : Option String := none
  field : Option String := none
  fromField : Option String := none
  toField : Option String := none
  candidates : Option (List String) := none
  detail : Option String := none
  breaking : Bool

inductive ChangeRisk where
  | breaking
  | nonBreaking
  | newCapability
  deriving DecidableEq

/-- Upper case of the ASCII letters, for the names of methods. -/
def toUpperCase (text : String) : String :=
  String.ofList (text.toList.map Char.toUpper)

def classifyRisk (entries : List DiffEntry) : ChangeRisk :=
  if entries.any DiffEntry.breaking then .breaking
  else if
    (entries.all fun entry =>
      decide (entry.op = .pathAdded) || decide (entry.op = .methodAdded) ||
        decide (entry.op = .responseFieldAdded)) &&
      decide (0 < entries.length) then
    .newCapability
  else .nonBreaking

/-! ## Reading a document -/

def getPaths (spec : Json) : Json :=
  asObj (spec.get? "paths")

/-- The methods of a path item, in the order in which they are tried. -/
def getMethods (pathItem : Option Json) : OrderedMap String Json :=
  OrderedMap.ofList
    (["get", "post", "put", "patch", "delete", "head", "options"].filterMap
      fun method =>
        ((asObj pathItem).get? method).bind fun operation =>
          if operation.truthy then some (method, operation) else none)

/-- The representative schema of a content map. -/
def pickContentSchema (content : Json) : Option Json :=
  (["application/json", "application/x-www-form-urlencoded",
      "multipart/form-data"] ++ content.keys).findSome? fun media =>
    (asObj (content.get? media)).get? "schema"

/-- `value ?? default`: null counts as missing. -/
def coalesce (value default : Option Json) : Option Json :=
  match value with
  | none => default
  | some .null => default
  | some present => some present

/-- The schema behind the request body of an operation. -/
def requestBodySchema (operation : Option Json)
    (resolver : SchemaResolver) : Option Json × SchemaResolver :=
  let op := asObj operation
  let dereferenced := resolver.deref (op.get? "requestBody")
  let schema :=
    pickContentSchema (asObj ((asObj dereferenced.1).get? "content"))
  (coalesce schema (op.get? "requestBody"), dereferenced.2)

/-- Three characters, a two and two digits. -/
def isNumeric2xx (key : String) : Bool :=
  match key.toList with
  | ['2', second, third] => second.isDigit && third.isDigit
  | _ => false

/-- The range wildcard of the success codes, in either case. -/
def isRange2xx (key : String) : Bool :=
  match key.toList with
  | ['2', second, third] =>
    (second = 'x' || second = 'X') && (third = 'x' || third = 'X')
  | _ => false

/-- The representative success response of a responses map. -/
def pickSuccessResponse (responses : Json) : Option Json :=
  let present := fun key : String =>
    if (responses.get? key).isSome then [key] else []
  let numeric2xx :=
    (responses.keys.filter fun key =>
      isNumeric2xx key && decide (key ≠ "200") &&
        decide (key ≠ "201")).insertionSort fun left right =>
      (Json.arrayIndex? left).getD 0 ≤ (Json.arrayIndex? right).getD 0
  let range2xx := responses.keys.filter isRange2xx
  (present "200" ++ present "201" ++ numeric2xx ++ range2xx ++
    present "default").findSome? responses.get?

/-- The success response schema of an operation. -/
def responseSchema (operation : Option Json) (resolver : SchemaResolver) :
    Option Json × SchemaResolver :=
  let responses := asObj ((asObj operation).get? "responses")
  let success :=
    coalesce (pickSuccessResponse responses) (some (.obj []))
  let dereferenced := resolver.deref success
  (pickContentSchema (asObj ((asObj dereferenced.1).get? "content")),
    dereferenced.2)

/-- The flattened request schema of an operation. -/
def readRequest (operation : Option Json) (resolver : SchemaResolver) :
    FlattenedSchema × SchemaResolver :=
  let schema := requestBodySchema operation resolver
  schema.2.properties schema.1

/-- The flattened success response schema of an operation. -/
def readResponse (operation : Option Json) (resolver : SchemaResolver) :
    FlattenedSchema × SchemaResolver :=
  let schema := responseSchema operation resolver
  schema.2.properties schema.1

/-! ## Fields of one operation -/

section Operation

variable (toLowerCase : String → String)
variable (path method : String)

def renameEntry (rename : FieldRename) : DiffEntry where
  op := .requestFieldRenamed
  path := some path
  method := some method
  fromField := some rename.fromField
  toField := some rename.toField
  field := some rename.toField
  breaking := true
  detail := some
    ("Request field " ++ rename.fromField ++ " renamed to " ++
      rename.toField)

def requestAmbiguityEntry (ambiguity : FieldAmbiguity) : DiffEntry where
  op := .requestFieldAmbiguous
  path := some path
  method := some method
  fromField := some ambiguity.fromField
  field := some ambiguity.fromField
  candidates := some ambiguity.candidates
  breaking := true
  detail := some
    ("Request field " ++ ambiguity.fromField ++
      " has more than one plausible successor (" ++
      Text.join ", " ambiguity.candidates ++
      "); the successor is selected by a runtime condition and cannot be " ++
      "resolved statically. Human decision required.")

def responseAmbiguityEntry (ambiguity : FieldAmbiguity) : DiffEntry where
  op := .responseFieldAmbiguous
  path := some path
  method := some method
  fromField := some ambiguity.fromField
  field := some ambiguity.fromField
  candidates := some ambiguity.candidates
  breaking := true
  detail := some
    ("Response field " ++ ambiguity.fromField ++
      " has more than one plausible successor (" ++
      Text.join ", " ambiguity.candidates ++
      "); which one is populated is selected by a runtime condition. " ++
      "Human decision required.")

/-- An entry which concerns a single field. -/
def fieldEntry (op : DiffOp) (breaking : Bool) (start finish : String)
    (field : String) : DiffEntry where
  op := op
  path := some path
  method := some method
  field := some field
  breaking := breaking
  detail := some (start ++ field ++ finish)

def requestRemovedEntry : String → DiffEntry :=
  fieldEntry path method .requestFieldRemoved true
    "Request field " " removed"

def requestAddedRequiredEntry : String → DiffEntry :=
  fieldEntry path method .requestFieldAddedRequired true
    "Required request field " " added"

def requestAddedEntry : String → DiffEntry :=
  fieldEntry path method .requestFieldAdded false
    "Optional request field " " added"

/-- The entry for an added request field, newly required or not. -/
def requestAdditionEntry (oldReq newReq : FlattenedSchema)
    (field : String) : DiffEntry :=
  if field ∈ newReq.required ∧ field ∉ oldReq.required then
    requestAddedRequiredEntry path method field
  else requestAddedEntry path method field

def responseRemovedEntry : String → DiffEntry :=
  fieldEntry path method .responseFieldRemoved true
    "Response field " " removed"

def responseAddedEntry : String → DiffEntry :=
  fieldEntry path method .responseFieldAdded false
    "Response field " " added"

/-- The entries for the request fields of an operation. -/
def diffRequestFields (oldReq newReq : FlattenedSchema) :
    List DiffEntry :=
  let changes :=
    detectFieldChanges toLowerCase oldReq.props newReq.props
  let renamedFrom := changes.renames.map FieldRename.fromField
  let renamedTo := changes.renames.map FieldRename.toField
  let ambiguousFrom := changes.ambiguities.map FieldAmbiguity.fromField
  let ambiguousTo := changes.ambiguities.flatMap FieldAmbiguity.candidates
  changes.renames.map (renameEntry path method) ++
    changes.ambiguities.map (requestAmbiguityEntry path method) ++
    (oldReq.props.keys.filter fun field =>
      !newReq.props.has field && decide (field ∉ renamedFrom) &&
        decide (field ∉ ambiguousFrom)).map
      (requestRemovedEntry path method) ++
    (newReq.props.keys.filter fun field =>
      !(oldReq.props.has field || decide (field ∈ renamedTo) ||
        decide (field ∈ ambiguousTo))).map
      (requestAdditionEntry path method oldReq newReq)

/-- The entries for the response fields of an operation. -/
def diffResponseFields (oldRes newRes : FlattenedSchema) :
    List DiffEntry :=
  let changes :=
    detectFieldChanges toLowerCase oldRes.props newRes.props
  let ambiguousFrom := changes.ambiguities.map FieldAmbiguity.fromField
  let ambiguousTo := changes.ambiguities.flatMap FieldAmbiguity.candidates
  changes.ambiguities.map (responseAmbiguityEntry path method) ++
    (oldRes.props.keys.filter fun field =>
      !newRes.props.has field && decide (field ∉ ambiguousFrom)).map
      (responseRemovedEntry path method) ++
    (newRes.props.keys.filter fun field =>
      !oldRes.props.has field && decide (field ∉ ambiguousTo)).map
      (responseAddedEntry path method)

/-- The resolvers of the old and the new document. -/
structure Resolvers where
  old : SchemaResolver
  new : SchemaResolver

/-- The entries for an operation which both path items have. -/
def diffOperation (oldOperation newOperation : Option Json)
    (resolvers : Resolvers) : List DiffEntry × Resolvers :=
  let oldReq := readRequest oldOperation resolvers.old
  let newReq := readRequest newOperation resolvers.new
  let oldRes := readResponse oldOperation oldReq.2
  let newRes := readResponse newOperation newReq.2
  (diffRequestFields toLowerCase path method oldReq.1 newReq.1 ++
      diffResponseFields toLowerCase path method oldRes.1 newRes.1,
    { old := oldRes.2, new := newRes.2 })

end Operation

/-! ## Paths -/

section Paths

variable (toLowerCase : String → String)

def methodRemovedEntry (path method : String) : DiffEntry where
  op := .methodRemoved
  path := some path
  method := some method
  breaking := true
  detail := some (toUpperCase method ++ " " ++ path ++ " removed")

def methodAddedEntry (path method : String) : DiffEntry where
  op := .methodAdded
  path := some path
  method := some method
  breaking := false
  detail := some (toUpperCase method ++ " " ++ path ++ " added")

/-- One turn of the loop over the methods which both path items have. -/
def diffMethod (path : String) (oldMethods newMethods : OrderedMap String Json)
    (state : List DiffEntry × Resolvers) (method : String) :
    List DiffEntry × Resolvers :=
  let found := diffOperation toLowerCase path method
    (oldMethods.get? method) (newMethods.get? method) state.2
  (state.1 ++ found.1, found.2)

/-- Diff the operations of a pair of path items. -/
def diffPathOperations (oldPathItem newPathItem : Option Json)
    (path : String) (resolvers : Resolvers) :
    List DiffEntry × Resolvers :=
  let oldMethods := getMethods oldPathItem
  let newMethods := getMethods newPathItem
  (oldMethods.keys.filter newMethods.has).foldl
    (diffMethod toLowerCase path oldMethods newMethods)
    ((oldMethods.keys.filter fun method => !newMethods.has method).map
        (methodRemovedEntry path) ++
      (newMethods.keys.filter fun method => !oldMethods.has method).map
        (methodAddedEntry path),
      resolvers)

def pathRemovedEntry (path : String) : DiffEntry where
  op := .pathRemoved
  path := some path
  breaking := true
  detail := some ("Path " ++ path ++ " removed")

def pathAddedEntry (path : String) : DiffEntry where
  op := .pathAdded
  path := some path
  breaking := false
  detail := some ("Path " ++ path ++ " added")

/-- Remove a leading version segment, such as `/v1`. -/
def stripVersion (path : String) : String :=
  match path.toList with
  | '/' :: 'v' :: rest =>
    let after := rest.dropWhile Char.isDigit
    if after.length < rest.length ∧
        (after = [] ∨ after.head? = some '/') then
      String.ofList after
    else path
  | _ => path

/-- The paths which have a version segment, under their stripped form. -/
def byStrippedPath (paths : List String) :
    OrderedMap String (List String) :=
  OrderedMap.collect
    ((paths.filter fun path => decide (stripVersion path ≠ path)).map
      fun path => (stripVersion path, path))

/-- Pairs of a removed and an added path which differ in version alone. -/
def versionedPairs (removedPaths addedPaths : List String) :
    List (String × String) :=
  (byStrippedPath removedPaths).entries.filterMap fun entry =>
    match entry.2, (byStrippedPath addedPaths).get? entry.1 with
    | [oldPath], some [newPath] => some (oldPath, newPath)
    | _, _ => none

/-- Diff a pair of paths, recording the entries under the old one. -/
def diffPathPair (oldPaths newPaths : Json)
    (state : List DiffEntry × Resolvers) (pair : String × String) :
    List DiffEntry × Resolvers :=
  let found := diffPathOperations toLowerCase (oldPaths.get? pair.1)
    (newPaths.get? pair.2) pair.1 state.2
  (state.1 ++ found.1, found.2)

end Paths

/-! ## Summaries -/

/-- A value inside a template text. -/
def shown (value : Option String) : String :=
  value.getD "undefined"

/-- `METHOD path`, or the path alone where there is no method. -/
def methodAndPath (entry : DiffEntry) : String :=
  (match entry.method with
    | some method => if method = "" then "" else toUpperCase method ++ " "
    | none => "") ++ shown entry.path

def onOperation (entry : DiffEntry) : String :=
  " on " ++ shown (entry.method.map toUpperCase) ++ " " ++ shown entry.path

def issueLabel : SpecRefIssueKind → String
  | .externalRef => "unresolved remote reference"
  | .unresolvableRef => "unresolvable local reference"
  | .cycleBounded => "bounded cyclic reference"

/-- A suffix which says that the resolution of references was partial. -/
def resolutionNote (resolution : SpecResolutionReport) : String :=
  if resolution.complete ∨ resolution.issues = [] then ""
  else
    let counts := OrderedMap.collect
      (resolution.issues.map fun issue => (issue.kind, issue))
    let phrases := counts.entries.map fun entry =>
      toString entry.2.length ++ " " ++ issueLabel entry.1 ++
        (if entry.2.length = 1 then "" else "s")
    " (partial: " ++ Text.join ", " phrases ++ "; diff may be incomplete)"

/-- The phrases for the entries of some kind, as one part or none. -/
def summaryPart (entries : List DiffEntry) (ops : List DiffOp)
    (phrase : DiffEntry → String) : List String :=
  let chosen := entries.filter fun entry => decide (entry.op ∈ ops)
  if chosen = [] then [] else [Text.join "; " (chosen.map phrase)]

def summarizeChange (entries : List DiffEntry) (risk : ChangeRisk)
    (resolution : SpecResolutionReport) : String :=
  let note := resolutionNote resolution
  if entries = [] then "No structural API changes detected." ++ note
  else
    let ambiguousOps : List DiffOp :=
      [.requestFieldAmbiguous, .responseFieldAmbiguous]
    let removedOps : List DiffOp := [.pathRemoved, .methodRemoved]
    let addedOps : List DiffOp := [.pathAdded, .methodAdded]
    let rest := entries.filter fun entry =>
      decide (entry.op ∉
        ambiguousOps ++ removedOps ++ addedOps ++
          [.requestFieldRenamed, .requestFieldAddedRequired,
            .requestFieldAdded])
    let parts :=
      summaryPart entries ambiguousOps (fun entry =>
        "ambiguous field " ++ shown entry.fromField ++
          onOperation entry ++ " (candidates: " ++
          Text.join ", " (entry.candidates.getD []) ++
          "; human decision required)") ++
      summaryPart entries [.requestFieldRenamed] (fun entry =>
        "renamed request field " ++ shown entry.fromField ++ " → " ++
          shown entry.toField ++ onOperation entry) ++
      summaryPart entries removedOps (fun entry =>
        "removed " ++ methodAndPath entry) ++
      summaryPart entries [.requestFieldAddedRequired] (fun entry =>
        "new required field " ++ shown entry.field ++
          onOperation entry) ++
      summaryPart entries [.requestFieldAdded] (fun entry =>
        "added optional field " ++ shown entry.field ++
          onOperation entry) ++
      summaryPart entries addedOps (fun entry =>
        "added " ++ methodAndPath entry) ++
      (if rest = [] then []
        else [toString rest.length ++ " other structural change(s)"])
    let riskText :=
      match risk with
      | .breaking => "breaking"
      | .nonBreaking => "non_breaking"
      | .newCapability => "new_capability"
    "[" ++ riskText ++ "] " ++ Text.join ". " parts ++ "." ++ note

/-! ## The diff -/

/-- A structural diff with the report on its references. -/
structure ResolvedStructuralDiff where
  entries : List DiffEntry
  risk : ChangeRisk
  summary : String
  resolution : SpecResolutionReport

def diffOpenApi (toLowerCase : String → String) (oldSpec newSpec : Json) :
    ResolvedStructuralDiff :=
  let old := asObj (some oldSpec)
  let new := asObj (some newSpec)
  let oldPaths := getPaths old
  let newPaths := getPaths new
  let removedPaths :=
    oldPaths.keys.filter fun path => !newPaths.members.has path
  let addedPaths :=
    newPaths.keys.filter fun path => !oldPaths.members.has path
  let keptPaths := oldPaths.keys.filter newPaths.members.has
  let found :=
    (keptPaths.map (fun path => (path, path)) ++
        versionedPairs removedPaths addedPaths).foldl
      (diffPathPair toLowerCase oldPaths newPaths)
      (removedPaths.map pathRemovedEntry ++
          addedPaths.map pathAddedEntry,
        { old := SchemaResolver.new old, new := SchemaResolver.new new })
  let resolution := buildResolutionReport [found.2.old, found.2.new]
  let risk := classifyRisk found.1
  { entries := found.1
    risk := risk
    summary := summarizeChange found.1 risk resolution
    resolution := resolution }

end Mendpoint.ChangeIntel

import Mendpoint.Calls.Build
import Mathlib.Data.Rat.Defs
import Mathlib.Algebra.Order.Ring.Unbundled.Rat

/-!
# Change detection

Changed files are classified against the previous graph: which are added,
modified or deleted, which of their methods changed, and whether the change is
structural.  The recognition of methods, class headers and imports in a text
is a parameter, `ChangeScanner`.

Fractions are exact rationals; the source divides small counts in floating
point.  The hashes and signatures which a classified change reports are read
by no function modelled here and are left out.
-/

namespace Mendpoint.Calls

open Mendpoint.Library

/-- What change detection recognises as a method. -/
structure ExtractedMethod where
  name : String
  enclosingType : Option String
  bodyHash : String
  signature : String

/-- The per-file recognition used by change detection. -/
structure ChangeScanner where
  methods : String → String → List ExtractedMethod
  hierarchySignal : String → Bool
  importSignal : String → Bool

/-- How a method changed. -/
inductive MethodChangeKind where
  | bodyEdit
  | signatureChange
  | added
  | deleted
  deriving DecidableEq

/-- A changed method of a changed file. -/
structure ClassifiedMethodChange where
  kind : MethodChangeKind
  filePath : String
  methodName : String
  enclosingType : Option String
  previousNodeId : Option String
  stableKey : String

/-- What became of a changed file. -/
inductive FileStatus where
  | modified
  | added
  | deleted
  deriving DecidableEq

/-- The classification of one changed file. -/
structure FileChange where
  filePath : String
  status : FileStatus
  methods : List ClassifiedMethodChange
  touchedKeys : List String
  hierarchySignal : Bool
  importSignal : Bool
  dependencyManifest : Bool
  newPackagePath : Bool

/-- Structural properties of a change set. -/
structure StructuralFlags where
  hierarchyChanged : Bool
  importChanged : Bool
  dependencyManifestChanged : Bool
  largeStructural : Bool
  newPackagePaths : List String

/-- The classification of a list of changed files. -/
structure ChangeSet where
  changedFiles : List String
  deletedFiles : List String
  addedFiles : List String
  methods : List ClassifiedMethodChange
  structural : StructuralFlags
  changedMethodFraction : ℚ
  previousMethodCount : Nat

/-- Forward slashes, without a leading `./`. -/
def normPath (path : String) : String :=
  Text.dropPrefix "./" (Text.replaceChar '\\' '/' path)

/-- The key of a method which does not depend on its location. -/
def methodStableKey (filePath name : String)
    (enclosingType : Option String) : String :=
  normPath filePath ++ "::" ++ enclosingType.getD "" ++ "::" ++ name

/-- The stable key of a graph node. -/
def nodeMethodKey (node : FunctionNode) : String :=
  methodStableKey node.filePath node.name node.enclosingType

/-- Names of dependency manifests. -/
def manifestNames : List String :=
  ["package.json", "package-lock.json", "pnpm-lock.yaml", "yarn.lock",
    "go.mod", "go.sum", "requirements.txt", "Pipfile", "Cargo.toml",
    "Gemfile"]

/-- The previous nodes under their stable keys. -/
def previousByKey (previous : CallGraph) :
    OrderedMap String FunctionNode :=
  OrderedMap.ofList
    (previous.nodes.values.map fun node => (nodeMethodKey node, node))

/-- The previous nodes of a file. -/
def previousOfFile (previous : CallGraph) (filePath : String) :
    List FunctionNode :=
  previous.nodes.values.filter fun node =>
    decide (node.filePath = filePath)

/-- The change recorded for a previous node which is gone. -/
def deletedMethod (filePath : String) (node : FunctionNode) :
    ClassifiedMethodChange where
  kind := .deleted
  filePath := filePath
  methodName := node.name
  enclosingType := node.enclosingType
  previousNodeId := some node.id
  stableKey := nodeMethodKey node

/-- How a method that existed before changed, if it did. -/
def changeKind (before : FunctionNode) (method : ExtractedMethod) :
    Option MethodChangeKind :=
  let signature := before.signature.getD ""
  let bodyHash := before.bodyHash.getD ""
  if signature ≠ "" ∧ signature ≠ method.signature then
    some .signatureChange
  else if bodyHash ≠ "" ∧ bodyHash ≠ method.bodyHash then some .bodyEdit
  else if bodyHash = "" then some .bodyEdit
  else none

/-- The change of a method found in a changed file. -/
def classifyMethod (previous : CallGraph) (filePath : String)
    (method : ExtractedMethod) : Option ClassifiedMethodChange :=
  let key := methodStableKey filePath method.name method.enclosingType
  match (previousByKey previous).get? key with
  | none =>
    some
      { kind := .added
        filePath := filePath
        methodName := method.name
        enclosingType := method.enclosingType
        previousNodeId := none
        stableKey := key }
  | some before =>
    (changeKind before method).map fun kind =>
      { kind := kind
        filePath := filePath
        methodName := method.name
        enclosingType := method.enclosingType
        previousNodeId := some before.id
        stableKey := key }

/-- Whether a file lies in a package directory new to the graph. -/
def isNewPackagePath (previous : CallGraph) (filePath : String) : Bool :=
  let top := (PosixPath.segments filePath).headD ""
  decide (top ∈ ["packages", "apps", "services", "libs"]) &&
    !previous.nodes.values.any fun node =>
      Text.startsWith node.filePath (top ++ "/")

/-- The classification of a file which is no longer captured. -/
def classifyDeleted (previous : CallGraph) (filePath : String) :
    FileChange :=
  let gone := previousOfFile previous filePath
  { filePath := filePath
    status := .deleted
    methods := gone.map (deletedMethod filePath)
    touchedKeys := gone.map nodeMethodKey
    hierarchySignal := false
    importSignal := false
    dependencyManifest :=
      decide (Text.lastPart (PosixPath.segments filePath) filePath ∈
        manifestNames)
    newPackagePath := isNewPackagePath previous filePath }

/-- The classification of a captured file. -/
def classifyPresent (scanner : ChangeScanner) (previous : CallGraph)
    (filePath text : String) : FileChange :=
  let before := previousOfFile previous filePath
  let extracted := scanner.methods filePath text
  let seen := extracted.map fun method =>
    methodStableKey filePath method.name method.enclosingType
  let gone := before.filter fun node =>
    !decide (nodeMethodKey node ∈ seen)
  { filePath := filePath
    status := if before.isEmpty then .added else .modified
    methods :=
      extracted.filterMap (classifyMethod previous filePath) ++
        gone.map (deletedMethod filePath)
    touchedKeys := seen ++ gone.map nodeMethodKey
    hierarchySignal := scanner.hierarchySignal text
    importSignal := scanner.importSignal text
    dependencyManifest :=
      decide (Text.lastPart (PosixPath.segments filePath) filePath ∈
        manifestNames)
    newPackagePath := isNewPackagePath previous filePath }

/-- The classification of one changed file. -/
def classifyFile (scanner : ChangeScanner) (previous : CallGraph)
    (sources : Snapshot) (filePath : String) : FileChange :=
  match sources.getJoined previous.repoRoot filePath with
  | none => classifyDeleted previous filePath
  | some text => classifyPresent scanner previous filePath text

/-- The changed files of a status. -/
def filesOf (status : FileStatus) (changes : List FileChange) :
    List String :=
  (changes.filter fun change => decide (change.status = status)).map
    (·.filePath)

/-- Classify changed files against the previous graph. -/
def classifyChanges (scanner : ChangeScanner) (previous : CallGraph)
    (changedFiles : List String) (sources : Snapshot) : ChangeSet :=
  let files := uniq (changedFiles.map normPath)
  let changes := files.map (classifyFile scanner previous sources)
  let manifest := changes.any (·.dependencyManifest)
  let packages :=
    (changes.filter (·.newPackagePath)).map (·.filePath)
  let deleted := filesOf .deleted changes
  let added := filesOf .added changes
  let count := (previousByKey previous).size
  let previousMethodCount := if count = 0 then 1 else count
  let touched := (uniq (changes.flatMap (·.touchedKeys))).length
  { changedFiles := filesOf .modified changes
    deletedFiles := deleted
    addedFiles := added
    methods := changes.flatMap (·.methods)
    structural :=
      { hierarchyChanged := changes.any (·.hierarchySignal)
        importChanged := changes.any (·.importSignal)
        dependencyManifestChanged := manifest
        largeStructural :=
          manifest || !packages.isEmpty || decide (12 ≤ files.length) ||
            decide (5 ≤ deleted.length + added.length)
        newPackagePaths := packages }
    changedMethodFraction :=
      min 1 ((touched : ℚ) / (previousMethodCount : ℚ))
    previousMethodCount := previousMethodCount }

/-- Whether a change set calls for a full rebuild. -/
def shouldFullRebuildFromChangeSet (changes : ChangeSet)
    (methodFractionThreshold : ℚ) : Bool :=
  decide (methodFractionThreshold ≤ changes.changedMethodFraction) ||
    changes.structural.largeStructural ||
    changes.structural.dependencyManifestChanged

end Mendpoint.Calls

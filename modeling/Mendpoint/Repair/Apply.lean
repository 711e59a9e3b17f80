import Mendpoint.Library.Text
import Mendpoint.Library.Attempt
import Mendpoint.Library.FileTree
import Mendpoint.Library.PosixPath
import Mendpoint.Library.Utf8Text

/-!
# Replacements in a text

The regular expressions of a repair's replacement, on the characters of a
text: a literal name between word boundaries, as a quoted key, and before an
equals sign.  The replacement is a template of `String.prototype.replace`.
-/

namespace Mendpoint.Repair

open Mendpoint.Library

/-! ## Templates -/

/-- A match of an expression, with what its groups hold. -/
structure Match where
  length : Nat
  groups : List (List Char)

/-- What a template may refer to. -/
structure Found where
  matched : List Char
  before : List Char
  after : List Char
  groups : List (List Char)

/-- The group of a number, counted from one. -/
def Found.group? (found : Found) (number : Nat) : Option (List Char) :=
  if number = 0 then none else found.groups[number - 1]?

def digitOf (char : Char) : Nat :=
  char.toNat - 0x30

/-- The characters after a dollar sign, other than digits. -/
def Found.symbol? (found : Found) (char : Char) : Option (List Char) :=
  if char = '$' then some ['$']
  else if char = '&' then some found.matched
  else if char.toNat = 0x60 then some found.before
  else if char.toNat = 0x27 then some found.after
  else none

/-- The group of one digit. -/
def Found.single? (found : Found) (digit : Char) : Option (List Char) :=
  if digit.isDigit then found.group? (digitOf digit) else none

/-- The group of two digits. -/
def Found.double? (found : Found) (tens ones : Char) : Option (List Char) :=
  if tens.isDigit ∧ ones.isDigit then
    found.group? (10 * digitOf tens + digitOf ones)
  else none

/-- `GetSubstitution`: a template with its references filled in. -/
def Found.expand (found : Found) : List Char → List Char
  | [] => []
  | [last] => [last]
  | [char, second] =>
    if char = '$' then
      match found.symbol? second with
      | some text => text
      | none => (found.single? second).getD [char, second]
    else char :: expand found [second]
  | char :: second :: third :: rest =>
    if char = '$' then
      match found.symbol? second with
      | some text => text ++ expand found (third :: rest)
      | none =>
        match found.double? second third with
        | some text => text ++ expand found rest
        | none =>
          match found.single? second with
          | some text => text ++ expand found (third :: rest)
          | none => char :: expand found (second :: third :: rest)
    else char :: expand found (second :: third :: rest)

/-! ## Expressions -/

/-- An expression at a place, between what is before it and what follows. -/
abbrev Expression : Type := List Char → List Char → Option Match

/-- A character of `\w`. -/
def isWord (char : Char) : Bool :=
  char.isAlphanum || char == '_'

/-- `\b`, where the characters before the place are in reverse. -/
def atBoundary (before rest : List Char) : Bool :=
  before.head?.any isWord != rest.head?.any isWord

/-- The rest of a text after a literal. -/
def afterLiteral? (literal rest : List Char) : Option (List Char) :=
  if literal.isPrefixOf rest then some (rest.drop literal.length) else none

/-- The rest of a text after white space and a character. -/
def afterSpaced? (char : Char) (rest : List Char) : Option (List Char) :=
  match rest.dropWhile Text.isTrimmed with
  | [] => none
  | first :: others => if first = char then some others else none

/-- The expression `\bfrom\b`. -/
def wordExpression (name : List Char) : Expression := fun before rest => do
  let after ← afterLiteral? name rest
  if atBoundary before rest && atBoundary (name.reverse ++ before) after then
    some { length := name.length, groups := [] }
  else none

/-- An apostrophe, a double quote or a backquote. -/
def isQuote (char : Char) : Bool :=
  char.toNat = 0x27 || char == '"' || char.toNat = 0x60

/-- The expression of a quoted name before a colon. -/
def keyExpression (name : List Char) : Expression := fun _ rest => do
  let quote ← rest.head?
  if isQuote quote then
    let inner ← afterLiteral? name rest.tail
    let outer ← afterLiteral? [quote] inner
    let after ← afterSpaced? ':' outer
    some { length := rest.length - after.length, groups := [[quote]] }
  else none

/-- The expression `\bfrom\s*=`. -/
def assignExpression (name : List Char) : Expression := fun before rest => do
  let inner ← afterLiteral? name rest
  let after ← afterSpaced? '=' inner
  if atBoundary before rest then
    some { length := rest.length - after.length, groups := [] }
  else none

/-- Replace from a place on; an empty match moves on by one character. -/
def replaceFrom (expression : Expression) (template : List Char)
    (global : Bool) : Nat → List Char → List Char → List Char
  | 0, _, rest => rest
  | fuel + 1, before, rest =>
    match expression before rest with
    | none =>
      match rest with
      | [] => []
      | char :: others =>
        char :: replaceFrom expression template global fuel
          (char :: before) others
    | some found =>
      let matched := rest.take found.length
      let after := rest.drop found.length
      let replaced := Found.expand {
        matched := matched
        before := before.reverse
        after := after
        groups := found.groups } template
      if global = false then replaced ++ after
      else if found.length ≠ 0 then
        replaced ++ replaceFrom expression template global fuel
          (matched.reverse ++ before) after
      else
        match after with
        | [] => replaced
        | char :: others =>
          replaced ++ char :: replaceFrom expression template global
            fuel (char :: before) others

/-- `text.replace(expression, template)`. -/
def replaceText (expression : Expression) (template : String)
    (global : Bool) (text : String) : String :=
  String.ofList (replaceFrom expression template.toList global
    (text.toList.length + 1) [] text.toList)

def applyReplace (content oldName newName : String) (global : Bool) :
    String :=
  let name := oldName.toList
  let out := replaceText (wordExpression name) newName global content
  let out := replaceText (keyExpression name) ("$1" ++ newName ++ "$1:") true
    out
  replaceText (assignExpression name) (newName ++ "=") true out

example : applyReplace "old = f('old' : old_2, x: old)" "old" "fresh" false =
    "fresh = f('fresh': old_2, x: old)" := by
  decide

/-! ## Lines -/

/-- The lines of a text, with the line read so far, in reverse. -/
def linesFrom : List Char → List Char → List (List Char)
  | line, [] => [line.reverse]
  | line, '\r' :: '\n' :: rest => line.reverse :: linesFrom [] rest
  | line, '\n' :: rest => line.reverse :: linesFrom [] rest
  | line, char :: rest => linesFrom (char :: line) rest

/-- `content.split(/\r?\n/)`. -/
def splitLines (content : String) : List String :=
  (linesFrom [] content.toList).map String.ofList

/-- The lines of a text with one of them replaced, where there is one. -/
def patchedLines (content : String) (line : Int) (newLine : String) :
    Option String :=
  let lines := splitLines content
  let index := line - 1
  if index < 0 ∨ (lines.length : Int) ≤ index then none
  else some (Text.join "\n" (lines.set index.toNat newLine))

/-- The text without the lines of a marker. -/
def withoutFixmes (content : String) : String :=
  Text.join "\n" ((splitLines content).filter fun line =>
    !Text.includes line "FIXME(mendpoint)")

end Mendpoint.Repair

/-!
## Repair actions on a repository

Actions are staged in memory, with the first content of each file they touch,
and written once all of them have passed.  A rollback writes the first contents
back.  The repository holds regular files and directories.
-/

namespace Mendpoint.Repair

open Mendpoint.Library
open Mendpoint.Library.Attempt

/-! ## Records -/

inductive RepairAction where
  | replaceInFile (filePath oldName newName : String) (global : Option Bool)
      (reason : String)
  | writeFile (filePath content reason : String)
  | patchLine (filePath : String) (line : Int) (newLine reason : String)
  | removeFixme (filePath reason : String)

structure PristineFile where
  filePath : String
  absolutePath : List String
  existed : Bool
  content : String

/-- A content to write, and the reasons for it. -/
structure StagedChange where
  content : String
  reasons : List String

structure AppliedEdit where
  filePath : String
  original : String
  updated : String
  reason : String
  existed : Bool

/-- The options of a call, apart from its repository and its shared map. -/
structure ApplyOptions where
  dryRun : Bool
  neverTouchPaths : List String
  /-- Absent where the option is no finite number. -/
  maxActions : Option Int
  maxFilesChanged : Option Int

def codeExts : List String :=
  [".ts", ".tsx", ".js", ".jsx", ".mjs", ".cjs", ".py", ".go", ".java", ".rb",
    ".kt"]

def hardMaxActions : Int := 30

def hardMaxFiles : Int := 50

/-- `DEFAULT_POLICY.neverTouchPaths`. -/
def defaultNeverTouch : List String :=
  [".env", ".env.local", ".env.production", "secrets/", "credentials",
    "id_rsa", ".pem", "prod/", "production/", "k8s/prod", "terraform/",
    "package-lock.json", "pnpm-lock.yaml", "yarn.lock", "Cargo.lock"]

/-! ## Paths -/

section Paths

variable (toLowerCase : String → String)

/-- `path.replace(/\\/g, "/")`. -/
def slashed (path : String) : String :=
  Text.replaceChar '\\' '/' path

def pathBlocked (path : String) (neverTouch : List String) : Bool :=
  let normalized := toLowerCase (slashed path)
  neverTouch.any fun rule =>
    Text.includes normalized (toLowerCase (slashed rule))

end Paths

/-- `relative(root, path)` below the root. -/
def relativeTo (root path : List String) : String :=
  Text.join "/" (path.drop root.length)

/-- A path is the root, or has a relative path which does not leave it. -/
def isWithin (root candidate : List String) : Bool :=
  match PosixPath.below root candidate with
  | none => false
  | some rel =>
    decide (rel = "") ||
      (!Text.startsWith rel ".." && !Text.startsWith rel "/")

/-- A path in the repository. -/
structure Contained where
  relativePath : String
  absolutePath : List String

/-- The checks of a requested path which do not look at the files. -/
def locate (root : List String) (requestedPath : String) :
    Except String Contained := do
  let normalized := slashed requestedPath
  rejectIf (normalized = "" ∨ normalized = "." ∨
      Text.includes normalized "\x00" = true ∨
      Text.startsWith requestedPath "/" = true)
    ("Repair path is not a relative file path: " ++ requestedPath)
  let absolutePath := PosixPath.resolveFrom root requestedPath
  rejectIf (isWithin root absolutePath = false ∨ absolutePath = root)
    ("Repair path escapes repository root: " ++ requestedPath)
  return {
    relativePath := slashed (relativeTo root absolutePath)
    absolutePath := absolutePath }

/-- The non-empty parts between slashes and backslashes. -/
def segmentsOf (path : String) : List String :=
  (PosixPath.segments (slashed path)).filter fun segment =>
    decide (segment ≠ "")

/-- Look at each directory on the way to a path. -/
def walkSegments (disk : FileTree) (allowMissing : Bool)
    (relativePath : String) :
    List String → List String → Except String PUnit
  | _, [] => pure ⟨⟩
  | cursor, segment :: rest => do
      let cursor := PosixPath.follow cursor segment
      let stat ← disk.lstat cursor
      rejectIf (stat = none ∧ allowMissing = false ∧ rest = [])
        ("Repair path does not exist: " ++ relativePath)
      walkSegments disk allowMissing relativePath cursor rest

def containedPath (disk : FileTree) (root : List String)
    (requestedPath : String) (allowMissing : Bool) :
    Except String Contained := do
  let safe ← locate root requestedPath
  walkSegments disk allowMissing safe.relativePath root
    (segmentsOf (relativeTo root safe.absolutePath))
  let _ ← disk.lstat safe.absolutePath
  return safe

/-! ## The files of a repository -/

/-- The last part of a name between dots, with a dot. -/
def extensionOf (name : String) : String :=
  if Text.includes name "." then
    "." ++ Text.lastPart (Text.splitOn '.' name) ""
  else ""

def skipped (name : String) : Bool :=
  name == "node_modules" || name == ".git" || name == "dist" ||
    name == ".next"

/-- The code files below a directory, down to a depth. -/
def walkCodeFiles (disk : FileTree) : Nat → List String → List (List String)
  | 0, _ => []
  | depth + 1, current =>
    let names := (disk.children current).mergeSort fun left right =>
      decide (left ≤ right)
    names.flatMap fun name =>
      let path := current ++ [name]
      if skipped name then []
      else if disk.node? path = some .directory then
        walkCodeFiles disk depth path
      else if extensionOf name ∈ codeExts then [path]
      else []

/-- The length of the longest path of a tree. -/
def depthOf (disk : FileTree) : Nat :=
  (disk.nodes.keys.map List.length).foldr max 0

def boundedInteger (value : Option Int) (fallback hardMax : Int) : Int :=
  match value with
  | none => fallback
  | some number => max 1 (min number hardMax)

/-! ## Staging -/

/-- The files, the map which calls share, and what a call has staged. -/
structure Session where
  disk : FileTree
  pristineFiles : OrderedMap String PristineFile
  fileCache : OrderedMap String String
  staged : OrderedMap String StagedChange

abbrev SessionM : Type → Type :=
  Attempt Session String

/-- The content of a file, from the cache or from the disk. -/
def read (root : List String) (requestedPath : String) :
    SessionM (Option String) := do
  let session ← get
  let safe ← containedPath session.disk root requestedPath true
  match session.fileCache.get? safe.relativePath with
  | some content => return some content
  | none =>
    match ← session.disk.lstat safe.absolutePath with
    | none => return none
    | some .directory =>
      throw ("Repair path is not a regular file: " ++ safe.relativePath)
    | some (.file _) =>
      let bytes ← session.disk.readFile safe.absolutePath
      let content := Utf8Text.decode bytes
      set { session with
        fileCache := session.fileCache.set safe.relativePath content }
      return some content

/-- `fileCache.get(key) ?? read(key)`. -/
def readCached (root : List String) (key : String) :
    SessionM (Option String) := do
  let session ← get
  match session.fileCache.get? key with
  | some cached => return some cached
  | none => read root key

/-- The content of a path, which is empty where there is no file. -/
def contentOf (disk : FileTree) (path : List String) :
    Option FileNode → Except String String
  | some (.file _) => do
      let bytes ← disk.readFile path
      return Utf8Text.decode bytes
  | _ => pure ""

/-- Keep what a file is before the first change of it. -/
def capture (safe : Contained) : SessionM PUnit := do
  let session ← get
  if session.pristineFiles.has safe.relativePath then return ⟨⟩
  let stat ← session.disk.lstat safe.absolutePath
  let content ← contentOf session.disk safe.absolutePath stat
  set { session with
    pristineFiles := session.pristineFiles.set safe.relativePath {
      filePath := safe.relativePath
      absolutePath := safe.absolutePath
      existed := stat.isSome
      content := content } }

section Actions

variable (toLowerCase : String → String) (root : List String)
  (neverTouch : List String) (fileBudget : Int)

def stage (requestedPath content reason : String) : SessionM PUnit := do
  let session ← get
  let safe ← containedPath session.disk root requestedPath true
  rejectIf (pathBlocked toLowerCase safe.relativePath neverTouch = true)
    ("Repair path is blocked by policy: " ++ safe.relativePath)
  let known ← readCached root safe.relativePath
  if known.getD "" = content then return ⟨⟩
  capture safe
  modify fun session => { session with
    fileCache := session.fileCache.set safe.relativePath content
    staged := session.staged.set safe.relativePath {
      content := content
      reasons :=
        ((session.staged.get? safe.relativePath).map (·.reasons)).getD [] ++
          [reason] } }
  let session ← get
  rejectIf (fileBudget < session.pristineFiles.size)
    ("Repair file budget exceeded: " ++
      toString session.pristineFiles.size ++ "/" ++ toString fileBudget)

/-- The files of a replacement. -/
def targetsOf (disk : FileTree) (filePath : String) :
    Except String (List String) :=
  if filePath = "*" then
    .ok ((walkCodeFiles disk (depthOf disk) root).map fun path =>
      slashed (relativeTo root path))
  else do
    let safe ← containedPath disk root filePath true
    return [safe.relativePath]

/-- Replace in one file of a replacement. -/
def replaceIn (oldName newName : String) (global : Bool) (reason : String)
    (target : String) : SessionM PUnit := do
  if pathBlocked toLowerCase target neverTouch then return ⟨⟩
  match ← read root target with
  | none => return ⟨⟩
  | some content =>
    let updated := applyReplace content oldName newName global
    if updated ≠ content then
      stage toLowerCase root neverTouch fileBudget target updated reason

def applyAction : RepairAction → SessionM PUnit
  | .replaceInFile filePath oldName newName global reason => do
      let session ← get
      let targets ← targetsOf root session.disk filePath
      targets.forM (replaceIn toLowerCase root neverTouch fileBudget oldName
        newName (global.getD true) reason)
  | .writeFile filePath content reason =>
    stage toLowerCase root neverTouch fileBudget filePath content reason
  | .patchLine filePath line newLine reason => do
      match ← read root filePath with
      | none => return ⟨⟩
      | some content =>
        match patchedLines content line newLine with
        | none => return ⟨⟩
        | some updated =>
          stage toLowerCase root neverTouch fileBudget filePath updated
            reason
  | .removeFixme filePath reason => do
      match ← read root filePath with
      | none => return ⟨⟩
      | some content =>
        let updated := withoutFixmes content
        if updated ≠ content then
          stage toLowerCase root neverTouch fileBudget filePath updated
            reason

end Actions

/-! ## Calls -/

/-- A call which changes the disk, in a session. -/
def onDisk (call : FileTree → Except String FileTree) : SessionM PUnit := do
  let session ← get
  let after ← call session.disk
  set { session with disk := after }

/-- Write one staged file. -/
def writeStaged (root : List String) (dryRun : Bool)
    (entry : String × StagedChange) : SessionM AppliedEdit := do
  let session ← get
  let pristine ← demand (session.pristineFiles.get? entry.1)
    "Cannot read properties of undefined (reading 'content')"
  let safe ← containedPath session.disk root entry.1 true
  if dryRun = false then
    onDisk fun disk => disk.mkdirs safe.absolutePath.dropLast
    onDisk fun disk => disk.writeFile safe.absolutePath
      (Utf8Text.encode entry.2.content)
  return {
    filePath := entry.1
    original := pristine.content
    updated := entry.2.content
    reason := Text.join "; " entry.2.reasons.eraseDups
    existed := pristine.existed }

def canonicalRoot (root : List String) : SessionM PUnit := do
  let session ← get
  let stat ← session.disk.lstat root
  match stat with
  | none => throw "ENOENT"
  | some (.file _) =>
    throw "Repair repository root must be a directory"
  | some .directory => return ⟨⟩

def applyActions (toLowerCase : String → String) (root : List String)
    (actions : List RepairAction) (opts : ApplyOptions) :
    SessionM (List AppliedEdit) := do
  canonicalRoot root
  let neverTouch := defaultNeverTouch ++ opts.neverTouchPaths
  let actionBudget :=
    boundedInteger opts.maxActions hardMaxActions hardMaxActions
  let fileBudget := boundedInteger opts.maxFilesChanged 20 hardMaxFiles
  rejectIf (actionBudget < actions.length)
    ("Repair action budget exceeded: " ++ toString actions.length ++ "/" ++
      toString actionBudget)
  modify fun session => { session with
    fileCache := OrderedMap.empty
    staged := OrderedMap.empty }
  actions.forM (applyAction toLowerCase root neverTouch fileBudget)
  let session ← get
  session.staged.entries.mapM (writeStaged root opts.dryRun)

/-! ## Calls -/

/-- A call of `applyActions`, apart from the repository. -/
structure Call where
  actions : List RepairAction
  options : ApplyOptions

/-- A session before any call. -/
def Session.start (disk : FileTree) : Session where
  disk := disk
  pristineFiles := OrderedMap.empty
  fileCache := OrderedMap.empty
  staged := OrderedMap.empty

end Mendpoint.Repair

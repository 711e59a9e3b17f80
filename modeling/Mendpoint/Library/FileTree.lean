import Mathlib
import Mendpoint.Library.Fallible
import Mendpoint.Library.OrderedMap

/-!
# Trees of files and directories

A finite tree of regular files and directories, at absolute paths, and the
calls of a file system on it.  A tree has the directory of each of its nodes.
-/

namespace Mendpoint.Library

/-- What is at a path of a tree. -/
inductive FileNode where
  | file (bytes : ByteArray)
  | directory
  deriving DecidableEq

/-- The nodes of a tree, apart from its root, which is a directory. -/
structure FileTree where
  nodes : OrderedMap (List String) FileNode
  rooted : ∀ path node, nodes.get? path = some node →
    path.dropLast = [] ∨ nodes.get? path.dropLast = some .directory

namespace FileTree

variable {tree after : FileTree} {path other : List String}

/-- The node at a path. -/
def node? (tree : FileTree) (path : List String) : Option FileNode :=
  if path = [] then some .directory else tree.nodes.get? path

/-- The bytes of the regular file at a path. -/
def file? (tree : FileTree) (path : List String) : Option ByteArray :=
  match tree.node? path with
  | some (.file bytes) => some bytes
  | _ => none

/-- A path below a regular file. -/
def Obstructed (tree : FileTree) (path : List String) : Prop :=
  ∃ ancestor ∈ path.inits, ancestor ≠ path ∧
    (tree.file? ancestor).isSome = true

instance (tree : FileTree) (path : List String) :
    Decidable (tree.Obstructed path) :=
  inferInstanceAs (Decidable (∃ _ ∈ _, _))

/-- `lstat`, which answers nothing where there is no node. -/
def lstat (tree : FileTree) (path : List String) :
    Except String (Option FileNode) :=
  if tree.Obstructed path then .error "ENOTDIR"
  else .ok (tree.node? path)

/-- `readFile`. -/
def readFile (tree : FileTree) (path : List String) :
    Except String ByteArray :=
  match tree.node? path with
  | some (.file bytes) => .ok bytes
  | some .directory => .error "EISDIR"
  | none => .error (if tree.Obstructed path then "ENOTDIR" else "ENOENT")

/-- The names in a directory. -/
def children (tree : FileTree) (directory : List String) : List String :=
  tree.nodes.keys.filterMap fun path =>
    if path ≠ [] ∧ path.dropLast = directory then path.getLast? else none

/-! ## The nodes of a tree -/

variable {node : FileNode}

theorem node?_dropLast (found : tree.node? path = some node) :
    tree.node? path.dropLast = some .directory := by
  rw [node?] at found ⊢
  split
  · rfl
  · next notRoot =>
      split at found
      · next empty =>
          subst empty
          exact absurd rfl notRoot
      · rcases tree.rooted path node found with root | inside
        · exact absurd root notRoot
        · exact inside

/-! ## Changes of one node -/

/-- The tree of an empty root. -/
def empty : FileTree where
  nodes := OrderedMap.empty
  rooted := by
    intro path node impossible
    cases impossible

/-- Put a node into a directory, in place of no directory. -/
def put (tree : FileTree) (path : List String) (node : FileNode)
    (inside : tree.node? path.dropLast = some .directory)
    (replaceable : tree.node? path ≠ some .directory) : FileTree where
  nodes := tree.nodes.set path node
  rooted := by
    intro other found known
    by_cases atRoot : other.dropLast = []
    · exact .inl atRoot
    right
    have isParent : tree.node? other.dropLast = some .directory := by
      by_cases same : path = other
      · rw [← same]
        exact inside
      · rw [OrderedMap.get?_set_of_ne _ _ same] at known
        have isNode : tree.node? other = some found := by
          rw [node?, if_neg]
          · exact known
          · rintro rfl
            exact atRoot rfl
        exact node?_dropLast isNode
    have notReplaced : path ≠ other.dropLast := by
      rintro rfl
      exact replaceable isParent
    rw [OrderedMap.get?_set_of_ne _ _ notReplaced]
    rwa [node?, if_neg atRoot] at isParent

/-! ## Calls which change a tree -/

/-- `mkdir` with its parent there, where there is no directory yet. -/
def mkdir (tree : FileTree) (path : List String) : Except String FileTree :=
  if isThere : tree.node? path = some .directory then .ok tree
  else if tree.node? path = none then
    if inside : tree.node? path.dropLast = some .directory then
      .ok (tree.put path .directory inside isThere)
    else .error "ENOENT"
  else .error "EEXIST"

/-- `mkdir` with all of its ancestors. -/
def mkdirs (tree : FileTree) (path : List String) : Except String FileTree :=
  path.inits.foldlM mkdir tree

/-- `writeFile`, which creates the file or replaces its content. -/
def writeFile (tree : FileTree) (path : List String) (bytes : ByteArray) :
    Except String FileTree :=
  if isDirectory : tree.node? path = some .directory then .error "EISDIR"
  else if inside : tree.node? path.dropLast = some .directory then
    .ok (tree.put path (.file bytes) inside isDirectory)
  else .error (if tree.Obstructed path then "ENOTDIR" else "ENOENT")

end FileTree

end Mendpoint.Library

import Mendpoint.Library.Json

/-!
# Reference resolution

The resolver of a document: it follows local references, refuses remote ones,
bounds cycles, and flattens a schema to its top-level properties.  Only the
issues recorded on the way are state; what is resolved depends on the document
alone.
-/

namespace Mendpoint.ChangeIntel

open Mendpoint.Library

/-! ## Issues -/

/-- Why a reference is left partial. -/
inductive SpecRefIssueKind where
  | externalRef
  | unresolvableRef
  | cycleBounded
  deriving DecidableEq

/-- A reference which was not fully resolved. -/
structure SpecRefIssue where
  kind : SpecRefIssueKind
  ref : String
  detail : String

/-- Whether every reference resolved, and the issues if not. -/
structure SpecResolutionReport where
  complete : Bool
  issues : List SpecRefIssue

/-- Depth cap on chains of references and compositions. -/
def maxRefDepth : Nat := 64

/-- Append an issue unless one of its kind and reference is there. -/
def recordIssue (issues : List SpecRefIssue) (issue : SpecRefIssue) :
    List SpecRefIssue :=
  if issues.any fun existing =>
      decide (existing.kind = issue.kind) && decide (existing.ref = issue.ref)
  then issues
  else issues ++ [issue]

def externalRefIssue (ref : String) : SpecRefIssue where
  kind := .externalRef
  ref := ref
  detail :=
    "Refused to fetch remote $ref " ++ ref ++ "; resolution left partial."

def cyclicRefIssue (ref : String) : SpecRefIssue where
  kind := .cycleBounded
  ref := ref
  detail :=
    "Cyclic $ref chain through " ++ ref ++
      " was bounded, not fully expanded."

def unresolvableRefIssue (ref : String) : SpecRefIssue where
  kind := .unresolvableRef
  ref := ref
  detail := "Local $ref " ++ ref ++ " did not resolve to any node."

def derefDepthIssue : SpecRefIssue where
  kind := .cycleBounded
  ref := "<deref>"
  detail :=
    "Reference chain exceeded depth " ++ toString maxRefDepth ++
      "; resolution bounded."

def schemaDepthIssue : SpecRefIssue where
  kind := .cycleBounded
  ref := "<schema>"
  detail :=
    "Schema nesting exceeded depth " ++ toString maxRefDepth ++
      "; flattening bounded."

/-! ## Pointers -/

/-- The value itself if it is an object, and the empty object otherwise. -/
def asObj : Option Json → Json
  | some (.obj fields) => .obj fields
  | _ => .obj []

/-- Anything but a pointer into this document is remote. -/
def isExternalRef (ref : String) : Bool :=
  !Text.startsWith ref "#/"

/-- Replace a two-character escape, left to right. -/
def unescapePair (mark replacement : Char) : List Char → List Char
  | [] => []
  | [only] => [only]
  | first :: second :: rest =>
    if first = '~' ∧ second = mark then
      replacement :: unescapePair mark replacement rest
    else first :: unescapePair mark replacement (second :: rest)

/-- Pointer unescaping: `~1` is a slash, then `~0` is a tilde. -/
def decodePointerToken (token : String) : String :=
  String.ofList
    (unescapePair '0' '~' (unescapePair '1' '/' token.toList))

/--
One step of a pointer: a member of an object, or an element or the length of
an array.  Members which objects inherit declare no schema and are left out.
-/
def stepInto (node : Json) (token : String) : Option Json :=
  match node with
  | .obj fields => (Json.obj fields).get? token
  | .arr items =>
    if token = "length" then some (.num items.length)
    else (Json.arrayIndex? token).bind fun index => items[index]?
  | _ => none

/-- Resolve a local pointer to its target node. -/
def resolvePointer (root : Json) (ref : String) : Option Json :=
  (((Text.splitOn '/' (Text.dropPrefix "#/" ref)).map
    decodePointerToken).foldl
      (fun node token => node.bind fun value => stepInto value token)
      (some root))

/-! ## The resolver -/

/-- A resolver bound to a root document, with the issues so far. -/
structure SchemaResolver where
  root : Json
  issues : List SpecRefIssue

namespace SchemaResolver

/-- `new SchemaResolver(root)`. -/
def new (root : Json) : SchemaResolver where
  root := root
  issues := []

/-- Record an issue once. -/
def record (resolver : SchemaResolver) (issue : SpecRefIssue) :
    SchemaResolver where
  root := resolver.root
  issues := recordIssue resolver.issues issue

/-- One turn of the dereferencing loop, with the turns that are left. -/
def derefFrom :
    Nat → List String → Option Json → SchemaResolver →
      Option Json × SchemaResolver
  | 0, _, _, resolver => (some (.obj []), resolver.record derefDepthIssue)
  | turns + 1, seen, current, resolver =>
    match ((asObj current).get? "$ref").bind Json.text? with
    | none => (current, resolver)
    | some ref =>
      if isExternalRef ref then
        (some (.obj []), resolver.record (externalRefIssue ref))
      else if ref ∈ seen then
        (some (.obj []), resolver.record (cyclicRefIssue ref))
      else
        match resolvePointer resolver.root ref with
        | none =>
          (some (.obj []),
            resolver.record (unresolvableRefIssue ref))
        | some target =>
          derefFrom turns (seen ++ [ref]) (some target) resolver

/-- Follow a chain of references from a wrapper node. -/
def deref (resolver : SchemaResolver) (node : Option Json) :
    Option Json × SchemaResolver :=
  derefFrom (maxRefDepth + 1) [] node resolver

end SchemaResolver

/-! ## Flattening -/

/-- Effective top-level properties and required names. -/
structure FlattenedSchema where
  props : OrderedMap String Json
  required : List String

namespace FlattenedSchema

def empty : FlattenedSchema where
  props := OrderedMap.empty
  required := []

/-- Set the properties which a schema node declares itself. -/
def addProperties (out : FlattenedSchema) (node : Json) :
    FlattenedSchema where
  props :=
    out.props.setAll
      ((asObj (node.get? "properties")).members.entries.map
        fun entry => (entry.1, asObj (some entry.2)))
  required := out.required

/-- Add a name to the set of required names. -/
def addRequiredName (names : List String) (name : String) : List String :=
  if name ∈ names then names else names ++ [name]

/-- Add the names which a schema node requires itself. -/
def addRequired (out : FlattenedSchema) (node : Json) :
    FlattenedSchema where
  props := out.props
  required :=
    ((((node.get? "required").bind Json.items?).getD []).filterMap
      Json.text?).foldl addRequiredName out.required

end FlattenedSchema

/-- The members of the compositions of a node, in the order visited. -/
def compositionMembers (node : Json) : List Json :=
  ["allOf", "oneOf", "anyOf"].flatMap fun key =>
    ((node.get? key).bind Json.items?).getD []

namespace SchemaResolver

/-- Collect a schema node, with the levels of nesting that are left. -/
def collect :
    Nat → List String → FlattenedSchema × SchemaResolver → Option Json →
      FlattenedSchema × SchemaResolver
  | 0, _, (out, resolver), _ => (out, resolver.record schemaDepthIssue)
  | levels + 1, seenRefs, (out, resolver), node =>
    let s := asObj node
    match (s.get? "$ref").bind Json.text? with
    | some ref =>
      if isExternalRef ref then
        (out, resolver.record (externalRefIssue ref))
      else if ref ∈ seenRefs then
        (out, resolver.record (cyclicRefIssue ref))
      else
        match resolvePointer resolver.root ref with
        | none => (out, resolver.record (unresolvableRefIssue ref))
        | some target =>
          collect levels (seenRefs ++ [ref]) (out, resolver)
            (some target)
    | none =>
      (compositionMembers s).foldl
        (fun state member => collect levels seenRefs state (some member))
        ((out.addProperties s).addRequired s, resolver)

/-- Flatten a schema to its effective properties. -/
def properties (resolver : SchemaResolver) (schema : Option Json) :
    FlattenedSchema × SchemaResolver :=
  collect (maxRefDepth + 1) [] (FlattenedSchema.empty, resolver) schema

/-! ## What is resolved depends on the document alone -/

theorem derefFrom_root (turns : Nat) (seen : List String)
    (current : Option Json) (resolver : SchemaResolver) :
    (derefFrom turns seen current resolver).2.root = resolver.root := by
  induction turns generalizing seen current with
  | zero => rfl
  | succ turns inductionHypothesis =>
    rw [derefFrom]
    split
    · rfl
    · split
      · rfl
      · split
        · rfl
        · split
          · rfl
          · exact inductionHypothesis _ _

variable {left right : SchemaResolver}

theorem derefFrom_fst (turns : Nat) (seen : List String)
    (current : Option Json) (same : left.root = right.root) :
    (derefFrom turns seen current left).1 =
      (derefFrom turns seen current right).1 := by
  induction turns generalizing seen current with
  | zero => rfl
  | succ turns inductionHypothesis =>
    rw [derefFrom, derefFrom, same]
    split
    · rfl
    · split
      · rfl
      · split
        · rfl
        · split
          · rfl
          · exact inductionHypothesis _ _

theorem deref_root (resolver : SchemaResolver) (node : Option Json) :
    (resolver.deref node).2.root = resolver.root :=
  derefFrom_root _ _ _ _

theorem deref_fst (same : left.root = right.root) (node : Option Json) :
    (left.deref node).1 = (right.deref node).1 :=
  derefFrom_fst _ _ _ same

theorem collect_root (levels : Nat) (seenRefs : List String)
    (state : FlattenedSchema × SchemaResolver) (node : Option Json) :
    (collect levels seenRefs state node).2.root = state.2.root := by
  induction levels generalizing seenRefs state node with
  | zero => rfl
  | succ levels inductionHypothesis =>
    rw [collect]
    split
    · split
      · rfl
      · split
        · rfl
        · split
          · rfl
          · exact inductionHypothesis _ _ _
    · refine List.foldlRecOn _ _ (motive := fun current :
        FlattenedSchema × SchemaResolver =>
          current.2.root = state.2.root) rfl ?_
      intro current kept member _
      rw [inductionHypothesis, kept]

/-- Two collections which have found the same and read one document. -/
def Agree (left right : FlattenedSchema × SchemaResolver) : Prop :=
  left.1 = right.1 ∧ left.2.root = right.2.root

theorem collect_agree (levels : Nat) (seenRefs : List String)
    (node : Option Json)
    {left right : FlattenedSchema × SchemaResolver}
    (agree : Agree left right) :
    Agree (collect levels seenRefs left node)
      (collect levels seenRefs right node) := by
  induction levels generalizing seenRefs left right node with
  | zero => exact agree
  | succ levels inductionHypothesis =>
    rcases left with ⟨out, left⟩
    rcases right with ⟨_, right⟩
    rcases agree with ⟨rfl, same⟩
    change left.root = right.root at same
    rw [collect, collect]
    split
    · split
      · exact ⟨rfl, same⟩
      · split
        · exact ⟨rfl, same⟩
        · rw [same]
          split
          · exact ⟨rfl, same⟩
          · exact inductionHypothesis _ _ ⟨rfl, same⟩
    · apply List.foldl_rel
      · exact ⟨rfl, same⟩
      · intro member _ one other both
        exact inductionHypothesis _ _ both

theorem properties_root (resolver : SchemaResolver)
    (schema : Option Json) :
    (resolver.properties schema).2.root = resolver.root :=
  collect_root _ _ _ _

theorem properties_fst (same : left.root = right.root) (schema : Option Json) :
    (left.properties schema).1 = (right.properties schema).1 := by
  have agree : Agree (FlattenedSchema.empty, left)
      (FlattenedSchema.empty, right) := ⟨rfl, same⟩
  exact (collect_agree _ _ schema agree).1

end SchemaResolver

/-- One report for the resolvers of a diff. -/
def buildResolutionReport (resolvers : List SchemaResolver) :
    SpecResolutionReport :=
  let issues :=
    (resolvers.flatMap SchemaResolver.issues).foldl recordIssue []
  { complete := decide (issues.length = 0), issues := issues }

end Mendpoint.ChangeIntel

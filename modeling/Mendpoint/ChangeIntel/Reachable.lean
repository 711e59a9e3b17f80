import Mendpoint.ChangeIntel.SpecRef

/-!
# The names behind a schema

A schema is flattened to the names which it and the schemas behind it declare.
A node with a reference stands for the target of the reference.  Where the
resolver has no issue to report, no name is missing and none is added, however
the references of the document run in circles.
-/

namespace Mendpoint.ChangeIntel

open Mendpoint.Library

/-! ## Schemas behind a schema -/

/-- The reference of a node, where it is one. -/
def reference? (node : Option Json) : Option String :=
  ((asObj node).get? "$ref").bind Json.text?

/-- The properties which a schema declares itself. -/
def declaredProperties (schema : Option Json) : List String :=
  (asObj ((asObj schema).get? "properties")).keys

/-- The names which a schema requires itself. -/
def declaredRequired (schema : Option Json) : List String :=
  ((((asObj schema).get? "required").bind Json.items?).getD []).filterMap
    Json.text?

/-- A schema is reached through references and compositions. -/
inductive Reaches (root : Json) : Option Json → Option Json → Prop where
  | self (node : Option Json) : Reaches root node node
  | reference {node schema : Option Json} {ref : String} {target : Json}
      (names : reference? node = some ref)
      (isLocal : isExternalRef ref = false)
      (resolves : resolvePointer root ref = some target)
      (behind : Reaches root (some target) schema) : Reaches root node schema
  | member {node schema : Option Json} {member : Json}
      (composes : member ∈ compositionMembers (asObj node))
      (behind : Reaches root (some member) schema) : Reaches root node schema

/-- The same, where a reference stands for its target and nothing else. -/
inductive StandsFor (root : Json) : Option Json → Option Json → Prop where
  | self {node : Option Json} (plain : reference? node = none) :
      StandsFor root node node
  | reference {node schema : Option Json} {ref : String} {target : Json}
      (names : reference? node = some ref)
      (isLocal : isExternalRef ref = false)
      (resolves : resolvePointer root ref = some target)
      (behind : StandsFor root (some target) schema) :
      StandsFor root node schema
  | member {node schema : Option Json} {member : Json}
      (plain : reference? node = none)
      (composes : member ∈ compositionMembers (asObj node))
      (behind : StandsFor root (some member) schema) :
      StandsFor root node schema

/-- The names of a flattened schema are those declared by these schemas. -/
structure Declares (schemas : Option Json → Prop) (flat : FlattenedSchema) :
    Prop where
  props : ∀ name, name ∈ flat.props.keys ↔
    ∃ schema, schemas schema ∧ name ∈ declaredProperties schema
  required : ∀ name, name ∈ flat.required ↔
    ∃ schema, schemas schema ∧ name ∈ declaredRequired schema

/-! ## Growth of the names -/

/-- What these schemas declare has been added. -/
structure Grows (schemas : Option Json → Prop)
    (before after : FlattenedSchema) : Prop where
  props : ∀ name, name ∈ after.props.keys ↔ name ∈ before.props.keys ∨
    ∃ schema, schemas schema ∧ name ∈ declaredProperties schema
  required : ∀ name, name ∈ after.required ↔ name ∈ before.required ∨
    ∃ schema, schemas schema ∧ name ∈ declaredRequired schema

section Growth

variable {schemas more : Option Json → Prop}
  {before middle after : FlattenedSchema}

theorem Grows.none (flat : FlattenedSchema) :
    Grows (fun _ => False) flat flat := by
  constructor
  · simp only [false_and, exists_false, or_false, implies_true]
  · simp only [false_and, exists_false, or_false, implies_true]

theorem Grows.trans (first : Grows schemas before middle)
    (second : Grows more middle after) :
    Grows (fun schema => schemas schema ∨ more schema) before after := by
  constructor
  · intro name
    rw [second.props, first.props, or_assoc]
    simp only [or_and_right, exists_or]
  · intro name
    rw [second.required, first.required, or_assoc]
    simp only [or_and_right, exists_or]

theorem Grows.of_iff (grows : Grows schemas before after)
    (same : ∀ schema, schemas schema ↔ more schema) :
    Grows more before after := by
  constructor
  · intro name
    rw [grows.props]
    simp only [same]
  · intro name
    rw [grows.required]
    simp only [same]

theorem mem_addRequiredName {names : List String} {name other : String} :
    other ∈ FlattenedSchema.addRequiredName names name ↔
      other ∈ names ∨ other = name := by
  rw [FlattenedSchema.addRequiredName]
  split
  · next known =>
      constructor
      · exact .inl
      · rintro (member | rfl)
        · exact member
        · exact known
  · rw [List.mem_append, List.mem_singleton]

theorem mem_foldl_addRequiredName {names added : List String}
    {name : String} :
    name ∈ added.foldl FlattenedSchema.addRequiredName names ↔
      name ∈ names ∨ name ∈ added := by
  induction added generalizing names with
  | nil => simp only [List.foldl_nil, List.not_mem_nil, or_false]
  | cons first rest inductionHypothesis =>
    rw [List.foldl_cons, inductionHypothesis, mem_addRequiredName,
      List.mem_cons, or_assoc]

theorem grows_own (flat : FlattenedSchema) (schema : Option Json) :
    Grows (fun own => own = schema) flat
      ((flat.addProperties (asObj schema)).addRequired (asObj schema)) := by
  constructor
  · intro name
    rw [FlattenedSchema.addRequired, FlattenedSchema.addProperties,
      OrderedMap.mem_keys_setAll, List.map_map]
    simp only [exists_eq_left]
    rfl
  · intro name
    rw [FlattenedSchema.addRequired, mem_foldl_addRequiredName,
      FlattenedSchema.addProperties]
    simp only [exists_eq_left]
    rfl

end Growth

/-! ## Issues -/

theorem recordIssue_ne_nil (issues : List SpecRefIssue)
    (issue : SpecRefIssue) : recordIssue issues issue ≠ [] := by
  rw [recordIssue]
  split
  · next known =>
      rintro rfl
      exact Bool.false_ne_true known
  · exact List.append_ne_nil_of_right_ne_nil _ (List.cons_ne_nil _ _)

/-- The issue of the same kind about the same reference is recorded. -/
def Recorded (issues : List SpecRefIssue) (issue : SpecRefIssue) : Prop :=
  ∃ known ∈ issues, known.kind = issue.kind ∧ known.ref = issue.ref

theorem recorded_recordIssue {issues : List SpecRefIssue}
    {issue other : SpecRefIssue} :
    Recorded (recordIssue issues issue) other ↔
      Recorded issues other ∨ issue.kind = other.kind ∧
        issue.ref = other.ref := by
  rw [recordIssue]
  split
  · next known =>
      rw [List.any_eq_true] at known
      obtain ⟨existing, member, same⟩ := known
      rw [Bool.and_eq_true, decide_eq_true_iff, decide_eq_true_iff] at same
      constructor
      · exact .inl
      · rintro (recorded | ⟨kind, ref⟩)
        · exact recorded
        · exact ⟨existing, member, same.1.trans kind, same.2.trans ref⟩
  · simp only [Recorded, List.mem_append, List.mem_singleton, or_and_right,
      exists_or, exists_eq_left]

namespace SchemaResolver

/-- What one resolver records the other one has recorded as well. -/
def Extends (left right : FlattenedSchema × SchemaResolver) : Prop :=
  Agree left right ∧
    ∀ issue, Recorded left.2.issues issue → Recorded right.2.issues issue

theorem Extends.record {out other : FlattenedSchema}
    {left right : SchemaResolver}
    (more : Extends (out, left) (other, right)) (issue : SpecRefIssue) :
    Extends (out, left.record issue) (other, right.record issue) := by
  obtain ⟨⟨same, roots⟩, recorded⟩ := more
  refine ⟨⟨same, roots⟩, fun other known => ?_⟩
  exact recorded_recordIssue.mpr
    ((recorded_recordIssue.mp known).imp_left (recorded other))

theorem collect_extends (levels : Nat) (seenRefs : List String)
    (node : Option Json) {left right : FlattenedSchema × SchemaResolver}
    (more : Extends left right) :
    Extends (collect levels seenRefs left node)
      (collect levels seenRefs right node) := by
  induction levels generalizing seenRefs left right node with
  | zero => exact more.record _
  | succ levels inductionHypothesis =>
    obtain ⟨out, left⟩ := left
    obtain ⟨other, right⟩ := right
    have same : out = other := more.1.1
    subst same
    have roots : left.root = right.root := more.1.2
    rw [collect, collect, roots]
    split
    · split
      · exact more.record _
      · split
        · exact more.record _
        · split
          · exact more.record _
          · exact inductionHypothesis _ _ more
    · apply List.foldl_rel
      · exact ⟨⟨rfl, roots⟩, more.2⟩
      · exact fun member _ _ _ both => inductionHypothesis _ _ both

/-! ## Flattening without issues -/

/-- A collection without issues has added what the node stands for. -/
def Collects (root : Json) (node : Option Json)
    (before after : FlattenedSchema × SchemaResolver) : Prop :=
  after.2.issues = [] → before.2.issues = [] ∧
    Grows (StandsFor root node) before.1 after.1

variable {root : Json} {node : Option Json}

theorem collects_of_record {out : FlattenedSchema}
    {resolver : SchemaResolver} (issue : SpecRefIssue) :
    Collects root node (out, resolver) (out, resolver.record issue) :=
  fun none' => absurd none' (recordIssue_ne_nil _ _)

theorem standsFor_iff_of_reference {ref : String} {target : Json}
    (names : reference? node = some ref)
    (isLocal : isExternalRef ref = false)
    (resolves : resolvePointer root ref = some target) (schema : Option Json) :
    StandsFor root (some target) schema ↔ StandsFor root node schema := by
  constructor
  · exact .reference names isLocal resolves
  · intro stands
    cases stands with
    | self plain => rw [names] at plain; cases plain
    | reference namesToo _ resolvesToo behind =>
      cases names.symm.trans namesToo
      cases resolves.symm.trans resolvesToo
      exact behind
    | member plain _ _ => rw [names] at plain; cases plain

theorem standsFor_iff_of_plain (plain : reference? node = none)
    (schema : Option Json) :
    StandsFor root node schema ↔ schema = node ∨
      ∃ member ∈ compositionMembers (asObj node),
        StandsFor root (some member) schema := by
  constructor
  · intro stands
    cases stands with
    | self _ => exact .inl rfl
    | reference names _ _ _ => rw [plain] at names; cases names
    | member _ composes behind => exact .inr ⟨_, composes, behind⟩
  · rintro (rfl | ⟨member, composes, behind⟩)
    · exact .self plain
    · exact .member plain composes behind

theorem foldl_collects {members : List Json}
    {visit : FlattenedSchema × SchemaResolver → Json → FlattenedSchema ×
      SchemaResolver}
    (collects : ∀ state member, state.2.root = root → Collects root (some
      member) state (visit state member))
    (roots : ∀ state member, (visit state member).2.root = state.2.root)
    {state : FlattenedSchema × SchemaResolver} (start : state.2.root = root)
    (none' : (members.foldl visit state).2.issues = []) :
    state.2.issues = [] ∧ Grows (fun schema => ∃ member ∈ members,
      StandsFor root (some member) schema) state.1
        (members.foldl visit state).1 := by
  induction members generalizing state with
  | nil =>
    refine ⟨none', (Grows.none _).of_iff fun schema => ?_⟩
    simp only [List.not_mem_nil, false_and, exists_false]
  | cons member rest inductionHypothesis =>
    obtain ⟨issues, later⟩ := inductionHypothesis
      ((roots state member).trans start) none'
    obtain ⟨before, first⟩ := collects state member start issues
    refine ⟨before, (first.trans later).of_iff fun schema => ?_⟩
    simp only [List.mem_cons, or_and_right, exists_or, exists_eq_left]

theorem collect_collects (levels : Nat) (seenRefs : List String)
    (state : FlattenedSchema × SchemaResolver) (node : Option Json) :
    Collects state.2.root node state (collect levels seenRefs state node) := by
  induction levels generalizing seenRefs state node with
  | zero => exact collects_of_record _
  | succ levels inductionHypothesis =>
    obtain ⟨out, resolver⟩ := state
    rw [collect]
    split
    · next ref names =>
        split
        · exact collects_of_record _
        · next isLocal =>
            rw [Bool.not_eq_true] at isLocal
            split
            · exact collects_of_record _
            · split
              · exact collects_of_record _
              · next target resolves =>
                  intro none'
                  obtain ⟨issues, grows⟩ :=
                    inductionHypothesis _ _ _ none'
                  exact ⟨issues, grows.of_iff
                    (standsFor_iff_of_reference names isLocal resolves)⟩
    · next plain =>
        intro none'
        obtain ⟨issues, grows⟩ := foldl_collects
          (fun state member start =>
            start ▸ inductionHypothesis seenRefs state (some member))
          (fun state member => collect_root levels seenRefs state _)
          rfl none'
        refine ⟨issues, ((grows_own out node).trans grows).of_iff
          fun schema => ?_⟩
        exact (standsFor_iff_of_plain plain schema).symm

theorem properties_collects (resolver : SchemaResolver)
    (node : Option Json) :
    Collects resolver.root node (FlattenedSchema.empty, resolver)
      (resolver.properties node) :=
  collect_collects _ _ _ _

theorem properties_extends {left right : SchemaResolver}
    (more : Extends (FlattenedSchema.empty, left)
      (FlattenedSchema.empty, right)) (node : Option Json) :
    Extends (left.properties node) (right.properties node) :=
  collect_extends _ _ _ more

/-- An issue of the node is recorded, so no report is complete. -/
structure Reports (resolver : SchemaResolver) (node : Option Json) : Prop where
  issue : ∃ issue ∈ ((new resolver.root).properties node).2.issues,
    Recorded (resolver.properties node).2.issues issue
  incomplete : ∀ resolvers, (resolver.properties node).2 ∈ resolvers →
    (buildResolutionReport resolvers).complete = false

theorem foldl_recordIssue_ne_nil {issues added : List SpecRefIssue}
    (some' : issues ≠ [] ∨ added ≠ []) :
    added.foldl recordIssue issues ≠ [] := by
  induction added generalizing issues with
  | nil => exact some'.resolve_right fun different => different rfl
  | cons first rest inductionHypothesis =>
    exact inductionHypothesis (.inl (recordIssue_ne_nil _ _))

theorem incomplete_of_issue {resolvers : List SchemaResolver}
    {resolver : SchemaResolver} (member : resolver ∈ resolvers)
    (some' : resolver.issues ≠ []) :
    (buildResolutionReport resolvers).complete = false := by
  have all : resolvers.flatMap SchemaResolver.issues ≠ [] := fun none' =>
    some' (List.flatMap_eq_nil_iff.mp none' resolver member)
  exact decide_eq_false fun none' =>
    foldl_recordIssue_ne_nil (.inr all) (List.length_eq_zero_iff.mp none')

/--
Flattening a node reports an issue or finds the names which are declared by the
schemas it stands for.
-/
theorem reports_or_declares (resolver : SchemaResolver)
    (node : Option Json) :
    Reports resolver node ∨
      Declares (StandsFor resolver.root node)
        (resolver.properties node).1 := by
  by_cases none' : ((new resolver.root).properties node).2.issues = []
  · right
    have roots : (new resolver.root).root = resolver.root := rfl
    rw [← properties_fst roots]
    have grows : Grows (StandsFor resolver.root node) FlattenedSchema.empty
        ((new resolver.root).properties node).1 :=
      (properties_collects (new resolver.root) node none').2
    constructor
    · intro name
      exact (grows.props name).trans
        (or_iff_right List.not_mem_nil)
    · intro name
      exact (grows.required name).trans
        (or_iff_right List.not_mem_nil)
  · left
    obtain ⟨issue, rest, shape⟩ := List.exists_cons_of_ne_nil none'
    have more : Extends (FlattenedSchema.empty, new resolver.root)
        (FlattenedSchema.empty, resolver) :=
      ⟨⟨rfl, rfl⟩, fun _ ⟨_, member, _⟩ => absurd member List.not_mem_nil⟩
    have member : issue ∈ ((new resolver.root).properties node).2.issues :=
      shape ▸ List.mem_cons_self
    have recorded := (properties_extends more node).2 issue
      ⟨issue, member, rfl, rfl⟩
    refine ⟨⟨issue, member, recorded⟩, fun resolvers inside => ?_⟩
    apply incomplete_of_issue inside
    obtain ⟨known, there, _⟩ := recorded
    exact List.ne_nil_of_mem there

/-! ## A reference with a property beside it -/

/-- A schema with one property. -/
def baseSchema : Json :=
  .obj [("properties", .obj [("id", .obj [])])]

/-- A document with one schema. -/
def siblingDocument : Json :=
  .obj [("components", .obj [("schemas", .obj [("Base", baseSchema)])])]

/-- A reference to the schema, with a property beside it. -/
def siblingNode : Option Json :=
  some (.obj [
    ("$ref", .str "#/components/schemas/Base"),
    ("properties", .obj [("note", .obj [])])])

theorem properties_siblingNode :
    (new siblingDocument).properties siblingNode =
      ((FlattenedSchema.empty.addProperties baseSchema).addRequired
        baseSchema, new siblingDocument) := by
  have names : ((asObj siblingNode).get? "$ref").bind Json.text? =
      some "#/components/schemas/Base" := by rfl
  have isLocal : isExternalRef "#/components/schemas/Base" = false := by
    decide
  have resolves : resolvePointer siblingDocument
      "#/components/schemas/Base" = some baseSchema := by rfl
  have plain : ((asObj (some baseSchema)).get? "$ref").bind Json.text? =
      none := by rfl
  have alone : compositionMembers (asObj (some baseSchema)) = [] := by rfl
  rw [properties, collect]
  simp only [names, isLocal, new, resolves, Bool.false_eq_true, if_false,
    List.not_mem_nil]
  rw [maxRefDepth, collect]
  simp only [plain, alone]
  rfl

/-- The property beside the reference is missing without an issue. -/
theorem not_declares_sibling :
    ¬ (Reports (new siblingDocument) siblingNode ∨
      Declares (Reaches siblingDocument siblingNode)
        ((new siblingDocument).properties siblingNode).1) := by
  have missing : "note" ∉ ((FlattenedSchema.empty.addProperties
      baseSchema).addRequired baseSchema).props.keys := by decide
  rintro (⟨⟨_, _, _, known, _⟩, _⟩ | declares)
  · rw [properties_siblingNode] at known
    exact absurd known List.not_mem_nil
  · rw [properties_siblingNode] at declares
    exact missing ((declares.props "note").mpr
      ⟨siblingNode, .self _, by decide⟩)

end SchemaResolver

end Mendpoint.ChangeIntel

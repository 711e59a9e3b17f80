import Mendpoint.ChangeGraph.Builders
import Mathlib.Data.List.Forall2
import Mathlib.Data.List.Nodup
import Mathlib.Logic.Relation

/-!
# Merging two graphs of a change

The builders number their edges alike, and the merge keeps the first edge of
an identifier: as many edges of the second graph are lost as the first one
has.
-/

namespace Mendpoint.ChangeGraph

open Mendpoint.Library
open Mendpoint.Calls
open Mendpoint.ChangeIntel

/-! ## Links -/

/-- An edge without its identifier. -/
structure Link where
  source : String
  target : String
  kind : EdgeKind
  deriving DecidableEq

def GraphEdge.link (e : GraphEdge) : Link where
  source := e.source
  target := e.target
  kind := e.kind

/-- Whether the edges of a kind are of a structural diff. -/
def EdgeKind.ofDiff : EdgeKind → Bool
  | .op | .breakingOp | .onPath | .renamesTo | .touchesField
  | .removedField | .addedField => true
  | _ => false

/-- Whether the edges of a kind are of what a change affects. -/
def EdgeKind.ofImpact : EdgeKind → Bool
  | .affectsConsumer | .hasSurface | .impacts | .inFile | .inFunction
  | .calls => true
  | _ => false

/-- Whether a kind leads to the consumer, to a surface or to a finding. -/
def EdgeKind.isMain : EdgeKind → Bool
  | .affectsConsumer | .hasSurface | .impacts => true
  | _ => false

theorem EdgeKind.ofImpact_of_ofDiff {kind : EdgeKind}
    (ofDiff : kind.ofDiff = true) : kind.ofImpact = false := by
  cases kind <;> first | rfl | cases ofDiff

def ProductGraph.links (graph : ProductGraph) : List Link :=
  graph.edges.map GraphEdge.link

def ProductGraph.Has (graph : ProductGraph) (id : String) : Prop :=
  id ∈ graph.nodes.map (·.id)

/-- A way along the directions of edges. -/
def ProductGraph.Reaches (graph : ProductGraph) : String → String → Prop :=
  Relation.ReflTransGen fun source target =>
    ∃ e ∈ graph.edges, e.source = source ∧ e.target = target

/-! ## What a builder adds -/

def Draft.links (draft : Draft) : List Link :=
  draft.edges.map GraphEdge.link

def Draft.Has (draft : Draft) (id : String) : Prop :=
  id ∈ draft.nodes.keys

/-- A draft has got links, between nodes which it has. -/
structure Extends (before after : Draft) (links : List Link) : Prop where
  links_eq : after.links = before.links ++ links
  keeps : ∀ {id}, before.Has id → after.Has id
  ends : ∀ link ∈ links, after.Has link.source ∧ after.Has link.target

variable {first second third draft : Draft} {links others : List Link}
  {id source target : String} {kind : GraphNodeKind} {edgeKind : EdgeKind}

theorem Extends.refl (draft : Draft) : Extends draft draft [] where
  links_eq := (List.append_nil _).symm
  keeps := fun has => has
  ends := List.forall_mem_nil _

theorem Extends.trans (former : Extends first second links)
    (latter : Extends second third others) :
    Extends first third (links ++ others) where
  links_eq := by
    rw [latter.links_eq, former.links_eq, List.append_assoc]
  keeps := fun has => latter.keeps (former.keeps has)
  ends := by
    intro link member
    rcases List.mem_append.mp member with earlier | later
    · rcases former.ends link earlier with ⟨sources, targets⟩
      exact ⟨latter.keeps sources, latter.keeps targets⟩
    · exact latter.ends link later

theorem Draft.has_set : (draft.set id kind).Has id :=
  (OrderedMap.mem_keys_set _ _ _ _).mpr (Or.inl rfl)

theorem Extends.set : Extends draft (draft.set id kind) [] where
  links_eq := (List.append_nil _).symm
  keeps := fun has => (OrderedMap.mem_keys_set _ _ _ _).mpr (Or.inr has)
  ends := List.forall_mem_nil _

theorem Extends.add : Extends draft (draft.add id kind) [] := by
  rw [Draft.add]
  split
  · exact .refl draft
  · exact .set

theorem Draft.has_add : (draft.add id kind).Has id := by
  rw [Draft.add]
  split
  · next has => exact (OrderedMap.has_iff _ _).mp has
  · exact has_set

theorem Extends.push (hasSource : draft.Has source)
    (hasTarget : draft.Has target) :
    Extends draft (draft.push source target edgeKind)
      [{ source, target, kind := edgeKind }] where
  links_eq := List.map_append
  keeps := fun has => has
  ends := by
    intro link member
    rw [List.mem_singleton.mp member]
    exact ⟨hasSource, hasTarget⟩

/-- What the steps of a loop add, each while some nodes are there. -/
theorem Extends.foldl {σ α : Type} (draftOf : σ → Draft) (step : σ → α → σ)
    (made : α → List Link → Prop) (ids : List String)
    (one : ∀ state item, (∀ id ∈ ids, (draftOf state).Has id) → ∃ links,
      Extends (draftOf state) (draftOf (step state item)) links ∧
        made item links) (items : List α) :
    ∀ state, (∀ id ∈ ids, (draftOf state).Has id) → ∃ parts,
      Extends (draftOf state) (draftOf (items.foldl step state))
        parts.flatten ∧ List.Forall₂ made items parts := by
  induction items with
  | nil => exact fun state _ => ⟨[], .refl _, .nil⟩
  | cons item rest inductionHypothesis =>
    intro state has
    rcases one state item has with ⟨links, step, isMade⟩
    rcases inductionHypothesis _ fun id member =>
      step.keeps (has id member) with ⟨parts, later, all⟩
    exact ⟨links :: parts, step.trans later, .cons isMade all⟩

/-- All links of a loop have a property which those of each step have. -/
theorem forall_flatten {α : Type} {made : α → List Link → Prop}
    {holds : Link → Prop} {items : List α} {parts : List (List Link)}
    (all : List.Forall₂ made items parts)
    (one : ∀ item links, made item links → ∀ link ∈ links, holds link) :
    ∀ link ∈ parts.flatten, holds link := by
  induction all with
  | nil => exact List.forall_mem_nil _
  | cons made _ inductionHypothesis =>
    rw [List.flatten_cons]
    exact List.forall_mem_append.mpr ⟨one _ _ made, inductionHypothesis⟩

/-! ## The operations of a diff -/

/-- Some links between nodes of a diff. -/
def Drawn (links : List Link) : Prop :=
  ∀ link ∈ links, link.kind.ofDiff = true

theorem addPath_extends (e : DiffEntry) (has : draft.Has id) :
    ∃ links, Extends draft (addPath draft e id) links ∧ Drawn links := by
  rw [addPath]
  split
  · exact ⟨[], .refl draft, List.forall_mem_nil _⟩
  · exact ⟨_, Extends.add.trans (.push (Extends.add.keeps has) Draft.has_add),
      List.forall_mem_singleton.mpr rfl⟩

theorem fieldKind_ofDiff (op : DiffOp) : (fieldKind op).ofDiff = true := by
  rw [fieldKind]
  split
  · rfl
  · split
    · rfl
    · rfl

theorem addField_extends (e : DiffEntry) (has : draft.Has id) :
    ∃ links, Extends draft (addField draft e id) links ∧ Drawn links := by
  rw [addField]
  split
  · exact ⟨[], .refl draft, List.forall_mem_nil _⟩
  · exact ⟨_, Extends.add.trans (.push (Extends.add.keeps has) Draft.has_add),
      List.forall_mem_singleton.mpr (fieldKind_ofDiff e.op)⟩

theorem addRename_extends (e : DiffEntry) (fromField toField : String)
    (has : draft.Has id) :
    ∃ links, Extends draft (addRename draft e id fromField toField) links ∧
      Drawn links := by
  rw [addRename]
  have both := @Extends.add draft (fieldId (e.path.getD "") fromField) .field
    |>.trans (@Extends.add _ (fieldId (e.path.getD "") toField) .field)
  have hasFrom := (@Extends.add _ (fieldId (e.path.getD "") toField)
    .field).keeps (@Draft.has_add draft (fieldId (e.path.getD "") fromField)
      .field)
  have renames := @Extends.push _ _ _ .renamesTo hasFrom Draft.has_add
  have touches := @Extends.push _ _ _ .touchesField
    (renames.keeps (both.keeps has)) (renames.keeps hasFrom)
  refine ⟨_, both.trans (renames.trans touches), ?_⟩
  exact List.forall_mem_cons.mpr ⟨rfl, List.forall_mem_singleton.mpr rfl⟩

theorem addFields_extends (e : DiffEntry) (has : draft.Has id) :
    ∃ links, Extends draft (addFields draft e id) links ∧ Drawn links := by
  rw [addFields]
  split
  · exact addField_extends e has
  · split
    · exact addField_extends e has
    · exact addRename_extends e _ _ has

theorem addEntry_extends (entry : DiffEntry × Nat) (has : draft.Has id) :
    ∃ links, Extends draft (addEntry id draft entry) links ∧
      (links ≠ [] ∧ Drawn links) := by
  rw [addEntry]
  have opens := @Extends.set draft (opId entry.1 entry.2) .operation
    |>.trans (@Extends.push _ _ _
      (if entry.1.breaking then EdgeKind.breakingOp else .op)
      (Extends.set.keeps has) Draft.has_set)
  have hasOp : ((draft.set (opId entry.1 entry.2) .operation).push id
      (opId entry.1 entry.2)
      (if entry.1.breaking then EdgeKind.breakingOp else .op)).Has
        (opId entry.1 entry.2) := Draft.has_set
  rcases addPath_extends entry.1 hasOp with ⟨paths, path, drawnPaths⟩
  rcases addFields_extends entry.1 (path.keeps hasOp) with
    ⟨fields, field, drawnFields⟩
  have drawnOp : (if entry.1.breaking then EdgeKind.breakingOp
      else .op).ofDiff = true := by
    split
    · rfl
    · rfl
  exact ⟨_, opens.trans (path.trans field), List.cons_ne_nil _ _,
    List.forall_mem_append.mpr ⟨List.forall_mem_singleton.mpr drawnOp,
      List.forall_mem_append.mpr ⟨drawnPaths, drawnFields⟩⟩⟩

/-- The links of a diff, of which there are none only without entries. -/
theorem apiDraft_extends (entries : List DiffEntry) (id : Option String) :
    ∃ links, Extends Draft.start (apiDraft entries id) links ∧ Drawn links ∧
      (links = [] ↔ entries = []) := by
  rcases Extends.foldl (fun draft => draft) (addEntry (id.getD "api-change"))
    (fun _ links => links ≠ [] ∧ Drawn links) [id.getD "api-change"]
    (fun draft entry has =>
      addEntry_extends entry (List.forall_mem_singleton.mp has))
    entries.zipIdx (Draft.start.set (id.getD "api-change") .change)
    (List.forall_mem_singleton.mpr Draft.has_set) with
    ⟨parts, extended, all⟩
  refine ⟨parts.flatten, Extends.set.trans extended,
    forall_flatten all fun _ _ made => made.2, ?_⟩
  cases entries with
  | nil =>
    cases all
    exact iff_of_true rfl rfl
  | cons entry rest =>
    rcases all with _ | ⟨made, _⟩
    refine iff_of_false (fun none => made.1 ?_) (List.cons_ne_nil _ _)
    exact (List.append_eq_nil_iff.mp none).1

/-! ## What a change affects -/

def consumerLinks (input : BuildImpactGraphInput) : List Link :=
  ((given input.consumerId).map fun consumerId =>
    { source := input.changeNid
      target := consumerNid consumerId
      kind := .affectsConsumer }).toList

def surfaceLink (input : BuildImpactGraphInput) (sid : String) : Link where
  source := input.changeNid
  target := sid
  kind := .hasSurface

def impactLink (input : BuildImpactGraphInput) (f : FindingLike) : Link where
  source := impactSource input f
  target := findingNid f
  kind := .impacts

def fileLink (f : FindingLike) : Link where
  source := findingNid f
  target := fileNid f
  kind := .inFile

/-- The links to the consumer, the surfaces and the findings. -/
def mainLinks (input : BuildImpactGraphInput) : List Link :=
  consumerLinks input ++
    ((surfaceList input).map fun entry => surfaceLink input entry.2) ++
    input.findings.map (impactLink input)

/-- Links to functions, and between them. -/
def Called (links : List Link) : Prop :=
  ∀ link ∈ links, link.kind = .inFunction ∨ link.kind = .calls

/-- The links of one finding. -/
def Found (input : BuildImpactGraphInput) (f : FindingLike)
    (links : List Link) : Prop :=
  ∃ rest, links = impactLink input f :: fileLink f :: rest ∧ Called rest

variable {input : BuildImpactGraphInput} {state : Expansion}

theorem addFunction_extends (state : Expansion) (id : String) :
    Extends state.draft (addFunction state id).draft [] ∧
      (addFunction state id).draft.Has (fnNid id) := by
  rw [addFunction]
  split
  · next has => exact ⟨.refl _, (OrderedMap.has_iff _ _).mp has⟩
  · exact ⟨.set, Draft.has_set⟩

theorem addCallers_nodes (nodes : List FunctionNode) (state : Expansion) :
    Extends state.draft (nodes.foldl (addCaller input) state).draft [] := by
  induction nodes generalizing state with
  | nil => exact .refl _
  | cons n rest inductionHypothesis =>
    have one : Extends state.draft (addCaller input state n).draft [] := by
      rw [addCaller]
      split
      · exact .refl _
      · exact (addFunction_extends state n.id).1
    exact one.trans (inductionHypothesis _)

theorem addCall_extends (draft : Draft) (e : CallEdge) :
    ∃ links, Extends draft (addCall draft e) links ∧ Called links := by
  rw [addCall]
  split
  · exact ⟨[], .refl draft, List.forall_mem_nil _⟩
  · next has =>
      rw [Bool.or_eq_true, not_or, Bool.not_eq_true', Bool.not_eq_true',
        Bool.not_eq_false, Bool.not_eq_false, OrderedMap.has_iff,
        OrderedMap.has_iff] at has
      exact ⟨_, .push has.1 has.2,
        List.forall_mem_singleton.mpr (Or.inr rfl)⟩

theorem addCallers_extends (graph : CallGraph) (state : Expansion)
    (fn : String) :
    ∃ links, Extends state.draft (addCallers input graph state fn).draft
      links ∧ Called links := by
  rw [addCallers]
  split
  · have nodes := @addCallers_nodes input
      (impactSubgraph graph [fn]
        { maxDepth := some (input.maxCallerDepth.getD 2) }).nodes.values state
    rcases Extends.foldl (fun draft => draft) addCall
      (fun _ links => Called links) []
      (fun draft e _ => addCall_extends draft e)
      (impactSubgraph graph [fn]
        { maxDepth := some (input.maxCallerDepth.getD 2) }).edges.values _
      (List.forall_mem_nil _) with ⟨parts, calls, all⟩
    exact ⟨_, nodes.trans calls, forall_flatten all fun _ _ made => made⟩
  · exact ⟨[], .refl _, List.forall_mem_nil _⟩

theorem addSeedFunction_extends (graph : CallGraph) (state : Expansion)
    (fid : String) (fn : FunctionNode) (has : state.draft.Has fid) :
    ∃ links, Extends state.draft
      (addSeedFunction input graph state fid fn).draft links ∧
      Called links := by
  rw [addSeedFunction]
  split
  · split
    · next known =>
        exact ⟨_, .push has ((OrderedMap.has_iff _ _).mp known),
          List.forall_mem_singleton.mpr (Or.inl rfl)⟩
    · exact ⟨[], .refl _, List.forall_mem_nil _⟩
  · rcases addFunction_extends
      { state with seedFnsSeen := state.seedFnsSeen ++ [fn.id] } fn.id with
      ⟨added, hasFn⟩
    have within := @Extends.push _ _ _ .inFunction (added.keeps has) hasFn
    rcases @addCallers_extends input graph { addFunction _ fn.id with
      draft := _ } fn.id with ⟨calls, called, areCalls⟩
    exact ⟨_, added.trans (within.trans called),
      List.forall_mem_cons.mpr ⟨Or.inl rfl, areCalls⟩⟩

theorem addFunctions_extends (state : Expansion) (f : FindingLike)
    (has : state.draft.Has (findingNid f)) :
    ∃ links, Extends state.draft (addFunctions input state f).draft links ∧
      Called links := by
  rw [addFunctions]
  split
  · exact ⟨[], .refl _, List.forall_mem_nil _⟩
  · split
    · split
      · exact ⟨[], .refl _, List.forall_mem_nil _⟩
      · exact addSeedFunction_extends _ state _ _ has
    · exact ⟨[], .refl _, List.forall_mem_nil _⟩

theorem addFinding_extends (state : Expansion) (f : FindingLike)
    (has : state.draft.Has (impactSource input f)) :
    ∃ links, Extends state.draft (addFinding input state f).draft links ∧
      Found input f links := by
  rw [addFinding]
  have opens := @Extends.set state.draft (findingNid f) .finding |>.trans
    (@Extends.push _ _ _ .impacts (Extends.set.keeps has) Draft.has_set)
  have hasFinding : ((state.draft.set (findingNid f) .finding).push
      (impactSource input f) (findingNid f) .impacts).Has (findingNid f) :=
    Draft.has_set
  have files := @Extends.add ((state.draft.set (findingNid f) .finding).push
    (impactSource input f) (findingNid f) .impacts) (fileNid f) .file
  have inFile := @Extends.push _ _ _ .inFile (files.keeps hasFinding)
    (@Draft.has_add _ (fileNid f) .file)
  rcases @addFunctions_extends input { state with draft := _ } f
    (inFile.keeps (files.keeps hasFinding)) with ⟨rest, functions, called⟩
  exact ⟨_, opens.trans (files.trans (inFile.trans functions)), rest, rfl,
    called⟩

theorem flatten_of_single {α : Type} {link : α → Link} {items : List α}
    {parts : List (List Link)}
    (all : List.Forall₂ (fun item links => links = [link item]) items parts) :
    parts.flatten = items.map link := by
  induction all with
  | nil => rfl
  | cons single _ inductionHypothesis =>
    rw [List.flatten_cons, single, inductionHypothesis]
    rfl

theorem addConsumer_extends (has : draft.Has input.changeNid) :
    Extends draft (addConsumer input draft) (consumerLinks input) := by
  rw [addConsumer, consumerLinks]
  split
  · next none =>
      rw [none]
      exact .refl draft
  · next consumerId isGiven =>
      rw [isGiven]
      exact Extends.set.trans (.push (Extends.set.keeps has) Draft.has_set)

theorem surfacesDraft_extends (input : BuildImpactGraphInput) :
    Extends Draft.start (surfacesDraft input) (consumerLinks input ++
        ((surfaceList input).map fun entry => surfaceLink input entry.2)) ∧
      (surfacesDraft input).Has input.changeNid := by
  have opens := @Extends.set Draft.start input.changeNid .change
  have hasChange := @Draft.has_set Draft.start input.changeNid .change
  have consumer := addConsumer_extends hasChange
  rcases Extends.foldl (fun draft => draft) (addSurface input)
    (fun sid links => links = [surfaceLink input sid]) [input.changeNid]
    (fun draft sid has => ⟨_, Extends.set.trans (.push
      (Extends.set.keeps (List.forall_mem_singleton.mp has)) Draft.has_set),
      rfl⟩)
    ((surfaceList input).map Prod.snd) _
    (List.forall_mem_singleton.mpr (consumer.keeps hasChange)) with
    ⟨parts, surfaces, all⟩
  have extended := opens.trans (consumer.trans surfaces)
  rw [flatten_of_single all, List.map_map] at extended
  exact ⟨extended, surfaces.keeps (consumer.keeps hasChange)⟩

theorem impactSource_cases (input : BuildImpactGraphInput) (f : FindingLike) :
    impactSource input f = input.changeNid ∨
      impactSource input f ∈ (surfaceList input).map Prod.snd := by
  rw [impactSource]
  split
  · next entry found =>
      exact Or.inr (List.mem_map_of_mem (List.mem_of_find?_eq_some found))
  · rcases isList : surfaceList input with _ | ⟨entry, rest⟩
    · exact Or.inl rfl
    · exact Or.inr (List.mem_cons_self ..)

/-- The links of the impact graph: those of each finding come last. -/
theorem impactDraft_extends (input : BuildImpactGraphInput) :
    ∃ parts, Extends Draft.start (impactDraft input)
        (consumerLinks input ++
          ((surfaceList input).map fun entry => surfaceLink input entry.2) ++
          parts.flatten) ∧
      List.Forall₂ (Found input) input.findings parts := by
  rcases surfacesDraft_extends input with ⟨surfaces, hasChange⟩
  have sources : ∀ id ∈ input.changeNid :: (surfaceList input).map Prod.snd,
      (surfacesDraft input).Has id := by
    refine List.forall_mem_cons.mpr ⟨hasChange, fun id member => ?_⟩
    rcases List.mem_map.mp member with ⟨entry, isEntry, rfl⟩
    exact (surfaces.ends (surfaceLink input entry.2)
      (List.mem_append_right _ (List.mem_map_of_mem isEntry))).2
  rcases Extends.foldl Expansion.draft (addFinding input) (Found input)
    (input.changeNid :: (surfaceList input).map Prod.snd)
    (fun state f has => addFinding_extends state f
      (has _ (List.mem_cons.mpr (impactSource_cases input f))))
    input.findings
    { draft := surfacesDraft input
      functionNodesAdded := 0
      seedFnsSeen := [] } sources with ⟨parts, findings, all⟩
  exact ⟨parts, surfaces.trans findings, all⟩

theorem Called.filter_eq (called : Called links) :
    links.filter (fun link => link.kind.isMain) = [] := by
  rw [List.filter_eq_nil_iff]
  intro link member
  rcases called link member with isKind | isKind
  · rw [isKind]
    exact Bool.false_ne_true
  · rw [isKind]
    exact Bool.false_ne_true

theorem filter_found {findings : List FindingLike} {parts : List (List Link)}
    (all : List.Forall₂ (Found input) findings parts) :
    parts.flatten.filter (fun link => link.kind.isMain) =
      findings.map (impactLink input) := by
  induction all with
  | nil => rfl
  | cons found _ inductionHypothesis =>
    rcases found with ⟨rest, rfl, called⟩
    rw [List.flatten_cons, List.filter_append, inductionHypothesis,
      List.filter_cons_of_pos rfl, List.filter_cons_of_neg Bool.false_ne_true,
      called.filter_eq]
    rfl

theorem head_found {findings : List FindingLike} {parts : List (List Link)}
    (all : List.Forall₂ (Found input) findings parts) :
    parts.flatten.head? = (findings.map (impactLink input)).head? := by
  cases all with
  | nil => rfl
  | cons found _ =>
    rcases found with ⟨rest, rfl, _⟩
    rfl

theorem fileLink_mem_flatten {findings : List FindingLike}
    {parts : List (List Link)} {f : FindingLike}
    (all : List.Forall₂ (Found input) findings parts)
    (member : f ∈ findings) : fileLink f ∈ parts.flatten := by
  induction all with
  | nil => cases member
  | cons found _ inductionHypothesis =>
    rw [List.flatten_cons]
    rcases List.mem_cons.mp member with rfl | later
    · rcases found with ⟨rest, rfl, _⟩
      exact List.mem_append_left _
        (List.mem_cons_of_mem _ (List.mem_cons_self ..))
    · exact List.mem_append_right _ (inductionHypothesis later)

theorem impactLinks_parts (input : BuildImpactGraphInput) :
    ∃ parts, (impactDraft input).links = consumerLinks input ++
        ((surfaceList input).map fun entry => surfaceLink input entry.2) ++
        parts.flatten ∧
      List.Forall₂ (Found input) input.findings parts := by
  rcases impactDraft_extends input with ⟨parts, extended, all⟩
  exact ⟨parts, extended.links_eq, all⟩

theorem filter_impactLinks (input : BuildImpactGraphInput) :
    (impactDraft input).links.filter (fun link => link.kind.isMain) =
      mainLinks input := by
  rcases impactLinks_parts input with ⟨parts, isLinks, all⟩
  have consumer : (consumerLinks input).filter
      (fun link => link.kind.isMain) = consumerLinks input := by
    rw [consumerLinks]
    cases given input.consumerId with
    | none => rfl
    | some consumerId => rfl
  have surfaces : ((surfaceList input).map fun entry =>
      surfaceLink input entry.2).filter (fun link => link.kind.isMain) =
        (surfaceList input).map fun entry => surfaceLink input entry.2 := by
    rw [List.filter_eq_self]
    intro link member
    rcases List.mem_map.mp member with ⟨entry, _, rfl⟩
    rfl
  rw [isLinks, mainLinks, List.filter_append, List.filter_append,
    filter_found all, consumer, surfaces]

theorem head_impactLinks (input : BuildImpactGraphInput) :
    (impactDraft input).links.head? = (mainLinks input).head? := by
  rcases impactLinks_parts input with ⟨parts, isLinks, all⟩
  rw [isLinks, mainLinks, List.head?_append, head_found all,
    ← List.head?_append]

theorem impactLinks_ofImpact (input : BuildImpactGraphInput) :
    ∀ link ∈ (impactDraft input).links, link.kind.ofImpact = true := by
  rcases impactLinks_parts input with ⟨parts, isLinks, all⟩
  rw [isLinks]
  refine List.forall_mem_append.mpr ⟨List.forall_mem_append.mpr ⟨?_, ?_⟩,
    forall_flatten all ?_⟩
  · rw [consumerLinks]
    cases given input.consumerId with
    | none => exact List.forall_mem_nil _
    | some consumerId => exact List.forall_mem_singleton.mpr rfl
  · intro link member
    rcases List.mem_map.mp member with ⟨entry, _, rfl⟩
    rfl
  · rintro f links ⟨rest, rfl, called⟩
    refine List.forall_mem_cons.mpr ⟨rfl, List.forall_mem_cons.mpr ⟨rfl, ?_⟩⟩
    intro link member
    rcases called link member with isKind | isKind
    · rw [isKind]
      rfl
    · rw [isKind]
      rfl

theorem fileLink_mem {f : FindingLike} (member : f ∈ input.findings) :
    fileLink f ∈ (impactDraft input).links := by
  rcases impactLinks_parts input with ⟨parts, isLinks, all⟩
  rw [isLinks]
  exact List.mem_append_right _ (fileLink_mem_flatten all member)

/-! ## The edges of a merge -/

theorem edgeId_inj {index other : Nat} (same : edgeId index = edgeId other) :
    index = other := by
  have texts := congrArg String.toList same
  rw [edgeId, edgeId, String.toList_append, String.toList_append] at texts
  exact Delimited.toString_inj
    (String.toList_inj.mp (List.append_cancel_left texts))

theorem Draft.nodup_ids (draft : Draft) :
    (draft.edges.map (·.id)).Nodup := by
  rw [draft.numbered]
  exact List.nodup_range.map fun _ _ => edgeId_inj

theorem foldl_keepEdge (edges kept : List GraphEdge)
    (nodup : (edges.map (·.id)).Nodup) :
    edges.foldl keepEdge kept =
      kept ++ edges.filter fun e => decide (e.id ∉ kept.map (·.id)) := by
  induction edges generalizing kept with
  | nil => exact (List.append_nil _).symm
  | cons e rest inductionHypothesis =>
    rcases List.nodup_cons.mp nodup with ⟨apart, others⟩
    rw [List.foldl_cons, keepEdge]
    by_cases seen : e.id ∈ kept.map (·.id)
    · rw [if_pos seen, inductionHypothesis kept others,
        List.filter_cons_of_neg (by simpa using seen)]
    · rw [if_neg seen, inductionHypothesis _ others,
        List.filter_cons_of_pos (by simpa using seen), List.append_assoc]
      refine congrArg (kept ++ e :: ·)
        (List.filter_congr fun other member => ?_)
      rw [decide_eq_decide, List.map_append, List.mem_append, not_or]
      refine and_iff_left fun same => apart ?_
      rw [← List.mem_singleton.mp same]
      exact List.mem_map_of_mem member

theorem filter_numbered (edges : List GraphEdge) (taken start : Nat)
    (numbered : edges.map (·.id) =
      (List.range' start edges.length).map edgeId) :
    (edges.filter fun e => decide (e.id ∉ (List.range taken).map edgeId)) =
      edges.drop (taken - start) := by
  induction edges generalizing start with
  | nil => exact List.drop_nil.symm
  | cons e rest inductionHypothesis =>
    rw [List.map_cons, List.length_cons, List.range'_succ,
      List.map_cons] at numbered
    rcases List.cons.inj numbered with ⟨isId, others⟩
    have taken_iff : e.id ∈ (List.range taken).map edgeId ↔
        start < taken := by
      rw [isId, List.mem_map_of_injective fun _ _ => edgeId_inj,
        List.mem_range]
    by_cases early : start < taken
    · rw [List.filter_cons_of_neg (by simpa using taken_iff.mpr early),
        inductionHypothesis (start + 1) others,
        show taken - start = taken - (start + 1) + 1 by omega,
        List.drop_succ_cons]
    · have none : taken - start = 0 := by omega
      have noMore : taken - (start + 1) = 0 := by omega
      rw [List.filter_cons_of_pos (by simpa [taken_iff] using early),
        inductionHypothesis (start + 1) others, none, noMore, List.drop_zero,
        List.drop_zero]

/-- The merge loses as many edges of the second graph as the first has. -/
theorem merged_edges (a b : Draft) :
    (a.edges ++ b.edges).foldl keepEdge [] =
      a.edges ++ b.edges.drop a.edges.length := by
  have counts (draft : Draft) : draft.edges.length = draft.ei := by
    have lengths := congrArg List.length draft.numbered
    rwa [List.length_map, List.length_map, List.length_range] at lengths
  have first : a.edges.foldl keepEdge [] = a.edges := by
    rw [foldl_keepEdge _ _ a.nodup_ids, List.nil_append]
    exact List.filter_eq_self.mpr fun _ _ => rfl
  have numbered : b.edges.map (·.id) =
      (List.range' 0 b.edges.length).map edgeId := by
    rw [b.numbered, counts b, List.range_eq_range']
  rw [List.foldl_append, first, foldl_keepEdge _ _ b.nodup_ids, a.numbered,
    filter_numbered b.edges a.ei 0 numbered, counts a, Nat.sub_zero]

/-! ## What a merge keeps -/

theorem ids_of_keyed (map : OrderedMap String GraphNode)
    (keyed : ∀ id node, map.get? id = some node → node.id = id) :
    map.values.map (·.id) = map.keys := by
  rw [OrderedMap.values, OrderedMap.keys, List.map_map]
  refine List.map_congr_left fun entry member => ?_
  exact keyed entry.1 entry.2 ((OrderedMap.mem_entries_iff _ _ _).mp member)

theorem Draft.has_graph (draft : Draft) (id : String) :
    draft.graph.Has id ↔ draft.Has id := by
  rw [ProductGraph.Has, Draft.graph, ids_of_keyed _ draft.keyed]
  rfl

theorem mergeNodes_keyed (a b : ProductGraph) (id : String)
    (node : GraphNode) (found : (mergeNodes a b).get? id = some node) :
    node.id = id := by
  rw [mergeNodes, OrderedMap.get?_setAllNew, Option.or_eq_some_iff] at found
  rcases found with isFirst | ⟨_, isSecond⟩
  · rcases List.mem_map.mp (OrderedMap.mem_of_get?_ofList isFirst) with
      ⟨other, _, same⟩
    cases same
    rfl
  · rcases Option.map_eq_some_iff.mp isSecond with ⟨entry, located, rfl⟩
    have isId := List.find?_some located
    rw [decide_eq_true_eq] at isId
    rcases List.mem_map.mp (List.mem_of_find?_eq_some located) with
      ⟨other, _, rfl⟩
    exact isId

theorem has_merge (a b : ProductGraph) (id : String) :
    (mergeGraphs a b).Has id ↔ a.Has id ∨ b.Has id := by
  have firsts (graph : ProductGraph) :
      (graph.nodes.map fun n => (n.id, n)).map Prod.fst =
        graph.nodes.map (·.id) := by
    rw [List.map_map]
    rfl
  rw [ProductGraph.Has, mergeGraphs, ids_of_keyed _ (mergeNodes_keyed a b),
    mergeNodes, OrderedMap.mem_keys_setAllNew, OrderedMap.mem_keys_ofList,
    firsts, firsts]
  rfl

theorem mem_bridge {a b : ProductGraph} {e : GraphEdge}
    (member : e ∈ bridge a b) :
    e.kind = .sameChange ∧ a.Has e.source ∧ b.Has e.target ∧
      e.id.toList.head? = some 'b' := by
  rw [bridge] at member
  split at member
  · cases member
  · next aChange isFirst =>
      split at member
      · cases member
      · next bChange isSecond =>
          split at member
          · rw [List.mem_singleton.mp member]
            refine ⟨rfl,
              List.mem_map_of_mem (List.mem_of_find?_eq_some isFirst),
              List.mem_map_of_mem (List.mem_of_find?_eq_some isSecond), ?_⟩
            dsimp only
            rw [String.toList_append, String.toList_append,
              String.toList_append]
            rfl
          · cases member

theorem length_bridge_le (a b : ProductGraph) :
    (bridge a b).length ≤ 1 := by
  rw [bridge]
  split
  · exact Nat.zero_le 1
  · split
    · exact Nat.zero_le 1
    · split
      · exact Nat.le_refl 1
      · exact Nat.zero_le 1

/-! ## Where nothing is lost -/

def mergedGraph (entries : List DiffEntry) (input : BuildImpactGraphInput) :
    ProductGraph :=
  mergeGraphs (buildApiChangeGraph entries) (buildImpactGraph input)

/-- The merged graph has what both have, and leads to all findings. -/
structure LosesNothing (entries : List DiffEntry)
    (input : BuildImpactGraphInput) : Prop where
  nodes : ∀ id, (buildApiChangeGraph entries).Has id ∨
    (buildImpactGraph input).Has id → (mergedGraph entries input).Has id
  links : ∀ link, link ∈ (buildApiChangeGraph entries).links ∨
    link ∈ (buildImpactGraph input).links →
      link ∈ (mergedGraph entries input).links
  apart : ((mergedGraph entries input).edges.map (·.id)).Nodup
  ends : ∀ e ∈ (mergedGraph entries input).edges,
    (mergedGraph entries input).Has e.source ∧
      (mergedGraph entries input).Has e.target
  reached : ∀ f ∈ input.findings,
    (mergedGraph entries input).Reaches input.changeNid (findingNid f) ∧
      (mergedGraph entries input).Reaches input.changeNid (fileNid f)

/-- There is nothing which the change affects. -/
def Bare (input : BuildImpactGraphInput) : Prop :=
  given input.consumerId = none ∧ input.surfaces = [] ∧ input.findings = []

/-- No two surfaces and no two findings have one identifier. -/
def Apart (input : BuildImpactGraphInput) : Prop :=
  ((surfaceList input).map Prod.snd).Nodup ∧
    (input.findings.map (·.id)).Nodup

/-- The edges of the second graph whose identifiers the first one uses, too,
have equal ones among those which it does not. -/
def DrawnAgain (a b : ProductGraph) : Prop :=
  ∀ link ∈ b.links.take a.links.length, link ∈ b.links.drop a.links.length

variable {entries : List DiffEntry}

theorem mergedGraph_edges (entries : List DiffEntry)
    (input : BuildImpactGraphInput) :
    (mergedGraph entries input).edges =
      (buildApiChangeGraph entries).edges ++
        (buildImpactGraph input).edges.drop
          (buildApiChangeGraph entries).edges.length ++
        bridge (buildApiChangeGraph entries) (buildImpactGraph input) := by
  rw [mergedGraph, mergeGraphs]
  exact congrArg (· ++ _) (merged_edges _ _)

theorem mergedGraph_links (entries : List DiffEntry)
    (input : BuildImpactGraphInput) :
    (mergedGraph entries input).links =
      (buildApiChangeGraph entries).links ++
        (buildImpactGraph input).links.drop
          (buildApiChangeGraph entries).links.length ++
        (bridge (buildApiChangeGraph entries)
          (buildImpactGraph input)).map GraphEdge.link := by
  rw [ProductGraph.links, mergedGraph_edges, List.map_append,
    List.map_append, List.map_drop, ProductGraph.links, List.length_map]
  rfl

theorem apiLinks_ofDiff (entries : List DiffEntry) :
    ∀ link ∈ (buildApiChangeGraph entries).links,
      link.kind.ofDiff = true := by
  rcases apiDraft_extends entries none with ⟨links, extended, drawn, _⟩
  have isLinks : (buildApiChangeGraph entries).links = links :=
    extended.links_eq
  rw [isLinks]
  exact drawn

theorem apiLinks_nil_iff (entries : List DiffEntry) :
    (buildApiChangeGraph entries).links = [] ↔ entries = [] := by
  rcases apiDraft_extends entries none with ⟨links, extended, _, none_iff⟩
  have isLinks : (buildApiChangeGraph entries).links = links :=
    extended.links_eq
  rw [isLinks]
  exact none_iff

/-- A link of what a change affects is kept as one of its own graph. -/
theorem mem_mergedLinks_iff {link : Link}
    (ofImpact : link.kind.ofImpact = true) :
    link ∈ (mergedGraph entries input).links ↔
      link ∈ (buildImpactGraph input).links.drop
        (buildApiChangeGraph entries).links.length := by
  rw [mergedGraph_links, List.mem_append, List.mem_append]
  constructor
  · rintro ((ofApi | kept) | bridged)
    · have ofDiff := apiLinks_ofDiff entries link ofApi
      rw [EdgeKind.ofImpact_of_ofDiff ofDiff] at ofImpact
      cases ofImpact
    · exact kept
    · rcases List.mem_map.mp bridged with ⟨e, member, rfl⟩
      have isKind : e.link.kind = .sameChange := (mem_bridge member).1
      rw [isKind] at ofImpact
      cases ofImpact
  · exact fun kept => Or.inl (Or.inr kept)

theorem linksKept_iff : (∀ link ∈ (buildImpactGraph input).links,
      link ∈ (mergedGraph entries input).links) ↔
    DrawnAgain (buildApiChangeGraph entries) (buildImpactGraph input) := by
  constructor
  · intro kept link taken
    have member := List.mem_of_mem_take taken
    exact (mem_mergedLinks_iff (impactLinks_ofImpact input link member)).mp
      (kept link member)
  · intro again link member
    refine (mem_mergedLinks_iff
      (impactLinks_ofImpact input link member)).mpr ?_
    have parts := member
    rw [← List.take_append_drop (buildApiChangeGraph entries).links.length
      (buildImpactGraph input).links, List.mem_append] at parts
    rcases parts with taken | kept
    · exact again link taken
    · exact kept

theorem mainLinks_nil_iff (input : BuildImpactGraphInput) :
    mainLinks input = [] ↔ Bare input := by
  rw [mainLinks, List.append_eq_nil_iff, List.append_eq_nil_iff,
    List.map_eq_nil_iff, List.map_eq_nil_iff, surfaceList,
    List.map_eq_nil_iff, List.zipIdx_eq_nil_iff, consumerLinks,
    Option.toList_eq_nil_iff, Option.map_eq_none_iff, and_assoc]
  rfl

theorem mainLinks_nodup (apart : Apart input) : (mainLinks input).Nodup := by
  have consumer : (consumerLinks input).Nodup := by
    rw [consumerLinks]
    cases given input.consumerId with
    | none => exact List.nodup_nil
    | some consumerId => exact List.nodup_singleton _
  have ofConsumer : ∀ link ∈ consumerLinks input,
      link.kind = .affectsConsumer := by
    rw [consumerLinks]
    cases given input.consumerId with
    | none => exact List.forall_mem_nil _
    | some consumerId => exact List.forall_mem_singleton.mpr rfl
  have surfaces : ((surfaceList input).map fun entry =>
      surfaceLink input entry.2).Nodup := by
    have mapped := apart.1.map (f := surfaceLink input)
      fun _ _ same => congrArg Link.target same
    rwa [List.map_map] at mapped
  have findings : (input.findings.map (impactLink input)).Nodup := by
    refine List.Nodup.of_map (fun link => link.target) ?_
    have mapped := apart.2.map (f := fun id => "finding:" ++ id)
      fun _ _ same => by
        have texts := congrArg String.toList same
        rw [String.toList_append, String.toList_append] at texts
        exact String.toList_inj.mp (List.append_cancel_left texts)
    rw [List.map_map] at mapped ⊢
    exact mapped
  refine List.nodup_append.mpr ⟨List.nodup_append.mpr
    ⟨consumer, surfaces, ?_⟩, findings, ?_⟩
  · rintro link isConsumer _ isSurface rfl
    rcases List.mem_map.mp isSurface with ⟨entry, _, rfl⟩
    cases ofConsumer _ isConsumer
  · rintro link isFormer _ isFinding rfl
    rcases List.mem_map.mp isFinding with ⟨f, _, rfl⟩
    rcases List.mem_append.mp isFormer with isConsumer | isSurface
    · cases ofConsumer _ isConsumer
    · rcases List.mem_map.mp isSurface with ⟨entry, _, same⟩
      cases congrArg Link.kind same

/-- The first edge is lost, and there is none like it. -/
theorem not_drawnAgain (apart : Apart input) (some : entries ≠ [])
    (drawn : ¬ Bare input) :
    ¬ DrawnAgain (buildApiChangeGraph entries) (buildImpactGraph input) := by
  intro again
  have filtered := filter_impactLinks input
  have heads := head_impactLinks input
  have nodup := mainLinks_nodup apart
  rcases isMain : mainLinks input with _ | ⟨first, rest⟩
  · exact drawn ((mainLinks_nil_iff input).mp isMain)
  · rw [isMain] at filtered heads nodup
    rcases List.head?_eq_some_iff.mp heads with ⟨tail, isLinks⟩
    have isFirst : first.kind.isMain = true := by
      have member : first ∈ (impactDraft input).links.filter
          fun link => link.kind.isMain := by
        rw [filtered]
        exact List.mem_cons_self ..
      exact (List.mem_filter.mp member).2
    have isImpact : (buildImpactGraph input).links = first :: tail := isLinks
    rcases isApi : (buildApiChangeGraph entries).links with _ | ⟨_, others⟩
    · exact some ((apiLinks_nil_iff entries).mp isApi)
    · rw [DrawnAgain, isApi, isImpact, List.length_cons,
        List.take_succ_cons, List.drop_succ_cons] at again
      have later := List.mem_of_mem_drop
        (again first (List.mem_cons_self ..))
      rw [isLinks, List.filter_cons, if_pos isFirst] at filtered
      rw [← filtered] at nodup
      exact (List.nodup_cons.mp nodup).1
        (List.mem_filter.mpr ⟨later, isFirst⟩)

theorem drawnAgain_iff :
    DrawnAgain (buildApiChangeGraph entries) (buildImpactGraph input) ↔
      entries = [] ∨ Bare input ∨ (¬ Apart input ∧
        DrawnAgain (buildApiChangeGraph entries)
          (buildImpactGraph input)) := by
  constructor
  · intro again
    by_cases none : entries = []
    · exact Or.inl none
    · by_cases bare : Bare input
      · exact Or.inr (Or.inl bare)
      · exact Or.inr (Or.inr
          ⟨fun apart => not_drawnAgain apart none bare again, again⟩)
  · rintro (none | bare | ⟨_, again⟩)
    · rw [DrawnAgain, (apiLinks_nil_iff entries).mpr none]
      exact List.forall_mem_nil _
    · have heads := head_impactLinks input
      rw [(mainLinks_nil_iff input).mpr bare] at heads
      have empty : (buildImpactGraph input).links = [] :=
        List.head?_eq_none_iff.mp heads
      rw [DrawnAgain, empty, List.take_nil]
      exact List.forall_mem_nil _
    · exact again

/-! ## The merged graph -/

theorem nodup_keepEdge (edges : List GraphEdge) {kept : List GraphEdge}
    (nodup : (kept.map (·.id)).Nodup) :
    ((edges.foldl keepEdge kept).map (·.id)).Nodup := by
  induction edges generalizing kept with
  | nil => exact nodup
  | cons e rest inductionHypothesis =>
    refine inductionHypothesis ?_
    rw [keepEdge]
    split
    · exact nodup
    · next unseen =>
        rw [List.map_append]
        refine List.nodup_append.mpr ⟨nodup, List.nodup_singleton _, ?_⟩
        rintro id seen _ last rfl
        rw [List.mem_singleton.mp last] at seen
        exact unseen seen

theorem head_numbered {draft : Draft} {e : GraphEdge}
    (member : e ∈ draft.edges) : e.id.toList.head? = some 'e' := by
  have isId : e.id ∈ draft.edges.map (·.id) := List.mem_map_of_mem member
  rw [draft.numbered] at isId
  rcases List.mem_map.mp isId with ⟨index, _, same⟩
  rw [← same, edgeId, String.toList_append]
  rfl

theorem mergedGraph_nodup (entries : List DiffEntry)
    (input : BuildImpactGraphInput) :
    ((mergedGraph entries input).edges.map (·.id)).Nodup := by
  rw [mergedGraph, mergeGraphs, List.map_append]
  refine List.nodup_append.mpr
    ⟨nodup_keepEdge _ List.nodup_nil, ?_, ?_⟩
  · rcases isBridge : bridge (buildApiChangeGraph entries)
      (buildImpactGraph input) with _ | ⟨e, rest⟩
    · exact List.nodup_nil
    · have one := length_bridge_le (buildApiChangeGraph entries)
        (buildImpactGraph input)
      rw [isBridge, List.length_cons] at one
      rw [List.length_eq_zero_iff.mp (by omega : rest.length = 0)]
      exact List.nodup_singleton _
  · rintro _ isNumbered _ isBridge rfl
    rcases List.mem_map.mp isNumbered with ⟨e, member, isId⟩
    rcases List.mem_map.mp isBridge with ⟨other, bridged, same⟩
    have isB := (mem_bridge bridged).2.2.2
    rw [same, ← isId] at isB
    have edges := merged_edges (apiDraft entries none) (impactDraft input)
    have isE : e.id.toList.head? = some 'e' := by
      have either : e ∈ (apiDraft entries none).edges ++
          (impactDraft input).edges.drop
            (apiDraft entries none).edges.length := edges ▸ member
      rcases List.mem_append.mp either with first | second
      · exact head_numbered first
      · exact head_numbered (List.mem_of_mem_drop second)
    rw [isE] at isB
    cases isB

/-- An edge of either graph joins nodes which it has. -/
theorem ends_of_extends {draft : Draft}
    (extended : Extends Draft.start draft links) {e : GraphEdge}
    (member : e ∈ draft.edges) :
    draft.graph.Has e.source ∧ draft.graph.Has e.target := by
  rw [Draft.has_graph, Draft.has_graph]
  refine extended.ends e.link ?_
  rw [← List.nil_append links]
  have isLink : e.link ∈ draft.links := List.mem_map_of_mem member
  rwa [extended.links_eq] at isLink

theorem mergedGraph_ends {e : GraphEdge}
    (member : e ∈ (mergedGraph entries input).edges) :
    (mergedGraph entries input).Has e.source ∧
      (mergedGraph entries input).Has e.target := by
  rw [mergedGraph_edges, List.mem_append, List.mem_append] at member
  rw [mergedGraph, has_merge, has_merge]
  rcases member with (ofApi | kept) | bridged
  · rcases apiDraft_extends entries none with ⟨links, extended, _, _⟩
    rcases ends_of_extends extended ofApi with ⟨source, target⟩
    exact ⟨Or.inl source, Or.inl target⟩
  · rcases impactDraft_extends input with ⟨parts, extended, _⟩
    rcases ends_of_extends extended (List.mem_of_mem_drop kept) with
      ⟨source, target⟩
    exact ⟨Or.inr source, Or.inr target⟩
  · rcases mem_bridge bridged with ⟨_, source, target, _⟩
    exact ⟨Or.inl source, Or.inr target⟩

theorem reaches_of_link {graph : ProductGraph} {link : Link}
    (member : link ∈ graph.links) :
    graph.Reaches link.source link.target := by
  rcases List.mem_map.mp member with ⟨e, isEdge, rfl⟩
  exact .single ⟨e, isEdge, rfl, rfl⟩

theorem mainLink_mem {link : Link} (member : link ∈ mainLinks input) :
    link ∈ (buildImpactGraph input).links := by
  rw [← filter_impactLinks] at member
  exact List.mem_of_mem_filter member

/-- From the change to a surface or not, to the finding and to its file. -/
theorem reaches_finding {graph : ProductGraph} {f : FindingLike}
    (kept : ∀ link ∈ (buildImpactGraph input).links, link ∈ graph.links)
    (member : f ∈ input.findings) :
    graph.Reaches input.changeNid (findingNid f) ∧
      graph.Reaches input.changeNid (fileNid f) := by
  have toSource : graph.Reaches input.changeNid (impactSource input f) := by
    rcases impactSource_cases input f with same | isSurface
    · rw [same]
      exact .refl
    · rcases List.mem_map.mp isSurface with ⟨entry, isEntry, same⟩
      rw [← same]
      exact reaches_of_link (kept (surfaceLink input entry.2) (mainLink_mem
        (List.mem_append_left _ (List.mem_append_right _
          (List.mem_map_of_mem isEntry)))))
  have toFinding := toSource.trans (reaches_of_link (kept
    (impactLink input f) (mainLink_mem
      (List.mem_append_right _ (List.mem_map_of_mem member)))))
  exact ⟨toFinding, toFinding.trans
    (reaches_of_link (kept (fileLink f) (fileLink_mem member)))⟩

/-- The merge loses nothing exactly where the diff has no entries, or the
change affects nothing, or where identifiers repeat and every lost edge is
drawn once more. -/
theorem losesNothing_iff (entries : List DiffEntry)
    (input : BuildImpactGraphInput) :
    LosesNothing entries input ↔
      entries = [] ∨ Bare input ∨ (¬ Apart input ∧
        DrawnAgain (buildApiChangeGraph entries)
          (buildImpactGraph input)) := by
  rw [← drawnAgain_iff, ← linksKept_iff]
  constructor
  · intro whole link member
    exact whole.links link (Or.inr member)
  · intro kept
    refine ⟨fun id has => ?_, fun link either => ?_, ?_, fun e member => ?_,
      fun f member => ?_⟩
    · exact (has_merge _ _ id).mpr has
    · rcases either with ofApi | ofImpact
      · rw [mergedGraph_links]
        exact List.mem_append_left _ (List.mem_append_left _ ofApi)
      · exact kept link ofImpact
    · exact mergedGraph_nodup entries input
    · exact mergedGraph_ends member
    · exact reaches_finding kept member

/-! ## A renamed field -/

def renamedField : DiffEntry where
  op := .requestFieldRenamed
  path := some "/v1/charges"
  method := some "post"
  fromField := some "amount"
  toField := some "amount_cents"
  breaking := true

def chargeInput : BuildImpactGraphInput where
  changeId := "c1"
  findings :=
    [{ id := "f1"
       filePath := "src/payments.ts"
       lineStart := 8
       symbol := "amount" }]
  surfaces :=
    [{ id := some "s1"
       op := some "request_field_renamed"
       fromField := some "amount"
       toField := some "amount_cents" }]

/-- Four edges of the rename take the identifiers of all three edges to the
surface, the finding and its file. -/
theorem chargeInput_loses :
    ¬ LosesNothing [renamedField] chargeInput := by
  intro whole
  have drawn : surfaceLink chargeInput "surface:s1" ∈
      (buildImpactGraph chargeInput).links := by
    decide
  have lost : surfaceLink chargeInput "surface:s1" ∉
      (mergedGraph [renamedField] chargeInput).links := by
    decide
  exact lost (whole.links _ (Or.inr drawn))

end Mendpoint.ChangeGraph

import Mendpoint.Graph.Query
import Mendpoint.Library.Levels

/-!
# What the breadth-first queries cover

A neighbourhood whose coverage is complete is everything within the bound, and
it is called partial where the bound was lowered or the nodes were too many.  A
path which is returned is a shortest one; without a path, a complete answer
excludes the paths within the bound, and says nothing of longer ones.
-/

namespace Mendpoint.Graph

open Mendpoint.Library
open Mendpoint.Library.Levels
open Mendpoint.Library.PathTree

/-! ## One level of a neighbourhood -/

section Neighbourhoods

variable (now : String) (db : GraphLearnDb)

/-- The edges at a node, each with the node. -/
def edgesAt (id : String) : List (String × GlEdge) :=
  (edgesFrom now db id ++ edgesTo now db id).map (id, ·)

/-- The other end of an edge at a node. -/
def otherEnd (found : String × GlEdge) : String :=
  if found.2.source = found.1 then found.2.target else found.2.source

/-- Two nodes are joined by an edge, followed in one direction or the other. -/
def Touches (id other : String) : Prop :=
  ∃ found ∈ edgesAt now db id, otherEnd found = other

variable {now db}

/-- What following edges adds, and when it has to leave out a node. -/
structure Swept (maxNodes : Nat) (found : List (String × GlEdge))
    (before after : Blast) (added : List String) : Prop where
  seen : after.seen = before.seen ++ added
  next : after.next = before.next ++ added
  ends : ∀ id ∈ added, id ∈ found.map otherEnd
  nodup : before.seen.Nodup → after.seen.Nodup
  room : before.seen.length ≤ maxNodes → after.seen.length ≤ maxNodes
  cut : after.truncated = true → before.truncated = true ∨
    maxNodes ≤ after.seen.length ∧ ∃ id ∈ found.map otherEnd, id ∉ after.seen
  whole : after.truncated = false → before.truncated = false ∧
    ∀ id ∈ found.map otherEnd, id ∈ after.seen

theorem swept_follow (maxNodes : Nat) (blast : Blast)
    (found : String × GlEdge) : ∃ added, Swept maxNodes [found] blast
      (Blast.follow maxNodes found.1 blast found.2) added := by
  have noted : ∀ blast' : Blast, blast'.seen = blast.seen →
      blast'.next = blast.next → blast'.truncated = blast.truncated →
      ∃ added, Swept maxNodes [found] blast
        (if otherEnd found ∈ blast'.seen then blast'
        else if maxNodes ≤ blast'.seen.length then
          { blast' with truncated := true }
        else { blast' with
          seen := blast'.seen ++ [otherEnd found]
          next := blast'.next ++ [otherEnd found] }) added := by
    intro blast' seen next truncated
    by_cases old : otherEnd found ∈ blast'.seen
    · rw [if_pos old]
      refine ⟨[], ⟨by rw [seen, List.append_nil],
        by rw [next, List.append_nil], by simp, by rw [seen]; exact id,
        by rw [seen]; exact id, by rw [truncated]; exact .inl, ?_⟩⟩
      rw [truncated]
      exact fun uncut => ⟨uncut, by simpa using old⟩
    · rw [if_neg old]
      by_cases full : maxNodes ≤ blast'.seen.length
      · rw [if_pos full]
        exact ⟨[], ⟨by rw [List.append_nil]; exact seen,
          by rw [List.append_nil]; exact next, by simp,
          by rw [← seen]; exact id, by rw [← seen]; exact id,
          fun _ => .inr ⟨full, _, List.mem_singleton.mpr rfl, old⟩,
          fun never => Bool.noConfusion never⟩⟩
      · rw [if_neg full]
        refine ⟨[otherEnd found], ⟨by rw [← seen], by rw [← next],
          by simp, ?_, ?_, fun cut => .inl (truncated ▸ cut), ?_⟩⟩
        · rw [← seen]
          exact fun nodup => nodup.append (List.nodup_singleton _)
            (List.disjoint_singleton.mpr old)
        · intro _
          rw [List.length_append]
          exact Nat.not_le.mp full
        · exact fun uncut => ⟨truncated ▸ uncut, by simp⟩
  rw [Blast.follow]
  by_cases known : found.2.id ∈ blast.seenEdges
  · rw [if_pos known]
    exact noted blast rfl rfl rfl
  · rw [if_neg known]
    exact noted _ rfl rfl rfl

theorem Swept.trans {maxNodes : Nat} {first second : List (String × GlEdge)}
    {start middle last : Blast} {added more : List String}
    (one : Swept maxNodes first start middle added)
    (two : Swept maxNodes second middle last more)
    (room : start.seen.length ≤ maxNodes) :
    Swept maxNodes (first ++ second) start last (added ++ more) := by
  have kept : maxNodes ≤ middle.seen.length → last.seen = middle.seen := by
    intro full
    have short := two.room (one.room room)
    rw [two.seen, List.length_append] at short
    rw [two.seen, List.length_eq_zero_iff.mp (by omega : more.length = 0),
      List.append_nil]
  refine ⟨by rw [two.seen, one.seen, List.append_assoc],
    by rw [two.next, one.next, List.append_assoc], ?_,
    fun nodup => two.nodup (one.nodup nodup),
    fun _ => two.room (one.room room), ?_, ?_⟩
  · intro id member
    rw [List.map_append, List.mem_append]
    exact (List.mem_append.mp member).imp (one.ends id) (two.ends id)
  · intro cut
    rcases two.cut cut with earlier | ⟨full, id, member, out⟩
    · refine (one.cut earlier).imp_right ?_
      rintro ⟨full, id, member, out⟩
      rw [kept full]
      exact ⟨full, id, by simp_all, out⟩
    · exact .inr ⟨full, id, by simp_all, out⟩
  · intro uncut
    obtain ⟨before, late⟩ := two.whole uncut
    refine ⟨(one.whole before).1, fun id member => ?_⟩
    rw [List.map_append, List.mem_append] at member
    rcases member with early | later
    · rw [two.seen]
      exact List.mem_append_left _ ((one.whole before).2 id early)
    · exact late id later

theorem swept_foldl (maxNodes : Nat) (found : List (String × GlEdge))
    {blast : Blast} (room : blast.seen.length ≤ maxNodes) :
    ∃ added, Swept maxNodes found blast (found.foldl
      (fun blast one => Blast.follow maxNodes one.1 blast one.2) blast)
      added := by
  induction found generalizing blast with
  | nil =>
    exact ⟨[], ⟨(List.append_nil _).symm, (List.append_nil _).symm,
      fun _ never => absurd never List.not_mem_nil, id, id, .inl,
      fun uncut => ⟨uncut, fun _ never => absurd never List.not_mem_nil⟩⟩⟩
  | cons one rest inductionHypothesis =>
    obtain ⟨added, first⟩ := swept_follow maxNodes blast one
    obtain ⟨more, others⟩ := inductionHypothesis (first.room room)
    exact ⟨added ++ more, first.trans others room⟩

/-! ## The run of a neighbourhood -/

/-- Too many nodes are within a bound. -/
def Crowded (now : String) (db : GraphLearnDb) (seed : String)
    (hops maxNodes : Nat) : Prop :=
  ∃ ids : List String, ids.Nodup ∧ maxNodes < ids.length ∧
    ∀ id ∈ ids, Within (Touches now db) seed hops id

/-- What is known of a search before a level. -/
structure Reached (now : String) (db : GraphLearnDb) (seed : String)
    (maxNodes hops : Nat) (frontier : List String) (blast : Blast) :
    Prop where
  nodup : blast.seen.Nodup
  room : blast.seen.length ≤ maxNodes
  within : ∀ id ∈ blast.seen, Within (Touches now db) seed hops id
  inside : frontier ⊆ blast.seen
  cut : blast.truncated = true → Crowded now db seed hops maxNodes
  whole : blast.truncated = false →
    Level (Touches now db) seed hops blast.seen frontier

variable {seed : String} {maxNodes : Nat}

theorem Crowded.mono {hops more : Nat} (le : hops ≤ more)
    (crowded : Crowded now db seed hops maxNodes) :
    Crowded now db seed more maxNodes :=
  crowded.imp fun _ many =>
    ⟨many.1, many.2.1, fun id member => (many.2.2 id member).mono le⟩

theorem Reached.level {hops : Nat} {frontier : List String}
    {blast after : Blast}
    (reached : Reached now db seed maxNodes hops frontier blast)
    (run : after = frontier.foldl
      (fun blast id =>
        (edgesFrom now db id ++ edgesTo now db id).foldl
          (Blast.follow maxNodes id) blast)
      { blast with next := [] }) :
    Reached now db seed maxNodes (hops + 1) after.next after := by
  have flat : after = (frontier.flatMap (edgesAt now db)).foldl
      (fun blast one => Blast.follow maxNodes one.1 blast one.2)
      { blast with next := [] } := by
    rw [run, List.foldl_flatMap]
    simp only [edgesAt, List.foldl_map]
  obtain ⟨added, swept⟩ := swept_foldl maxNodes
    (frontier.flatMap (edgesAt now db))
    (show ({ blast with next := [] } : Blast).seen.length ≤ maxNodes from
      reached.room)
  rw [← flat] at swept
  have next : after.next = added := swept.next
  have seen : after.seen = blast.seen ++ added := swept.seen
  have near : ∀ id ∈ (frontier.flatMap (edgesAt now db)).map otherEnd,
      ∃ one ∈ frontier, Touches now db one id := by
    intro id member
    obtain ⟨found, listed, rfl⟩ := List.mem_map.mp member
    obtain ⟨one, inside, follows⟩ := List.mem_flatMap.mp listed
    exact ⟨one, inside, found, follows, rfl⟩
  have nearWithin : ∀ id ∈
      (frontier.flatMap (edgesAt now db)).map otherEnd,
      Within (Touches now db) seed (hops + 1) id := by
    intro id member
    obtain ⟨one, inside, touches⟩ := near id member
    exact .inr ⟨one, reached.within one (reached.inside inside), touches⟩
  have within : ∀ id ∈ after.seen,
      Within (Touches now db) seed (hops + 1) id := by
    intro id member
    rw [seen, List.mem_append] at member
    exact member.elim (fun old => .inl (reached.within id old))
      fun new => nearWithin id (swept.ends id new)
  refine ⟨swept.nodup reached.nodup, swept.room reached.room, within, ?_,
    ?_, ?_⟩
  · rw [next, seen]
    exact List.subset_append_right _ _
  · intro cut
    rcases swept.cut cut with earlier | ⟨full, id, member, out⟩
    · exact (reached.cut earlier).mono (Nat.le_succ hops)
    · refine ⟨after.seen ++ [id], (swept.nodup reached.nodup).append
        (List.nodup_singleton _) (List.disjoint_singleton.mpr out), ?_, ?_⟩
      · rw [List.length_append]
        exact Nat.lt_succ_of_le full
      · intro other inside
        rcases List.mem_append.mp inside with old | new
        · exact within other old
        · rw [List.mem_singleton.mp new]
          exact nearWithin id member
  · intro uncut
    obtain ⟨before, all⟩ := swept.whole uncut
    refine (reached.whole before).next ?_ ?_ ?_
    · intro id
      rw [seen, next, List.mem_append]
    · rw [next]
      exact fun id member => near id (swept.ends id member)
    · rintro one inside _ ⟨found, follows, rfl⟩
      exact all _ (List.mem_map_of_mem
        (List.mem_flatMap.mpr ⟨one, inside, follows⟩))

theorem Reached.mono {hops more : Nat} {blast : Blast} (le : hops ≤ more)
    (reached : Reached now db seed maxNodes hops [] blast) :
    Reached now db seed maxNodes more [] blast where
  nodup := reached.nodup
  room := reached.room
  within := fun id member => (reached.within id member).mono le
  inside := reached.inside
  cut := fun cut => (reached.cut cut).mono le
  whole := fun uncut => (reached.whole uncut).exhausted le

theorem Reached.hops (left : Nat) {hops : Nat} {frontier : List String}
    {blast : Blast}
    (reached : Reached now db seed maxNodes hops frontier blast) :
    ∃ rest, Reached now db seed maxNodes (hops + left) rest
      (Blast.hops now db maxNodes left frontier blast) := by
  induction left generalizing hops frontier blast with
  | zero => exact ⟨frontier, reached⟩
  | succ left inductionHypothesis =>
    obtain ⟨after, run⟩ : ∃ after, after = frontier.foldl
        (fun blast id =>
          (edgesFrom now db id ++ edgesTo now db id).foldl
            (Blast.follow maxNodes id) blast)
        { blast with next := [] } := ⟨_, rfl⟩
    have level := reached.level run
    simp only [Blast.hops, ← run, ← Nat.succ_add_eq_add_succ]
    by_cases empty : after.next = []
    · rw [if_pos empty]
      rw [empty] at level
      exact ⟨[], level.mono (Nat.le_add_right _ left)⟩
    · rw [if_neg empty]
      exact inductionHypothesis level

end Neighbourhoods

/-! ## One level of a search for a path -/

section Paths

variable (now : String) (db : GraphLearnDb)

/-- An edge leads from a node to another. -/
abbrev Follows (id other : String) : Prop :=
  ∃ edge ∈ edgesFrom now db id, edge.target = other

/-- So many steps back from a node to where the search began. -/
def Chained (prev : OrderedMap String (Option GlEdge)) (fromId : String) :
    Nat → String → Prop
  | 0, id => id = fromId
  | steps + 1, id => id ≠ fromId ∧ ∃ edge, prev.get? id = some (some edge) ∧
      edge ∈ edgesFrom now db edge.source ∧ edge.target = id ∧
      Chained prev fromId steps edge.source

variable {now db} {fromId toId : String}

/-- What following edges adds to a search, until the end is found. -/
structure Scanned (toId : String) (edges : List GlEdge)
    (before after : PathSearch) : Prop where
  kept : ∀ id ∈ before.prev.keys, after.prev.get? id = before.prev.get? id
  new : ∀ id ∈ after.prev.keys, id ∉ before.prev.keys →
    (id ∈ after.next ∨ after.found = true) ∧
      ∃ edge ∈ edges, edge.target = id ∧
        after.prev.get? id = some (some edge)
  next : ∀ id ∈ after.next, id ∈ after.prev.keys ∧ id ∉ before.prev.keys
  found : after.found = true → toId ∈ after.prev.keys
  missed : after.found = false → toId ∉ after.prev.keys ∧
    ∀ edge ∈ edges, edge.target ∈ after.prev.keys

variable {before : PathSearch} {steps : Nat} {id : String}

theorem Scanned.follow {edges : List GlEdge} {after : PathSearch}
    (scanned : Scanned toId edges before after) (edge : GlEdge) :
    Scanned toId (edges ++ [edge]) before (after.follow toId edge) := by
  have longer : ∀ {id : String}, (∃ one ∈ edges, one.target = id ∧
      after.prev.get? id = some (some one)) →
      ∃ one ∈ edges ++ [edge], one.target = id ∧
        after.prev.get? id = some (some one) :=
    fun ⟨one, member, rest⟩ => ⟨one, List.mem_append_left _ member, rest⟩
  rw [PathSearch.follow]
  by_cases idle : (after.found || after.prev.has edge.target) = true
  · rw [if_pos idle]
    refine ⟨scanned.kept, fun id member old => ?_, scanned.next,
      scanned.found, fun missed => ⟨(scanned.missed missed).1, ?_⟩⟩
    · exact (scanned.new id member old).imp_right longer
    · rw [missed, Bool.false_or, OrderedMap.has_iff] at idle
      exact List.forall_mem_append.mpr ⟨(scanned.missed missed).2,
        List.forall_mem_singleton.mpr idle⟩
  · rw [if_neg idle]
    rw [Bool.or_eq_true, not_or, OrderedMap.has_iff] at idle
    obtain ⟨missed, fresh⟩ := idle
    rw [Bool.not_eq_true] at missed
    have apart : ∀ id ∈ after.prev.keys, edge.target ≠ id :=
      fun id member same => fresh (same ▸ member)
    have old : ∀ id ∈ before.prev.keys, id ∈ after.prev.keys := by
      intro id member
      obtain ⟨value, stored⟩ := (OrderedMap.mem_keys_iff _ _).mp member
      exact (OrderedMap.mem_keys_iff _ _).mpr
        ⟨value, (scanned.kept id member).trans stored⟩
    have kept : ∀ id ∈ before.prev.keys,
        (after.prev.set edge.target (some edge)).get? id =
          before.prev.get? id := fun id member => by
      rw [OrderedMap.get?_set_of_ne _ _ (apart id (old id member))]
      exact scanned.kept id member
    have new : ∀ id ∈ (after.prev.set edge.target (some edge)).keys,
        id ∉ before.prev.keys →
        (id ∈ after.next ∨ id = edge.target) ∧
          ∃ one ∈ edges ++ [edge], one.target = id ∧
            (after.prev.set edge.target (some edge)).get? id =
              some (some one) := by
      intro id member outside
      rcases (OrderedMap.mem_keys_set _ _ _ _).mp member with rfl | earlier
      · exact ⟨.inr rfl, edge, by simp, rfl, OrderedMap.get?_set_self _ _ _⟩
      · obtain ⟨listed, one, inside, target, stored⟩ :=
          scanned.new id earlier outside
        refine ⟨.inl (listed.resolve_right (by simp [missed])), one,
          List.mem_append_left _ inside, target, ?_⟩
        rw [OrderedMap.get?_set_of_ne _ _ (apart id earlier)]
        exact stored
    have keys : ∀ id, id ∈ (after.prev.set edge.target (some edge)).keys ↔
        id = edge.target ∨ id ∈ after.prev.keys :=
      fun id => OrderedMap.mem_keys_set _ _ _ _
    by_cases last : edge.target = toId
    · simp only [if_pos last]
      refine ⟨kept, fun id member outside =>
          ⟨.inr rfl, (new id member outside).2⟩,
        fun id member => ⟨(keys id).mpr (.inr (scanned.next id member).1),
          (scanned.next id member).2⟩,
        fun _ => (keys toId).mpr (.inl last.symm),
        fun never => Bool.noConfusion never⟩
    · simp only [if_neg last]
      refine ⟨kept, fun id member outside => ?_, fun id member => ?_,
        fun found => absurd found (by simp [missed]),
        fun _ => ⟨fun member => ?_, ?_⟩⟩
      · obtain ⟨listed, stored⟩ := new id member outside
        exact ⟨.inl (List.mem_append.mpr
          (listed.imp_right List.mem_singleton.mpr)), stored⟩
      · rcases List.mem_append.mp member with earlier | late
        · exact ⟨(keys id).mpr (.inr (scanned.next id earlier).1),
            (scanned.next id earlier).2⟩
        · rw [List.mem_singleton.mp late]
          exact ⟨(keys _).mpr (.inl rfl), fun member => fresh (old _ member)⟩
      · rcases (keys toId).mp member with same | earlier
        · exact last same.symm
        · exact (scanned.missed missed).1 earlier
      · rw [List.forall_mem_append, List.forall_mem_singleton]
        exact ⟨fun one member =>
          (keys _).mpr (.inr ((scanned.missed missed).2 one member)),
          (keys _).mpr (.inl rfl)⟩

theorem scanned_foldl (edges : List GlEdge) (missed : before.found = false)
    (unseen : toId ∉ before.prev.keys) (next : before.next = []) :
    Scanned toId edges before (edges.foldl (PathSearch.follow toId) before) := by
  induction edges using List.reverseRecOn with
  | nil =>
    exact ⟨fun _ _ => rfl, fun _ member outside => absurd member outside,
      fun _ never => absurd never (by simp [next]),
      fun found => absurd found (by simp [missed]),
      fun _ => ⟨unseen, fun _ never => absurd never List.not_mem_nil⟩⟩
  | append_singleton edges edge inductionHypothesis =>
    rw [List.foldl_append]
    exact inductionHypothesis.follow edge

/-! ## The run of a search for a path -/

/-- What is known of a search before a level, while the end is not found. -/
structure Explored (now : String) (db : GraphLearnDb) (fromId toId : String)
    (hops : Nat) (frontier : List String) (search : PathSearch) : Prop where
  missed : search.found = false
  unseen : toId ∉ search.prev.keys
  start : search.prev.get? fromId = some none
  level : Level (Follows now db) fromId hops search.prev.keys frontier
  chained : ∀ id ∈ frontier, Chained now db search.prev fromId hops id
  deep : frontier ≠ [] → hops < search.prev.size

/-- A search which has found the end, so many levels after its beginning. -/
structure Discovered (now : String) (db : GraphLearnDb)
    (fromId toId : String) (hops : Nat) (search : PathSearch) : Prop where
  found : search.found = true
  start : search.prev.get? fromId = some none
  chained : Chained now db search.prev fromId (hops + 1) toId
  far : ¬ Within (Follows now db) fromId hops toId
  deep : hops + 1 < search.prev.size

theorem Chained.grow {prev after : OrderedMap String (Option GlEdge)}
    (kept : ∀ id ∈ prev.keys, after.get? id = prev.get? id)
    (chained : Chained now db prev fromId steps id) :
    Chained now db after fromId steps id := by
  induction steps generalizing id with
  | zero => exact chained
  | succ steps inductionHypothesis =>
    obtain ⟨apart, edge, stored, leaves, target, rest⟩ := chained
    refine ⟨apart, edge, ?_, leaves, target, inductionHypothesis rest⟩
    rw [kept id ((OrderedMap.mem_keys_iff _ _).mpr ⟨_, stored⟩)]
    exact stored

theorem Chained.within {prev : OrderedMap String (Option GlEdge)}
    (chained : Chained now db prev fromId steps id) :
    Within (Follows now db) fromId steps id := by
  induction steps generalizing id with
  | zero => exact chained
  | succ steps inductionHypothesis =>
    obtain ⟨_, edge, _, leaves, target, rest⟩ := chained
    exact .inr ⟨edge.source, inductionHypothesis rest, edge, leaves, target⟩

theorem source_of_edgesFrom {edge : GlEdge}
    (member : edge ∈ edgesFrom now db id) : edge.source = id := by
  obtain ⟨row, listed, rfl⟩ := List.mem_map.mp member
  exact of_decide_eq_true
    (Bool.and_eq_true_iff.mp (List.mem_filter.mp listed).2).1

theorem size_lt {after : PathSearch}
    (kept : ∀ id ∈ before.prev.keys, after.prev.get? id = before.prev.get?
      id) (member : id ∈ after.prev.keys) (outside : id ∉ before.prev.keys) :
    before.prev.size < after.prev.size := by
  have inside : id :: before.prev.keys ⊆ after.prev.keys := by
    refine List.cons_subset.mpr ⟨member, fun other old => ?_⟩
    obtain ⟨value, stored⟩ := (OrderedMap.mem_keys_iff _ _).mp old
    exact (OrderedMap.mem_keys_iff _ _).mpr
      ⟨value, (kept other old).trans stored⟩
  have most := (List.subperm_of_subset
    (List.nodup_cons.mpr ⟨outside, before.prev.nodup_keys⟩) inside).length_le
  rwa [List.length_cons, OrderedMap.keys, List.length_map, OrderedMap.keys,
    List.length_map] at most

theorem Explored.next {hops : Nat} {frontier : List String}
    {search after : PathSearch}
    (explored : Explored now db fromId toId hops frontier search)
    (run : after = frontier.foldl
      (fun search id =>
        (edgesFrom now db id).foldl (PathSearch.follow toId) search)
      { search with next := [] }) :
    Explored now db fromId toId (hops + 1) after.next after ∨
      Discovered now db fromId toId hops after := by
  have scanned : Scanned toId (frontier.flatMap (edgesFrom now db))
      { search with next := [] } after := by
    rw [run, ← List.foldl_flatMap]
    exact scanned_foldl _ explored.missed explored.unseen rfl
  have fresh : ∀ id ∈ after.prev.keys, id ∉ search.prev.keys →
      Chained now db after.prev fromId (hops + 1) id ∧
        hops + 1 < after.prev.size ∧
        ∃ near ∈ frontier, Follows now db near id := by
    intro id member outside
    obtain ⟨edge, listed, target, stored⟩ :=
      (scanned.new id member outside).2
    obtain ⟨near, inside, leaves⟩ := List.mem_flatMap.mp listed
    have source := source_of_edgesFrom leaves
    refine ⟨⟨?_, edge, stored, source ▸ leaves, target, ?_⟩, ?_,
      near, inside, edge, leaves, target⟩
    · rintro rfl
      exact outside ((OrderedMap.mem_keys_iff _ _).mpr ⟨_, explored.start⟩)
    · rw [source]
      exact (explored.chained near inside).grow scanned.kept
    · exact Nat.lt_of_le_of_lt
        (explored.deep (List.ne_nil_of_mem inside))
        (size_lt scanned.kept member outside)
  have start : after.prev.get? fromId = some none := by
    rw [scanned.kept fromId
      ((OrderedMap.mem_keys_iff _ _).mpr ⟨_, explored.start⟩)]
    exact explored.start
  cases found : after.found with
  | true =>
    obtain ⟨chained, deep, _⟩ :=
      fresh toId (scanned.found found) explored.unseen
    refine .inr ⟨found, start, chained, fun near => ?_, deep⟩
    exact explored.unseen ((explored.level.seen_iff toId).mpr near)
  | false =>
    obtain ⟨unseen, all⟩ := scanned.missed found
    refine .inl ⟨found, unseen, start, explored.level.next ?_ ?_ ?_, ?_, ?_⟩
    · intro id
      constructor
      · intro member
        by_cases old : id ∈ search.prev.keys
        · exact .inl old
        · exact .inr ((scanned.new id member old).1.resolve_right
            (by simp [found]))
      · rintro (old | new)
        · obtain ⟨value, stored⟩ := (OrderedMap.mem_keys_iff _ _).mp old
          exact (OrderedMap.mem_keys_iff _ _).mpr
            ⟨value, (scanned.kept id old).trans stored⟩
        · exact (scanned.next id new).1
    · intro id new
      obtain ⟨member, outside⟩ := scanned.next id new
      exact (fresh id member outside).2.2
    · rintro near inside _ ⟨edge, leaves, rfl⟩
      exact all edge (List.mem_flatMap.mpr ⟨near, inside, leaves⟩)
    · intro id new
      obtain ⟨member, outside⟩ := scanned.next id new
      exact (fresh id member outside).1
    · intro some'
      obtain ⟨id, new⟩ := List.exists_mem_of_ne_nil _ some'
      obtain ⟨member, outside⟩ := scanned.next id new
      exact (fresh id member outside).2.1

theorem Explored.hops (left : Nat) {hops : Nat} {frontier : List String}
    {search : PathSearch}
    (explored : Explored now db fromId toId hops frontier search) :
    (∃ rest, Explored now db fromId toId (hops + left) rest
      (PathSearch.hops now db toId left frontier search)) ∨
    ∃ steps, steps < hops + left ∧ Discovered now db fromId toId steps
      (PathSearch.hops now db toId left frontier search) := by
  induction left generalizing hops frontier search with
  | zero => exact .inl ⟨frontier, explored⟩
  | succ left inductionHypothesis =>
    obtain ⟨after, run⟩ : ∃ after, after = frontier.foldl
        (fun search id =>
          (edgesFrom now db id).foldl (PathSearch.follow toId) search)
        { search with next := [] } := ⟨_, rfl⟩
    simp only [PathSearch.hops, ← run, ← Nat.succ_add_eq_add_succ]
    rcases explored.next run with goesOn | discovered
    · rw [goesOn.missed]
      exact inductionHypothesis goesOn
    · rw [discovered.found]
      exact .inr ⟨hops, by omega, discovered⟩

/-! ## The path which is found -/

theorem trace_eq {search : PathSearch}
    (start : search.prev.get? fromId = some none)
    (named : ∀ id other, Follows now db id other → other ≠ "")
    (fromNamed : fromId ≠ "")
    (chained : Chained now db search.prev fromId steps id) :
    ∃ walk, IsWalk (edgesFrom now db) GlEdge.target fromId walk ∧
      lastNode GlEdge.target fromId walk = id ∧ walk.length = steps ∧
      ∀ left, steps < left → ∀ ids edges,
        search.trace fromId left id (ids, edges) =
          (fromId :: walk.map GlEdge.target ++ ids, walk ++ edges) := by
  induction steps generalizing id with
  | zero =>
    cases chained
    refine ⟨[], trivial, rfl, rfl, fun left enough ids edges => ?_⟩
    obtain ⟨left, rfl⟩ := Nat.exists_eq_succ_of_ne_zero (by omega : left ≠ 0)
    simp [PathSearch.trace, start, fromNamed]
  | succ steps inductionHypothesis =>
    obtain ⟨apart, edge, stored, leaves, rfl, rest⟩ := chained
    obtain ⟨walk, isWalk, last, length, traced⟩ := inductionHypothesis rest
    refine ⟨walk ++ [edge], isWalk_append.mpr ⟨isWalk, ?_, trivial⟩,
      lastNode_append fromId walk [edge], by simp [length],
      fun left enough ids edges => ?_⟩
    · rw [last]
      exact leaves
    · obtain ⟨left, rfl⟩ :=
        Nat.exists_eq_succ_of_ne_zero (by omega : left ≠ 0)
      simp [PathSearch.trace, stored, apart,
        named _ _ ⟨edge, leaves, rfl⟩, traced left (by omega)]

end Paths

/-! ## What the answers promise -/

section Promises

variable (now : String) (db : GraphLearnDb)

/-- What the coverage of a neighbourhood says of its nodes. -/
structure Surrounds (seed : String) (maxHops : Option ℚ)
    (result : GraphQueryResult) : Prop where
  complete : result.coverage.basis = .complete → ∀ node,
    node ∈ result.nodes ↔ ∃ id, getNode db id = some node ∧
      Within (Touches now db) seed (clampBound maxHops 2 hardMaxHops).value id
  cut_iff : result.coverage.basis = .partialCoverage ↔
    (getNode db seed).isSome ∧
      ((∃ asked, maxHops = some asked ∧ hardMaxHops < asked.floor.toNat) ∨
        Crowded now db seed (clampBound maxHops 2 hardMaxHops).value
          hardMaxPaths)

/-- The walks along directed edges from a node to another. -/
def Leads (fromId toId : String) (walk : List GlEdge) : Prop :=
  IsWalk (edgesFrom now db) GlEdge.target fromId walk ∧
    lastNode GlEdge.target fromId walk = toId

/-- A path is a shortest one, and its absence speaks of the bound. -/
structure Routed (fromId toId : String) (maxHops : Option ℚ)
    (result : GraphQueryResult) : Prop where
  shortest : fromId ≠ "" → (∀ row ∈ db.edges, row.target ≠ "") →
    result.rows ≠ none → ∃ walk, Leads now db fromId toId walk ∧
      (∀ other, Leads now db fromId toId other →
        walk.length ≤ other.length) ∧
      result.edges = walk ∧
      result.nodes = collectNodes db (fromId :: walk.map GlEdge.target)
  absent : result.rows = none ↔ ∀ walk, Leads now db fromId toId walk →
    (clampBound maxHops 6 hardMaxHops).value < walk.length
  complete : result.rows = none → (result.coverage.basis = .complete ↔
    (getNode db fromId).isSome ∧ (getNode db toId).isSome ∧
      ∀ asked, maxHops = some asked → asked.floor.toNat ≤ hardMaxHops)

variable {now db}

theorem clamped_iff (value : Option ℚ) (fallback hardMax : Nat) :
    (clampBound value fallback hardMax).clamped = true ↔
      ∃ asked, value = some asked ∧ hardMax < asked.floor.toNat := by
  cases value with
  | none => simp [clampBound]
  | some number => simp [clampBound]

theorem within_iff_leads (fromId toId : String) (hops : Nat) :
    Within (Follows now db) fromId hops toId ↔
      ∃ walk, Leads now db fromId toId walk ∧ walk.length ≤ hops :=
  (within_iff_walk hops toId).trans
    (exists_congr fun _ => and_assoc.symm)

theorem blastRadiusResult_surrounds (seed : String) (maxHops : Option ℚ) :
    Surrounds now db seed maxHops
      (blastRadiusResult now db seed maxHops) := by
  obtain ⟨rest, reached⟩ := Reached.hops
    (clampBound maxHops 2 hardMaxHops).value
    (show Reached now db seed hardMaxPaths 0 [seed]
        { seen := [seed], seenEdges := [], edges := [], next := []
          truncated := false } from
      ⟨List.nodup_singleton seed, by simp [hardMaxPaths],
        fun _ member => List.mem_singleton.mp member, List.Subset.refl _,
        fun never => Bool.noConfusion never, fun _ => Level.initial⟩)
  rw [Nat.zero_add] at reached
  rw [blastRadiusResult, blastRadius]
  generalize Blast.hops now db hardMaxPaths _ _ _ = blast at reached ⊢
  have crowded : blast.truncated = true ↔ Crowded now db seed
      (clampBound maxHops 2 hardMaxHops).value hardMaxPaths := by
    refine ⟨reached.cut, ?_⟩
    rintro ⟨ids, nodup, many, within⟩
    by_contra uncut
    have level := reached.whole (Bool.eq_false_of_not_eq_true uncut)
    have few := (List.subperm_of_subset nodup fun id member =>
      (level.seen_iff id).mpr (within id member)).length_le
    exact absurd (few.trans reached.room) (Nat.not_le.mpr many)
  constructor
  · intro complete node
    have uncut : blast.truncated = false := by
      cases cut : blast.truncated with
      | false => rfl
      | true =>
        rw [cut, Bool.or_true] at complete
        split at complete <;> cases complete
    rw [collectNodes, List.mem_filterMap]
    exact exists_congr fun id => by
      rw [(reached.whole uncut).seen_iff, and_comm]
  · rw [← clamped_iff _ 2, ← crowded, ← Bool.or_eq_true]
    cases (getNode db seed).isSome <;>
      cases (clampBound maxHops 2 hardMaxHops).clamped ||
        blast.truncated <;> simp

theorem pathResult_routed {fromId toId : String} (apart : fromId ≠ toId)
    (maxHops : Option ℚ) : Routed now db fromId toId maxHops
      (pathResult now db fromId toId maxHops) := by
  have run := Explored.hops (clampBound maxHops 6 hardMaxHops).value
    (show Explored now db fromId toId 0 [fromId]
        { prev := OrderedMap.empty.set fromId none, next := []
          found := false } from
      ⟨rfl, by simpa using apart.symm, OrderedMap.get?_set_self _ _ _,
        by simpa [OrderedMap.keys_set] using Level.initial,
        fun _ member => List.mem_singleton.mp member, fun _ => Nat.one_pos⟩)
  rw [Nat.zero_add] at run
  rw [pathResult]
  generalize PathSearch.hops now db toId _ _ _ = search at run ⊢
  rcases run with ⟨rest, explored⟩ | ⟨steps, within, discovered⟩
  · simp only [explored.missed, Bool.false_eq_true, if_false]
    refine ⟨fun _ _ never => absurd rfl never, iff_of_true rfl ?_, fun _ => ?_⟩
    · intro walk leads
      by_contra short
      exact explored.unseen ((explored.level.seen_iff toId).mpr
        ((within_iff_leads fromId toId _).mpr
          ⟨walk, leads, Nat.not_lt.mp short⟩))
    · have clamped := clamped_iff maxHops 6 hardMaxHops
      have asked : (∀ asked, maxHops = some asked →
          asked.floor.toNat ≤ hardMaxHops) ↔
          (clampBound maxHops 6 hardMaxHops).clamped = false := by
        rw [← Bool.not_eq_true, clamped]
        simp
      rw [asked]
      cases (getNode db fromId).isSome <;> cases (getNode db toId).isSome <;>
        cases (clampBound maxHops 6 hardMaxHops).clamped <;> simp
  · simp only [discovered.found, if_true]
    obtain ⟨near, leads, short⟩ :=
      (within_iff_leads fromId toId _).mp discovered.chained.within
    refine ⟨fun named targets _ => ?_, iff_of_false (by simp) fun long => ?_,
      fun never => absurd never (by simp)⟩
    · have others : ∀ id other, Follows now db id other → other ≠ "" := by
        rintro id _ ⟨edge, leaves, rfl⟩
        obtain ⟨row, listed, rfl⟩ := List.mem_map.mp leaves
        exact targets row (List.mem_of_mem_filter listed)
      obtain ⟨walk, isWalk, last, length, traced⟩ :=
        trace_eq discovered.start others named discovered.chained
      rw [traced _ (Nat.lt_succ_of_lt discovered.deep) [] [],
        List.append_nil, List.append_nil]
      refine ⟨walk, ⟨isWalk, last⟩, fun other leads => ?_, rfl, rfl⟩
      by_contra shorter
      exact discovered.far ((within_iff_leads fromId toId steps).mpr
        ⟨other, leads, by omega⟩)
    · exact absurd (long near leads) (by omega)

def plainNode (id : String) : NodeRow where
  id := id
  kind := "Service"
  label := ""
  repoId := none
  firstSeen := none
  lastSeen := none
  propsJson := none
  metaJson := none

def plainEdge (source target : String) : EdgeRow where
  id := source ++ target
  kind := "CALLS"
  source := source
  target := target
  validFrom := none
  validTo := none
  sourceSystem := none
  confidence := none
  propsJson := none
  label := none

/-- Three nodes in a row. -/
def chainOfThree : GraphLearnDb where
  path := ":memory:"
  nodes := [plainNode "a", plainNode "b", plainNode "c"]
  edges := [plainEdge "a" "b", plainEdge "b" "c"]
  nodeKeys := by simp [plainNode]
  edgeKeys := by simp [plainEdge]

end Promises

end Mendpoint.Graph

import Mendpoint.Repair.Lines

/-!
# Edits of lines

An edit of a line keeps the other lines where none of them ends in a carriage
return and a line feed and, when marked lines are removed, where the last line
is not one of them.
-/

namespace Mendpoint.Repair

open Mendpoint.Library
open Mendpoint.Library.Attempt

/-! ## Edits, and where they leave a line -/

/-- An action on the lines of a file. -/
inductive LineEdit where
  | patch (line : Int) (newLine : String)
  | removeFixme

def LineEdit.action (filePath reason : String) : LineEdit → RepairAction
  | patch line newLine => .patchLine filePath line newLine reason
  | removeFixme => .removeFixme filePath reason

def LineEdit.apply : LineEdit → String → String
  | patch line newLine, content =>
    (patchedLines content line newLine).getD content
  | removeFixme, content => withoutFixmes content

/-- The place of the line which a patch addresses, if there is such a line. -/
def target? (content : String) (line : Int) : Option Nat :=
  if line - 1 < 0 ∨ ((terminatedLines content).length : Int) ≤ line - 1 then
    none
  else some (line - 1).toNat

/-- A line without the marker. -/
def unmarked (line : Line) : Bool :=
  !Text.includes (String.ofList line.1) "FIXME(mendpoint)"

/-- Where the line at a place is after an edit which does not address it. -/
def LineEdit.follow (content : String) : LineEdit → Nat → Option Nat
  | patch line newLine, place =>
    match target? content line with
    | none => some place
    | some index =>
      if place < index then some place
      else if place = index then none
      else some (place + (splitLines newLine).length - 1)
  | removeFixme, place =>
    match (terminatedLines content)[place]? with
    | none => none
    | some line =>
      if unmarked line then
        some (((terminatedLines content).take place).filter unmarked).length
      else none

def followAll : List LineEdit → String → Nat → Option Nat
  | [], _, place => some place
  | edit :: rest, content, place =>
    (edit.follow content place).bind (followAll rest (edit.apply content))

/-- The lines which no edit addresses are there, in order, as they were. -/
structure Kept (edits : List LineEdit) (content result : String) : Prop where
  unchanged : ∀ place line, (terminatedLines content)[place]? = some line →
    ∀ after, followAll edits content place = some after →
      (terminatedLines result)[after]? = some line
  inOrder : ∀ place later, place < later → ∀ first second,
    followAll edits content place = some first →
    followAll edits content later = some second → first < second

/-- When an edit keeps the other lines. -/
def Careful (content : String) : LineEdit → Prop
  | .patch line _ => ∀ index ∈ target? content line, ∀ place other,
    (terminatedLines content)[place]? = some other → place ≠ index →
      other.2 ≠ .crlf
  | .removeFixme =>
    (∀ line ∈ terminatedLines content, unmarked line = true →
      line.2 ≠ .crlf) ∧
    ((∃ line ∈ terminatedLines content, unmarked line = true) →
      ∀ line ∈ terminatedLines content, line.2 = .eof →
        unmarked line = true)

/-- Every edit of a run keeps the lines which it does not address. -/
def CarefulRun : List LineEdit → String → Prop
  | [], _ => True
  | edit :: rest, content =>
    Careful content edit ∧ CarefulRun rest (edit.apply content)

/-! ## One patch -/

theorem target?_lt {content : String} {line : Int} {index : Nat}
    (target : target? content line = some index) :
    index < (terminatedLines content).length := by
  rw [target?] at target
  split at target
  · cases target
  · cases target
    omega

theorem patch_apply_of_none {content newLine : String} {line : Int}
    (target : target? content line = none) :
    (LineEdit.patch line newLine).apply content = content := by
  rw [target?] at target
  have outside : line - 1 < 0 ∨
      ((splitLines content).length : Int) ≤ line - 1 := by
    rw [splitLines_eq, List.length_map]
    by_contra inside
    rw [if_neg inside] at target
    cases target
  rw [LineEdit.apply, patchedLines, if_pos outside]
  rfl

theorem flatMap_rawLines {content : String} {lines : List Line}
    (subset : lines ⊆ terminatedLines content) :
    (lines.map fun line => String.ofList line.1).flatMap
      (fun text => rawLines text.toList) = lines.map Prod.fst := by
  rw [List.flatMap_map]
  induction lines with
  | nil => rfl
  | cons first rest inductionHypothesis =>
    obtain ⟨member, others⟩ := List.cons_subset.mp subset
    obtain ⟨place, there⟩ := List.mem_iff_getElem?.mp member
    rw [List.flatMap_cons, inductionHypothesis others,
      String.toList_ofList, rawLines_plain (line_of_getElem? there).1]
    rfl

theorem rawLines_patch {content newLine : String} {line : Int} {index : Nat}
    (target : target? content line = some index) :
    rawLines ((LineEdit.patch line newLine).apply content).toList =
      ((terminatedLines content).take index).map Prod.fst ++
        rawLines newLine.toList ++
        ((terminatedLines content).drop (index + 1)).map Prod.fst := by
  have inside := target?_lt target
  rw [target?] at target
  split at target
  · cases target
  · next notOutside =>
      cases target
      have notOutside' : ¬ (line - 1 < 0 ∨
          ((splitLines content).length : Int) ≤ line - 1) := by
        rw [splitLines_eq, List.length_map]
        exact notOutside
      rw [LineEdit.apply, patchedLines, if_neg notOutside', Option.getD_some,
        splitLines_eq, rawLines_join]
      · rw [List.set_eq_take_append_cons_drop, List.length_map,
          if_pos inside, List.flatMap_append, List.flatMap_cons,
          ← List.map_take, ← List.map_drop,
          flatMap_rawLines (List.take_subset _ _),
          flatMap_rawLines (List.drop_subset _ _),
          List.append_assoc]
      · intro empty
        have none' := congrArg List.length empty
        rw [List.length_set, List.length_map, List.length_nil] at none'
        omega

theorem length_splitLines (content : String) :
    (splitLines content).length = (rawLines content.toList).length := by
  rw [splitLines_eq, List.length_map, terminatedLines_eq, length_lineate]

theorem patch_lookup {content newLine : String} {line : Int}
    {index place after : Nat} {other : Line}
    (target : target? content line = some index)
    (there : (terminatedLines content)[place]? = some other)
    (follow : (LineEdit.patch line newLine).follow content place =
      some after) :
    (rawLines ((LineEdit.patch line newLine).apply content).toList)[after]? =
      some other.1 ∧
    (after + 1 =
        (rawLines ((LineEdit.patch line newLine).apply content).toList).length
      ↔ other.2 = .eof) := by
  have inside := target?_lt target
  have some' := List.length_pos_iff.mpr (rawLines_ne_nil newLine.toList)
  obtain ⟨within, _⟩ := List.getElem?_eq_some_iff.mp there
  rw [(line_of_getElem? there).2.2, rawLines_patch target]
  simp only [LineEdit.follow, target, length_splitLines] at follow
  simp only [List.length_append, List.length_map, List.length_take,
    List.length_drop]
  by_cases before : place < index
  · rw [if_pos before] at follow
    cases follow
    refine ⟨?_, by omega⟩
    rw [List.append_assoc, List.getElem?_append_left
      (by rw [List.length_map, List.length_take]; omega), List.getElem?_map,
      List.getElem?_take_of_lt before, there]
    rfl
  · rw [if_neg before] at follow
    split at follow
    · cases follow
    · cases follow
      refine ⟨?_, by omega⟩
      rw [List.getElem?_append_right (by
          rw [List.length_append, List.length_map, List.length_take]
          omega), List.getElem?_map, List.getElem?_drop, List.length_append,
        List.length_map, List.length_take]
      rw [show index + 1 + (place + (rawLines newLine.toList).length - 1 -
        (min index (terminatedLines content).length +
          (rawLines newLine.toList).length)) = place by omega, there]
      rfl

theorem kept_patch_iff (content newLine : String) (line : Int) :
    (∀ place other, (terminatedLines content)[place]? = some other →
      ∀ after, (LineEdit.patch line newLine).follow content place =
        some after →
        (terminatedLines ((LineEdit.patch line newLine).apply
          content))[after]? = some other) ↔
      Careful content (.patch line newLine) := by
  cases target : target? content line with
  | none =>
    refine iff_of_true (fun place other there after follow => ?_) ?_
    · simp only [LineEdit.follow, target] at follow
      cases follow
      rw [patch_apply_of_none target]
      exact there
    · rw [Careful, target]
      exact fun _ never => absurd never (Option.not_mem_none _)
  | some index =>
    rw [Careful, target]
    simp only [Option.mem_def, Option.some.injEq, forall_eq']
    constructor
    · intro kept place other there apart
      obtain ⟨after, follow⟩ : ∃ after,
          (LineEdit.patch line newLine).follow content place =
            some after := by
        simp only [LineEdit.follow, target, if_neg apart]
        split <;> exact ⟨_, rfl⟩
      have same := (rewritten_iff there
        (patch_lookup target there follow).1).mp
        (kept place other there after follow)
      intro both
      rw [both] at same
      split at same <;> cases same
    · intro careful place other there after follow
      obtain ⟨raw, last⟩ := patch_lookup target there follow
      refine (rewritten_iff there raw).mpr ?_
      have apart : place ≠ index := by
        rintro rfl
        simp [LineEdit.follow, target] at follow
      have notBoth := careful place other there apart
      split
      · next atEnd => exact last.mp atEnd
      · next inner =>
          cases kind : other.2 with
          | lf => rfl
          | crlf => exact absurd kind notBoth
          | eof => exact absurd (last.mpr kind) inner

/-! ## One removal -/

theorem rawLines_removal {content : String}
    (some' : (terminatedLines content).filter unmarked ≠ []) :
    rawLines (LineEdit.removeFixme.apply content).toList =
      ((terminatedLines content).filter unmarked).map Prod.fst := by
  have lines : (splitLines content).filter
      (fun line => !Text.includes line "FIXME(mendpoint)") =
      ((terminatedLines content).filter unmarked).map fun line =>
        String.ofList line.1 := by
    rw [splitLines_eq, List.filter_map]
    rfl
  rw [LineEdit.apply, withoutFixmes, lines,
    rawLines_join (by rwa [Ne, List.map_eq_nil_iff]),
    flatMap_rawLines List.filter_sublist.subset]

theorem removal_lookup {content : String} {place after : Nat} {line : Line}
    (there : (terminatedLines content)[place]? = some line)
    (follow : LineEdit.removeFixme.follow content place = some after) :
    unmarked line = true ∧
    (rawLines (LineEdit.removeFixme.apply content).toList)[after]? =
      some line.1 ∧
    (rawLines (LineEdit.removeFixme.apply content).toList).length =
      after + 1 +
        (((terminatedLines content).drop (place + 1)).filter unmarked).length
    := by
  simp only [LineEdit.follow, there] at follow
  split at follow
  · next plain =>
      cases follow
      obtain ⟨inside, rfl⟩ := List.getElem?_eq_some_iff.mp there
      have parts : (terminatedLines content).filter unmarked =
          ((terminatedLines content).take place).filter unmarked ++
            (terminatedLines content)[place] ::
              ((terminatedLines content).drop (place + 1)).filter
                unmarked := by
        conv => lhs; rw [← List.take_append_drop place (terminatedLines content),
          List.filter_append, List.drop_eq_getElem_cons inside]
        rw [List.filter_cons_of_pos plain]
      have raws := @rawLines_removal content (by rw [parts]; simp)
      rw [raws, parts]
      refine ⟨plain, ?_, ?_⟩
      · rw [List.map_append, List.getElem?_append_right (by simp)]
        simp
      · simp
        omega
  · cases follow

theorem kept_removal_iff (content : String) :
    (∀ place line, (terminatedLines content)[place]? = some line →
      ∀ after, LineEdit.removeFixme.follow content place = some after →
        (terminatedLines (LineEdit.removeFixme.apply content))[after]? =
          some line) ↔
      Careful content .removeFixme := by
  have followed : ∀ {place : Nat} {line : Line},
      (terminatedLines content)[place]? = some line →
      unmarked line = true →
      LineEdit.removeFixme.follow content place = some
        (((terminatedLines content).take place).filter unmarked).length := by
    intro place line there plain
    simp only [LineEdit.follow, there, if_pos plain]
  constructor
  · intro kept
    have same : ∀ {place : Nat} {line : Line},
        (terminatedLines content)[place]? = some line →
        unmarked line = true → line.2 ≠ .crlf ∧
          (((terminatedLines content).drop (place + 1)).filter unmarked = [] →
            line.2 = .eof) := by
      intro place line there plain
      have follow := followed there plain
      obtain ⟨_, raw, length⟩ := removal_lookup there follow
      have written := (rewritten_iff there raw).mp
        (kept place line there _ follow)
      rw [length] at written
      split at written
      · exact ⟨by rw [written]; decide, fun _ => written⟩
      · next more =>
          refine ⟨by rw [written]; decide, fun empty => ?_⟩
          rw [empty] at more
          exact absurd rfl more
    refine ⟨fun line member plain => ?_, ?_⟩
    · obtain ⟨place, there⟩ := List.mem_iff_getElem?.mp member
      exact (same there plain).1
    · rintro ⟨some', member, plain⟩ last isLast atEnd
      obtain ⟨place, there⟩ := List.mem_iff_getElem?.mp isLast
      have close := (line_of_getElem? there).2.2.mp atEnd
      -- The last line which stays ends the text, so it is the last line.
      rcases List.eq_nil_or_concat'
          ((terminatedLines content).filter unmarked) with
        none' | ⟨before, final, parts⟩
      · exact absurd (List.mem_filter.mpr ⟨member, plain⟩)
          (by rw [none']; exact List.not_mem_nil)
      · obtain ⟨early, late, whole, _, tail⟩ :=
          List.filter_eq_append_iff.mp parts
        obtain ⟨skipped, rest, rfl, _, stays, empty⟩ :=
          List.filter_eq_cons_iff.mp tail
        have here : (terminatedLines content)[(early ++ skipped).length]? =
            some final := by
          rw [whole, ← List.append_assoc, List.getElem?_append_right le_rfl,
            Nat.sub_self]
          rfl
        have dropped : (terminatedLines content).drop
            ((early ++ skipped).length + 1) = rest := by
          rw [whole, ← List.append_assoc, ← List.drop_drop, List.drop_left]
          rfl
        have ends := (line_of_getElem? here).2.2.mp
          ((same here stays).2 (by rw [dropped, empty]))
        rw [← Nat.succ.inj (close.trans ends.symm), there] at here
        cases here
        exact stays
  · rintro ⟨notBoth, atEnd⟩ place line there after follow
    obtain ⟨plain, raw, length⟩ := removal_lookup there follow
    have member := List.mem_of_getElem? there
    refine (rewritten_iff there raw).mpr ?_
    obtain ⟨inside, _⟩ := List.getElem?_eq_some_iff.mp there
    have close := (line_of_getElem? there).2.2
    split
    · next last =>
        rw [close]
        by_contra open'
        have lastLine : ∃ final ∈ (terminatedLines content).drop (place + 1),
            final.2 = .eof := by
          refine ⟨(terminatedLines content)[(terminatedLines content).length -
            1], List.mem_drop_iff_getElem.mpr
              ⟨(terminatedLines content).length - 1 - (place + 1), by omega,
                by simp only [show place + 1 + ((terminatedLines
                  content).length - 1 - (place + 1)) = (terminatedLines
                    content).length - 1 by omega]⟩, ?_⟩
          exact (line_of_getElem? (List.getElem?_eq_getElem _)).2.2.mpr
            (by omega)
        obtain ⟨final, dropped, isEnd⟩ := lastLine
        have stays := atEnd ⟨line, member, plain⟩ final
          (List.mem_of_mem_drop dropped) isEnd
        have some' := List.length_pos_of_mem
          (List.mem_filter.mpr ⟨dropped, stays⟩)
        omega
    · next inner =>
        cases kind : line.2 with
        | lf => rfl
        | crlf => exact absurd kind (notBoth line member plain)
        | eof =>
          rw [List.drop_eq_nil_of_le (close.mp kind).ge, List.filter_nil,
            List.length_nil] at length
          exact absurd length.symm inner

/-! ## Runs of edits -/

theorem follow_lt {content : String} {edit : LineEdit}
    {place later first second : Nat} (before : place < later)
    (one : edit.follow content place = some first)
    (two : edit.follow content later = some second) : first < second := by
  cases edit with
  | patch line newLine =>
    have some' := List.length_pos_iff.mpr (rawLines_ne_nil newLine.toList)
    simp only [LineEdit.follow, length_splitLines] at one two
    cases target : target? content line with
    | none =>
      rw [target] at one two
      cases one
      cases two
      exact before
    | some index =>
      simp only [target] at one two
      split at one <;> split at two <;> simp_all <;> omega
  | removeFixme =>
    cases there : (terminatedLines content)[place]? with
    | none => simp [LineEdit.follow, there] at one
    | some line =>
      cases thereLater : (terminatedLines content)[later]? with
      | none => simp [LineEdit.follow, thereLater] at two
      | some other =>
        simp only [LineEdit.follow, there, thereLater] at one two
        split at one
        · next plain =>
            split at two
            · cases one
              cases two
              obtain ⟨inside, rfl⟩ := List.getElem?_eq_some_iff.mp there
              rw [← List.take_append_drop (place + 1)
                ((terminatedLines content).take later), List.filter_append,
                List.length_append, List.take_take,
                Nat.min_eq_left before, List.take_succ_eq_append_getElem
                  inside, List.filter_append,
                List.filter_cons_of_pos plain]
              simp
              omega
            · cases two
        · cases one

theorem kept_one_iff (content : String) (edit : LineEdit) :
    Kept [edit] content (edit.apply content) ↔ Careful content edit := by
  have all : followAll [edit] content = edit.follow content := by
    funext place
    rw [followAll]
    cases edit.follow content place <;> rfl
  have unchanged : (∀ place line,
      (terminatedLines content)[place]? = some line →
      ∀ after, edit.follow content place = some after →
        (terminatedLines (edit.apply content))[after]? = some line) ↔
      Careful content edit := by
    cases edit with
    | patch line newLine => exact kept_patch_iff content newLine line
    | removeFixme => exact kept_removal_iff content
  rw [← unchanged]
  constructor
  · intro kept
    rw [← all]
    exact kept.unchanged
  · intro kept
    refine ⟨by rw [all]; exact kept, ?_⟩
    rw [all]
    exact fun place later before first second => follow_lt before

theorem kept_run {edits : List LineEdit} {content : String}
    (careful : CarefulRun edits content) :
    Kept edits content
      (edits.foldl (fun content edit => edit.apply content) content) := by
  induction edits generalizing content with
  | nil =>
    refine ⟨fun place line there after follow => ?_,
      fun place later before first second one two => ?_⟩
    · cases follow
      exact there
    · cases one
      cases two
      exact before
  | cons edit rest inductionHypothesis =>
    have one := (kept_one_iff content edit).mpr careful.1
    have others := inductionHypothesis careful.2
    refine ⟨fun place line there after follow => ?_,
      fun place later before first second follow again => ?_⟩
    · obtain ⟨middle, step, onward⟩ := Option.bind_eq_some_iff.mp follow
      exact others.unchanged middle line (one.unchanged place line there
        middle (by rw [followAll, step]; rfl)) after onward
    · obtain ⟨near, step, onward⟩ := Option.bind_eq_some_iff.mp follow
      obtain ⟨far, stepLater, onwardLater⟩ :=
        Option.bind_eq_some_iff.mp again
      exact others.inOrder near far (follow_lt before step stepLater) first
        second onward onwardLater

/-! ## Calls with edits of one file -/

section Calls

variable {toLowerCase : String → String} {root : List String}
  {neverTouch : List String} {fileBudget : Int} {filePath : String}
  {original : String} {safe : Contained}

/-- A session which has read a file, and staged no other one. -/
structure Holds (root : List String) (filePath original : String)
    (safe : Contained) (content : String) (session : Session) : Prop where
  contained : containedPath session.disk root filePath true = .ok safe
  cached : session.fileCache.get? safe.relativePath = some content
  staged : ∀ key change, session.staged.get? key = some change →
    key = safe.relativePath ∧ change.content = content
  unstaged : session.staged.entries = [] → content = original

theorem holds_read {session known : Session} {content : String}
    (reads : Yields (read root filePath) session (some content) known)
    (staged : session.staged = OrderedMap.empty) :
    ∃ safe, Holds root filePath content safe content known := by
  rw [read, yields_get_bind, yields_lift_bind] at reads
  obtain ⟨safe, contained, reads⟩ := reads
  have unstaged : ∀ key change, session.staged.get? key = some change →
      key = safe.relativePath ∧ change.content = content := by
    rw [staged]
    intro key change never
    cases never
  refine ⟨safe, ?_⟩
  cases cached : session.fileCache.get? safe.relativePath with
  | some text =>
    simp only [cached] at reads
    obtain ⟨same, rfl⟩ := yields_pure.mp reads
    cases same
    exact ⟨contained, cached, unstaged, fun _ => rfl⟩
  | none =>
    simp only [cached] at reads
    obtain ⟨stat, _, reads⟩ := yields_lift_bind.mp reads
    cases stat with
    | none => cases (yields_pure.mp reads).1
    | some node =>
      cases node with
      | directory => exact absurd reads not_yields_throw
      | file bytes =>
        obtain ⟨bytes, _, reads⟩ := yields_lift_bind.mp reads
        obtain ⟨_, _, written, reads⟩ := yields_bind.mp reads
        cases yields_set.mp written
        obtain ⟨same, rfl⟩ := yields_pure.mp reads
        cases same
        exact ⟨contained, OrderedMap.get?_set_self _ _ _, unstaged,
          fun _ => rfl⟩

theorem Holds.read {session : Session} {content : String}
    (holds : Holds root filePath original safe content session) :
    Yields (read root filePath) session (some content) session := by
  rw [Repair.read, yields_get_bind, yields_lift_bind]
  refine ⟨safe, holds.contained, ?_⟩
  simp only [holds.cached]
  exact yields_pure.mpr ⟨rfl, rfl⟩

theorem capture_frame {session after : Session} {value : PUnit}
    (captured : Yields (capture safe) session value after) :
    after.disk = session.disk ∧ after.fileCache = session.fileCache ∧
      after.staged = session.staged := by
  rw [capture, yields_get_bind] at captured
  split at captured
  · obtain ⟨_, rfl⟩ := yields_pure.mp captured
    exact ⟨rfl, rfl, rfl⟩
  · obtain ⟨_, _, captured⟩ := yields_lift_bind.mp captured
    obtain ⟨_, _, captured⟩ := yields_lift_bind.mp captured
    cases yields_set.mp captured
    exact ⟨rfl, rfl, rfl⟩

theorem Holds.stage {session after : Session} {value : PUnit}
    {content updated reason : String}
    (holds : Holds root filePath original safe content session)
    (staged : Yields (stage toLowerCase root neverTouch fileBudget filePath
      updated reason) session value after) :
    Holds root filePath original safe updated after := by
  rw [Repair.stage, yields_get_bind, yields_lift_bind] at staged
  obtain ⟨found, contained, staged⟩ := staged
  cases holds.contained.symm.trans contained
  obtain ⟨_, _, staged⟩ := yields_lift_bind.mp staged
  obtain ⟨known, _, cached, staged⟩ := yields_bind.mp staged
  rw [readCached, yields_get_bind] at cached
  simp only [holds.cached] at cached
  obtain ⟨rfl, rfl⟩ := yields_pure.mp cached
  split at staged
  · next same =>
      obtain ⟨_, rfl⟩ := yields_pure.mp staged
      cases same
      exact holds
  · obtain ⟨_, middle, captured, staged⟩ := yields_bind.mp staged
    obtain ⟨sameDisk, sameCache, sameStaged⟩ := capture_frame captured
    obtain ⟨_, _, changed, staged⟩ := yields_bind.mp staged
    cases yields_modify.mp changed
    rw [yields_get_bind] at staged
    obtain ⟨_, rfl⟩ := yields_lift.mp staged
    refine ⟨by rw [sameDisk]; exact contained,
      OrderedMap.get?_set_self _ _ _, fun key change found => ?_,
      fun empty => ?_⟩
    · rw [OrderedMap.get?_set] at found
      split at found
      · next same =>
          cases found
          exact ⟨same.symm, rfl⟩
      · next apart =>
          rw [sameStaged] at found
          exact absurd (holds.staged key change found).1.symm apart
    · have there := OrderedMap.get?_set_self middle.staged
        safe.relativePath { content := updated, reasons :=
          ((middle.staged.get? safe.relativePath).map
            (·.reasons)).getD [] ++ [reason] : StagedChange }
      rw [OrderedMap.get?, empty] at there
      cases there

theorem holds_action {session known after : Session} {value : PUnit}
    {content reason : String} (edit : LineEdit)
    (reads : Yields (read root filePath) session (some content) known)
    (holds : Holds root filePath original safe content known)
    (acted : Yields (applyAction toLowerCase root neverTouch fileBudget
      (edit.action filePath reason)) session value after) :
    Holds root filePath original safe (edit.apply content) after := by
  have readFirst : ∀ {next : Option String → SessionM PUnit},
      Yields (read root filePath >>= next) session value after →
      Yields (next (some content)) known value after := by
    intro next both
    obtain ⟨found, middle, again, rest⟩ := yields_bind.mp both
    cases Prod.ext_iff.mp (again.symm.trans reads) with
    | intro sameAnswer sameState =>
      cases sameState
      cases sameAnswer
      exact rest
  cases edit with
  | patch line newLine =>
    have acted := readFirst acted
    cases patched : patchedLines content line newLine with
    | none =>
      simp only [patched] at acted
      obtain ⟨_, rfl⟩ := yields_pure.mp acted
      rw [LineEdit.apply, patched]
      exact holds
    | some updated =>
      simp only [patched] at acted
      rw [LineEdit.apply, patched]
      exact holds.stage acted
  | removeFixme =>
    have acted := readFirst acted
    rw [LineEdit.apply]
    by_cases same : withoutFixmes content ≠ content
    · simp only [if_pos same] at acted
      exact holds.stage acted
    · simp only [if_neg same] at acted
      obtain ⟨_, rfl⟩ := yields_pure.mp acted
      rw [not_not.mp same]
      exact holds

/-- The actions of edits, each with its reason. -/
def actionsOf (filePath : String) (edits : List (LineEdit × String)) :
    List RepairAction :=
  edits.map fun edit => edit.1.action filePath edit.2

theorem holds_actions {edits : List (LineEdit × String)}
    {session known after : Session} {value : PUnit} {content : String}
    (reads : Yields (read root filePath) session (some content) known)
    (holds : Holds root filePath original safe content known)
    (acted : Yields ((actionsOf filePath edits).forM
      (applyAction toLowerCase root neverTouch fileBudget)) session value
      after) :
    edits = [] ∧ after = session ∨
      Holds root filePath original safe ((edits.map Prod.fst).foldl
        (fun content edit => edit.apply content) content) after := by
  induction edits generalizing session known content with
  | nil => exact .inl ⟨rfl, (yields_pure.mp acted).2.symm⟩
  | cons edit rest inductionHypothesis =>
    obtain ⟨_, middle, first, others⟩ := yields_bind.mp acted
    have next := holds_action edit.1 reads holds first
    right
    rcases inductionHypothesis next.read next others with ⟨rfl, rfl⟩ | final
    · exact next
    · exact final

/-- The content of a file after a call with edits of it. -/
def resultOf (content : String) : List AppliedEdit → String
  | [] => content
  | edit :: _ => edit.updated

theorem updated_writeStaged {session after : Session} {dryRun : Bool}
    {entry : String × StagedChange} {edit : AppliedEdit}
    (written : Yields (writeStaged root dryRun entry) session edit after) :
    edit.updated = entry.2.content := by
  rw [writeStaged, yields_get_bind] at written
  obtain ⟨_, _, written⟩ := yields_lift_bind.mp written
  obtain ⟨_, _, written⟩ := yields_lift_bind.mp written
  dsimp only at written
  split at written
  · obtain ⟨_, _, _, written⟩ := yields_bind.mp written
    obtain ⟨_, _, _, written⟩ := yields_bind.mp written
    rw [← (yields_pure.mp written).1]
  · rw [← (yields_pure.mp written).1]

theorem canonicalRoot_frame {session after : Session} {value : PUnit}
    (checked : Yields (canonicalRoot root) session value after) :
    after = session := by
  rw [canonicalRoot, yields_get_bind] at checked
  obtain ⟨stat, _, checked⟩ := yields_lift_bind.mp checked
  cases stat with
  | none => exact absurd checked not_yields_throw
  | some node =>
    cases node with
    | directory => exact (yields_pure.mp checked).2.symm
    | file bytes => exact absurd checked not_yields_throw

theorem resultOf_applyActions {opts : ApplyOptions}
    {edits : List (LineEdit × String)} {session known after : Session}
    {content : String} {results : List AppliedEdit}
    (reads : Yields (read root filePath) { session with
      fileCache := OrderedMap.empty
      staged := OrderedMap.empty } (some content) known)
    (call : Yields (applyActions toLowerCase root (actionsOf filePath edits)
      opts) session results after) :
    resultOf content results = (edits.map Prod.fst).foldl
      (fun content edit => edit.apply content) content := by
  obtain ⟨safe, holds⟩ := holds_read reads rfl
  rw [applyActions] at call
  obtain ⟨_, start, checked, call⟩ := yields_bind.mp call
  cases canonicalRoot_frame checked
  obtain ⟨_, _, call⟩ := yields_lift_bind.mp call
  obtain ⟨_, _, cleared, call⟩ := yields_bind.mp call
  cases yields_modify.mp cleared
  obtain ⟨_, last, acted, call⟩ := yields_bind.mp call
  rw [yields_get_bind] at call
  have writes : ∀ {entries : List (String × StagedChange)}
      {session : Session}, Yields (entries.mapM
        (writeStaged root opts.dryRun)) session results after →
      (entries = [] ∧ results = []) ∨ ∃ entry ∈ entries,
        resultOf content results = entry.2.content := by
    intro entries session written
    cases entries with
    | nil =>
      rw [List.mapM_nil] at written
      exact .inl ⟨rfl, (yields_pure.mp written).1.symm⟩
    | cons entry rest =>
      rw [List.mapM_cons] at written
      obtain ⟨edit, _, first, written⟩ := yields_bind.mp written
      obtain ⟨others, _, _, written⟩ := yields_bind.mp written
      rw [← (yields_pure.mp written).1]
      exact .inr ⟨entry, List.mem_cons_self, updated_writeStaged first⟩
  rcases holds_actions reads holds acted with ⟨rfl, rfl⟩ | final
  · rcases writes call with ⟨_, rfl⟩ | ⟨entry, never, _⟩
    · rfl
    · cases never
  · rcases writes call with ⟨empty, rfl⟩ | ⟨entry, member, same⟩
    · exact (final.unstaged empty).symm
    · rw [same]
      exact (final.staged entry.1 entry.2
        ((OrderedMap.mem_entries_iff _ _ _).mp member)).2

/--
A call keeps the lines which it does not address where each of its edits is
careful, and an edit keeps them only if it is.
-/
theorem lines_kept (toLowerCase : String → String) (root : List String)
    (filePath : String) (edits : List (LineEdit × String))
    (opts : ApplyOptions) (session known after : Session) (content : String)
    (results : List AppliedEdit) :
    (∀ edit, Kept [edit] content (edit.apply content) ↔
      Careful content edit) ∧
    (Yields (read root filePath) { session with
        fileCache := OrderedMap.empty
        staged := OrderedMap.empty } (some content) known →
      Yields (applyActions toLowerCase root (actionsOf filePath edits) opts)
        session results after →
      CarefulRun (edits.map Prod.fst) content →
      Kept (edits.map Prod.fst) content (resultOf content results)) := by
  refine ⟨kept_one_iff content, ?_⟩
  intro reads call careful
  rw [resultOf_applyActions reads call]
  exact kept_run careful

end Calls

/-! ### A file of two lines -/

/-- A repository with one file in it. -/
def oneFile (bytes : ByteArray) : FileTree :=
  (FileTree.empty.put ["repo"] .directory (by decide) (by decide)).put
    ["repo", "a.ts"] (.file bytes) (by decide) (by decide)

/-- A call which writes files. -/
def writing (files : List (String × String)) : Call where
  actions := files.map fun file => .writeFile file.1 file.2 "repair"
  options := {
    dryRun := false
    neverTouchPaths := []
    maxActions := none
    maxFilesChanged := none }

/-- A call which patches the second line of a file. -/
def patchSecond (content : String) : Except String (List AppliedEdit) ×
    Session :=
  outcome (applyActions Text.lowerCase ["repo"]
    (actionsOf "a.ts" [(.patch 2 "x", "repair")]) (writing []).options)
    (Session.start (oneFile (Utf8Text.encode content)))

def patchedFile (original : String) : AppliedEdit where
  filePath := "a.ts"
  original := original
  updated := "a\nx"
  reason := "repair"
  existed := true

theorem yields_of_answer {σ ε α : Type} {computation : Attempt σ ε α}
    {state : σ} {value : α}
    (answer : (outcome computation state).1 = .ok value) :
    Yields computation state value (outcome computation state).2 :=
  Prod.ext answer rfl

theorem lines_kept_patchSecond :
    Kept [.patch 2 "x"] "a\nb" (resultOf "a\nb" [patchedFile "a\nb"]) :=
  (lines_kept Text.lowerCase ["repo"] "a.ts" [(.patch 2 "x", "repair")]
    (writing []).options (Session.start (oneFile (Utf8Text.encode "a\nb")))
    _ _ "a\nb" [patchedFile "a\nb"]).2
    (yields_of_answer rfl)
    (yields_of_answer rfl)
    ⟨fun index _ place other there _ => by
      have member := List.mem_of_getElem? there
      rcases List.mem_cons.mp member with rfl | member
      · decide
      · rcases List.mem_singleton.mp member with rfl
        decide, trivial⟩

/-- A patch of the second line changes how the first one ends. -/
theorem terminator_lost :
    (patchSecond "a\r\nb").1 = .ok [patchedFile "a\r\nb"] ∧
      ¬ Kept [.patch 2 "x"] "a\r\nb"
        (resultOf "a\r\nb" [patchedFile "a\r\nb"]) := by
  refine ⟨rfl, fun kept => ?_⟩
  have same := kept.unchanged 0 (['a'], .crlf) (by decide) 0 (by decide)
  exact absurd same (by decide)

end Mendpoint.Repair

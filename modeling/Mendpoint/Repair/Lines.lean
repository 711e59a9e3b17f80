import Mendpoint.Repair.Apply

/-!
# Lines and how they end

A text is a list of lines, each with its terminator.  The edits of lines read
both terminators and write one: after an edit a line is what it was where its
terminator is a line feed, or where it is the last one before and after.
-/

namespace Mendpoint.Repair

open Mendpoint.Library

/-! ## Lines with their terminators -/

inductive Terminator where
  | lf
  | crlf
  | eof
  deriving DecidableEq

abbrev Line : Type :=
  List Char × Terminator

/-- The lines of a text, with the line read so far, in reverse. -/
def terminatedFrom : List Char → List Char → List Line
  | line, [] => [(line.reverse, .eof)]
  | line, '\r' :: '\n' :: rest => (line.reverse, .crlf) :: terminatedFrom [] rest
  | line, '\n' :: rest => (line.reverse, .lf) :: terminatedFrom [] rest
  | line, char :: rest => terminatedFrom (char :: line) rest

/-- The lines of a text, each with what ends it. -/
def terminatedLines (content : String) : List Line :=
  terminatedFrom [] content.toList

/-- The parts of a text between line feeds. -/
def rawLines (text : List Char) : List (List Char) :=
  text.splitOn '\n'

/-- A part before a line feed, which a carriage return may belong to. -/
def ended : List Char → Line
  | [] => ([], .lf)
  | ['\r'] => ([], .crlf)
  | char :: rest => (char :: (ended rest).1, (ended rest).2)

def lineate : List (List Char) → List Line
  | [] => []
  | [last] => [(last, .eof)]
  | raw :: next :: rest => ended raw :: lineate (next :: rest)

theorem map_fst_terminatedFrom (line text : List Char) :
    (terminatedFrom line text).map Prod.fst = linesFrom line text := by
  fun_induction linesFrom line text with
  | case1 line => rfl
  | case2 line rest inductionHypothesis =>
    rw [terminatedFrom, List.map_cons, inductionHypothesis]
  | case3 line rest inductionHypothesis =>
    rw [terminatedFrom, List.map_cons, inductionHypothesis]
  | case4 line char rest notBoth notFeed inductionHypothesis =>
    rw [terminatedFrom, inductionHypothesis]
    · exact notBoth
    · exact notFeed

theorem splitLines_eq (content : String) :
    splitLines content = (terminatedLines content).map fun line =>
      String.ofList line.1 := by
  rw [splitLines, ← map_fst_terminatedFrom, List.map_map]
  rfl

theorem ended_cases (raw : List Char) :
    ended raw = (raw, .lf) ∨
      ∃ line, ended raw = (line, .crlf) ∧ raw = line ++ ['\r'] := by
  fun_induction ended raw with
  | case1 => exact .inl rfl
  | case2 => exact .inr ⟨[], rfl, rfl⟩
  | case3 char rest _ inductionHypothesis =>
    rcases inductionHypothesis with plain | ⟨line, close, same⟩
    · exact .inl (by rw [plain])
    · exact .inr ⟨char :: line, by rw [close], by rw [same]; rfl⟩

theorem ended_eq_iff (raw : List Char) (line : Line)
    (isLine : line = ended raw ∨ line.2 = .eof) :
    ended line.1 = line ↔ line.2 = .lf := by
  rcases isLine with rfl | last
  · rcases ended_cases raw with plain | ⟨text, close, _⟩
    · rw [plain]
      exact iff_of_true plain rfl
    · rw [close]
      refine iff_of_false (fun same => ?_) (by simp)
      rcases ended_cases text with plain | ⟨shorter, again, longer⟩
      · rw [plain] at same
        cases same
      · rw [again] at same
        have lengths := congrArg (fun line => List.length line.1) same
        rw [longer] at lengths
        simp at lengths
  · refine iff_of_false (fun same => ?_) (by simp [last])
    rw [← same] at last
    rcases ended_cases line.1 with plain | ⟨_, close, _⟩
    · rw [plain] at last
      cases last
    · rw [close] at last
      cases last

theorem getElem?_lineate (raws : List (List Char)) (place : Nat) :
    (lineate raws)[place]? = raws[place]?.map fun raw =>
      if place + 1 = raws.length then (raw, .eof) else ended raw := by
  induction raws generalizing place with
  | nil => rfl
  | cons raw rest inductionHypothesis =>
    cases rest with
    | nil => cases place <;> simp [lineate]
    | cons next others =>
      cases place with
      | zero => simp [lineate]
      | succ place => simp [lineate, inductionHypothesis place]

theorem length_lineate (raws : List (List Char)) :
    (lineate raws).length = raws.length := by
  induction raws with
  | nil => rfl
  | cons raw rest inductionHypothesis =>
    cases rest with
    | nil => rfl
    | cons next others =>
      rw [lineate, List.length_cons, inductionHypothesis]
      rfl

theorem rawLines_cons (char : Char) (text : List Char) :
    rawLines (char :: text) = if char = '\n' then [] :: rawLines text
      else (rawLines text).modifyHead (List.cons char) := by
  rw [rawLines, List.splitOn_cons_eq_if_modifyHead]
  simp only [beq_iff_eq]
  rfl

theorem rawLines_ne_nil (text : List Char) : rawLines text ≠ [] :=
  List.splitOn_ne_nil _ _

theorem terminatedFrom_eq (line text : List Char) :
    terminatedFrom line text = (lineate (rawLines text)).modifyHead
      fun first => (line.reverse ++ first.1, first.2) := by
  fun_induction terminatedFrom line text with
  | case1 line => simp [rawLines, lineate]
  | case2 line rest inductionHypothesis =>
    obtain ⟨raw, others, listed⟩ :=
      List.exists_cons_of_ne_nil (rawLines_ne_nil rest)
    rw [inductionHypothesis, rawLines_cons, if_neg (by decide),
      rawLines_cons, if_pos rfl, listed]
    simp [lineate, ended]
    cases lineate (raw :: others) <;> rfl
  | case3 line rest inductionHypothesis =>
    obtain ⟨raw, others, listed⟩ :=
      List.exists_cons_of_ne_nil (rawLines_ne_nil rest)
    rw [inductionHypothesis, rawLines_cons, if_pos rfl, listed]
    simp [lineate, ended]
    cases lineate (raw :: others) <;> rfl
  | case4 line char rest notBoth notFeed inductionHypothesis =>
    obtain ⟨raw, others, listed⟩ :=
      List.exists_cons_of_ne_nil (rawLines_ne_nil rest)
    have notEnd : others ≠ [] → ¬ (char = '\r' ∧ raw = []) := by
      rintro more ⟨rfl, rfl⟩
      cases rest with
      | nil => exact more (List.cons.inj listed).2.symm
      | cons second after =>
        rw [rawLines_cons] at listed
        by_cases feed : second = '\n'
        · exact notBoth after rfl (by rw [feed])
        · rw [if_neg feed] at listed
          cases parts : rawLines after <;> rw [parts] at listed <;>
            cases listed
    rw [inductionHypothesis, rawLines_cons,
      if_neg (fun feed => notFeed feed), listed]
    cases others with
    | nil => simp [lineate]
    | cons next more =>
      have one : ended (char :: raw) =
          (char :: (ended raw).1, (ended raw).2) := by
        rw [ended]
        rintro rfl rfl
        exact notEnd (List.cons_ne_nil _ _) ⟨rfl, rfl⟩
      simp [lineate, one]

theorem terminatedLines_eq (content : String) :
    terminatedLines content = lineate (rawLines content.toList) := by
  rw [terminatedLines, terminatedFrom_eq]
  cases lineate (rawLines content.toList) <;> rfl

theorem rawLines_plain {text : List Char} (plain : '\n' ∉ text) :
    rawLines text = [text] :=
  List.splitOn_eq_singleton plain

theorem plain_rawLines (text : List Char) :
    ∀ raw ∈ rawLines text, '\n' ∉ raw := by
  induction text with
  | nil => simp [rawLines]
  | cons char rest inductionHypothesis =>
    rw [rawLines_cons]
    by_cases feed : char = '\n'
    · rw [if_pos feed, List.forall_mem_cons]
      exact ⟨List.not_mem_nil, inductionHypothesis⟩
    · rw [if_neg feed]
      cases listed : rawLines rest with
      | nil => exact absurd listed (rawLines_ne_nil rest)
      | cons raw others =>
        rw [listed, List.forall_mem_cons] at inductionHypothesis
        rw [List.modifyHead_cons, List.forall_mem_cons, List.mem_cons,
          not_or]
        exact ⟨⟨Ne.symm feed, inductionHypothesis.1⟩,
          inductionHypothesis.2⟩

theorem rawLines_join {texts : List String} (some' : texts ≠ []) :
    rawLines (Text.join "\n" texts).toList =
      texts.flatMap fun text => rawLines text.toList := by
  induction texts with
  | nil => exact absurd rfl some'
  | cons text rest inductionHypothesis =>
    cases rest with
    | nil => simp [Text.join]
    | cons next others =>
      have step := inductionHypothesis (List.cons_ne_nil next others)
      rw [List.flatMap_cons, ← step, Text.join, String.toList_append,
        String.toList_append, List.append_assoc]
      exact List.splitOn_append_cons_self _ _

theorem line_of_getElem? {content : String} {place : Nat} {line : Line}
    (there : (terminatedLines content)[place]? = some line) :
    '\n' ∉ line.1 ∧ (ended line.1 = line ↔ line.2 = .lf) ∧
      (line.2 = .eof ↔ place + 1 = (terminatedLines content).length) := by
  rw [terminatedLines_eq, getElem?_lineate, Option.map_eq_some_iff] at there
  obtain ⟨raw, member, rfl⟩ := there
  have plain := plain_rawLines _ raw (List.mem_of_getElem? member)
  rw [terminatedLines_eq, length_lineate]
  by_cases last : place + 1 = (rawLines content.toList).length
  · rw [if_pos last]
    exact ⟨plain, ended_eq_iff raw _ (.inr rfl), iff_of_true rfl last⟩
  · rw [if_neg last]
    have notEnd : (ended raw).2 ≠ .eof ∧ '\n' ∉ (ended raw).1 := by
      rcases ended_cases raw with same | ⟨text, same, longer⟩
      · rw [same]
        exact ⟨by simp, plain⟩
      · rw [same]
        rw [longer, List.mem_append, not_or] at plain
        exact ⟨by simp, plain.1⟩
    exact ⟨notEnd.2, ended_eq_iff raw _ (.inl rfl),
      iff_of_false notEnd.1 last⟩

theorem rewritten_iff {content after : String} {place again : Nat}
    {line : Line} (there : (terminatedLines content)[place]? = some line)
    (raw : (rawLines after.toList)[again]? = some line.1) :
    (terminatedLines after)[again]? = some line ↔
      if again + 1 = (rawLines after.toList).length then line.2 = .eof
      else line.2 = .lf := by
  have close := (line_of_getElem? there).2.1
  rw [terminatedLines_eq after, getElem?_lineate, raw, Option.map_some,
    Option.some.injEq]
  split
  · exact ⟨fun same => by rw [← same], fun last => Prod.ext rfl last.symm⟩
  · exact close

end Mendpoint.Repair

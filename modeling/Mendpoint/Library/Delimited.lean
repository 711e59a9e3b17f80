import Mendpoint.Library.Text
import Mathlib.Data.List.Basic

/-!
# Delimited texts

Texts built from fields and separators.  A field which does not contain the
separator can be recovered, from the front or from the back; so a joined list
of fields is determined by the joined text as long as at most one field, at a
known place, may contain the separator.
-/

namespace Mendpoint.Library.Delimited

variable {sep : Char} {left right rest : List Char}

theorem append_cons_inj_front {sort : Char → Bool} {other : Char}
    {tail : List Char} (leftSort : ∀ char ∈ left, sort char = true)
    (rightSort : ∀ char ∈ right, sort char = true)
    (sepOut : sort sep = false) (otherOut : sort other = false)
    (equal : left ++ sep :: rest = right ++ other :: tail) :
    left = right ∧ sep = other ∧ rest = tail := by
  induction left generalizing right with
  | nil =>
    cases right with
    | nil => exact ⟨rfl, List.cons.inj equal⟩
    | cons char chars =>
      have same : sep = char := (List.cons.inj equal).1
      have inside := rightSort char List.mem_cons_self
      rw [← same, sepOut] at inside
      cases inside
  | cons char chars inductionHypothesis =>
    cases right with
    | nil =>
      have same : char = other := (List.cons.inj equal).1
      have inside := leftSort char List.mem_cons_self
      rw [same, otherOut] at inside
      cases inside
    | cons first others =>
      rcases List.cons.inj equal with ⟨same, tails⟩
      rcases inductionHypothesis
        (fun one member => leftSort one (List.mem_cons_of_mem _ member))
        (fun one member => rightSort one (List.mem_cons_of_mem _ member))
        tails with ⟨rfl, found⟩
      exact ⟨by rw [same], found⟩

theorem append_cons_inj_first {other : List Char} (leftFree : sep ∉ left)
    (rightFree : sep ∉ right)
    (equal : left ++ sep :: rest = right ++ sep :: other) :
    left = right ∧ rest = other := by
  induction left generalizing right with
  | nil =>
    cases right with
    | nil => exact ⟨rfl, (List.cons.inj equal).2⟩
    | cons char chars =>
      rw [List.mem_cons, not_or] at rightFree
      exact (rightFree.1 (List.cons.inj equal).1).elim
  | cons char chars inductionHypothesis =>
    rw [List.mem_cons, not_or] at leftFree
    cases right with
    | nil => exact (leftFree.1 (List.cons.inj equal).1.symm).elim
    | cons other others =>
      rw [List.mem_cons, not_or] at rightFree
      obtain ⟨same, tails⟩ := List.cons.inj equal
      obtain ⟨rfl, rests⟩ :=
        inductionHypothesis leftFree.2 rightFree.2 tails
      exact ⟨by rw [same], rests⟩

theorem append_cons_inj_last {other : List Char} (restFree : sep ∉ rest)
    (otherFree : sep ∉ other)
    (equal : left ++ sep :: rest = right ++ sep :: other) :
    left = right ∧ rest = other := by
  have reversed := congrArg List.reverse equal
  simp only [List.reverse_append, List.reverse_cons, List.append_assoc,
    List.singleton_append] at reversed
  obtain ⟨rests, lefts⟩ :=
    append_cons_inj_first (by simpa using restFree)
      (by simpa using otherFree) reversed
  exact ⟨List.reverse_injective lefts, List.reverse_injective rests⟩

/-- Fields with a separator between neighbours. -/
def joinChars (sep : Char) : List (List Char) → List Char
  | [] => []
  | [only] => only
  | first :: second :: rest => first ++ sep :: joinChars sep (second :: rest)

theorem joinChars_eq_intercalate (sep : Char) (parts : List (List Char)) :
    joinChars sep parts = [sep].intercalate parts := by
  induction parts with
  | nil => rfl
  | cons first rest inductionHypothesis =>
    cases rest with
    | nil => simp [joinChars]
    | cons second rest =>
      rw [joinChars, inductionHypothesis]
      simp [List.intercalate]

theorem toList_join (sep : Char) (parts : List String) :
    (Text.join (String.ofList [sep]) parts).toList =
      joinChars sep (parts.map String.toList) := by
  induction parts with
  | nil => rfl
  | cons first rest inductionHypothesis =>
    cases rest with
    | nil => rfl
    | cons second rest =>
      rw [Text.join, String.toList_append, String.toList_append,
        inductionHypothesis]
      simp [joinChars]

theorem joinChars_snoc (sep : Char) (first last : List Char)
    (middle : List (List Char)) :
    joinChars sep (first :: (middle ++ [last])) =
      joinChars sep (first :: middle) ++ sep :: last := by
  induction middle generalizing first with
  | nil => rfl
  | cons second rest inductionHypothesis =>
    rw [List.cons_append, joinChars, inductionHypothesis, joinChars]
    simp

theorem joinChars_inj_leading {front front' : List (List Char)}
    {mid mid' : List Char} {back back' : List (List Char)}
    (sameLength : front.length = front'.length)
    (free : ∀ field ∈ front, sep ∉ field)
    (free' : ∀ field ∈ front', sep ∉ field)
    (equal : joinChars sep (front ++ mid :: back) = joinChars sep (front' ++
      mid' :: back')) :
    front = front' ∧
      joinChars sep (mid :: back) = joinChars sep (mid' :: back') := by
  induction front generalizing front' with
  | nil =>
    cases front' with
    | nil => exact ⟨rfl, equal⟩
    | cons => simp at sameLength
  | cons first rest inductionHypothesis =>
    cases front' with
    | nil => simp at sameLength
    | cons first' rest' =>
      have split : ∀ (head : List Char) (fields : List (List Char))
          (middle : List Char) (tail : List (List Char)),
          joinChars sep (head :: fields ++ middle :: tail) =
            head ++ sep :: joinChars sep (fields ++ middle :: tail) := by
        intro head fields middle tail
        cases fields <;> rfl
      rw [split, split] at equal
      obtain ⟨rfl, tails⟩ :=
        append_cons_inj_first (free first (by simp))
          (free' first' (by simp)) equal
      obtain ⟨rfl, joined⟩ :=
        inductionHypothesis (by simpa using sameLength)
          (fun field member => free field (by simp [member]))
          (fun field member => free' field (by simp [member])) tails
      exact ⟨rfl, joined⟩

theorem joinChars_inj_trailing {mid mid' : List Char}
    {back back' : List (List Char)} (sameLength : back.length = back'.length)
    (free : ∀ field ∈ back, sep ∉ field)
    (free' : ∀ field ∈ back', sep ∉ field)
    (equal : joinChars sep (mid :: back) = joinChars sep (mid' :: back')) :
    mid = mid' ∧ back = back' := by
  induction back using List.reverseRecOn generalizing back' with
  | nil =>
    cases back' with
    | nil => exact ⟨equal, rfl⟩
    | cons => simp at sameLength
  | append_singleton rest last inductionHypothesis =>
    rcases List.eq_nil_or_concat back' with rfl | ⟨rest', last', rfl⟩
    · simp at sameLength
    · rw [List.concat_eq_append] at sameLength free' equal ⊢
      rw [joinChars_snoc, joinChars_snoc] at equal
      obtain ⟨lefts, rfl⟩ :=
        append_cons_inj_last (free last (by simp))
          (free' last' (by simp)) equal
      obtain ⟨rfl, rfl⟩ :=
        inductionHypothesis (by simpa using sameLength)
          (fun field member => free field (by simp [member]))
          (fun field member => free' field (by simp [member])) lefts
      exact ⟨rfl, rfl⟩

/--
A joined text determines its fields if only the field in the middle may
contain the separator.
-/
theorem join_inj {front front' : List String} {mid mid' : String}
    {back back' : List String} (frontLength : front.length = front'.length)
    (backLength : back.length = back'.length)
    (free : ∀ field ∈ front ++ back, sep ∉ field.toList)
    (free' : ∀ field ∈ front' ++ back', sep ∉ field.toList)
    (equal : Text.join (String.ofList [sep]) (front ++ mid :: back) =
      Text.join (String.ofList [sep]) (front' ++ mid' :: back')) :
    front = front' ∧ mid = mid' ∧ back = back' := by
  have chars := congrArg String.toList equal
  rw [toList_join, toList_join, List.map_append, List.map_append,
    List.map_cons, List.map_cons] at chars
  have mapped : ∀ {fields : List String},
      (∀ field ∈ fields, sep ∉ field.toList) →
        ∀ field ∈ fields.map String.toList, sep ∉ field := by
    intro fields absent field member
    obtain ⟨text, textMember, rfl⟩ := List.mem_map.mp member
    exact absent text textMember
  have injective := List.map_injective_iff.mpr
    (fun (left right : String) (same : left.toList = right.toList) =>
      String.toList_inj.mp same)
  obtain ⟨fronts, rests⟩ :=
    joinChars_inj_leading (by simpa using frontLength)
      (mapped fun field member =>
        free field (List.mem_append_left _ member))
      (mapped fun field member =>
        free' field (List.mem_append_left _ member)) chars
  obtain ⟨mids, backs⟩ :=
    joinChars_inj_trailing (by simpa using backLength)
      (mapped fun field member =>
        free field (List.mem_append_right _ member))
      (mapped fun field member =>
        free' field (List.mem_append_right _ member)) rests
  exact ⟨injective fronts, String.toList_inj.mp mids, injective backs⟩

/-! ## Numbers as fields -/

theorem not_mem_toString (notDigit : sep.isDigit = false) (number : Nat) :
    sep ∉ (toString number).toList := by
  intro member
  have digit : sep.isDigit = true :=
    Nat.isDigit_of_mem_toDigits (by decide) (by decide)
      (Nat.toList_repr ▸ member)
  simp [notDigit] at digit

theorem toString_inj {left right : Nat}
    (equal : toString left = toString right) : left = right := by
  have digits : Nat.toDigits 10 left = Nat.toDigits 10 right := by
    rw [← Nat.toList_repr, ← Nat.toList_repr]
    exact congrArg String.toList equal
  rw [← Nat.ofDigitChars_ten_toDigits (n := left), digits,
    Nat.ofDigitChars_ten_toDigits]

theorem mem_radixDigits {radix fuel number : Nat} {digits : List Char}
    {char : Char}
    (member : char ∈ Text.radixDigits radix fuel number digits) :
    (∃ digit, char = Text.radixDigit digit) ∨ char ∈ digits := by
  induction fuel generalizing number digits with
  | zero => exact Or.inr member
  | succ fuel inductionHypothesis =>
    rw [Text.radixDigits] at member
    have cases : ∀ tail,
        (∃ digit, char = Text.radixDigit digit) ∨
          char ∈ Text.radixDigit (number % radix) :: tail →
        (∃ digit, char = Text.radixDigit digit) ∨ char ∈ tail := by
      rintro tail (found | listed)
      · exact Or.inl found
      · rcases List.mem_cons.mp listed with rfl | rest
        · exact Or.inl ⟨_, rfl⟩
        · exact Or.inr rest
    by_cases last : number / radix = 0
    · exact cases digits (Or.inr (by simpa [last] using member))
    · exact cases digits
        (inductionHypothesis (by simpa [last] using member))

end Mendpoint.Library.Delimited

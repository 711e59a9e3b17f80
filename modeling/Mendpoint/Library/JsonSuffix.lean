import Mathlib.Data.List.Induction
import Mendpoint.Library.CanonicalJson

/-!
# JSON texts at the end of a text

Behind a colon, the text of a JSON value at the end of a text is determined:
no JSON text has another one at its end, with a colon, a comma or an opening
bracket in front of it.  Inside a text quotes stand behind backslashes, and
inside an array or an object its last member is determined first.
-/

namespace Mendpoint.Library.Json

variable {numerals : Numerals}

/-! ## Openings -/

/-- A value may follow: there is nothing in front of it, or an opening. -/
def Open (front : List Char) : Prop :=
  ∀ last ∈ front.getLast?, last = ':' ∨ last = ',' ∨ last = '[' ∨ last = '{'

theorem open_concat {front : List Char} {last : Char} :
    Open (front ++ [last]) ↔
      last = ':' ∨ last = ',' ∨ last = '[' ∨ last = '{' := by
  rw [Open, List.getLast?_concat]
  simp

theorem Open.of_append {front back : List Char} (isOpen : Open (front ++ back))
    (some' : back ≠ []) : Open back := by
  rcases List.eq_nil_or_concat' back with rfl | ⟨rest, last, rfl⟩
  · exact absurd rfl some'
  · rw [← List.append_assoc, open_concat] at isOpen
    exact open_concat.mpr isOpen

theorem Open.append {back : List Char} (isOpen : Open back)
    (some' : back ≠ []) (front : List Char) : Open (front ++ back) := by
  rcases List.eq_nil_or_concat' back with rfl | ⟨rest, last, rfl⟩
  · exact absurd rfl some'
  · rw [← List.append_assoc, open_concat]
    exact open_concat.mp isOpen

/-- A text has no other text behind an opening at its end. -/
def Uncut (long short : List Char) : Prop :=
  ∀ front, Open front → long = front ++ short → front = []

theorem front_eq {front back long short : List Char}
    (uncut : Uncut long short) (uncut' : Uncut short long)
    (isOpen : Open front) (isOpen' : Open back)
    (same : front ++ long = back ++ short) :
    front = back ∧ long = short := by
  rcases List.append_eq_append_iff.mp same with
    ⟨rest, rfl, isLong⟩ | ⟨rest, rfl, isShort⟩
  · cases rest with
    | nil => exact ⟨(List.append_nil _).symm, isLong⟩
    | cons first others =>
      cases uncut _ (isOpen'.of_append (List.cons_ne_nil _ _)) isLong
  · cases rest with
    | nil => exact ⟨List.append_nil _, isShort.symm⟩
    | cons first others =>
      cases uncut' _ (isOpen.of_append (List.cons_ne_nil _ _)) isShort

/-! ## The ends of texts -/

/-- A character which is neither a quote nor punctuation of JSON. -/
def isAtomic (char : Char) : Bool :=
  decide (char ∉ [':', ',', '[', ']', '{', '}', '"'])

/-- What the text of a value is, told by its last character. -/
theorem chars_last (value : Json) :
    (∀ char ∈ value.chars numerals, isAtomic char = true) ∨
      (∃ text, value = .str text) ∨ (∃ items, value = .arr items) ∨
        ∃ fields, value = .obj fields := by
  cases value with
  | null =>
    refine Or.inl ?_
    rw [chars]
    exact List.all_eq_true.mp rfl
  | bool value =>
    refine Or.inl ?_
    rw [chars]
    cases value with
    | false => exact List.all_eq_true.mp rfl
    | true => exact List.all_eq_true.mp rfl
  | num value =>
    refine Or.inl fun char member => ?_
    rw [chars] at member
    have numeral := numerals.numeric value char member
    rw [isAtomic, decide_eq_true_eq]
    intro inside
    simp only [List.mem_cons, List.not_mem_nil, or_false] at inside
    rcases inside with rfl | rfl | rfl | rfl | rfl | rfl | rfl <;>
      exact absurd numeral (by decide)
  | str text => exact Or.inr (Or.inl ⟨text, rfl⟩)
  | arr items => exact Or.inr (Or.inr (Or.inl ⟨items, rfl⟩))
  | obj fields => exact Or.inr (Or.inr (Or.inr ⟨fields, rfl⟩))

theorem atomic_uncut {long short : List Char}
    (atomic : ∀ char ∈ long, isAtomic char = true) : Uncut long short := by
  intro front isOpen same
  rcases List.eq_nil_or_concat' front with rfl | ⟨rest, last, rfl⟩
  · rfl
  · have inside : last ∈ long := by
      rw [same]
      simp
    have plain := atomic last inside
    rcases open_concat.mp isOpen with rfl | rfl | rfl | rfl <;> cases plain

/-! ## Members of a bracket -/

section Members

variable {α : Type} (opener : Char) (text : α → List Char)

/-- A further member of an open bracket. -/
def further (front : List Char) (item : α) : List Char :=
  front ++ (if front = [opener] then [] else [',']) ++ text item

/-- An open bracket with its members. -/
def opened (items : List α) : List Char :=
  items.foldl (further opener text) [opener]

variable {opener text} {items others : List α}

theorem opened_concat (item : α) :
    opened opener text (items ++ [item]) =
      further opener text (opened opener text items) item := by
  rw [opened, List.foldl_concat]
  rfl

theorem opened_ne_nil : opened opener text items ≠ [] := by
  induction items using List.reverseRecOn with
  | nil => exact List.cons_ne_nil _ _
  | append_singleton rest last inductionHypothesis =>
    rw [opened_concat, further, List.append_assoc]
    exact fun empty => inductionHypothesis (List.append_eq_nil_iff.mp empty).1

theorem opened_eq_opener (nonempty : ∀ item, text item ≠ []) :
    opened opener text items = [opener] ↔ items = [] := by
  constructor
  · intro same
    rcases List.eq_nil_or_concat' items with rfl | ⟨rest, last, rfl⟩
    · rfl
    · rw [opened_concat, further, List.append_assoc] at same
      have length := congrArg List.length same
      rw [List.length_append, List.length_append, List.length_singleton]
        at length
      have before := List.length_pos_of_ne_nil
        (@opened_ne_nil _ opener text rest)
      have after := List.length_pos_of_ne_nil (nonempty last)
      omega
  · rintro rfl
    rfl

/-- The end of a text which is no opening. -/
def Closed (chars : List Char) : Prop :=
  chars ≠ [] ∧ ¬ Open chars

theorem open_opened (isOpener : opener = '[' ∨ opener = '{') :
    Open (opened opener text items ++
      if opened opener text items = [opener] then [] else [',']) := by
  split
  · next only =>
      rw [only, List.append_nil]
      apply (@open_concat [] opener).mpr
      rcases isOpener with rfl | rfl
      · exact Or.inr (Or.inr (Or.inl rfl))
      · exact Or.inr (Or.inr (Or.inr rfl))
  · exact open_concat.mpr (Or.inr (Or.inl rfl))

/-- Where the members determine what is in front of them, the bracket does. -/
theorem opened_uncut (isOpener : opener = '[' ∨ opener = '{')
    (closed : ∀ item, Closed (text item))
    (sound : ∀ item ∈ items, ∀ other ∈ others, ∀ front back,
      Open front → Open back → front ++ text item = back ++ text other →
        front = back) :
    Uncut (opened opener text items) (opened opener text others) := by
  intro front isOpen same
  have nonempty (item : α) : text item ≠ [] := (closed item).1
  have ends (before : List Char) (item : α) : ¬ Open (before ++ text item) :=
    fun isOpen => (closed item).2 (isOpen.of_append (nonempty item))
  have start : Open [opener] := by
    have openStart := @open_opened _ opener text [] isOpener
    rw [if_pos ((opened_eq_opener nonempty).mpr rfl)] at openStart
    exact openStart
  induction items using List.reverseRecOn generalizing others with
  | nil =>
    have length := congrArg List.length same
    rw [opened, List.foldl_nil, List.length_append, List.length_singleton]
      at length
    have some' := List.length_pos_of_ne_nil
      (@opened_ne_nil _ opener text others)
    exact List.length_eq_zero_iff.mp (by omega)
  | append_singleton rest last inductionHypothesis =>
    rcases List.eq_nil_or_concat' others with rfl | ⟨more, final, rfl⟩
    · rw [opened_concat, further] at same
      have closing := ends (opened opener text rest ++
        if opened opener text rest = [opener] then [] else [',']) last
      rw [same] at closing
      exact absurd (start.append (List.cons_ne_nil _ _) front) closing
    · rw [opened_concat, opened_concat, further, further,
        ← List.append_assoc front] at same
      have openFinal := (@open_opened _ opener text more isOpener).append
        (fun empty => opened_ne_nil (List.append_eq_nil_iff.mp empty).1) front
      have fronts := sound last (List.mem_append_right _
        (List.mem_singleton.mpr rfl)) final (List.mem_append_right _
        (List.mem_singleton.mpr rfl)) _ _ (open_opened isOpener) openFinal
        same
      by_cases first : rest = []
      · rw [if_pos ((opened_eq_opener nonempty).mpr first),
          List.append_nil, first, opened, List.foldl_nil] at fronts
        have length := congrArg List.length fronts
        rw [List.length_append, List.length_append, List.length_singleton]
          at length
        have some' := List.length_pos_of_ne_nil
          (@opened_ne_nil _ opener text more)
        exact List.length_eq_zero_iff.mp (by omega)
      · rw [if_neg (mt (opened_eq_opener nonempty).mp first)] at fronts
        by_cases firstOther : more = []
        · rw [if_pos ((opened_eq_opener nonempty).mpr firstOther),
            List.append_nil, firstOther] at fronts
          have lasts := congrArg List.getLast? fronts
          rw [List.getLast?_concat] at lasts
          rw [show opened opener text [] = [opener] from rfl,
            List.getLast?_concat, Option.some.injEq] at lasts
          rcases isOpener with rfl | rfl <;> cases lasts
        · rw [if_neg (mt (opened_eq_opener nonempty).mp firstOther),
            ← List.append_assoc] at fronts
          exact inductionHypothesis (fun item member other inside =>
            sound item (List.mem_append_left _ member) other
              (List.mem_append_left _ inside))
            (List.append_cancel_right fronts)

theorem length_text_lt {item : α} (member : item ∈ items) :
    (text item).length < (opened opener text items).length := by
  induction items using List.reverseRecOn with
  | nil => cases member
  | append_singleton rest last inductionHypothesis =>
    rw [opened_concat, further, List.length_append, List.length_append]
    rcases List.mem_append.mp member with before | isLast
    · have shorter := inductionHypothesis before
      omega
    · cases List.mem_singleton.mp isLast
      have some' := List.length_pos_of_ne_nil
        (@opened_ne_nil _ opener text rest)
      omega

/-- A bracket which is written from the front is an open one, closed. -/
theorem opened_eq {closer : Char} {all more : List α → List Char}
    (nonempty : ∀ item, text item ≠ []) (isOpener : opener ≠ ',')
    (none' : all [] = [closer]) (noMore : more [] = [closer])
    (some' : ∀ item rest, all (item :: rest) = text item ++ more rest)
    (someMore : ∀ item rest,
      more (item :: rest) = ',' :: (text item ++ more rest)) :
    opener :: all items = opened opener text items ++ [closer] := by
  have later (rest : List α) : ∀ front, front ≠ [opener] →
      front ++ more rest =
        rest.foldl (further opener text) front ++ [closer] := by
    induction rest with
    | nil =>
      intro front _
      rw [noMore, List.foldl_nil]
    | cons next rest inductionHypothesis =>
      intro front other
      have longer : further opener text front next ≠ [opener] := by
        rw [further, if_neg other]
        intro same
        have inside : ',' ∈ [opener] := by
          rw [← same]
          simp
        exact isOpener (List.mem_singleton.mp inside).symm
      rw [List.foldl_cons, ← inductionHypothesis _ longer, someMore, further,
        if_neg other]
      simp
  cases items with
  | nil =>
    rw [none']
    rfl
  | cons first rest =>
    have longer : further opener text [opener] first ≠ [opener] := by
      rw [further, if_pos rfl]
      intro same
      exact nonempty first (List.append_cancel_left
        (same.trans (List.append_nil [opener]).symm))
    rw [some', opened, List.foldl_cons, ← later rest _ longer, further,
      if_pos rfl]
    simp

end Members

/-! ## Quoted texts -/

theorem jsonChar_quote (char : Char) :
    Text.jsonChar char = ['\\', '"'] ∨ '"' ∉ Text.jsonChar char := by
  by_cases control : char.toNat < 0x20
  · have isControl : char = Char.ofNat char.toNat :=
      (Char.ofNat_toNat char).symm
    generalize char.toNat = number at control isControl
    subst isControl
    interval_cases number
    all_goals exact Or.inr (by decide)
  · rw [Text.jsonChar]
    split
    · exact Or.inl rfl
    · next notQuote =>
        split
        · exact Or.inr (by decide)
        · rw [if_neg (by omega), if_neg (by omega), if_neg (by omega),
            if_neg (by omega), if_neg (by omega)]
          exact Or.inr fun member =>
            notQuote (List.mem_singleton.mp member).symm

/-- Inside a quoted text, a quote stands behind a backslash. -/
theorem quote_escaped {text before after : List Char}
    (same : text.flatMap Text.jsonChar = before ++ '"' :: after) :
    ∃ front, before = front ++ ['\\'] := by
  induction text generalizing before with
  | nil =>
    rw [List.flatMap_nil] at same
    exact absurd same.symm (by simp)
  | cons char rest inductionHypothesis =>
    rw [List.flatMap_cons] at same
    rcases List.append_eq_append_iff.mp same with
      ⟨others, rfl, later⟩ | ⟨others, here, later⟩
    · rcases inductionHypothesis later with ⟨front, rfl⟩
      exact ⟨Text.jsonChar char ++ front, (List.append_assoc _ _ _).symm⟩
    · cases others with
      | nil =>
        rcases @inductionHypothesis [] later.symm with ⟨front, impossible⟩
        exact absurd impossible.symm (by simp)
      | cons first tail =>
        cases (List.cons.inj later).1
        rcases jsonChar_quote char with quote | plain
        · rw [quote] at here
          cases before with
          | nil => cases here
          | cons slash more =>
            cases more with
            | nil => exact ⟨[], by rw [(List.cons.inj here).1]; rfl⟩
            | cons _ _ =>
              have lengths := congrArg List.length here
              simp at lengths
        · rw [here] at plain
          exact absurd (List.mem_append_right _ List.mem_cons_self) plain

/-! ## Values -/

/-- The name of a member with its value. -/
def fieldChars (numerals : Numerals) (field : String × Json) : List Char :=
  (chars numerals (.str field.1) ++ [':']) ++ chars numerals field.2

variable {value other : Json}

theorem chars_ne_nil : chars numerals value ≠ [] := by
  rcases chars_first numerals value with ⟨first, rest, text, _⟩
  rw [text]
  exact List.cons_ne_nil _ _

theorem fieldChars_ne_nil (field : String × Json) :
    fieldChars numerals field ≠ [] :=
  fun empty => chars_ne_nil (List.append_eq_nil_iff.mp empty).2

theorem chars_str (text : String) :
    chars numerals (.str text) =
      '"' :: text.toList.flatMap Text.jsonChar ++ ['"'] := by
  rw [chars]
  rfl

theorem chars_arr (items : List Json) :
    chars numerals (.arr items) =
      opened '[' (chars numerals) items ++ [']'] := by
  rw [chars]
  exact @opened_eq _ '[' (chars numerals) items ']' (itemsChars numerals)
    (moreItems numerals) (fun _ => chars_ne_nil) (by decide)
    (by rw [itemsChars]) (by rw [moreItems]) (fun _ _ => by rw [itemsChars])
    (fun _ _ => by rw [moreItems])

theorem chars_obj (fields : List (String × Json)) :
    chars numerals (.obj fields) =
      opened '{' (fieldChars numerals) fields ++ ['}'] := by
  rw [chars]
  refine @opened_eq _ '{' (fieldChars numerals) fields '}'
    (fieldsChars numerals) (moreFields numerals) fieldChars_ne_nil
    (by decide) (by rw [fieldsChars]) (by rw [moreFields])
    (fun field rest => ?_) (fun field rest => ?_)
  · rcases field with ⟨key, first⟩
    rw [fieldsChars, fieldChars, chars_str, Text.quoted]
    simp
  · rcases field with ⟨key, next⟩
    rw [moreFields, fieldChars, chars_str, Text.quoted]
    simp

theorem closed_chars : Closed (chars numerals value) := by
  refine ⟨chars_ne_nil, fun isOpen => ?_⟩
  rcases @chars_last numerals value with
    atomic | ⟨text, rfl⟩ | ⟨items, rfl⟩ | ⟨fields, rfl⟩
  · exact chars_ne_nil (@atomic_uncut _ [] atomic _ isOpen
      (List.append_nil _).symm)
  · rw [chars_str, open_concat] at isOpen
    revert isOpen
    decide
  · rw [chars_arr, open_concat] at isOpen
    revert isOpen
    decide
  · rw [chars_obj, open_concat] at isOpen
    revert isOpen
    decide

theorem closed_fieldChars (field : String × Json) :
    Closed (fieldChars numerals field) :=
  ⟨fieldChars_ne_nil field, fun isOpen => closed_chars.2
    (isOpen.of_append chars_ne_nil)⟩

/-- The last character of a text which is no atom tells its kind. -/
theorem kind_of_last {front : List Char} {last : Char}
    (same : chars numerals value = front ++ [last]) :
    (last = '"' → ∃ text, value = .str text) ∧
      (last = ']' → ∃ items, value = .arr items) ∧
      (last = '}' → ∃ fields, value = .obj fields) := by
  have lastOf {before : List Char} {char : Char}
      (text : chars numerals value = before ++ [char]) : last = char := by
    have lasts := congrArg List.getLast? (same.symm.trans text)
    rw [List.getLast?_concat, List.getLast?_concat] at lasts
    exact Option.some.inj lasts
  rcases @chars_last numerals value with
    atomic | ⟨text, rfl⟩ | ⟨items, rfl⟩ | ⟨fields, rfl⟩
  · have plain := atomic last (by rw [same]; simp)
    refine ⟨?_, ?_, ?_⟩ <;> rintro rfl <;> cases plain
  · cases lastOf (chars_str text)
    exact ⟨fun _ => ⟨text, rfl⟩, fun other => (by cases other),
      fun other => (by cases other)⟩
  · cases lastOf (chars_arr items)
    exact ⟨fun other => (by cases other), fun _ => ⟨items, rfl⟩,
      fun other => (by cases other)⟩
  · cases lastOf (chars_obj fields)
    exact ⟨fun other => (by cases other), fun other => (by cases other),
      fun _ => ⟨fields, rfl⟩⟩

/-- A text which ends in another ends in the last character of it. -/
theorem exists_last {long front : List Char} {last : Char}
    (same : long ++ [last] = front ++ chars numerals value) :
    ∃ before, chars numerals value = before ++ [last] := by
  rcases List.eq_nil_or_concat' (chars numerals value) with
    empty | ⟨before, char, text⟩
  · exact absurd empty chars_ne_nil
  · rw [text, ← List.append_assoc] at same
    have lasts := congrArg List.getLast? same
    rw [List.getLast?_concat, List.getLast?_concat] at lasts
    rw [Option.some.inj lasts]
    exact ⟨before, text⟩

theorem str_uncut (text : String) :
    Uncut (chars numerals (.str text)) (chars numerals value) := by
  intro front isOpen same
  rw [chars_str] at same
  rcases exists_last same with ⟨before, ends⟩
  rcases (kind_of_last ends).1 rfl with ⟨other, rfl⟩
  rw [chars_str, ← List.append_assoc] at same
  have inner := List.append_cancel_right same
  cases front with
  | nil => rfl
  | cons quote front =>
    rcases quote_escaped (List.cons.inj inner).2 with ⟨rest, rfl⟩
    rw [← List.cons_append, open_concat] at isOpen
    rcases isOpen with same | same | same | same <;> cases same

theorem field_sound {field otherField : String × Json}
    {front back : List Char}
    (uncut : Uncut (chars numerals field.2) (chars numerals otherField.2))
    (uncut' : Uncut (chars numerals otherField.2) (chars numerals field.2))
    (isOpen : Open front) (isOpen' : Open back)
    (same : front ++ fieldChars numerals field =
      back ++ fieldChars numerals otherField) : front = back := by
  have colon (front : List Char) : Open (front ++ [':']) :=
    open_concat.mpr (Or.inl rfl)
  rw [fieldChars, fieldChars, ← List.append_assoc, ← List.append_assoc,
    ← List.append_assoc, ← List.append_assoc] at same
  have names := List.append_cancel_right
    (front_eq uncut uncut' (colon _) (colon _) same).1
  exact (front_eq (str_uncut _) (str_uncut _) isOpen isOpen' names).1

/-- No JSON text has another one at its end, behind an opening. -/
theorem chars_uncut (value other : Json) :
    Uncut (chars numerals value) (chars numerals other) := by
  induction length : (chars numerals value).length using
    Nat.strong_induction_on generalizing value other with
  | _ length inductionHypothesis =>
    subst length
    have shorter (one two : Json)
        (less : (chars numerals one).length <
          (chars numerals value).length) :
        Uncut (chars numerals one) (chars numerals two) :=
      inductionHypothesis _ less one two rfl
    rcases @chars_last numerals value with
      atomic | ⟨text, rfl⟩ | ⟨items, rfl⟩ | ⟨fields, rfl⟩
    · exact atomic_uncut atomic
    · exact str_uncut text
    · intro front isOpen same
      rw [chars_arr] at same shorter
      rcases exists_last same with ⟨before, ends⟩
      rcases (kind_of_last ends).2.1 rfl with ⟨others, rfl⟩
      rw [chars_arr, ← List.append_assoc] at same
      rw [List.length_append] at shorter
      have brackets := List.append_cancel_right same
      have total := congrArg List.length brackets
      rw [List.length_append] at total
      refine opened_uncut (Or.inl rfl) (fun _ => closed_chars) ?_ front
        isOpen brackets
      intro one isOne two isTwo front back openFront openBack sameTexts
      have lessOne := @length_text_lt _ '[' (chars numerals) _ _ isOne
      have lessTwo := @length_text_lt _ '[' (chars numerals) _ _ isTwo
      exact (front_eq (shorter one two (by omega))
        (shorter two one (by omega)) openFront openBack sameTexts).1
    · intro front isOpen same
      rw [chars_obj] at same shorter
      rcases exists_last same with ⟨before, ends⟩
      rcases (kind_of_last ends).2.2 rfl with ⟨others, rfl⟩
      rw [chars_obj, ← List.append_assoc] at same
      rw [List.length_append] at shorter
      have brackets := List.append_cancel_right same
      have total := congrArg List.length brackets
      rw [List.length_append] at total
      refine opened_uncut (Or.inr rfl) closed_fieldChars ?_ front isOpen
        brackets
      intro one isOne two isTwo front back openFront openBack sameTexts
      have lessOne := @length_text_lt _ '{' (fieldChars numerals) _ _ isOne
      have lessTwo := @length_text_lt _ '{' (fieldChars numerals) _ _ isTwo
      rw [fieldChars, List.length_append] at lessOne lessTwo
      exact field_sound (shorter one.2 two.2 (by omega))
        (shorter two.2 one.2 (by omega)) openFront openBack sameTexts

/-- Behind an opening, the value at the end of a text is determined. -/
theorem append_chars_inj {front back : List Char} (isOpen : Open front)
    (isOpen' : Open back)
    (same : front ++ chars numerals value = back ++ chars numerals other) :
    front = back ∧ value = other := by
  rcases front_eq (chars_uncut value other) (chars_uncut other value) isOpen
    isOpen' same with ⟨fronts, texts⟩
  refine ⟨fronts, (@chars_append_inj numerals value other [] [] ends_nil
    ends_nil ?_).1⟩
  rw [texts]

end Mendpoint.Library.Json

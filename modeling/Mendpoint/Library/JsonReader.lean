import Mendpoint.Library.JsonText

/-!
# Reading JSON texts

`JSON.parse` of the texts which `JSON.stringify` writes: what was written is
read back, and nothing of the text is left.
-/

namespace Mendpoint.Library

namespace Text

/-- A quoted text up to its closing quote, and what follows it. -/
def readQuoted : Nat → List Char → Option (List Char × List Char)
  | 0, _ => none
  | fuel + 1, chars =>
    match chars with
    | [] => none
    | first :: rest =>
      if first = '"' then some ([], rest)
      else
        (readQuoted fuel (chars.drop (codeLength chars))).map
          fun (text, rest) =>
            (charOfCode (chars.take (codeLength chars)) :: text, rest)

theorem readQuoted_quoted (chars rest : List Char) {fuel : Nat}
    (enough : chars.length < fuel) :
    readQuoted fuel (quoted chars ++ rest) = some (chars, rest) := by
  induction chars generalizing fuel with
  | nil =>
    cases fuel with
    | zero => exact absurd enough (Nat.not_lt_zero _)
    | succ fuel => rfl
  | cons char chars inductionHypothesis =>
    cases fuel with
    | zero => exact absurd enough (Nat.not_lt_zero _)
    | succ fuel =>
      have front : quoted (char :: chars) ++ rest =
          jsonChar char ++ (quoted chars ++ rest) := by
        simp only [quoted, List.flatMap_cons, List.append_assoc]
      obtain ⟨decoded, lengths, first, others, code, notQuote⟩ :=
        jsonChar_spec char (quoted chars ++ rest)
      have read := inductionHypothesis (Nat.lt_of_succ_lt_succ enough)
      have begins : jsonChar char ++ (quoted chars ++ rest) =
          first :: (others ++ (quoted chars ++ rest)) := by
        rw [code, List.cons_append]
      rw [front, begins, readQuoted]
      dsimp only
      rw [if_neg notQuote, ← begins, lengths, List.drop_left,
        List.take_left, read, Option.map_some, decoded]

end Text

namespace Written

/-! ## The reader -/

/-- The number of a numeral. -/
def intOf : List Char → Option Int
  | [] => none
  | first :: digits =>
    if first = '-' then some (-(Nat.ofDigitChars 10 digits 0 : Int))
    else some (Nat.ofDigitChars 10 (first :: digits) 0 : Int)

/-- A whole number, and what follows its numeral. -/
def readInt (chars : List Char) : Option (Written × List Char) :=
  (intOf (chars.takeWhile isNumeral)).map fun value =>
    (.int value, chars.dropWhile isNumeral)

/-- A literal or a whole number, and what follows it. -/
def readWord (chars : List Char) : Option (Written × List Char) :=
  if ['n', 'u', 'l', 'l'].isPrefixOf chars then some (.null, chars.drop 4)
  else if ['t', 'r', 'u', 'e'].isPrefixOf chars then
    some (.bool true, chars.drop 4)
  else if ['f', 'a', 'l', 's', 'e'].isPrefixOf chars then
    some (.bool false, chars.drop 5)
  else readInt chars

mutual

/-- A value at the front of a text, and what follows it. -/
def read : Nat → List Char → Option (Written × List Char)
  | 0, _ => none
  | _ + 1, [] => none
  | fuel + 1, first :: rest =>
    if first = '"' then
      (Text.readQuoted (rest.length + 1) rest).map fun (text, rest) =>
        (.str (String.ofList text), rest)
    else if first = '[' then
      (readItems fuel rest).map fun (items, rest) => (.arr items, rest)
    else if first = '{' then
      (readFields fuel rest).map fun (fields, rest) => (.obj fields, rest)
    else readWord (first :: rest)

/-- The items of an array behind its opening bracket. -/
def readItems : Nat → List Char → Option (List Written × List Char)
  | 0, _ => none
  | _ + 1, [] => none
  | fuel + 1, first :: rest =>
    if first = ']' then some ([], rest)
    else
      (read fuel (first :: rest)).bind fun (item, rest) =>
        (readMoreItems fuel rest).map fun (items, rest) =>
          (item :: items, rest)

/-- The items of an array behind one of them. -/
def readMoreItems : Nat → List Char → Option (List Written × List Char)
  | 0, _ => none
  | _ + 1, [] => none
  | fuel + 1, first :: rest =>
    if first = ']' then some ([], rest)
    else if first = ',' then
      (read fuel rest).bind fun (item, rest) =>
        (readMoreItems fuel rest).map fun (items, rest) =>
          (item :: items, rest)
    else none

/-- The fields of an object behind its opening brace. -/
def readFields :
    Nat → List Char → Option (List (String × Written) × List Char)
  | 0, _ => none
  | _ + 1, [] => none
  | fuel + 1, first :: rest =>
    if first = '}' then some ([], rest)
    else
      (readField fuel (first :: rest)).bind fun (field, rest) =>
        (readMoreFields fuel rest).map fun (fields, rest) =>
          (field :: fields, rest)

/-- The fields of an object behind one of them. -/
def readMoreFields :
    Nat → List Char → Option (List (String × Written) × List Char)
  | 0, _ => none
  | _ + 1, [] => none
  | fuel + 1, first :: rest =>
    if first = '}' then some ([], rest)
    else if first = ',' then
      (readField fuel rest).bind fun (field, rest) =>
        (readMoreFields fuel rest).map fun (fields, rest) =>
          (field :: fields, rest)
    else none

/-- A field of an object. -/
def readField : Nat → List Char → Option ((String × Written) × List Char)
  | 0, _ => none
  | _ + 1, [] => none
  | fuel + 1, first :: rest =>
    if first = '"' then
      (Text.readQuoted (rest.length + 1) rest).bind fun (key, rest) =>
        match rest with
        | [] => none
        | colon :: rest =>
          if colon = ':' then
            (read fuel rest).map fun (value, rest) =>
              ((String.ofList key, value), rest)
          else none
    else none

end

/-- `JSON.parse(text)` -/
def parse? (text : String) : Option Written :=
  match read text.toList.length text.toList with
  | some (value, []) => some value
  | _ => none

/-! ## What is written is read back -/

/-- A text which does not go on with a numeral. -/
def Closed (rest : List Char) : Prop :=
  ∀ first others, rest = first :: others → isNumeral first = false

theorem closed_nil : Closed [] := by
  intro first others impossible
  cases impossible

theorem closed_cons {first : Char} (rest : List Char)
    (other : isNumeral first = false) : Closed (first :: rest) := by
  intro head tail same
  cases same
  exact other

variable {rest : List Char}

theorem span_numeral {numeral : List Char}
    (numeric : ∀ char ∈ numeral, isNumeral char = true)
    (closed : Closed rest) :
    (numeral ++ rest).takeWhile isNumeral = numeral ∧
      (numeral ++ rest).dropWhile isNumeral = rest := by
  induction numeral with
  | nil =>
    cases rest with
    | nil => exact ⟨rfl, rfl⟩
    | cons first others =>
      have other := closed first others rfl
      rw [List.nil_append, List.takeWhile_cons, List.dropWhile_cons,
        other]
      exact ⟨rfl, rfl⟩
  | cons first others inductionHypothesis =>
    rw [List.forall_mem_cons] at numeric
    obtain ⟨taken, dropped⟩ := inductionHypothesis numeric.2
    rw [List.cons_append, List.takeWhile_cons, List.dropWhile_cons,
      numeric.1, taken, dropped]
    exact ⟨rfl, rfl⟩

theorem ofDigitChars_toString (number : Nat) :
    Nat.ofDigitChars 10 (toString number).toList 0 = number := by
  have digits : (toString number).toList = Nat.toDigits 10 number :=
    Nat.toList_repr
  rw [digits, Nat.ofDigitChars_ten_toDigits]

theorem intOf_intChars (value : Int) :
    intOf (intChars value) = some value := by
  rw [intChars]
  split
  · next nonneg =>
      cases digits : (toString value.toNat).toList with
      | nil =>
        exact absurd (String.toList_inj.mp digits) Nat.repr_ne_empty
      | cons first rest =>
        have digit := numeral_toString value.toNat first
          (digits ▸ List.mem_cons_self)
        have unsigned : first ≠ '-' := by
          rintro rfl
          cases digit
        rw [intOf, if_neg unsigned, ← digits, ofDigitChars_toString,
          Int.toNat_of_nonneg nonneg]
  · next negative =>
      rw [intOf, if_pos rfl, ofDigitChars_toString,
        Int.toNat_of_nonneg (by omega), Int.neg_neg]

theorem readInt_intChars (value : Int) (closed : Closed rest) :
    readInt (intChars value ++ rest) = some (.int value, rest) := by
  obtain ⟨taken, dropped⟩ := span_numeral (numeral_intChars value) closed
  rw [readInt, taken, dropped, intOf_intChars, Option.map_some]

theorem first_intChars (value : Int) :
    ∃ first rest, intChars value = first :: rest ∧
      isNumeral first = true := by
  cases numeral : intChars value with
  | nil => exact absurd numeral (intChars_ne_nil value)
  | cons first rest =>
    exact ⟨first, rest, rfl,
      numeral_intChars value first (numeral ▸ List.mem_cons_self)⟩

theorem readQuoted_rest (chars rest : List Char) :
    Text.readQuoted ((Text.quoted chars ++ rest).length + 1)
      (Text.quoted chars ++ rest) = some (chars, rest) := by
  apply Text.readQuoted_quoted
  have longer : ∀ chars : List Char,
      chars.length ≤ (chars.flatMap Text.jsonChar).length := by
    intro chars
    induction chars with
    | nil => exact Nat.le_refl _
    | cons char chars inductionHypothesis =>
      obtain ⟨first, others, code, _⟩ := (Text.jsonChar_spec char []).2.2
      rw [List.flatMap_cons, code, List.length_append, List.length_cons,
        List.length_cons]
      omega
  have here := longer chars
  rw [Text.quoted, List.length_append, List.length_append]
  omega

theorem readWord_intChars (value : Int) (closed : Closed rest) :
    readWord (intChars value ++ rest) = some (.int value, rest) := by
  obtain ⟨first, others, numeral, numeric⟩ := first_intChars value
  have differs : ∀ {letter : Char} {word : List Char},
      isNumeral letter = false →
        (letter :: word).isPrefixOf (intChars value ++ rest) = false := by
    intro letter word other
    rw [numeral, List.cons_append, List.isPrefixOf]
    have different : letter ≠ first := by
      rintro rfl
      rw [numeric] at other
      cases other
    rw [beq_false_of_ne different, Bool.false_and]
  rw [readWord, differs (by decide), differs (by decide),
    differs (by decide)]
  exact readInt_intChars value closed

theorem read_int (value : Int) (closed : Closed rest) (fuel : Nat) :
    read (fuel + 1) (intChars value ++ rest) = some (.int value, rest) := by
  have word := readWord_intChars value closed
  obtain ⟨first, others, numeral, numeric⟩ := first_intChars value
  rw [numeral, List.cons_append] at word ⊢
  have different : ∀ char, isNumeral char = false → first ≠ char := by
    rintro char other rfl
    rw [numeric] at other
    cases other
  rw [read, if_neg (different '"' (by decide)),
    if_neg (different '[' (by decide)), if_neg (different '{' (by decide))]
  exact word

theorem chars_pos (value : Written) : 0 < (chars value).length := by
  cases value with
  | null => decide
  | bool value =>
    cases value with
    | false => decide
    | true => decide
  | int value => exact List.length_pos_of_ne_nil (intChars_ne_nil value)
  | str value => exact Nat.zero_lt_succ _
  | arr items => exact Nat.zero_lt_succ _
  | obj fields => exact Nat.zero_lt_succ _

theorem first_chars (value : Written) (rest : List Char) :
    ∃ first others, chars value ++ rest = first :: others ∧
      first ≠ ']' ∧ first ≠ '}' := by
  cases value with
  | null => exact ⟨'n', _, rfl, by decide, by decide⟩
  | bool value =>
    cases value with
    | false => exact ⟨'f', _, rfl, by decide, by decide⟩
    | true => exact ⟨'t', _, rfl, by decide, by decide⟩
  | int value =>
    obtain ⟨first, others, numeral, numeric⟩ := first_intChars value
    refine ⟨first, others ++ rest, ?_, ?_, ?_⟩
    · rw [chars, numeral, List.cons_append]
    · rintro rfl
      cases numeric
    · rintro rfl
      cases numeric
  | str value => exact ⟨'"', _, rfl, by decide, by decide⟩
  | arr items => exact ⟨'[', _, rfl, by decide, by decide⟩
  | obj fields => exact ⟨'{', _, rfl, by decide, by decide⟩

theorem closed_moreItems (items : List Written) (rest : List Char) :
    Closed (moreItems items ++ rest) := by
  cases items with
  | nil => exact closed_cons _ (by decide)
  | cons next items => exact closed_cons _ (by decide)

theorem closed_moreFields (fields : List (String × Written))
    (rest : List Char) : Closed (moreFields fields ++ rest) := by
  cases fields with
  | nil => exact closed_cons _ (by decide)
  | cons next fields => exact closed_cons _ (by decide)

theorem moreItems_pos (items : List Written) :
    0 < (moreItems items).length := by
  cases items with
  | nil => exact Nat.zero_lt_one
  | cons item items => exact Nat.zero_lt_succ _

theorem quoted_pos (chars : List Char) :
    0 < (Text.quoted chars).length := by
  rw [Text.quoted, List.length_append]
  exact Nat.lt_of_lt_of_le Nat.zero_lt_one (Nat.le_add_left _ _)

theorem readField_of_read (key : String) {value : Written} {fuel : Nat}
    (here : read fuel (chars value ++ rest) = some (value, rest)) :
    readField (fuel + 1)
        ('"' :: (Text.quoted key.toList ++ ':' :: (chars value ++ rest))) =
      some ((key, value), rest) := by
  rw [readField, if_pos rfl, readQuoted_rest, Option.bind_some]
  dsimp only
  rw [if_pos rfl, here, Option.map_some]
  dsimp only
  rw [String.ofList_toList]

theorem fieldsChars_append (key : String) (value : Written)
    (fields : List (String × Written)) (rest : List Char) :
    fieldsChars ((key, value) :: fields) ++ rest =
      '"' :: (Text.quoted key.toList ++
        ':' :: (chars value ++ (moreFields fields ++ rest))) := by
  simp only [fieldsChars, List.cons_append, List.append_assoc]

theorem moreFields_append (key : String) (value : Written)
    (fields : List (String × Written)) (rest : List Char) :
    moreFields ((key, value) :: fields) ++ rest =
      ',' :: '"' :: (Text.quoted key.toList ++
        ':' :: (chars value ++ (moreFields fields ++ rest))) := by
  simp only [moreFields, List.cons_append, List.append_assoc]

mutual

theorem read_chars (value : Written) {fuel : Nat} {rest : List Char}
    (enough : (chars value).length ≤ fuel) (closed : Closed rest) :
    read fuel (chars value ++ rest) = some (value, rest) := by
  cases fuel with
  | zero => exact absurd (chars_pos value) (Nat.not_lt.mpr enough)
  | succ fuel =>
    cases value with
    | null => rfl
    | bool value =>
      cases value with
      | false => rfl
      | true => rfl
    | int value => exact read_int value closed fuel
    | str value =>
      show (Text.readQuoted
        ((Text.quoted value.toList ++ rest).length + 1)
        (Text.quoted value.toList ++ rest)).map _ = _
      rw [readQuoted_rest, Option.map_some]
      dsimp only
      rw [String.ofList_toList]
    | arr items =>
      have inside : (itemsChars items).length ≤ fuel :=
        Nat.le_of_succ_le_succ enough
      show (readItems fuel (itemsChars items ++ rest)).map _ = _
      rw [readItems_chars items inside rest, Option.map_some]
    | obj fields =>
      have inside : (fieldsChars fields).length ≤ fuel :=
        Nat.le_of_succ_le_succ enough
      show (readFields fuel (fieldsChars fields ++ rest)).map _ = _
      rw [readFields_chars fields inside rest, Option.map_some]

theorem readItems_chars (items : List Written) {fuel : Nat}
    (enough : (itemsChars items).length ≤ fuel) (rest : List Char) :
    readItems fuel (itemsChars items ++ rest) = some (items, rest) := by
  cases items with
  | nil =>
    cases fuel with
    | zero => cases enough
    | succ fuel => rfl
  | cons item items =>
    rw [itemsChars, List.length_append] at enough
    have first := chars_pos item
    cases fuel with
    | zero => omega
    | succ fuel =>
      have more := moreItems_pos items
      rw [itemsChars, List.append_assoc]
      have here : read fuel (chars item ++ (moreItems items ++ rest)) =
          some (item, moreItems items ++ rest) :=
        read_chars item (by omega) (closed_moreItems items rest)
      obtain ⟨head, tail, front, notEnd, _⟩ :=
        first_chars item (moreItems items ++ rest)
      rw [front] at here ⊢
      rw [readItems, if_neg notEnd, here, Option.bind_some]
      dsimp only
      rw [readMoreItems_chars items (by omega) rest, Option.map_some]

theorem readMoreItems_chars (items : List Written) {fuel : Nat}
    (enough : (moreItems items).length ≤ fuel) (rest : List Char) :
    readMoreItems fuel (moreItems items ++ rest) = some (items, rest) := by
  cases items with
  | nil =>
    cases fuel with
    | zero => cases enough
    | succ fuel => rfl
  | cons item items =>
    rw [moreItems, List.length_cons, List.length_append] at enough
    have first := chars_pos item
    cases fuel with
    | zero => omega
    | succ fuel =>
      have here : read fuel (chars item ++ (moreItems items ++ rest)) =
          some (item, moreItems items ++ rest) :=
        read_chars item (by omega) (closed_moreItems items rest)
      rw [moreItems, List.cons_append, List.append_assoc, readMoreItems,
        if_neg (by decide), if_pos rfl, here, Option.bind_some]
      dsimp only
      rw [readMoreItems_chars items (by omega) rest, Option.map_some]

theorem readFields_chars (fields : List (String × Written)) {fuel : Nat}
    (enough : (fieldsChars fields).length ≤ fuel) (rest : List Char) :
    readFields fuel (fieldsChars fields ++ rest) = some (fields, rest) := by
  cases fields with
  | nil =>
    cases fuel with
    | zero => cases enough
    | succ fuel => rfl
  | cons field fields =>
    obtain ⟨key, value⟩ := field
    rw [fieldsChars, List.length_cons, List.length_append,
      List.length_cons, List.length_append] at enough
    have named := quoted_pos key.toList
    match fuel, enough with
    | fuel + 2, enough =>
      have here : read fuel (chars value ++ (moreFields fields ++ rest)) =
          some (value, moreFields fields ++ rest) :=
        read_chars value (by omega) (closed_moreFields fields rest)
      rw [fieldsChars_append, readFields, if_neg (by decide),
        readField_of_read key here, Option.bind_some]
      dsimp only
      rw [readMoreFields_chars fields (by omega) rest, Option.map_some]

theorem readMoreFields_chars (fields : List (String × Written)) {fuel : Nat}
    (enough : (moreFields fields).length ≤ fuel) (rest : List Char) :
    readMoreFields fuel (moreFields fields ++ rest) = some (fields, rest) := by
  cases fields with
  | nil =>
    cases fuel with
    | zero => cases enough
    | succ fuel => rfl
  | cons field fields =>
    obtain ⟨key, value⟩ := field
    rw [moreFields, List.length_cons, List.length_cons,
      List.length_append, List.length_cons, List.length_append] at enough
    have named := quoted_pos key.toList
    match fuel, enough with
    | fuel + 2, enough =>
      have here : read fuel (chars value ++ (moreFields fields ++ rest)) =
          some (value, moreFields fields ++ rest) :=
        read_chars value (by omega) (closed_moreFields fields rest)
      rw [moreFields_append, readMoreFields, if_neg (by decide),
        if_pos rfl, readField_of_read key here, Option.bind_some]
      dsimp only
      rw [readMoreFields_chars fields (by omega) rest, Option.map_some]

end

theorem parse?_stringify (value : Written) :
    parse? (stringify value) = some value := by
  have here := read_chars value (Nat.le_refl _) closed_nil
  rw [List.append_nil] at here
  rw [parse?, stringify, String.toList_ofList, here]

end Written

end Mendpoint.Library

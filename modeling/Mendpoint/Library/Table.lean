import Mathlib.Data.List.Nodup

/-!
# Tables of rows

Rows with a key of their own.  An update changes the rows which a condition
selects; where the condition selects by the key, it changes one row.
-/

namespace Mendpoint.Library.Table

universe u v

variable {ρ : Type u} {κ : Type v}

/-- `UPDATE ... SET change WHERE selected`. -/
def update (selected : ρ → Bool) (change : ρ → ρ) (rows : List ρ) : List ρ :=
  rows.map fun row => if selected row then change row else row

/-- The number of rows which an update changes. -/
def changes (selected : ρ → Bool) (rows : List ρ) : Nat :=
  rows.countP selected

variable {selected : ρ → Bool} {change : ρ → ρ} {rows : List ρ}

theorem map_key_update {key : ρ → κ}
    (kept : ∀ row, key (change row) = key row) (rows : List ρ) :
    (update selected change rows).map key =
      rows.map key := by
  rw [update, List.map_map]
  refine List.map_congr_left fun row _ => ?_
  show key (if selected row then change row else row) = key row
  split
  · exact kept row
  · rfl

theorem filter_update {kind : ρ → Bool}
    (kept : ∀ row, kind (change row) = kind row) (rows : List ρ) :
    (update selected change rows).filter kind =
      update selected change (rows.filter kind) := by
  rw [update, update, List.filter_map]
  congr 1
  refine List.filter_congr fun row _ => ?_
  show kind (if selected row = true then change row else row) = kind row
  split
  · exact kept row
  · rfl

theorem mem_update {row : ρ} :
    row ∈ update selected change rows ↔
      (∃ old ∈ rows, selected old = true ∧ change old = row) ∨
        (row ∈ rows ∧ selected row = false) := by
  rw [update, List.mem_map]
  constructor
  · rintro ⟨old, inside, rfl⟩
    split
    · next chosen => exact Or.inl ⟨old, inside, chosen, rfl⟩
    · next other => exact Or.inr ⟨inside, eq_false_of_ne_true other⟩
  · rintro (⟨old, inside, chosen, rfl⟩ | ⟨inside, other⟩)
    · exact ⟨old, inside, if_pos chosen⟩
    · exact ⟨row, inside, if_neg (ne_true_of_eq_false other)⟩

theorem eq_of_key {key : ρ → κ} (distinct : (rows.map key).Nodup)
    {row other : ρ} (inside : row ∈ rows) (within : other ∈ rows)
    (same : key row = key other) : row = other :=
  List.inj_on_of_nodup_map distinct inside within same

theorem find?_eq_some_iff
    (alone : ∀ row ∈ rows, ∀ other ∈ rows, selected row = true → selected
      other = true → row = other) {row : ρ} :
    rows.find? selected = some row ↔ row ∈ rows ∧ selected row = true := by
  constructor
  · intro found
    exact ⟨List.mem_of_find?_eq_some found, List.find?_some found⟩
  · rintro ⟨inside, chosen⟩
    cases found : rows.find? selected with
    | none => exact absurd chosen (List.find?_eq_none.mp found row inside)
    | some other =>
      rw [alone row inside other (List.mem_of_find?_eq_some found) chosen
        (List.find?_some found)]

section OneRow

variable {key : ρ → κ} {rows : List ρ} {selected : ρ → Bool} {row : ρ}

theorem selected_iff (distinct : (rows.map key).Nodup)
    (byKey : ∀ other, selected other = true → key other = key row)
    (inside : row ∈ rows) (chosen : selected row = true) {other : ρ}
    (within : other ∈ rows) : selected other = true ↔ other = row := by
  constructor
  · intro alsoChosen
    exact eq_of_key distinct within inside (byKey other alsoChosen)
  · rintro rfl
    exact chosen

theorem countP_update (distinct : (rows.map key).Nodup)
    (byKey : ∀ other, selected other = true → key other = key row)
    (inside : row ∈ rows) (chosen : selected row = true)
    (change : ρ → ρ) (fact : ρ → Bool) :
    (update selected change rows).countP fact + (fact row).toNat =
      rows.countP fact + (fact (change row)).toNat := by
  induction rows with
  | nil => cases inside
  | cons first rest inductionHypothesis =>
    rw [List.map_cons, List.nodup_cons] at distinct
    rw [update, List.map_cons, List.countP_cons, List.countP_cons]
    have counts : ∀ one : ρ,
        (if fact one = true then 1 else 0) = (fact one).toNat := by
      intro one
      cases fact one
      · rfl
      · rfl
    rw [counts, counts]
    rcases List.mem_cons.mp inside with rfl | later
    · have untouched : rest.map (fun other =>
          if selected other then change other else other) = rest := by
        conv_rhs => rw [← List.map_id rest]
        refine List.map_congr_left fun other within => if_neg ?_
        intro alsoChosen
        exact distinct.1 (byKey other alsoChosen ▸
          List.mem_map_of_mem within)
      rw [untouched, if_pos chosen]
      omega
    · have kept : selected first ≠ true := by
        intro alsoChosen
        exact distinct.1 (byKey first alsoChosen ▸
          List.mem_map_of_mem later)
      have others := inductionHypothesis distinct.2 later
      rw [update] at others
      rw [if_neg kept]
      omega

theorem changes_eq_one (distinct : (rows.map key).Nodup)
    (byKey : ∀ other, selected other = true → key other = key row)
    (inside : row ∈ rows) (chosen : selected row = true) :
    changes selected rows = 1 := by
  rw [changes]
  induction rows with
  | nil => cases inside
  | cons first rest inductionHypothesis =>
    rw [List.map_cons, List.nodup_cons] at distinct
    rw [List.countP_cons]
    rcases List.mem_cons.mp inside with rfl | later
    · have none : rest.countP selected = 0 := by
        rw [List.countP_eq_zero]
        intro other within alsoChosen
        exact distinct.1 (byKey other alsoChosen ▸
          List.mem_map_of_mem within)
      rw [none, if_pos chosen]
    · have kept : selected first ≠ true := by
        intro alsoChosen
        exact distinct.1 (byKey first alsoChosen ▸
          List.mem_map_of_mem later)
      rw [inductionHypothesis distinct.2 later, if_neg kept]

end OneRow

/-! ## Inserting or updating -/

section Upsert

variable [DecidableEq κ] {key : ρ → κ} {merge : ρ → ρ} {rows : List ρ}
  {row : ρ}

/-- `INSERT ... ON CONFLICT DO UPDATE`: the row, or the change of the old. -/
def upsert (key : ρ → κ) (merge : ρ → ρ) (row : ρ) (rows : List ρ) : List ρ :=
  if key row ∈ rows.map key then
    update (fun old => decide (key old = key row)) merge rows
  else rows ++ [row]

theorem upsert_of_fresh (fresh : key row ∉ rows.map key) :
    upsert key merge row rows = rows ++ [row] :=
  if_neg fresh

theorem nodup_upsert (kept : ∀ old, key (merge old) = key old)
    (distinct : (rows.map key).Nodup) :
    ((upsert key merge row rows).map key).Nodup := by
  rw [upsert]
  split
  · rw [map_key_update kept]
    exact distinct
  · next fresh =>
      rw [List.map_append, List.map_singleton, List.nodup_append]
      refine ⟨distinct, List.nodup_singleton _, ?_⟩
      rintro one inside other last rfl
      rw [List.mem_singleton] at last
      exact fresh (last ▸ inside)

theorem foldl_upsert {α : Type*} (merge : α → ρ → ρ) (toRow : α → ρ)
    {items : List α} (rows : List ρ)
    (distinct : (rows.map key ++ items.map (key ∘ toRow)).Nodup) :
    items.foldl
        (fun rows item => upsert key (merge item) (toRow item) rows) rows =
      rows ++ items.map toRow := by
  induction items generalizing rows with
  | nil => exact (List.append_nil rows).symm
  | cons first rest inductionHypothesis =>
    have fresh : key (toRow first) ∉ rows.map key := by
      intro inside
      exact (List.nodup_append.mp distinct).2.2 _ inside _
        List.mem_cons_self rfl
    rw [List.foldl_cons, upsert_of_fresh fresh,
      inductionHypothesis (rows ++ [toRow first])]
    · rw [List.append_assoc]
      rfl
    · rw [List.map_append, List.append_assoc]
      exact distinct

end Upsert

end Mendpoint.Library.Table

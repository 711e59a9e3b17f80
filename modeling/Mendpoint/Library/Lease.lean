import Mathlib.Data.List.Nodup
import Mathlib.Order.Lattice

/-!
# Leases with generations

A resource is held under a lease by one owner at a time.  Every grant of it
takes the next generation, so that what a holder does under an older one can
be told apart.
-/

namespace Mendpoint.Library.Lease

universe u v

variable {ω : Type u} {τ : Type v}

/-- A lease which was granted, and whether its holder has given it back. -/
structure Grant (ω : Type u) (τ : Type v) where
  generation : Nat
  owner : ω
  ends : τ
  released : Bool

/-- The generation of a resource, and by whom and until when it is held. -/
structure Tenure (ω : Type u) (τ : Type v) where
  generation : Nat
  held : Option (ω × τ)

/-- The grants after one of them was changed. -/
def amend (generation : Nat) (change : Grant ω τ → Grant ω τ)
    (grants : List (Grant ω τ)) : List (Grant ω τ) :=
  grants.map fun grant =>
    if grant.generation = generation then change grant else grant

/-- A grant under its generation. -/
def grantOf (grants : List (Grant ω τ)) (generation : Nat) :
    Option (Grant ω τ) :=
  grants.find? fun grant => decide (grant.generation = generation)

variable [LinearOrder τ]

/-- A grant under which its holder may still act. -/
def Grant.Alive (grant : Grant ω τ) (clock : τ) : Prop :=
  grant.released = false ∧ clock < grant.ends

/-- What holds of a resource, of the grants of it and of the time. -/
structure Fenced (tenure : Tenure ω τ) (grants : List (Grant ω τ))
    (clock : τ) : Prop where
  distinct : (grants.map Grant.generation).Nodup
  bounded : ∀ grant ∈ grants, grant.generation ≤ tenure.generation
  current : ∀ owner ends, tenure.held = some (owner, ends) →
    { generation := tenure.generation
      owner := owner
      ends := ends
      released := false } ∈ grants
  ended : ∀ grant ∈ grants, grant.Alive clock →
    tenure.held ≠ none ∧ grant.generation = tenure.generation

namespace Fenced

variable {tenure : Tenure ω τ} {grants : List (Grant ω τ)} {clock : τ}

theorem fresh (generation : Nat) (clock : τ) :
    Fenced (ω := ω) { generation := generation, held := none } [] clock where
  distinct := List.nodup_nil
  bounded := by
    intro grant member
    cases member
  current := by
    intro owner ends held
    cases held
  ended := by
    intro grant member
    cases member

theorem wait (fenced : Fenced tenure grants clock) {now : τ}
    (later : clock ≤ now) : Fenced tenure grants now where
  distinct := fenced.distinct
  bounded := fenced.bounded
  current := fenced.current
  ended grant member alive :=
    fenced.ended grant member ⟨alive.1, lt_of_le_of_lt later alive.2⟩

theorem eq_current (fenced : Fenced tenure grants clock) {owner : ω}
    {ends : τ} (held : tenure.held = some (owner, ends)) {grant : Grant ω τ}
    (member : grant ∈ grants)
    (same : grant.generation = tenure.generation) :
    grant = { generation := tenure.generation
              owner := owner
              ends := ends
              released := false } :=
  List.inj_on_of_nodup_map fenced.distinct member
    (fenced.current owner ends held) same

theorem not_alive (fenced : Fenced tenure grants clock)
    (free : tenure.held = none) {grant : Grant ω τ}
    (member : grant ∈ grants) : ¬ grant.Alive clock :=
  fun alive => (fenced.ended grant member alive).1 free

theorem acquire (fenced : Fenced tenure grants clock)
    (free : tenure.held = none) (owner : ω) (ends : τ) :
    Fenced
      { generation := tenure.generation + 1, held := some (owner, ends) }
      (grants ++ [{ generation := tenure.generation + 1
                    owner := owner
                    ends := ends
                    released := false }])
      clock where
  distinct := by
    rw [List.map_append, List.map_singleton, ← List.concat_eq_append,
      List.nodup_concat]
    refine ⟨fun member => ?_, fenced.distinct⟩
    rcases List.mem_map.mp member with ⟨grant, inside, same⟩
    exact absurd (same ▸ fenced.bounded grant inside)
      (Nat.not_succ_le_self _)
  bounded grant member := by
    rcases List.mem_append.mp member with old | new
    · exact Nat.le_succ_of_le (fenced.bounded grant old)
    · cases List.mem_singleton.mp new
      exact Nat.le_refl _
  current := by
    intro other otherEnds held
    cases held
    exact List.mem_append_right _ (List.mem_singleton_self _)
  ended grant member alive := by
    rcases List.mem_append.mp member with old | new
    · exact absurd alive (fenced.not_alive free old)
    · rw [List.mem_singleton.mp new]
      exact ⟨Option.some_ne_none _, rfl⟩

theorem reset (fenced : Fenced tenure grants clock)
    (free : tenure.held = none) :
    Fenced { generation := tenure.generation + 1, held := none } grants
      clock where
  distinct := fenced.distinct
  bounded grant member := Nat.le_succ_of_le (fenced.bounded grant member)
  current := by
    intro owner ends held
    cases held
  ended grant member alive := absurd alive (fenced.not_alive free member)

theorem expire (fenced : Fenced tenure grants clock) {owner : ω} {ends : τ}
    (held : tenure.held = some (owner, ends)) (ended : ends ≤ clock) :
    Fenced { generation := tenure.generation, held := none } grants
      clock where
  distinct := fenced.distinct
  bounded := fenced.bounded
  current := by
    intro other otherEnds impossible
    cases impossible
  ended grant member alive := by
    have here := fenced.eq_current held member
      (fenced.ended grant member alive).2
    rw [here] at alive
    exact absurd alive.2 (not_lt_of_ge ended)

omit [LinearOrder τ] in
theorem map_generation_amend (generation : Nat)
    {change : Grant ω τ → Grant ω τ}
    (kept : ∀ grant, (change grant).generation = grant.generation)
    (grants : List (Grant ω τ)) :
    (amend generation change grants).map Grant.generation =
      grants.map Grant.generation := by
  rw [amend, List.map_map]
  refine List.map_congr_left fun grant _ => ?_
  show (if _ then _ else _ : Grant ω τ).generation = _
  split
  · exact kept grant
  · rfl

omit [LinearOrder τ] in
theorem mem_amend {generation : Nat} {change : Grant ω τ → Grant ω τ}
    {grants : List (Grant ω τ)} {grant : Grant ω τ}
    (member : grant ∈ amend generation change grants) :
    (∃ old ∈ grants, old.generation = generation ∧ change old = grant) ∨
      (grant ∈ grants ∧ grant.generation ≠ generation) := by
  rcases List.mem_map.mp member with ⟨old, inside, same⟩
  split at same
  · next here => exact .inl ⟨old, inside, here, same⟩
  · next other => exact .inr ⟨same ▸ inside, same ▸ other⟩

theorem release (fenced : Fenced tenure grants clock) :
    Fenced { generation := tenure.generation, held := none }
      (amend tenure.generation (fun grant => { grant with released := true })
        grants)
      clock where
  distinct := by
    rw [map_generation_amend]
    · exact fenced.distinct
    · exact fun _ => rfl
  bounded grant member := by
    rcases mem_amend member with ⟨old, inside, _, rfl⟩ | ⟨inside, _⟩
    · exact fenced.bounded old inside
    · exact fenced.bounded grant inside
  current := by
    intro owner ends held
    cases held
  ended grant member alive := by
    rcases mem_amend member with ⟨old, _, _, rfl⟩ | ⟨inside, other⟩
    · cases alive.1
    · exact absurd (fenced.ended grant inside alive).2 other

theorem renew (fenced : Fenced tenure grants clock) {owner : ω} {ends : τ}
    (held : tenure.held = some (owner, ends)) (later : τ) :
    Fenced
      { generation := tenure.generation, held := some (owner, later) }
      (amend tenure.generation (fun grant => { grant with ends := later })
        grants)
      clock where
  distinct := by
    rw [map_generation_amend]
    · exact fenced.distinct
    · exact fun _ => rfl
  bounded grant member := by
    rcases mem_amend member with ⟨old, inside, _, rfl⟩ | ⟨inside, _⟩
    · exact fenced.bounded old inside
    · exact fenced.bounded grant inside
  current := by
    intro other otherEnds same
    cases same
    refine List.mem_map.mpr ⟨_, fenced.current owner ends held, ?_⟩
    rw [if_pos rfl]
  ended grant member alive := by
    refine ⟨Option.some_ne_none _, ?_⟩
    rcases mem_amend member with ⟨old, _, here, rfl⟩ | ⟨inside, _⟩
    · exact here
    · exact (fenced.ended grant inside alive).2

end Fenced

end Mendpoint.Library.Lease

import Vdag.Proofs.Registry.Operations

/-! Claims and those who hold them. A registry does not know whose a claim is; that each is held by one of many, and
that nothing is stored there, is kept by what they may do. -/
namespace Vdag.MemoryRegistry
open Vdag.Action

/- Who holds what agrees with what is marked as claimed, and nothing is stored there. -/
structure Guarded {ι : Type} (r : MemoryRegistry) (holds : ι → VdagUri → Prop) : Prop where
  once : ∀ {i j uri}, holds i uri → holds j uri → i = j
  claimed : ∀ uri, uri ∈ r.claimed ↔ ∃ i, holds i uri
  vacant : ∀ {uri}, uri ∈ r.claimed → r.stored? uri = none

namespace Guarded

variable {ι : Type} {holds holds' : ι → VdagUri → Prop} {r r' : MemoryRegistry} {i : ι} {uri : VdagUri}

theorem guardedSame (guarded : r.Guarded holds) (same : Same r r') (alike : ∀ j other, holds' j other ↔ holds j other) :
    r'.Guarded holds' := by
  obtain ⟨vdags, claimed, _⟩ := same
  constructor
  case once =>
    intro a b other first second
    exact guarded.once ((alike _ _).mp first) ((alike _ _).mp second)
  case claimed =>
    intro other
    simp only [claimed, guarded.claimed, alike]
  case vacant =>
    intro other marked
    rw [claimed] at marked
    rw [stored?, vdags]
    exact guarded.vacant marked

theorem guardedGrant (guarded : r.Guarded holds) (granted : Granted uri r r') (idle : ∀ other, ¬ holds i other)
    (alike : ∀ j other, holds' j other ↔ j = i ∧ other = uri ∨ j ≠ i ∧ holds j other) : r'.Guarded holds' := by
  -- The claim was free, so nobody else holds the URI that is now held by the one it was granted to.
  have alone : ∀ j, ¬ holds j uri := fun j held => granted.unclaimed ((guarded.claimed uri).mpr ⟨j, held⟩)
  constructor
  case once =>
    intro a b other first second
    rcases (alike a other).mp first with ⟨rfl, rfl⟩ | ⟨_, first⟩
    · rcases (alike b other).mp second with ⟨rfl, _⟩ | ⟨_, second⟩
      · rfl
      · exact absurd second (alone b)
    · rcases (alike b other).mp second with ⟨_, rfl⟩ | ⟨_, second⟩
      · exact absurd first (alone a)
      · exact guarded.once first second
  case claimed =>
    intro other
    rw [granted.claimed, List.mem_cons, guarded.claimed]
    constructor
    · intro marked
      rcases marked with same | ⟨j, held⟩
      · exact ⟨i, (alike i other).mpr (.inl ⟨rfl, same⟩)⟩
      · have ne : j ≠ i := fun same => idle other (same ▸ held)
        exact ⟨j, (alike j other).mpr (.inr ⟨ne, held⟩)⟩
    · intro present
      obtain ⟨j, held⟩ := present
      rcases (alike j other).mp held with ⟨_, same⟩ | ⟨_, before⟩
      · exact .inl same
      · exact .inr ⟨j, before⟩
  case vacant =>
    intro other marked
    rw [granted.records]
    split
    · rfl
    · rename_i ne
      rw [granted.claimed] at marked
      exact guarded.vacant ((List.mem_cons.mp marked).resolve_left ne)

theorem guardedSpend {record : Definition} (guarded : r.Guarded holds) (stored : Stored uri record r r')
    (held : holds i uri)
    (only : ∀ other, holds i other → other = uri) (alike : ∀ j other, holds' j other ↔ j ≠ i ∧ holds j other) :
    r'.Guarded holds' := by
  have marked : ∀ other, other ∈ r'.claimed ↔ other ∈ r.claimed ∧ other ≠ uri := by
    intro other
    simp [stored.claimed, List.mem_filter]
  constructor
  case once =>
    intro a b other first second
    exact guarded.once ((alike a other).mp first).2 ((alike b other).mp second).2
  case claimed =>
    intro other
    rw [marked, guarded.claimed]
    constructor
    · intro before
      obtain ⟨⟨j, holder⟩, ne⟩ := before
      have apart : j ≠ i := fun same => ne (only other (same ▸ holder))
      exact ⟨j, (alike j other).mpr ⟨apart, holder⟩⟩
    · intro after
      obtain ⟨j, holder⟩ := after
      obtain ⟨apart, holder⟩ := (alike j other).mp holder
      have ne : other ≠ uri := fun same => apart (guarded.once (same ▸ holder) held)
      exact ⟨⟨j, holder⟩, ne⟩
  case vacant =>
    intro other present
    obtain ⟨before, ne⟩ := (marked other).mp present
    rw [stored.records, if_neg ne]
    exact guarded.vacant before

theorem guardedDelete (guarded : r.Guarded holds) (uri : VdagUri) :
    (on (MemoryRegistry.delete uri) r).2.Guarded holds := by
  rcases deleteCases uri r with ⟨deleted, _⟩ | ⟨failure, refused⟩
  · rw [deleted]
    refine ⟨guarded.once, guarded.claimed, fun {other} marked => ?_⟩
    rw [storedRemove]
    split
    · rfl
    · exact guarded.vacant marked
  · rw [refused]
    exact guarded

end Guarded

end Vdag.MemoryRegistry

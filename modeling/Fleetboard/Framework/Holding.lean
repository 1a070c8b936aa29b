import Mathlib.Data.Set.Insert

/-!
# Resources and their holders

An allocator hands out resources: those it has handed out are acquired, and
holders keep them. `Exclusive acquired held` says that no resource is held that
is not acquired, and none is held twice. It survives an acquisition
(`Exclusive.acquire`), a holder that gives up (`Exclusive.mono`), and a release
exactly when nobody still holds the resource (`Exclusive.release_iff`).
-/

namespace Fleetboard

variable {K α : Type*}

/-- The held resources are acquired, and each is held once. -/
structure Exclusive (acquired : Set α) (held : K → Option α) : Prop where
  acquired : ∀ {k a}, held k = some a → a ∈ acquired
  unique : ∀ {k k' a}, held k = some a → held k' = some a → k = k'

namespace Exclusive

variable {acquired acquired' : Set α} {held held' : K → Option α}

/-- More may be acquired, and less held. -/
theorem mono (h : Exclusive acquired held) (ha : acquired ⊆ acquired')
    (hheld : ∀ {k a}, held' k = some a → held k = some a) : Exclusive acquired' held' where
  acquired hk := ha (h.acquired (hheld hk))
  unique hk hk' := h.unique (hheld hk) (hheld hk')

/-- A resource that was not acquired goes to one holder. -/
theorem acquire (h : Exclusive acquired held) {a : α} (ha : a ∉ acquired) {k : K}
    (hheld : ∀ k' b, held' k' = some b → k' = k ∧ b = a ∨ held k' = some b) :
    Exclusive (insert a acquired) held' where
  acquired {k' b} hk' := by
    rcases hheld k' b hk' with ⟨-, rfl⟩ | hb
    · exact Set.mem_insert b acquired
    · exact Set.mem_insert_of_mem a (h.acquired hb)
  unique {k₁ k₂ b} h₁ h₂ := by
    rcases hheld k₁ b h₁ with ⟨rfl, rfl⟩ | hb₁
    · rcases hheld k₂ b h₂ with ⟨rfl, -⟩ | hb₂
      · rfl
      · exact absurd (h.acquired hb₂) ha
    · rcases hheld k₂ b h₂ with ⟨rfl, rfl⟩ | hb₂
      · exact absurd (h.acquired hb₁) ha
      · exact h.unique hb₁ hb₂

/-- A release is safe exactly when nobody holds the resource any more. -/
theorem release_iff (h : Exclusive acquired held) {a : α}
    (hheld : ∀ {k b}, held' k = some b → held k = some b) :
    Exclusive (acquired \ {a}) held' ↔ ∀ k, held' k ≠ some a := by
  constructor
  · intro h' k hk
    exact (h'.acquired hk).2 rfl
  · intro hno
    refine ⟨fun {k b} hk => ⟨h.acquired (hheld hk), ?_⟩, fun hk hk' => h.unique (hheld hk) (hheld hk')⟩
    rintro rfl
    exact hno k hk

end Exclusive

end Fleetboard

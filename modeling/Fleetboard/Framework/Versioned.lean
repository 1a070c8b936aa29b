import Fleetboard.Framework.GoMap

/-!
# A store with versions and a cache of it

Every write to the store takes the next version, and a cache holds objects as
they were at some time. `Coherent` says that a cached object of the stored version
is the stored object, which is what a write that compares versions relies on. It
survives writes (`Coherent.write`), deletions (`Coherent.erase`) and the cache's
reading of one key (`Coherent.refresh`).
-/

namespace Fleetboard

variable {K V : Type*} [DecidableEq K]

/-- The cache after it has read a key of the store. -/
def GoMap.refresh (cache stored : GoMap K V) (k : K) : GoMap K V :=
  match stored.lookup k with
  | some v => cache.insert k v
  | none => cache.erase k

theorem GoMap.lookup_refresh (cache stored : GoMap K V) (k k' : K) :
    (cache.refresh stored k).lookup k' = if k' = k then stored.lookup k else cache.lookup k' := by
  unfold GoMap.refresh
  cases h : stored.lookup k with
  | none => exact GoMap.lookup_erase_eq cache k k'
  | some v => exact GoMap.lookup_insert_eq cache k k' v

/-- All versions are below the next one, and a cached object of the stored version
is the stored object. -/
structure Coherent (version : V → Nat) (next : Nat) (stored cache : GoMap K V) : Prop where
  stored_lt : ∀ {k v}, stored.lookup k = some v → version v < next
  cached_lt : ∀ {k v}, cache.lookup k = some v → version v < next
  agree : ∀ {k v w}, cache.lookup k = some v → stored.lookup k = some w →
    version w = version v → w = v

namespace Coherent

variable {version : V → Nat} {next : Nat} {stored cache : GoMap K V}

theorem write (h : Coherent version next stored cache) (k : K) {v : V} (hv : version v = next) :
    Coherent version (next + 1) (stored.insert k v) cache where
  stored_lt {k' w} hw := by
    rw [GoMap.lookup_insert_eq] at hw
    split at hw
    · obtain rfl := Option.some_inj.mp hw
      omega
    · have := h.stored_lt hw
      omega
  cached_lt hw := Nat.lt_succ_of_lt (h.cached_lt hw)
  agree {k' v' w} hc hw heq := by
    rw [GoMap.lookup_insert_eq] at hw
    split at hw
    · obtain rfl := Option.some_inj.mp hw
      have := h.cached_lt hc
      omega
    · exact h.agree hc hw heq

theorem erase (h : Coherent version next stored cache) (k : K) :
    Coherent version (next + 1) (stored.erase k) cache where
  stored_lt {k' w} hw := by
    rw [GoMap.lookup_erase_eq] at hw
    split at hw
    · cases hw
    · exact Nat.lt_succ_of_lt (h.stored_lt hw)
  cached_lt hw := Nat.lt_succ_of_lt (h.cached_lt hw)
  agree {k' v' w} hc hw heq := by
    rw [GoMap.lookup_erase_eq] at hw
    split at hw
    · cases hw
    · exact h.agree hc hw heq

theorem refresh (h : Coherent version next stored cache) (k : K) :
    Coherent version next stored (cache.refresh stored k) where
  stored_lt := h.stored_lt
  cached_lt {k' v} hv := by
    rw [GoMap.lookup_refresh] at hv
    split at hv
    · exact h.stored_lt hv
    · exact h.cached_lt hv
  agree {k' v w} hv hw heq := by
    rw [GoMap.lookup_refresh] at hv
    split at hv
    · subst k'
      exact Option.some_inj.mp (hw.symm.trans hv)
    · exact h.agree hv hw heq

/-- A new cache is empty. -/
theorem reset (h : Coherent version next stored cache) : Coherent version next stored ∅ where
  stored_lt := h.stored_lt
  cached_lt hv := by
    rw [AList.lookup_empty] at hv
    cases hv
  agree hv := by
    rw [AList.lookup_empty] at hv
    cases hv

end Coherent

end Fleetboard

import Fleetboard.Framework.Runs
import Mathlib.Data.Set.Lattice

/-!
# Relays

Several sources publish their entries into one store, each under keys of its own; a cache
follows the store, and a copy follows the cache. Each follows by passes: a pass brings some
of the keys to the state of what it follows and leaves the others, so that it may be cut off
anywhere.

* `Relay.step_fresh`: what a source has published stays published, whatever the others do;
* `Relay.delivered`: when the store has the source's entry or the source makes a complete
  pass, then the cache has the store's or sees the key, and then the copy is delivered
  completely, in that order and with any passes in between, the copy has the source's entry.
-/

namespace Fleetboard

variable {ι K V : Type*}

/-- Each key of the scope is left as it is, or it is one of those that the pass is about and
is brought to the state of the source. -/
def Pass (scope keys : Set K) (source m m' : K → Option V) : Prop :=
  ∀ k ∈ scope, m' k = m k ∨ k ∈ keys ∧ m' k = source k

/-- What is in step stays in step. -/
theorem Pass.eq_source {scope keys : Set K} {source m m' : K → Option V}
    (h : Pass scope keys source m m') {k : K} (hk : k ∈ scope) (hm : m k = source k) :
    m' k = source k := by
  rcases h k hk with heq | ⟨-, heq⟩
  · rw [heq, hm]
  · exact heq

namespace Relay

/-- The store, the cache and the copy. -/
structure State (K V : Type*) where
  store : K → Option V
  cache : K → Option V
  copy : K → Option V

/-- A pass of a source, of the cache or of the copy; the passes of the sources and of the copy
are complete or not, those of the cache say which keys they see. -/
inductive Event (ι K : Type*)
  | publish (i : ι) (complete : Prop)
  | observe (seen : Set K)
  | deliver (complete : Prop)
  | idle

section

variable (keys : ι → Set K) (source : ι → K → Option V)

/-- The keys of all sources. -/
def allKeys : Set K := ⋃ i, keys i

/-- As far as the sources' keys go, a step changes one of the three maps at most. -/
inductive Step : State K V → Event ι K → State K V → Prop
  | publish {s s' : State K V} {i : ι} {complete : Prop}
      (pass : Pass (allKeys keys) (keys i) (source i) s.store s'.store)
      (all : complete → ∀ k ∈ keys i, s'.store k = source i k)
      (cache : Set.EqOn s'.cache s.cache (allKeys keys))
      (copy : Set.EqOn s'.copy s.copy (allKeys keys)) : Step s (.publish i complete) s'
  | observe {s s' : State K V} {seen : Set K}
      (store : Set.EqOn s'.store s.store (allKeys keys))
      (pass : Pass (allKeys keys) seen s.store s.cache s'.cache)
      (all : ∀ k ∈ allKeys keys, k ∈ seen → s'.cache k = s.store k)
      (copy : Set.EqOn s'.copy s.copy (allKeys keys)) : Step s (.observe seen) s'
  | deliver {s s' : State K V} {complete : Prop}
      (store : Set.EqOn s'.store s.store (allKeys keys))
      (cache : Set.EqOn s'.cache s.cache (allKeys keys))
      (pass : Pass (allKeys keys) (allKeys keys) s.cache s.copy s'.copy)
      (all : complete → ∀ k ∈ allKeys keys, s'.copy k = s.cache k) :
      Step s (.deliver complete) s'
  | idle {s s' : State K V} (store : Set.EqOn s'.store s.store (allKeys keys))
      (cache : Set.EqOn s'.cache s.cache (allKeys keys))
      (copy : Set.EqOn s'.copy s.copy (allKeys keys)) : Step s .idle s'

end

/-- The store has the source's entry, and the cache has it too. -/
def Observed (source : ι → K → Option V) (i : ι) (k : K) (s : State K V) : Prop :=
  s.store k = source i k ∧ s.cache k = source i k

/-- The store has the source's entry, and so have the cache and the copy. -/
def Delivered (source : ι → K → Option V) (i : ι) (k : K) (s : State K V) : Prop :=
  Observed source i k s ∧ s.copy k = source i k

variable {keys : ι → Set K} {source : ι → K → Option V} {s s' s₁ s₂ s₃ : State K V} {e : Event ι K}
  {es₁ es₂ es₃ : List (Event ι K)} {i : ι} {k : K}

theorem mem_allKeys (hk : k ∈ keys i) : k ∈ allKeys keys := Set.mem_iUnion.mpr ⟨i, hk⟩

section

variable (hkeys : ∀ {i j k}, k ∈ keys i → k ∈ keys j → i = j) (hk : k ∈ keys i)

include hkeys hk

theorem step_fresh (hs : s.store k = source i k) (h : Step keys source s e s') :
    s'.store k = source i k := by
  cases h with
  | @publish _ j complete pass all cache copy =>
    rcases pass k (mem_allKeys hk) with heq | ⟨hj, heq⟩
    · rw [heq, hs]
    · obtain rfl : i = j := hkeys hk hj
      exact heq
  | observe store pass all copy => rw [store (mem_allKeys hk), hs]
  | deliver store cache pass all => rw [store (mem_allKeys hk), hs]
  | idle store cache copy => rw [store (mem_allKeys hk), hs]

theorem step_observed (hs : Observed source i k s) (h : Step keys source s e s') :
    Observed source i k s' := by
  have hall := mem_allKeys hk
  refine ⟨step_fresh hkeys hk hs.1 h, ?_⟩
  cases h with
  | publish pass all cache copy => rw [cache hall, hs.2]
  | observe store pass all copy =>
    rw [pass.eq_source hall (hs.2.trans hs.1.symm), hs.1]
  | deliver store cache pass all => rw [cache hall, hs.2]
  | idle store cache copy => rw [cache hall, hs.2]

theorem step_delivered (hs : Delivered source i k s) (h : Step keys source s e s') :
    Delivered source i k s' := by
  have hall := mem_allKeys hk
  refine ⟨step_observed hkeys hk hs.1 h, ?_⟩
  cases h with
  | publish pass all cache copy => rw [copy hall, hs.2]
  | observe store pass all copy => rw [copy hall, hs.2]
  | deliver store cache pass all => rw [pass.eq_source hall (hs.2.trans hs.1.2.symm), hs.1.2]
  | idle store cache copy => rw [copy hall, hs.2]

/-- After a source has published completely, the cache has the store's entry or sees the key,
and the copy has been delivered completely, the copy has what the source has. -/
theorem delivered {q : Prop} (h₁ : Runs (Step keys source) s es₁ s₁)
    (hpublish : s.store k = source i k ∨ ∃ p, Event.publish i p ∈ es₁ ∧ p)
    (h₂ : Runs (Step keys source) s₁ es₂ s₂)
    (hobserve : s₁.cache k = s₁.store k ∨ ∃ seen, Event.observe seen ∈ es₂ ∧ k ∈ seen)
    (h₃ : Runs (Step keys source) s₂ es₃ s₃) (hdeliver : Event.deliver q ∈ es₃) (hq : q) :
    s₃.copy k = source i k := by
  have hall := mem_allKeys hk
  have hfresh : s₁.store k = source i k := by
    rcases hpublish with hstore | ⟨p, hpublish, hp⟩
    · exact h₁.invariant (I := fun s => s.store k = source i k) (step_fresh hkeys hk) hstore
    · refine h₁.established (I := fun s => s.store k = source i k) (J := fun _ => True)
        (fun _ _ => trivial) (fun _ hstep => ?_) (step_fresh hkeys hk) trivial hpublish
      cases hstep with
      | publish pass all cache copy => exact all hp k hk
  have hobserved : Observed source i k s₂ := by
    rcases hobserve with hcache | ⟨seen, hobserve, hseen⟩
    · exact h₂.invariant (I := Observed source i k) (step_observed hkeys hk)
        ⟨hfresh, hcache.trans hfresh⟩
    · refine h₂.established (J := fun s => s.store k = source i k) (step_fresh hkeys hk)
        (fun hs hstep => ⟨step_fresh hkeys hk hs hstep, ?_⟩) (step_observed hkeys hk) hfresh hobserve
      cases hstep with
      | observe store pass all copy => rw [all k hall hseen, hs]
  have hdelivered : Delivered source i k s₃ := by
    refine h₃.established (J := Observed source i k) (step_observed hkeys hk)
      (fun hs hstep => ⟨step_observed hkeys hk hs hstep, ?_⟩) (step_delivered hkeys hk) hobserved
      hdeliver
    cases hstep with
    | deliver store cache pass all => rw [all hq k hall, hs.2]
  exact hdelivered.2

end

end Relay

end Fleetboard

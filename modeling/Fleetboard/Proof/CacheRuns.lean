import Fleetboard.Proof.Endpoints

/-!
# What the slice cache keeps

Updates of slices are dropped when they match the pending or the applied slice,
collapse while they are pending, and take effect when the changes are checked out. A run
of the cache is any sequence of updates and checkouts; beside the cache, its state
remembers what the calls were given and returned.

* `Faithful`: the invariant of the runs: what a group will have applied is what the last
  updates say, and pending slices come from updates that returned true;
* `Faithful.update`, `Faithful.checkout`: the steps;
* `checkout_exact`: after every checkout the applied slices are those of the last updates,
  only services with such an update have a change, and the changes of a service follow
  one another.
-/

namespace Fleetboard.Proxy

variable {cfg : Config}

/-- The cache with, for each service and slice, the record of the last update unless
it was a removal; the services for which an update returned true since the last checkout;
the slices that the current map of a service's last change was made of; and the changes
of the last checkout. -/
structure CacheState where
  cache : EndpointSliceCache
  last : NamespacedName → String → Option EndpointSliceInfo
  touched : Finset NamespacedName
  used : NamespacedName → GoMap String EndpointSliceInfo
  changes : List (NamespacedName × EndpointsChange)

/-- `NewEndpointSliceCache`. -/
def newCache : CacheState := ⟨∅, fun _ _ => none, ∅, fun _ => ∅, []⟩

inductive CacheEvent
  | update (slice : EndpointSlice) (remove : Bool)
  | checkout (env : UpdateEnv)

/-- What is remembered of an update of the slice with these keys. -/
def CacheState.record (s : CacheState) (g : NamespacedName) (name : String)
    (info : Option EndpointSliceInfo) (remove changed : Bool) : CacheState :=
  { s with
    last := fun g' name' =>
      if g' = g ∧ name' = name then (if remove then none else info) else s.last g' name'
    touched := if changed then insert g s.touched else s.touched }

/-- What is remembered of a checkout. -/
def CacheState.checkedOut (s : CacheState) (cache : EndpointSliceCache)
    (changes : List (NamespacedName × EndpointsChange)) : CacheState :=
  { s with
    cache := cache
    touched := ∅
    used := fun g => if g ∈ changes.map (·.1) then (trackerOf cache g).applied else s.used g
    changes := changes }

inductive CacheStep (cfg : Config) : CacheState → CacheEvent → CacheState → Prop
  | update {s : CacheState} {slice : EndpointSlice} {remove changed : Bool}
      {cache : EndpointSliceCache} {g : NamespacedName} {name : String}
      {info : Option EndpointSliceInfo}
      (hkeys : endpointSliceCacheKeys slice = some (g, name))
      (hinfo : newEndpointSliceInfo cfg slice remove = .ok info)
      (hup : updatePending cfg s.cache slice remove = .ok (cache, changed)) :
      CacheStep cfg s (.update slice remove) { s.record g name info remove changed with cache }
  | ignored {s : CacheState} {slice : EndpointSlice} {remove changed : Bool}
      {cache : EndpointSliceCache}
      (hkeys : endpointSliceCacheKeys slice = none)
      (hup : updatePending cfg s.cache slice remove = .ok (cache, changed)) :
      CacheStep cfg s (.update slice remove) { s with cache }
  | checkout {s : CacheState} {env : UpdateEnv} {cache : EndpointSliceCache}
      {changes : List (NamespacedName × EndpointsChange)}
      (hout : checkoutChanges cfg env s.cache = .ok (cache, changes)) :
      CacheStep cfg s (.checkout env) (s.checkedOut cache changes)

/-- The slice of an update has the fleetboard labels. -/
def HasServiceLabels : CacheEvent → Prop
  | .update slice _ => slice.labels.lookup Known.LabelServiceName ≠ none ∧
      slice.labels.lookup Known.LabelServiceNameSpace ≠ none
  | .checkout _ => True

/-! ## The invariant -/

structure Faithful (s : CacheState) : Prop where
  kept : ∀ g, AppliedKept (trackerOf s.cache g)
  effective : ∀ g name, (trackerOf s.cache g).effective name = s.last g name
  touched : ∀ g, (trackerOf s.cache g).pending.entries ≠ [] → g ∈ s.touched
  used : ∀ g, s.used g = (trackerOf s.cache g).applied

theorem faithful_newCache : Faithful newCache where
  kept _ _ _ h := by cases h
  effective _ _ := rfl
  touched _ h := absurd rfl h
  used _ := rfl

/-- An update changes the group of its slice. -/
theorem Faithful.update {s : CacheState} (h : Faithful s) {slice : EndpointSlice}
    {remove changed : Bool} {cache : EndpointSliceCache} {g : NamespacedName} {name : String}
    {info : EndpointSliceInfo} (hkeys : endpointSliceCacheKeys slice = some (g, name))
    (hinfo : newEndpointSliceInfo cfg slice remove = .ok (some info))
    (hup : updatePending cfg s.cache slice remove = .ok (cache, changed)) :
    Faithful { s.record g name (some info) remove changed with cache } := by
  obtain ⟨tracker', rfl, happlied, hsame, -, heffective⟩ :=
    updatePending_of_keys hkeys hinfo (h.kept g) hup
  refine ⟨fun g' => ?_, fun g' name' => ?_, fun g' => ?_, fun g' => ?_⟩
  · show AppliedKept (trackerOf (s.cache.insert g tracker') g')
    rw [trackerOf_insert]
    split
    · intro n i hi
      rw [happlied] at hi
      exact h.kept g n i hi
    · exact h.kept g'
  · show (trackerOf (s.cache.insert g tracker') g').effective name' = _
    rw [trackerOf_insert]
    by_cases hg : g' = g
    · subst hg
      rw [if_pos rfl, heffective, h.effective]
      simp only [CacheState.record, true_and]
    · rw [if_neg hg, h.effective]
      simp only [CacheState.record, hg, false_and, if_false]
  · show (trackerOf (s.cache.insert g tracker') g').pending.entries ≠ [] → _
    rw [trackerOf_insert]
    intro hpending
    cases changed with
    | true =>
      by_cases hg : g' = g
      · exact Finset.mem_insert.mpr (.inl hg)
      · rw [if_neg hg] at hpending
        exact Finset.mem_insert_of_mem (h.touched g' hpending)
    | false =>
      by_cases hg : g' = g
      · subst hg
        rw [if_pos rfl, hsame rfl] at hpending
        exact h.touched g' hpending
      · rw [if_neg hg] at hpending
        exact h.touched g' hpending
  · show s.used g' = (trackerOf (s.cache.insert g tracker') g').applied
    rw [trackerOf_insert, h.used]
    split
    · rename_i hg
      rw [happlied, hg]
    · rfl

/-! ## Checkouts -/

/-- The maps of a change are made of the slices that were applied before and after. -/
theorem checkoutTracker_change {order : RangeOrder ((_ : String) × EndpointSliceInfo)}
    {tracker tracker' : EndpointSliceTracker} {c : EndpointsChange}
    (h : checkoutTracker cfg order tracker = .ok (tracker', some c)) :
    tracker.pending.entries ≠ [] ∧ getEndpointsMap cfg order tracker.applied = .ok c.previous ∧
      getEndpointsMap cfg order tracker'.applied = .ok c.current := by
  rw [checkoutTracker] at h
  by_cases hp : tracker.pending.entries = []
  · rw [if_pos hp] at h
    cases h
  · rw [if_neg hp] at h
    obtain ⟨previous, hprev, h⟩ := Go.bind_eq_ok.mp h
    obtain ⟨applied, -, h⟩ := Go.bind_eq_ok.mp h
    obtain ⟨current, hcur, h⟩ := Go.bind_eq_ok.mp h
    cases h
    exact ⟨hp, hprev, hcur⟩

/-- The changes of a checkout are those of the groups with pending slices. -/
theorem checkoutChanges_change {env : UpdateEnv} {cache cache' : EndpointSliceCache}
    {changes : List (NamespacedName × EndpointsChange)}
    (h : checkoutChanges cfg env cache = .ok (cache', changes)) {g : NamespacedName}
    {c : EndpointsChange} (hc : (g, c) ∈ changes) :
    (trackerOf cache g).pending.entries ≠ [] ∧
      getEndpointsMap cfg env.slices (trackerOf cache g).applied = .ok c.previous ∧
      getEndpointsMap cfg env.slices (trackerOf cache' g).applied = .ok c.current := by
  obtain ⟨-, hto, hchange⟩ := checkoutChanges_spec h
  obtain ⟨tracker, tracker', hg, hcheckout⟩ := hchange g c hc
  obtain ⟨tracker'', hg', change, hcheckout', -⟩ := hto g tracker hg
  obtain ⟨rfl, -⟩ := Prod.mk.inj (Except.ok.inj (hcheckout.symm.trans hcheckout'))
  simp only [trackerOf, hg, hg']
  exact checkoutTracker_change hcheckout

/-- A group without a change keeps its slices. -/
theorem checkoutChanges_unchanged {env : UpdateEnv} {cache cache' : EndpointSliceCache}
    {changes : List (NamespacedName × EndpointsChange)}
    (h : checkoutChanges cfg env cache = .ok (cache', changes)) {g : NamespacedName}
    (hg : g ∉ changes.map (·.1)) : trackerOf cache' g = trackerOf cache g := by
  obtain ⟨hback, hto, -⟩ := checkoutChanges_spec h
  cases hlookup : cache.lookup g with
  | none =>
    cases hlookup' : cache'.lookup g with
    | none => rw [trackerOf, trackerOf, hlookup, hlookup']
    | some tracker' =>
      obtain ⟨tracker, htracker, -⟩ := hback g tracker' hlookup'
      rw [hlookup] at htracker
      cases htracker
  | some tracker =>
    obtain ⟨tracker', hlookup', change, hcheckout, hchange⟩ := hto g tracker hlookup
    rw [trackerOf, trackerOf, hlookup, hlookup']
    rcases (checkoutTracker_spec hcheckout).2 with ⟨-, rfl, -⟩ | ⟨-, c, hc, -⟩
    · rfl
    · exact absurd (List.mem_map_of_mem (hchange c hc)) hg

theorem Faithful.checkout {s : CacheState} (h : Faithful s) {env : UpdateEnv}
    {cache : EndpointSliceCache} {changes : List (NamespacedName × EndpointsChange)}
    (hout : checkoutChanges cfg env s.cache = .ok (cache, changes)) :
    Faithful (s.checkedOut cache changes) := by
  have happlied := checkoutChanges_applied hout
  refine ⟨fun g name info hinfo => ?_, fun g name => ?_, fun g hpending => ?_, fun g => ?_⟩
  · have heffective := (happlied g).2 name
    exact (h.kept g).effective (heffective.symm.trans hinfo)
  · have heffective := (happlied g).2 name
    have hnone := effective_of_no_pending (happlied g).1 name
    exact (hnone.trans heffective).trans (h.effective g name)
  · exact absurd (happlied g).1 hpending
  · show (if g ∈ changes.map (·.1) then _ else s.used g) = (trackerOf cache g).applied
    split
    · rfl
    · rename_i hg
      rw [h.used, checkoutChanges_unchanged hout hg]

theorem Faithful.step {s s' : CacheState} {e : CacheEvent} (he : HasServiceLabels e)
    (h : Faithful s) (hstep : CacheStep cfg s e s') : Faithful s' := by
  cases hstep with
  | update hkeys hinfo hup =>
    obtain ⟨info, rfl⟩ := newEndpointSliceInfo_some he.1 he.2 hinfo
    exact h.update hkeys hinfo hup
  | ignored hkeys hup =>
    rw [updatePending, hkeys] at hup
    cases hup
    exact h
  | checkout hout => exact h.checkout hout

/-! ## Runs -/

/-- After a checkout: nothing is pending; the applied slices are those of the last
updates; services without an update that returned true have no change; and a change goes
from the slices that the service's preceding change led to, none at first. -/
structure CheckoutExact (cfg : Config) (env : UpdateEnv) (s s' : CacheState) : Prop where
  noPending : ∀ g tracker, s'.cache.lookup g = some tracker → tracker.pending.entries = []
  applied : ∀ g name, (trackerOf s'.cache g).applied.lookup name = s'.last g name
  untouched : ∀ g, g ∉ s.touched → ∀ c, (g, c) ∉ s'.changes
  previous : ∀ g c, (g, c) ∈ s'.changes → getEndpointsMap cfg env.slices (s.used g) = .ok c.previous
  current : ∀ g c, (g, c) ∈ s'.changes → getEndpointsMap cfg env.slices (s'.used g) = .ok c.current

/-- The cache loses and resurrects nothing, in any order of updates and checkouts. -/
theorem checkout_exact {cfg : Config} {es : List CacheEvent} {s s' : CacheState} {env : UpdateEnv}
    (hlabels : ∀ e ∈ es, HasServiceLabels e) (hrun : Runs (CacheStep cfg) newCache es s)
    (hcheckout : CacheStep cfg s (.checkout env) s') : CheckoutExact cfg env s s' := by
  have h : Faithful s :=
    hrun.invariant_mem (fun he h hstep => h.step he hstep) hlabels faithful_newCache
  have h' : Faithful s' := Faithful.step (show HasServiceLabels (.checkout env) from trivial) h
    hcheckout
  cases hcheckout with
  | @checkout _ cache changes hout =>
    have happlied := checkoutChanges_applied hout
    refine ⟨fun g tracker hg => ?_, fun g name => ?_, fun g hg c hc => ?_, fun g c hc => ?_,
      fun g c hc => ?_⟩
    · have hnone := (happlied g).1
      rw [trackerOf, show cache.lookup g = some tracker from hg] at hnone
      exact hnone
    · exact (effective_of_no_pending (happlied g).1 name).symm.trans (h'.effective g name)
    · exact hg (h.touched g (checkoutChanges_change hout hc).1)
    · rw [h.used]
      exact (checkoutChanges_change hout hc).2.1
    · rw [h'.used]
      exact (checkoutChanges_change hout hc).2.2

/-- A slice is added, removed and added again before a checkout. -/
theorem checkout_exact_flip :
    ∃ s s', Runs (CacheStep sampleConfig) newCache
        [.update (clusterSlice "c1" "10.1.0.5") false, .update (clusterSlice "c1" "10.1.0.5") true,
          .update (clusterSlice "c1" "10.1.0.5") false] s ∧
      CacheStep sampleConfig s (.checkout storedOrder) s' ∧
      CheckoutExact sampleConfig storedOrder s s' := by
  have hlabels : ∀ e ∈ [CacheEvent.update (clusterSlice "c1" "10.1.0.5") false,
      .update (clusterSlice "c1" "10.1.0.5") true, .update (clusterSlice "c1" "10.1.0.5") false],
      HasServiceLabels e := by
    have h := clusterSlice_labelled (.inl rfl : "c1" = "c1" ∨ "c1" = "c2") "10.1.0.5"
    simp [HasServiceLabels, h.hasName, h.hasNamespace]
  have hrun : Runs (CacheStep sampleConfig) newCache
      [.update (clusterSlice "c1" "10.1.0.5") false, .update (clusterSlice "c1" "10.1.0.5") true,
        .update (clusterSlice "c1" "10.1.0.5") false] _ :=
    .cons (.update rfl rfl rfl) (.cons (.update rfl rfl rfl) (.cons (.update rfl rfl rfl) (.nil _)))
  refine ⟨_, _, hrun, .checkout rfl, checkout_exact hlabels hrun (.checkout rfl)⟩

end Fleetboard.Proxy

import Fleetboard.Framework.Runs
import Fleetboard.Proof.EndpointSliceCache
import Fleetboard.Model.Endpoints

/-!
# The endpoints map and the slices that are present

The endpoints map is kept up to date group by group, where a group is the slices
of one `kubernetes.io/service-name` (one exporting cluster's service); its keys
are made of the multi-cluster name, which the groups of several clusters share.
`Update` replaces what it finds under the keys of a changed group.

* `checkoutTracker_spec`: one group's pending slices become applied;
* `update_spec`: what an `Update` leaves under each service port name;
* `endpoints_recomputed`: in the runs in which no changed group shares a service
  port name with endpoints of another group that it lacks, the map has after each
  `Update` exactly what the present slices contribute.
-/

namespace Fleetboard.Proxy

variable {cfg : Config}

/-! ## A group -/

/-- What becomes of an applied slice when a pending one replaces it. -/
def settle (applied : Option EndpointSliceInfo) :
    Option (Option EndpointSliceInfo) → Option EndpointSliceInfo
  | some pending => pending.filter (!·.remove)
  | none => applied

/-- The slice of the name that the group will have applied. -/
def EndpointSliceTracker.effective (tracker : EndpointSliceTracker) (name : String) :
    Option EndpointSliceInfo :=
  settle (tracker.applied.lookup name) (tracker.pending.lookup name)

/-- The group contributes the endpoint now. -/
def Before (cfg : Config) (tracker : EndpointSliceTracker) (spn : ServicePortName) (str : String) :
    Prop :=
  GroupHas cfg tracker.applied spn str

/-- The group contributes the endpoint once its pending slices are applied. -/
def After (cfg : Config) (tracker : EndpointSliceTracker) (spn : ServicePortName) (str : String) :
    Prop :=
  ∃ name info, tracker.effective name = some info ∧ Contributes cfg info spn str

/-- The applied slices are not removals. -/
def AppliedKept (tracker : EndpointSliceTracker) : Prop :=
  ∀ name info, tracker.applied.lookup name = some info → info.remove = false

theorem settle_some (applied : Option EndpointSliceInfo) (info : EndpointSliceInfo) :
    settle applied (some (some info)) = if info.remove then none else some info := by
  cases hr : info.remove <;> simp [settle, Option.filter, hr]

theorem applyPending_lookup {applied applied' : GoMap String EndpointSliceInfo} {sliceKey : String}
    {pending : Option EndpointSliceInfo}
    (h : applyPending applied ⟨sliceKey, pending⟩ = .ok applied') (name : String) :
    applied'.lookup name =
      settle (applied.lookup name) (if name = sliceKey then some pending else none) := by
  obtain ⟨info, hinfo, h⟩ := Go.bind_eq_ok.mp h
  obtain rfl := (Except.ok.inj h).symm
  have hp : pending = some info := by
    cases pending with
    | none => cases hinfo
    | some i => rw [Except.ok.inj hinfo]
  rw [hp]
  by_cases hn : name = sliceKey
  · subst hn
    rw [if_pos rfl, settle_some]
    cases hr : info.remove <;> simp
  · rw [if_neg hn, settle]
    cases hr : info.remove <;> simp [hn]

theorem foldlM_applyPending_lookup {es : List ((_ : String) × Option EndpointSliceInfo)}
    (hes : es.NodupKeys) {applied applied' : GoMap String EndpointSliceInfo}
    (h : es.foldlM applyPending applied = Except.ok applied') (name : String) :
    applied'.lookup name = settle (applied.lookup name) (es.dlookup name) := by
  induction es generalizing applied with
  | nil =>
    obtain rfl := Except.ok.inj h
    rfl
  | cons e es ih =>
    obtain ⟨hnot, hnodup⟩ := List.nodupKeys_cons.mp hes
    obtain ⟨applied₁, h₁, h₂⟩ := Go.foldlM_cons_eq_ok.mp h
    rw [ih hnodup h₂, applyPending_lookup h₁]
    by_cases hn : name = e.1
    · subst hn
      rw [List.dlookup_eq_none.mpr hnot, List.dlookup_cons_eq, if_pos rfl]
      rfl
    · rw [List.dlookup_cons_ne _ _ hn, if_neg hn]
      rfl

/-- The change of a group. -/
structure IsChange (cfg : Config) (tracker : EndpointSliceTracker) (c : EndpointsChange) : Prop where
  previous : NoEmptyList c.previous ∧ ∀ spn str, EpHas c.previous spn str ↔ Before cfg tracker spn str
  current : NoEmptyList c.current ∧ ∀ spn str, EpHas c.current spn str ↔ After cfg tracker spn str

theorem effective_of_no_pending {tracker : EndpointSliceTracker} (h : tracker.pending.entries = [])
    (name : String) : tracker.effective name = tracker.applied.lookup name := by
  rw [EndpointSliceTracker.effective, GoMap.entries_eq_nil_iff.mp h]
  rfl

/-- One group's pending slices become applied. -/
theorem checkoutTracker_spec {order : RangeOrder ((_ : String) × EndpointSliceInfo)}
    {tracker tracker' : EndpointSliceTracker} {change : Option EndpointsChange}
    (h : checkoutTracker cfg order tracker = .ok (tracker', change)) :
    (tracker'.pending.entries = [] ∧
      ∀ name, tracker'.applied.lookup name = tracker.effective name) ∧
    ((tracker.pending.entries = [] ∧ tracker' = tracker ∧ change = none) ∨
      tracker.pending.entries ≠ [] ∧ ∃ c, change = some c ∧ IsChange cfg tracker c) := by
  rw [checkoutTracker] at h
  by_cases hp : tracker.pending.entries = []
  · rw [if_pos hp] at h
    cases h
    exact ⟨⟨hp, fun name => (effective_of_no_pending hp name).symm⟩, .inl ⟨hp, rfl, rfl⟩⟩
  · rw [if_neg hp] at h
    obtain ⟨previous, hprev, h⟩ := Go.bind_eq_ok.mp h
    obtain ⟨applied, happlied, h⟩ := Go.bind_eq_ok.mp h
    obtain ⟨current, hcur, h⟩ := Go.bind_eq_ok.mp h
    cases h
    have heff : ∀ name, applied.lookup name = tracker.effective name :=
      foldlM_applyPending_lookup tracker.pending.nodupKeys happlied
    refine ⟨⟨rfl, heff⟩, .inr ⟨hp, _, rfl, getEndpointsMap_spec hprev, ?_⟩⟩
    obtain ⟨h₁, h₂⟩ := getEndpointsMap_spec hcur
    refine ⟨h₁, fun spn str => (h₂ spn str).trans ?_⟩
    simp only [GroupHas, After, heff]

theorem AppliedKept.effective {tracker : EndpointSliceTracker} (h : AppliedKept tracker)
    {name : String} {info : EndpointSliceInfo} (he : tracker.effective name = some info) :
    info.remove = false := by
  rw [EndpointSliceTracker.effective] at he
  cases hp : tracker.pending.lookup name with
  | none =>
    rw [hp] at he
    exact h name info he
  | some pending =>
    rw [hp, settle, Option.filter_eq_some_iff] at he
    simpa using he.2

/-! ## A changed slice -/

/-- A slice with the fleetboard labels, and with the service name that slices of
its name have. -/
structure Labelled (svc : NamespacedName → String) (slice : EndpointSlice) : Prop where
  ns_ne : slice.ns ≠ ""
  name_ne : slice.name ≠ ""
  service : slice.labels.lookup Known.DiscoveryServiceName = some (svc ⟨slice.ns, slice.name⟩)
  service_ne : svc ⟨slice.ns, slice.name⟩ ≠ ""
  hasName : slice.labels.lookup Known.LabelServiceName ≠ none
  hasNamespace : slice.labels.lookup Known.LabelServiceNameSpace ≠ none

variable {svc : NamespacedName → String} {slice : EndpointSlice} {cache cache' : EndpointSliceCache}
  {epm epm' : EndpointsMap} {st st' : ProxyState}

theorem Labelled.cacheKeys (h : Labelled svc slice) : endpointSliceCacheKeys slice =
      some (⟨slice.ns, svc ⟨slice.ns, slice.name⟩⟩, slice.name) := by
  simp only [endpointSliceCacheKeys, h.service]
  rw [if_neg]
  simp [h.service_ne, h.ns_ne, h.name_ne]

theorem newEndpointSliceInfo_remove {remove : Bool} {info : EndpointSliceInfo}
    (h : newEndpointSliceInfo cfg slice remove = .ok (some info)) :
    info.remove = remove := by
  unfold newEndpointSliceInfo at h
  split at h
  · obtain ⟨ports, -, h⟩ := Go.bind_eq_ok.mp h
    cases h
    rfl
  · cases h

/-- With the fleetboard labels the record is not nil. -/
theorem newEndpointSliceInfo_some (hname : slice.labels.lookup Known.LabelServiceName ≠ none)
    (hns : slice.labels.lookup Known.LabelServiceNameSpace ≠ none) {remove : Bool}
    {esInfo : Option EndpointSliceInfo} (h : newEndpointSliceInfo cfg slice remove = .ok esInfo) :
    ∃ info, esInfo = some info := by
  obtain ⟨n, hn⟩ := Option.ne_none_iff_exists'.mp hname
  obtain ⟨ns, hns⟩ := Option.ne_none_iff_exists'.mp hns
  simp only [newEndpointSliceInfo, hn, hns] at h
  obtain ⟨ports, -, h⟩ := Go.bind_eq_ok.mp h
  cases h
  exact ⟨_, rfl⟩

/-- What the cache will have applied of a slice after its event, whether or not
the event has changed the cache. -/
theorem esInfoChanged_effective {tracker : EndpointSliceTracker} (hk : AppliedKept tracker)
    {sliceKey : String} {info : EndpointSliceInfo}
    (h : esInfoChanged tracker sliceKey (some info) = .ok false) :
    tracker.effective sliceKey = if info.remove then none else some info := by
  rw [esInfoChanged] at h
  rw [EndpointSliceTracker.effective]
  cases hp : tracker.pending.lookup sliceKey with
  | some pending =>
    simp only [hp] at h
    have hpending : some info = pending := by simpa using Except.ok.inj h
    rw [← hpending, settle_some]
  | none =>
    simp only [hp] at h
    cases ha : tracker.applied.lookup sliceKey with
    | some applied =>
      simp only [ha] at h
      have happlied : info = applied := by simpa using Except.ok.inj h
      rw [settle, happlied, hk sliceKey applied ha]
      rfl
    | none =>
      simp only [ha] at h
      have hremove : info.remove = true := by simpa using Except.ok.inj h
      rw [settle, hremove]
      rfl

/-- The group of a slice in the cache, or an empty one. -/
def trackerOf (cache : EndpointSliceCache) (g : NamespacedName) : EndpointSliceTracker :=
  (cache.lookup g).getD newEndpointSliceTracker

/-- The event of a slice changes what its group will have applied under its name,
and nothing else; when it returns false, it changes nothing at all. -/
theorem updatePending_of_keys {g : NamespacedName} {sliceKey : String}
    (hkeys : endpointSliceCacheKeys slice = some (g, sliceKey)) {remove b : Bool}
    {info : EndpointSliceInfo} (hinfo : newEndpointSliceInfo cfg slice remove = .ok (some info))
    (hk : AppliedKept (trackerOf cache g))
    (h : updatePending cfg cache slice remove = .ok (cache', b)) :
    ∃ tracker', cache' = cache.insert g tracker' ∧
      tracker'.applied = (trackerOf cache g).applied ∧
      (b = false → tracker' = trackerOf cache g) ∧
      (∀ name p, tracker'.pending.lookup name = some p →
        (trackerOf cache g).pending.lookup name = some p ∨ p = some info) ∧
      ∀ name, tracker'.effective name =
        if name = sliceKey then (if remove then none else some info)
        else (trackerOf cache g).effective name := by
  have hremove := newEndpointSliceInfo_remove hinfo
  rw [updatePending, hkeys] at h
  obtain ⟨esInfo, hinfo', h⟩ := Go.bind_eq_ok.mp h
  obtain rfl := Except.ok.inj (hinfo.symm.trans hinfo')
  obtain ⟨changed, hchanged, h⟩ := Go.bind_eq_ok.mp h
  rw [← trackerOf] at hchanged h
  generalize trackerOf cache g = tracker at *
  cases changed with
  | true =>
    cases h
    refine ⟨_, rfl, rfl, (by simp), fun name p hp => ?_, fun name => ?_⟩
    · rw [GoMap.lookup_insert_eq] at hp
      split at hp
      · exact .inr (Option.some.inj hp).symm
      · exact .inl hp
    · simp only [EndpointSliceTracker.effective, GoMap.lookup_insert_eq]
      by_cases hn : name = sliceKey
      · rw [if_pos hn, if_pos hn, settle_some, hremove]
      · rw [if_neg hn, if_neg hn]
  | false =>
    cases h
    refine ⟨_, rfl, rfl, fun _ => rfl, fun _ _ hp => .inl hp, fun name => ?_⟩
    by_cases hn : name = sliceKey
    · rw [if_pos hn, hn, esInfoChanged_effective hk hchanged, hremove]
    · rw [if_neg hn]

theorem updatePending_spec (hl : Labelled svc slice) {remove b : Bool}
    (hk : AppliedKept (trackerOf cache ⟨slice.ns, svc ⟨slice.ns, slice.name⟩⟩))
    (h : updatePending cfg cache slice remove = .ok (cache', b)) :
    ∃ info tracker', newEndpointSliceInfo cfg slice remove = .ok (some info) ∧
      cache' = cache.insert ⟨slice.ns, svc ⟨slice.ns, slice.name⟩⟩ tracker' ∧
      tracker'.applied = (trackerOf cache ⟨slice.ns, svc ⟨slice.ns, slice.name⟩⟩).applied ∧
      ∀ name, tracker'.effective name =
        if name = slice.name then (if remove then none else some info)
        else (trackerOf cache ⟨slice.ns, svc ⟨slice.ns, slice.name⟩⟩).effective name := by
  have hpending := h
  rw [updatePending, hl.cacheKeys] at hpending
  obtain ⟨esInfo, hinfo, -⟩ := Go.bind_eq_ok.mp hpending
  obtain ⟨info, rfl⟩ := newEndpointSliceInfo_some hl.hasName hl.hasNamespace hinfo
  obtain ⟨tracker', hcache, happlied, -, -, heffective⟩ :=
    updatePending_of_keys hl.cacheKeys hinfo hk h
  exact ⟨info, tracker', hinfo, hcache, happlied, heffective⟩

/-! ## An update of the map -/

/-- The groups whose slices have changed hand over their changes. -/
theorem checkoutChanges_spec {env : UpdateEnv} {changes : List (NamespacedName × EndpointsChange)}
    (h : checkoutChanges cfg env cache = .ok (cache', changes)) :
    (∀ g tracker', cache'.lookup g = some tracker' → ∃ tracker, cache.lookup g = some tracker ∧
      ∃ change, checkoutTracker cfg env.slices tracker = .ok (tracker', change)) ∧
    (∀ g tracker, cache.lookup g = some tracker → ∃ tracker', cache'.lookup g = some tracker' ∧
      ∃ change, checkoutTracker cfg env.slices tracker = .ok (tracker', change) ∧
        ∀ c, change = some c → (g, c) ∈ changes) ∧
    ∀ g c, (g, c) ∈ changes → ∃ tracker tracker', cache.lookup g = some tracker ∧
      checkoutTracker cfg env.slices tracker = .ok (tracker', some c) := by
  obtain ⟨m, hm, h⟩ := Go.bind_eq_ok.mp h
  cases h
  obtain ⟨h₁, h₂⟩ := GoMap.lookup_traverse hm
  refine ⟨fun g tracker' hg => ?_, fun g tracker hg => ?_, fun g c hc => ?_⟩
  · rw [GoMap.lookup_mapVals] at hg
    obtain ⟨⟨_, change⟩, hw, rfl⟩ := Option.map_eq_some_iff.mp hg
    obtain ⟨tracker, htracker, hcheckout⟩ := h₁ g _ hw
    exact ⟨tracker, htracker, change, hcheckout⟩
  · obtain ⟨⟨tracker', change⟩, hw, hcheckout⟩ := h₂ g tracker hg
    refine ⟨tracker', by rw [GoMap.lookup_mapVals, hw]; rfl, change, hcheckout, ?_⟩
    rintro c rfl
    exact List.mem_filterMap.mpr ⟨⟨g, _⟩, GoMap.mem_entries_iff.mpr hw, rfl⟩
  · obtain ⟨⟨g', tracker', change⟩, he, hmap⟩ := List.mem_filterMap.mp hc
    obtain ⟨c', rfl, hpair⟩ := Option.map_eq_some_iff.mp hmap
    cases hpair
    obtain ⟨tracker, htracker, hcheckout⟩ := h₁ _ _ (GoMap.mem_entries_iff.mp he)
    exact ⟨tracker, tracker', htracker, hcheckout⟩

theorem touches_iff {c : EndpointsChange} {tracker : EndpointSliceTracker}
    (h : IsChange cfg tracker c) (spn : ServicePortName) :
    GoMap.Touches (c.previous, c.current) spn ↔
      ∃ str, Before cfg tracker spn str ∨ After cfg tracker spn str := by
  have hne : ∀ {em : EndpointsMap}, NoEmptyList em →
      (em.lookup spn ≠ none ↔ ∃ str, EpHas em spn str) := by
    intro em hem
    constructor
    · intro hne
      obtain ⟨eps, heps⟩ := Option.ne_none_iff_exists'.mp hne
      obtain ⟨e, he⟩ := List.exists_mem_of_ne_nil eps (hem spn eps heps)
      exact ⟨e.endpoint, eps, heps, e, he, rfl⟩
    · rintro ⟨str, eps, heps, -⟩
      simp [heps]
  rw [GoMap.Touches, hne h.previous.1, hne h.current.1, ← exists_or]
  simp only [h.previous.2, h.current.2]

/-- Every changed group has, under each service port name that it contributes to
before or after, all the endpoints that the groups have there after. -/
def ChangedGroupsCover (cfg : Config) (cache : EndpointSliceCache) : Prop :=
  ∀ g tracker, cache.lookup g = some tracker → tracker.pending.entries ≠ [] →
    ∀ spn, (∃ str, Before cfg tracker spn str ∨ After cfg tracker spn str) →
      ∀ g' tracker' str, cache.lookup g' = some tracker' → After cfg tracker' spn str →
        After cfg tracker spn str

/-- The parts of the map that the changes of a loop replace. -/
def replacements (env : UpdateEnv) (changes : List (NamespacedName × EndpointsChange)) :
    List (EndpointsMap × EndpointsMap) :=
  (env.changes.visit changes).map fun c => (c.2.previous, c.2.current)

theorem update_eq (env : UpdateEnv) {changes : List (NamespacedName × EndpointsChange)}
    (h : checkoutChanges cfg env cache = .ok (cache', changes)) (epm : EndpointsMap) :
    ∃ res, Update cfg epm cache env =
      .ok ((replacements env changes).foldl GoMap.replace epm, cache', res) := by
  rw [Update, h, replacements, List.foldl_map]
  exact ⟨_, rfl⟩

theorem update_inv {env : UpdateEnv} {res : UpdateEndpointMapResult}
    (h : Update cfg epm cache env = .ok (epm', cache', res)) :
    ∃ changes, checkoutChanges cfg env cache = .ok (cache', changes) ∧
      epm' = (replacements env changes).foldl GoMap.replace epm := by
  obtain ⟨⟨cache₁, changes⟩, hcheckout, -⟩ := Go.bind_eq_ok.mp h
  obtain ⟨res', heq⟩ := update_eq env hcheckout epm
  cases h.symm.trans heq
  exact ⟨changes, hcheckout, rfl⟩

/-- What an update leaves under a service port name: the endpoints of one of the
changed groups that contribute to it, or what was there when there is none. -/
theorem update_spec {env : UpdateEnv} {res : UpdateEndpointMapResult}
    (h : Update cfg epm cache env = .ok (epm', cache', res)) (spn : ServicePortName) :
    (∃ g tracker, cache.lookup g = some tracker ∧ tracker.pending.entries ≠ [] ∧
      (∃ str, Before cfg tracker spn str ∨ After cfg tracker spn str) ∧
      ∀ str, EpHas epm' spn str ↔ After cfg tracker spn str) ∨
    ((∀ g tracker, cache.lookup g = some tracker → tracker.pending.entries ≠ [] →
        ∀ str, ¬ Before cfg tracker spn str ∧ ¬ After cfg tracker spn str) ∧
      ∀ str, EpHas epm' spn str ↔ EpHas epm spn str) := by
  obtain ⟨changes, hcheckout, rfl⟩ := update_inv h
  obtain ⟨-, hto, hfrom⟩ := checkoutChanges_spec hcheckout
  rcases GoMap.lookup_foldl_replace (replacements env changes) epm spn with
    ⟨hno, hl⟩ | ⟨c, hc, ht, hl⟩
  · refine .inr ⟨fun g tracker hg hp str => ?_, fun str => by simp only [EpHas, hl]⟩
    obtain ⟨tracker', -, change, htracker, hmem⟩ := hto g tracker hg
    obtain ⟨-, ⟨hnil, -⟩ | ⟨-, c, rfl, hchange⟩⟩ := checkoutTracker_spec htracker
    · exact absurd hnil hp
    · have hnot := hno _ (List.mem_map.mpr
        ⟨(g, c), env.changes.mem_visit.mpr (hmem c rfl), rfl⟩)
      rw [touches_iff hchange] at hnot
      exact ⟨fun hb => hnot ⟨str, .inl hb⟩, fun ha => hnot ⟨str, .inr ha⟩⟩
  · obtain ⟨⟨g, c'⟩, hc', rfl⟩ := List.mem_map.mp hc
    obtain ⟨tracker, tracker', hg, htracker⟩ := hfrom g c' (env.changes.mem_visit.mp hc')
    obtain ⟨-, ⟨-, -, hnone⟩ | ⟨hp, c, hcc, hchange⟩⟩ := checkoutTracker_spec htracker
    · cases hnone
    · cases hcc
      refine .inl ⟨g, tracker, hg, hp, (touches_iff hchange spn).mp ht, fun str => ?_⟩
      rw [← hchange.current.2]
      simp only [EpHas, hl]

/-! ## Runs of the proxy -/

/-- The proxy's cache and endpoints map, and the slices that are present: those
whose last event is not a removal. -/
structure ProxyState where
  cache : EndpointSliceCache
  epm : EndpointsMap
  present : GoMap NamespacedName EndpointSlice

def newProxy : ProxyState := ⟨∅, ∅, ∅⟩

/-- A call of `EndpointSliceUpdate` or of `EndpointsMap.Update`. -/
inductive ProxyEvent
  | slice (endpointSlice : EndpointSlice) (remove : Bool)
  | update (env : UpdateEnv)

/-- The slices present after an event of a slice. -/
def presentAfter (present : GoMap NamespacedName EndpointSlice) (slice : EndpointSlice)
    (remove : Bool) : GoMap NamespacedName EndpointSlice :=
  if remove then present.erase ⟨slice.ns, slice.name⟩ else present.insert ⟨slice.ns, slice.name⟩ slice

def ProxyState.exec (cfg : Config) (st : ProxyState) : ProxyEvent → Go ProxyState
  | .slice endpointSlice remove => do
    let (cache, _) ← EndpointSliceUpdate cfg st.cache endpointSlice remove
    pure { st with cache, present := presentAfter st.present endpointSlice remove }
  | .update env => do
    let (epm, cache, _) ← Update cfg st.epm st.cache env
    pure { st with cache, epm }

def proxyStep (cfg : Config) (st : ProxyState) (e : ProxyEvent) (st' : ProxyState) : Prop :=
  st.exec cfg e = .ok st'

/-- A present slice contributes the endpoint. Slices of an address type that the
proxy does not support contribute nothing. -/
def PresentHas (cfg : Config) (st : ProxyState) (spn : ServicePortName) (str : String) : Prop :=
  ∃ key slice info, st.present.lookup key = some slice ∧ supportedAddressType slice.addressType ∧
    newEndpointSliceInfo cfg slice false = .ok (some info) ∧ Contributes cfg info spn str

/-- The endpoints map has what the present slices contribute. -/
def Recomputed (cfg : Config) (st : ProxyState) : Prop :=
  ∀ spn str, EpHas st.epm spn str ↔ PresentHas cfg st spn str

/-- The slices of the events have their labels. -/
def LabelledEvent (svc : NamespacedName → String) : ProxyEvent → Prop
  | .slice slice _ => Labelled svc slice
  | .update _ => True

/-- When a map is updated, the changed groups cover the others. A slice of an
unsupported address type does not take the place of one that the cache has. -/
def Separate (cfg : Config) (st : ProxyState) : ProxyEvent → Prop
  | .slice slice _ => ¬ supportedAddressType slice.addressType →
      ∀ old, st.present.lookup ⟨slice.ns, slice.name⟩ = some old →
        ¬ supportedAddressType old.addressType
  | .update _ => ChangedGroupsCover cfg st.cache

/-- A slice of the group is present, and this is what the proxy keeps of it. -/
def PresentInfo (svc : NamespacedName → String) (cfg : Config)
    (present : GoMap NamespacedName EndpointSlice) (g : NamespacedName) (name : String)
    (info : EndpointSliceInfo) : Prop :=
  ∃ slice, present.lookup ⟨g.ns, name⟩ = some slice ∧ svc ⟨g.ns, name⟩ = g.name ∧
    supportedAddressType slice.addressType ∧ newEndpointSliceInfo cfg slice false = .ok (some info)

/-- The cache will have applied the present slices, and the map has what is
applied. -/
structure Tracks (svc : NamespacedName → String) (cfg : Config) (st : ProxyState) : Prop where
  effective : ∀ g name info, (trackerOf st.cache g).effective name = some info ↔
    PresentInfo svc cfg st.present g name info
  kept : ∀ g, AppliedKept (trackerOf st.cache g)
  applied : ∀ spn str, EpHas st.epm spn str ↔ ∃ g, Before cfg (trackerOf st.cache g) spn str

theorem trackerOf_insert (cache : EndpointSliceCache) (g g' : NamespacedName)
    (tracker : EndpointSliceTracker) :
    trackerOf (cache.insert g tracker) g' = if g' = g then tracker else trackerOf cache g' := by
  rw [trackerOf, GoMap.lookup_insert_eq]
  split
  · rfl
  · rfl

theorem not_before_new (spn : ServicePortName) (str : String) :
    ¬ Before cfg newEndpointSliceTracker spn str := by
  rintro ⟨name, info, hl, -⟩
  cases hl

theorem tracks_newProxy (svc : NamespacedName → String) : Tracks svc cfg newProxy where
  effective g name info := by
    constructor
    · intro h
      cases h
    · rintro ⟨slice, hl, -⟩
      cases hl
  kept g name info h := by cases h
  applied spn str := by
    constructor
    · rintro ⟨eps, hl, -⟩
      cases hl
    · rintro ⟨g, hg⟩
      exact absurd hg (not_before_new spn str)

theorem lookup_presentAfter (present : GoMap NamespacedName EndpointSlice) (slice : EndpointSlice)
    (remove : Bool) (key : NamespacedName) :
    (presentAfter present slice remove).lookup key =
      if key = ⟨slice.ns, slice.name⟩ then (if remove then none else some slice)
      else present.lookup key := by
  cases remove with
  | true => exact GoMap.lookup_erase_eq present _ key
  | false => exact GoMap.lookup_insert_eq present _ key slice

theorem presentInfo_congr {present present' : GoMap NamespacedName EndpointSlice}
    {g : NamespacedName} {name : String}
    (h : present'.lookup ⟨g.ns, name⟩ = present.lookup ⟨g.ns, name⟩) (info : EndpointSliceInfo) :
    PresentInfo svc cfg present' g name info ↔ PresentInfo svc cfg present g name info := by
  simp only [PresentInfo, h]

/-- Only the group of a slice has it among its present slices. -/
theorem presentInfo_of_other_group {present : GoMap NamespacedName EndpointSlice} {remove : Bool}
    {g : NamespacedName} (hg : g ≠ ⟨slice.ns, svc ⟨slice.ns, slice.name⟩⟩) (name : String)
    (info : EndpointSliceInfo) :
    PresentInfo svc cfg (presentAfter present slice remove) g name info ↔
      PresentInfo svc cfg present g name info := by
  by_cases hkey : (⟨g.ns, name⟩ : NamespacedName) = ⟨slice.ns, slice.name⟩
  · have hns : g.ns = slice.ns := congrArg NamespacedName.ns hkey
    have hsvc : svc ⟨g.ns, name⟩ ≠ g.name := by
      intro hsvc
      apply hg
      rw [← hkey, hsvc, ← hns]
    exact ⟨fun ⟨_, _, h, _⟩ => absurd h hsvc, fun ⟨_, _, h, _⟩ => absurd h hsvc⟩
  · exact presentInfo_congr (by rw [lookup_presentAfter, if_neg hkey]) info

/-- The event of a slice that the proxy supports. -/
theorem Tracks.updatePending (h : Tracks svc cfg st) (hl : Labelled svc slice)
    (hsup : supportedAddressType slice.addressType) {remove b : Bool} {cache' : EndpointSliceCache}
    (hup : updatePending cfg st.cache slice remove = .ok (cache', b)) :
    Tracks svc cfg { st with cache := cache', present := presentAfter st.present slice remove } := by
  obtain ⟨info, tracker', hinfo, rfl, happlied, heff⟩ := updatePending_spec hl (h.kept _) hup
  have hsame : ∀ g, (trackerOf (st.cache.insert ⟨slice.ns, svc ⟨slice.ns, slice.name⟩⟩ tracker')
      g).applied = (trackerOf st.cache g).applied := by
    intro g
    rw [trackerOf_insert]
    split
    · rename_i hg
      rw [hg, happlied]
    · rfl
  refine ⟨fun g name info' => ?_, fun g => ?_, fun spn str => ?_⟩
  · show (trackerOf (st.cache.insert _ tracker') g).effective name = some info' ↔ _
    rw [trackerOf_insert]
    by_cases hg : g = ⟨slice.ns, svc ⟨slice.ns, slice.name⟩⟩
    · rw [if_pos hg, heff]
      by_cases hn : name = slice.name
      · subst hg hn
        rw [if_pos rfl, PresentInfo, lookup_presentAfter, if_pos rfl]
        cases remove with
        | true => simp
        | false => simp [hsup, hinfo]
      · rw [if_neg hn, ← hg, h.effective]
        refine (presentInfo_congr ?_ info').symm
        rw [lookup_presentAfter, if_neg fun hkey => hn (congrArg NamespacedName.name hkey)]
    · rw [if_neg hg, h.effective]
      exact (presentInfo_of_other_group hg name info').symm
  · show AppliedKept (trackerOf (st.cache.insert _ tracker') g)
    rw [AppliedKept, hsame]
    exact h.kept g
  · show _ ↔ ∃ g, Before cfg (trackerOf (st.cache.insert _ tracker') g) spn str
    simp only [Before, hsame]
    exact h.applied spn str

/-- The event of a slice that the proxy does not support. -/
theorem Tracks.ignored (h : Tracks svc cfg st) (hsup : ¬ supportedAddressType slice.addressType)
    (hold : ∀ old, st.present.lookup ⟨slice.ns, slice.name⟩ = some old →
      ¬ supportedAddressType old.addressType) (remove : Bool) :
    Tracks svc cfg { st with present := presentAfter st.present slice remove } where
  effective g name info := by
    rw [h.effective]
    by_cases hkey : (⟨g.ns, name⟩ : NamespacedName) = ⟨slice.ns, slice.name⟩
    · constructor
      · rintro ⟨old, hl, -, hs, -⟩
        exact absurd hs (hold old (hkey ▸ hl))
      · rintro ⟨new, hl, -, hs, -⟩
        rw [lookup_presentAfter, if_pos hkey] at hl
        cases remove with
        | true => cases hl
        | false =>
          obtain rfl := Option.some_inj.mp hl
          exact absurd hs hsup
    · exact (presentInfo_congr (by rw [lookup_presentAfter, if_neg hkey]) info).symm
  kept := h.kept
  applied := h.applied

theorem Tracks.sliceEvent (h : Tracks svc cfg st) {remove : Bool} (hl : Labelled svc slice)
    (hsep : Separate cfg st (.slice slice remove))
    (hstep : proxyStep cfg st (.slice slice remove) st') : Tracks svc cfg st' := by
  obtain ⟨⟨cache', b⟩, hup, hst⟩ := Go.bind_eq_ok.mp hstep
  cases hst
  rw [EndpointSliceUpdate] at hup
  by_cases hsup : supportedAddressType slice.addressType
  · rw [if_neg (not_not_intro hsup), hl.cacheKeys] at hup
    exact h.updatePending hl hsup hup
  · rw [if_pos hsup] at hup
    cases hup
    exact h.ignored hsup (hsep hsup) remove

/-- After the changes are checked out, every group has applied what it was to
apply. -/
theorem checkoutChanges_applied {env : UpdateEnv}
    {changes : List (NamespacedName × EndpointsChange)}
    (h : checkoutChanges cfg env cache = .ok (cache', changes)) (g : NamespacedName) :
    (trackerOf cache' g).pending.entries = [] ∧
      ∀ name, (trackerOf cache' g).applied.lookup name = (trackerOf cache g).effective name := by
  obtain ⟨hback, hto, -⟩ := checkoutChanges_spec h
  simp only [trackerOf]
  cases hg : cache.lookup g with
  | none =>
    cases hg' : cache'.lookup g with
    | none => exact ⟨rfl, fun _ => rfl⟩
    | some tracker' =>
      obtain ⟨tracker, hl, -⟩ := hback g tracker' hg'
      rw [hg] at hl
      cases hl
  | some tracker =>
    obtain ⟨tracker', hg', change, htracker, -⟩ := hto g tracker hg
    rw [hg']
    exact (checkoutTracker_spec htracker).1

theorem after_trackerOf {cache : EndpointSliceCache} {g : NamespacedName} {spn : ServicePortName}
    {str : String} : After cfg (trackerOf cache g) spn str ↔
      ∃ tracker, cache.lookup g = some tracker ∧ After cfg tracker spn str := by
  cases hg : cache.lookup g with
  | none =>
    simp only [trackerOf, hg, reduceCtorEq, false_and, exists_false, iff_false]
    rintro ⟨name, info, hl, -⟩
    cases hl
  | some tracker => simp [trackerOf, hg]

/-- A group without changes contributes after what it did before. -/
theorem before_iff_after {tracker : EndpointSliceTracker} (h : tracker.pending.entries = [])
    (spn : ServicePortName) (str : String) :
    Before cfg tracker spn str ↔ After cfg tracker spn str := by
  simp only [Before, After, GroupHas, effective_of_no_pending h]

/-- Where the changed groups cover the others, an update leaves under each
service port name what all groups contribute. -/
theorem update_epHas {env : UpdateEnv} {res : UpdateEndpointMapResult}
    (h : Update cfg epm cache env = .ok (epm', cache', res))
    (hepm : ∀ spn str, EpHas epm spn str ↔ ∃ g, Before cfg (trackerOf cache g) spn str)
    (hcover : ChangedGroupsCover cfg cache) (spn : ServicePortName) (str : String) :
    EpHas epm' spn str ↔ ∃ g, After cfg (trackerOf cache g) spn str := by
  rcases update_spec h spn with ⟨g, tracker, hg, hp, htouch, hiff⟩ | ⟨hno, hiff⟩
  · rw [hiff]
    constructor
    · intro ha
      exact ⟨g, after_trackerOf.mpr ⟨tracker, hg, ha⟩⟩
    · rintro ⟨g', hg'⟩
      obtain ⟨tracker', hl, ha⟩ := after_trackerOf.mp hg'
      exact hcover g tracker hg hp spn htouch g' tracker' str hl ha
  · rw [hiff, hepm]
    refine exists_congr fun g => ?_
    cases hg : cache.lookup g with
    | none =>
      rw [trackerOf, hg]
      exact before_iff_after rfl spn str
    | some tracker =>
      rw [trackerOf, hg, Option.getD_some]
      by_cases hp : tracker.pending.entries = []
      · exact before_iff_after hp spn str
      · obtain ⟨hb, ha⟩ := hno g tracker hg hp str
        exact ⟨fun h => absurd h hb, fun h => absurd h ha⟩

theorem Tracks.update (h : Tracks svc cfg st) {env : UpdateEnv}
    (hcover : ChangedGroupsCover cfg st.cache) (hstep : proxyStep cfg st (.update env) st') :
    Tracks svc cfg st' ∧ Recomputed cfg st' := by
  obtain ⟨⟨epm', cache', res⟩, hup, hst⟩ := Go.bind_eq_ok.mp hstep
  cases hst
  have hepm := update_epHas hup h.applied hcover
  obtain ⟨changes, hcheckout, -⟩ := update_inv hup
  have happlied := checkoutChanges_applied hcheckout
  have heff : ∀ g name, (trackerOf cache' g).effective name = (trackerOf st.cache g).effective name :=
    fun g name => (effective_of_no_pending (happlied g).1 name).trans ((happlied g).2 name)
  have hafter : ∀ g spn str, Before cfg (trackerOf cache' g) spn str ↔
      After cfg (trackerOf st.cache g) spn str := by
    intro g spn str
    simp only [Before, After, GroupHas, (happlied g).2]
  refine ⟨⟨fun g name info => ?_, fun g name info hl => ?_, fun spn str => ?_⟩, fun spn str => ?_⟩
  · rw [heff]
    exact h.effective g name info
  · rw [(happlied g).2] at hl
    exact (h.kept g).effective hl
  · simp only [hafter]
    exact hepm spn str
  · rw [hepm]
    constructor
    · rintro ⟨g, name, info, he, hc⟩
      obtain ⟨slice, hl, -, hsup, hinfo⟩ := (h.effective g name info).mp he
      exact ⟨⟨g.ns, name⟩, slice, info, hl, hsup, hinfo, hc⟩
    · rintro ⟨key, slice, info, hl, hsup, hinfo, hc⟩
      exact ⟨⟨key.ns, svc key⟩, key.name, info,
        (h.effective _ _ _).mpr ⟨slice, hl, rfl, hsup, hinfo⟩, hc⟩

/-- Without the condition, some order of the loop over the changes leaves another
map. -/
theorem cover_of_recomputed (h : Tracks svc cfg st) {env : UpdateEnv}
    (hok : ∃ st', proxyStep cfg st (.update env) st')
    (hrec : ∀ changes st', proxyStep cfg st (.update { env with changes }) st' → Recomputed cfg st') :
    ChangedGroupsCover cfg st.cache := by
  intro g tracker hg hp spn htouch g' tracker' str hg' ha
  obtain ⟨st₁, hst₁⟩ := hok
  obtain ⟨⟨epm', cache', res⟩, hup, -⟩ := Go.bind_eq_ok.mp hst₁
  obtain ⟨changes, hcheckout, -⟩ := update_inv hup
  obtain ⟨-, hto, hfrom⟩ := checkoutChanges_spec hcheckout
  obtain ⟨_, -, change, htracker, hmem⟩ := hto g tracker hg
  obtain ⟨-, ⟨hnil, -⟩ | ⟨-, c, rfl, hchange⟩⟩ := checkoutTracker_spec htracker
  · exact absurd hnil hp
  -- The loop that visits the change of the group last leaves its endpoints.
  let order : RangeOrder (NamespacedName × EndpointsChange) := .last fun c => c.1 = g
  have hlast : ∀ c' ∈ (changes.filter fun c => c.1 = g).map fun c => (c.2.previous, c.2.current),
      c' = (c.previous, c.current) := by
    intro c' hc'
    obtain ⟨⟨g₁, c₁⟩, hfilter, rfl⟩ := List.mem_map.mp hc'
    obtain ⟨hmem₁, hg₁⟩ := List.mem_filter.mp hfilter
    obtain rfl : g₁ = g := of_decide_eq_true hg₁
    obtain ⟨tracker₁, _, hl, hcheckout₁⟩ := hfrom g₁ c₁ hmem₁
    obtain rfl := Option.some_inj.mp (hg.symm.trans hl)
    cases hcheckout₁.symm.trans htracker
    rfl
  have hne : (changes.filter fun c => c.1 = g).map (fun c => (c.2.previous, c.2.current)) ≠ [] :=
    List.ne_nil_of_mem (List.mem_map_of_mem
      (List.mem_filter.mpr ⟨hmem c rfl, decide_eq_true rfl⟩))
  obtain ⟨res', hupdate⟩ := update_eq { env with changes := order } hcheckout st.epm
  have hstep : proxyStep cfg st (.update { env with changes := order }) _ :=
    Go.bind_eq_ok.mpr ⟨_, hupdate, rfl⟩
  have hpresent : PresentHas cfg st spn str := by
    obtain ⟨name, info, he, hc⟩ := ha
    have he' : (trackerOf st.cache g').effective name = some info := by rw [trackerOf, hg']; exact he
    obtain ⟨slice, hl, -, hsup, hinfo⟩ := (h.effective g' name info).mp he'
    exact ⟨⟨g'.ns, name⟩, slice, info, hl, hsup, hinfo, hc⟩
  have hsplit : replacements { env with changes := order } changes =
      (changes.filter fun c => !decide (c.1 = g)).map (fun c => (c.2.previous, c.2.current)) ++
        (changes.filter fun c => c.1 = g).map fun c => (c.2.previous, c.2.current) :=
    List.map_append
  have hlookup : ((replacements { env with changes := order } changes).foldl GoMap.replace
      st.epm).lookup spn = c.current.lookup spn := by
    rw [hsplit]
    exact GoMap.lookup_foldl_replace_append _ _ st.epm ((touches_iff hchange spn).mpr htouch) hlast hne
  rw [← hchange.current.2, EpHas, ← hlookup]
  exact (hrec order _ hstep spn str).mpr hpresent

/-- What one event keeps. -/
theorem Tracks.step {e : ProxyEvent} (hl : LabelledEvent svc e) (h : Tracks svc cfg st)
    (hstep : Guarded (proxyStep cfg) (Separate cfg) st e st') : Tracks svc cfg st' := by
  cases e with
  | slice slice remove => exact h.sliceEvent hl hstep.2 hstep.1
  | update env => exact (h.update hstep.2 hstep.1).1

/-- In a run all of whose steps meet the condition, the map has after each update
exactly what the present slices contribute. -/
theorem endpoints_recomputed (cfg : Config) {svc : NamespacedName → String} {st : ProxyState}
    {es : List ProxyEvent} {env : UpdateEnv} (hl : ∀ e ∈ es, LabelledEvent svc e)
    (hrun : Runs (Guarded (proxyStep cfg) (Separate cfg)) newProxy (es ++ [.update env]) st) :
    Recomputed cfg st := by
  obtain ⟨st₁, hrun₁, hstep⟩ := Runs.concat_iff.mp hrun
  have htracks : Tracks svc cfg st₁ :=
    Runs.invariant_mem (fun hl h hs => h.step hl hs) hl hrun₁ (tracks_newProxy svc)
  exact (htracks.update hstep.2 hstep.1).2

/-! ## Two clusters that export one service -/

/-- The slice that a cluster exports for the service `shop/web`. -/
def clusterSlice (cluster address : String) : EndpointSlice where
  ns := "syncer-operator"
  name := cluster ++ "-shop-web-1"
  labels := (∅ : GoMap String String).insert Known.LabelServiceName "web"
    |>.insert Known.LabelServiceNameSpace "shop"
    |>.insert Known.DiscoveryServiceName ("derived-" ++ cluster ++ "-shop")
  addressType := .ipv4
  endpoints := [sampleEndpoint address]
  ports := [⟨some "http", some .tcp, some 8080, none⟩]

/-- The service names of the slices of two clusters. -/
def clusterService (key : NamespacedName) : String :=
  if key.name = "c1-shop-web-1" then "derived-c1-shop" else "derived-c2-shop"

def webPort : ServicePortName := ⟨⟨"shop", "web"⟩, "0", .tcp⟩

def storedOrder : UpdateEnv := ⟨.stored, .stored⟩

/-- The state after some events, or before them when one panics. -/
def ProxyState.executed (cfg : Config) (st : ProxyState) (es : List ProxyEvent) : ProxyState :=
  (es.foldlM (ProxyState.exec cfg) st).getD st

theorem runs_executed (cfg : Config) (st : ProxyState) (es : List ProxyEvent)
    (h : (es.foldlM (ProxyState.exec cfg) st).isOk = true) :
    Runs (proxyStep cfg) st es (st.executed cfg es) := by
  have hrun : ∀ (es : List ProxyEvent) {st st' : ProxyState},
      es.foldlM (ProxyState.exec cfg) st = Except.ok st' → Runs (proxyStep cfg) st es st' := by
    intro es
    induction es with
    | nil =>
      intro st st' h
      obtain rfl := Except.ok.inj h
      exact .nil st
    | cons e es ih =>
      intro st st' h
      obtain ⟨st₁, h₁, h₂⟩ := Go.foldlM_cons_eq_ok.mp h
      exact .cons h₁ (ih h₂)
  exact hrun es (Go.eq_ok_getD h st)

/-- The slices present after some events. -/
theorem present_of_run {st st' : ProxyState} {es : List ProxyEvent}
    (h : Runs (proxyStep cfg) st es st') :
    st'.present = es.foldl (fun present e =>
      match e with
      | .slice slice remove => presentAfter present slice remove
      | .update _ => present) st.present := by
  induction h with
  | nil _ => rfl
  | @cons _ _ _ e _ hs _ ih =>
    rw [ih, List.foldl_cons]
    congr 1
    cases e with
    | slice slice remove =>
      obtain ⟨_, -, hst⟩ := Go.bind_eq_ok.mp hs
      cases hst
      rfl
    | update env =>
      obtain ⟨_, -, hst⟩ := Go.bind_eq_ok.mp hs
      cases hst
      rfl

theorem clusterSlice_labelled {cluster : String} (h : cluster = "c1" ∨ cluster = "c2")
    (address : String) : Labelled clusterService (clusterSlice cluster address) where
  ns_ne := show "syncer-operator" ≠ "" by decide
  name_ne := by
    rcases h with rfl | rfl
    · exact show "c1-shop-web-1" ≠ "" by decide
    · exact show "c2-shop-web-1" ≠ "" by decide
  service := by rcases h with rfl | rfl <;> rfl
  service_ne := by
    rcases h with rfl | rfl
    · exact show "derived-c1-shop" ≠ "" by decide
    · exact show "derived-c2-shop" ≠ "" by decide
  hasName := Option.ne_none_iff_exists'.mpr ⟨"web", rfl⟩
  hasNamespace := Option.ne_none_iff_exists'.mpr ⟨"shop", rfl⟩

/-- The groups have slices of different services. -/
def Apart (nn : NamespacedName → NamespacedName) (cache : EndpointSliceCache) : Prop :=
  (cache.entries.map fun e => nn e.1).Nodup ∧ ∀ e ∈ cache.entries,
    (∀ a ∈ e.2.applied.entries, a.2.nn = nn e.1) ∧
      ∀ p ∈ e.2.pending.entries, ∀ info ∈ p.2, info.nn = nn e.1

instance (nn : NamespacedName → NamespacedName) (cache : EndpointSliceCache) :
    Decidable (Apart nn cache) :=
  inferInstanceAs (Decidable (_ ∧ _))

section

variable {nn : NamespacedName → NamespacedName} {cache : EndpointSliceCache} {g : NamespacedName}
  {tracker : EndpointSliceTracker} {spn : ServicePortName} {str : String}

theorem Apart.after (h : Apart nn cache) (hg : cache.lookup g = some tracker)
    (ha : After cfg tracker spn str) : spn.nn = nn g := by
  obtain ⟨name, info, heff, p, -, n, huses, -⟩ := ha
  obtain ⟨happlied, hpending⟩ := h.2 ⟨g, tracker⟩ (GoMap.mem_entries_iff.mpr hg)
  rw [huses.nn_eq]
  unfold EndpointSliceTracker.effective at heff
  cases hp : tracker.pending.lookup name with
  | none =>
    rw [hp] at heff
    exact happlied ⟨name, info⟩ (GoMap.mem_entries_iff.mpr heff)
  | some pending =>
    rw [hp] at heff
    exact hpending ⟨name, pending⟩ (GoMap.mem_entries_iff.mpr hp) info (Option.filter_eq_some_iff.mp heff).1

theorem Apart.before (h : Apart nn cache) (hg : cache.lookup g = some tracker)
    (hb : Before cfg tracker spn str) : spn.nn = nn g := by
  obtain ⟨name, info, happ, p, -, n, huses, -⟩ := hb
  rw [huses.nn_eq]
  exact (h.2 ⟨g, tracker⟩ (GoMap.mem_entries_iff.mpr hg)).1 ⟨name, info⟩
    (GoMap.mem_entries_iff.mpr happ)

/-- Groups of different services do not contribute to one service port. -/
theorem Apart.cover (h : Apart nn cache) : ChangedGroupsCover cfg cache := by
  intro g tracker hg _ spn ⟨str₀, htouch⟩ g' tracker' str hg' ha
  have hspn : spn.nn = nn g := htouch.elim (h.before hg) (h.after hg)
  have hsame : (⟨g', tracker'⟩ : (_ : NamespacedName) × EndpointSliceTracker) = ⟨g, tracker⟩ :=
    List.inj_on_of_nodup_map h.1 (GoMap.mem_entries_iff.mpr hg') (GoMap.mem_entries_iff.mpr hg)
      ((h.after hg' ha).symm.trans hspn)
  cases hsame
  exact ha

end

/-- The slice that the second cluster exports for the service `shop/api`. -/
def apiSlice (address : String) : EndpointSlice :=
  { clusterSlice "c2" address with
    labels := (clusterSlice "c2" address).labels.insert Known.LabelServiceName "api" }

/-- The services that the groups of the two clusters are for. -/
def serviceOfGroup (g : NamespacedName) : NamespacedName :=
  ⟨"shop", if g.name = "derived-c1-shop" then "web" else "api"⟩

/-- Two clusters export a service each: both groups are added and updated at once, then one of
them changes. -/
theorem endpoints_recomputed_two_clusters :
    ∃ st, Runs (Guarded (proxyStep sampleConfig) (Separate sampleConfig)) newProxy
        ([.slice (clusterSlice "c1" "10.1.0.5") false, .slice (apiSlice "10.2.0.5") false,
          .update storedOrder, .slice (clusterSlice "c1" "10.1.0.6") false] ++
            [.update storedOrder]) st ∧
      (st.epm.lookup webPort).map (·.map (·.endpoint)) = some ["10.1.0.6:8080"] ∧
      (st.epm.lookup { webPort with nn := ⟨"shop", "api"⟩ }).map (·.map (·.endpoint)) =
        some ["10.2.0.5:8080"] ∧
      Recomputed sampleConfig st := by
  let s₁ := newProxy.executed sampleConfig [.slice (clusterSlice "c1" "10.1.0.5") false]
  let s₂ := s₁.executed sampleConfig [.slice (apiSlice "10.2.0.5") false]
  let s₃ := s₂.executed sampleConfig [.update storedOrder]
  let s₄ := s₃.executed sampleConfig [.slice (clusterSlice "c1" "10.1.0.6") false]
  have hstep : ∀ {st : ProxyState} {e : ProxyEvent},
      ([e].foldlM (ProxyState.exec sampleConfig) st).isOk = true → Separate sampleConfig st e →
      Guarded (proxyStep sampleConfig) (Separate sampleConfig) st e (st.executed sampleConfig [e]) :=
    fun hok hsep => ⟨Runs.single_iff.mp (runs_executed _ _ _ hok), hsep⟩
  have hrun : Runs (Guarded (proxyStep sampleConfig) (Separate sampleConfig)) newProxy
      ([.slice (clusterSlice "c1" "10.1.0.5") false, .slice (apiSlice "10.2.0.5") false,
        .update storedOrder, .slice (clusterSlice "c1" "10.1.0.6") false] ++ [.update storedOrder])
      (s₄.executed sampleConfig [.update storedOrder]) := by
    refine .cons (hstep (by decide +kernel) fun h => absurd rfl h)
      (.cons (hstep (by decide +kernel) fun h => absurd rfl h)
        (.cons (hstep (by decide +kernel) ?_)
          (.cons (hstep (by decide +kernel) fun h => absurd rfl h)
            (.cons (hstep (by decide +kernel) ?_) (.nil _)))))
    · exact (show Apart serviceOfGroup _ by decide +kernel).cover
    · exact (show Apart serviceOfGroup _ by decide +kernel).cover
  have hapi : Labelled clusterService (apiSlice "10.2.0.5") :=
    ⟨show "syncer-operator" ≠ "" by decide, show "c2-shop-web-1" ≠ "" by decide, rfl,
      show "derived-c2-shop" ≠ "" by decide, Option.ne_none_iff_exists'.mpr ⟨"api", rfl⟩,
      Option.ne_none_iff_exists'.mpr ⟨"shop", rfl⟩⟩
  have hl : ∀ e ∈ [ProxyEvent.slice (clusterSlice "c1" "10.1.0.5") false,
      .slice (apiSlice "10.2.0.5") false, .update storedOrder,
      .slice (clusterSlice "c1" "10.1.0.6") false], LabelledEvent clusterService e := by
    simp [LabelledEvent, clusterSlice_labelled, hapi]
  exact ⟨_, hrun, by decide +kernel, by decide +kernel, endpoints_recomputed sampleConfig hl hrun⟩

/-- The slice of one cluster is synced, then that of another: the endpoints of
the first are gone from the map. -/
theorem second_cluster_drops_first :
    ∃ st, (∀ e ∈ [ProxyEvent.slice (clusterSlice "c1" "10.1.0.5") false, .update storedOrder,
          .slice (clusterSlice "c2" "10.2.0.5") false], LabelledEvent clusterService e) ∧
      Runs (proxyStep sampleConfig) newProxy
        ([.slice (clusterSlice "c1" "10.1.0.5") false, .update storedOrder,
          .slice (clusterSlice "c2" "10.2.0.5") false] ++ [.update storedOrder]) st ∧
      PresentHas sampleConfig st webPort "10.1.0.5:8080" ∧
      ¬ EpHas st.epm webPort "10.1.0.5:8080" ∧ ¬ Recomputed sampleConfig st := by
  have hrun := runs_executed sampleConfig newProxy
    [.slice (clusterSlice "c1" "10.1.0.5") false, .update storedOrder,
      .slice (clusterSlice "c2" "10.2.0.5") false, .update storedOrder] (by decide +kernel)
  generalize hst : newProxy.executed sampleConfig _ = st at hrun
  have hpresent : PresentHas sampleConfig st webPort "10.1.0.5:8080" := by
    refine ⟨⟨"syncer-operator", "c1-shop-web-1"⟩, clusterSlice "c1" "10.1.0.5", _, ?_, rfl, rfl,
      (⟨some "http", some .tcp, some 8080, none⟩, 0), List.mem_singleton_self _, 8080,
      ⟨by simp, rfl, by decide, rfl, rfl, rfl⟩, _, List.mem_singleton_self _, _, rfl, rfl⟩
    rw [present_of_run hrun]
    rfl
  have hmap : ¬ EpHas st.epm webPort "10.1.0.5:8080" := by
    have hl : (st.epm.lookup webPort).map (·.map (·.endpoint)) = some ["10.2.0.5:8080"] := by
      rw [← hst]
      decide +kernel
    rintro ⟨eps, heps, e, he, hstr⟩
    rw [heps] at hl
    have hends : eps.map (·.endpoint) = ["10.2.0.5:8080"] := Option.some_inj.mp hl
    have hmem : e.endpoint ∈ eps.map (·.endpoint) := List.mem_map_of_mem he
    rw [hends, hstr] at hmem
    exact absurd hmem (by decide)
  exact ⟨st, by simp [LabelledEvent, clusterSlice_labelled], hrun, hpresent, hmap,
    fun h => hmap ((h _ _).mpr hpresent)⟩

end Fleetboard.Proxy

import Fleetboard.Proof.Endpoints
import Fleetboard.Proof.SliceOrder

/-!
# Slices that crash the proxy

Optional fields of a slice are dereferenced in the sort of its ports, when its endpoints
are grouped by port and, for a slice without the namespace label, when its record, which
is nil, is compared or checked out.

* `checkoutTracker_ok_iff`, `update_ok_iff`: an `Update` returns exactly when no pending
  record is nil and all slices that become applied are safe;
* `Clean`: the caches that no `Update` crashes on; harmless slices keep it (`Clean.slice`);
* `survives_iff`: after any run with harmless slices, the proxy survives another slice
  and the `Update` after it exactly when the slice is harmless.
-/

namespace Fleetboard.Proxy

variable {cfg : Config}

/-! ## When an update returns -/

theorem getEndpointsMap_ok_iff {order : RangeOrder ((_ : String) × EndpointSliceInfo)}
    {infos : GoMap String EndpointSliceInfo} :
    (∃ em, getEndpointsMap cfg order infos = .ok em) ↔
      ∀ name info, infos.lookup name = some info → SliceSafe info := by
  obtain ⟨hok, herr⟩ := endpointInfoByServicePort_cases cfg order infos
  constructor
  · rintro ⟨em, hem⟩ name info hinfo
    by_contra hunsafe
    rw [getEndpointsMap, herr ⟨⟨name, info⟩, GoMap.mem_entries_iff.mpr hinfo, hunsafe⟩] at hem
    cases hem
  · intro h
    obtain ⟨m, hm⟩ := hok fun e he => h e.1 e.2 (GoMap.mem_entries_iff.mp he)
    rw [getEndpointsMap, hm]
    exact ⟨_, rfl⟩

/-- The pending records become applied when none is nil. -/
theorem applyPending_ok_iff {es : List ((_ : String) × Option EndpointSliceInfo)}
    (applied : GoMap String EndpointSliceInfo) :
    (∃ applied', es.foldlM applyPending applied = Except.ok applied') ↔ ∀ e ∈ es, e.2 ≠ none := by
  have hsome : ∀ e : (_ : String) × Option EndpointSliceInfo, e.2 ≠ none →
      ∀ applied, ∃ applied', applyPending applied e = .ok applied' := by
    intro e he applied
    obtain ⟨info, hinfo⟩ := Option.ne_none_iff_exists'.mp he
    unfold applyPending
    rw [hinfo]
    exact ⟨_, rfl⟩
  have hnone : ∀ e : (_ : String) × Option EndpointSliceInfo, ¬ e.2 ≠ none →
      ∀ applied, applyPending applied e = .error .nilDereference := by
    intro e he applied
    unfold applyPending
    rw [not_not.mp he]
    rfl
  obtain ⟨hok, herr⟩ := Go.foldlM_cases hsome hnone es applied
  refine ⟨?_, hok⟩
  rintro ⟨applied', happlied⟩ e he hnil
  rw [herr ⟨e, he, not_not_intro hnil⟩] at happlied
  cases happlied

/-- The pending records are there, and the slices that become applied are safe. -/
def CheckoutSafe (tracker : EndpointSliceTracker) : Prop :=
  (∀ name p, tracker.pending.lookup name = some p → p ≠ none) ∧
    ∀ name info, tracker.effective name = some info → SliceSafe info

theorem checkoutSafe_new : CheckoutSafe newEndpointSliceTracker := by
  refine ⟨fun name p hp => ?_, fun name info hinfo => ?_⟩
  · cases hp
  · cases hinfo

theorem checkoutTracker_ok_iff {order : RangeOrder ((_ : String) × EndpointSliceInfo)}
    {tracker : EndpointSliceTracker}
    (hsafe : ∀ name info, tracker.applied.lookup name = some info → SliceSafe info) :
    (∃ r, checkoutTracker cfg order tracker = .ok r) ↔ CheckoutSafe tracker := by
  rw [checkoutTracker]
  by_cases hp : tracker.pending.entries = []
  · rw [if_pos hp]
    refine iff_of_true ⟨_, rfl⟩ ⟨fun name p h => ?_, fun name info h => ?_⟩
    · rw [GoMap.entries_eq_nil_iff.mp hp] at h
      cases h
    · rw [effective_of_no_pending hp] at h
      exact hsafe name info h
  · rw [if_neg hp]
    constructor
    · rintro ⟨r, h⟩
      obtain ⟨previous, -, h⟩ := Go.bind_eq_ok.mp h
      obtain ⟨applied, happlied, h⟩ := Go.bind_eq_ok.mp h
      obtain ⟨current, hcurrent, -⟩ := Go.bind_eq_ok.mp h
      refine ⟨fun name p hname => ?_, fun name info heffective => ?_⟩
      · exact (applyPending_ok_iff _).mp ⟨applied, happlied⟩ ⟨name, p⟩
          (GoMap.mem_entries_iff.mpr hname)
      · rw [EndpointSliceTracker.effective] at heffective
        have hlookup := foldlM_applyPending_lookup tracker.pending.nodupKeys happlied name
        exact getEndpointsMap_ok_iff.mp ⟨current, hcurrent⟩ name info (hlookup.trans heffective)
    · rintro ⟨hpending, heffective⟩
      obtain ⟨previous, hprevious⟩ : ∃ em, getEndpointsMap cfg order tracker.applied = .ok em :=
        getEndpointsMap_ok_iff.mpr hsafe
      obtain ⟨applied, happlied⟩ := (applyPending_ok_iff tracker.applied).mpr
        fun e (he : e ∈ tracker.pending.entries) => hpending e.1 e.2 (GoMap.mem_entries_iff.mp he)
      have hlookup := foldlM_applyPending_lookup tracker.pending.nodupKeys happlied
      obtain ⟨current, hcurrent⟩ : ∃ em, getEndpointsMap cfg order applied = .ok em :=
        getEndpointsMap_ok_iff.mpr fun name info h =>
          heffective name info ((hlookup name).symm.trans h)
      refine ⟨(⟨applied, ∅⟩, some ⟨previous, current⟩), ?_⟩
      refine Go.bind_eq_ok.mpr ⟨previous, hprevious, Go.bind_eq_ok.mpr ⟨applied, happlied, ?_⟩⟩
      exact Go.bind_eq_ok.mpr ⟨current, hcurrent, rfl⟩

/-- An `Update` returns when every group can be checked out. -/
theorem update_ok_iff {cache : EndpointSliceCache}
    (hsafe : ∀ g name info, (trackerOf cache g).applied.lookup name = some info → SliceSafe info)
    (epm : EndpointsMap) (env : UpdateEnv) :
    (∃ r, Update cfg epm cache env = .ok r) ↔ ∀ g, CheckoutSafe (trackerOf cache g) := by
  have htracker : ∀ {g tracker}, cache.lookup g = some tracker → trackerOf cache g = tracker := by
    intro g tracker hg
    rw [trackerOf, hg]
    rfl
  constructor
  · rintro ⟨r, h⟩ g
    obtain ⟨⟨cache', changes⟩, hcheckout, -⟩ := Go.bind_eq_ok.mp h
    cases hg : cache.lookup g with
    | none =>
      rw [trackerOf, hg]
      exact checkoutSafe_new
    | some tracker =>
      obtain ⟨tracker', -, change, hok, -⟩ := (checkoutChanges_spec hcheckout).2.1 g tracker hg
      have happlied := hsafe g
      rw [htracker hg] at happlied ⊢
      exact (checkoutTracker_ok_iff happlied).mp ⟨_, hok⟩
  · intro h
    have hok : ∀ g tracker, cache.lookup g = some tracker →
        ∃ r, checkoutTracker cfg env.slices tracker = .ok r := by
      intro g tracker hg
      have happlied := hsafe g
      have hg' := h g
      rw [htracker hg] at happlied hg'
      exact (checkoutTracker_ok_iff happlied).mpr hg'
    obtain ⟨m, hm⟩ := GoMap.exists_traverse hok
    unfold Update checkoutChanges
    rw [hm]
    exact ⟨_, rfl⟩

/-! ## Clean caches -/

/-- A group that can be checked out, with safe slices applied. -/
structure CleanTracker (tracker : EndpointSliceTracker) : Prop where
  kept : AppliedKept tracker
  applied : ∀ name info, tracker.applied.lookup name = some info → SliceSafe info
  checkout : CheckoutSafe tracker

def Clean (cache : EndpointSliceCache) : Prop := ∀ g, CleanTracker (trackerOf cache g)

theorem cleanTracker_new : CleanTracker newEndpointSliceTracker where
  kept name info h := by cases h
  applied name info h := by cases h
  checkout := checkoutSafe_new

theorem Clean.update_ok {cache : EndpointSliceCache} (h : Clean cache) (epm : EndpointsMap)
    (env : UpdateEnv) : ∃ r, Update cfg epm cache env = .ok r :=
  (update_ok_iff (fun g => (h g).applied) epm env).mpr fun g => (h g).checkout

/-- Checking out keeps a cache clean. -/
theorem Clean.checkedOut {cache cache' : EndpointSliceCache} (h : Clean cache) {env : UpdateEnv}
    {changes : List (NamespacedName × EndpointsChange)}
    (hout : checkoutChanges cfg env cache = .ok (cache', changes)) : Clean cache' := by
  intro g
  obtain ⟨hpending, happlied⟩ := checkoutChanges_applied hout g
  have hsafe : ∀ name info, (trackerOf cache' g).applied.lookup name = some info →
      SliceSafe info := by
    intro name info hinfo
    rw [happlied] at hinfo
    exact (h g).checkout.2 name info hinfo
  refine ⟨fun name info hinfo => ?_, hsafe, fun name p hp => ?_, fun name info hinfo => ?_⟩
  · rw [happlied] at hinfo
    exact (h g).kept.effective hinfo
  · rw [GoMap.entries_eq_nil_iff.mp hpending] at hp
    cases hp
  · rw [effective_of_no_pending hpending] at hinfo
    exact hsafe name info hinfo

/-! ## A slice -/

/-- A slice without keys is ignored. Otherwise it needs the namespace label, the numbers
of its ports when there are several, and, unless it is removed, the protocols of the
ports that are used. -/
def Harmless (slice : EndpointSlice) (remove : Bool) : Prop :=
  endpointSliceCacheKeys slice = none ∨
    slice.labels.lookup Known.LabelServiceNameSpace ≠ none ∧
      ¬ (2 ≤ slice.ports.length ∧ ∃ p ∈ slice.ports, p.port = none) ∧
      (remove = false → ∀ p ∈ slice.ports, PortSafe p)

section

variable {slice : EndpointSlice} {cache cache' : EndpointSliceCache} {g : NamespacedName}
  {sliceKey : String} {remove b : Bool}

/-- The record of a slice with both labels and numbers to sort by. -/
theorem newEndpointSliceInfo_sorted (cfg : Config)
    (hname : slice.labels.lookup Known.LabelServiceName ≠ none)
    (hns : slice.labels.lookup Known.LabelServiceNameSpace ≠ none)
    (hsort : ¬ (2 ≤ slice.ports.length ∧ ∃ p ∈ slice.ports, p.port = none)) (remove : Bool) :
    ∃ info, newEndpointSliceInfo cfg slice remove = .ok (some info) ∧
      (SliceSafe info ↔ ∀ p ∈ slice.ports, PortSafe p) := by
  obtain ⟨name, hname⟩ := Option.ne_none_iff_exists'.mp hname
  obtain ⟨ns, hns⟩ := Option.ne_none_iff_exists'.mp hns
  have hports : sortPorts cfg slice.ports = .ok (cfg.byPort.run slice.ports) := if_neg hsort
  unfold newEndpointSliceInfo
  rw [hname, hns, hports]
  refine ⟨_, rfl, ?_⟩
  show (∀ p ∈ cfg.byPort.run slice.ports, PortSafe p) ↔ _
  exact forall_congr' fun p => by rw [cfg.byPort.mem_run]

/-- Comparing a port without a number panics. -/
theorem newEndpointSliceInfo_unsorted (hname : slice.labels.lookup Known.LabelServiceName ≠ none)
    (hns : slice.labels.lookup Known.LabelServiceNameSpace ≠ none)
    (hsort : 2 ≤ slice.ports.length ∧ ∃ p ∈ slice.ports, p.port = none) (remove : Bool) :
    newEndpointSliceInfo cfg slice remove = .error .nilDereference := by
  obtain ⟨name, hname⟩ := Option.ne_none_iff_exists'.mp hname
  obtain ⟨ns, hns⟩ := Option.ne_none_iff_exists'.mp hns
  have hports : sortPorts cfg slice.ports = .error .nilDereference := if_pos hsort
  unfold newEndpointSliceInfo
  rw [hname, hns, hports]
  rfl

theorem esInfoChanged_ok (tracker : EndpointSliceTracker) (sliceKey : String)
    (info : EndpointSliceInfo) : ∃ b, esInfoChanged tracker sliceKey (some info) = .ok b := by
  unfold esInfoChanged
  split
  · exact ⟨_, rfl⟩
  · split
    · exact ⟨_, rfl⟩
    · exact ⟨_, rfl⟩

theorem updatePending_ok (cache : EndpointSliceCache)
    (hkeys : endpointSliceCacheKeys slice = some (g, sliceKey))
    {info : EndpointSliceInfo} (hinfo : newEndpointSliceInfo cfg slice remove = .ok (some info)) :
    ∃ cache' b, updatePending cfg cache slice remove = .ok (cache', b) := by
  obtain ⟨changed, hchanged⟩ := esInfoChanged_ok (trackerOf cache g) sliceKey info
  rw [trackerOf] at hchanged
  rw [updatePending, hkeys, hinfo]
  cases changed with
  | true => exact ⟨_, true, Go.bind_eq_ok.mpr ⟨_, rfl, Go.bind_eq_ok.mpr ⟨true, hchanged, rfl⟩⟩⟩
  | false => exact ⟨_, false, Go.bind_eq_ok.mpr ⟨_, rfl, Go.bind_eq_ok.mpr ⟨false, hchanged, rfl⟩⟩⟩

/-- The cache after the event of a slice with a record. -/
theorem CleanTracker.insert (h : CleanTracker (trackerOf cache g))
    (hkeys : endpointSliceCacheKeys slice = some (g, sliceKey)) {info : EndpointSliceInfo}
    (hinfo : newEndpointSliceInfo cfg slice remove = .ok (some info))
    (hup : updatePending cfg cache slice remove = .ok (cache', b)) :
    ∃ tracker', cache' = cache.insert g tracker' ∧ AppliedKept tracker' ∧
      (∀ name info, tracker'.applied.lookup name = some info → SliceSafe info) ∧
      (CheckoutSafe tracker' ↔ (remove = false → SliceSafe info)) := by
  obtain ⟨tracker', hcache, happlied, -, hpending, heffective⟩ :=
    updatePending_of_keys hkeys hinfo h.kept hup
  refine ⟨tracker', hcache, fun name info' h' => ?_, fun name info' h' => ?_, ?_⟩
  · rw [happlied] at h'
    exact h.kept name info' h'
  · rw [happlied] at h'
    exact h.applied name info' h'
  · constructor
    · rintro ⟨-, hsafe⟩ rfl
      refine hsafe sliceKey info ?_
      rw [heffective, if_pos rfl]
      rfl
    · intro hsafe
      refine ⟨fun name p hp => ?_, fun name info' h' => ?_⟩
      · rcases hpending name p hp with hold | rfl
        · exact h.checkout.1 name p hold
        · exact Option.some_ne_none info
      · rw [heffective] at h'
        split at h'
        · cases remove with
          | true => cases h'
          | false =>
            cases h'
            exact hsafe rfl
        · exact h.checkout.2 name info' h'

/-- After the event of a slice with a record, an `Update` returns unless a slice that
becomes applied is not safe. -/
theorem Clean.update_iff (h : Clean cache)
    (hkeys : endpointSliceCacheKeys slice = some (g, sliceKey)) {info : EndpointSliceInfo}
    (hinfo : newEndpointSliceInfo cfg slice remove = .ok (some info))
    (hup : updatePending cfg cache slice remove = .ok (cache', b)) (epm : EndpointsMap)
    (env : UpdateEnv) :
    (∃ r, Update cfg epm cache' env = .ok r) ↔ (remove = false → SliceSafe info) := by
  obtain ⟨tracker', rfl, -, happlied, hcheckout⟩ := (h g).insert hkeys hinfo hup
  have hsafe : ∀ g' name info, (trackerOf (cache.insert g tracker') g').applied.lookup name =
      some info → SliceSafe info := by
    intro g' name info hinfo
    rw [trackerOf_insert] at hinfo
    split at hinfo
    · exact happlied name info hinfo
    · exact (h g').applied name info hinfo
  rw [update_ok_iff hsafe, ← hcheckout]
  constructor
  · intro hall
    have hg := hall g
    rwa [trackerOf_insert, if_pos rfl] at hg
  · intro hg g'
    rw [trackerOf_insert]
    split
    · exact hg
    · exact (h g').checkout

/-- Without the namespace label the record is nil: the event panics, or leaves it to
the next `Update`. -/
theorem Clean.update_not_ok (h : Clean cache)
    (hkeys : endpointSliceCacheKeys slice = some (g, sliceKey))
    (hns : slice.labels.lookup Known.LabelServiceNameSpace = none)
    (hup : updatePending cfg cache slice remove = .ok (cache', b)) (epm : EndpointsMap)
    (env : UpdateEnv) : ¬ ∃ r, Update cfg epm cache' env = .ok r := by
  have hinfo : newEndpointSliceInfo cfg slice remove = .ok none := by
    unfold newEndpointSliceInfo
    rw [hns]
    split
    · rename_i heq
      cases heq
    · rfl
  -- the nil record differs from what is there, if anything is
  have hchanged : ∀ changed, esInfoChanged (trackerOf cache g) sliceKey none = .ok changed →
      changed = true := by
    intro changed hchanged
    unfold esInfoChanged at hchanged
    split at hchanged
    · rename_i p hp
      cases hchanged
      exact decide_eq_true (Ne.symm ((h g).checkout.1 sliceKey p hp))
    · split at hchanged
      · cases hchanged
        rfl
      · cases hchanged
  rw [updatePending, hkeys] at hup
  obtain ⟨esInfo, hinfo', hup⟩ := Go.bind_eq_ok.mp hup
  obtain rfl := Except.ok.inj (hinfo.symm.trans hinfo')
  obtain ⟨changed, hesInfo, hup⟩ := Go.bind_eq_ok.mp hup
  obtain rfl := hchanged changed hesInfo
  cases hup
  intro hupdate
  have hsafe : ∀ g' name info, (trackerOf (cache.insert g
      { trackerOf cache g with pending := (trackerOf cache g).pending.insert sliceKey none })
      g').applied.lookup name = some info → SliceSafe info := by
    intro g' name info hinfo
    rw [trackerOf_insert] at hinfo
    split at hinfo
    · exact (h g).applied name info hinfo
    · exact (h g').applied name info hinfo
  have hcheckout := (update_ok_iff hsafe epm env).mp hupdate g
  rw [trackerOf_insert, if_pos rfl] at hcheckout
  exact hcheckout.1 sliceKey none (AList.lookup_insert _) rfl

/-! ## The proxy -/

/-- The proxy takes the slice and the next `Update` without a panic, and a slice without
the namespace label leaves the cache, and so the map, as they were. -/
def Survives (cfg : Config) (st : ProxyState) (slice : EndpointSlice) (remove : Bool)
    (env : UpdateEnv) : Prop :=
  ∃ cache' b, EndpointSliceUpdate cfg st.cache slice remove = .ok (cache', b) ∧
    (∃ r, Update cfg st.epm cache' env = .ok r) ∧
    (slice.labels.lookup Known.LabelServiceNameSpace = none → cache' = st.cache)

theorem endpointSliceUpdate_eq {cache : EndpointSliceCache}
    (hsupported : supportedAddressType slice.addressType = true) (remove : Bool) :
    EndpointSliceUpdate cfg cache slice remove = updatePending cfg cache slice remove := by
  unfold EndpointSliceUpdate
  rw [if_neg (not_not_intro hsupported)]
  cases hkeys : endpointSliceCacheKeys slice with
  | none =>
    rw [updatePending, hkeys]
  | some keys => rfl

theorem Clean.onEndpointSlice_ok_iff {st : ProxyState} (h : Clean st.cache)
    (hsupported : supportedAddressType slice.addressType = true)
    (hname : slice.labels.lookup Known.LabelServiceName ≠ none) (remove : Bool) (env : UpdateEnv) :
    Survives cfg st slice remove env ↔ Harmless slice remove := by
  unfold Survives
  rw [endpointSliceUpdate_eq hsupported]
  cases hkeys : endpointSliceCacheKeys slice with
  | none =>
    refine iff_of_true ⟨st.cache, false, ?_, h.update_ok st.epm env, fun _ => rfl⟩ (.inl hkeys)
    rw [updatePending, hkeys]
    rfl
  | some keys =>
    obtain ⟨g, sliceKey⟩ := keys
    have hharmless : Harmless slice remove ↔
        slice.labels.lookup Known.LabelServiceNameSpace ≠ none ∧
          ¬ (2 ≤ slice.ports.length ∧ ∃ p ∈ slice.ports, p.port = none) ∧
          (remove = false → ∀ p ∈ slice.ports, PortSafe p) :=
      or_iff_right (by rw [hkeys]; exact Option.some_ne_none _)
    rw [hharmless]
    by_cases hns : slice.labels.lookup Known.LabelServiceNameSpace = none
    · refine iff_of_false ?_ fun hsafe => hsafe.1 hns
      rintro ⟨cache', b, hup, hupdate, -⟩
      exact h.update_not_ok hkeys hns hup st.epm env hupdate
    · by_cases hsort : 2 ≤ slice.ports.length ∧ ∃ p ∈ slice.ports, p.port = none
      · refine iff_of_false ?_ fun hsafe => hsafe.2.1 hsort
        rintro ⟨cache', b, hup, -⟩
        rw [updatePending, hkeys, newEndpointSliceInfo_unsorted hname hns hsort] at hup
        cases hup
      · obtain ⟨info, hinfo, hports⟩ := newEndpointSliceInfo_sorted cfg hname hns hsort remove
        obtain ⟨cache', b, hup⟩ := updatePending_ok st.cache hkeys hinfo
        have hiff := h.update_iff hkeys hinfo hup st.epm env
        rw [hports] at hiff
        constructor
        · rintro ⟨cache'', b', hup', hupdate, -⟩
          rw [hup] at hup'
          cases hup'
          exact ⟨hns, hsort, hiff.mp hupdate⟩
        · rintro ⟨-, -, hsafe⟩
          exact ⟨cache', b, hup, hiff.mpr hsafe, fun hnone => absurd hnone hns⟩

end

/-! ## Runs -/

/-- The slice of an event is harmless, and has the label that the informer selects. -/
def HarmlessEvent (_ : ProxyState) : ProxyEvent → Prop
  | .slice slice remove => slice.labels.lookup Known.LabelServiceName ≠ none ∧ Harmless slice remove
  | .update _ => True

/-- The event of a harmless slice keeps a cache clean. -/
theorem Clean.slice {cache cache' : EndpointSliceCache} (h : Clean cache) {slice : EndpointSlice}
    (hname : slice.labels.lookup Known.LabelServiceName ≠ none) {remove b : Bool}
    (hharmless : Harmless slice remove)
    (hup : EndpointSliceUpdate cfg cache slice remove = .ok (cache', b)) : Clean cache' := by
  by_cases hsupported : supportedAddressType slice.addressType = true
  · rw [endpointSliceUpdate_eq hsupported] at hup
    rcases hharmless with hkeys | ⟨hns, hsort, hports⟩
    · rw [updatePending, hkeys] at hup
      cases hup
      exact h
    · cases hkeys : endpointSliceCacheKeys slice with
      | none =>
        rw [updatePending, hkeys] at hup
        cases hup
        exact h
      | some keys =>
        obtain ⟨g, sliceKey⟩ := keys
        obtain ⟨info, hinfo, hsafe⟩ := newEndpointSliceInfo_sorted cfg hname hns hsort remove
        obtain ⟨tracker', rfl, hkept, happlied, hcheckout⟩ := (h g).insert hkeys hinfo hup
        intro g'
        rw [trackerOf_insert]
        split
        · exact ⟨hkept, happlied, hcheckout.mpr fun hr => hsafe.mpr (hports hr)⟩
        · exact h g'
  · unfold EndpointSliceUpdate at hup
    rw [if_pos hsupported] at hup
    cases hup
    exact h

theorem Clean.step {st st' : ProxyState} {e : ProxyEvent} (h : Clean st.cache)
    (hstep : Guarded (proxyStep cfg) HarmlessEvent st e st') : Clean st'.cache := by
  obtain ⟨hexec, hharmless⟩ := hstep
  cases e with
  | slice slice remove =>
    obtain ⟨⟨cache', b⟩, hup, hst⟩ := Go.bind_eq_ok.mp hexec
    cases hst
    exact h.slice hharmless.1 hharmless.2 hup
  | update env =>
    obtain ⟨⟨epm, cache', res⟩, hup, hst⟩ := Go.bind_eq_ok.mp hexec
    cases hst
    obtain ⟨⟨cache'', changes⟩, hout, hup⟩ := Go.bind_eq_ok.mp hup
    cases hup
    exact h.checkedOut hout

/-- After any run of harmless slices and updates, the proxy survives the next slice
exactly when that is harmless, too. -/
theorem survives_iff {cfg : Config} {es : List ProxyEvent} {st : ProxyState}
    (hrun : Runs (Guarded (proxyStep cfg) HarmlessEvent) newProxy es st) {slice : EndpointSlice}
    (hsupported : supportedAddressType slice.addressType = true)
    (hname : slice.labels.lookup Known.LabelServiceName ≠ none) (remove : Bool) (env : UpdateEnv) :
    Survives cfg st slice remove env ↔ Harmless slice remove := by
  have hnew : Clean newProxy.cache := fun _ => cleanTracker_new
  have hclean : Clean st.cache :=
    hrun.invariant (I := fun st => Clean st.cache) (fun h hstep => h.step hstep) hnew
  exact hclean.onEndpointSlice_ok_iff hsupported hname remove env

/-- A slice of one cluster, after the update with a slice of another. -/
theorem survives_second_cluster :
    ∃ st, Runs (Guarded (proxyStep sampleConfig) HarmlessEvent) newProxy
        [.slice (clusterSlice "c1" "10.1.0.5") false, .update storedOrder] st ∧
      Survives sampleConfig st (clusterSlice "c2" "10.2.0.5") false storedOrder := by
  have hlabels : ∀ cluster address, (clusterSlice cluster address).labels.lookup
      Known.LabelServiceName ≠ none ∧ (clusterSlice cluster address).labels.lookup
      Known.LabelServiceNameSpace ≠ none := fun cluster address =>
    ⟨Option.ne_none_iff_exists'.mpr ⟨"web", rfl⟩, Option.ne_none_iff_exists'.mpr ⟨"shop", rfl⟩⟩
  have hharmless : ∀ cluster address, Harmless (clusterSlice cluster address) false := by
    intro cluster address
    have hone : ¬ 2 ≤ 1 := by decide
    refine .inr ⟨(hlabels cluster address).2, fun h => hone h.1, fun _ p hp => ?_⟩
    obtain rfl := List.mem_singleton.mp hp
    intro n _ _ _ hprotocol
    cases hprotocol
  have hrun : Runs (Guarded (proxyStep sampleConfig) HarmlessEvent) newProxy
      [.slice (clusterSlice "c1" "10.1.0.5") false, .update storedOrder] _ :=
    .cons ⟨rfl, (hlabels _ _).1, hharmless _ _⟩ (.cons ⟨rfl, trivial⟩ (.nil _))
  exact ⟨_, hrun, (survives_iff hrun rfl (hlabels _ _).1 false storedOrder).mpr (hharmless _ _)⟩

/-- A slice of the service `web` with some labels missing and any ports. -/
def unlabelledSlice (labelled : Bool) (ports : List EndpointPort) : EndpointSlice where
  ns := "shop"
  name := "web-1"
  labels :=
    let labels := (∅ : GoMap String String).insert Known.LabelServiceName "web"
      |>.insert Known.DiscoveryServiceName "web"
    if labelled then labels.insert Known.LabelServiceNameSpace "shop" else labels
  addressType := .ipv4
  endpoints := []
  ports := ports

/-- Three slices that crash a new proxy: without the namespace label, with two ports of
which one has no number, and with a port that has no protocol. -/
theorem slices_crash :
    EndpointSliceUpdate sampleConfig ∅ (unlabelledSlice false []) false =
      .error .nilDereference ∧
    EndpointSliceUpdate sampleConfig ∅ (unlabelledSlice true [⟨some "http", some .tcp, some 80, none⟩,
      ⟨some "all", some .tcp, none, none⟩]) false = .error .nilDereference ∧
    ∃ cache', EndpointSliceUpdate sampleConfig ∅
        (unlabelledSlice true [⟨some "http", none, some 80, none⟩]) false = .ok (cache', true) ∧
      Update sampleConfig ∅ cache' storedOrder = .error .nilDereference :=
  ⟨rfl, rfl, _, rfl, rfl⟩

end Fleetboard.Proxy

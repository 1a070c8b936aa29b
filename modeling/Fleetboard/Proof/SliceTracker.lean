import Fleetboard.Framework.Runs
import Fleetboard.Model.SliceTracker

/-!
# The tracker against the informer

The API server, the informer and the syncs of one service as a step relation. A sync makes its
calls one by one, each followed by a step of its own that tells the tracker; a user may delete
a slice at any time, and the events of one slice are delivered in their order.

* `SliceSystem.Tidy.step`: what the tracker has of a slice is made up for by the stored slice, by
  an event to come or by a call under way, as long as no step races with a deletion;
* `never_wedged`: such runs never leave a stale tracker behind;
* `exists_wedged_of_races`: after any other step the tracker may stay stale.
-/

namespace Fleetboard.EndpointSlices

/-! ## The system -/

/-- What the informer is told of a slice. -/
inductive SliceNews
  | set (slice : SliceMeta)
  | deleted (slice : SliceMeta)

def SliceNews.slice : SliceNews → SliceMeta
  | .set slice | .deleted slice => slice

/-- The call of the tracker that follows a call of the API. -/
inductive TrackerCall
  | update (slice : SliceMeta)
  | expectDeletion (slice : SliceMeta)

def TrackerCall.slice : TrackerCall → SliceMeta
  | .update slice | .expectDeletion slice => slice

/-- A sync under way: the slices that it has listed, and the call of the tracker that is due. -/
structure SyncProgress where
  existing : List SliceMeta
  due : Option TrackerCall

/-- The API server (`slices`, by name), what the informer has not delivered yet (`news`, the
oldest first), its cache, and the controller with the sync of the service. -/
structure SliceSystem where
  slices : GoMap String SliceMeta
  nextUID : UID
  news : List SliceNews
  cache : GoMap String SliceMeta
  controller : Controller
  service : NamespacedName
  sync : Option SyncProgress

inductive SliceEvent
  | begin
  | create (name : String) (finalizers : List String)
  | update (name : String) (finalizers : List String) (changed : Bool)
  | delete (slice : SliceMeta)
  | track
  | finish
  | serviceGone
  | userDelete (name : String)
  | release (name : String) (finalizer : String)
  | deliver (name : String)

namespace SliceSystem

/-- The slices that a sync works on. -/
def listed (s : SliceSystem) : List SliceMeta :=
  dropEndpointSlicesPendingDeletion (s.controller.listSlices s.service s.cache)

/-- A slice that is to be deleted and has no finalizers. -/
def Gone (slice : SliceMeta) : Prop := slice.deletionTimestamp = true ∧ slice.finalizers = []

instance (slice : SliceMeta) : Decidable (Gone slice) := inferInstanceAs (Decidable (_ ∧ _))

/-- A slice is written; one that is to be deleted goes with its last finalizer. -/
def write (s : SliceSystem) (slice : SliceMeta) : SliceSystem :=
  { s with
    slices := if Gone slice then s.slices.erase slice.name else s.slices.insert slice.name slice
    news := s.news ++ [if Gone slice then .deleted slice else .set slice] }

/-- A slice is to be deleted. -/
def markDeleted (s : SliceSystem) (slice : SliceMeta) : SliceSystem :=
  if slice.deletionTimestamp then s
  else s.write { slice with deletionTimestamp := true, generation := slice.generation + 1 }

/-- The labels of the service's slices. -/
def sliceLabels (s : SliceSystem) : GoMap String String :=
  ((∅ : GoMap String String).insert Known.DiscoveryServiceName s.service.name).insert
    Known.DiscoveryManagedBy s.controller.managedByName

/-- The slice of a create call. -/
def newSlice (s : SliceSystem) (name : String) (finalizers : List String) : SliceMeta :=
  ⟨s.service.ns, name, s.nextUID, 1, false, finalizers, s.sliceLabels⟩

/-- The slice of an update call; its generation grows when the endpoints or ports change. -/
def updated (s : SliceSystem) (st : SliceMeta) (finalizers : List String) (changed : Bool) :
    SliceMeta :=
  { st with
    generation := if changed then st.generation + 1 else st.generation
    finalizers := finalizers
    labels := s.sliceLabels }

/-- What the tracker is told. -/
def told (est : EndpointSliceTracker) : TrackerCall → EndpointSliceTracker
  | .update slice => est.Update slice
  | .expectDeletion slice => est.ExpectDeletion slice

/-- The cache and the controller after an event of the informer. -/
def handle (s : SliceSystem) : SliceNews → SliceSystem
  | .set slice =>
    { s with
      cache := s.cache.insert slice.name slice
      controller := match s.cache.lookup slice.name with
        | none => s.controller.onEndpointSliceAdd slice
        | some prev => s.controller.onEndpointSliceUpdate prev slice }
  | .deleted slice =>
    { s with
      cache := s.cache.erase slice.name
      controller := s.controller.onEndpointSliceDelete slice }

/-- The sync is under way and no call of the tracker is due. -/
def Calling (s : SliceSystem) (existing : List SliceMeta) : Prop := s.sync = some ⟨existing, none⟩

/-- The steps. A call that fails changes nothing, and a sync may end after each call. -/
def step (s : SliceSystem) (e : SliceEvent) (s' : SliceSystem) : Prop :=
  match e with
  | .begin => s.sync = none ∧
    s' = if s.controller.endpointSliceTracker.StaleSlices s.service s.listed then s
      else { s with sync := some ⟨s.listed, none⟩ }
  | .create name finalizers => ∃ existing, s.Calling existing ∧ s.slices.lookup name = none ∧
    s' = { s.write (s.newSlice name finalizers) with
      nextUID := s.nextUID + 1
      sync := some ⟨existing, some (.update (s.newSlice name finalizers))⟩ }
  | .update name finalizers changed => ∃ existing st, s.Calling existing ∧
    name ∈ existing.map (·.name) ∧ s.slices.lookup name = some st ∧
    s' = { s.write (s.updated st finalizers changed) with
      sync := some ⟨existing, some (.update (s.updated st finalizers changed))⟩ }
  | .delete slice => ∃ existing st, s.Calling existing ∧ slice ∈ existing ∧
    s.slices.lookup slice.name = some st ∧
    s' = { s.markDeleted st with sync := some ⟨existing, some (.expectDeletion slice)⟩ }
  | .track => ∃ existing call, s.sync = some ⟨existing, some call⟩ ∧
    s' = { s with
      controller := { s.controller with
        endpointSliceTracker := told s.controller.endpointSliceTracker call }
      sync := some ⟨existing, none⟩ }
  | .finish => ∃ existing, s.Calling existing ∧ s' = { s with sync := none }
  | .serviceGone => s.sync = none ∧
    s' = { s with controller := { s.controller with
      endpointSliceTracker := s.controller.endpointSliceTracker.DeleteService s.service } }
  | .userDelete name => ∃ st, s.slices.lookup name = some st ∧ s' = s.markDeleted st
  | .release name finalizer => ∃ st, s.slices.lookup name = some st ∧
    s' = s.write { st with finalizers := st.finalizers.filter (· ≠ finalizer) }
  | .deliver name => ∃ before e after, s.news = before ++ e :: after ∧ e.slice.name = name ∧
    (∀ e' ∈ before, e'.slice.name ≠ name) ∧ s' = { s with news := before ++ after }.handle e

/-- No sync is in progress and every event is delivered. -/
def Quiet (s : SliceSystem) : Prop := s.sync = none ∧ s.news = []

/-- The tracker waits for what the cache will never have. -/
def Stale (s : SliceSystem) : Prop :=
  s.controller.endpointSliceTracker.StaleSlices s.service s.listed = true

instance (s : SliceSystem) : Decidable s.Stale := inferInstanceAs (Decidable (_ = true))

/-- The generation that the tracker has for a slice of the service. -/
def generation (s : SliceSystem) (uid : UID) : Option Int :=
  (s.controller.endpointSliceTracker.generationsByService.lookup s.service).bind (·.lookup uid)

/-- The tracker has the slice, and not as one whose deletion is expected. -/
def Tracks (s : SliceSystem) (uid : UID) : Prop :=
  ∃ g, s.generation uid = some g ∧ g ≠ deletionExpected

/-- The slice is stored and its deletion is not pending. -/
def Live (s : SliceSystem) (slice : SliceMeta) : Prop :=
  ∃ st, s.slices.lookup slice.name = some st ∧ st.uid = slice.uid ∧ st.deletionTimestamp = false

/-- The deletion of the slice is still to be delivered. -/
def Leaving (s : SliceSystem) (uid : UID) : Prop := ∃ d, .deleted d ∈ s.news ∧ d.uid = uid

/-- The step makes a slice pending that it leaves in the tracker. -/
def Strands (s : SliceSystem) (name : String) (uid : Option UID) : Prop :=
  ∃ st, s.slices.lookup name = some st ∧ st.deletionTimestamp = false ∧ st.finalizers ≠ [] ∧
    s.Tracks st.uid ∧ uid ≠ some st.uid

/-- The steps that race with a deletion: the tracker is told of a slice whose deletion is pending
or has been delivered, or a slice that it has becomes pending otherwise than by the call of a
sync. -/
def Races (s : SliceSystem) : SliceEvent → Prop
  | .track => ∃ existing slice, s.sync = some ⟨existing, some (.update slice)⟩ ∧
    ¬ s.Live slice ∧ ¬ s.Leaving slice.uid
  | .delete slice => s.Strands slice.name (some slice.uid)
  | .userDelete name => s.Strands name none
  | _ => False

/-! ## What every step keeps -/

/-- The slice has the labels of the service and of the controller. -/
structure Labelled (s : SliceSystem) (slice : SliceMeta) : Prop where
  ns : slice.ns = s.service.ns
  service : slice.labels.lookup Known.DiscoveryServiceName = some s.service.name
  managedBy : slice.labels.lookup Known.DiscoveryManagedBy = some s.controller.managedByName

/-- A slice of the system: a slice of the service, whose name is that of its UID. -/
structure Named (names : UID → String) (s : SliceSystem) (slice : SliceMeta) : Prop where
  name : slice.name = names slice.uid
  uid : slice.uid < s.nextUID
  labelled : s.Labelled slice

/-- What the cache has of a slice after an event. -/
def settle (_ : Option SliceMeta) : SliceNews → Option SliceMeta
  | .set slice => some slice
  | .deleted _ => none

/-- What a call of the tracker that is due says of the stored slice. -/
def Fits (slice : SliceMeta) : TrackerCall → Prop
  | .update returned => returned.generation ≤ slice.generation
  | .expectDeletion _ => slice.deletionTimestamp = true

/-- The invariant of all steps. -/
structure Coherent (names : UID → String) (s : SliceSystem) : Prop where
  stored : ∀ {name st}, s.slices.lookup name = some st → Named names s st ∧ st.name = name
  cached : ∀ {name slice}, s.cache.lookup name = some slice →
    Named names s slice ∧ slice.name = name
  news : ∀ e ∈ s.news, Named names s e.slice
  existing : ∀ {p}, s.sync = some p → ∀ slice ∈ p.existing, Named names s slice
  due : ∀ {p call}, s.sync = some p → p.due = some call → Named names s call.slice ∧
    ∀ st, s.slices.lookup call.slice.name = some st → st.uid = call.slice.uid → Fits st call
  settles : ∀ name, (s.news.filter (·.slice.name = name)).foldl settle (s.cache.lookup name) =
    s.slices.lookup name
  gone : ∀ {d}, .deleted d ∈ s.news → ∀ {name st}, s.slices.lookup name = some st → st.uid ≠ d.uid
  tracked : ∀ {uid g}, s.generation uid = some g → uid < s.nextUID

variable {names : UID → String} {s s' : SliceSystem} {slice st : SliceMeta} {name : String}
  {uid : UID}

theorem Labelled.getServiceNN (h : s.Labelled slice) : getServiceNN slice = s.service := by
  rw [EndpointSlices.getServiceNN, h.ns, h.service]
  rfl

theorem Labelled.generations (h : s.Labelled slice) (est : EndpointSliceTracker) :
    est.GenerationsForSliceUnsafe slice = est.generationsByService.lookup s.service := by
  rw [EndpointSliceTracker.GenerationsForSliceUnsafe, h.getServiceNN]

theorem Named.mono (h : Named names s slice) (hnext : s.nextUID ≤ s'.nextUID)
    (hservice : s'.service = s.service)
    (hmanaged : s'.controller.managedByName = s.controller.managedByName) :
    Named names s' slice where
  name := h.name
  uid := Nat.lt_of_lt_of_le h.uid hnext
  labelled := by
    refine ⟨?_, ?_, ?_⟩
    · rw [hservice]
      exact h.labelled.ns
    · rw [hservice]
      exact h.labelled.service
    · rw [hmanaged]
      exact h.labelled.managedBy

theorem lookup_write (s : SliceSystem) (slice : SliceMeta) (name : String) :
    (s.write slice).slices.lookup name =
      if name = slice.name then (if Gone slice then none else some slice)
      else s.slices.lookup name := by
  unfold write
  by_cases hg : Gone slice
  · simp only [if_pos hg]
    exact GoMap.lookup_erase_eq _ _ _
  · simp only [if_neg hg]
    exact GoMap.lookup_insert_eq _ _ _ _

theorem lookup_write_self (hst : (s.write slice).slices.lookup name = some st)
    (hname : name = slice.name) : st = slice := by
  rw [lookup_write, if_pos hname] at hst
  split_ifs at hst
  exact (Option.some_inj.mp hst).symm

/-- A slice with the UID of a stored one is found under its name. -/
theorem Coherent.lookup_of_uid (h : Coherent names s) (hst : s.slices.lookup name = some st)
    (hslice : Named names s slice) (huid : st.uid = slice.uid) :
    s.slices.lookup slice.name = some st := by
  obtain ⟨hnamed, rfl⟩ := h.stored hst
  rwa [hslice.name, ← huid, ← hnamed.name]

/-- A slice is written that no event has deleted, as the call that is due says. -/
theorem Coherent.write (h : Coherent names s) (hslice : Named names s slice)
    (hnews : ∀ d, .deleted d ∈ s.news → d.uid ≠ slice.uid)
    (hdue : ∀ {p call}, s.sync = some p → p.due = some call → call.slice.uid = slice.uid →
      Fits slice call) :
    Coherent names (s.write slice) where
  stored {name st} hst := by
    rw [lookup_write] at hst
    split_ifs at hst with hname
    · obtain rfl := Option.some_inj.mp hst
      exact ⟨hslice.mono le_rfl rfl rfl, hname.symm⟩
    · exact (h.stored hst).imp_left fun hn => hn.mono le_rfl rfl rfl
  cached hc := (h.cached hc).imp_left fun hn => hn.mono le_rfl rfl rfl
  news e he := by
    refine Named.mono (s := s) ?_ le_rfl rfl rfl
    rcases List.mem_append.mp he with he | he
    · exact h.news e he
    · rw [List.mem_singleton.mp he]
      split_ifs <;> exact hslice
  existing hp slice' hs' := (h.existing hp slice' hs').mono le_rfl rfl rfl
  due {p call} hp hcall := by
    obtain ⟨hnamed, hfits⟩ := h.due hp hcall
    refine ⟨hnamed.mono le_rfl rfl rfl, fun st hst huid => ?_⟩
    rw [lookup_write] at hst
    split_ifs at hst with hname
    · obtain rfl := Option.some_inj.mp hst
      exact hdue hp hcall huid.symm
    · exact hfits st hst huid
  settles name := by
    rw [lookup_write]
    show ((s.news ++ [_]).filter _).foldl settle (s.cache.lookup name) = _
    rw [List.filter_append, List.foldl_append, h.settles]
    by_cases hname : name = slice.name
    · subst hname
      by_cases hg : Gone slice
      · simp [hg, SliceNews.slice, settle]
      · simp [hg, SliceNews.slice, settle]
    · have hne : ¬ slice.name = name := fun heq => hname heq.symm
      by_cases hg : Gone slice
      · simp [hg, hname, hne, SliceNews.slice]
      · simp [hg, hname, hne, SliceNews.slice]
  gone {d} hd {name st} hst := by
    rw [lookup_write] at hst
    rcases List.mem_append.mp hd with hd | hd
    · split_ifs at hst with hname
      · obtain rfl := Option.some_inj.mp hst
        exact (hnews d hd).symm
      · exact h.gone hd hst
    · by_cases hg : Gone slice
      · rw [if_pos hg] at hd
        obtain rfl : d = slice := by
          injection List.mem_singleton.mp hd
        split_ifs at hst with hname
        -- Its name is the only one that a slice of this UID could have.
        intro huid
        obtain ⟨hnamed, heq⟩ := h.stored hst
        rw [← heq, hnamed.name, huid, ← hslice.name] at hname
        exact hname rfl
      · rw [if_neg hg] at hd
        cases List.mem_singleton.mp hd
  tracked hg := h.tracked hg

/-- A stored slice is written again. -/
theorem Coherent.rewrite (h : Coherent names s) (hst : s.slices.lookup name = some st)
    (huid : slice.uid = st.uid) (hname : slice.name = st.name) (hlabelled : s.Labelled slice)
    (hgeneration : st.generation ≤ slice.generation)
    (hterm : st.deletionTimestamp = true → slice.deletionTimestamp = true) :
    Coherent names (s.write slice) := by
  obtain ⟨hnamed, rfl⟩ := h.stored hst
  refine h.write ⟨?_, ?_, hlabelled⟩ (fun d hd => ?_) fun {p call} hp hcall hcalluid => ?_
  · rw [hname, huid]
    exact hnamed.name
  · rw [huid]
    exact hnamed.uid
  · rw [huid]
    exact (h.gone hd hst).symm
  · obtain ⟨hcallnamed, hfits⟩ := h.due hp hcall
    have hfit := hfits st (h.lookup_of_uid hst hcallnamed (hcalluid.trans huid).symm)
      (hcalluid.trans huid).symm
    cases call with
    | update returned => exact Nat.le_trans hfit hgeneration
    | expectDeletion _ => exact hterm hfit

theorem sliceLabels_lookup (s : SliceSystem) :
    s.sliceLabels.lookup Known.DiscoveryServiceName = some s.service.name ∧
      s.sliceLabels.lookup Known.DiscoveryManagedBy = some s.controller.managedByName := by
  simp only [sliceLabels, GoMap.lookup_insert_eq]
  exact ⟨rfl, rfl⟩

theorem Coherent.updated (h : Coherent names s) (hst : s.slices.lookup name = some st)
    (finalizers : List String) (changed : Bool) :
    Coherent names (s.write (s.updated st finalizers changed)) := by
  refine h.rewrite hst rfl rfl ⟨(h.stored hst).1.labelled.ns, s.sliceLabels_lookup.1,
    s.sliceLabels_lookup.2⟩ ?_ id
  show st.generation ≤ if changed then st.generation + 1 else st.generation
  split_ifs <;> omega

theorem sync_markDeleted (s : SliceSystem) (st : SliceMeta) :
    (s.markDeleted st).sync = s.sync := by
  unfold SliceSystem.markDeleted
  split_ifs <;> rfl

theorem deletionTimestamp_markDeleted {st' : SliceMeta} (hst : s.slices.lookup name = some st)
    (hname : st.name = name) (hst' : (s.markDeleted st).slices.lookup name = some st') :
    st'.deletionTimestamp = true := by
  subst hname
  unfold SliceSystem.markDeleted at hst'
  split_ifs at hst' with hterm
  · obtain rfl := Option.some_inj.mp (hst.symm.trans hst')
    exact hterm
  · rw [lookup_write_self hst' rfl]

theorem Coherent.markDeleted (h : Coherent names s) (hst : s.slices.lookup name = some st) :
    Coherent names (s.markDeleted st) := by
  unfold SliceSystem.markDeleted
  split_ifs
  · exact h
  · have hlabelled := (h.stored hst).1.labelled
    refine h.rewrite hst rfl rfl ⟨hlabelled.ns, hlabelled.service, hlabelled.managedBy⟩ ?_
      fun _ => rfl
    show st.generation ≤ st.generation + 1
    omega

/-- A sync begins, goes on or ends. -/
theorem Coherent.withSync (h : Coherent names s) {sync : Option SyncProgress}
    (hexisting : ∀ p, sync = some p → ∀ slice ∈ p.existing, Named names s slice)
    (hdue : ∀ p call, sync = some p → p.due = some call → Named names s call.slice ∧
      ∀ st, s.slices.lookup call.slice.name = some st → st.uid = call.slice.uid → Fits st call) :
    Coherent names { s with sync := sync } where
  stored hst := (h.stored hst).imp_left fun hn => hn.mono le_rfl rfl rfl
  cached hc := (h.cached hc).imp_left fun hn => hn.mono le_rfl rfl rfl
  news e he := (h.news e he).mono le_rfl rfl rfl
  existing {p} hp slice hslice := (hexisting p hp slice hslice).mono le_rfl rfl rfl
  due {p call} hp hcall := (hdue p call hp hcall).imp_left fun hn => hn.mono le_rfl rfl rfl
  settles := h.settles
  gone := h.gone
  tracked := h.tracked

/-- A sync goes on. -/
theorem Coherent.withDue (h : Coherent names s) {p : SyncProgress} (hp : s.sync = some p)
    {due : Option TrackerCall}
    (hdue : ∀ call, due = some call → Named names s call.slice ∧
      ∀ st, s.slices.lookup call.slice.name = some st → st.uid = call.slice.uid → Fits st call) :
    Coherent names { s with sync := some ⟨p.existing, due⟩ } := by
  refine h.withSync (fun p' hp' => ?_) fun p' call hp' hcall => ?_
  · obtain rfl := Option.some_inj.mp hp'
    exact fun slice hslice => h.existing hp slice hslice
  · obtain rfl := Option.some_inj.mp hp'
    exact hdue call hcall

/-- A UID is given a name. -/
theorem Coherent.reserve (h : Coherent names s) (name : String) :
    Coherent (Function.update names s.nextUID name) { s with nextUID := s.nextUID + 1 } := by
  have hnamed : ∀ {slice}, Named names s slice →
      Named (Function.update names s.nextUID name) { s with nextUID := s.nextUID + 1 } slice := by
    intro slice hn
    refine ⟨?_, Nat.lt_succ_of_lt hn.uid, hn.labelled.1, hn.labelled.2, hn.labelled.3⟩
    rw [Function.update_of_ne (Nat.ne_of_lt hn.uid)]
    exact hn.name
  exact {
    stored := fun hst => (h.stored hst).imp_left hnamed
    cached := fun hc => (h.cached hc).imp_left hnamed
    news := fun e he => hnamed (h.news e he)
    existing := fun hp slice hslice => hnamed (h.existing hp slice hslice)
    due := fun hp hcall => (h.due hp hcall).imp_left hnamed
    settles := h.settles
    gone := h.gone
    tracked := fun hg => Nat.lt_succ_of_lt (h.tracked hg) }

/-! ### The tracker -/

/-- The controller changes, and the tracker forgets slices or gets one of the system. -/
theorem Coherent.withController (h : Coherent names s) {controller : Controller}
    (hmanaged : controller.managedByName = s.controller.managedByName)
    (htracked : ∀ {uid g}, { s with controller := controller }.generation uid = some g →
      uid < s.nextUID) :
    Coherent names { s with controller := controller } where
  stored hst := (h.stored hst).imp_left fun hn => hn.mono le_rfl rfl hmanaged
  cached hc := (h.cached hc).imp_left fun hn => hn.mono le_rfl rfl hmanaged
  news e he := (h.news e he).mono le_rfl rfl hmanaged
  existing hp slice hslice := (h.existing hp slice hslice).mono le_rfl rfl hmanaged
  due hp hcall := (h.due hp hcall).imp_left fun hn => hn.mono le_rfl rfl hmanaged
  settles := h.settles
  gone := h.gone
  tracked := htracked

theorem generation_set (hslice : s.Labelled slice) (g : Int) (uid : UID) :
    { s with controller := { s.controller with
      endpointSliceTracker := s.controller.endpointSliceTracker.set slice g } }.generation uid =
      if uid = slice.uid then some g else s.generation uid := by
  simp only [generation, EndpointSliceTracker.set, hslice.getServiceNN, hslice.generations,
    AList.lookup_insert, Option.bind_some, GoMap.lookup_insert_eq]
  split_ifs
  · rfl
  · cases s.controller.endpointSliceTracker.generationsByService.lookup s.service with
    | none => rfl
    | some gfs => rfl

theorem queueServiceForEndpointSlice_eq (c : Controller) (slice : SliceMeta) :
    ∃ queue, c.queueServiceForEndpointSlice slice = { c with queue := queue } := by
  unfold Controller.queueServiceForEndpointSlice
  split
  · exact ⟨c.queue, rfl⟩
  · exact ⟨_, rfl⟩

theorem onEndpointSliceAdd_eq (c : Controller) (slice : SliceMeta) :
    ∃ queue, c.onEndpointSliceAdd slice = { c with queue := queue } := by
  unfold Controller.onEndpointSliceAdd
  split_ifs
  · exact queueServiceForEndpointSlice_eq c slice
  · exact ⟨c.queue, rfl⟩

theorem onEndpointSliceUpdate_eq (c : Controller) (prev slice : SliceMeta) :
    ∃ queue, c.onEndpointSliceUpdate prev slice = { c with queue := queue } := by
  unfold Controller.onEndpointSliceUpdate
  simp only
  split_ifs
  · obtain ⟨queue, hq⟩ := queueServiceForEndpointSlice_eq c slice
    rw [hq]
    obtain ⟨queue', hq'⟩ := queueServiceForEndpointSlice_eq { c with queue := queue } prev
    exact ⟨queue', hq'⟩
  · exact queueServiceForEndpointSlice_eq c slice
  · exact ⟨c.queue, rfl⟩

/-- A deleted slice is taken out of the tracker. -/
theorem onEndpointSliceDelete_spec (hslice : s.Labelled slice) :
    (s.controller.onEndpointSliceDelete slice).managedByName = s.controller.managedByName ∧
      ∀ uid, { s with controller := s.controller.onEndpointSliceDelete slice }.generation uid =
        if uid = slice.uid then none else s.generation uid := by
  have hmanaged : s.controller.ManagedByController slice = true := by
    rw [Controller.ManagedByController, hslice.managedBy]
    simp
  unfold Controller.onEndpointSliceDelete
  simp only [hmanaged, true_and, EndpointSliceTracker.Has, EndpointSliceTracker.HandleDeletion,
    hslice.generations, hslice.getServiceNN]
  cases hgfs : s.controller.endpointSliceTracker.generationsByService.lookup s.service with
  | none =>
    refine ⟨rfl, fun uid => ?_⟩
    simp [generation, hgfs]
  | some gfs =>
    cases hg : gfs.lookup slice.uid with
    | none =>
      simp only [hg, Option.isSome_none, Bool.false_eq_true, if_false]
      refine ⟨trivial, fun uid => ?_⟩
      by_cases huid : uid = slice.uid
      · subst huid
        simp [generation, hgfs, hg]
      · simp [generation, hgfs, huid]
    | some g =>
      simp only [hg, Option.isSome_some, if_true]
      have herased : ∀ uid, (some (gfs.erase slice.uid)).bind (·.lookup uid) =
          if uid = slice.uid then none else s.generation uid := by
        intro uid
        rw [Option.bind_some, GoMap.lookup_erase_eq, generation, hgfs]
        rfl
      split_ifs
      · refine ⟨rfl, fun uid => ?_⟩
        rw [← herased, generation]
        simp
      · obtain ⟨queue, hq⟩ := queueServiceForEndpointSlice_eq { s.controller with
          endpointSliceTracker := ⟨s.controller.endpointSliceTracker.generationsByService.insert
            s.service (gfs.erase slice.uid)⟩ } slice
        rw [hq]
        refine ⟨rfl, fun uid => ?_⟩
        rw [← herased, generation]
        simp

theorem handle_eq (s : SliceSystem) (e : SliceNews) :
    ∃ cache controller, s.handle e = { s with cache := cache, controller := controller } := by
  cases e with
  | set slice => exact ⟨_, _, rfl⟩
  | deleted slice => exact ⟨_, _, rfl⟩

theorem handle_set_eq (s : SliceSystem) (slice : SliceMeta) :
    ∃ queue, s.handle (.set slice) = { s with
      cache := s.cache.insert slice.name slice
      controller := { s.controller with queue := queue } } := by
  unfold handle
  cases hprev : s.cache.lookup slice.name with
  | none =>
    obtain ⟨queue, hq⟩ := onEndpointSliceAdd_eq s.controller slice
    exact ⟨queue, by simp only [hprev, hq]⟩
  | some prev =>
    obtain ⟨queue, hq⟩ := onEndpointSliceUpdate_eq s.controller prev slice
    exact ⟨queue, by simp only [hprev, hq]⟩

theorem managedByName_handle (e : SliceNews) (he : s.Labelled e.slice) :
    (s.handle e).controller.managedByName = s.controller.managedByName := by
  cases e with
  | set slice =>
    obtain ⟨queue, hq⟩ := s.handle_set_eq slice
    rw [hq]
  | deleted slice => exact (onEndpointSliceDelete_spec he).1

theorem generation_handle_set (slice : SliceMeta) (uid : UID) :
    (s.handle (.set slice)).generation uid = s.generation uid := by
  obtain ⟨queue, hq⟩ := s.handle_set_eq slice
  rw [hq]
  rfl

theorem generation_handle_deleted (hslice : s.Labelled slice) (uid : UID) :
    (s.handle (.deleted slice)).generation uid =
      if uid = slice.uid then none else s.generation uid :=
  (onEndpointSliceDelete_spec hslice).2 uid

/-- An event adds nothing to the tracker. -/
theorem generation_of_handle {e : SliceNews} (he : s.Labelled e.slice) {g : Int}
    (hg : (s.handle e).generation uid = some g) :
    s.generation uid = some g ∧ ∀ d, e = .deleted d → d.uid ≠ uid := by
  cases e with
  | set slice =>
    rw [generation_handle_set] at hg
    refine ⟨hg, fun d hd => ?_⟩
    cases hd
  | deleted slice =>
    have hslice : s.Labelled slice := he
    rw [generation_handle_deleted hslice] at hg
    split_ifs at hg with huid
    refine ⟨hg, fun d hd => ?_⟩
    cases hd
    exact fun heq => huid heq.symm

theorem lookup_cache_handle (e : SliceNews) (name : String) :
    (s.handle e).cache.lookup name =
      if name = e.slice.name then settle (s.cache.lookup name) e else s.cache.lookup name := by
  cases e with
  | set slice => exact GoMap.lookup_insert_eq _ _ _ _
  | deleted slice => exact GoMap.lookup_erase_eq _ _ _

/-- The first event of a slice is delivered. -/
theorem Coherent.deliver (h : Coherent names s) {before after : List SliceNews} {e : SliceNews}
    (hnews : s.news = before ++ e :: after)
    (hfirst : ∀ e' ∈ before, e'.slice.name ≠ e.slice.name) :
    Coherent names ({ s with news := before ++ after }.handle e) := by
  have he : Named names s e.slice := h.news e (by rw [hnews]; simp)
  have hsub : ∀ e' ∈ before ++ after, e' ∈ s.news := by
    intro e' he'
    rw [hnews]
    exact List.mem_append.mpr ((List.mem_append.mp he').imp_right (List.mem_cons_of_mem e))
  have hlabelled : { s with news := before ++ after }.Labelled e.slice :=
    ⟨he.labelled.ns, he.labelled.service, he.labelled.managedBy⟩
  have hmanaged := managedByName_handle e hlabelled
  have hcache := fun name => lookup_cache_handle (s := { s with news := before ++ after }) e name
  have htracked : ∀ {uid g}, ({ s with news := before ++ after }.handle e).generation uid = some g →
      uid < s.nextUID := fun hg => h.tracked (generation_of_handle hlabelled hg).1
  obtain ⟨cache, controller, heq⟩ := handle_eq { s with news := before ++ after } e
  rw [heq] at hmanaged hcache htracked ⊢
  have hmono : ∀ {slice}, Named names s slice → Named names { s with
      news := before ++ after, cache := cache, controller := controller } slice :=
    fun hn => hn.mono le_rfl rfl hmanaged
  exact {
    stored := fun hst => (h.stored hst).imp_left hmono
    cached := fun {name slice} hc => by
      rw [hcache] at hc
      split_ifs at hc with hname
      · cases e with
        | set slice' =>
          obtain rfl := Option.some_inj.mp hc
          exact ⟨hmono he, hname.symm⟩
        | deleted slice' => cases hc
      · exact (h.cached hc).imp_left hmono
    news := fun e' he' => hmono (h.news e' (hsub e' he'))
    existing := fun hp slice hslice => hmono (h.existing hp slice hslice)
    due := fun hp hcall => (h.due hp hcall).imp_left hmono
    settles := fun name => by
      refine Eq.trans ?_ (h.settles name)
      rw [hcache, hnews]
      show List.foldl _ _ ((before ++ after).filter _) = _
      rw [List.filter_append, List.filter_append]
      by_cases hname : name = e.slice.name
      · subst hname
        have hnone : before.filter (fun e' => e'.slice.name = e.slice.name) = [] :=
          List.filter_eq_nil_iff.mpr fun e' he' => by simpa using hfirst e' he'
        rw [hnone]
        simp
      · have hne : ¬ e.slice.name = name := fun h => hname h.symm
        simp [hname, hne]
    gone := fun hd => h.gone (hsub _ hd)
    tracked := htracked }

theorem Coherent.create (h : Coherent names s) {existing : List SliceMeta}
    (hsync : s.Calling existing) (name : String) (finalizers : List String) :
    Coherent (Function.update names s.nextUID name) { s.write (s.newSlice name finalizers) with
      nextUID := s.nextUID + 1
      sync := some ⟨existing, some (.update (s.newSlice name finalizers))⟩ } := by
  have hreserved := h.reserve name
  have hnamed : Named (Function.update names s.nextUID name)
      { s with nextUID := s.nextUID + 1 } (s.newSlice name finalizers) := by
    refine ⟨?_, Nat.lt_succ_self _, rfl, s.sliceLabels_lookup.1, s.sliceLabels_lookup.2⟩
    show name = Function.update names s.nextUID name s.nextUID
    rw [Function.update_self]
  have hwritten := hreserved.write hnamed
    (fun d hd => Nat.ne_of_lt (h.news _ hd).uid)
    (fun {p call} hp hcall => by
      cases hp.symm.trans hsync
      cases hcall)
  refine hwritten.withDue hsync fun call hcall => ?_
  obtain rfl := Option.some_inj.mp hcall
  refine ⟨hnamed.mono le_rfl rfl rfl, fun st hst _ => ?_⟩
  rw [lookup_write_self hst rfl]
  exact le_rfl

/-- A call is made of the tracker, of a slice that the system has. -/
theorem Coherent.told (h : Coherent names s) {call : TrackerCall}
    (hcall : Named names s call.slice) :
    Coherent names { s with controller := { s.controller with
      endpointSliceTracker := told s.controller.endpointSliceTracker call } } := by
  refine h.withController rfl fun {uid g} hg => ?_
  have hset : ∃ g', SliceSystem.told s.controller.endpointSliceTracker call =
      s.controller.endpointSliceTracker.set call.slice g' := by
    cases call with
    | update slice => exact ⟨_, rfl⟩
    | expectDeletion slice => exact ⟨_, rfl⟩
  obtain ⟨g', hset⟩ := hset
  rw [hset, generation_set hcall.labelled] at hg
  split_ifs at hg with huid
  · rw [huid]
    exact hcall.uid
  · exact h.tracked hg

theorem mem_listed (hslice : slice ∈ s.listed) : ∃ name, s.cache.lookup name = some slice :=
  GoMap.mem_values_iff.mp (List.mem_of_mem_filter (List.mem_of_mem_filter hslice))

theorem Coherent.step (h : Coherent names s) {e : SliceEvent} (hs : s.step e s') :
    ∃ names', Coherent names' s' := by
  cases e with
  | begin =>
    obtain ⟨-, rfl⟩ := hs
    refine ⟨names, ?_⟩
    split_ifs
    · exact h
    · refine h.withSync (fun p hp slice hslice => ?_) fun p call hp hcall => ?_
      · obtain rfl := Option.some_inj.mp hp
        obtain ⟨name, hc⟩ := mem_listed hslice
        exact (h.cached hc).1
      · obtain rfl := Option.some_inj.mp hp
        cases hcall
  | create name finalizers =>
    obtain ⟨existing, hsync, -, rfl⟩ := hs
    exact ⟨_, h.create hsync name finalizers⟩
  | update name finalizers changed =>
    obtain ⟨existing, st, hsync, -, hst, rfl⟩ := hs
    have hwritten := h.updated hst finalizers changed
    refine ⟨names, hwritten.withDue hsync fun call hcall => ?_⟩
    obtain rfl := Option.some_inj.mp hcall
    obtain ⟨hnamed, -⟩ := h.stored hst
    refine ⟨⟨hnamed.name, hnamed.uid, hnamed.labelled.ns, s.sliceLabels_lookup.1,
      s.sliceLabels_lookup.2⟩, fun st' hst' _ => ?_⟩
    rw [lookup_write_self hst' rfl]
    exact le_rfl
  | delete slice =>
    obtain ⟨existing, st, hsync, hslice, hst, rfl⟩ := hs
    have hmarked := h.markDeleted hst
    have hsync' : (s.markDeleted st).sync = some ⟨existing, none⟩ :=
      (sync_markDeleted s st).trans hsync
    refine ⟨names, hmarked.withDue hsync' fun call hcall => ?_⟩
    obtain rfl := Option.some_inj.mp hcall
    refine ⟨hmarked.existing hsync' slice hslice, fun st' hst' _ => ?_⟩
    obtain ⟨-, hname⟩ := h.stored hst
    exact deletionTimestamp_markDeleted hst hname hst'
  | track =>
    obtain ⟨existing, call, hsync, rfl⟩ := hs
    have htold := h.told (h.due hsync rfl).1
    refine ⟨names, htold.withDue hsync fun call' hcall' => ?_⟩
    cases hcall'
  | finish =>
    obtain ⟨existing, -, rfl⟩ := hs
    exact ⟨names, h.withSync (fun p hp => by cases hp) fun p call hp => by cases hp⟩
  | serviceGone =>
    obtain ⟨-, rfl⟩ := hs
    refine ⟨names, h.withController rfl fun {uid g} hg => ?_⟩
    simp [generation, EndpointSliceTracker.DeleteService] at hg
  | userDelete name =>
    obtain ⟨st, hst, rfl⟩ := hs
    exact ⟨names, h.markDeleted hst⟩
  | release name finalizer =>
    obtain ⟨st, hst, rfl⟩ := hs
    have hlabelled := (h.stored hst).1.labelled
    exact ⟨names, h.rewrite hst rfl rfl
      ⟨hlabelled.ns, hlabelled.service, hlabelled.managedBy⟩ le_rfl id⟩
  | deliver name =>
    obtain ⟨before, e, after, hnews, rfl, hfirst, rfl⟩ := hs
    exact ⟨names, h.deliver hnews hfirst⟩

/-! ## What the steps without a race keep -/

/-- The tracker is about to be told to expect the slice's deletion. -/
def Expects (s : SliceSystem) (uid : UID) : Prop :=
  ∃ p slice, s.sync = some p ∧ p.due = some (.expectDeletion slice) ∧ slice.uid = uid

/-- What makes up for a generation of the tracker. -/
def Kept (s : SliceSystem) (uid : UID) (g : Int) : Prop :=
  (∃ name st, s.slices.lookup name = some st ∧ st.uid = uid ∧ st.deletionTimestamp = false ∧
    g ≤ st.generation) ∨ s.Leaving uid ∨ s.Expects uid

/-- Nothing is left of the slice but what is to be deleted. -/
def Pending (s : SliceSystem) (uid : UID) : Prop :=
  ∀ name st, s.slices.lookup name = some st → st.uid = uid → st.deletionTimestamp = true

structure Tidy (s : SliceSystem) : Prop where
  kept : ∀ {uid g}, s.generation uid = some g → g ≠ deletionExpected → s.Kept uid g
  pending : ∀ {uid}, s.generation uid = some deletionExpected → s.Pending uid

/-- A stored slice is written again with its UID: it stays live, goes at once, or its deletion is
about to be expected. -/
theorem Tidy.rewrite (h : Tidy s) (hst : s.slices.lookup slice.name = some st)
    (honly : ∀ {name' st'}, s.slices.lookup name' = some st' → st'.uid = st.uid →
      name' = slice.name)
    (huid : slice.uid = st.uid) (hgeneration : st.generation ≤ slice.generation)
    (hterm : st.deletionTimestamp = true → slice.deletionTimestamp = true)
    (hlive : st.deletionTimestamp = false → s.Tracks st.uid →
      slice.deletionTimestamp = false ∨ Gone slice ∨ s.Expects st.uid) :
    Tidy (s.write slice) where
  kept {uid g} hg hne := by
    rcases h.kept hg hne with ⟨name', st', hst', rfl, hfalse, hle⟩ | ⟨d, hd, rfl⟩ | hexpects
    · by_cases hsame : st'.uid = st.uid
      · obtain rfl := honly hst' hsame
        obtain rfl := Option.some_inj.mp (hst.symm.trans hst')
        rcases hlive hfalse ⟨g, hg, hne⟩ with hfalse' | hgone | hexpects
        · have hgone : ¬ Gone slice := fun hgone => by
            rw [hgone.1] at hfalse'
            cases hfalse'
          refine .inl ⟨slice.name, slice, ?_, huid, hfalse', ?_⟩
          · rw [lookup_write, if_pos rfl, if_neg hgone]
          · omega
        · refine .inr (.inl ⟨slice, ?_, huid⟩)
          simp [SliceSystem.write, hgone]
        · exact .inr (.inr hexpects)
      · refine .inl ⟨name', st', ?_, rfl, hfalse, hle⟩
        rw [lookup_write, if_neg]
        · exact hst'
        · rintro rfl
          exact hsame (congrArg SliceMeta.uid (Option.some_inj.mp (hst'.symm.trans hst)))
    · exact .inr (.inl ⟨d, List.mem_append_left _ hd, rfl⟩)
    · exact .inr (.inr hexpects)
  pending {uid} hg := by
    intro name' st' hst' hsame
    rw [lookup_write] at hst'
    split_ifs at hst' with hname hgone
    · obtain rfl := Option.some_inj.mp hst'
      exact hterm (h.pending hg _ _ hst (huid.symm.trans hsame))
    · exact h.pending hg _ _ hst' hsame

/-- The sync changes and no expected deletion is dropped. -/
theorem Tidy.withSync (h : Tidy s) {sync : Option SyncProgress}
    (hexpects : ∀ uid, s.Expects uid → { s with sync := sync }.Expects uid) :
    Tidy { s with sync := sync } where
  kept hg hne := (h.kept hg hne).imp_right fun hk => hk.imp_right (hexpects _)
  pending hg := h.pending hg

/-- Stored slices have their own UIDs. -/
theorem Coherent.only (h : Coherent names s) (hst : s.slices.lookup name = some st)
    {name' : String} {st' : SliceMeta} (hst' : s.slices.lookup name' = some st')
    (huid : st'.uid = st.uid) : name' = st.name := by
  obtain ⟨hnamed', rfl⟩ := h.stored hst'
  rw [hnamed'.name, huid, ← (h.stored hst).1.name]

theorem not_expects (hsync : s.sync = none ∨ ∃ existing, s.Calling existing) :
    ¬ s.Expects uid := by
  rintro ⟨p, slice, hp, hdue, -⟩
  rcases hsync with hsync | ⟨existing, hsync⟩
  · rw [hsync] at hp
    cases hp
  · cases hp.symm.trans hsync
    cases hdue

theorem Tidy.markDeleted (h : Tidy s) (hst : s.slices.lookup st.name = some st)
    (honly : ∀ {name' st'}, s.slices.lookup name' = some st' → st'.uid = st.uid →
      name' = st.name)
    (hstrands : st.deletionTimestamp = false → st.finalizers ≠ [] → s.Tracks st.uid →
      s.Expects st.uid) :
    Tidy (s.markDeleted st) := by
  unfold SliceSystem.markDeleted
  split_ifs
  · exact h
  · refine h.rewrite hst honly rfl ?_ (fun _ => rfl) fun hfalse htracks => .inr ?_
    · show st.generation ≤ st.generation + 1
      omega
    · by_cases hfinalizers : st.finalizers = []
      · exact .inl ⟨rfl, hfinalizers⟩
      · exact .inr (hstrands hfalse hfinalizers htracks)

theorem Tidy.create (h : Tidy s) (hc : Coherent names s) {existing : List SliceMeta}
    (hsync : s.Calling existing) (hname : s.slices.lookup name = none) (finalizers : List String)
    (due : Option TrackerCall) :
    Tidy { s.write (s.newSlice name finalizers) with
      nextUID := s.nextUID + 1, sync := some ⟨existing, due⟩ } := by
  have hgone : ¬ Gone (s.newSlice name finalizers) := fun hg => by cases hg.1
  have hlookup : ∀ name', (s.write (s.newSlice name finalizers)).slices.lookup name' =
      if name' = name then some (s.newSlice name finalizers) else s.slices.lookup name' := by
    intro name'
    rw [lookup_write, if_neg hgone]
    rfl
  refine ⟨fun {uid g} hg hne => ?_, fun {uid} hg name' st' hst' huid => ?_⟩
  · rcases h.kept hg hne with ⟨name', st', hst', hrest⟩ | ⟨d, hd, rfl⟩ | hexpects
    · refine .inl ⟨name', st', ?_, hrest⟩
      rw [← hst', hlookup, if_neg]
      rintro rfl
      rw [hname] at hst'
      cases hst'
    · exact .inr (.inl ⟨d, List.mem_append_left _ hd, rfl⟩)
    · exact absurd hexpects (not_expects (.inr ⟨existing, hsync⟩))
  · rw [hlookup] at hst'
    split_ifs at hst'
    · obtain rfl := Option.some_inj.mp hst'
      -- The tracker cannot have had the new UID.
      have hlt := hc.tracked hg
      rw [← huid] at hlt
      exact absurd hlt (Nat.lt_irrefl _)
    · exact h.pending hg _ _ hst' huid

/-- The tracker is told a generation of a slice, the only one whose deletion may have been due to
be expected. -/
theorem Tidy.told (h : Tidy s) (hslice : Named names s slice) {sync : Option SyncProgress} {g : Int}
    (hexpects : ∀ uid, s.Expects uid → uid = slice.uid)
    (hkept : g ≠ deletionExpected → { s with sync := sync }.Kept slice.uid g)
    (hpending : g = deletionExpected → s.Pending slice.uid) :
    Tidy { s with
      controller := { s.controller with
        endpointSliceTracker := s.controller.endpointSliceTracker.set slice g }
      sync := sync } := by
  have hset := fun uid => generation_set hslice.labelled g uid
  refine ⟨fun {uid g'} hg hne => ?_, fun {uid} hg => ?_⟩
  · replace hg := (hset uid).symm.trans hg
    split_ifs at hg with huid
    · obtain rfl := Option.some_inj.mp hg
      subst huid
      exact hkept hne
    · rcases h.kept hg hne with hstored | hleaving | hexp
      · exact .inl hstored
      · exact .inr (.inl hleaving)
      · exact absurd (hexpects uid hexp) huid
  · replace hg := (hset uid).symm.trans hg
    split_ifs at hg with huid
    · subst huid
      exact hpending (Option.some_inj.mp hg)
    · exact h.pending hg

theorem Tidy.update (h : Tidy s) (hc : Coherent names s) {existing : List SliceMeta}
    (hslice : Named names s slice) (hsync : s.sync = some ⟨existing, some (.update slice)⟩)
    (hraces : s.Live slice ∨ s.Leaving slice.uid) :
    Tidy { s with
      controller := { s.controller with
        endpointSliceTracker := s.controller.endpointSliceTracker.Update slice }
      sync := some ⟨existing, none⟩ } := by
  refine h.told hslice ?_ (fun _ => ?_) fun hneg => ?_
  · rintro uid ⟨p, slice', hp, hdue, -⟩
    cases hp.symm.trans hsync
    cases hdue
  · rcases hraces with ⟨st, hst, huid, hfalse⟩ | hleaving
    · refine .inl ⟨slice.name, st, hst, huid, hfalse, ?_⟩
      exact Int.ofNat_le.mpr ((hc.due hsync rfl).2 st hst huid)
    · exact .inr (.inl hleaving)
  · replace hneg : (slice.generation : Int) = -1 := hneg
    omega

theorem Tidy.expectDeletion (h : Tidy s) (hc : Coherent names s) {existing : List SliceMeta}
    (hslice : Named names s slice)
    (hsync : s.sync = some ⟨existing, some (.expectDeletion slice)⟩) :
    Tidy { s with
      controller := { s.controller with
        endpointSliceTracker := s.controller.endpointSliceTracker.ExpectDeletion slice }
      sync := some ⟨existing, none⟩ } := by
  refine h.told hslice ?_ (fun hne => absurd rfl hne) fun _ name st hst hsame => ?_
  · rintro uid ⟨p, slice', hp, hdue, huid⟩
    cases hp.symm.trans hsync
    cases hdue
    exact huid.symm
  · exact (hc.due hsync rfl).2 st (hc.lookup_of_uid hst hslice hsame) hsame

theorem Tidy.deliver (h : Tidy s) (hc : Coherent names s) {before after : List SliceNews}
    {e : SliceNews} (hnews : s.news = before ++ e :: after) :
    Tidy ({ s with news := before ++ after }.handle e) := by
  have he : Named names s e.slice := hc.news e (by rw [hnews]; simp)
  have hlabelled : { s with news := before ++ after }.Labelled e.slice :=
    ⟨he.labelled.ns, he.labelled.service, he.labelled.managedBy⟩
  have hgeneration : ∀ uid g, ({ s with news := before ++ after }.handle e).generation uid = some g →
      s.generation uid = some g ∧ ∀ d, e = .deleted d → d.uid ≠ uid :=
    fun uid g hg => generation_of_handle hlabelled hg
  obtain ⟨cache, controller, heq⟩ := handle_eq { s with news := before ++ after } e
  rw [heq] at hgeneration ⊢
  refine ⟨fun {uid g} hg hne => ?_, fun {uid} hg => ?_⟩
  · obtain ⟨hg, hother⟩ := hgeneration uid g hg
    rcases h.kept hg hne with hstored | ⟨d, hd, rfl⟩ | hexpects
    · exact .inl hstored
    · refine .inr (.inl ⟨d, ?_, rfl⟩)
      show SliceNews.deleted d ∈ before ++ after
      rw [hnews] at hd
      rcases List.mem_append.mp hd with hd | hd
      · exact List.mem_append_left _ hd
      · rcases List.mem_cons.mp hd with hd | hd
        · exact absurd rfl (hother d hd.symm)
        · exact List.mem_append_right _ hd
    · exact .inr (.inr hexpects)
  · exact h.pending (hgeneration uid _ hg).1

theorem Tidy.step (h : Tidy s) (hc : Coherent names s) {e : SliceEvent} (hs : s.step e s')
    (hraces : ¬ s.Races e) : Tidy s' := by
  cases e with
  | begin =>
    obtain ⟨hsync, rfl⟩ := hs
    split_ifs
    · exact h
    · exact h.withSync fun uid hexpects => absurd hexpects (not_expects (.inl hsync))
  | create name finalizers =>
    obtain ⟨existing, hsync, hname, rfl⟩ := hs
    exact h.create hc hsync hname finalizers _
  | update name finalizers changed =>
    obtain ⟨existing, st, hsync, -, hst, rfl⟩ := hs
    obtain ⟨-, rfl⟩ := hc.stored hst
    have hwritten : Tidy (s.write (s.updated st finalizers changed)) := by
      refine h.rewrite hst (hc.only hst) rfl ?_ id fun hfalse _ => .inl hfalse
      show st.generation ≤ if changed then st.generation + 1 else st.generation
      split_ifs <;> omega
    exact hwritten.withSync fun uid hexpects =>
      absurd hexpects (not_expects (.inr ⟨existing, hsync⟩))
  | delete slice =>
    obtain ⟨existing, st, hsync, -, hst, rfl⟩ := hs
    obtain ⟨-, hname⟩ := hc.stored hst
    have hst' : s.slices.lookup st.name = some st := by rw [hname]; exact hst
    -- The deletion is expected before the slice is marked.
    have hdue : Tidy { s with sync := some ⟨existing, some (.expectDeletion slice)⟩ } :=
      h.withSync fun uid hexpects => absurd hexpects (not_expects (.inr ⟨existing, hsync⟩))
    have hmarked := hdue.markDeleted hst' (hc.only hst') fun hfalse hfinalizers htracks => by
      refine ⟨_, slice, rfl, rfl, ?_⟩
      by_contra hne
      exact hraces ⟨st, hst, hfalse, hfinalizers, htracks, fun h => hne (Option.some_inj.mp h)⟩
    unfold SliceSystem.markDeleted at hmarked ⊢
    split_ifs at hmarked ⊢ with hterm
    · exact hmarked
    · exact hmarked
  | track =>
    obtain ⟨existing, call, hsync, rfl⟩ := hs
    have hnamed := (hc.due hsync rfl).1
    cases call with
    | update slice =>
      refine h.update hc hnamed hsync ?_
      by_contra hlost
      rw [not_or] at hlost
      exact hraces ⟨existing, slice, hsync, hlost.1, hlost.2⟩
    | expectDeletion slice => exact h.expectDeletion hc hnamed hsync
  | finish =>
    obtain ⟨existing, hsync, rfl⟩ := hs
    exact h.withSync fun uid hexpects => absurd hexpects (not_expects (.inr ⟨existing, hsync⟩))
  | serviceGone =>
    obtain ⟨-, rfl⟩ := hs
    refine ⟨fun {uid g} hg => ?_, fun {uid} hg => ?_⟩ <;>
      simp [generation, EndpointSliceTracker.DeleteService] at hg
  | userDelete name =>
    obtain ⟨st, hst, rfl⟩ := hs
    obtain ⟨-, rfl⟩ := hc.stored hst
    refine h.markDeleted hst (hc.only hst) fun hfalse hfinalizers htracks => ?_
    exact absurd ⟨st, hst, hfalse, hfinalizers, htracks, fun h => by cases h⟩ hraces
  | release name finalizer =>
    obtain ⟨st, hst, rfl⟩ := hs
    obtain ⟨-, rfl⟩ := hc.stored hst
    exact h.rewrite hst (hc.only hst) rfl le_rfl id fun hfalse _ => .inl hfalse
  | deliver name =>
    obtain ⟨before, e, after, hnews, -, -, rfl⟩ := hs
    exact h.deliver hc hnews

/-! ## Quiet states -/

/-- When every event is delivered, the slices that a sync works on are the live ones. -/
theorem Coherent.mem_listed_iff (h : Coherent names s) (hquiet : s.Quiet) :
    slice ∈ s.listed ↔
      s.slices.lookup slice.name = some slice ∧ slice.deletionTimestamp = false := by
  have hcache : ∀ name, s.cache.lookup name = s.slices.lookup name := by
    intro name
    rw [← h.settles name, hquiet.2]
    rfl
  simp only [listed, dropEndpointSlicesPendingDeletion, Controller.listSlices, List.mem_filter,
    GoMap.mem_values_iff, hcache, decide_eq_true_eq, Bool.not_eq_true']
  constructor
  · rintro ⟨⟨⟨name, hst⟩, -⟩, hfalse⟩
    obtain ⟨-, rfl⟩ := h.stored hst
    exact ⟨hst, hfalse⟩
  · rintro ⟨hst, hfalse⟩
    have hlabelled := (h.stored hst).1.labelled
    exact ⟨⟨⟨slice.name, hst⟩, hlabelled.ns, hlabelled.service, hlabelled.managedBy⟩, hfalse⟩

/-- The tracker is stale when it has a later generation of a listed slice, expects its deletion,
or has a slice that is not listed. -/
theorem stale_iff : s.Stale ↔
    (∃ slice ∈ s.listed, ∃ g, s.generation slice.uid = some g ∧
      (g = deletionExpected ∨ (slice.generation : Int) < g)) ∨
    ∃ uid, s.Tracks uid ∧ ∀ slice ∈ s.listed, slice.uid ≠ uid := by
  unfold Stale EndpointSliceTracker.StaleSlices Tracks generation
  cases s.controller.endpointSliceTracker.generationsByService.lookup s.service with
  | none => simp
  | some gfs =>
    simp only [Option.bind_some, Bool.or_eq_true, List.any_eq_true, Option.any_eq_true,
      decide_eq_true_eq, List.mem_map, not_exists, not_and]
    refine or_congr Iff.rfl ⟨?_, ?_⟩
    · rintro ⟨⟨uid, g⟩, hmem, hne, hall⟩
      exact ⟨uid, ⟨g, GoMap.mem_entries_iff.mp hmem, hne⟩, hall⟩
    · rintro ⟨uid, ⟨g, hg, hne⟩, hall⟩
      exact ⟨⟨uid, g⟩, GoMap.mem_entries_iff.mpr hg, hne, hall⟩

theorem Tidy.not_stale (h : Tidy s) (hc : Coherent names s) (hquiet : s.Quiet) : ¬ s.Stale := by
  rw [stale_iff]
  have hkept : ∀ {uid g}, s.generation uid = some g → g ≠ deletionExpected →
      ∃ slice ∈ s.listed, slice.uid = uid ∧ g ≤ slice.generation := by
    intro uid g hg hne
    rcases h.kept hg hne with ⟨name, st, hst, huid, hfalse, hle⟩ | ⟨d, hd, -⟩ | hexpects
    · obtain ⟨-, rfl⟩ := hc.stored hst
      exact ⟨st, (hc.mem_listed_iff hquiet).mpr ⟨hst, hfalse⟩, huid, hle⟩
    · rw [hquiet.2] at hd
      cases hd
    · exact absurd hexpects (not_expects (.inl hquiet.1))
  rintro (⟨slice, hslice, g, hg, hstale⟩ | ⟨uid, ⟨g, hg, hne⟩, hall⟩)
  · obtain ⟨hst, hfalse⟩ := (hc.mem_listed_iff hquiet).mp hslice
    by_cases hne : g = deletionExpected
    · subst hne
      have hterm := h.pending hg _ _ hst rfl
      rw [hfalse] at hterm
      cases hterm
    · obtain ⟨slice', hslice', huid, hle⟩ := hkept hg hne
      obtain ⟨hst', -⟩ := (hc.mem_listed_iff hquiet).mp hslice'
      rw [hc.only hst hst' huid, hst] at hst'
      obtain rfl := Option.some_inj.mp hst'
      rcases hstale with hexpected | hlt
      · exact hne hexpected
      · omega
  · obtain ⟨slice, hslice, huid, -⟩ := hkept hg hne
    exact hall slice hslice huid

/-- The controller starts when the informer has synced. -/
structure Initial (s : SliceSystem) : Prop where
  tracker : s.controller.endpointSliceTracker = ⟨∅⟩
  sync : s.sync = none
  synced : s.cache = s.slices ∧ s.news = []
  stored : ∀ {name st}, s.slices.lookup name = some st →
    st.name = name ∧ st.uid < s.nextUID ∧ s.Labelled st
  uids : ∀ {name st name' st'}, s.slices.lookup name = some st →
    s.slices.lookup name' = some st' → st.uid = st'.uid → name = name'

theorem Initial.generation_eq_none (h : s.Initial) (uid : UID) : s.generation uid = none := by
  rw [generation, h.tracker]
  rfl

theorem Initial.coherent (h : s.Initial) : ∃ names, Coherent names s := by
  classical
  let names : UID → String := fun uid =>
    if huid : ∃ name st, s.slices.lookup name = some st ∧ st.uid = uid then huid.choose else ""
  have hnamed : ∀ {name st}, s.slices.lookup name = some st → Named names s st ∧ st.name = name := by
    intro name st hst
    obtain ⟨rfl, hlt, hlabelled⟩ := h.stored hst
    have huid : ∃ name' st', s.slices.lookup name' = some st' ∧ st'.uid = st.uid :=
      ⟨st.name, st, hst, rfl⟩
    refine ⟨⟨?_, hlt, hlabelled⟩, rfl⟩
    obtain ⟨st', hst', hsame⟩ := huid.choose_spec
    show st.name = if huid : _ then _ else _
    rw [dif_pos huid]
    exact h.uids hst hst' hsame.symm
  refine ⟨names, hnamed, fun hc => hnamed (by rwa [h.synced.1] at hc), fun e he => ?_,
    fun hp => ?_, fun hp => ?_, fun name => ?_, fun hd => ?_, fun hg => ?_⟩
  · rw [h.synced.2] at he
    cases he
  · rw [h.sync] at hp
    cases hp
  · rw [h.sync] at hp
    cases hp
  · rw [h.synced.1, h.synced.2]
    rfl
  · rw [h.synced.2] at hd
    cases hd
  · rw [h.generation_eq_none] at hg
    cases hg

theorem Initial.tidy (h : s.Initial) : Tidy s := by
  refine ⟨fun {uid g} hg => ?_, fun {uid} hg => ?_⟩ <;> rw [h.generation_eq_none] at hg <;> cases hg

/-- As long as no step races with a deletion, the tracker is stale in no quiet state. -/
theorem never_wedged (h : s.Initial) {es : List SliceEvent}
    (hruns : Runs (Guarded step fun s e => ¬ s.Races e) s es s') (hquiet : s'.Quiet) :
    ¬ s'.Stale := by
  have hinv : (∃ names, Coherent names s') ∧ Tidy s' := by
    refine hruns.invariant (I := fun s => (∃ names, Coherent names s) ∧ Tidy s) ?_
      ⟨h.coherent, h.tidy⟩
    rintro s e s' ⟨⟨names, hc⟩, htidy⟩ ⟨hs, hraces⟩
    exact ⟨hc.step hs, htidy.step hc hs hraces⟩
  obtain ⟨⟨names, hc⟩, htidy⟩ := hinv
  exact htidy.not_stale hc hquiet

/-- A service without slices. -/
def shop : SliceSystem :=
  ⟨∅, 1, [], ∅, ⟨⟨∅⟩, Known.LabelValueManagedBy, []⟩, ⟨"shop", "web"⟩, none⟩

theorem shop_initial : shop.Initial where
  tracker := rfl
  sync := rfl
  synced := ⟨rfl, rfl⟩
  stored hst := by cases hst
  uids hst := by cases hst

/-- A slice is made and then deleted by a user, after the tracker has been told of it. -/
theorem never_wedged_shop : ∃ s', Runs (Guarded step fun s e => ¬ s.Races e) shop
    [.begin, .create "web-1" [], .track, .finish, .userDelete "web-1", .deliver "web-1",
      .deliver "web-1"] s' ∧ s'.Quiet ∧ ¬ s'.Stale := by
  have hruns : ∃ s', Runs (Guarded step fun s e => ¬ s.Races e) shop
      [.begin, .create "web-1" [], .track, .finish, .userDelete "web-1", .deliver "web-1",
        .deliver "web-1"] s' ∧ s'.Quiet := by
    refine ⟨_, .cons ⟨⟨rfl, rfl⟩, id⟩ (.cons ⟨⟨_, rfl, rfl, rfl⟩, id⟩
      (.cons ⟨⟨_, _, rfl, rfl⟩, ?_⟩ (.cons ⟨⟨_, rfl, rfl⟩, id⟩ (.cons ⟨⟨_, rfl, rfl⟩, ?_⟩
        (.cons ⟨⟨[], _, _, rfl, rfl, by simp, rfl⟩, id⟩
          (.cons ⟨⟨[], _, _, rfl, rfl, by simp, rfl⟩, id⟩ (.nil _))))))), rfl, rfl⟩
    · rintro ⟨existing, slice, hsync, hlive, -⟩
      cases hsync
      exact hlive ⟨_, rfl, rfl, rfl⟩
    · rintro ⟨st, hst, -, hfinalizers, -⟩
      cases hst
      exact hfinalizers rfl
  obtain ⟨s', hruns, hquiet⟩ := hruns
  exact ⟨s', hruns, hquiet, never_wedged shop_initial hruns hquiet⟩

/-- The slice is deleted, and its events are delivered, before the tracker is told of it. -/
theorem late_update_wedges : ∃ s', Runs step shop
    [.begin, .create "web-1" [], .userDelete "web-1", .deliver "web-1", .deliver "web-1", .track,
      .finish] s' ∧ s'.Quiet ∧ s'.Stale := by
  refine ⟨_, .cons ⟨rfl, rfl⟩ (.cons ⟨_, rfl, rfl, rfl⟩ (.cons ⟨_, rfl, rfl⟩
    (.cons ⟨[], _, _, rfl, rfl, by simp, rfl⟩ (.cons ⟨[], _, _, rfl, rfl, by simp, rfl⟩
      (.cons ⟨_, _, rfl, rfl⟩ (.cons ⟨_, rfl, rfl⟩ (.nil _))))))), ⟨rfl, rfl⟩, ?_⟩
  decide +kernel

/-! ## Other runs

After a step that races with a deletion, the tracker may keep the slice for good. -/

/-- The tracker has a slice that no sync will list and whose deletion is not to be delivered. -/
structure Lost (s : SliceSystem) (uid : UID) : Prop where
  tracks : s.Tracks uid
  pending : s.Pending uid
  leaving : ¬ s.Leaving uid
  expects : ¬ s.Expects uid

theorem Lost.stale (h : s.Lost uid) (hc : Coherent names s) (hquiet : s.Quiet) : s.Stale := by
  rw [stale_iff]
  refine .inr ⟨uid, h.tracks, fun slice hslice huid => ?_⟩
  obtain ⟨hst, hfalse⟩ := (hc.mem_listed_iff hquiet).mp hslice
  have hterm := h.pending _ _ hst huid
  rw [hfalse] at hterm
  cases hterm

theorem lost_of_strands (hc : Coherent names s) {other : Option UID} (hs : s.Strands name other) :
    ∃ st, s.slices.lookup name = some st ∧ other ≠ some st.uid ∧
      (s.markDeleted st).Tracks st.uid ∧ (s.markDeleted st).Pending st.uid ∧
      ¬ (s.markDeleted st).Leaving st.uid ∧ ¬ s.Expects st.uid := by
  obtain ⟨st, hst, hfalse, hfinalizers, htracks, hother⟩ := hs
  obtain ⟨-, rfl⟩ := hc.stored hst
  have hgone : ¬ Gone { st with deletionTimestamp := true, generation := st.generation + 1 } :=
    fun hg => hfinalizers hg.2
  have hmarked : s.markDeleted st =
      s.write { st with deletionTimestamp := true, generation := st.generation + 1 } := by
    rw [markDeleted, hfalse]
    rfl
  refine ⟨st, hst, hother, ?_, fun name' st' hst' huid => ?_, ?_, ?_⟩
  · rw [hmarked]
    exact htracks
  · obtain ⟨hnamed', rfl⟩ := (hc.markDeleted hst).stored hst'
    rw [hnamed'.name, huid, ← (hc.stored hst).1.name] at hst'
    exact deletionTimestamp_markDeleted hst rfl hst'
  · rintro ⟨d, hd, huid⟩
    rw [hmarked] at hd
    rcases List.mem_append.mp hd with hd | hd
    · exact hc.gone hd hst huid.symm
    · rw [if_neg hgone] at hd
      cases List.mem_singleton.mp hd
  · rintro ⟨p, slice, hp, hdue, huid⟩
    obtain ⟨hnamed, hfits⟩ := hc.due hp hdue
    have hterm : st.deletionTimestamp = true :=
      hfits st (hc.lookup_of_uid hst hnamed huid.symm) huid.symm
    rw [hfalse] at hterm
    cases hterm

theorem lost_of_races (hc : Coherent names s) {e : SliceEvent} (hs : s.step e s')
    (hraces : s.Races e) : ∃ uid, s'.Lost uid := by
  cases e with
  | track =>
    obtain ⟨existing, slice, hsync, hlive, hleaving⟩ := hraces
    obtain ⟨existing', call, hsync', rfl⟩ := hs
    cases hsync.symm.trans hsync'
    have hnamed := (hc.due hsync rfl).1
    refine ⟨slice.uid, ⟨slice.generation, ?_, ?_⟩, fun name st hst huid => ?_, hleaving, ?_⟩
    · exact (generation_set hnamed.labelled _ _).trans (if_pos rfl)
    · show (slice.generation : Int) ≠ -1
      omega
    · by_contra hterm
      exact hlive ⟨st, hc.lookup_of_uid hst hnamed huid, huid, Bool.eq_false_of_not_eq_true hterm⟩
    · exact not_expects (.inr ⟨existing, rfl⟩)
  | delete slice =>
    obtain ⟨st, hst, hother, htracks, hpending, hleaving, -⟩ := lost_of_strands hc hraces
    obtain ⟨existing, st', hsync, -, hst', rfl⟩ := hs
    obtain rfl := Option.some_inj.mp (hst.symm.trans hst')
    refine ⟨st.uid, htracks, hpending, hleaving, ?_⟩
    rintro ⟨p, slice', hp, hdue, huid⟩
    obtain rfl := Option.some_inj.mp hp
    cases hdue
    exact hother (congrArg some huid)
  | userDelete name =>
    obtain ⟨st, hst, -, htracks, hpending, hleaving, hexpects⟩ := lost_of_strands hc hraces
    obtain ⟨st', hst', rfl⟩ := hs
    obtain rfl := Option.some_inj.mp (hst.symm.trans hst')
    refine ⟨st.uid, htracks, hpending, hleaving, ?_⟩
    rintro ⟨p, slice, hp, hdue⟩
    rw [sync_markDeleted] at hp
    exact hexpects ⟨p, slice, hp, hdue⟩
  | _ => exact hraces.elim

theorem Lost.track (h : s.Lost uid) (hc : Coherent names s) {existing : List SliceMeta}
    {call : TrackerCall} (hsync : s.sync = some ⟨existing, some call⟩) :
    Lost { s with
      controller := { s.controller with
        endpointSliceTracker := told s.controller.endpointSliceTracker call }
      sync := some ⟨existing, none⟩ } uid := by
  refine ⟨?_, h.pending, h.leaving, not_expects (.inr ⟨existing, rfl⟩)⟩
  have hlabelled := (hc.due hsync rfl).1.labelled
  obtain ⟨g, hg, hne⟩ := h.tracks
  cases call with
  | update slice =>
    have hset := generation_set hlabelled slice.generation uid
    by_cases huid : uid = slice.uid
    · refine ⟨slice.generation, hset.trans (if_pos huid), ?_⟩
      show (slice.generation : Int) ≠ -1
      omega
    · exact ⟨g, hset.trans ((if_neg huid).trans hg), hne⟩
  | expectDeletion slice =>
    have hset := generation_set hlabelled deletionExpected uid
    have huid : uid ≠ slice.uid := fun huid => h.expects ⟨_, slice, hsync, rfl, huid.symm⟩
    exact ⟨g, hset.trans ((if_neg huid).trans hg), hne⟩

/-- The sync under way comes to its end. -/
theorem Lost.drain_sync (h : s.Lost uid) (hc : Coherent names s) :
    ∃ es s' names', Runs step s es s' ∧ Coherent names' s' ∧ s'.Lost uid ∧ s'.sync = none := by
  have hfinish : ∀ {s names existing}, Coherent names s → s.Lost uid → s.Calling existing →
      ∃ s' names', Runs step s [.finish] s' ∧ Coherent names' s' ∧ s'.Lost uid ∧
        s'.sync = none := by
    intro s names existing hc h hsync
    have hs : s.step .finish { s with sync := none } := ⟨existing, hsync, rfl⟩
    obtain ⟨names', hc'⟩ := hc.step hs
    exact ⟨_, names', .single hs, hc', ⟨h.tracks, h.pending, h.leaving, not_expects (.inl rfl)⟩, rfl⟩
  rcases hsync : s.sync with _ | ⟨existing, _ | call⟩
  · exact ⟨[], s, names, .nil s, hc, h, hsync⟩
  · obtain ⟨s', names', hrest⟩ := hfinish hc h hsync
    exact ⟨_, s', names', hrest⟩
  · have hs : s.step .track _ := ⟨existing, call, hsync, rfl⟩
    obtain ⟨names₁, hc₁⟩ := hc.step hs
    obtain ⟨s', names', hruns, hrest⟩ := hfinish hc₁ (h.track hc hsync) rfl
    exact ⟨_, s', names', .cons hs hruns, hrest⟩

/-- The events are delivered, the oldest first. -/
theorem Lost.drain_news (h : s.Lost uid) (hc : Coherent names s) (hsync : s.sync = none) :
    ∃ es s' names', Runs step s es s' ∧ Coherent names' s' ∧ s'.Lost uid ∧ s'.Quiet := by
  obtain ⟨n, hn⟩ : ∃ n, s.news.length = n := ⟨_, rfl⟩
  induction n generalizing s names with
  | zero => exact ⟨[], s, names, .nil s, hc, h, hsync, List.length_eq_zero_iff.mp hn⟩
  | succ n ih =>
    obtain ⟨e, after, hnews⟩ := List.exists_cons_of_length_eq_add_one hn
    have hs : s.step (.deliver e.slice.name) ({ s with news := after }.handle e) :=
      ⟨[], e, after, hnews, rfl, by simp, rfl⟩
    obtain ⟨names₁, hc₁⟩ := hc.step hs
    have he : Named names s e.slice := hc.news e (by rw [hnews]; simp)
    have hlabelled : { s with news := after }.Labelled e.slice :=
      ⟨he.labelled.ns, he.labelled.service, he.labelled.managedBy⟩
    have hgeneration : ({ s with news := after }.handle e).generation uid = s.generation uid := by
      cases e with
      | set slice => exact generation_handle_set slice uid
      | deleted slice =>
        refine (generation_handle_deleted hlabelled uid).trans (if_neg fun huid => ?_)
        exact h.leaving ⟨slice, by rw [hnews]; simp, huid.symm⟩
    obtain ⟨cache, controller, heq⟩ := handle_eq { s with news := after } e
    rw [heq] at hs hc₁ hgeneration
    have hlost : Lost { s with news := after, cache := cache, controller := controller } uid := by
      refine ⟨?_, h.pending, ?_, not_expects (.inl hsync)⟩
      · obtain ⟨g, hg, hne⟩ := h.tracks
        exact ⟨g, hgeneration.trans hg, hne⟩
      · rintro ⟨d, hd, huid⟩
        exact h.leaving ⟨d, by rw [hnews]; exact List.mem_cons_of_mem _ hd, huid⟩
    have hlen : after.length = n := by
      rw [hnews] at hn
      exact Nat.succ.inj hn
    obtain ⟨es, s', names', hruns, hrest⟩ := ih hlost hc₁ hsync hlen
    exact ⟨_, s', names', .cons hs hruns, hrest⟩

theorem exists_wedged_of_races (hc : Coherent names s) {e : SliceEvent} (hs : s.step e s')
    (hraces : s.Races e) : ∃ es s₂, Runs step s' es s₂ ∧ s₂.Quiet ∧ s₂.Stale := by
  obtain ⟨uid, hlost⟩ := lost_of_races hc hs hraces
  obtain ⟨names₁, hc₁⟩ := hc.step hs
  obtain ⟨es, s₁, names₂, hruns, hc₂, hlost, hsync⟩ := hlost.drain_sync hc₁
  obtain ⟨es', s₂, names₃, hruns', hc₃, hlost, hquiet⟩ := hlost.drain_news hc₂ hsync
  exact ⟨es ++ es', s₂, hruns.append hruns', hquiet, hlost.stale hc₃ hquiet⟩

end SliceSystem

end Fleetboard.EndpointSlices

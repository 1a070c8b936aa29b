import Fleetboard.Framework.Watch
import Fleetboard.Model.SliceController
import Fleetboard.Proof.PodChange

/-!
# No change of a service or a pod is lost

The controller of endpoint slices watches services and pods: a service is an item of work with its
object as its configuration, and relevant of a pod is what it contributes to the service's slices.

* `mem_handlePod`: the handlers add every service to which a pod's contribution has changed, for
  the changes that `podEndpointsChanged` notices (`Noticed`);
* `watchStep`: the controller's steps are steps of the watched system;
* `no_change_lost`: when nothing is left to tell the handlers, and a service is neither queued nor
  being synced nor given up, its last sync has seen the service and the contributions of the pods
  as they are now.
-/

namespace Fleetboard.EndpointSlices

open GoMap

variable {parseIP : String → String}

/-! ## Contributions -/

/-- What a pod contributes to the slices of a service that selects it. -/
def relevant (parseIP : String → String) (service : Option CachedService) (pod : Option Pod) :
    Option (List EndpointPort × Endpoint) :=
  match service, pod with
  | some service, some pod =>
    if service.externalName = false ∧ pod.ns = service.service.ns ∧
        (service.service.selector.any fun selector => selectorMatches selector pod.labels) then
      contribution parseIP service.service pod
    else none
  | _, _ => none

/-- What the pods of a list contribute, each under its key. -/
def contributed (parseIP : String → String) (service : Option CachedService) (pods : List Pod)
    (key : NamespacedName) : Option (List EndpointPort × Endpoint) :=
  relevant parseIP service (pods.find? fun pod => podKey pod = key)

/-- The old and the new version of a notified pod. -/
def PodEvent.old : PodEvent → Option Pod
  | .added _ => none
  | .updated oldPod _ => some oldPod
  | .deleted pod => some pod

def PodEvent.new : PodEvent → Option Pod
  | .added pod => some pod
  | .updated _ newPod => some newPod
  | .deleted _ => none

def PodEvent.key : PodEvent → NamespacedName
  | .added pod => podKey pod
  | .updated _ newPod => podKey newPod
  | .deleted pod => podKey pod

/-- Two versions of a pod of which the change detector notices that they contribute differently:
another resource version comes with every change, and what the detector compares differs or the
contributions do not. The new version may be another pod of the same name. -/
structure Noticed (parseIP : String → String) (oldPod newPod : Pod) : Prop where
  version : newPod.resourceVersion = oldPod.resourceVersion → newPod = oldPod
  contribution : WatchedDiffer oldPod newPod ∨
    ∀ service, contribution parseIP service oldPod = contribution parseIP service newPod

theorem relevant_none (service : Option CachedService) : relevant parseIP service none = none := by
  cases service with
  | none => rfl
  | some service => rfl

/-- The service selects a pod that is relevant. -/
theorem selects_of_relevant {service : CachedService} {pod : Pod}
    (h : relevant parseIP (some service) (some pod) ≠ none) :
    service.externalName = false ∧ pod.ns = service.service.ns ∧ Selects service.service pod := by
  rw [relevant] at h
  split at h
  · rename_i hselects
    obtain ⟨selector, hselector, hmatches⟩ := Option.any_eq_true _ _ |>.1 hselects.2.2
    exact ⟨hselects.1, hselects.2.1, selector, hselector, hmatches⟩
  · exact absurd rfl h

theorem relevant_of_selects {service : CachedService} {pod : Pod}
    (hexternal : service.externalName = false) (hns : pod.ns = service.service.ns)
    (hselects : Selects service.service pod) :
    relevant parseIP (some service) (some pod) = contribution parseIP service.service pod := by
  obtain ⟨selector, hselector, hmatches⟩ := hselects
  have hany : (service.service.selector.any fun selector => selectorMatches selector pod.labels) =
      true := by rw [hselector, Option.any_some, hmatches]
  rw [relevant, if_pos ⟨hexternal, hns, hany⟩]

theorem podEndpointsChanged_snd (oldPod newPod : Pod) : (podEndpointsChanged oldPod newPod).2 =
    (!GoMap.deepEqual newPod.labels oldPod.labels || !hostNameAndDomainAreEqual newPod oldPod) := by
  unfold podEndpointsChanged
  split
  · rfl
  · split
    · rfl
    · split
      · rfl
      · split
        · rfl
        · rfl

/-- A service that selects one of two versions sees that their labels differ. -/
theorem podEndpointsChanged_snd_of_selects {service : Service} {oldPod newPod : Pod}
    (h : ¬ (Selects service oldPod ↔ Selects service newPod)) :
    (podEndpointsChanged oldPod newPod).2 = true := by
  rw [podEndpointsChanged_snd]
  by_contra hsame
  rw [Bool.or_eq_true, not_or, Bool.not_eq_true', Bool.not_eq_false, GoMap.deepEqual_iff] at hsame
  refine h (exists_congr fun selector => and_congr_right fun _ => ?_)
  simp only [selectorMatches, hsame.1]

/-! ## The handlers -/

/-- The services of the cache are under their keys. -/
def SliceController.ServicesKeyed (c : SliceController) : Prop :=
  ∀ key service, c.services.lookup key = some service → serviceKey service.service = key

section Handlers

variable {c : SliceController} (hkeyed : c.ServicesKeyed) {key : String} {service : CachedService}
  (hservice : c.services.lookup key = some service)

include hservice in
theorem mem_serviceLister {ns : String} (hns : ns = service.service.ns) :
    service.service ∈ (c.services.values.map (·.service)).filter (·.ns = ns) := by
  refine List.mem_filter.2 ⟨List.mem_map.2 ⟨service, mem_values_iff.2 ⟨key, hservice⟩, rfl⟩, ?_⟩
  exact decide_eq_true hns.symm

include hkeyed hservice

/-- A pod of the service's namespace belongs to the service if it is selected. -/
theorem mem_memberships_iff {pod : Pod} (hns : pod.ns = service.service.ns) :
    key ∈ (GetPodServiceMemberships c.serviceLister pod).1 ↔ Selects service.service pod := by
  have hlist : c.serviceLister pod.ns =
      .ok ((c.services.values.map (·.service)).filter (·.ns = pod.ns)) := rfl
  constructor
  · intro hmem
    rw [GetPodServiceMemberships, hlist] at hmem
    dsimp only at hmem
    rw [List.mem_toFinset, List.mem_map] at hmem
    obtain ⟨service', hservice', rfl⟩ := hmem
    obtain ⟨hlisted, hselects⟩ := List.mem_filter.1 hservice'
    obtain ⟨cached, hcached, rfl⟩ := List.mem_map.1 (List.mem_filter.1 hlisted).1
    obtain ⟨key', hkey'⟩ := mem_values_iff.1 hcached
    rw [hkeyed key' cached hkey'] at hservice
    cases hservice.symm.trans hkey'
    split at hselects
    · cases hselects
    · rename_i selector hselector
      exact ⟨selector, hselector, hselects⟩
  · intro hselects
    have hmem := (mem_memberships hlist (mem_serviceLister hservice hns) hselects).2
    rwa [hkeyed key service hservice] at hmem

theorem mem_addPod {pod : Pod} (hns : pod.ns = service.service.ns)
    (hselects : Selects service.service pod) : key ∈ c.addPod pod :=
  (mem_memberships_iff hkeyed hservice hns).2 hselects

/-- A service that selects one of two versions of a pod is updated. -/
theorem mem_updates_of_one {oldPod newPod : Pod} (hpod : newPod.ns = oldPod.ns)
    (hversion : newPod.resourceVersion ≠ oldPod.resourceVersion)
    (hns : newPod.ns = service.service.ns)
    (hone : ¬ (Selects service.service oldPod ↔ Selects service.service newPod)) :
    key ∈ GetServicesToUpdateOnPodChange c.serviceLister oldPod newPod := by
  have hold := mem_memberships_iff hkeyed hservice (hpod.symm.trans hns)
  have hnew := mem_memberships_iff hkeyed hservice hns
  have hlabels := podEndpointsChanged_snd_of_selects hone
  have hnone : (GetPodServiceMemberships c.serviceLister newPod).2 = none := rfl
  rw [GetServicesToUpdateOnPodChange, if_neg hversion]
  rcases hm : GetPodServiceMemberships c.serviceLister newPod with ⟨services, err⟩
  rw [hm] at hnew hnone
  cases hnone
  rcases hch : podEndpointsChanged oldPod newPod with ⟨podChanged, labelsChanged⟩
  rw [hch] at hlabels
  cases hlabels
  simp only [Bool.not_true, Bool.and_false, Bool.false_eq_true, if_false, if_true]
  rw [determineNeededServiceUpdates]
  split
  · rw [Finset.mem_union, hnew, hold]
    by_contra hnot
    exact hone (iff_of_false (fun h => hnot (.inr h)) fun h => hnot (.inl h))
  · rw [Finset.mem_union, Finset.mem_sdiff, Finset.mem_sdiff, hnew, hold]
    by_cases hsel : Selects service.service oldPod
    · exact .inr ⟨hsel, fun h => hone (iff_of_true hsel h)⟩
    · exact .inl ⟨by_contra fun h => hone (iff_of_false hsel h), hsel⟩

/-- A service to which a pod's contribution has changed is added. -/
theorem mem_handlePod {event : PodEvent}
    (hnoticed : ∀ oldPod newPod, event = .updated oldPod newPod →
      newPod.ns = oldPod.ns ∧ Noticed parseIP oldPod newPod)
    (hne : relevant parseIP (some service) event.old ≠ relevant parseIP (some service) event.new) :
    key ∈ c.handlePod event := by
  cases event with
  | added pod =>
    obtain ⟨-, hns, hselects⟩ := selects_of_relevant
      (fun h => hne (h.trans (relevant_none (some service)).symm).symm)
    exact mem_addPod hkeyed hservice hns hselects
  | deleted pod =>
    obtain ⟨-, hns, hselects⟩ := selects_of_relevant
      (fun h => hne (h.trans (relevant_none (some service)).symm))
    exact mem_addPod hkeyed hservice hns hselects
  | updated oldPod newPod =>
    obtain ⟨hpod, hversion, hcontribution⟩ := hnoticed oldPod newPod rfl
    have hversion : newPod.resourceVersion ≠ oldPod.resourceVersion := fun h => by
      rw [PodEvent.old, PodEvent.new, hversion h] at hne
      exact hne rfl
    rw [PodEvent.old, PodEvent.new] at hne
    by_cases hone : Selects service.service oldPod ↔ Selects service.service newPod
    · by_cases hall : service.externalName = false ∧ newPod.ns = service.service.ns ∧
          Selects service.service newPod
      · have hold := hone.2 hall.2.2
        have hns := hpod.symm.trans hall.2.1
        rw [relevant_of_selects hall.1 hns hold, relevant_of_selects hall.1 hall.2.1 hall.2.2] at hne
        have hwatched := hcontribution.resolve_right fun h => hne (h service.service)
        have hlist : c.serviceLister oldPod.ns =
            .ok ((c.services.values.map (·.service)).filter (·.ns = oldPod.ns)) := rfl
        have hmem := (mem_servicesToUpdate_iff hpod hlist hversion
          (mem_serviceLister hservice hns) hold hall.2.2).2 hwatched
        rwa [hkeyed key service hservice] at hmem
      · -- Neither version is relevant.
        have hnew : relevant parseIP (some service) (some newPod) = none :=
          by_contra fun h => hall (selects_of_relevant h)
        have hold : relevant parseIP (some service) (some oldPod) = none := by
          by_contra h
          obtain ⟨hexternal, hns, hselects⟩ := selects_of_relevant h
          exact hall ⟨hexternal, hpod.trans hns, hone.1 hselects⟩
        exact absurd (hold.trans hnew.symm) hne
    · have hns : newPod.ns = service.service.ns := by
        by_contra hns
        have hnew : relevant parseIP (some service) (some newPod) = none :=
          by_contra fun h => hns (selects_of_relevant h).2.1
        have hold : relevant parseIP (some service) (some oldPod) = none :=
          by_contra fun h => hns (hpod.trans (selects_of_relevant h).2.1)
        exact hne (hold.trans hnew.symm)
      exact mem_updates_of_one hkeyed hservice hpod hversion hns hone

end Handlers

/-! ## The watched system -/

open SliceController

def SyncStage.reading (parseIP : String → String) : SyncStage →
    Watch.Reading NamespacedName (Option CachedService) (Option (List EndpointPort × Endpoint))
  | .started => .started
  | .found service => .configured service
  | .listed service pods => .read (some service) (contributed parseIP (some service) pods)

def Synced.record (parseIP : String → String) (synced : Synced) :
    Option CachedService × (NamespacedName → Option (List EndpointPort × Endpoint)) :=
  (synced.service, contributed parseIP synced.service synced.pods)

/-- What the last sync of a service without an error has seen; before there is one, no service. -/
def SliceController.lastSynced (c : SliceController) (key : String) : Synced :=
  (c.synced.lookup key).getD ⟨none, []⟩

def PodEvent.change (event : PodEvent) : Watch.Change NamespacedName (Option Pod) :=
  ⟨event.key, event.old, event.new⟩

/-- The controller as a system that watches pods for services. -/
def watchState (parseIP : String → String) (c : SliceController) :
    Watch.State String NamespacedName (Option Pod) (Option CachedService)
      (Option (List EndpointPort × Endpoint)) where
  object key := c.pods.lookup key
  notified key := c.delivered.lookup key
  changes := c.podEvents.map PodEvent.change
  config key := c.services.lookup key
  configured := c.serviceEvents
  marked := {key | key ∈ c.queue.dirty ∨ key ∈ c.queue.waiting}
  reading key := (c.stages.lookup key).map (SyncStage.reading parseIP)
  record key := (c.lastSynced key).record parseIP
  dropped := {key | key ∈ c.dropped}

/-! ## Caches -/

section Lookups

variable {κ α β : Type*} [DecidableEq κ] (m : GoMap κ α) (f : α → β) (k : κ) (v : α)

theorem lookup_insert_update :
    (fun k' => ((m.insert k v).lookup k').map f) =
      Function.update (fun k' => (m.lookup k').map f) k (some (f v)) := by
  funext k'
  rw [lookup_insert_eq, Function.update_apply]
  split
  · rfl
  · rfl

theorem lookup_erase_update :
    (fun k' => ((m.erase k).lookup k').map f) =
      Function.update (fun k' => (m.lookup k').map f) k none := by
  funext k'
  rw [lookup_erase_eq, Function.update_apply]
  split
  · rfl
  · rfl

end Lookups

theorem lookup_store {κ α : Type} [DecidableEq κ] (m : GoMap κ α) (key : κ) (object : Option α) :
    (fun key' => (store m key object).lookup key') =
      Function.update (fun key' => m.lookup key') key object := by
  cases object with
  | none => simpa only [store, Option.map_id, id_eq] using lookup_erase_update m id key
  | some object =>
    simpa only [store, Option.map_id, id_eq] using lookup_insert_update m id key object

/-- What is stored under its key stays so. -/
theorem keyed_store {κ α : Type} [DecidableEq κ] {m : GoMap κ α} {keyOf : α → κ} {key : κ}
    {object : Option α} (hm : ∀ key' x, m.lookup key' = some x → keyOf x = key')
    (hobject : ∀ x, object = some x → keyOf x = key) (key' : κ) (x : α)
    (hx : (store m key object).lookup key' = some x) : keyOf x = key' := by
  have hlookup := congrFun (lookup_store m key object) key'
  rw [hx, Function.update_apply] at hlookup
  split at hlookup
  · rename_i hkey
    rw [hkey]
    exact hobject x hlookup.symm
  · exact hm key' x hlookup.symm

/-- What the controller's steps keep: services and pods are under their keys, so are the pods of
notifications, updates are noticed, and keys are being processed while there is a stage. -/
structure SliceController.Keyed (parseIP : String → String) (c : SliceController) : Prop where
  services : c.ServicesKeyed
  pods : ∀ key pod, c.pods.lookup key = some pod → podKey pod = key
  noticed : ∀ oldPod newPod, .updated oldPod newPod ∈ c.podEvents →
    newPod.ns = oldPod.ns ∧ Noticed parseIP oldPod newPod
  stages : ∀ key, c.stages.lookup key ≠ none → key ∈ c.queue.processing

/-- The changes of pods are noticed. -/
def PodsNoticed (parseIP : String → String) (c : SliceController) : ControllerEvent → Prop
  | .pod key (some newPod) =>
    ∀ oldPod, c.pods.lookup key = some oldPod → Noticed parseIP oldPod newPod
  | _ => True

theorem mem_podEvent {oldPod newPod : Pod} {old new : Option Pod}
    (h : PodEvent.updated oldPod newPod ∈ (podEvent old new).toList) :
    old = some oldPod ∧ new = some newPod := by
  cases old with
  | none =>
    cases new with
    | none => cases h
    | some pod => simp [podEvent] at h
  | some pod =>
    cases new with
    | none => simp [podEvent] at h
    | some pod' =>
      simp only [podEvent, Option.toList_some, List.mem_singleton, PodEvent.updated.injEq] at h
      rw [h.1, h.2]
      exact ⟨rfl, rfl⟩

theorem handleErr_processing (q : SyncQueue) (err : Bool) (key : String) :
    (q.handleErr err key).processing = q.processing := by
  rw [SyncQueue.handleErr]
  split
  · rfl
  · split
    · rfl
    · rfl

theorem SliceController.Keyed.stages_insert {c : SliceController} (h : c.Keyed parseIP)
    {key key' : String} {stage stage' : SyncStage} (hstage : c.stages.lookup key = some stage)
    (hlookup : (c.stages.insert key stage').lookup key' ≠ none) : key' ∈ c.queue.processing := by
  by_cases hkey : key' = key
  · rw [hkey]
    exact h.stages key (hstage ▸ Option.some_ne_none stage)
  · rw [lookup_insert_eq, if_neg hkey] at hlookup
    exact h.stages key' hlookup

theorem SliceController.Keyed.stages_erase {c : SliceController} (h : c.Keyed parseIP)
    {key key' : String} (err : Bool) (hlookup : (c.stages.erase key).lookup key' ≠ none) :
    key' ∈ ((c.queue.handleErr err key).Done key).processing := by
  rw [lookup_erase_eq] at hlookup
  split at hlookup
  · exact absurd rfl hlookup
  · rename_i hkey
    rw [SyncQueue.Done, handleErr_processing]
    exact Finset.mem_erase.2 ⟨hkey, h.stages key' hlookup⟩

theorem SliceController.Keyed.step {c c' : SliceController} {e : ControllerEvent}
    (h : c.Keyed parseIP)
    (hstep : Guarded SliceController.Step (PodsNoticed parseIP) c e c') : c'.Keyed parseIP := by
  obtain ⟨hstep, hguard⟩ := hstep
  cases hstep with
  | service key service keyed =>
    exact ⟨keyed_store h.services keyed, h.pods, h.noticed, h.stages⟩
  | pod key pod keyed =>
    refine ⟨h.services, keyed_store h.pods keyed, fun oldPod newPod hmem => ?_, h.stages⟩
    rcases List.mem_append.1 hmem with hmem | hmem
    · exact h.noticed oldPod newPod hmem
    · obtain ⟨hold, rfl⟩ := mem_podEvent hmem
      have hkey := (keyed newPod rfl).trans (h.pods key oldPod hold).symm
      exact ⟨congrArg NamespacedName.ns hkey, hguard oldPod hold⟩
  | handleService head => exact ⟨h.services, h.pods, h.noticed, h.stages⟩
  | handlePod head =>
    refine ⟨h.services, h.pods, fun oldPod newPod hmem => ?_, h.stages⟩
    exact h.noticed oldPod newPod (head ▸ List.mem_cons_of_mem _ hmem)
  | handleSlice key => exact ⟨h.services, h.pods, h.noticed, h.stages⟩
  | handleNode key => exact ⟨h.services, h.pods, h.noticed, h.stages⟩
  | due waiting => exact ⟨h.services, h.pods, h.noticed, h.stages⟩
  | @get key dirty processing =>
    refine ⟨h.services, h.pods, h.noticed, fun key' hstage => ?_⟩
    dsimp only [SyncQueue.take]
    rw [Finset.mem_insert]
    by_cases hkey : key' = key
    · exact .inl hkey
    · dsimp only at hstage
      rw [lookup_insert_eq, if_neg hkey] at hstage
      exact .inr (h.stages key' hstage)
  | getService stage =>
    exact ⟨h.services, h.pods, h.noticed, fun key' hstage => h.stages_insert stage hstage⟩
  | listPods stage hselector =>
    exact ⟨h.services, h.pods, h.noticed, fun key' hstage => h.stages_insert stage hstage⟩
  | skip stage hselector =>
    exact ⟨h.services, h.pods, h.noticed, fun key' hstage => h.stages_erase false hstage⟩
  | finish stage =>
    exact ⟨h.services, h.pods, h.noticed, fun key' hstage => h.stages_erase false hstage⟩
  | fail stage =>
    exact ⟨h.services, h.pods, h.noticed, fun key' hstage => h.stages_erase true hstage⟩

/-! ## The simulation -/

theorem lookup_deliver (delivered : GoMap NamespacedName Pod) (event : PodEvent) :
    (fun key' => (deliver delivered event).lookup key') =
      Function.update (fun key' => delivered.lookup key') event.key event.new := by
  cases event with
  | added pod => exact lookup_store delivered (podKey pod) (some pod)
  | updated oldPod newPod => exact lookup_store delivered (podKey newPod) (some newPod)
  | deleted pod => exact lookup_store delivered (podKey pod) none

/-- The event of a change is under the key of the pod. -/
theorem podEvent_spec {old new : Option Pod} {key : NamespacedName}
    (hold : ∀ pod, old = some pod → podKey pod = key)
    (hnew : ∀ pod, new = some pod → podKey pod = key) :
    old = none ∧ new = none ∧ podEvent old new = none ∨
      ∃ event, podEvent old new = some event ∧ event.change = ⟨key, old, new⟩ := by
  cases old with
  | none =>
    cases new with
    | none => exact .inl ⟨rfl, rfl, rfl⟩
    | some pod => exact .inr ⟨_, rfl, by rw [PodEvent.change, PodEvent.key, hnew pod rfl]; rfl⟩
  | some pod =>
    cases new with
    | none => exact .inr ⟨_, rfl, by rw [PodEvent.change, PodEvent.key, hold pod rfl]; rfl⟩
    | some pod' => exact .inr ⟨_, rfl, by rw [PodEvent.change, PodEvent.key, hnew pod' rfl]; rfl⟩

theorem relevant_of_selectorOf {service : Option CachedService} (h : selectorOf service = none)
    (pod : Option Pod) : relevant parseIP service pod = none := by
  cases pod with
  | none => exact relevant_none service
  | some pod =>
    cases service with
    | none => rfl
    | some service =>
      by_contra hrelevant
      obtain ⟨hexternal, -, selector, hselector, -⟩ := selects_of_relevant hrelevant
      rw [selectorOf] at h
      simp only [hexternal, Bool.false_eq_true, if_false, hselector] at h
      cases h

/-- Listing the pods of a service sees all that is relevant. -/
theorem contributed_listPods {c : SliceController}
    (hpods : ∀ key pod, c.pods.lookup key = some pod → podKey pod = key) {service : CachedService}
    {selector : GoMap String String} (hselector : selectorOf (some service) = some selector) :
    contributed parseIP (some service) (c.listPods service.service selector) =
      fun key => relevant parseIP (some service) (c.pods.lookup key) := by
  funext key
  rw [contributed]
  -- A pod of the list is the one under its key.
  have hlisted : ∀ pod ∈ c.listPods service.service selector,
      c.pods.lookup (podKey pod) = some pod := by
    intro pod hpod
    obtain ⟨key', hkey'⟩ := mem_values_iff.1 (List.mem_filter.1 hpod).1
    rw [hpods key' pod hkey', hkey']
  cases hfind : (c.listPods service.service selector).find? fun pod => podKey pod = key with
  | some pod =>
    have hkey := List.find?_some hfind
    rw [decide_eq_true_eq] at hkey
    rw [← hkey, hlisted pod (List.mem_of_find?_eq_some hfind)]
  | none =>
    rw [relevant_none]
    by_contra hrelevant
    cases hlookup : c.pods.lookup key with
    | none =>
      rw [hlookup, relevant_none] at hrelevant
      exact hrelevant rfl
    | some pod =>
      rw [hlookup] at hrelevant
      obtain ⟨hexternal, hns, selector', hselector', hmatches⟩ :=
        selects_of_relevant (Ne.symm hrelevant)
      rw [selectorOf] at hselector
      simp only [hexternal, Bool.false_eq_true, if_false, hselector', Option.some.injEq] at hselector
      subst hselector
      have hmem : pod ∈ c.listPods service.service selector' :=
        List.mem_filter.2 ⟨mem_values_iff.2 ⟨key, hlookup⟩, decide_eq_true ⟨hns, hmatches⟩⟩
      have hnot := List.find?_eq_none.1 hfind pod hmem
      exact hnot (decide_eq_true (hpods key pod hlookup))

theorem lastSynced_insert (c : SliceController) (key : String) (synced : Synced) :
    (fun key' => (((c.synced.insert key synced).lookup key').getD ⟨none, []⟩).record parseIP) =
      Function.update (fun key' => (c.lastSynced key').record parseIP) key
        (synced.record parseIP) := by
  funext key'
  rw [lookup_insert_eq, Function.update_apply]
  split
  · rfl
  · rfl

theorem reading_eq {c : SliceController} {key : String} {stage : SyncStage}
    (h : c.stages.lookup key = some stage) :
    (watchState parseIP c).reading key = some (stage.reading parseIP) := by
  show (c.stages.lookup key).map (SyncStage.reading parseIP) = _
  rw [h]
  rfl

/-- The keys that are to be worked on. -/
def SyncQueue.queued (q : SyncQueue) : Set String := {key | key ∈ q.dirty ∨ key ∈ q.waiting}

section Queue

variable (q : SyncQueue) (key : String)

theorem queued_Add : (q.Add key).queued = insert key q.queued := by
  ext key'
  show key' ∈ insert key q.dirty ∨ key' ∈ q.waiting ↔
    key' = key ∨ key' ∈ q.dirty ∨ key' ∈ q.waiting
  rw [Finset.mem_insert, or_assoc]

theorem queued_AddAfter (keys : Finset String) :
    (q.AddAfter keys).queued = q.queued ∪ {key | key ∈ keys} := by
  ext key'
  show key' ∈ q.dirty ∨ key' ∈ q.waiting ∪ keys ↔ (key' ∈ q.dirty ∨ key' ∈ q.waiting) ∨ key' ∈ keys
  rw [Finset.mem_union, or_assoc]

theorem queued_AddAfter_singleton : (q.AddAfter {key}).queued = insert key q.queued := by
  rw [queued_AddAfter]
  ext key'
  show key' ∈ q.queued ∨ key' ∈ ({key} : Finset String) ↔ key' = key ∨ key' ∈ q.queued
  rw [Finset.mem_singleton, or_comm]

theorem queued_due {key : String} (h : key ∈ q.waiting) : (q.due key).queued = q.queued := by
  ext key'
  show key' ∈ insert key q.dirty ∨ key' ∈ q.waiting.erase key ↔ key' ∈ q.dirty ∨ key' ∈ q.waiting
  rw [Finset.mem_insert, Finset.mem_erase]
  by_cases heq : key' = key
  · simp only [heq, h, true_or, or_true]
  · simp only [heq, false_or, ne_eq, not_false_eq_true, true_and]

/-- After a failed sync the key is to be worked on again, while there is a retry left. -/
theorem queued_handleErr : ((q.handleErr true key).Done key).queued =
    if q.retries key = true then insert key q.queued else q.queued := by
  unfold SyncQueue.handleErr
  rw [if_neg Bool.true_eq_false.mp]
  split
  · ext key'
    show key' ∈ q.dirty ∨ key' ∈ insert key q.waiting ↔
      key' = key ∨ key' ∈ q.dirty ∨ key' ∈ q.waiting
    rw [Finset.mem_insert, or_left_comm]
  · rfl

end Queue

/-- A change of a pod in the informer's cache is one of the object that is watched. -/
theorem watchStep_pod {c : SliceController} (hc : c.Keyed parseIP) {key : NamespacedName}
    {pod : Option Pod} (keyed : ∀ p, pod = some p → podKey p = key) :
    Watch.Step (relevant parseIP) (watchState parseIP c) () (watchState parseIP { c with
      pods := store c.pods key pod
      podEvents := c.podEvents ++ (podEvent (c.pods.lookup key) pod).toList }) := by
  have hobject := lookup_store c.pods key pod
  rcases podEvent_spec (hc.pods key) keyed with ⟨hold, hnew, hevent⟩ | ⟨event, hevent, hchange⟩
  · refine Watch.Step.idle.of_eq (Watch.State.ext ?_ rfl ?_ rfl rfl rfl rfl rfl rfl)
    · refine hobject.trans ?_
      rw [hnew, ← hold]
      exact Function.update_eq_self key _
    · show (c.podEvents ++ (podEvent (c.pods.lookup key) pod).toList).map PodEvent.change = _
      rw [hevent, Option.toList_none, List.append_nil]
      rfl
  · refine (Watch.Step.change key pod).of_eq
      (Watch.State.ext hobject rfl ?_ rfl rfl rfl rfl rfl rfl)
    show (c.podEvents ++ (podEvent (c.pods.lookup key) pod).toList).map PodEvent.change = _
    rw [hevent, Option.toList_some, List.map_append, List.map_singleton, hchange]
    rfl

/-- The handler of an event queues the services for which it matters. -/
theorem mem_handlePod_of_relevant {c : SliceController} (hc : c.Keyed parseIP) {event : PodEvent}
    (hevent : event ∈ c.podEvents) {key : String}
    (hne : relevant parseIP (c.services.lookup key) event.old ≠
      relevant parseIP (c.services.lookup key) event.new) : key ∈ c.handlePod event := by
  cases hlookup : c.services.lookup key with
  | none =>
    rw [hlookup] at hne
    exact absurd rfl hne
  | some service =>
    rw [hlookup] at hne
    refine mem_handlePod hc.services hlookup (fun oldPod newPod heq => ?_) hne
    exact hc.noticed oldPod newPod (heq ▸ hevent)

/-- Every step of the controller is one of a system that watches pods for services. -/
theorem watchStep {c c' : SliceController} {e : ControllerEvent} (hc : c.Keyed parseIP)
    (hstep : Guarded SliceController.Step (PodsNoticed parseIP) c e c') :
    Watch.Step (relevant parseIP) (watchState parseIP c) () (watchState parseIP c') := by
  obtain ⟨hstep, -⟩ := hstep
  cases hstep with
  | service key service keyed =>
    exact (Watch.Step.configure key service).of_eq
      (Watch.State.ext rfl rfl rfl (lookup_store c.services key service) rfl rfl rfl rfl rfl)
  | pod key pod keyed => exact watchStep_pod hc keyed
  | @handleService key rest head =>
    exact (Watch.Step.notifyConfigured (s := watchState parseIP c) head).of_eq
      (Watch.State.ext rfl rfl rfl rfl rfl (queued_Add c.queue key) rfl rfl rfl)
  | @handlePod event rest head =>
    have hhead : (watchState parseIP c).changes = event.change :: rest.map PodEvent.change := by
      show c.podEvents.map PodEvent.change = _
      rw [head, List.map_cons]
    have hmem : event ∈ c.podEvents := head ▸ List.mem_cons_self
    exact (Watch.Step.notify (s := watchState parseIP c) (e := event.change) hhead
      fun key hne => mem_handlePod_of_relevant hc hmem hne).of_eq
      (Watch.State.ext rfl (lookup_deliver c.delivered event) rfl rfl rfl
        (queued_AddAfter c.queue (c.handlePod event)) rfl rfl rfl)
  | handleSlice key =>
    exact (Watch.Step.mark key).of_eq (Watch.State.ext rfl rfl rfl rfl rfl
      (queued_AddAfter_singleton c.queue key) rfl rfl rfl)
  | handleNode key =>
    exact (Watch.Step.mark key).of_eq
      (Watch.State.ext rfl rfl rfl rfl rfl (queued_Add c.queue key) rfl rfl rfl)
  | due waiting =>
    exact Watch.Step.idle.of_eq
      (Watch.State.ext rfl rfl rfl rfl rfl (queued_due c.queue waiting) rfl rfl rfl)
  | @get key dirty processing =>
    have hidle : c.stages.lookup key = none := by
      by_contra hsome
      exact processing (hc.stages key hsome)
    refine (Watch.Step.start (s := watchState parseIP c) (k := key)
      (by show (c.stages.lookup key).map _ = none; rw [hidle]; rfl) fun key' hmem hne => ?_).of_eq
      (Watch.State.ext rfl rfl rfl rfl rfl rfl
        (lookup_insert_update c.stages (SyncStage.reading parseIP) key .started) rfl rfl)
    exact hmem.imp_left fun hdirty => Finset.mem_erase.2 ⟨hne, hdirty⟩
  | @getService key stage =>
    exact (Watch.Step.readConfig (reading_eq stage)).of_eq
      (Watch.State.ext rfl rfl rfl rfl rfl rfl
        (lookup_insert_update c.stages (SyncStage.reading parseIP) key _) rfl rfl)
  | @listPods key service selector stage hselector =>
    refine (Watch.Step.readObjects (reading_eq stage)).of_eq
      (Watch.State.ext rfl rfl rfl rfl rfl rfl
        ((lookup_insert_update c.stages (SyncStage.reading parseIP) key _).trans ?_) rfl rfl)
    rw [SyncStage.reading, contributed_listPods hc.pods hselector]
    rfl
  | @skip key service stage hselector =>
    refine (Watch.Step.skip (reading_eq stage) fun x x' => ?_).of_eq
      (Watch.State.ext rfl rfl rfl rfl rfl rfl
        (lookup_erase_update c.stages (SyncStage.reading parseIP) key)
        ((lastSynced_insert c key ⟨service, []⟩).trans ?_) (Set.ext fun key' => ?_))
    · rw [relevant_of_selectorOf hselector, relevant_of_selectorOf hselector]
    · congr 1
      refine Prod.ext rfl (funext fun pod => ?_)
      show relevant parseIP service _ = relevant parseIP service _
      rw [relevant_of_selectorOf hselector, relevant_of_selectorOf hselector]
    · exact Finset.mem_erase.trans and_comm
  | @finish key service pods stage =>
    exact (Watch.Step.succeed (reading_eq stage)).of_eq
      (Watch.State.ext rfl rfl rfl rfl rfl rfl
        (lookup_erase_update c.stages (SyncStage.reading parseIP) key)
        (lastSynced_insert c key ⟨some service, pods⟩)
        (Set.ext fun key' => Finset.mem_erase.trans and_comm))
  | @fail key reached stage =>
    have hreading := lookup_erase_update c.stages (SyncStage.reading parseIP) key
    have hqueued := queued_handleErr c.queue key
    cases hretries : c.queue.retries key with
    | true =>
      rw [if_pos hretries] at hqueued
      exact (Watch.Step.retry (k := key)).of_eq
        (Watch.State.ext rfl rfl rfl rfl rfl hqueued hreading rfl rfl)
    | false =>
      rw [if_neg (by rw [hretries]; exact Bool.false_ne_true)] at hqueued
      exact (Watch.Step.drop (k := key)).of_eq
        (Watch.State.ext rfl rfl rfl rfl rfl hqueued hreading rfl
          (Set.ext fun key' => Finset.mem_insert))

theorem watchState_start : Watch.Sound (relevant parseIP) (watchState parseIP .start) := by
  refine ⟨rfl, fun key _ _ => .of_none rfl fun _ => ⟨rfl, fun pod => ?_⟩⟩
  exact ⟨none, .inl rfl, rfl⟩

theorem keyed_start : SliceController.start.Keyed parseIP where
  services _ _ h := by cases h
  pods _ _ h := by cases h
  noticed _ _ h := by cases h
  stages _ h := absurd rfl h

/-! ## Settled services -/

/-- When the handlers have been told of every change, a service that is neither queued nor being
synced nor given up has been synced last with the service as it is now, and with pods that
contribute to it what the present pods do. -/
theorem no_change_lost {c : SliceController} {es : List ControllerEvent}
    (hrun : Runs (Guarded SliceController.Step (PodsNoticed parseIP)) .start es c)
    (hservices : c.serviceEvents = []) (hpods : c.podEvents = []) {key : String}
    (hdirty : key ∉ c.queue.dirty) (hwaiting : key ∉ c.queue.waiting)
    (hprocessing : key ∉ c.queue.processing) (hdropped : key ∉ c.dropped) :
    (c.lastSynced key).service = c.services.lookup key ∧
      ∀ pod, contributed parseIP (c.services.lookup key) (c.lastSynced key).pods pod =
        relevant parseIP (c.services.lookup key) (c.pods.lookup pod) := by
  have hkeyed : c.Keyed parseIP := hrun.invariant (fun h hstep => h.step hstep) keyed_start
  have hwatch := hrun.simulates (watchState parseIP) (fun _ => ())
    (fun h hstep => h.step hstep) (fun h hstep => watchStep h hstep) keyed_start
  have hidle : (watchState parseIP c).reading key = none := by
    show (c.stages.lookup key).map (SyncStage.reading parseIP) = none
    rw [Option.map_eq_none_iff]
    by_contra hstage
    exact hprocessing (hkeyed.stages key hstage)
  have hsettled := Watch.settled watchState_start hwatch
    (by show c.podEvents.map PodEvent.change = []; rw [hpods]; rfl) hservices
    (not_or.2 ⟨hdirty, hwaiting⟩) hidle hdropped
  have hservice : (c.lastSynced key).service = c.services.lookup key := congrArg Prod.fst hsettled
  refine ⟨hservice, fun pod => ?_⟩
  have hseen : contributed parseIP (c.lastSynced key).service (c.lastSynced key).pods pod =
      relevant parseIP (c.services.lookup key) (c.pods.lookup pod) :=
    congrFun (congrArg Prod.snd hsettled) pod
  rw [hservice] at hseen
  exact hseen

/-- A pod is added while its service is being synced, and its handler queues the service again.
The next sync fails and is retried. -/
def webEvents : List ControllerEvent :=
  [.service "shop/web" (some ⟨webService, false⟩), .handleService, .get "shop/web",
    .getService "shop/web", .listPods "shop/web",
    .pod ⟨"shop", "web-0"⟩ (some (webPod "1" "10.1.0.5" .true)), .handlePod,
    .finish "shop/web", .due "shop/web", .get "shop/web", .fail "shop/web", .due "shop/web",
    .get "shop/web", .getService "shop/web", .listPods "shop/web", .finish "shop/web"]

theorem webEvents_run :
    ∃ c, Runs (Guarded SliceController.Step (PodsNoticed id)) .start webEvents c ∧
      c.serviceEvents = [] ∧ c.podEvents = [] ∧ "shop/web" ∉ c.queue.dirty ∧
      "shop/web" ∉ c.queue.waiting ∧ "shop/web" ∉ c.queue.processing ∧ "shop/web" ∉ c.dropped ∧
      (c.lastSynced "shop/web").pods = [webPod "1" "10.1.0.5" .true] := by
  have hservice : ∀ s, some (⟨webService, false⟩ : CachedService) = some s →
      serviceKey s.service = "shop/web" := by
    intro s hs
    cases hs
    decide
  have hpod : ∀ p, some (webPod "1" "10.1.0.5" .true) = some p → podKey p = ⟨"shop", "web-0"⟩ := by
    intro p hp
    cases hp
    rfl
  refine ⟨_, .cons ⟨.service _ _ hservice, trivial⟩ (.cons ⟨.handleService rfl, trivial⟩
    (.cons ⟨.get (by decide) (by decide), trivial⟩ (.cons ⟨.getService rfl, trivial⟩
    (.cons ⟨.listPods rfl rfl, trivial⟩ (.cons ⟨.pod _ _ hpod, fun _ h => ?_⟩
    (.cons ⟨.handlePod rfl, trivial⟩ (.cons ⟨.finish rfl, trivial⟩
    (.cons ⟨.due (by decide), trivial⟩ (.cons ⟨.get (by decide) (by decide), trivial⟩
    (.cons ⟨.fail rfl, trivial⟩ (.cons ⟨.due (by decide), trivial⟩
    (.cons ⟨.get (by decide) (by decide), trivial⟩
    (.cons ⟨.getService rfl, trivial⟩ (.cons ⟨.listPods rfl rfl, trivial⟩
    (.single ⟨.finish rfl, trivial⟩))))))))))))))), rfl, rfl, by decide, by decide, by decide,
    by decide, rfl⟩
  cases h

theorem no_change_lost_web :
    ∃ c, Runs (Guarded SliceController.Step (PodsNoticed id)) .start webEvents c ∧
      (c.lastSynced "shop/web").pods = [webPod "1" "10.1.0.5" .true] ∧
      (c.lastSynced "shop/web").service = c.services.lookup "shop/web" ∧
      ∀ pod, contributed id (c.services.lookup "shop/web") (c.lastSynced "shop/web").pods pod =
        relevant id (c.services.lookup "shop/web") (c.pods.lookup pod) := by
  obtain ⟨c, hrun, hservices, hpods, hdirty, hwaiting, hprocessing, hdropped, hlast⟩ := webEvents_run
  exact ⟨c, hrun, hlast,
    no_change_lost hrun hservices hpods hdirty hwaiting hprocessing hdropped⟩

end Fleetboard.EndpointSlices

import Fleetboard.Model.PodEndpoints

/-!
# Pod changes that trigger a sync

The change detector compares the time of deletion, the readiness and the addresses of the
pod; the endpoint is also made of the phase, an annotation, the node, the hostname and the
ports of the containers.

* `mem_servicesToUpdate_iff`: a service that matches both versions is synced exactly when what the
  detector compares differs;
* `contribution_eq_iff`: when two versions contribute the same;
* `pod_change_triggers_iff`: when a changed contribution triggers a sync.
-/

namespace Fleetboard.EndpointSlices

variable {parseIP : String → String} {lister : ServiceLister} {old new : Pod} {svc : Service}
  {svcs : List Service}

/-! ## The detector -/

/-- What the detector compares differs. -/
def WatchedDiffer (old new : Pod) : Prop :=
  new.deletionTimestamp ≠ old.deletionTimestamp ∨ IsPodReady old ≠ IsPodReady new ∨
    old.podIPs ≠ new.podIPs

theorem any_zip_ne_iff {l l' : List String} (h : l.length = l'.length) :
    ((l.zip l').any fun ips => ips.1 ≠ ips.2) = true ↔ l ≠ l' := by
  induction l generalizing l' with
  | nil =>
    obtain rfl := List.length_eq_zero_iff.mp h.symm
    simp
  | cons a l ih =>
    cases l' with
    | nil => cases h
    | cons a' l' =>
      have hlen : l.length = l'.length := Nat.succ.inj h
      simp only [List.zip_cons_cons, List.any_cons, Bool.or_eq_true, ih hlen, decide_eq_true_iff, ne_eq,
        List.cons.injEq, not_and_or]

theorem podEndpointsChanged_fst :
    (podEndpointsChanged old new).1 = true ↔ WatchedDiffer old new := by
  unfold podEndpointsChanged WatchedDiffer
  by_cases hdel : new.deletionTimestamp ≠ old.deletionTimestamp
  · simp [hdel]
  · by_cases hready : IsPodReady old ≠ IsPodReady new
    · simp [hdel, hready]
    · by_cases hlen : old.podIPs.length ≠ new.podIPs.length
      · have hne : old.podIPs ≠ new.podIPs := fun heq => hlen (congrArg List.length heq)
        simp [hdel, hready, hlen, hne]
      · have hany := any_zip_ne_iff (not_not.mp hlen)
        by_cases hips : old.podIPs = new.podIPs
        · rw [if_neg hdel, if_neg hready, if_neg hlen, if_neg (fun h => hany.mp h hips)]
          simp [not_not.mp hdel, not_not.mp hready, hips]
        · rw [if_neg hdel, if_neg hready, if_neg hlen, if_pos (hany.mpr hips)]
          simp [hips]

/-- The service selects the pod. -/
def Selects (svc : Service) (pod : Pod) : Prop :=
  ∃ selector, svc.selector = some selector ∧ selectorMatches selector pod.labels = true

theorem mem_memberships (hlist : lister new.ns = .ok svcs) (hsvc : svc ∈ svcs)
    (h : Selects svc new) :
    (GetPodServiceMemberships lister new).2 = none ∧
      serviceKey svc ∈ (GetPodServiceMemberships lister new).1 := by
  obtain ⟨selector, hsel, hmatch⟩ := h
  simp only [GetPodServiceMemberships, hlist]
  refine ⟨trivial, List.mem_toFinset.mpr (List.mem_map_of_mem (List.mem_filter.mpr ⟨hsvc, ?_⟩))⟩
  simp only [hsel, hmatch]

/-- A service that selects both versions is synced exactly when what is compared differs. -/
theorem mem_servicesToUpdate_iff (hns : new.ns = old.ns) (hlist : lister old.ns = .ok svcs)
    (hrv : new.resourceVersion ≠ old.resourceVersion) (hsvc : svc ∈ svcs)
    (hold : Selects svc old) (hnew : Selects svc new) :
    serviceKey svc ∈ GetServicesToUpdateOnPodChange lister old new ↔ WatchedDiffer old new := by
  obtain ⟨-, hmemOld⟩ := mem_memberships hlist hsvc hold
  obtain ⟨herr, hmemNew⟩ := mem_memberships (hns ▸ hlist) hsvc hnew
  rw [← podEndpointsChanged_fst, GetServicesToUpdateOnPodChange, if_neg hrv]
  rcases hm : GetPodServiceMemberships lister new with ⟨services, err⟩
  rw [hm] at herr hmemNew
  cases herr
  rcases hch : podEndpointsChanged old new with ⟨podChanged, labelsChanged⟩
  cases podChanged with
  | true =>
    refine iff_of_true ?_ rfl
    cases labelsChanged with
    | true => exact Finset.mem_union_left _ hmemNew
    | false => exact hmemNew
  | false =>
    refine iff_of_false (fun hmem => ?_) Bool.false_ne_true
    cases labelsChanged with
    | true =>
      -- The service is in both sets, so not in their symmetric difference.
      rcases Finset.mem_union.mp hmem with hmem | hmem
      · exact (Finset.mem_sdiff.mp hmem).2 hmemOld
      · exact (Finset.mem_sdiff.mp hmem).2 hmemNew
    | false => exact absurd hmem (Finset.notMem_empty _)

/-! ## The contribution -/

/-- What the pod contributes to the slices of the service: its ports and its endpoint, the
zone of its node apart. -/
def contribution (parseIP : String → String) (svc : Service) (pod : Pod) :
    Option (List EndpointPort × Endpoint) :=
  if ShouldPodBeInEndpoints pod true then
    some (getEndpointPorts svc pod, podToEndpoint parseIP pod none svc)
  else none

/-- The pod is in no slice: it has ended, or has no address. -/
def LeftOut (pod : Pod) : Prop :=
  (pod.phase = .failed ∨ pod.phase = .succeeded) ∨ pod.podIP = "" ∧ pod.podIPs = []

theorem shouldPodBeInEndpoints_iff {pod : Pod} :
    ShouldPodBeInEndpoints pod true = true ↔ ¬ LeftOut pod := by
  unfold ShouldPodBeInEndpoints LeftOut isPodTerminal
  by_cases hphase : pod.phase = .failed ∨ pod.phase = .succeeded
  · simp [hphase]
  · by_cases hip : pod.podIP = "" ∧ pod.podIPs = []
    · simp [hip]
    · simp [hphase, hip]

/-- The hostname that is published for the service. -/
def publishedHostname (svc : Service) (pod : Pod) : Option String :=
  if ShouldSetHostname pod svc then some pod.hostname else none

/-- The two versions are both left out, or both in the slices with the same address, node,
hostname and ports. -/
def SeenAlike (parseIP : String → String) (svc : Service) (old new : Pod) : Prop :=
  LeftOut old ∧ LeftOut new ∨
    ¬ LeftOut old ∧ ¬ LeftOut new ∧
      getEndpointAddresses parseIP old = getEndpointAddresses parseIP new ∧
      old.nodeName = new.nodeName ∧ publishedHostname svc old = publishedHostname svc new ∧
      getEndpointPorts svc old = getEndpointPorts svc new

/-- The two are versions of one pod. -/
def SamePod (old new : Pod) : Prop := new.ns = old.ns ∧ new.name = old.name ∧ new.uid = old.uid

theorem podToEndpoint_eq_iff (hpod : SamePod old new) (hwatched : ¬ WatchedDiffer old new) :
    podToEndpoint parseIP old none svc = podToEndpoint parseIP new none svc ↔
      getEndpointAddresses parseIP old = getEndpointAddresses parseIP new ∧
        old.nodeName = new.nodeName ∧ publishedHostname svc old = publishedHostname svc new := by
  obtain ⟨hns, hname, huid⟩ := hpod
  simp only [WatchedDiffer, not_or, not_not] at hwatched
  obtain ⟨hdel, hready, -⟩ := hwatched
  have hnode : (if old.nodeName ≠ "" then some old.nodeName else none) =
      (if new.nodeName ≠ "" then some new.nodeName else none) ↔ old.nodeName = new.nodeName := by
    by_cases ho : old.nodeName = "" <;> by_cases hn : new.nodeName = "" <;> simp [ho, hn, eq_comm]
  simp only [podToEndpoint, Endpoint.mk.injEq, hns, hname, huid, hdel, hready, hnode, publishedHostname,
    and_true, true_and]
  constructor
  · rintro ⟨haddresses, hhost, hnode⟩
    exact ⟨haddresses, hnode, hhost⟩
  · rintro ⟨haddresses, hnode, hhost⟩
    exact ⟨haddresses, hhost, hnode⟩

theorem contribution_eq_iff (hpod : SamePod old new) (hwatched : ¬ WatchedDiffer old new) :
    contribution parseIP svc old = contribution parseIP svc new ↔ SeenAlike parseIP svc old new := by
  unfold contribution SeenAlike
  by_cases ho : LeftOut old <;> by_cases hn : LeftOut new
  · simp [shouldPodBeInEndpoints_iff, ho, hn]
  · simp [shouldPodBeInEndpoints_iff, ho, hn]
  · simp [shouldPodBeInEndpoints_iff, ho, hn]
  · simp only [shouldPodBeInEndpoints_iff.mpr ho, shouldPodBeInEndpoints_iff.mpr hn, if_true,
      Option.some.injEq, Prod.mk.injEq, podToEndpoint_eq_iff hpod hwatched, ho, hn, false_and, false_or,
      not_false_eq_true, true_and]
    rw [and_comm, and_assoc, and_assoc]

/-! ## The trigger -/

/-- For two versions of a pod and a service that selects both, a change of the contribution
puts the service into the set exactly when what the detector compares differs, or
the versions are seen alike. -/
theorem pod_change_triggers_iff (parseIP : String → String) (lister : ServiceLister)
    {old new : Pod} (hpod : SamePod old new) (hrv : new.resourceVersion ≠ old.resourceVersion)
    {svcs : List Service} (hlist : lister old.ns = .ok svcs) {svc : Service} (hsvc : svc ∈ svcs)
    (hold : Selects svc old) (hnew : Selects svc new) :
    (contribution parseIP svc old ≠ contribution parseIP svc new →
        serviceKey svc ∈ GetServicesToUpdateOnPodChange lister old new) ↔
      WatchedDiffer old new ∨ SeenAlike parseIP svc old new := by
  rw [mem_servicesToUpdate_iff hpod.1 hlist hrv hsvc hold hnew]
  by_cases hwatched : WatchedDiffer old new
  · simp [hwatched]
  · rw [← contribution_eq_iff hpod hwatched]
    simp [hwatched]

/-- A pod with a dedicated address. -/
def webPod (resourceVersion ip : String) (ready : ConditionStatus) : Pod where
  ns := "shop"
  name := "web-0"
  uid := "u-1"
  resourceVersion := resourceVersion
  labels := (∅ : GoMap String String).insert "app" "web"
  annotations := (∅ : GoMap String String).insert FleetboardParallelIP ip
  deletionTimestamp := none
  nodeName := "node-1"
  hostname := ""
  subdomain := ""
  containers := []
  phase := .running
  conditions := [⟨PodReady, ready⟩]
  podIP := "10.244.0.5"
  podIPs := ["10.244.0.5"]

def webService : Service where
  ns := "shop"
  name := "web"
  uid := "u-2"
  labels := ∅
  deletionTimestamp := none
  selector := some ((∅ : GoMap String String).insert "app" "web")
  publishNotReadyAddresses := false
  clusterIP := "None"
  ipFamilies := [.ipv4]
  ports := [⟨"http", .tcp, .int 8080, none⟩]

theorem webService_selects (resourceVersion ip : String) (ready : ConditionStatus) :
    Selects webService (webPod resourceVersion ip ready) := ⟨_, rfl, rfl⟩

/-- The pod becomes ready. -/
theorem pod_change_triggers_ready :
    contribution id webService (webPod "1" "10.1.0.5" .false) ≠
        contribution id webService (webPod "2" "10.1.0.5" .true) ∧
      serviceKey webService ∈ GetServicesToUpdateOnPodChange (fun _ => .ok [webService])
        (webPod "1" "10.1.0.5" .false) (webPod "2" "10.1.0.5" .true) := by
  have hne : contribution id webService (webPod "1" "10.1.0.5" .false) ≠
      contribution id webService (webPod "2" "10.1.0.5" .true) := by decide
  have hpod : SamePod (webPod "1" "10.1.0.5" .false) (webPod "2" "10.1.0.5" .true) := ⟨rfl, rfl, rfl⟩
  have hiff := pod_change_triggers_iff id (fun _ => .ok [webService]) hpod (by decide) rfl
    (List.mem_singleton_self _) (webService_selects _ _ _) (webService_selects _ _ _)
  exact ⟨hne, hiff.mpr (.inl (.inr (.inl (by decide)))) hne⟩

/-- The pod gets another dedicated address: its endpoint changes, and nothing is synced. -/
theorem new_address_triggers_nothing :
    SamePod (webPod "1" "10.1.0.5" .true) (webPod "2" "10.1.0.6" .true) ∧
      (webPod "2" "10.1.0.6" .true).resourceVersion ≠ (webPod "1" "10.1.0.5" .true).resourceVersion ∧
      Selects webService (webPod "1" "10.1.0.5" .true) ∧
      Selects webService (webPod "2" "10.1.0.6" .true) ∧
      contribution id webService (webPod "1" "10.1.0.5" .true) ≠
        contribution id webService (webPod "2" "10.1.0.6" .true) ∧
      GetServicesToUpdateOnPodChange (fun _ => .ok [webService]) (webPod "1" "10.1.0.5" .true)
        (webPod "2" "10.1.0.6" .true) = ∅ := by
  refine ⟨⟨rfl, rfl, rfl⟩, by decide, webService_selects _ _ _, webService_selects _ _ _, ?_, ?_⟩
  · decide
  · decide

end Fleetboard.EndpointSlices

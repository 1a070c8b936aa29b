import Fleetboard.Model.Proxier
import Fleetboard.Proof.EndpointSliceCache

/-!
# The categories of a service's endpoints

`CategorizeEndpoints` skips the merge of its two lists when two flags say that one list
contains the other, and says whether there are endpoints at all from one list or from
a scan, by the service port's policies.

* `mem_clusterEndpoints`, `clusterEndpoints_of_ready`: what the cluster's list has, with and
  without topology and with the fallback to terminating endpoints;
* `localEndpoints_subset`: without topology and terminating endpoints the local list
  is part of the cluster's;
* `CategorizeEndpoints_consistent`: the categories agree for every service port.
-/

namespace Fleetboard.Ipvs

open Fleetboard.Proxy

/-! ## The lists -/

def servingTerminating (ep : BaseEndpointInfo) : Bool := ep.serving && ep.terminating

/-- The ready endpoints, those of the zone only when topology is used. -/
def readyEndpoints (useTopology : Bool) (endpoints : List BaseEndpointInfo)
    (nodeLabels : GoMap String String) : List BaseEndpointInfo :=
  endpoints.filter fun ep => ep.ready && (!useTopology || availableForTopology ep nodeLabels)

/-- The cluster's list, for a service port that uses it. -/
def clusterEndpoints (useTopology : Bool) (endpoints : List BaseEndpointInfo)
    (nodeLabels : GoMap String String) : List BaseEndpointInfo :=
  if readyEndpoints useTopology endpoints nodeLabels = [] then endpoints.filter servingTerminating
  else readyEndpoints useTopology endpoints nodeLabels

def localReady (endpoints : List BaseEndpointInfo) : List BaseEndpointInfo :=
  endpoints.filter fun ep => ep.isLocal && ep.ready

/-- The local list falls back to terminating endpoints. -/
def useServingTerminating (endpoints : List BaseEndpointInfo) : Bool :=
  localReady endpoints = [] ∧
    endpoints.any fun ep => !ep.ready && (ep.isLocal && servingTerminating ep)

/-- The local list, for a service port that uses it. -/
def localEndpoints (endpoints : List BaseEndpointInfo) : List BaseEndpointInfo :=
  if localReady endpoints ≠ [] then localReady endpoints
  else if useServingTerminating endpoints then
    endpoints.filter fun ep => ep.isLocal && servingTerminating ep
  else []

/-- An endpoint that takes traffic. -/
def Usable (ep : BaseEndpointInfo) : Prop :=
  ep.ready = true ∨ ep.serving = true ∧ ep.terminating = true

variable {cfg : Config} {endpoints : List BaseEndpointInfo} {svcInfo : ServicePort}
  {nodeLabels : GoMap String String} {useTopology : Bool}

theorem usable_of_servingTerminating {ep : BaseEndpointInfo} (h : servingTerminating ep = true) :
    Usable ep := .inr (Bool.and_eq_true_iff.mp h)

/-! ## The cluster's list -/

/-- Topology is used only if a ready endpoint is available on this node. -/
theorem canUseTopology_ready (h : canUseTopology cfg endpoints svcInfo nodeLabels = true) :
    ∃ ep ∈ endpoints, ep.ready = true ∧ availableForTopology ep nodeLabels = true := by
  unfold canUseTopology at h
  split at h
  · cases h
  · split at h
    · cases h
    · dsimp only at h
      split at h
      · cases h
      · obtain ⟨-, hany⟩ := Bool.and_eq_true_iff.mp h
        obtain ⟨ep, hmem, hzone⟩ := List.any_eq_true.mp hany
        obtain ⟨hep, hready⟩ := List.mem_filter.mp hmem
        exact ⟨ep, hep, hready, hzone⟩

/-- If there is a ready endpoint, then one is left by the filter. -/
theorem readyEndpoints_ne_nil
    (htopology : useTopology = true → canUseTopology cfg endpoints svcInfo nodeLabels = true)
    (hready : ∃ ep ∈ endpoints, ep.ready = true) :
    readyEndpoints useTopology endpoints nodeLabels ≠ [] := by
  cases useTopology with
  | false =>
    obtain ⟨ep, hep, hready⟩ := hready
    exact List.ne_nil_of_mem (List.mem_filter.mpr ⟨hep, by rw [hready]; rfl⟩)
  | true =>
    obtain ⟨ep, hep, hready, hzone⟩ := canUseTopology_ready (htopology rfl)
    exact List.ne_nil_of_mem (List.mem_filter.mpr ⟨hep, by rw [hready, hzone]; rfl⟩)

theorem ready_of_mem_readyEndpoints {ep : BaseEndpointInfo}
    (h : ep ∈ readyEndpoints useTopology endpoints nodeLabels) : ep ∈ endpoints ∧ ep.ready = true :=
  ⟨(List.mem_filter.mp h).1, (Bool.and_eq_true_iff.mp (List.mem_filter.mp h).2).1⟩

theorem mem_clusterEndpoints {ep : BaseEndpointInfo}
    (h : ep ∈ clusterEndpoints useTopology endpoints nodeLabels) : ep ∈ endpoints ∧ Usable ep := by
  unfold clusterEndpoints at h
  split at h
  · obtain ⟨hep, hterm⟩ := List.mem_filter.mp h
    exact ⟨hep, usable_of_servingTerminating hterm⟩
  · obtain ⟨hep, hready⟩ := ready_of_mem_readyEndpoints h
    exact ⟨hep, .inl hready⟩

/-- With a ready endpoint, the list has ready endpoints only, and one of them. -/
theorem clusterEndpoints_of_ready
    (htopology : useTopology = true → canUseTopology cfg endpoints svcInfo nodeLabels = true)
    (hready : ∃ ep ∈ endpoints, ep.ready = true) :
    clusterEndpoints useTopology endpoints nodeLabels ≠ [] ∧
      ∀ ep ∈ clusterEndpoints useTopology endpoints nodeLabels, ep.ready = true := by
  have hne := readyEndpoints_ne_nil htopology hready
  rw [clusterEndpoints, if_neg hne]
  exact ⟨hne, fun ep hep => (ready_of_mem_readyEndpoints hep).2⟩

/-- The list is empty only if no endpoint takes traffic. -/
theorem clusterEndpoints_ne_nil_iff
    (htopology : useTopology = true → canUseTopology cfg endpoints svcInfo nodeLabels = true) :
    clusterEndpoints useTopology endpoints nodeLabels ≠ [] ↔ ∃ ep ∈ endpoints, Usable ep := by
  constructor
  · intro hne
    obtain ⟨ep, hep⟩ := List.exists_mem_of_ne_nil _ hne
    exact ⟨ep, mem_clusterEndpoints hep⟩
  · rintro ⟨ep, hep, hready | ⟨hserving, hterminating⟩⟩
    · exact (clusterEndpoints_of_ready htopology ⟨ep, hep, hready⟩).1
    · unfold clusterEndpoints
      split
      · refine List.ne_nil_of_mem (List.mem_filter.mpr ⟨hep, ?_⟩)
        rw [servingTerminating, hserving, hterminating]
        rfl
      · assumption

/-! ## The local list -/

/-- Without topology the cluster's list has every ready endpoint, and so the local ones,
unless the local list falls back. -/
theorem localEndpoints_subset (hterm : useServingTerminating endpoints = false) :
    localEndpoints endpoints ⊆ clusterEndpoints false endpoints nodeLabels := by
  intro ep hep
  unfold localEndpoints at hep
  rw [hterm] at hep
  split at hep
  · obtain ⟨hmem, hlocal⟩ := List.mem_filter.mp hep
    have hready := (Bool.and_eq_true_iff.mp hlocal).2
    have hin : ep ∈ readyEndpoints false endpoints nodeLabels :=
      List.mem_filter.mpr ⟨hmem, by rw [hready]; rfl⟩
    rw [clusterEndpoints, if_neg (List.ne_nil_of_mem hin)]
    exact hin
  · cases hep

/-! ## The merged list -/

def mergeEndpoints (m : GoMap String BaseEndpointInfo) (l : List BaseEndpointInfo) :
    GoMap String BaseEndpointInfo :=
  l.foldl (fun m ep => m.insert ep.endpoint ep) m

/-- A loop that stores endpoints under their texts adds their texts. -/
theorem mergeEndpoints_lookup {m : GoMap String BaseEndpointInfo} (hm : KeyedByText m)
    (l : List BaseEndpointInfo) :
    KeyedByText (mergeEndpoints m l) ∧ ∀ s, (mergeEndpoints m l).lookup s ≠ none ↔
      m.lookup s ≠ none ∨ s ∈ l.map (·.endpoint) := by
  induction l generalizing m with
  | nil => exact ⟨hm, fun s => by simp [mergeEndpoints]⟩
  | cons ep l ih =>
    obtain ⟨hkeyed, hlookup⟩ := ih (hm.insert ep)
    refine ⟨hkeyed, fun s => (hlookup s).trans ?_⟩
    rw [GoMap.lookup_insert_eq, List.map_cons, List.mem_cons]
    by_cases hs : s = ep.endpoint
    · simp [hs]
    · simp [hs]

/-- The texts of a merged list. -/
theorem mem_values_mergeEndpoints (l : List BaseEndpointInfo) (s : String) :
    s ∈ (GoMap.values (mergeEndpoints ∅ l)).map (·.endpoint) ↔ s ∈ l.map (·.endpoint) := by
  have hempty : KeyedByText ∅ := by
    intro k ep h
    rw [AList.lookup_empty] at h
    cases h
  obtain ⟨hkeyed, hlookup⟩ := mergeEndpoints_lookup hempty l
  rw [hkeyed.mem_texts_iff, hlookup, AList.lookup_empty]
  simp

/-! ## The categories -/

section

variable (cfg endpoints nodeLabels)

theorem CategorizeEndpoints_of_cluster (hcluster : svcInfo.usesClusterEndpoints = true)
    (hlocal : svcInfo.usesLocalEndpoints = false) :
    let cluster := clusterEndpoints (canUseTopology cfg endpoints svcInfo nodeLabels) endpoints
      nodeLabels
    CategorizeEndpoints cfg endpoints svcInfo nodeLabels =
      ⟨cluster, [], cluster, cluster ≠ []⟩ := by
  unfold CategorizeEndpoints
  rw [hcluster, hlocal]
  rfl

theorem CategorizeEndpoints_of_local (hcluster : svcInfo.usesClusterEndpoints = false)
    (hlocal : svcInfo.usesLocalEndpoints = true) :
    CategorizeEndpoints cfg endpoints svcInfo nodeLabels =
      ⟨[], localEndpoints endpoints, localEndpoints endpoints,
        endpoints.any fun ep => ep.ready || servingTerminating ep⟩ := by
  unfold CategorizeEndpoints
  rw [hcluster, hlocal]
  simp only [Bool.false_eq_true, if_false, ne_eq, not_true_eq_false, false_or,
    Bool.decide_eq_true]
  rfl

theorem CategorizeEndpoints_of_both (hcluster : svcInfo.usesClusterEndpoints = true)
    (hlocal : svcInfo.usesLocalEndpoints = true) :
    let useTopology := canUseTopology cfg endpoints svcInfo nodeLabels
    let cluster := clusterEndpoints useTopology endpoints nodeLabels
    CategorizeEndpoints cfg endpoints svcInfo nodeLabels =
      ⟨cluster, localEndpoints endpoints,
        if ¬ useTopology ∧ ¬ useServingTerminating endpoints then cluster
        else GoMap.values (mergeEndpoints ∅ (cluster ++ localEndpoints endpoints)),
        cluster ≠ [] ∨ endpoints.any fun ep => ep.ready || servingTerminating ep⟩ := by
  intro useTopology cluster
  unfold CategorizeEndpoints
  rw [hcluster, hlocal]
  by_cases hflags : ¬ useTopology ∧ ¬ useServingTerminating endpoints
  · rw [if_pos hflags]
    exact if_pos hflags
  · rw [if_neg hflags]
    exact if_neg hflags

end

/-- The scan of a service port that uses local endpoints. -/
theorem any_usable_iff :
    (endpoints.any fun ep => ep.ready || servingTerminating ep) = true ↔
      ∃ ep ∈ endpoints, ep.ready = true ∨ ep.serving = true ∧ ep.terminating = true := by
  simp [servingTerminating]

/-- Every service port uses one of the lists. -/
theorem BaseServicePortInfo.usesLocal_of_not_usesCluster {info : BaseServicePortInfo}
    (h : info.UsesClusterEndpoints = false) : info.UsesLocalEndpoints = true := by
  obtain ⟨hinternal, -⟩ := Bool.or_eq_false_iff.mp h
  have hinternal : info.internalPolicyLocal = true := by simpa using hinternal
  rw [UsesLocalEndpoints, hinternal]
  rfl

/-- Whatever the endpoints, the policies and the node's labels: the reachable endpoints are
those of the two lists, `hasAnyEndpoints` says whether an endpoint takes traffic, and the
cluster's list falls back to terminating endpoints only without ready ones. -/
theorem CategorizeEndpoints_consistent (cfg : Config) (endpoints : List BaseEndpointInfo)
    (info : BaseServicePortInfo) (nodeLabels : GoMap String String) :
    let c := CategorizeEndpoints cfg endpoints info.servicePort nodeLabels
    (∀ s, s ∈ c.allReachableEndpoints.map (·.endpoint) ↔
      s ∈ c.clusterEndpoints.map (·.endpoint) ∨ s ∈ c.localEndpoints.map (·.endpoint)) ∧
    (c.hasAnyEndpoints = true ↔
      ∃ ep ∈ endpoints, ep.ready = true ∨ ep.serving = true ∧ ep.terminating = true) ∧
    ((∃ ep ∈ endpoints, ep.ready = true) → info.UsesClusterEndpoints = true →
      c.clusterEndpoints ≠ [] ∧ ∀ ep ∈ c.clusterEndpoints, ep.ready = true) := by
  cases hcluster : info.UsesClusterEndpoints with
  | false =>
    have hlocal := info.usesLocal_of_not_usesCluster hcluster
    rw [CategorizeEndpoints_of_local cfg endpoints nodeLabels hcluster hlocal]
    refine ⟨fun s => by simp, any_usable_iff, ?_⟩
    intro _ h
    cases h
  | true =>
    have htopology : canUseTopology cfg endpoints info.servicePort nodeLabels = true →
        canUseTopology cfg endpoints info.servicePort nodeLabels = true := id
    have hany := clusterEndpoints_ne_nil_iff htopology
    cases hlocal : info.UsesLocalEndpoints with
    | false =>
      rw [CategorizeEndpoints_of_cluster cfg endpoints nodeLabels hcluster hlocal]
      exact ⟨fun s => by simp, decide_eq_true_iff.trans hany,
        fun hready _ => clusterEndpoints_of_ready htopology hready⟩
    | true =>
      rw [CategorizeEndpoints_of_both cfg endpoints nodeLabels hcluster hlocal]
      refine ⟨fun s => ?_, ?_, fun hready _ => clusterEndpoints_of_ready htopology hready⟩
      · dsimp only
        split
        · rename_i hflags
          obtain ⟨htop, hterm⟩ := hflags
          rw [Bool.not_eq_true] at htop hterm
          rw [htop]
          exact ⟨.inl, fun h => h.elim id fun h => List.map_subset _ (localEndpoints_subset hterm) h⟩
        · rw [mem_values_mergeEndpoints, List.map_append, List.mem_append]
      · rw [decide_eq_true_iff, hany, any_usable_iff]
        exact or_self_iff

end Fleetboard.Ipvs

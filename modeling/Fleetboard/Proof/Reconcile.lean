import Fleetboard.Model.IP
import Fleetboard.Proof.Finalize
import Fleetboard.Proof.PodChange

/-!
# Reconciliation of a service

* `reconcileByAddressType_leaves`: the slices that a reconciliation leaves in the store are
  settled, if all calls succeed;
* `reconcileByAddressType_settled`: a reconciliation of settled slices makes no call;
* `reconcileByAddressType_represents`: what is settled represents the pods;
* `Reconcile_idempotent`: a second reconciliation of all address types makes no call.
-/

namespace Fleetboard.EndpointSlices

namespace Reconciler

variable {r : Reconciler} {service : Service} {addressType : AddressType} {pods : List Pod}
  {desired : GoMap String (Desired r.hasher)} {existing other slices : List EndpointSlice}
  {s : EndpointSlice} {api : Api} {server : ApiServer} {triggerTime : Option String}
  {o : TypeOrders r.hasher}

/-- Slices as a server stores them: they have names, and no two have the same. -/
structure Stored (slices : List EndpointSlice) : Prop where
  nodup : (slices.map (·.name)).Nodup
  named : ∀ s ∈ slices, s.name ≠ ""

theorem stored_of_perm (hstore : server.slices.Perm (existing ++ other)) : Stored existing where
  nodup := by
    have hstored := (hstore.map (·.name)).nodup_iff.mp server.nodup
    rw [List.map_append] at hstored
    exact (List.nodup_append.mp hstored).1
  named s hs := server.named s (hstore.mem_iff.mpr (List.mem_append_left _ hs))

/-! ## The existing slices after their hashes have been taken -/

theorem name_sortInPlace : (r.sortInPlace service desired s).name = s.name := by
  unfold sortInPlace
  split_ifs <;> rfl

theorem addressType_sortInPlace :
    (r.sortInPlace service desired s).addressType = s.addressType := by
  unfold sortInPlace
  split_ifs <;> rfl

theorem blank_sortAddresses (endpoint : Endpoint) : blank (sortAddresses endpoint) = blank endpoint := by
  simp only [blank, sortAddresses, sortStrings_sortStrings]

theorem view_sortInPlace : r.view (r.sortInPlace service desired s) = r.view s := by
  have hports : r.hasher.sortPorts (r.hasher.sortPorts s.ports) = r.hasher.sortPorts s.ports :=
    sortPorts_sortPorts s.ports
  have hblank : (s.endpoints.map sortAddresses).map blank = s.endpoints.map blank := by
    rw [List.map_map]
    exact List.map_congr_left fun endpoint _ => blank_sortAddresses endpoint
  unfold sortInPlace
  split_ifs
  · simp only [view, hports, hblank]
  · simp only [view, hports]
  · rfl

theorem hints_sortInPlace :
    (r.sortInPlace service desired s).endpoints.map (·.hints) = s.endpoints.map (·.hints) := by
  unfold sortInPlace
  split_ifs
  · simp only [List.map_map]
    rfl
  · rfl
  · rfl

theorem noHints_iff :
    NoHints slices ↔ ∀ s ∈ slices, ∀ hints ∈ s.endpoints.map (·.hints), hints = none := by
  refine forall₂_congr fun s _ => ?_
  rw [List.forall_mem_map]

theorem noHints_sortInPlace :
    NoHints (slices.map (r.sortInPlace service desired)) ↔ NoHints slices := by
  rw [noHints_iff, noHints_iff, List.forall_mem_map]
  refine forall₂_congr fun s _ => ?_
  rw [hints_sortInPlace]

theorem map_view_sortInPlace :
    (slices.map (r.sortInPlace service desired)).map r.view = slices.map r.view := by
  rw [List.map_map]
  exact List.map_congr_left fun s _ => view_sortInPlace

theorem map_name_sortInPlace :
    (slices.map (r.sortInPlace service desired)).map (·.name) = slices.map (·.name) := by
  rw [List.map_map]
  exact List.map_congr_left fun s _ => name_sortInPlace

theorem map_view_perm {left : List EndpointSlice}
    (h : (left.map anonymous).Perm (slices.map anonymous)) :
    (left.map r.view).Perm (slices.map r.view) := by
  have hview := h.map r.view
  rw [List.map_map, List.map_map] at hview
  exact hview

theorem NoHints.of_anonymous {left : List EndpointSlice} (hhints : NoHints slices)
    (h : (left.map anonymous).Perm (slices.map anonymous)) : NoHints left := by
  intro s hs
  obtain ⟨t, ht, heq⟩ := List.mem_map.mp (h.mem_iff.mp (List.mem_map_of_mem hs))
  have hendpoints : (anonymous t).endpoints = (anonymous s).endpoints := by rw [heq]
  rw [show s.endpoints = t.endpoints from hendpoints.symm]
  exact hhints t ht

/-! ## One address type -/

/-- The changes of one address type, as they are given to `finalize`. -/
def changesOf (r : Reconciler) (service : Service) (addressType : AddressType)
    (o : TypeOrders r.hasher) (existing : List EndpointSlice)
    (desired : GoMap String (Desired r.hasher)) : Changes :=
  RemoveHintsFromSlices
    (r.withPlaceholder service addressType existing.length
      (r.changesByPortMap service o existing desired))
    (unchangedSlices existing
      (r.withPlaceholder service addressType existing.length
        (r.changesByPortMap service o existing desired)).toUpdate
      (r.withPlaceholder service addressType existing.length
        (r.changesByPortMap service o existing desired)).toDelete)

theorem reconcileByAddressType_eq
    (hdesired : pods.foldlM (r.addPod service addressType) (∅, []) = .ok (desired, [])) :
    r.reconcileByAddressType api o service pods existing triggerTime addressType server =
      ((finalize api service (r.changesOf service addressType o
          (existing.map (r.sortInPlace service desired)) desired) triggerTime server).1,
        (finalize api service (r.changesOf service addressType o
          (existing.map (r.sortInPlace service desired)) desired) triggerTime server).2.toList) := by
  unfold reconcileByAddressType
  rw [hdesired]
  rfl

/-- The changes split the existing slices, and leave settled ones without hints. -/
theorem changesOf_settled (service : Service) (o : TypeOrders r.hasher)
    (hg : Grouped r addressType desired) (hnames : (existing.map (·.name)).Nodup)
    (hnamed : ∀ s ∈ existing, s.name ≠ "") (htype : ∀ s ∈ existing, s.addressType = addressType) :
    ∃ kept, Split existing (r.changesOf service addressType o existing desired) kept ∧
      Settled r service addressType desired
        (kept ++ (r.changesOf service addressType o existing desired).toUpdate ++
          (r.changesOf service addressType o existing desired).toCreate) ∧
      NoHints (kept ++ (r.changesOf service addressType o existing desired).toUpdate ++
        (r.changesOf service addressType o existing desired).toCreate) := by
  obtain ⟨kept₁, hdivided⟩ := changesByPortMap_divided hg hnames hnamed o
  obtain ⟨kept₂, hsplit, hsettled⟩ := withPlaceholder_settled hdivided htype
  exact removeHints_settled hsplit hsettled (hsplit.unchangedSlices_perm hnames)

theorem reconcileByAddressType_leaves (hok : ∀ n, api.outcome n = none)
    (hdeletion : service.deletionTimestamp = none)
    (hdesired : pods.foldlM (r.addPod service addressType) (∅, []) = .ok (desired, []))
    (hg : Grouped r addressType desired)
    (hstore : server.slices.Perm (existing ++ other))
    (htype : ∀ s ∈ existing, s.addressType = addressType) :
    (r.reconcileByAddressType api o service pods existing triggerTime addressType server).2 = [] ∧
      ∃ left made,
        (r.reconcileByAddressType api o service pods existing triggerTime addressType
          server).1.slices.Perm (left ++ other) ∧
        Settled r service addressType desired left ∧ NoHints left ∧
        (r.reconcileByAddressType api o service pods existing triggerTime addressType
          server).1.calls = server.calls ++ made ∧
        ∀ slice, .update slice ∈ made → .delete slice.name ∉ made := by
  obtain ⟨hnames, hnamed⟩ := stored_of_perm hstore
  rw [reconcileByAddressType_eq hdesired]
  have hnames' : ((existing.map (r.sortInPlace service desired)).map (·.name)).Nodup := by
    rwa [map_name_sortInPlace]
  obtain ⟨kept, hsplit, hsettled, hhints⟩ := changesOf_settled service o hg hnames'
    (List.forall_mem_map.mpr fun s hs => by rw [name_sortInPlace]; exact hnamed s hs)
    (List.forall_mem_map.mpr fun s hs => by rw [addressType_sortInPlace]; exact htype s hs)
  generalize r.changesOf service addressType o (existing.map (r.sortInPlace service desired))
    desired = changes at hsplit hsettled hhints ⊢
  -- The stored versions of the slices that are kept, and of the others.
  have hsplitNames := hsplit.names
  rw [map_name_sortInPlace, List.append_assoc, List.map_append] at hsplitNames
  obtain ⟨existing', hperm, hmap⟩ := exists_perm_map_eq hsplitNames.symm
  obtain ⟨k, olds, rfl, hk, holds⟩ := List.map_eq_append_iff.mp hmap
  have hkept : k.map (r.sortInPlace service desired) = kept := by
    refine eq_of_map_eq_map hnames' (fun x hx => ?_)
      (fun y hy => hsplit.untouched y (List.mem_append_left _ hy)) ?_
    · exact List.map_subset _ (fun y hy => hperm.mem_iff.mp (List.mem_append_left _ hy)) hx
    · rw [map_name_sortInPlace, hk]
  have hstore' : server.slices.Perm (olds ++ (k ++ other)) := by
    refine hstore.trans ((hperm.symm.append_right other).trans ?_)
    rw [List.append_assoc]
    exact List.perm_append_comm_assoc _ _ _
  obtain ⟨herr, left, made, hslices, hleft, hcalls, hboth⟩ :=
    finalize_ok hok hdeletion hstore' (.of_eq holds)
  refine ⟨by rw [herr]; rfl, k ++ left, made, ?_, hsettled.of_view ?_, ?_, hcalls, hboth⟩
  · refine hslices.trans ?_
    rw [List.append_assoc]
    exact List.perm_append_comm_assoc _ _ _
  · have hviews := map_view_perm (r := r) hleft
    rw [List.map_append] at hviews
    rw [List.append_assoc, ← hkept]
    simp only [List.map_append, map_view_sortInPlace]
    exact hviews.symm.append_left _
  · rw [List.append_assoc, ← hkept] at hhints
    obtain ⟨hk, hrest⟩ := List.forall_mem_append.mp hhints
    exact List.forall_mem_append.mpr ⟨noHints_sortInPlace.mp hk, NoHints.of_anonymous hrest hleft⟩

/-- Settled slices without hints need no call. -/
theorem reconcileByAddressType_settled
    (hdesired : pods.foldlM (r.addPod service addressType) (∅, []) = .ok (desired, []))
    (hsettled : Settled r service addressType desired existing) (hhints : NoHints existing) :
    r.reconcileByAddressType api o service pods existing triggerTime addressType server =
      (server, []) := by
  have hsettled' : Settled r service addressType desired
      (existing.map (r.sortInPlace service desired)) :=
    hsettled.of_view (.of_eq map_view_sortInPlace.symm)
  have hchanges : r.changesOf service addressType o (existing.map (r.sortInPlace service desired))
      desired = ⟨[], [], []⟩ := by
    have hnone : ((existing.map (r.sortInPlace service desired)).filter fun slice =>
        slice.endpoints.any (·.hints.isSome)) = [] := by
      refine List.filter_eq_nil_iff.mpr fun s hs => ?_
      rw [List.any_eq_true]
      rintro ⟨endpoint, hendpoint, hsome⟩
      rw [noHints_sortInPlace.mpr hhints s hs endpoint hendpoint] at hsome
      cases hsome
    have hunchanged : unchangedSlices (existing.map (r.sortInPlace service desired)) [] [] =
        existing.map (r.sortInPlace service desired) :=
      List.filter_eq_self.mpr fun s _ => decide_eq_true ⟨List.not_mem_nil, List.not_mem_nil⟩
    rw [changesOf, changesByPortMap_settled hsettled' o, hunchanged, RemoveHintsFromSlices, hnone]
    rfl
  rw [reconcileByAddressType_eq hdesired, hchanges, finalize_nil]
  rfl

/-! ## What the slices represent -/

/-- The endpoints of the eligible pods with some ports, and at least one address. -/
def desiredEndpoints (r : Reconciler) (service : Service) (pods : List Pod)
    (ports : Option (List EndpointPort)) : List Endpoint :=
  ((pods.filter fun pod => ShouldPodBeInEndpoints pod true ∧
    SamePorts (some (getEndpointPorts service pod)) ports).map (r.endpointOf service)).filter
    fun endpoint => endpoint.addresses.length > 0

/-- The endpoints have one hash, and are equal beyond it. -/
def SameEndpoint (h : Hasher) (d e : Endpoint) : Prop :=
  h.hashEndpoint d = h.hashEndpoint e ∧ EndpointsEqualBeyondHash d e = true

/-- For each group of ports, the slices have the endpoints of the pods, each once. -/
def Represents (r : Reconciler) (service : Service) (pods : List Pod)
    (slices : List EndpointSlice) : Prop :=
  ∀ ports, ∃ endpoints,
    endpoints.Perm ((slices.filter fun s => SamePorts s.ports ports).flatMap (·.endpoints)) ∧
    List.Forall₂ (SameEndpoint r.hasher) (r.desiredEndpoints service pods ports) endpoints

theorem desiredEndpoints_eq [r.hasher.Perfect] (ports : Option (List EndpointPort)) :
    r.desiredEndpoints service pods ports =
      r.endpointsOf service pods (r.hasher.NewPortMapKey ports) := by
  unfold desiredEndpoints endpointsOf
  simp only [newPortMapKey_eq_iff]

theorem filter_samePorts [r.hasher.Perfect] (slices : List EndpointSlice)
    (ports : Option (List EndpointPort)) :
    (slices.filter fun s => SamePorts s.ports ports) =
      slices.filter (r.keyOf · = r.hasher.NewPortMapKey ports) := by
  simp only [newPortMapKey_eq_iff]

/-- A group without pods has no endpoints. -/
theorem Settled.flatMap_eq_nil (h : Settled r service addressType desired slices) {key : String}
    (hkey : desired.lookup key = none) :
    (slices.filter (r.keyOf · = key)).flatMap (·.endpoints) = [] := by
  refine List.flatMap_eq_nil_iff.mpr fun s hs => ?_
  obtain ⟨hs, hkeyOf⟩ := List.mem_filter.mp hs
  rcases h.form with hall | ⟨t, rfl, hcompare, -⟩
  · have hsome := (hall s hs).1.2
    rw [of_decide_eq_true hkeyOf, hkey] at hsome
    cases hsome
  · rw [List.mem_singleton.mp hs]
    exact (placeholderSliceCompare_iff.mp hcompare).2.2.2.2.1

theorem Settled.represents [r.hasher.Perfect]
    (h : Settled r service addressType desired slices)
    (hg : Gathered r service addressType pods desired) : Represents r service pods slices := by
  intro ports
  rw [filter_samePorts (r := r), desiredEndpoints_eq]
  generalize r.hasher.NewPortMapKey ports = key
  cases hd : desired.lookup key with
  | none =>
    rw [h.flatMap_eq_nil hd, hg.endpointsOf_eq_nil hd]
    exact ⟨[], .refl _, .nil⟩
  | some d =>
    have hgroup := hg.group hd
    obtain ⟨endpoints, hperm, hsame⟩ := (h.complete key d hd).exists_forall₂ hgroup.keys.symm
    refine ⟨endpoints, hperm, ?_⟩
    have hboth := (List.forall₂_and_left _ _).mpr ⟨hgroup.found, hsame⟩
    refine hboth.imp ?_
    rintro endpoint e ⟨hfound, hhash, d', hd', hequal⟩
    rw [hfound, Option.some_inj] at hd'
    subst hd'
    exact ⟨hhash, hequal⟩

/-- What is desired, when the nodes of all pods exist. -/
theorem exists_gathered [r.hasher.Perfect] (service : Service) (addressType : AddressType)
    (hpods : (pods.map fun pod => (pod.ns, pod.name)).Nodup)
    (hnodes : ∀ pod ∈ pods, ∃ node, r.nodeLister pod.nodeName = .ok node) :
    ∃ desired, pods.foldlM (r.addPod service addressType) (∅, []) = .ok (desired, []) ∧
      Gathered r service addressType pods desired := by
  have hstart : Gathered r service addressType [] ∅ := .start
  exact hstart.foldlM hnodes hpods []

/-- The slices of an address type that a reconciliation leaves in the store represent the pods. -/
theorem reconcileByAddressType_represents [r.hasher.Perfect]
    (hok : ∀ n, api.outcome n = none)
    (hdeletion : service.deletionTimestamp = none)
    (hpods : (pods.map fun pod => (pod.ns, pod.name)).Nodup)
    (hnodes : ∀ pod ∈ pods, ∃ node, r.nodeLister pod.nodeName = .ok node)
    (hstore : server.slices.Perm (existing ++ other))
    (htype : ∀ s ∈ existing, s.addressType = addressType) :
    (r.reconcileByAddressType api o service pods existing triggerTime addressType server).2 = [] ∧
      ∃ left made,
        (r.reconcileByAddressType api o service pods existing triggerTime addressType
          server).1.slices.Perm (left ++ other) ∧
        Represents r service pods left ∧ left ≠ [] ∧ (∀ s ∈ left, s.addressType = addressType) ∧
        (r.reconcileByAddressType api o service pods existing triggerTime addressType
          server).1.calls = server.calls ++ made ∧
        ∀ slice, .update slice ∈ made → .delete slice.name ∉ made := by
  obtain ⟨desired, hdesired, hg⟩ := exists_gathered service addressType hpods hnodes
  obtain ⟨herrs, left, made, hslices, hsettled, -, hcalls, hboth⟩ :=
    reconcileByAddressType_leaves hok hdeletion hdesired hg.grouped hstore htype
  exact ⟨herrs, left, made, hslices, hsettled.represents hg, hsettled.nonempty, hsettled.ofType,
    hcalls, hboth⟩

/-- A reconciler of the pods of `webService`. -/
noncomputable def webReconciler : Reconciler where
  hasher := someHasher
  parseIP s := Net.IP.string (Net.ParseIP s)
  isIPv6String _ := false
  nameIsDNSSubdomain _ := true
  nodeLister _ := .ok ⟨∅⟩
  maxEndpointsPerSlice := 100
  maxEndpointsPerSlice_pos := by decide
  managedByName := "endpointslice-controller.fleetboard.io"

instance perfect_webReconciler : webReconciler.hasher.Perfect := perfect_someHasher

/-- A server on which all calls succeed, with new names that are longer than the others. -/
def quietApi : Api where
  outcome _ := none
  generate _ names := String.ofList (List.replicate ((names.map String.length).sum + 1) 'x')
  fresh _ names hmem := by
    have hle := List.le_sum_of_mem (List.mem_map_of_mem (f := String.length) hmem)
    rw [String.length_ofList, List.length_replicate] at hle
    omega
  named _ names heq := by
    have hlength := congrArg String.length heq
    rw [String.length_ofList, List.length_replicate] at hlength
    exact Nat.succ_ne_zero _ hlength

/-- A slice of `webService` with an endpoint that is gone. -/
def staleSlice : EndpointSlice where
  ns := "shop"
  name := "web-abcde"
  generateName := "web-"
  labels := ∅
  annotations := ∅
  ownerReferences := [⟨"v1", "Service", "u-2"⟩]
  addressType := .ipv4
  endpoints := [⟨["10.20.0.4"], some true, some true, some false, none, none, none, none, none⟩]
  ports := some []

/-- The slices of two services. -/
def webServer : ApiServer where
  slices := [staleSlice, { staleSlice with name := "db-abcde", ownerReferences := [] }]
  calls := []
  nodup := by decide
  named := by decide

/-- The loops visit their elements in the order in which they are stored. -/
def storedOrders (h : Hasher) : TypeOrders h where
  desired := .stored
  existing := .stored
  group _ :=
    { toUpdate := .stored
      byLen := .insertion _
      pop := .stored
      unchanged := fun _ => .stored
      updated := .stored
      deleted := .stored }

theorem webPod_represented :
    (webReconciler.reconcileByAddressType quietApi (storedOrders _) webService
      [webPod "1" "10.20.0.5" .true] [staleSlice] none .ipv4 webServer).2 = [] ∧
      ∃ left made,
        (webReconciler.reconcileByAddressType quietApi (storedOrders _) webService
          [webPod "1" "10.20.0.5" .true] [staleSlice] none .ipv4 webServer).1.slices.Perm
          (left ++ [{ staleSlice with name := "db-abcde", ownerReferences := [] }]) ∧
        Represents webReconciler webService [webPod "1" "10.20.0.5" .true] left ∧ left ≠ [] ∧
        (∀ s ∈ left, s.addressType = .ipv4) ∧
        (webReconciler.reconcileByAddressType quietApi (storedOrders _) webService
          [webPod "1" "10.20.0.5" .true] [staleSlice] none .ipv4 webServer).1.calls = [] ++ made ∧
        ∀ slice, .update slice ∈ made → .delete slice.name ∉ made :=
  reconcileByAddressType_represents (fun _ => rfl) rfl (List.nodup_singleton _)
    (fun _ _ => ⟨⟨∅⟩, rfl⟩) (.refl _) (List.forall_mem_singleton.mpr rfl)

/-! ## All address types -/

theorem getAddressTypesForService_nodup (service : Service) :
    (r.getAddressTypesForService service).Nodup := by
  unfold getAddressTypesForService
  simp only
  split_ifs
  · refine List.foldlRecOn (motive := List.Nodup) service.ipFamilies _ List.nodup_nil ?_
    intro supported h family _
    cases family with
    | ipv4 => exact h.insert
    | ipv6 => exact h.insert
  · exact List.nodup_singleton _
  · exact List.nodup_singleton _
  · decide

/-- The slices of each address type that has been reconciled are settled. -/
structure Reached (r : Reconciler) (service : Service) (pods : List Pod) (done : List AddressType)
    (left : List EndpointSlice) : Prop where
  ofType : ∀ s ∈ left, s.addressType ∈ done
  settled : ∀ addressType ∈ done, ∃ desired,
    pods.foldlM (r.addPod service addressType) (∅, []) = .ok (desired, []) ∧
    Settled r service addressType desired (left.filter (·.addressType = addressType))
  hints : NoHints left

namespace Reached

variable {done : List AddressType} {left new : List EndpointSlice}

theorem start : Reached r service pods [] [] where
  ofType := List.forall_mem_nil _
  settled := List.forall_mem_nil _
  hints := List.forall_mem_nil _

/-- The slices of another address type are added. -/
theorem add (h : Reached r service pods done left) (hnew : addressType ∉ done)
    (hdesired : pods.foldlM (r.addPod service addressType) (∅, []) = .ok (desired, []))
    (hsettled : Settled r service addressType desired new) (hhints : NoHints new) :
    Reached r service pods (addressType :: done) (new ++ left) where
  ofType := by
    refine List.forall_mem_append.mpr ⟨fun s hs => ?_, fun s hs => ?_⟩
    · rw [hsettled.ofType s hs]
      exact List.mem_cons_self
    · exact List.mem_cons_of_mem _ (h.ofType s hs)
  settled := by
    refine List.forall_mem_cons.mpr ⟨⟨desired, hdesired, ?_⟩, fun addressType' hdone => ?_⟩
    · have hself : new.filter (·.addressType = addressType) = new :=
        List.filter_eq_self.mpr fun s hs => decide_eq_true (hsettled.ofType s hs)
      have hnone : left.filter (·.addressType = addressType) = [] :=
        List.filter_eq_nil_iff.mpr fun s hs heq =>
          hnew (of_decide_eq_true heq ▸ h.ofType s hs)
      rw [List.filter_append, hself, hnone, List.append_nil]
      exact hsettled
    · have hnone : new.filter (·.addressType = addressType') = [] := by
        refine List.filter_eq_nil_iff.mpr fun s hs heq => hnew ?_
        rw [← hsettled.ofType s hs, of_decide_eq_true heq]
        exact hdone
      rw [List.filter_append, hnone, List.nil_append]
      exact h.settled addressType' hdone
  hints := List.forall_mem_append.mpr ⟨hhints, h.hints⟩

theorem of_perm (h : Reached r service pods done left) {done' : List AddressType}
    {left' : List EndpointSlice} (hdone : done.Perm done') (hleft : left.Perm left') :
    Reached r service pods done' left' where
  ofType s hs := hdone.mem_iff.mp (h.ofType s (hleft.mem_iff.mpr hs))
  settled addressType hmem := by
    obtain ⟨desired, hdesired, hsettled⟩ := h.settled addressType (hdone.mem_iff.mpr hmem)
    exact ⟨desired, hdesired, hsettled.of_view ((hleft.filter _).map _)⟩
  hints s hs := h.hints s (hleft.mem_iff.mpr hs)

/-- The slices that are still to be reconciled, with and without those of an address type. -/
theorem filter_notMem_perm (hnew : addressType ∉ done) :
    (existing.filter (·.addressType ∉ done)).Perm
      (existing.filter (·.addressType = addressType) ++
        existing.filter (·.addressType ∉ addressType :: done)) := by
  refine (List.filter_append_perm (·.addressType = addressType) _).symm.trans (.of_eq ?_)
  rw [List.filter_filter, List.filter_filter]
  refine congrArg₂ _ (List.filter_congr fun s _ => ?_) (List.filter_congr fun s _ => ?_)
  · by_cases hs : s.addressType = addressType
    · simp [hs, hnew]
    · simp [hs]
  · by_cases hs : s.addressType = addressType
    · simp [hs]
    · simp [hs]

variable [r.hasher.Perfect] (hok : ∀ n, api.outcome n = none)
  (hdeletion : service.deletionTimestamp = none)
  (hpods : (pods.map fun pod => (pod.ns, pod.name)).Nodup)
  (hnodes : ∀ pod ∈ pods, ∃ node, r.nodeLister pod.nodeName = .ok node)

include hok hdeletion hpods hnodes

theorem next (h : Reached r service pods done left) (hnew : addressType ∉ done)
    (o : Orders r.hasher) (triggerTime : Option String) {acc : ApiServer × List Error}
    (hstore : acc.1.slices.Perm (left ++ (existing.filter (·.addressType ∉ done) ++ other))) :
    (r.reconcileNext api o service pods existing triggerTime acc addressType).2 = acc.2 ∧
      ∃ left', Reached r service pods (addressType :: done) left' ∧
        (r.reconcileNext api o service pods existing triggerTime acc addressType).1.slices.Perm
          (left' ++ (existing.filter (·.addressType ∉ addressType :: done) ++ other)) := by
  obtain ⟨desired, hdesired, hg⟩ := exists_gathered service addressType hpods hnodes
  have hstore' : acc.1.slices.Perm (existing.filter (·.addressType = addressType) ++
      (left ++ (existing.filter (·.addressType ∉ addressType :: done) ++ other))) := by
    refine hstore.trans (((filter_notMem_perm hnew).append_right other).append_left left |>.trans ?_)
    rw [List.append_assoc]
    exact List.perm_append_comm_assoc _ _ _
  obtain ⟨herrs, new, made, hslices, hsettled, hhints, -, -⟩ :=
    reconcileByAddressType_leaves (o := o.ofType addressType) hok hdeletion hdesired hg.grouped hstore'
      fun s hs => of_decide_eq_true (List.mem_filter.mp hs).2
  refine ⟨?_, new ++ left, h.add hnew hdesired hsettled hhints, ?_⟩
  · exact (congrArg (acc.2 ++ ·) herrs).trans (List.append_nil _)
  · rw [List.append_assoc]
    exact hslices

theorem foldl_next (h : Reached r service pods done left) (o : Orders r.hasher)
    {todo : List AddressType} (hnodup : (todo ++ done).Nodup) (triggerTime : Option String)
    (acc : ApiServer × List Error)
    (hstore : acc.1.slices.Perm (left ++ (existing.filter (·.addressType ∉ done) ++ other))) :
    (todo.foldl (r.reconcileNext api o service pods existing triggerTime) acc).2 = acc.2 ∧
      ∃ done' left', done'.Perm (todo ++ done) ∧ Reached r service pods done' left' ∧
        (todo.foldl (r.reconcileNext api o service pods existing triggerTime) acc).1.slices.Perm
          (left' ++ (existing.filter (·.addressType ∉ done') ++ other)) := by
  induction todo generalizing done left acc with
  | nil => exact ⟨rfl, done, left, .refl _, h, hstore⟩
  | cons addressType todo ih =>
    have hmiddle : (addressType :: todo ++ done).Perm (todo ++ addressType :: done) :=
      List.perm_middle.symm
    have hnew : addressType ∉ done := by
      intro hmem
      exact (List.nodup_cons.mp hnodup).1 (List.mem_append_right _ hmem)
    obtain ⟨herrs, left₁, h₁, hstore₁⟩ :=
      h.next hok hdeletion hpods hnodes hnew o triggerTime hstore
    obtain ⟨herrs', done', left', hperm, h', hstore'⟩ :=
      ih h₁ (hmiddle.nodup_iff.mp hnodup) _ hstore₁
    exact ⟨herrs'.trans herrs, done', left', hperm.trans hmiddle.symm, h', hstore'⟩

end Reached

theorem foldl_deleteNext (hok : ∀ n, api.outcome n = none) (slices : List EndpointSlice)
    (acc : ApiServer × List Error) :
    slices.foldl (deleteNext api service) acc =
      (slices.foldl (fun server slice => (server.delete api slice.name).1) acc.1, acc.2) := by
  induction slices generalizing acc with
  | nil => rfl
  | cons slice slices ih =>
    have hnext : deleteNext api service acc slice = ((acc.1.delete api slice.name).1, acc.2) := by
      rw [deleteNext, ApiServer.delete, call_of_ok hok]
    rw [List.foldl_cons, hnext, ih]
    rfl

/-- What a reconciliation of all address types leaves in the store. -/
theorem Reconcile_leaves [r.hasher.Perfect] (hok : ∀ n, api.outcome n = none)
    (hdeletion : service.deletionTimestamp = none)
    (hpods : (pods.map fun pod => (pod.ns, pod.name)).Nodup)
    (hnodes : ∀ pod ∈ pods, ∃ node, r.nodeLister pod.nodeName = .ok node)
    (hstore : server.slices.Perm (existing ++ other)) (o : Orders r.hasher)
    (triggerTime : Option String) :
    (r.Reconcile api o service pods existing triggerTime server).2 = [] ∧
      ∃ left, (r.Reconcile api o service pods existing triggerTime server).1.slices.Perm
          (left ++ other) ∧
        Reached r service pods (r.getAddressTypesForService service) left := by
  have hvisit := o.addressTypes.perm (r.getAddressTypesForService service)
  have hnodup : (o.addressTypes.visit (r.getAddressTypesForService service) ++ []).Nodup := by
    rw [List.append_nil]
    exact hvisit.nodup_iff.mpr (getAddressTypesForService_nodup service)
  have hall : existing.filter (·.addressType ∉ ([] : List AddressType)) = existing :=
    List.filter_eq_self.mpr fun s _ => decide_eq_true List.not_mem_nil
  have hstart : server.slices.Perm
      ([] ++ (existing.filter (·.addressType ∉ ([] : List AddressType)) ++ other)) := by
    rw [hall]
    exact hstore
  obtain ⟨herrs, done, left, hdone, h, hslices⟩ :=
    Reached.start.foldl_next hok hdeletion hpods hnodes o hnodup triggerTime (server, []) hstart
  rw [List.append_nil] at hdone
  have hsupported := hdone.trans hvisit
  have hfilter : existing.filter (·.addressType ∉ done) =
      existing.filter (·.addressType ∉ r.getAddressTypesForService service) :=
    List.filter_congr fun s _ => decide_eq_decide.mpr (not_congr hsupported.mem_iff)
  rw [hfilter] at hslices
  unfold Reconcile
  simp only
  rw [foldl_deleteNext hok]
  refine ⟨herrs, left, ?_, h.of_perm hsupported (.refl _)⟩
  rw [(foldl_delete hok _ _).1]
  exact foldl_removeNamed_perm (hslices.trans (List.perm_append_comm_assoc _ _ _)) (ApiServer.nodup _)

/-- A reconciliation of what another one has left makes no call. -/
theorem Reached.Reconcile_eq
    (h : Reached r service pods (r.getAddressTypesForService service) existing)
    (o : Orders r.hasher) :
    r.Reconcile api o service pods existing triggerTime server = (server, []) := by
  have hnext : ∀ todo : List AddressType, (∀ t ∈ todo, t ∈ r.getAddressTypesForService service) →
      todo.foldl (r.reconcileNext api o service pods existing triggerTime) (server, []) =
        (server, []) := by
    intro todo htodo
    induction todo with
    | nil => rfl
    | cons addressType todo ih =>
      obtain ⟨hhead, htail⟩ := List.forall_mem_cons.mp htodo
      obtain ⟨desired, hdesired, hsettled⟩ := h.settled addressType hhead
      have hhints : NoHints (existing.filter (·.addressType = addressType)) :=
        fun s hs => h.hints s (List.mem_of_mem_filter hs)
      rw [List.foldl_cons, reconcileNext, reconcileByAddressType_settled hdesired hsettled hhints]
      exact ih htail
  have hnone : existing.filter (·.addressType ∉ r.getAddressTypesForService service) = [] :=
    List.filter_eq_nil_iff.mpr fun s hs hnot => of_decide_eq_true hnot (h.ofType s hs)
  unfold Reconcile
  simp only
  rw [hnext _ fun t ht => o.addressTypes.mem_visit.mp ht, hnone]
  rfl

/-- A second reconciliation makes no call. -/
theorem Reconcile_idempotent [r.hasher.Perfect] (hok : ∀ n, api.outcome n = none)
    (hdeletion : service.deletionTimestamp = none)
    (hpods : (pods.map fun pod => (pod.ns, pod.name)).Nodup)
    (hnodes : ∀ pod ∈ pods, ∃ node, r.nodeLister pod.nodeName = .ok node)
    (hstore : server.slices.Perm (existing ++ other)) (o o' : Orders r.hasher) (api' : Api)
    (triggerTime' : Option String) {existing' : List EndpointSlice}
    (hstore' : (r.Reconcile api o service pods existing triggerTime server).1.slices.Perm
      (existing' ++ other)) :
    r.Reconcile api' o' service pods existing' triggerTime'
        (r.Reconcile api o service pods existing triggerTime server).1 =
      ((r.Reconcile api o service pods existing triggerTime server).1, []) := by
  obtain ⟨-, left, hleft, h⟩ :=
    Reconcile_leaves hok hdeletion hpods hnodes hstore o triggerTime
  have hperm : left.Perm existing' :=
    (List.perm_append_right_iff other).mp (hleft.symm.trans hstore')
  exact (h.of_perm (.refl _) hperm).Reconcile_eq o'

theorem webPod_reconciled_twice :
    webReconciler.Reconcile quietApi ⟨.stored, fun _ => storedOrders _⟩ webService
        [webPod "1" "10.20.0.5" .true]
        (webReconciler.Reconcile quietApi ⟨.stored, fun _ => storedOrders _⟩ webService
          [webPod "1" "10.20.0.5" .true] webServer.slices none webServer).1.slices none
        (webReconciler.Reconcile quietApi ⟨.stored, fun _ => storedOrders _⟩ webService
          [webPod "1" "10.20.0.5" .true] webServer.slices none webServer).1 =
      ((webReconciler.Reconcile quietApi ⟨.stored, fun _ => storedOrders _⟩ webService
        [webPod "1" "10.20.0.5" .true] webServer.slices none webServer).1, []) := by
  refine Reconcile_idempotent (fun _ => rfl) rfl ?_ (fun _ _ => ⟨⟨∅⟩, rfl⟩)
    (.of_eq (List.append_nil _).symm) _ _ quietApi none (.of_eq (List.append_nil _).symm)
  exact List.nodup_singleton _

end Reconciler

end Fleetboard.EndpointSlices

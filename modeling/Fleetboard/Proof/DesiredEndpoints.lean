import Fleetboard.Proof.EndpointSet

/-!
# The desired endpoints

The loop of `reconcileByAddressType` over the pods puts the endpoints of the eligible pods into
the groups of their ports (`Gathered`). Pods with different names have different hashes, so that
no endpoint replaces another.

* `newPortMapKey_eq_iff`: two lists of ports are one group when they are permutations of each
  other;
* `addPod_cases`: what one pod adds;
* `Gathered.foldlM`: what is gathered when the nodes of all pods exist.
-/

namespace Fleetboard.EndpointSlices

/-! ## Groups of ports -/

variable {h : Hasher} {ports ports' : Option (List EndpointPort)}

/-- The same ports in some order. -/
def SamePorts (ports ports' : Option (List EndpointPort)) : Prop := Option.Rel List.Perm ports ports'

instance decidableSamePorts (ports ports' : Option (List EndpointPort)) :
    Decidable (SamePorts ports ports') :=
  match ports, ports' with
  | none, none => isTrue .none
  | some ps, some qs => decidable_of_iff (ps.Perm qs) ⟨.some, fun h => by cases h; assumption⟩
  | none, some _ => isFalse fun h => by cases h
  | some _, none => isFalse fun h => by cases h

theorem sortPorts_sortPorts (ports : Option (List EndpointPort)) :
    h.sortPorts (h.sortPorts ports) = h.sortPorts ports := by
  cases ports with
  | none => rfl
  | some ps => exact congrArg some (((KeySort.insertion _).sorted ps).insertionSort_eq)

theorem newPortMapKey_sortPorts : h.NewPortMapKey (h.sortPorts ports) = h.NewPortMapKey ports := by
  rw [Hasher.NewPortMapKey, sortPorts_sortPorts]
  rfl

theorem samePorts_of_sortPorts_eq (heq : h.sortPorts ports = h.sortPorts ports') :
    SamePorts ports ports' := by
  rcases ports with _ | ps <;> rcases ports' with _ | qs
  · exact .none
  · cases heq
  · cases heq
  · refine .some ?_
    have hrun := Option.some_inj.mp heq
    exact (((KeySort.insertion _).perm ps).symm.trans (.of_eq hrun)).trans
      ((KeySort.insertion _).perm qs)

theorem sortPorts_eq_of_samePorts [h.Perfect] (hsame : SamePorts ports ports') :
    h.sortPorts ports = h.sortPorts ports' := by
  cases hsame with
  | none => rfl
  | @some ps qs hperm =>
    refine congrArg some (List.Perm.eq_of_pairwise (fun a b _ _ hab hba => ?_)
      ((KeySort.insertion _).sorted ps) ((KeySort.insertion _).sorted qs) ?_)
    · injection Hasher.Perfect.injective (le_antisymm hab hba)
    · exact (((KeySort.insertion _).perm ps).trans hperm).trans ((KeySort.insertion _).perm qs).symm

theorem newPortMapKey_eq_iff [h.Perfect] :
    h.NewPortMapKey ports = h.NewPortMapKey ports' ↔ SamePorts ports ports' := by
  constructor
  · intro heq
    injection Hasher.Perfect.injective heq with hsorted
    exact samePorts_of_sortPorts_eq hsorted
  · intro hsame
    rw [Hasher.NewPortMapKey, sortPorts_eq_of_samePorts hsame]
    rfl

namespace Reconciler

variable {r : Reconciler} {service : Service} {addressType : AddressType} {pods : List Pod}
  {pod pod' : Pod} {key : String}

/-! ## Pods -/

/-- The endpoint of a pod. -/
def endpointOf (r : Reconciler) (service : Service) (pod : Pod) : Endpoint :=
  podToEndpoint r.parseIP pod (r.nodeLister pod.nodeName).toOption service

/-- The endpoints of the eligible pods with the ports of a group and at least one address. -/
def endpointsOf (r : Reconciler) (service : Service) (pods : List Pod) (key : String) :
    List Endpoint :=
  ((pods.filter fun pod => ShouldPodBeInEndpoints pod true ∧
    r.hasher.NewPortMapKey (some (getEndpointPorts service pod)) = key).map
    (r.endpointOf service)).filter fun endpoint => endpoint.addresses.length > 0

theorem hashEndpoint_endpointOf [r.hasher.Perfect]
    (heq : r.hasher.hashEndpoint (r.endpointOf service pod) =
      r.hasher.hashEndpoint (r.endpointOf service pod')) :
    pod.ns = pod'.ns ∧ pod.name = pod'.name := by
  injection Hasher.Perfect.injective heq with hobj
  exact ⟨congrArg EndpointHashObj.ns hobj, congrArg EndpointHashObj.name hobj⟩

/-- The node of the pod is found, or need not be. -/
def Located (r : Reconciler) (service : Service) (pod : Pod) : Prop :=
  (∃ node, r.nodeLister pod.nodeName = .ok node) ∨ service.publishNotReadyAddresses = true

/-- The lookup of the pod's node does not fail in another way than by finding none. -/
def LookedUp (r : Reconciler) (pod : Pod) : Prop :=
  ∀ message, r.nodeLister pod.nodeName ≠ .error (.other message)

/-- The group of a pod's ports before the pod is added. -/
def podGroup (r : Reconciler) (service : Service) (addressType : AddressType)
    (desired : GoMap String (Desired r.hasher)) (pod : Pod) : Desired r.hasher :=
  (desired.lookup (r.hasher.NewPortMapKey (some (getEndpointPorts service pod)))).getD
    ⟨⟨r.hasher.sortPorts (some (getEndpointPorts service pod)), addressType⟩, ∅⟩

/-- A pod that is not eligible adds nothing; another one adds its group, with its endpoint if it
has an address and its node is found or need not be. -/
theorem addPod_cases {desired : GoMap String (Desired r.hasher)} {errs : List Error}
    {acc : GoMap String (Desired r.hasher) × List Error}
    (h : r.addPod service addressType (desired, errs) pod = .ok acc) :
    ShouldPodBeInEndpoints pod true = false ∧ acc.1 = desired ∨
      ShouldPodBeInEndpoints pod true = true ∧ LookedUp r pod ∧ ∃ d,
        acc.1 = desired.insert (r.hasher.NewPortMapKey (some (getEndpointPorts service pod))) d ∧
        (Located r service pod ∧ (r.endpointOf service pod).addresses.length > 0 ∧
            d = { r.podGroup service addressType desired pod with
              endpoints := (r.podGroup service addressType desired pod).endpoints.Insert
                (r.endpointOf service pod) } ∨
          ¬ (Located r service pod ∧ (r.endpointOf service pod).addresses.length > 0) ∧
            d = r.podGroup service addressType desired pod) := by
  -- A pod that is located adds what `endpointOf` is, if that has an address.
  have hinsert : ∀ node d, (r.nodeLister pod.nodeName).toOption = node → Located r service pod →
      (if (podToEndpoint r.parseIP pod node service).addresses.length > 0 then
        { r.podGroup service addressType desired pod with
          endpoints := (r.podGroup service addressType desired pod).endpoints.Insert
            (podToEndpoint r.parseIP pod node service) }
        else r.podGroup service addressType desired pod) = d →
      Located r service pod ∧ (r.endpointOf service pod).addresses.length > 0 ∧
          d = { r.podGroup service addressType desired pod with
            endpoints := (r.podGroup service addressType desired pod).endpoints.Insert
              (r.endpointOf service pod) } ∨
        ¬ (Located r service pod ∧ (r.endpointOf service pod).addresses.length > 0) ∧
          d = r.podGroup service addressType desired pod := by
    rintro node d rfl hlocated rfl
    by_cases haddr : (r.endpointOf service pod).addresses.length > 0
    · exact .inl ⟨hlocated, haddr, if_pos haddr⟩
    · exact .inr ⟨fun hall => haddr hall.2, if_neg haddr⟩
  unfold Reconciler.addPod at h
  by_cases heligible : ShouldPodBeInEndpoints pod true = true
  · simp only [heligible, Bool.not_true, Bool.false_eq_true, if_false] at h
    refine .inr ⟨heligible, ?_⟩
    cases hnode : r.nodeLister pod.nodeName with
    | ok node =>
      rw [hnode] at h
      cases h
      refine ⟨fun message heq => ?_, _, rfl,
        hinsert (some node) _ (by rw [hnode]; rfl) (.inl ⟨node, hnode⟩) rfl⟩
      cases hnode.symm.trans heq
    | error e =>
      rw [hnode] at h
      cases e with
      | other message => cases h
      | notFound =>
        have hlooked : LookedUp r pod := by
          intro message heq
          cases hnode.symm.trans heq
        cases hpublish : service.publishNotReadyAddresses with
        | true =>
          simp only [hpublish, if_true] at h
          cases h
          exact ⟨hlooked, _, rfl, hinsert none _ (by rw [hnode]; rfl) (.inr hpublish) rfl⟩
        | false =>
          simp only [hpublish, Bool.false_eq_true, if_false] at h
          cases h
          refine ⟨hlooked, _, rfl, .inr ⟨?_, rfl⟩⟩
          rintro ⟨⟨node, hok⟩ | htrue, -⟩
          · cases hnode.symm.trans hok
          · cases hpublish.symm.trans htrue
  · simp only [heligible, Bool.not_false, if_true] at h
    cases h
    exact .inl ⟨Bool.eq_false_iff.mpr heligible, rfl⟩

/-- The loop over the pods ends where no lookup of a node fails. -/
theorem exists_addPod (acc : GoMap String (Desired r.hasher) × List Error)
    (hlooked : ShouldPodBeInEndpoints pod true = true → LookedUp r pod) :
    ∃ acc', r.addPod service addressType acc pod = .ok acc' := by
  unfold Reconciler.addPod
  by_cases heligible : ShouldPodBeInEndpoints pod true = true
  · simp only [heligible, Bool.not_true, Bool.false_eq_true, if_false]
    cases hnode : r.nodeLister pod.nodeName with
    | ok node => exact ⟨_, rfl⟩
    | error e =>
      cases e with
      | other message => exact absurd hnode (hlooked heligible message)
      | notFound =>
        simp only
        split
        · exact ⟨_, rfl⟩
        · exact ⟨_, rfl⟩
  · simp only [heligible, Bool.not_false, if_true]
    exact ⟨acc, rfl⟩

theorem exists_foldlM_addPod (acc : GoMap String (Desired r.hasher) × List Error)
    (hlooked : ∀ pod ∈ pods, ShouldPodBeInEndpoints pod true = true → LookedUp r pod) :
    ∃ acc', pods.foldlM (r.addPod service addressType) acc = .ok acc' := by
  induction pods generalizing acc with
  | nil => exact ⟨acc, rfl⟩
  | cons pod pods ih =>
    obtain ⟨hpod, hpods⟩ := List.forall_mem_cons.mp hlooked
    obtain ⟨acc₁, hadd⟩ : ∃ acc₁, r.addPod service addressType acc pod = .ok acc₁ :=
      exists_addPod acc hpod
    rw [List.foldlM_cons, hadd]
    exact ih acc₁ hpods

/-- What every pod keeps, from one state of the loop to the next, the loop keeps. -/
theorem foldlM_addPod {I : GoMap String (Desired r.hasher) → Prop}
    (hstep : ∀ pod ∈ pods, ∀ {acc acc'}, I acc.1 → r.addPod service addressType acc pod = .ok acc' →
      I acc'.1) {acc acc' : GoMap String (Desired r.hasher) × List Error} (hI : I acc.1)
    (h : pods.foldlM (r.addPod service addressType) acc = .ok acc') : I acc'.1 := by
  induction pods generalizing acc with
  | nil =>
    cases h
    exact hI
  | cons pod pods ih =>
    obtain ⟨hpod, hpods⟩ := List.forall_mem_cons.mp hstep
    rw [List.foldlM_cons] at h
    cases hadd : r.addPod service addressType acc pod with
    | error e =>
      rw [hadd] at h
      cases h
    | ok acc₁ =>
      rw [hadd] at h
      exact ih hpods (hpod hI hadd) h

theorem lookedUp_of_foldlM {acc acc' : GoMap String (Desired r.hasher) × List Error}
    (h : pods.foldlM (r.addPod service addressType) acc = .ok acc') :
    ∀ pod ∈ pods, ShouldPodBeInEndpoints pod true = true → LookedUp r pod := by
  induction pods generalizing acc with
  | nil => exact List.forall_mem_nil _
  | cons pod pods ih =>
    rw [List.foldlM_cons] at h
    cases hadd : r.addPod service addressType acc pod with
    | error e =>
      rw [hadd] at h
      cases h
    | ok acc₁ =>
      rw [hadd] at h
      refine List.forall_mem_cons.mpr ⟨fun heligible => ?_, ih h⟩
      rcases addPod_cases hadd with ⟨hnot, -⟩ | ⟨-, hlooked, -⟩
      · cases hnot.symm.trans heligible
      · exact hlooked

/-- Each group is the one of its ports. -/
def Grouped (r : Reconciler) (addressType : AddressType)
    (desired : GoMap String (Desired r.hasher)) : Prop :=
  ∀ {key d}, desired.lookup key = some d → r.hasher.NewPortMapKey d.endpointMeta.ports = key ∧
    d.endpointMeta.addressType = addressType

/-- The group of some ports has the endpoints of the pods so far. -/
structure GroupOf (r : Reconciler) (service : Service) (addressType : AddressType) (pods : List Pod)
    (key : String) (d : Desired r.hasher) : Prop where
  keys : d.endpoints.items.keys.Perm
    ((r.endpointsOf service pods key).map r.hasher.hashEndpoint)
  found : ∀ endpoint ∈ r.endpointsOf service pods key,
    d.endpoints.items.lookup (r.hasher.hashEndpoint endpoint) = some (sortAddresses endpoint)
  ports : r.hasher.NewPortMapKey d.endpointMeta.ports = key
  addressType : d.endpointMeta.addressType = addressType

/-- The groups of the pods so far. -/
structure Gathered (r : Reconciler) (service : Service) (addressType : AddressType)
    (pods : List Pod) (desired : GoMap String (Desired r.hasher)) : Prop where
  isSome : ∀ key, (desired.lookup key).isSome ↔ ∃ pod ∈ pods, ShouldPodBeInEndpoints pod true ∧
    r.hasher.NewPortMapKey (some (getEndpointPorts service pod)) = key
  group : ∀ {key d}, desired.lookup key = some d → GroupOf r service addressType pods key d

namespace Gathered

variable {desired : GoMap String (Desired r.hasher)}

theorem start : Gathered r service addressType [] ∅ where
  isSome key := by
    refine ⟨fun hsome => ?_, fun hpod => ?_⟩
    · cases hsome
    · obtain ⟨pod, hpod, -⟩ := hpod
      cases hpod
  group hd := by cases hd

theorem grouped (h : Gathered r service addressType pods desired) :
    Grouped r addressType desired := fun hd => ⟨(h.group hd).ports, (h.group hd).addressType⟩

/-- A group has no endpoint without a pod. -/
theorem endpointsOf_eq_nil (h : Gathered r service addressType pods desired)
    (hkey : desired.lookup key = none) : r.endpointsOf service pods key = [] := by
  have hnot : ¬ ∃ pod ∈ pods, ShouldPodBeInEndpoints pod true ∧
      r.hasher.NewPortMapKey (some (getEndpointPorts service pod)) = key := by
    rw [← h.isSome, hkey]
    exact Bool.false_ne_true
  have hpods : (pods.filter fun pod => ShouldPodBeInEndpoints pod true ∧
      r.hasher.NewPortMapKey (some (getEndpointPorts service pod)) = key) = [] :=
    List.filter_eq_nil_iff.mpr fun pod hpod hboth => hnot ⟨pod, hpod, of_decide_eq_true hboth⟩
  rw [endpointsOf, hpods]
  rfl

theorem endpointsOf_append (pods : List Pod) (pod : Pod) (key : String) :
    r.endpointsOf service (pods ++ [pod]) key = r.endpointsOf service pods key ++
      if ShouldPodBeInEndpoints pod true ∧
          r.hasher.NewPortMapKey (some (getEndpointPorts service pod)) = key ∧
          (r.endpointOf service pod).addresses.length > 0 then [r.endpointOf service pod] else [] := by
  rw [endpointsOf, List.filter_append, List.map_append, List.filter_append]
  refine congrArg _ ?_
  by_cases hpod : ShouldPodBeInEndpoints pod true ∧
      r.hasher.NewPortMapKey (some (getEndpointPorts service pod)) = key
  · by_cases haddr : (r.endpointOf service pod).addresses.length > 0
    · simp [hpod, haddr]
    · simp [hpod, haddr]
  · rw [if_neg fun hall => hpod ⟨hall.1, hall.2.1⟩]
    rw [List.filter_cons_of_neg (by simpa using hpod)]
    rfl

/-- A pod of another name has another hash than the endpoints so far. -/
theorem hash_notMem [r.hasher.Perfect]
    (hfresh : ∀ pod' ∈ pods, (pod'.ns, pod'.name) ≠ (pod.ns, pod.name)) :
    r.hasher.hashEndpoint (r.endpointOf service pod) ∉
      (r.endpointsOf service pods key).map r.hasher.hashEndpoint := by
  intro hmem
  obtain ⟨endpoint, hendpoint, heq⟩ := List.mem_map.mp hmem
  obtain ⟨pod', hpod', rfl⟩ := List.mem_map.mp (List.mem_of_mem_filter hendpoint)
  obtain ⟨hns, hname⟩ := hashEndpoint_endpointOf heq
  exact hfresh pod' (List.mem_of_mem_filter hpod') (by rw [hns, hname])

theorem isSome_append (h : Gathered r service addressType pods desired)
    (hpod : ShouldPodBeInEndpoints pod true = true) (d : Desired r.hasher) (key : String) :
    ((desired.insert (r.hasher.NewPortMapKey (some (getEndpointPorts service pod))) d).lookup
        key).isSome ↔ ∃ pod' ∈ pods ++ [pod], ShouldPodBeInEndpoints pod' true ∧
      r.hasher.NewPortMapKey (some (getEndpointPorts service pod')) = key := by
  rw [GoMap.lookup_insert_eq]
  split_ifs with hkey
  · refine ⟨fun _ => ⟨pod, ?_, hpod, hkey.symm⟩, fun _ => rfl⟩
    exact List.mem_append_right _ (List.mem_singleton.mpr rfl)
  · rw [h.isSome]
    constructor
    · rintro ⟨pod', hpod', hrest⟩
      exact ⟨pod', List.mem_append_left _ hpod', hrest⟩
    · rintro ⟨pod', hpod', heligible, hkey'⟩
      rcases List.mem_append.mp hpod' with hpod' | hpod'
      · exact ⟨pod', hpod', heligible, hkey'⟩
      · rw [List.mem_singleton.mp hpod'] at hkey'
        exact absurd hkey'.symm hkey

/-- The group of a pod, new or not, before its endpoint is added. -/
theorem getD_group (h : Gathered r service addressType pods desired)
    (hkey : r.hasher.NewPortMapKey (some (getEndpointPorts service pod)) = key) :
    GroupOf r service addressType pods key ((desired.lookup key).getD
      ⟨⟨r.hasher.sortPorts (some (getEndpointPorts service pod)), addressType⟩, ∅⟩) := by
  cases hlookup : desired.lookup key with
  | some d => exact h.group hlookup
  | none =>
    refine ⟨?_, ?_, newPortMapKey_sortPorts.trans hkey, rfl⟩
    · rw [h.endpointsOf_eq_nil hlookup]
      exact .nil
    · rw [h.endpointsOf_eq_nil hlookup]
      exact List.forall_mem_nil _

end Gathered

/-- The endpoint of a pod is added to its group. -/
theorem GroupOf.add [r.hasher.Perfect] {d : Desired r.hasher}
    (hd : GroupOf r service addressType pods key d) (hpod : ShouldPodBeInEndpoints pod true = true)
    (hkey : r.hasher.NewPortMapKey (some (getEndpointPorts service pod)) = key)
    (hfresh : ∀ pod' ∈ pods, (pod'.ns, pod'.name) ≠ (pod.ns, pod.name)) :
    GroupOf r service addressType (pods ++ [pod]) key
      (if (r.endpointOf service pod).addresses.length > 0 then
        { d with endpoints := d.endpoints.Insert (r.endpointOf service pod) } else d) := by
  by_cases haddr : (r.endpointOf service pod).addresses.length > 0
  · have happend : r.endpointsOf service (pods ++ [pod]) key =
        r.endpointsOf service pods key ++ [r.endpointOf service pod] := by
      rw [Gathered.endpointsOf_append, if_pos ⟨hpod, hkey, haddr⟩]
    have hnew : r.hasher.hashEndpoint (r.endpointOf service pod) ∉
        (r.endpointsOf service pods key).map r.hasher.hashEndpoint := Gathered.hash_notMem hfresh
    rw [if_pos haddr]
    refine ⟨?_, fun endpoint hendpoint => ?_, hd.ports, hd.addressType⟩
    · show (d.endpoints.items.insert _ _).keys.Perm _
      rw [AList.keys_insert, List.erase_of_not_mem fun hmem => hnew (hd.keys.mem_iff.mp hmem),
        happend, List.map_append]
      exact (hd.keys.cons _).trans (List.perm_append_singleton _ _).symm
    · show (d.endpoints.items.insert _ _).lookup _ = _
      rw [GoMap.lookup_insert_eq]
      rw [happend] at hendpoint
      rcases List.mem_append.mp hendpoint with hold | hold
      · rw [if_neg]
        · exact hd.found endpoint hold
        · intro heq
          exact hnew (heq ▸ List.mem_map_of_mem hold)
      · rw [List.mem_singleton.mp hold, if_pos rfl]
  · have happend : r.endpointsOf service (pods ++ [pod]) key = r.endpointsOf service pods key := by
      rw [Gathered.endpointsOf_append, if_neg fun hall => haddr hall.2.2, List.append_nil]
    rw [if_neg haddr]
    exact ⟨by rw [happend]; exact hd.keys, by rw [happend]; exact hd.found, hd.ports,
      hd.addressType⟩

/-- A pod that is not eligible, or has other ports, leaves a group as it is. -/
theorem GroupOf.skip {d : Desired r.hasher} (hd : GroupOf r service addressType pods key d)
    (hpod : ¬ (ShouldPodBeInEndpoints pod true = true ∧
      r.hasher.NewPortMapKey (some (getEndpointPorts service pod)) = key)) :
    GroupOf r service addressType (pods ++ [pod]) key d := by
  have happend : r.endpointsOf service (pods ++ [pod]) key = r.endpointsOf service pods key := by
    rw [Gathered.endpointsOf_append, if_neg fun hall => hpod ⟨hall.1, hall.2.1⟩, List.append_nil]
  exact ⟨by rw [happend]; exact hd.keys, by rw [happend]; exact hd.found, hd.ports,
    hd.addressType⟩

namespace Gathered

variable {desired : GoMap String (Desired r.hasher)}

theorem add [r.hasher.Perfect] (h : Gathered r service addressType pods desired) {node : Node}
    (hnode : r.nodeLister pod.nodeName = .ok node)
    (hfresh : ∀ pod' ∈ pods, (pod'.ns, pod'.name) ≠ (pod.ns, pod.name)) (errs : List Error) :
    ∃ desired', r.addPod service addressType (desired, errs) pod = .ok (desired', errs) ∧
      Gathered r service addressType (pods ++ [pod]) desired' := by
  unfold addPod
  by_cases hpod : ShouldPodBeInEndpoints pod true = true
  · simp only [hpod, Bool.not_true, Bool.false_eq_true, if_false, hnode]
    have hendpoint : podToEndpoint r.parseIP pod (some node) service = r.endpointOf service pod := by
      rw [endpointOf, hnode]
      rfl
    rw [hendpoint]
    refine ⟨_, rfl, h.isSome_append hpod _, fun {key d} hd => ?_⟩
    rw [GoMap.lookup_insert_eq] at hd
    by_cases hkey : key = r.hasher.NewPortMapKey (some (getEndpointPorts service pod))
    · rw [if_pos hkey] at hd
      obtain rfl := Option.some_inj.mp hd
      subst hkey
      exact (h.getD_group rfl).add hpod rfl hfresh
    · rw [if_neg hkey] at hd
      exact (h.group hd).skip fun hall => hkey hall.2.symm
  · simp only [hpod, Bool.not_false, if_true]
    refine ⟨desired, rfl, fun key => ?_, fun hd => (h.group hd).skip fun hall => hpod hall.1⟩
    rw [h.isSome]
    constructor
    · rintro ⟨pod', hpod', hrest⟩
      exact ⟨pod', List.mem_append_left _ hpod', hrest⟩
    · rintro ⟨pod', hpod', hrest⟩
      rcases List.mem_append.mp hpod' with hpod' | hpod'
      · exact ⟨pod', hpod', hrest⟩
      · rw [List.mem_singleton.mp hpod'] at hrest
        exact absurd hrest.1 hpod

/-- The pods are added one after the other. -/
theorem foldlM [r.hasher.Perfect] (h : Gathered r service addressType pods desired) {more : List Pod}
    (hnodes : ∀ pod ∈ more, ∃ node, r.nodeLister pod.nodeName = .ok node)
    (hpods : ((pods ++ more).map fun pod => (pod.ns, pod.name)).Nodup) (errs : List Error) :
    ∃ desired', more.foldlM (r.addPod service addressType) (desired, errs) = .ok (desired', errs) ∧
      Gathered r service addressType (pods ++ more) desired' := by
  induction more generalizing pods desired with
  | nil =>
    refine ⟨desired, rfl, ?_⟩
    rwa [List.append_nil]
  | cons pod more ih =>
    obtain ⟨⟨node, hnode⟩, hmore⟩ := List.forall_mem_cons.mp hnodes
    have hfresh : ∀ pod' ∈ pods, (pod'.ns, pod'.name) ≠ (pod.ns, pod.name) := by
      intro pod' hpod' heq
      rw [List.map_append, List.map_cons] at hpods
      have hdisjoint := (List.nodup_append.mp hpods).2.2
      exact hdisjoint _ (List.mem_map_of_mem hpod') _ List.mem_cons_self heq
    obtain ⟨desired₁, hadd, h₁⟩ := h.add hnode hfresh errs
    have hsplit : pods ++ pod :: more = pods ++ [pod] ++ more := by
      rw [List.append_assoc]
      rfl
    rw [hsplit] at hpods ⊢
    obtain ⟨desired', hfold, h'⟩ := ih h₁ hmore hpods
    refine ⟨desired', ?_, h'⟩
    rw [List.foldlM_cons, hadd]
    exact hfold

end Gathered

end Reconciler

end Fleetboard.EndpointSlices

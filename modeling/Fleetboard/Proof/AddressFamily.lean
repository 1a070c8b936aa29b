import Fleetboard.Proof.Reconcile

/-!
# The addresses in the slices

The addresses of all slices come from the annotations of the pods, whatever the address type of
a slice is, and as `IP.String` writes them, also when they are none.

* `Reconcile_valid_iff`: all calls write valid addresses of the families of their slices, whatever
  exists already, exactly when the annotations of the pods that get an endpoint are valid in all
  families of the service;
* `webPod_writes_nil`: an annotation that is no address becomes one.
-/

namespace Fleetboard.EndpointSlices

open EndpointSet

/-! ## Valid addresses -/

/-- A valid address of the family of an address type. -/
def ValidAddress (addressType : AddressType) (address : String) : Bool :=
  match addressType, Net.ParseIP address with
  | .ipv4, some ip => (Net.IP.to4 ip).isSome
  | .ipv6, some ip => (Net.IP.to4 ip).isNone
  | _, _ => false

/-- The endpoints of a slice have valid addresses. -/
def Valid (s : EndpointSlice) : Prop :=
  ∀ endpoint ∈ s.endpoints, ∀ address ∈ endpoint.addresses, ValidAddress s.addressType address = true

/-! ## Calls that are logged -/

/-- A call writes a slice. -/
def ApiCall.Writes (s : EndpointSlice) : ApiCall → Prop
  | .create t => t = s
  | .update t => t = s
  | .delete _ => False

/-- The calls from one state of the server to another only write some slices. -/
def Logged (ok : EndpointSlice → Prop) (server server' : ApiServer) : Prop :=
  ∃ made, server'.calls = server.calls ++ made ∧ ∀ c ∈ made, ∀ s, c.Writes s → ok s

namespace Logged

variable {ok : EndpointSlice → Prop} {api : Api} {service : Service}
  {server server' server'' : ApiServer} {changes : Changes} {triggerTime : Option String}

theorem refl (server : ApiServer) : Logged ok server server :=
  ⟨[], (List.append_nil _).symm, List.forall_mem_nil _⟩

theorem trans (h : Logged ok server server') (h' : Logged ok server' server'') :
    Logged ok server server'' := by
  obtain ⟨made, hmade, hok⟩ := h
  obtain ⟨made', hmade', hok'⟩ := h'
  refine ⟨made ++ made', ?_, List.forall_mem_append.mpr ⟨hok, hok'⟩⟩
  rw [hmade', hmade, List.append_assoc]

theorem call {c : ApiCall} {done : List ApiCall → ApiServer}
    (hdone : ∀ calls, (done calls).calls = calls) (hc : ∀ s, c.Writes s → ok s) :
    Logged ok server (server.call api c done).1 := by
  refine ⟨[c], ?_, List.forall_mem_singleton.mpr hc⟩
  unfold ApiServer.call
  split
  · exact hdone _
  · rfl

theorem create {s : EndpointSlice} (hs : ok s) : Logged ok server (server.create api s).1 :=
  call (fun _ => rfl) fun _ heq => heq ▸ hs

theorem update {s : EndpointSlice} (hs : ok s) : Logged ok server (server.update api s).1 :=
  call (fun _ => rfl) fun _ heq => heq ▸ hs

theorem delete (name : String) : Logged ok server (server.delete api name).1 :=
  call (fun _ => rfl) fun _ hwrites => hwrites.elim

theorem callEach {call : ApiServer → EndpointSlice → ApiServer × Option ApiError}
    {slices : List EndpointSlice}
    (hcall : ∀ server, ∀ slice ∈ slices, Logged ok server (call server slice).1) :
    Logged ok server (EndpointSlices.callEach call server slices).1 := by
  induction slices generalizing server with
  | nil => exact refl server
  | cons slice slices ih =>
    obtain ⟨hslice, hslices⟩ : (∀ server, Logged ok server (call server slice).1) ∧
        ∀ server, ∀ slice ∈ slices, Logged ok server (call server slice).1 :=
      ⟨fun server => hcall server slice List.mem_cons_self,
        fun server s hs => hcall server s (List.mem_cons_of_mem _ hs)⟩
    have hfirst := hslice server
    unfold EndpointSlices.callEach
    split
    · rename_i server' heq
      rw [heq] at hfirst
      exact hfirst.trans (ih hslices)
    · rename_i server' e heq
      rwa [heq] at hfirst

/-- The calls of `finalize` write the slices to update and to create, with other names and
annotations. -/
theorem finalize (hok : ∀ {s t}, anonymous s = anonymous t → ok s → ok t)
    (hchanges : ∀ s ∈ changes.toUpdate ++ changes.toCreate, ok s) :
    Logged ok server (EndpointSlices.finalize api service changes triggerTime server).1 := by
  have hrecycled : ∀ s ∈
      (recycleSlices service changes.toCreate changes.toUpdate changes.toDelete).toUpdate ++
        (recycleSlices service changes.toCreate changes.toUpdate changes.toDelete).toCreate,
      ok <| addTriggerTimeAnnotation s triggerTime := by
    intro s hs
    have hmem := (recycleSlices_anonymous service changes.toCreate changes.toUpdate
      changes.toDelete).mem_iff.mp (List.mem_map_of_mem hs)
    obtain ⟨t, ht, heq⟩ := List.mem_map.mp hmem
    exact hok (heq.trans rfl) (hchanges t ht)
  obtain ⟨hupdate, hcreate⟩ := List.forall_mem_append.mp hrecycled
  unfold EndpointSlices.finalize
  simp only
  generalize recycleSlices service changes.toCreate changes.toUpdate changes.toDelete = recycled
    at hupdate hcreate ⊢
  have hcreates : ∀ slices : List EndpointSlice, (∀ s ∈ slices, s ∈ recycled.toCreate) →
      Logged ok server (EndpointSlices.callEach (fun server slice =>
        server.create api <| addTriggerTimeAnnotation slice triggerTime) server slices).1 :=
    fun slices hsub => callEach fun _ slice hs => create (hcreate slice (hsub slice hs))
  have hcreated := hcreates (if service.deletionTimestamp.isNone = true then recycled.toCreate else [])
    fun s hs => by
      split_ifs at hs
      · exact hs
      · cases hs
  generalize EndpointSlices.callEach _ server _ = created at hcreated ⊢
  rcases created with ⟨server₁, _ | ⟨slice, e⟩⟩
  · have hupdated : Logged ok server₁ (EndpointSlices.callEach (fun server slice =>
        server.update api <| addTriggerTimeAnnotation slice triggerTime) server₁
        recycled.toUpdate).1 := callEach fun _ slice hs => update (hupdate slice hs)
    simp only
    generalize EndpointSlices.callEach _ server₁ _ = updated at hupdated ⊢
    rcases updated with ⟨server₂, _ | ⟨slice, e⟩⟩
    · have hdeleted : Logged ok server₂ (EndpointSlices.callEach (fun server slice =>
          server.delete api slice.name) server₂ recycled.toDelete).1 :=
        callEach fun _ slice _ => delete slice.name
      simp only
      generalize EndpointSlices.callEach _ server₂ _ = deleted at hdeleted ⊢
      have hall := (hcreated.trans hupdated).trans hdeleted
      rcases deleted with ⟨server₃, _ | ⟨slice, e⟩⟩
      · exact hall
      · exact hall
    · exact hcreated.trans hupdated
  · exact hcreated

end Logged

/-! ## Desired endpoints -/

namespace Reconciler

variable {r : Reconciler} {service : Service} {addressType : AddressType} {pods : List Pod}
  {desired : GoMap String (Desired r.hasher)} {existing slices : List EndpointSlice}
  {ok : String → Prop} {address : String} {pod : Pod}
  {acc acc' : GoMap String (Desired r.hasher) × List Error}

/-- The group of some ports, of which every address is fine. -/
structure FineGroup (r : Reconciler) (addressType : AddressType) (ok : String → Prop) (key : String)
    (d : Desired r.hasher) : Prop where
  ports : r.hasher.NewPortMapKey d.endpointMeta.ports = key
  addressType : d.endpointMeta.addressType = addressType
  addresses : ∀ {k endpoint}, d.endpoints.items.lookup k = some endpoint →
    ∀ address ∈ endpoint.addresses, ok address

def Fine (r : Reconciler) (addressType : AddressType) (ok : String → Prop)
    (desired : GoMap String (Desired r.hasher)) : Prop :=
  ∀ key d, desired.lookup key = some d → FineGroup r addressType ok key d

/-- The annotation of the pod, if it has one, gives an address that is fine. -/
def AnnotatedWith (r : Reconciler) (ok : String → Prop) (pod : Pod) : Prop :=
  ∀ val, pod.annotations.lookup FleetboardParallelIP = some val → val ≠ "" → ok (r.parseIP val)

theorem addresses_endpointOf (hpod : AnnotatedWith r ok pod) :
    ∀ address ∈ (r.endpointOf service pod).addresses, ok address := by
  show ∀ address ∈ getEndpointAddresses r.parseIP pod, ok address
  unfold getEndpointAddresses GetDedicatedCNIIP
  cases hval : pod.annotations.lookup FleetboardParallelIP with
  | none => exact List.forall_mem_nil _
  | some val =>
    simp only
    split_ifs with hne
    · exact List.forall_mem_singleton.mpr (hpod val hval hne)
    · exact List.forall_mem_nil _

theorem mem_addresses_endpointOf {val : String}
    (hval : pod.annotations.lookup FleetboardParallelIP = some val) (hne : val ≠ "") :
    r.parseIP val ∈ (r.endpointOf service pod).addresses := by
  show r.parseIP val ∈ getEndpointAddresses r.parseIP pod
  unfold getEndpointAddresses GetDedicatedCNIIP
  simp only [hval, hne, ne_eq, not_false_eq_true, if_true]
  exact List.mem_singleton_self _

theorem mem_sortStrings {addresses : List String} :
    address ∈ sortStrings addresses ↔ address ∈ addresses := (KeySort.insertion id).mem_run

theorem FineGroup.insert {key : String} {d : Desired r.hasher}
    (h : FineGroup r addressType ok key d) {endpoint : Endpoint}
    (hendpoint : ∀ address ∈ endpoint.addresses, ok address) :
    FineGroup r addressType ok key { d with endpoints := d.endpoints.Insert endpoint } where
  ports := h.ports
  addressType := h.addressType
  addresses {k endpoint'} hlookup := by
    change (d.endpoints.items.insert _ _).lookup k = _ at hlookup
    rw [GoMap.lookup_insert_eq] at hlookup
    split_ifs at hlookup
    · obtain rfl := Option.some_inj.mp hlookup
      exact fun address haddress => hendpoint address (mem_sortStrings.mp haddress)
    · exact h.addresses hlookup

/-- A group is the one that there is, or a new one. -/
theorem Fine.getD (h : Fine r addressType ok desired) (ports : Option (List EndpointPort)) :
    FineGroup r addressType ok (r.hasher.NewPortMapKey ports)
      ((desired.lookup (r.hasher.NewPortMapKey ports)).getD
        ⟨⟨r.hasher.sortPorts ports, addressType⟩, ∅⟩) := by
  cases hlookup : desired.lookup (r.hasher.NewPortMapKey ports) with
  | some d => exact h _ d hlookup
  | none => exact ⟨newPortMapKey_sortPorts, rfl, fun hnone => by cases hnone⟩

theorem Fine.insert (h : Fine r addressType ok desired) {key : String} {d : Desired r.hasher}
    (hd : FineGroup r addressType ok key d) : Fine r addressType ok (desired.insert key d) := by
  intro key' d' hlookup
  rw [GoMap.lookup_insert_eq] at hlookup
  split_ifs at hlookup with hkey
  · subst hkey
    obtain rfl := Option.some_inj.mp hlookup
    exact hd
  · exact h key' d' hlookup

theorem Fine.addPod {pod : Pod} {acc acc' : GoMap String (Desired r.hasher) × List Error}
    (h : Fine r addressType ok acc.1)
    (hpod : ShouldPodBeInEndpoints pod true = true → Located r service pod → AnnotatedWith r ok pod)
    (hadd : r.addPod service addressType acc pod = .ok acc') : Fine r addressType ok acc'.1 := by
  have hgroup := h.getD (some (getEndpointPorts service pod))
  rcases addPod_cases hadd with ⟨-, heq⟩ | ⟨heligible, -, d, heq, ⟨hlocated, -, rfl⟩ | ⟨-, rfl⟩⟩
  · rw [heq]
    exact h
  · rw [heq]
    exact h.insert (hgroup.insert (addresses_endpointOf (hpod heligible hlocated)))
  · rw [heq]
    exact h.insert hgroup

theorem fine_empty : Fine r addressType ok ∅ := fun _ _ hd => by cases hd

/-- The address is one of a desired endpoint. -/
def HasAddress (desired : GoMap String (Desired r.hasher)) (address : String) : Prop :=
  ∃ key d k endpoint, desired.lookup key = some d ∧ d.endpoints.items.lookup k = some endpoint ∧
    address ∈ endpoint.addresses

/-- Endpoints of one hash have the same addresses. -/
theorem mem_addresses_of_hash [r.hasher.Perfect] {endpoint endpoint' : Endpoint}
    (hhash : r.hasher.hashEndpoint endpoint = r.hasher.hashEndpoint endpoint')
    (haddress : address ∈ endpoint'.addresses) : address ∈ endpoint.addresses := by
  injection Hasher.Perfect.injective hhash with hobj
  have hsorted : sortStrings endpoint.addresses = sortStrings endpoint'.addresses :=
    congrArg EndpointHashObj.addresses hobj
  rw [← mem_sortStrings, hsorted, mem_sortStrings]
  exact haddress

/-- An endpoint takes the place of one with the same addresses. -/
theorem exists_insert_address [r.hasher.Perfect] {set : EndpointSet r.hasher} {k : String}
    {endpoint : Endpoint} (hlookup : set.items.lookup k = some endpoint)
    (haddress : address ∈ endpoint.addresses) (new : Endpoint) :
    ∃ endpoint', (set.Insert new).items.lookup k = some endpoint' ∧
      address ∈ endpoint'.addresses := by
  show ∃ endpoint', (set.items.insert _ _).lookup k = some endpoint' ∧ _
  rw [GoMap.lookup_insert_eq]
  split_ifs with hk
  · have hhash : r.hasher.hashEndpoint new = r.hasher.hashEndpoint endpoint :=
      hk.symm.trans (set.hashed hlookup).symm
    exact ⟨_, rfl, mem_sortStrings.mpr (mem_addresses_of_hash hhash haddress)⟩
  · exact ⟨endpoint, hlookup, haddress⟩

theorem HasAddress.addPod [r.hasher.Perfect] {address : String} {pod : Pod}
    {acc acc' : GoMap String (Desired r.hasher) × List Error} (h : HasAddress acc.1 address)
    (hadd : r.addPod service addressType acc pod = .ok acc') : HasAddress acc'.1 address := by
  obtain ⟨key, d, k, endpoint, hd, hlookup, haddress⟩ := h
  rcases addPod_cases hadd with ⟨-, heq⟩ | ⟨-, -, d', heq, hd'⟩
  · rw [heq]
    exact ⟨key, d, k, endpoint, hd, hlookup, haddress⟩
  · rw [heq]
    by_cases hkey : key = r.hasher.NewPortMapKey (some (getEndpointPorts service pod))
    · have hgroup : r.podGroup service addressType acc.1 pod = d := by
        rw [podGroup, ← hkey, hd]
        rfl
      rw [hgroup] at hd'
      have hnew := exists_insert_address hlookup haddress (r.endpointOf service pod)
      rcases hd' with ⟨-, -, rfl⟩ | ⟨-, rfl⟩
      · obtain ⟨endpoint', hlookup', haddress'⟩ := hnew
        exact ⟨_, _, k, endpoint', AList.lookup_insert _, hlookup', haddress'⟩
      · exact ⟨_, _, k, endpoint, AList.lookup_insert _, hlookup, haddress⟩
    · refine ⟨key, d, k, endpoint, ?_, hlookup, haddress⟩
      rw [GoMap.lookup_insert_eq, if_neg hkey]
      exact hd

/-- The address of a pod that is eligible and located is desired. -/
theorem hasAddress_addPod (heligible : ShouldPodBeInEndpoints pod true = true)
    (hlocated : Located r service pod) (haddress : address ∈ (r.endpointOf service pod).addresses)
    (hadd : r.addPod service addressType acc pod = .ok acc') : HasAddress acc'.1 address := by
  have hlength := List.length_pos_of_mem haddress
  rcases addPod_cases hadd with ⟨hnot, -⟩ | ⟨-, -, d, heq, ⟨-, -, rfl⟩ | ⟨hnot, -⟩⟩
  · cases hnot.symm.trans heligible
  · rw [heq]
    exact ⟨_, _, _, _, AList.lookup_insert _, AList.lookup_insert _, mem_sortStrings.mpr haddress⟩
  · exact absurd ⟨hlocated, hlength⟩ hnot

theorem hasAddress_foldlM [r.hasher.Perfect] (hmem : pod ∈ pods)
    (heligible : ShouldPodBeInEndpoints pod true = true) (hlocated : Located r service pod)
    (haddress : address ∈ (r.endpointOf service pod).addresses)
    (h : pods.foldlM (r.addPod service addressType) acc = .ok acc') : HasAddress acc'.1 address := by
  obtain ⟨before, after, rfl⟩ := List.append_of_mem hmem
  rw [List.foldlM_append] at h
  cases hbefore : before.foldlM (r.addPod service addressType) acc with
  | error e =>
    rw [hbefore] at h
    cases h
  | ok acc₁ =>
    rw [hbefore] at h
    change (pod :: after).foldlM (r.addPod service addressType) acc₁ = _ at h
    rw [List.foldlM_cons] at h
    cases hadd : r.addPod service addressType acc₁ pod with
    | error e =>
      rw [hadd] at h
      cases h
    | ok acc₂ =>
      rw [hadd] at h
      exact foldlM_addPod (I := fun desired => HasAddress desired address)
        (fun _ _ _ _ => HasAddress.addPod) (hasAddress_addPod heligible hlocated haddress hadd) h

/-! ## The slices that are written -/

/-- The addresses of settled slices are desired ones. -/
theorem Settled.valid [r.hasher.Perfect] (h : Settled r service addressType desired slices)
    (hfine : Fine r addressType (ValidAddress addressType · = true) desired) :
    ∀ s ∈ slices, Valid s := by
  intro s hs endpoint hendpoint address haddress
  rw [h.ofType s hs]
  rcases h.form with hall | ⟨t, rfl, hcompare, -⟩
  · obtain ⟨d, hd⟩ := Option.isSome_iff_exists.mp (hall s hs).1.2
    have hmem : endpoint ∈ (slices.filter (r.keyOf · = r.keyOf s)).flatMap (·.endpoints) :=
      List.mem_flatMap.mpr ⟨s, List.mem_filter.mpr ⟨hs, decide_eq_true rfl⟩, hendpoint⟩
    obtain ⟨got, hgot, -⟩ := (h.complete _ d hd).same endpoint hmem
    exact (hfine _ d hd).addresses hgot address
      (mem_addresses_of_hash (d.endpoints.hashed hgot) haddress)
  · rw [List.mem_singleton.mp hs, (placeholderSliceCompare_iff.mp hcompare).2.2.2.2.1] at hendpoint
    cases hendpoint

/-- Settled slices have the desired addresses. -/
theorem Settled.exists_address [r.hasher.Perfect] (h : Settled r service addressType desired slices)
    (hdesired : HasAddress desired address) :
    ∃ s ∈ slices, ∃ endpoint ∈ s.endpoints, address ∈ endpoint.addresses := by
  obtain ⟨key, d, k, endpoint, hd, hlookup, haddress⟩ := hdesired
  have hperm := (h.complete key d hd).perm
  have hkeys : k ∈ d.endpoints.items.keys := AList.lookup_isSome.mp (by rw [hlookup]; rfl)
  have hplaced := hperm.mem_iff.mpr hkeys
  rw [show (∅ : EndpointSet r.hasher).items.keys = [] from rfl, List.append_nil] at hplaced
  obtain ⟨endpoint', hmem, rfl⟩ := List.mem_map.mp hplaced
  obtain ⟨s, hs, hendpoint⟩ := List.mem_flatMap.mp hmem
  exact ⟨s, List.mem_of_mem_filter hs, endpoint', hendpoint,
    mem_addresses_of_hash (d.endpoints.hashed hlookup).symm haddress⟩

theorem valid_of_anonymous {s t : EndpointSlice} (heq : anonymous s = anonymous t) (hs : Valid s) :
    Valid t := by
  have hendpoints : (anonymous s).endpoints = (anonymous t).endpoints := by rw [heq]
  have htype : (anonymous s).addressType = (anonymous t).addressType := by rw [heq]
  intro endpoint hendpoint address haddress
  rw [show t.addressType = s.addressType from htype.symm]
  refine hs endpoint ?_ address haddress
  rwa [show s.endpoints = t.endpoints from hendpoints]

variable {api : Api} {server : ApiServer} {triggerTime : Option String}

/-- The pod gets an endpoint: it is eligible, its node is found or need not be, and no lookup of a
node ends the loop over the pods. -/
structure Published (r : Reconciler) (service : Service) (pods : List Pod) (pod : Pod) : Prop where
  eligible : ShouldPodBeInEndpoints pod true = true
  located : Located r service pod
  lookedUp : ∀ pod' ∈ pods, ShouldPodBeInEndpoints pod' true = true → LookedUp r pod'

theorem reconcileByAddressType_valid [r.hasher.Perfect] (hnames : (existing.map (·.name)).Nodup)
    (hnamed : ∀ s ∈ existing, s.name ≠ "")
    (htype : ∀ s ∈ existing, s.addressType = addressType)
    (hpods : ∀ pod ∈ pods, Published r service pods pod →
      AnnotatedWith r (ValidAddress addressType · = true) pod) (o : TypeOrders r.hasher) :
    Logged Valid server (r.reconcileByAddressType api o service pods existing triggerTime addressType
      server).1 := by
  unfold reconcileByAddressType
  cases hdesired : pods.foldlM (r.addPod service addressType) (∅, []) with
  | error e => exact .refl server
  | ok acc =>
    obtain ⟨desired, errs⟩ := acc
    have hfine : Fine r addressType (ValidAddress addressType · = true) desired :=
      foldlM_addPod (fun pod hpod _ _ h hadd => h.addPod (fun heligible hlocated =>
        hpods pod hpod ⟨heligible, hlocated, lookedUp_of_foldlM hdesired⟩) hadd) fine_empty hdesired
    have hnames' : ((existing.map (r.sortInPlace service desired)).map (·.name)).Nodup := by
      rwa [map_name_sortInPlace]
    obtain ⟨kept, -, hsettled, -⟩ := changesOf_settled service o
      (fun hd => ⟨(hfine _ _ hd).ports, (hfine _ _ hd).addressType⟩) hnames'
      (List.forall_mem_map.mpr fun s hs => by rw [name_sortInPlace]; exact hnamed s hs)
      (List.forall_mem_map.mpr fun s hs => by rw [addressType_sortInPlace]; exact htype s hs)
    refine Logged.finalize valid_of_anonymous fun s hs => hsettled.valid hfine s ?_
    rw [List.append_assoc]
    exact List.mem_append_right _ hs

theorem logged_reconcileNext {written : EndpointSlice → Prop} {o : Orders r.hasher}
    (todo : List AddressType) (acc : ApiServer × List Error)
    (hnext : ∀ t ∈ todo, ∀ acc : ApiServer × List Error, Logged written acc.1
      (r.reconcileNext api o service pods existing triggerTime acc t).1) :
    Logged written acc.1
      (todo.foldl (r.reconcileNext api o service pods existing triggerTime) acc).1 := by
  induction todo generalizing acc with
  | nil => exact .refl acc.1
  | cons t todo ih =>
    obtain ⟨hhead, htail⟩ := List.forall_mem_cons.mp hnext
    exact (hhead acc).trans (ih _ htail)

theorem logged_deleteNext {written : EndpointSlice → Prop} (slices : List EndpointSlice)
    (acc : ApiServer × List Error) :
    Logged written acc.1 (slices.foldl (deleteNext api service) acc).1 := by
  induction slices generalizing acc with
  | nil => exact .refl acc.1
  | cons slice slices ih =>
    have hfirst : Logged written acc.1 (acc.1.delete api slice.name).1 := .delete slice.name
    have heq : (deleteNext api service acc slice).1 = (acc.1.delete api slice.name).1 := by
      unfold deleteNext
      split
      · rename_i hpair
        rw [hpair]
      · rename_i hpair
        rw [hpair]
    rw [← heq] at hfirst
    exact hfirst.trans (ih _)

theorem Reconcile_valid [r.hasher.Perfect] (hstored : Stored existing)
    (hpods : ∀ addressType ∈ r.getAddressTypesForService service, ∀ pod ∈ pods,
      Published r service pods pod → AnnotatedWith r (ValidAddress addressType · = true) pod)
    (o : Orders r.hasher) :
    Logged Valid server (r.Reconcile api o service pods existing triggerTime server).1 := by
  unfold Reconcile
  refine Logged.trans ?_ (logged_deleteNext _ _)
  refine logged_reconcileNext _ (server, []) fun addressType htype acc => ?_
  have hsub : (existing.filter (·.addressType = addressType)).Sublist existing :=
    List.filter_sublist
  exact reconcileByAddressType_valid ((hsub.map _).nodup hstored.nodup)
    (fun s hs => hstored.named s (hsub.mem hs))
    (fun s hs => of_decide_eq_true (List.mem_filter.mp hs).2)
    (hpods addressType (o.addressTypes.mem_visit.mp htype)) _

/-! ## Addresses that are written again

Slices with all the desired endpoints are written again to remove their hints, also for a service
that is being deleted, for which none is created. -/

/-- The slice with a name and with hints. -/
def hintedSlice (n : Nat) (s : EndpointSlice) : EndpointSlice :=
  { s with
    name := String.ofList (List.replicate (n + 1) 'x')
    endpoints := s.endpoints.map fun endpoint => { endpoint with hints := some [] } }

def hinted (slices : List EndpointSlice) : List EndpointSlice :=
  slices.zipIdx.map fun e => hintedSlice e.2 e.1

theorem view_hintedSlice (n : Nat) (s : EndpointSlice) : r.view (hintedSlice n s) = r.view s := by
  have hmap : (hintedSlice n s).endpoints.map blank = s.endpoints.map blank := by
    rw [hintedSlice, List.map_map]
    rfl
  rw [view, hmap]
  rfl

theorem map_view_hinted (slices : List EndpointSlice) :
    (hinted slices).map r.view = slices.map r.view := by
  have hmap : slices.map r.view = slices.zipIdx.map (r.view ∘ Prod.fst) := by
    rw [← List.map_map, List.zipIdx_map_fst]
  rw [hinted, List.map_map, hmap]
  exact List.map_congr_left fun e _ => view_hintedSlice e.2 e.1

theorem stored_hinted (slices : List EndpointSlice) : Stored (hinted slices) where
  nodup := by
    have hname : Function.Injective fun n => String.ofList (List.replicate (n + 1) 'x') := by
      intro m n heq
      have hlength := congrArg List.length (String.ofList_injective heq)
      rw [List.length_replicate, List.length_replicate] at hlength
      omega
    have hmap : (hinted slices).map (·.name) = (slices.zipIdx.map Prod.snd).map
        fun n => String.ofList (List.replicate (n + 1) 'x') := by
      rw [hinted, List.map_map, List.map_map]
      rfl
    rw [hmap, List.zipIdx_map_snd]
    exact List.Nodup.map hname List.nodup_range'
  named := by
    refine List.forall_mem_map.mpr fun e _ heq => ?_
    have hlength := congrArg String.length heq
    rw [hintedSlice, String.length_ofList, List.length_replicate] at hlength
    exact Nat.succ_ne_zero _ hlength

theorem hints_hinted : ∀ s ∈ hinted slices, ∀ endpoint ∈ s.endpoints, endpoint.hints = some [] := by
  refine List.forall_mem_map.mpr fun e _ => ?_
  exact List.forall_mem_map.mpr fun endpoint _ => rfl

/-- When only updates are to be made, they are. -/
theorem calls_finalize_update (hok : ∀ n, api.outcome n = none) (toUpdate : List EndpointSlice) :
    (finalize api service ⟨[], toUpdate, []⟩ triggerTime server).1.calls =
      server.calls ++ toUpdate.map fun slice =>
        ApiCall.update <| addTriggerTimeAnnotation slice triggerTime := by
  unfold finalize
  simp only [recycleSlices, ite_self, callEach]
  rw [callEach_of_ok fun server slice => by rw [ApiServer.update, call_of_ok hok]]
  exact (foldl_update hok triggerTime toUpdate server).2

/-- Settled slices with hints are written again, with all their addresses. -/
theorem reconcileByAddressType_writes [r.hasher.Perfect] (hok : ∀ n, api.outcome n = none)
    {errs : List Error}
    (hdesired : pods.foldlM (r.addPod service addressType) (∅, []) = .ok (desired, errs))
    (hsettled : Settled r service addressType desired existing)
    (hhints : ∀ s ∈ existing, ∀ endpoint ∈ s.endpoints, endpoint.hints = some [])
    (haddress : HasAddress desired address) (o : TypeOrders r.hasher) :
    ∃ s made, (r.reconcileByAddressType api o service pods existing triggerTime addressType
        server).1.calls = server.calls ++ made ∧ .update s ∈ made ∧ s.addressType = addressType ∧
      ∃ endpoint ∈ s.endpoints, address ∈ endpoint.addresses := by
  have hsettled' : Settled r service addressType desired
      (existing.map (r.sortInPlace service desired)) :=
    hsettled.of_view (.of_eq map_view_sortInPlace.symm)
  have hhints' : ∀ s ∈ existing.map (r.sortInPlace service desired), ∀ endpoint ∈ s.endpoints,
      endpoint.hints = some [] := by
    refine List.forall_mem_map.mpr fun s hs endpoint hendpoint => ?_
    have hmem := List.mem_map_of_mem (f := (·.hints)) hendpoint
    rw [hints_sortInPlace] at hmem
    obtain ⟨endpoint', hendpoint', heq⟩ := List.mem_map.mp hmem
    exact heq.symm.trans (hhints s hs endpoint' hendpoint')
  have hcalls : (r.reconcileByAddressType api o service pods existing triggerTime addressType
      server).1 = (finalize api service (r.changesOf service addressType o
        (existing.map (r.sortInPlace service desired)) desired) triggerTime server).1 := by
    unfold reconcileByAddressType
    rw [hdesired]
    rfl
  rw [hcalls]
  generalize existing.map (r.sortInPlace service desired) = slices at hsettled' hhints' ⊢
  have hunchanged : unchangedSlices slices [] [] = slices :=
    List.filter_eq_self.mpr fun s _ => decide_eq_true ⟨List.not_mem_nil, List.not_mem_nil⟩
  have hchanges : r.changesOf service addressType o slices desired = ⟨[],
      (slices.filter fun slice => slice.endpoints.any (·.hints.isSome)).map withoutHints, []⟩ := by
    rw [changesOf, changesByPortMap_settled hsettled' o, hunchanged]
    rfl
  rw [hchanges, calls_finalize_update hok]
  obtain ⟨s, hs, endpoint, hendpoint, hmem⟩ := hsettled'.exists_address haddress
  have hany : s.endpoints.any (·.hints.isSome) = true :=
    List.any_eq_true.mpr ⟨endpoint, hendpoint, by rw [hhints' s hs endpoint hendpoint]; rfl⟩
  have hkept : s ∈ slices.filter fun slice => slice.endpoints.any (·.hints.isSome) :=
    List.mem_filter.mpr ⟨hs, hany⟩
  have hmade := List.mem_map_of_mem
    (f := fun slice => ApiCall.update <| addTriggerTimeAnnotation slice triggerTime)
    (List.mem_map_of_mem (f := withoutHints) hkept)
  exact ⟨_, _, rfl, hmade, hsettled'.ofType s hs, { endpoint with hints := none },
    List.mem_map_of_mem hendpoint, hmem⟩

/-- What is desired can be stored, with hints. -/
theorem exists_hinted (service : Service) (hg : Grouped r addressType desired)
    (o : TypeOrders r.hasher) : ∃ slices, Stored slices ∧
      Settled r service addressType desired slices ∧
      ∀ s ∈ slices, ∀ endpoint ∈ s.endpoints, endpoint.hints = some [] := by
  have hnames : (([] : List EndpointSlice).map (·.name)).Nodup := List.nodup_nil
  obtain ⟨kept, -, hsettled, -⟩ := changesOf_settled service o hg hnames
    (List.forall_mem_nil _) (List.forall_mem_nil _)
  exact ⟨_, stored_hinted _, hsettled.of_view (.of_eq (map_view_hinted _).symm), hints_hinted⟩

/-- An address of a pod that gets an endpoint is written by some call, whatever the service is. -/
theorem exists_written [r.hasher.Perfect] (hok : ∀ n, api.outcome n = none) (hpod : pod ∈ pods)
    (hpublished : Published r service pods pod)
    (htype : addressType ∈ r.getAddressTypesForService service)
    (haddress : address ∈ (r.endpointOf service pod).addresses) (o : Orders r.hasher) :
    ∃ existing, Stored existing ∧ ∃ s made,
      (r.Reconcile api o service pods existing triggerTime server).1.calls = server.calls ++ made ∧
      .update s ∈ made ∧ s.addressType = addressType ∧
      ∃ endpoint ∈ s.endpoints, address ∈ endpoint.addresses := by
  obtain ⟨⟨desired, errs⟩, hdesired⟩ : ∃ acc,
      pods.foldlM (r.addPod service addressType) (∅, []) = .ok acc :=
    exists_foldlM_addPod _ hpublished.lookedUp
  have hfine : Fine r addressType (fun _ => True) desired :=
    foldlM_addPod (fun pod _ _ _ h hadd => h.addPod (fun _ _ _ _ _ => trivial) hadd) fine_empty
      hdesired
  have hdesiredAddress : HasAddress desired address :=
    hasAddress_foldlM hpod hpublished.eligible hpublished.located haddress hdesired
  obtain ⟨existing, hstored, hsettled, hhints⟩ := exists_hinted service
    (fun hd => ⟨(hfine _ _ hd).ports, (hfine _ _ hd).addressType⟩) (o.ofType addressType)
  refine ⟨existing, hstored, ?_⟩
  have hfilter : existing.filter (·.addressType = addressType) = existing :=
    List.filter_eq_self.mpr fun s hs => decide_eq_true (hsettled.ofType s hs)
  -- The calls for the other address types come before and after.
  have hlogged : ∀ (todo : List AddressType) (acc : ApiServer × List Error),
      Logged (fun _ => True) acc.1
        (todo.foldl (r.reconcileNext api o service pods existing triggerTime) acc).1 := by
    refine fun todo acc => logged_reconcileNext todo acc fun t _ acc => ?_
    show Logged _ acc.1 (r.reconcileByAddressType api _ service pods _ triggerTime t acc.1).1
    unfold reconcileByAddressType
    split
    · exact .refl acc.1
    · exact Logged.finalize (fun _ _ => trivial) fun _ _ => trivial
  obtain ⟨before, after, hvisit⟩ := List.append_of_mem (o.addressTypes.mem_visit.mpr htype)
  unfold Reconcile
  simp only
  rw [hvisit, List.foldl_append, List.foldl_cons]
  obtain ⟨made₁, hmade₁, -⟩ := hlogged before (server, [])
  generalize before.foldl (r.reconcileNext api o service pods existing triggerTime) (server, []) =
    acc at hmade₁ ⊢
  obtain ⟨s, made₂, hmade₂, hupdate, hrest⟩ : ∃ s made, (r.reconcileByAddressType api
      (o.ofType addressType) service pods existing triggerTime addressType acc.1).1.calls =
      acc.1.calls ++ made ∧ .update s ∈ made ∧ s.addressType = addressType ∧
      ∃ endpoint ∈ s.endpoints, address ∈ endpoint.addresses :=
    reconcileByAddressType_writes hok hdesired hsettled hhints hdesiredAddress _
  obtain ⟨made₃, hmade₃, -⟩ := (hlogged after
    (r.reconcileNext api o service pods existing triggerTime acc addressType)).trans
    (logged_deleteNext _ _)
  have hnext : (r.reconcileNext api o service pods existing triggerTime acc addressType).1.calls =
      acc.1.calls ++ made₂ := by
    rw [reconcileNext, hfilter]
    exact hmade₂
  refine ⟨s, made₁ ++ made₂ ++ made₃, ?_, ?_, hrest⟩
  · rw [hmade₃, hnext, hmade₁, List.append_assoc, List.append_assoc, List.append_assoc]
  · exact List.mem_append_left _ (List.mem_append_right _ hupdate)

/-- Nothing is stored yet. -/
def emptyServer : ApiServer where
  slices := []
  calls := []
  nodup := List.nodup_nil
  named := List.forall_mem_nil _

/-- The calls for some pods of a service write valid addresses only, whatever slices exist and
whichever calls fail, exactly when the annotation of each pod that gets an endpoint gives a valid
address in all families of the service. -/
theorem Reconcile_valid_iff [r.hasher.Perfect] :
    (∀ existing, Stored existing → ∀ (api : Api) (o : Orders r.hasher) (triggerTime : Option String)
      (server : ApiServer),
      Logged Valid server (r.Reconcile api o service pods existing triggerTime server).1) ↔
    ∀ addressType ∈ r.getAddressTypesForService service, ∀ pod ∈ pods,
      Published r service pods pod → AnnotatedWith r (ValidAddress addressType · = true) pod := by
  refine ⟨fun hvalid addressType htype pod hpod hpublished val hval hne => ?_,
    fun hpods existing hstored api o triggerTime server => Reconcile_valid hstored hpods o⟩
  have hok : ∀ n, quietApi.outcome n = none := fun _ => rfl
  obtain ⟨existing, hstored, s, made, hmade, hupdate, hs, endpoint, hendpoint, haddress⟩ :=
    @exists_written r service addressType pods _ pod quietApi emptyServer none _ hok hpod hpublished
      htype (mem_addresses_endpointOf hval hne) ⟨.stored, fun _ => storedOrders _⟩
  obtain ⟨made', hmade', hvalid'⟩ := hvalid existing hstored quietApi
    ⟨.stored, fun _ => storedOrders _⟩ none emptyServer
  obtain rfl : made = made' := List.append_cancel_left (hmade.symm.trans hmade')
  rw [← hs]
  exact hvalid' _ hupdate s rfl endpoint hendpoint _ haddress

/-- A reconciler that does not find one of the nodes. -/
noncomputable def lostNodeReconciler : Reconciler :=
  { webReconciler with
    nodeLister := fun name => if name = "node-2" then .error .notFound else .ok ⟨∅⟩ }

/-- A pod whose annotation is no address, on the node that is not found. -/
def lostPod : Pod := { webPod "1" "x" .true with name := "web-1", nodeName := "node-2" }

theorem webPod_written :
    Logged Valid webServer (lostNodeReconciler.Reconcile quietApi
      ⟨.stored, fun _ => storedOrders _⟩ webService [webPod "1" "10.20.0.5" .true, lostPod]
      webServer.slices none webServer).1 := by
  have hperfect : lostNodeReconciler.hasher.Perfect := perfect_someHasher
  refine Reconcile_valid_iff.mpr ?_ webServer.slices ⟨webServer.nodup, webServer.named⟩ _ _ _ _
  rintro addressType htype pod hpod hpublished val hval -
  obtain rfl : addressType = .ipv4 := List.mem_singleton.mp htype
  rcases List.mem_cons.mp hpod with rfl | hpod
  · obtain rfl : "10.20.0.5" = val := Option.some_inj.mp hval
    show ValidAddress .ipv4 (Net.IP.string (Net.ParseIP "10.20.0.5")) = true
    decide
  · obtain rfl := List.mem_singleton.mp hpod
    rcases hpublished.located with ⟨node, hnode⟩ | hpublish
    · cases hnode
    · cases hpublish

/-- When there is no slice yet, the calls create what represents the pods. -/
theorem reconcileByAddressType_creates [r.hasher.Perfect] (hok : ∀ n, api.outcome n = none)
    (hdeletion : service.deletionTimestamp = none)
    (hpods : (pods.map fun pod => (pod.ns, pod.name)).Nodup)
    (hnodes : ∀ pod ∈ pods, ∃ node, r.nodeLister pod.nodeName = .ok node) (o : TypeOrders r.hasher) :
    ∃ slices, Represents r service pods slices ∧
      (r.reconcileByAddressType api o service pods [] triggerTime addressType server).1.calls =
        server.calls ++ slices.map fun s => .create <| addTriggerTimeAnnotation s triggerTime := by
  obtain ⟨desired, hdesired, hg⟩ := exists_gathered service addressType hpods hnodes
  have hnames : (([] : List EndpointSlice).map (·.name)).Nodup := List.nodup_nil
  obtain ⟨kept, hsplit, hsettled, -⟩ := changesOf_settled service o hg.grouped hnames
    (List.forall_mem_nil _) (List.forall_mem_nil _)
  rw [reconcileByAddressType_eq hdesired, List.map_nil, finalize_eq hok hdeletion]
  generalize r.changesOf service addressType o [] desired = changes at hsplit hsettled ⊢
  obtain ⟨toCreate, toUpdate, toDelete⟩ := changes
  have hnil := List.map_eq_nil_iff.mp hsplit.names.eq_nil
  obtain ⟨hkept, rfl : toDelete = []⟩ := List.append_eq_nil_iff.mp hnil
  obtain ⟨rfl, rfl : toUpdate = []⟩ := List.append_eq_nil_iff.mp hkept
  refine ⟨toCreate, hsettled.represents hg, ?_⟩
  obtain ⟨-, -, -, hcalls⟩ := foldl_create hok triggerTime toCreate server
  exact hcalls

theorem webPod_writes_nil :
    ¬ Logged Valid emptyServer (webReconciler.Reconcile quietApi ⟨.stored, fun _ => storedOrders _⟩
      webService [webPod "1" "x" .true] [] none emptyServer).1 := by
  rintro ⟨made, hmade, hvalid⟩
  obtain ⟨slices, hslices, hcalls⟩ : ∃ slices,
      Represents webReconciler webService [webPod "1" "x" .true] slices ∧
      (webReconciler.reconcileByAddressType quietApi (storedOrders _) webService
        [webPod "1" "x" .true] [] none .ipv4 emptyServer).1.calls =
        [] ++ slices.map fun s => .create <| addTriggerTimeAnnotation s none := by
    refine reconcileByAddressType_creates (fun _ => rfl) rfl ?_ (fun _ _ => ⟨⟨∅⟩, rfl⟩) _
    exact List.nodup_singleton _
  obtain rfl : slices.map (fun s => .create <| addTriggerTimeAnnotation s none) = made :=
    hcalls.symm.trans hmade
  obtain ⟨endpoints, hperm, hsame⟩ := hslices (some [⟨some "http", some .tcp, some 8080, none⟩])
  have hdesired : webReconciler.desiredEndpoints webService [webPod "1" "x" .true]
      (some [⟨some "http", some .tcp, some 8080, none⟩]) =
      [webReconciler.endpointOf webService (webPod "1" "x" .true)] := rfl
  rw [hdesired] at hsame
  obtain ⟨e, rest, ⟨hhash, -⟩, -, rfl⟩ := List.forall₂_cons_left_iff.mp hsame
  obtain ⟨s, hs, he⟩ := List.mem_flatMap.mp (hperm.mem_iff.mp List.mem_cons_self)
  have hnil : "<nil>" ∈ e.addresses :=
    mem_addresses_of_hash hhash.symm (List.mem_singleton.mpr rfl)
  have hbad := hvalid _ (List.mem_map_of_mem (List.mem_of_mem_filter hs)) _ rfl e he "<nil>" hnil
  have hnone : ∀ addressType, ValidAddress addressType "<nil>" = false := by
    intro addressType
    cases addressType with
    | ipv4 => decide
    | ipv6 => decide
    | fqdn => decide
  rw [hnone] at hbad
  cases hbad

end Reconciler

end Fleetboard.EndpointSlices

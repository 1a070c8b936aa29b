import Fleetboard.Proof.EndpointSliceCache
import Fleetboard.Model.ServiceImportMap

/-!
# Service ports and endpoint ports

The proxy joins the ports of a service import and those of an endpoint slice on
a `ServicePortName`, in which both stand by their position: the import's ports in
their own order, the slice's in the order of their numbers. Both store a port of
one name under one key exactly when the slice's numbers, read in the order of the
import's ports, are increasing (`portsMeet_iff`); only then does the traffic to a
service port go to the endpoint port of the same name.
-/

namespace Fleetboard.Proxy

variable {cfg : Config} {si : ImportSpec} {slice : EndpointSlice}

/-- An import and a slice of its service, whose ports have the same names and
protocols. -/
structure PortsMatch (si : ImportSpec) (slice : EndpointSlice) : Prop where
  hasIP : ∃ ip ips, si.ips = ip :: ips ∧ ip ≠ ""
  nameLabel : slice.labels.lookup Known.LabelServiceName = some si.name
  nsLabel : slice.labels.lookup Known.LabelServiceNameSpace = some si.ns
  importNames : (si.ports.map (·.name)).Nodup
  sliceNames : (slice.ports.map (·.name)).Nodup
  samePorts : ∀ n protocol, (∃ p ∈ si.ports, p.name = n ∧ p.protocol = protocol) ↔
    ∃ q ∈ slice.ports, q.name = some n ∧ q.protocol = some protocol
  numbered : ∀ q ∈ slice.ports, q.name ≠ none ∧ q.protocol ≠ none ∧ ∃ n, q.port = some n ∧ n ≠ 0

/-- The import's service map has the port of the name under the key. -/
def ImportKey (cfg : Config) (si : ImportSpec) (n : String) (spn : ServicePortName) : Prop :=
  ∃ m info, serviceImportToServiceMap cfg (some si) = some m ∧ m.lookup spn = some info ∧
    info.portName = n

/-- The slice's port of the name is used for the key. -/
def SliceKey (cfg : Config) (slice : EndpointSlice) (n : String) (spn : ServicePortName) : Prop :=
  ∃ info, newEndpointSliceInfo cfg slice false = .ok (some info) ∧
    ∃ p ∈ info.ports.zipIdx, p.1.name = some n ∧ ∃ k, UsesPort info.nn p.1 p.2 spn k

/-- Both store the ports of one name under one key. -/
def PortsMeet (cfg : Config) (si : ImportSpec) (slice : EndpointSlice) : Prop :=
  ∀ n spn, ImportKey cfg si n spn ↔ SliceKey cfg slice n spn

/-- Under the key of a service port stand the endpoints of the slice's port of
the same name, and no others. -/
def TrafficMeets (cfg : Config) (si : ImportSpec) (slice : EndpointSlice) : Prop :=
  ∀ info order name m, newEndpointSliceInfo cfg slice false = .ok (some info) →
    endpointInfoByServicePort cfg order ((∅ : GoMap String EndpointSliceInfo).insert name info) =
      .ok m →
    ∀ n spn str, ImportKey cfg si n spn →
      (SpHas m spn str ↔
        ∃ p ∈ slice.ports, p.name = some n ∧ HasEndpoint cfg info.endpoints (portKey p) str)

/-- The slice's port of a name. -/
def slicePort (slice : EndpointSlice) (n : String) : Option EndpointPort :=
  slice.ports.find? fun q => q.name = some n

/-- The slice's ports in the order of the import's. -/
def portsInOrder (si : ImportSpec) (slice : EndpointSlice) : List EndpointPort :=
  si.ports.filterMap fun p => slicePort slice p.name

/-! ## The keys -/

theorem toString_nat_inj {i j : Nat} : toString i = toString j ↔ i = j :=
  ⟨fun h => Nat.repr_injective h, congrArg _⟩

/-- The entry of a port in the map of an import with this address. -/
def portEntry (cfg : Config) (si : ImportSpec) (ip : String) (p : ImportPort × Nat) :
    (_ : ServicePortName) × ServicePortInfo :=
  ⟨⟨⟨si.ns, si.name⟩, toString p.2, p.1.protocol⟩, newServiceInfo cfg ip p.1⟩

theorem serviceImportToServiceMap_eq {ip : String} {ips : List String} (hips : si.ips = ip :: ips)
    (hne : ip ≠ "") : serviceImportToServiceMap cfg (some si) =
      some ((si.ports.zipIdx.map (portEntry cfg si ip)).foldl (fun m e => m.insert e.1 e.2) ∅) := by
  simp only [serviceImportToServiceMap, hips, if_neg hne, List.foldl_map, portEntry]

/-- The import's port stands under its position. -/
theorem importKey_iff (h : PortsMatch si slice) {n : String} {spn : ServicePortName} :
    ImportKey cfg si n spn ↔ ∃ (i : Nat) (p : ImportPort), si.ports[i]? = some p ∧ p.name = n ∧
      spn = ⟨⟨si.ns, si.name⟩, toString i, p.protocol⟩ := by
  obtain ⟨ip, ips, hips, hne⟩ := h.hasIP
  -- Keys of different positions differ, so that each entry is found under its own.
  have huniq : ∀ p ∈ si.ports.zipIdx, ∀ e ∈ si.ports.zipIdx.map (portEntry cfg si ip),
      e.1 = (portEntry cfg si ip p).1 → e.2 = newServiceInfo cfg ip p.1 := by
    rintro ⟨p, i⟩ hp e he hkey
    obtain ⟨⟨q, j⟩, hq, rfl⟩ := List.mem_map.mp he
    obtain rfl : j = i := toString_nat_inj.mp (congrArg ServicePortName.port hkey)
    rw [List.mem_zipIdx_iff_getElem?] at hp hq
    rw [Option.some_inj.mp (hp.symm.trans hq)]
    rfl
  rw [ImportKey]
  simp only [serviceImportToServiceMap_eq hips hne, Option.some_inj, exists_eq_left',
    exists_and_left]
  constructor
  · rintro ⟨info, hl, rfl⟩
    by_cases hmem : ∃ p ∈ si.ports.zipIdx, (portEntry cfg si ip p).1 = spn
    · obtain ⟨⟨p, i⟩, hp, rfl⟩ := hmem
      rw [GoMap.lookup_foldl_insert_of_mem (huniq _ hp)
        (.inl ⟨_, List.mem_map_of_mem hp, rfl⟩)] at hl
      rw [← Option.some_inj.mp hl]
      exact ⟨i, p, List.mem_zipIdx_iff_getElem?.mp hp, rfl, rfl⟩
    · rw [GoMap.lookup_foldl_insert_of_notMem] at hl
      · cases hl
      · intro e he hkey
        obtain ⟨p, hp, rfl⟩ := List.mem_map.mp he
        exact hmem ⟨p, hp, hkey⟩
  · rintro ⟨i, p, hp, rfl, rfl⟩
    have hp' : (p, i) ∈ si.ports.zipIdx := List.mem_zipIdx_iff_getElem?.mpr hp
    exact ⟨newServiceInfo cfg ip p, GoMap.lookup_foldl_insert_of_mem (huniq _ hp')
      (.inl ⟨_, List.mem_map_of_mem hp', rfl⟩), rfl⟩

/-- What the proxy keeps of the slice. -/
theorem newEndpointSliceInfo_eq (h : PortsMatch si slice) (cfg : Config) :
    newEndpointSliceInfo cfg slice false = .ok (some
      { ports := cfg.byPort.run slice.ports
        endpoints := cfg.byAddress.run (slice.endpoints.map (newEndpointInfo cfg))
        remove := false
        nn := ⟨si.ns, si.name⟩ }) := by
  have hsort : sortPorts cfg slice.ports = .ok (cfg.byPort.run slice.ports) := by
    rw [sortPorts, if_neg]
    rintro ⟨-, q, hq, hnone⟩
    obtain ⟨-, -, n, hn, -⟩ := h.numbered q hq
    rw [hnone] at hn
    cases hn
  rw [newEndpointSliceInfo, h.nameLabel, h.nsLabel]
  simp only [hsort]
  rfl

/-- The slice's port stands under its position after sorting. -/
theorem sliceKey_iff (h : PortsMatch si slice) {n : String} {spn : ServicePortName} :
    SliceKey cfg slice n spn ↔ ∃ (i : Nat) (q : EndpointPort), (cfg.byPort.run slice.ports)[i]? = some q ∧
      q.name = some n ∧ spn.nn = ⟨si.ns, si.name⟩ ∧ spn.port = toString i ∧
      q.protocol = some spn.protocol := by
  rw [SliceKey, newEndpointSliceInfo_eq h]
  simp only [Except.ok.injEq, Option.some_inj, exists_eq_left']
  constructor
  · rintro ⟨⟨q, i⟩, hq, hname, k, hu⟩
    exact ⟨i, q, List.mem_zipIdx_iff_getElem?.mp hq, hname, hu.nn_eq, hu.port_eq, hu.protocol_eq⟩
  · rintro ⟨i, q, hq, hname, hnn, hport, hprotocol⟩
    have hmem : q ∈ slice.ports := cfg.byPort.mem_run.mp (List.mem_of_getElem? hq)
    obtain ⟨hn, -, k, hk, hk0⟩ := h.numbered q hmem
    exact ⟨(q, i), List.mem_zipIdx_iff_getElem?.mpr hq, hname, k, hn, hk, hk0, hnn, hport, hprotocol⟩

/-! ## The slice's ports in the import's order -/

theorem PortsMatch.eq_of_name (h : PortsMatch si slice) {q q' : EndpointPort} (hq : q ∈ slice.ports)
    (hq' : q' ∈ slice.ports) (hname : q.name = q'.name) : q = q' :=
  List.inj_on_of_nodup_map h.sliceNames hq hq' hname

/-- The slice's port for a port of the import. -/
theorem PortsMatch.slicePort_eq (h : PortsMatch si slice) {p : ImportPort} (hp : p ∈ si.ports) :
    ∃ q ∈ slice.ports, slicePort slice p.name = some q ∧ q.name = some p.name ∧
      q.protocol = some p.protocol := by
  obtain ⟨q, hq, hname, hprotocol⟩ := (h.samePorts p.name p.protocol).mp ⟨p, hp, rfl, rfl⟩
  have hsome : (slicePort slice p.name).isSome :=
    List.find?_isSome.mpr ⟨q, hq, decide_eq_true hname⟩
  obtain ⟨q', hq'⟩ := Option.isSome_iff_exists.mp hsome
  have hname' : q'.name = some p.name := by simpa using List.find?_some hq'
  obtain rfl := h.eq_of_name hq (List.mem_of_find?_eq_some hq') (hname.trans hname'.symm)
  exact ⟨q, hq, hq', hname, hprotocol⟩

theorem PortsMatch.getElem?_portsInOrder (h : PortsMatch si slice) (i : Nat) :
    (portsInOrder si slice)[i]? = si.ports[i]?.bind fun p => slicePort slice p.name := by
  have hmap : ∀ ports : List ImportPort, (∀ p ∈ ports, p ∈ si.ports) →
      (ports.filterMap fun p => slicePort slice p.name)[i]? =
        ports[i]?.bind fun p => slicePort slice p.name := by
    intro ports
    induction ports generalizing i with
    | nil => exact fun _ => rfl
    | cons p ports ih =>
      intro hsub
      obtain ⟨q, -, hfind, -⟩ := h.slicePort_eq (hsub p List.mem_cons_self)
      rw [List.filterMap_cons, hfind]
      cases i with
      | zero => exact hfind.symm
      | succ i => exact ih i fun p hp => hsub p (List.mem_cons_of_mem _ hp)
  exact hmap si.ports fun _ hp => hp

theorem PortsMatch.mem_portsInOrder (h : PortsMatch si slice) {q : EndpointPort} :
    q ∈ portsInOrder si slice ↔ q ∈ slice.ports := by
  rw [portsInOrder, List.mem_filterMap]
  constructor
  · rintro ⟨p, -, hfind⟩
    exact List.mem_of_find?_eq_some hfind
  · intro hq
    obtain ⟨hname, hprotocol, -⟩ := h.numbered q hq
    obtain ⟨n, hn⟩ := Option.ne_none_iff_exists'.mp hname
    obtain ⟨protocol, hpr⟩ := Option.ne_none_iff_exists'.mp hprotocol
    obtain ⟨p, hp, rfl, -⟩ := (h.samePorts n protocol).mpr ⟨q, hq, hn, hpr⟩
    obtain ⟨q', hq', hfind, hname', -⟩ := h.slicePort_eq hp
    obtain rfl := h.eq_of_name hq hq' (hn.trans hname'.symm)
    exact ⟨p, hp, hfind⟩

theorem PortsMatch.portsInOrder_perm (h : PortsMatch si slice) :
    (portsInOrder si slice).Perm slice.ports := by
  have hnames : (portsInOrder si slice).map (·.name) = si.ports.map fun p => some p.name := by
    refine List.ext_getElem? fun i => ?_
    rw [List.getElem?_map, List.getElem?_map, h.getElem?_portsInOrder]
    cases hp : si.ports[i]? with
    | none => rfl
    | some p =>
      obtain ⟨q, -, hfind, hname, -⟩ := h.slicePort_eq (List.mem_of_getElem? hp)
      simp [hfind, hname]
  have hnodup : (portsInOrder si slice).Nodup := by
    refine List.Nodup.of_map (·.name) ?_
    rw [hnames]
    exact List.map_map (g := some) ▸ h.importNames.map (Option.some_injective _)
  exact (List.perm_ext_iff_of_nodup hnodup h.sliceNames.of_map).mpr fun q => h.mem_portsInOrder

/-- The keys agree when the sort leaves the slice's ports in the import's order. -/
theorem portsMeet_iff_run_eq (h : PortsMatch si slice) :
    PortsMeet cfg si slice ↔ cfg.byPort.run slice.ports = portsInOrder si slice := by
  constructor
  · intro hmeet
    have hlen : (cfg.byPort.run slice.ports).length = (portsInOrder si slice).length := by
      rw [KeySort.length_run, h.portsInOrder_perm.length_eq]
    refine List.ext_getElem? fun i => ?_
    cases hp : si.ports[i]? with
    | none =>
      have hnone : (portsInOrder si slice)[i]? = none := by rw [h.getElem?_portsInOrder, hp]; rfl
      rw [hnone]
      rw [List.getElem?_eq_none_iff] at hnone ⊢
      exact hlen ▸ hnone
    | some p =>
      obtain ⟨q, hq, hfind, hname, -⟩ := h.slicePort_eq (List.mem_of_getElem? hp)
      have hkey := (hmeet p.name _).mp ((importKey_iff h).mpr ⟨i, p, hp, rfl, rfl⟩)
      obtain ⟨j, q', hq', hname', -, hport, -⟩ := (sliceKey_iff h).mp hkey
      obtain rfl := toString_nat_inj.mp hport
      have hmem : q' ∈ slice.ports := cfg.byPort.mem_run.mp (List.mem_of_getElem? hq')
      rw [h.getElem?_portsInOrder, hp, hq', h.eq_of_name hmem hq (hname'.trans hname.symm)]
      exact hfind.symm
  · intro hrun n spn
    rw [importKey_iff h, sliceKey_iff h, hrun]
    simp only [h.getElem?_portsInOrder]
    constructor
    · rintro ⟨i, p, hp, rfl, rfl⟩
      obtain ⟨q, -, hfind, hname, hprotocol⟩ := h.slicePort_eq (List.mem_of_getElem? hp)
      exact ⟨i, q, by rw [hp]; exact hfind, hname, rfl, rfl, hprotocol⟩
    · rintro ⟨i, q, hq, hname, hnn, hport, hprotocol⟩
      obtain ⟨p, hp, hfind⟩ := Option.bind_eq_some_iff.mp hq
      obtain ⟨q', -, hfind', hname', hprotocol'⟩ := h.slicePort_eq (List.mem_of_getElem? hp)
      obtain rfl := Option.some_inj.mp (hfind.symm.trans hfind')
      refine ⟨i, p, hp, Option.some_inj.mp (hname'.symm.trans hname), ?_⟩
      rw [← hnn, ← hport, Option.some_inj.mp (hprotocol'.symm.trans hprotocol)]

/-! ## Where the traffic goes -/

theorem trafficMeets_of_portsMeet (h : PortsMatch si slice) (hmeet : PortsMeet cfg si slice) :
    TrafficMeets cfg si slice := by
  intro info order name m hinfo hm n spn str hkey
  rw [(endpointInfoByServicePort_spec hm).2]
  -- The group is the one slice.
  have hgroup : GroupHas cfg ((∅ : GoMap String EndpointSliceInfo).insert name info) spn str ↔
      Contributes cfg info spn str := by
    constructor
    · rintro ⟨name', info', hl, hc⟩
      rw [GoMap.lookup_insert_eq] at hl
      split at hl
      · rwa [Option.some_inj.mp hl]
      · cases hl
    · intro hc
      exact ⟨name, info, by rw [GoMap.lookup_insert_eq, if_pos rfl], hc⟩
  rw [hgroup]
  have hports : ∀ p ∈ info.ports.zipIdx, p.1 ∈ slice.ports := by
    intro p hp
    rw [newEndpointSliceInfo_eq h] at hinfo
    cases hinfo
    exact cfg.byPort.mem_run.mp (List.mem_of_getElem? (List.mem_zipIdx_iff_getElem?.mp hp))
  -- A port that is used for the key is the slice's port of the name.
  obtain ⟨info', hinfo', ⟨q, i⟩, hq, hname, k, hu⟩ := (hmeet n spn).mp hkey
  obtain rfl := Option.some_inj.mp (Except.ok.inj (hinfo.symm.trans hinfo'))
  constructor
  · rintro ⟨⟨q', j⟩, hq', k', hu', hep⟩
    obtain rfl := toString_nat_inj.mp (hu.port_eq.symm.trans hu'.port_eq)
    rw [List.mem_zipIdx_iff_getElem?] at hq hq'
    obtain rfl := Option.some_inj.mp (hq.symm.trans hq')
    refine ⟨q, hports (q, i) (List.mem_zipIdx_iff_getElem?.mpr hq), hname, ?_⟩
    rwa [portKey, hu'.number]
  · rintro ⟨q', hq', hname', hep⟩
    obtain rfl := h.eq_of_name hq' (hports _ hq) (hname'.trans hname.symm)
    rw [portKey, hu.number] at hep
    exact ⟨(q', i), hq, k, hu, hep⟩

/-- The ports of one name meet under one key, whatever the sort does with equal
numbers, exactly when the slice's numbers are strictly increasing in the import's
order; for a stable sort, exactly when they are increasing with equal ones in the
slice's order. Then the traffic to a service port goes to the endpoints of the
port of its name. -/
theorem portsMeet_iff (cfg : Config) {si : ImportSpec} {slice : EndpointSlice}
    (h : PortsMatch si slice) :
    ((∀ byPort, PortsMeet { cfg with byPort } si slice) ↔
        (portsInOrder si slice).Pairwise fun a b => portKey a < portKey b) ∧
      (∀ byPort : KeySort portKey, byPort.Stable → (PortsMeet { cfg with byPort } si slice ↔
        (portsInOrder si slice).Pairwise (KeySort.KeyThenPosition portKey slice.ports))) ∧
      ∀ byPort, PortsMeet { cfg with byPort } si slice →
        TrafficMeets { cfg with byPort } si slice := by
  have hnodup : slice.ports.Nodup := h.sliceNames.of_map
  refine ⟨?_, fun byPort hstable => ?_, fun byPort => trafficMeets_of_portsMeet h⟩
  · simp only [portsMeet_iff_run_eq h]
    exact KeySort.forall_run_eq_iff hnodup h.portsInOrder_perm
  · rw [portsMeet_iff_run_eq h]
    exact hstable.run_eq_iff hnodup h.portsInOrder_perm

/-! ## A service whose ports are not in the order of their numbers -/

def webImport : ImportSpec := ⟨"shop", "web", ["10.96.0.7"], [⟨"http", .tcp, 80⟩, ⟨"metrics", .tcp, 81⟩]⟩

/-- A slice of the service with the numbers of its two ports. -/
def webSlice (http metrics : Int) : EndpointSlice where
  ns := "fleetboard"
  name := "web-1"
  labels := (∅ : GoMap String String).insert Known.LabelServiceName "web"
    |>.insert Known.LabelServiceNameSpace "shop"
  addressType := .ipv4
  endpoints := [sampleEndpoint "10.1.0.5"]
  ports := [⟨some "http", some .tcp, some http, none⟩, ⟨some "metrics", some .tcp, some metrics, none⟩]

theorem webSlice_portsMatch {http metrics : Int} (h : http ≠ 0) (h' : metrics ≠ 0) :
    PortsMatch webImport (webSlice http metrics) where
  hasIP := ⟨"10.96.0.7", [], rfl, by decide⟩
  nameLabel := rfl
  nsLabel := rfl
  importNames := by decide
  sliceNames := show [some "http", some "metrics"].Nodup by decide
  samePorts n protocol := by simp [webImport, webSlice, eq_comm]
  numbered q hq := by
    simp only [webSlice, List.mem_cons, List.not_mem_nil, or_false] at hq
    rcases hq with rfl | rfl
    · exact ⟨by simp, by simp, http, rfl, h⟩
    · exact ⟨by simp, by simp, metrics, rfl, h'⟩

theorem portsMeet_web :
    PortsMatch webImport (webSlice 8080 9090) ∧
      (∀ byPort, PortsMeet { sampleConfig with byPort } webImport (webSlice 8080 9090)) ∧
      TrafficMeets sampleConfig webImport (webSlice 8080 9090) := by
  have h := webSlice_portsMatch (show (8080 : Int) ≠ 0 by decide) (show (9090 : Int) ≠ 0 by decide)
  have hmeet := (portsMeet_iff sampleConfig h).1.mpr (by decide)
  exact ⟨h, hmeet, (portsMeet_iff sampleConfig h).2.2 _ (hmeet _)⟩

/-- The endpoints of the slice by service port. -/
def webEndpoints (http metrics : Int) : SpToEndpointMap :=
  ((newEndpointSliceInfo sampleConfig (webSlice http metrics) false >>= fun info =>
    endpointInfoByServicePort sampleConfig .stored
      (info.elim ∅ ((∅ : GoMap String EndpointSliceInfo).insert "web-1"))).getD ∅)

/-- With `http` at 9090 and `metrics` at 8080, the service port `http` leads to
the endpoints of `metrics`. -/
theorem http_leads_to_metrics :
    PortsMatch webImport (webSlice 9090 8080) ∧
      ¬ PortsMeet sampleConfig webImport (webSlice 9090 8080) ∧
      ImportKey sampleConfig webImport "http" ⟨⟨"shop", "web"⟩, "0", .tcp⟩ ∧
      SpHas (webEndpoints 9090 8080) ⟨⟨"shop", "web"⟩, "0", .tcp⟩ "10.1.0.5:8080" ∧
      ¬ SpHas (webEndpoints 9090 8080) ⟨⟨"shop", "web"⟩, "0", .tcp⟩ "10.1.0.5:9090" := by
  have h := webSlice_portsMatch (show (9090 : Int) ≠ 0 by decide) (show (8080 : Int) ≠ 0 by decide)
  refine ⟨h, fun hmeet => ?_, (importKey_iff h).mpr ⟨0, _, rfl, rfl, rfl⟩, ?_, ?_⟩
  · exact absurd ((portsMeet_iff_run_eq h).mp hmeet) (by decide)
  · rw [spHas_iff_getD]
    decide +kernel
  · rw [spHas_iff_getD]
    decide +kernel

end Fleetboard.Proxy

import Fleetboard.Model.CrossDNS
import Fleetboard.Proof.Dns
import Fleetboard.Proof.IPLeak

/-!
# What a query for A records is answered with

* `served_singleton`: a plugin with one zone serves the names in it;
* `parseRequest_service`, `ServeDNS_service`: a query for a service, a cluster of it or a host
  reaches `getDNSRecord` with its labels in their fields;
* `importRecords_headless`, `createARecords_wanted`: a headless import gives the first address of
  every endpoint of the slices that the query is for, whatever host it names;
* `exact_of_allocated`: an import that the import controller has given an IP is answered with it;
* `ServeDNS_exact_iff`: the answer is exact unless the query names a host and another endpoint
  of the slices, or the import's IP is empty or no IPv4 address.
-/

namespace Fleetboard.Plugin

open Fleetboard.EndpointSlices (Endpoint)
open Fleetboard.Mcs (ServiceImport matchesLabels)

/-! ## Queries for services -/

/-- What stands before the service in a query: nothing, a cluster, or a host of a cluster. -/
inductive Target
  | service
  | cluster (cluster : Label)
  | host (host cluster : Label)

namespace Target

def labels : Target → List Label
  | service => []
  | cluster c => [c]
  | host h c => [h, c]

/-- The cluster that the query names. -/
def clusterName : Target → Option String
  | service => none
  | cluster c => some c.lower.name
  | host _ c => some c.lower.name

/-- The host that the query names. -/
def hostName : Target → Option String
  | host h _ => some h.lower.name
  | _ => none

end Target

/-- A query `[[host.]cluster.]service.namespace.svc`. -/
structure ServiceQuery where
  target : Target
  service : Label
  ns : Label

namespace ServiceQuery

def labels (sq : ServiceQuery) : List Label := sq.target.labels ++ [sq.service, sq.ns, svcLabel]

/-- The import that the query is for. -/
def key (sq : ServiceQuery) : NamespacedName := ⟨sq.ns.lower.name, sq.service.lower.name⟩

/-- The question, in a zone. -/
def question (sq : ServiceQuery) (zone : List Label) (qclass : BitVec 16) : Question :=
  ⟨domainName (sq.labels ++ zone), 1, qclass⟩

/-- The fields that the labels belong into. -/
def request (sq : ServiceQuery) : RecordRequest :=
  { hostname := sq.target.hostName.getD ""
    cluster := sq.target.clusterName.getD ""
    service := sq.service.lower.name
    ns := sq.ns.lower.name
    podOrSvc := Svc }

end ServiceQuery

theorem parseRequest_service (lib : DnsLib) (sq : ServiceQuery) (zone : List Label) :
    parseRequest lib (query sq.labels zone .TypeA) = .ok (sq.request, none) := by
  have hsvc : svcLabel.lower.name = Svc := by decide
  have hsegs : lib.SplitDomainName (lib.TrimZone (query sq.labels zone .TypeA).Name
      (query sq.labels zone .TypeA).Zone) =
        names sq.target.labels ++ [sq.service.lower.name, sq.ns.lower.name, Svc] := by
    rw [segs_query, ServiceQuery.labels, names_append, ← hsvc]
    rfl
  rw [parseRequest_eq hsegs (by decide)]
  obtain ⟨target, service, ns⟩ := sq
  cases target with
  | service => rfl
  | cluster c => rfl
  | host h c => rfl

/-! ## The zone of a query -/

/-- The longest zone of the plugin that the name is in is this one, up to the case of letters. -/
def Served (lib : DnsLib) (zones : List String) (labels zone : List Label) : Prop :=
  ToLower (lib.Matches zones (domainName (labels ++ zone))) = ToLower (domainName zone)

theorem length_ToLower (s : String) : (ToLower s).toList.length = s.toList.length := by
  rw [ToLower, String.toList_ofList, List.length_map]

/-- The name of a zone is the end of the names in it. -/
theorem domainName_append {labels : List Label} (hne : labels ≠ []) (zone : List Label) :
    ∃ front, domainName (labels ++ zone) = front ++ domainName zone := by
  have hlabels : labels.map Label.name ≠ [] := fun h => hne (List.map_eq_nil_iff.mp h)
  unfold domainName
  rw [if_neg (List.append_ne_nil_of_left_ne_nil hne _), List.map_append]
  by_cases hzone : zone = []
  · refine ⟨".".intercalate (labels.map Label.name), ?_⟩
    rw [if_pos hzone, hzone, List.map_nil, List.append_nil]
  · have hnames : zone.map Label.name ≠ [] := fun h => hzone (List.map_eq_nil_iff.mp h)
    refine ⟨".".intercalate (labels.map Label.name) ++ ".", ?_⟩
    rw [if_neg hzone, String.intercalate_append_of_ne_nil hlabels hnames, String.append_assoc]

/-- Cut off at the length of its zone, the name leaves the zone. -/
theorem slice_zone {lib : DnsLib} {zones : List String} {labels zone : List Label}
    (hne : labels ≠ [])
    (h : Served lib zones labels zone) :
    Go.slice (domainName (labels ++ zone)).toList
        ((domainName (labels ++ zone)).toList.length -
          (lib.Matches zones (domainName (labels ++ zone))).toList.length)
        (domainName (labels ++ zone)).toList.length = .ok (domainName zone).toList := by
  have hlen := congrArg (fun s => s.toList.length) h
  simp only [length_ToLower] at hlen
  rw [hlen]
  obtain ⟨front, hfront⟩ := domainName_append hne zone
  rw [hfront, String.toList_append, List.length_append]
  unfold Go.slice
  rw [if_pos (by rw [List.length_append]; omega)]
  have hcut : (((front.toList.length + (domainName zone).toList.length : Nat) : Int) -
      (domainName zone).toList.length).toNat = front.toList.length := by omega
  rw [hcut, Int.toNat_natCast, List.take_of_length_le (by rw [List.length_append]),
    List.drop_left]

theorem matches_ne_nil {lib : DnsLib} {zones : List String} {labels zone : List Label}
    (h : Served lib zones labels zone) :
    (lib.Matches zones (domainName (labels ++ zone))).toList ≠ [] := by
  have hlen := congrArg (fun s => s.toList.length) h
  simp only [length_ToLower] at hlen
  intro hnil
  rw [hnil] at hlen
  exact domainName_ne_empty zone
    (String.toList_eq_nil_iff.mp (List.eq_nil_of_length_eq_zero hlen.symm))

/-- A plugin with one zone serves the names in it. -/
theorem served_singleton (lib : DnsLib) (labels zone : List Label) :
    Served lib [domainName zone] labels zone := by
  unfold Served
  rw [lib.Matches_singleton]

/-- A query for a service reaches `getDNSRecord`. -/
theorem ServeDNS_service {lib : DnsLib} {c : CrossDNS} {sq : ServiceQuery} {zone : List Label}
    (h : Served lib c.Zones sq.labels zone) (qclass : BitVec 16) (wErr : Option Error) :
    ServeDNS lib c (sq.question zone qclass) wErr =
      getDNSRecord c (sq.question zone qclass) .TypeA sq.request wErr := by
  have hne : sq.labels ≠ [] := List.append_ne_nil_of_right_ne_nil _ (List.cons_ne_nil _ _)
  have hparse := parseRequest_service lib sq zone
  unfold query at hparse
  have htype : QType.ofQtype (sq.question zone qclass).Qtype = some .TypeA := rfl
  have hname : (sq.question zone qclass).Name = domainName (sq.labels ++ zone) := rfl
  unfold ServeDNS
  dsimp only
  rw [hname, if_neg (matches_ne_nil h), htype]
  dsimp only
  have hsvc : ¬ ((none : Option Error) ≠ none ∨ sq.request.podOrSvc ≠ Svc) := by
    rintro (h | h)
    · exact h rfl
    · exact h rfl
  simp only [slice_zone hne h, bind, Except.bind, String.ofList_toList, hparse]
  exact if_neg hsvc

/-! ## The records of an import -/

/-- The IPv4 address that a text denotes. -/
def ipv4 (s : String) : Option Net.Addr := (Net.ParseIP s).bind Net.IP.to4

theorem ipv4_empty : ipv4 "" = none := by decide

theorem ipv4_of_parseAddr {s : String} {a : Net.Addr} (h : Net.parseAddr s.toList = some a) :
    ipv4 s = some a := by
  have ha := a.isLt
  unfold ipv4 Net.ParseIP
  rw [h]
  show Net.IP.to4 (BitVec.ofNat 128 (0xffff * 2 ^ 32 + a.toNat)) = some a
  unfold Net.IP.to4
  have hnat : (BitVec.ofNat 128 (0xffff * 2 ^ 32 + a.toNat)).toNat = 0xffff * 2 ^ 32 + a.toNat := by
    rw [BitVec.toNat_ofNat]
    omega
  rw [hnat, if_pos (by omega)]
  congr 1
  apply BitVec.eq_of_toNat_eq
  rw [BitVec.toNat_ofNat]
  omega

/-- The first address of an endpoint, as an IPv4 address. -/
def firstIPv4 (e : Endpoint) : Option Net.Addr := e.addresses.head?.bind ipv4

/-- The query is for the slice: it is in the import's namespace and has the labels of the
service and, if the query names one, of the cluster. -/
def Wants (sq : ServiceQuery) (eps : EndpointSlices.EndpointSlice) : Prop :=
  eps.ns = sq.key.ns ∧ eps.labels.lookup Known.LabelServiceNameSpace = some sq.key.ns ∧
    eps.labels.lookup Known.LabelServiceName = some sq.key.name ∧
    ∀ cluster ∈ sq.target.clusterName, eps.labels.lookup Known.LabelClusterID = some cluster

instance Wants.decidable (sq : ServiceQuery) (eps : EndpointSlices.EndpointSlice) :
    Decidable (Wants sq eps) :=
  inferInstanceAs (Decidable (_ ∧ _ ∧ _ ∧ ∀ cluster ∈ sq.target.clusterName, _))

/-- The endpoints of the slices that the query is for. -/
def wantedEndpoints (c : CrossDNS) (sq : ServiceQuery) : List Endpoint :=
  (c.endpointSlicesLister.filter fun eps => Wants sq eps).flatMap (·.endpoints)

/-- The endpoint has the hostname that the query names, if it names one. -/
def OfHost (sq : ServiceQuery) (e : Endpoint) : Prop :=
  ∀ host ∈ sq.target.hostName, e.hostname = some host

instance OfHost.decidable (sq : ServiceQuery) (e : Endpoint) : Decidable (OfHost sq e) :=
  inferInstanceAs (Decidable (∀ host ∈ sq.target.hostName, _))

/-- Every endpoint in the import's namespace has an IPv4 address as its first one. -/
def FirstAddresses (c : CrossDNS) (sq : ServiceQuery) : Prop :=
  ∀ eps ∈ c.endpointSlicesLister, eps.ns = sq.key.ns → ∀ e ∈ eps.endpoints, firstIPv4 e ≠ none

theorem matchesLabels_cons {k v : String} {selector : List (String × String)}
    {labels : GoMap String String} :
    matchesLabels ((k, v) :: selector) labels = true ↔
      labels.lookup k = some v ∧ matchesLabels selector labels = true := by
  unfold matchesLabels
  rw [List.all_cons, Bool.and_eq_true, decide_eq_true_iff]

theorem Target.clusterName_ne_empty {target : Target} {cluster : String}
    (h : target.clusterName = some cluster) : cluster ≠ "" := by
  cases target with
  | service => cases h
  | cluster c =>
    rw [← Option.some.inj h]
    exact c.lower.name_ne_empty
  | host _ c =>
    rw [← Option.some.inj h]
    exact c.lower.name_ne_empty

theorem matchesLabels_sliceSelector (sq : ServiceQuery) (labels : GoMap String String) :
    matchesLabels (sliceSelector sq.request) labels = true ↔
      labels.lookup Known.LabelServiceNameSpace = some sq.key.ns ∧
        labels.lookup Known.LabelServiceName = some sq.key.name ∧
        ∀ cluster ∈ sq.target.clusterName, labels.lookup Known.LabelClusterID = some cluster := by
  have hrequest : sq.request.cluster = sq.target.clusterName.getD "" := rfl
  unfold sliceSelector
  cases hcluster : sq.target.clusterName with
  | none =>
    have hempty : sq.request.cluster = "" := by rw [hrequest, hcluster, Option.getD_none]
    rw [if_neg (not_not.mpr hempty), matchesLabels_cons, matchesLabels_cons]
    refine and_congr_right fun _ => and_congr_right fun _ => iff_of_true rfl ?_
    intro cluster hmem
    cases hmem
  | some cluster =>
    have hname : sq.request.cluster = cluster := by rw [hrequest, hcluster, Option.getD_some]
    have hne : sq.request.cluster ≠ "" := hname ▸ Target.clusterName_ne_empty hcluster
    rw [if_pos hne, matchesLabels_cons, matchesLabels_cons, matchesLabels_cons, hname]
    refine and_congr_right fun _ => and_congr_right fun _ => ?_
    rw [and_iff_left (show matchesLabels [] labels = true from rfl)]
    simp only [Option.mem_some_iff, forall_eq']

/-- The lister selects the slices that the query is for. -/
theorem list_request (c : CrossDNS) (sq : ServiceQuery) :
    c.list sq.request.ns (sliceSelector sq.request) =
      c.endpointSlicesLister.filter fun eps => Wants sq eps := by
  have hns : sq.request.ns ≠ "" := sq.ns.lower.name_ne_empty
  refine List.filter_congr fun eps _ => decide_eq_decide.mpr ?_
  rw [matchesLabels_sliceSelector, or_iff_right hns]
  rfl

/-- The record of an endpoint. -/
def endpointRecord (eps : EndpointSlices.EndpointSlice) (e : Endpoint) : DNSRecord :=
  { IP := e.addresses.head?.getD ""
    ClusterName := (eps.labels.lookup Known.LabelClusterID).getD "" }

theorem ipv4_endpointRecord (eps : EndpointSlices.EndpointSlice) (e : Endpoint) :
    ipv4 (endpointRecord eps e).IP = firstIPv4 e := by
  unfold endpointRecord firstIPv4
  cases e.addresses with
  | nil => exact ipv4_empty
  | cons s rest => rfl

theorem endpointRecords_eq {eps : EndpointSlices.EndpointSlice}
    (h : ∀ e ∈ eps.endpoints, firstIPv4 e ≠ none) :
    endpointRecords eps = .ok (eps.endpoints.map (endpointRecord eps)) := by
  refine Go.mapM_eq_ok fun e he => ?_
  have hfirst := h e he
  unfold firstIPv4 at hfirst
  unfold endpointRecord
  cases haddresses : e.addresses with
  | nil =>
    rw [haddresses] at hfirst
    exact absurd rfl hfirst
  | cons s rest => rfl

/-- The records of the slices that the query is for. -/
def wantedRecords (c : CrossDNS) (sq : ServiceQuery) : List DNSRecord :=
  (c.endpointSlicesLister.filter fun eps => Wants sq eps).flatMap fun eps =>
    eps.endpoints.map (endpointRecord eps)

theorem importRecords_headless {c : CrossDNS} {sq : ServiceQuery} {si : ServiceImport}
    (hsi : si.type = .headless) (h : FirstAddresses c sq) :
    importRecords c si sq.request = .ok (wantedRecords c sq) := by
  have hslices : (c.endpointSlicesLister.filter fun eps => Wants sq eps).mapM endpointRecords =
      .ok ((c.endpointSlicesLister.filter fun eps => Wants sq eps).map fun eps =>
        eps.endpoints.map (endpointRecord eps)) := by
    refine Go.mapM_eq_ok fun eps heps => endpointRecords_eq ?_
    obtain ⟨hmem, hwants⟩ := List.mem_filter.mp heps
    exact h eps hmem (of_decide_eq_true hwants).1
  unfold importRecords
  rw [hsi]
  dsimp only
  unfold getAllRecordsFromEndpointslice
  rw [list_request, hslices]
  rfl

/-- They are the first addresses of the endpoints of those slices. -/
theorem createARecords_wanted (c : CrossDNS) (sq : ServiceQuery) (q : Question) :
    createARecords (wantedRecords c sq) q =
      (wantedEndpoints c sq).map fun e => ⟨q.Name, q.Qclass, 5, firstIPv4 e⟩ := by
  unfold createARecords wantedRecords wantedEndpoints
  rw [List.map_flatMap, List.map_flatMap]
  refine List.flatMap_congr fun eps _ => ?_
  rw [List.map_map]
  refine List.map_congr_left fun e _ => ?_
  exact congrArg (ARecord.mk q.Name q.Qclass 5) (ipv4_endpointRecord eps e)

/-! ## Exact answers -/

/-- The answer of the message that is given to the writer, whether or not it takes it. -/
def Answers (lib : DnsLib) (c : CrossDNS) (q : Question) (answer : List ARecord) : Prop :=
  ∀ wErr, ServeDNS lib c q wErr = .ok (writeMsg answer wErr)

/-- The answer is the one that the import and the slices call for: the first address of every
endpoint of the host, of a headless import; the virtual IP, of another import that has one; and
never a record without an address. -/
def AnswersExactly (lib : DnsLib) (c : CrossDNS) (sq : ServiceQuery) (zone : List Label) (qclass : BitVec 16)
    (si : ServiceImport) : Prop :=
  ∃ answer, Answers lib c (sq.question zone qclass) answer ∧
    (si.type = .headless →
      answer = ((wantedEndpoints c sq).filter fun e => OfHost sq e).map fun e =>
        ⟨(sq.question zone qclass).Name, qclass, 5, firstIPv4 e⟩) ∧
    (si.type = .clusterSetIP →
      (si.ip ≠ "" → ∃ a, ipv4 si.ip = some a ∧
        answer = [⟨(sq.question zone qclass).Name, qclass, 5, some a⟩]) ∧
      (si.ip = "" → answer = [])) ∧
    ∀ rr ∈ answer, rr.A ≠ none

section
variable {lib : DnsLib} {c : CrossDNS} {sq : ServiceQuery} {zone : List Label} {si : ServiceImport}

theorem Answers.unique {q : Question} {answer answer' : List ARecord} (h : Answers lib c q answer)
    (h' : Answers lib c q answer') : answer = answer' := by
  have hsame : writeMsg answer none = writeMsg answer' none :=
    Except.ok.inj ((h none).symm.trans (h' none))
  exact Option.some.inj (Response.done.inj hsame).1

/-- The answer has the records of the import. -/
theorem answers_of_records {dnsRecords : List DNSRecord} (hzone : Served lib c.Zones sq.labels zone)
    (hlookup : c.SILister.lookup sq.key = some si)
    (h : importRecords c si sq.request = .ok dnsRecords) (qclass : BitVec 16) :
    Answers lib c (sq.question zone qclass) (createARecords dnsRecords (sq.question zone qclass)) := by
  intro wErr
  have hget : c.SILister.lookup ⟨sq.request.ns, sq.request.service⟩ = some si := hlookup
  rw [ServeDNS_service hzone]
  unfold getDNSRecord
  rw [hget]
  dsimp only
  rw [h]
  by_cases hempty : dnsRecords = []
  · subst hempty
    rfl
  · exact if_neg hempty

theorem answers_headless (hzone : Served lib c.Zones sq.labels zone)
    (hlookup : c.SILister.lookup sq.key = some si) (hsi : si.type = .headless)
    (h : FirstAddresses c sq) (qclass : BitVec 16) :
    Answers lib c (sq.question zone qclass)
      ((wantedEndpoints c sq).map fun e =>
        ⟨(sq.question zone qclass).Name, qclass, 5, firstIPv4 e⟩) := by
  have hanswer := answers_of_records hzone hlookup (importRecords_headless hsi h) qclass
  rw [createARecords_wanted] at hanswer
  exact hanswer

theorem answers_clusterSetIP (hzone : Served lib c.Zones sq.labels zone)
    (hlookup : c.SILister.lookup sq.key = some si) (hsi : si.type = .clusterSetIP)
    (qclass : BitVec 16) :
    Answers lib c (sq.question zone qclass)
      (si.ips.head?.toList.map fun ip =>
        ⟨(sq.question zone qclass).Name, qclass, 5, ipv4 ip⟩) := by
  cases hips : si.ips with
  | nil =>
    have hrecords : importRecords c si sq.request = .ok [] := by
      unfold importRecords
      rw [hsi, hips]
      rfl
    exact answers_of_records hzone hlookup hrecords qclass
  | cons ip ips =>
    have hrecords : importRecords c si sq.request = .ok [{ IP := ip }] := by
      unfold importRecords
      rw [hsi, hips]
      rfl
    exact answers_of_records hzone hlookup hrecords qclass

/-- The endpoints in the answer are those of the slices that the query is for, so that they have
an address. -/
theorem firstIPv4_of_wanted (h : FirstAddresses c sq) :
    ∀ e ∈ wantedEndpoints c sq, firstIPv4 e ≠ none := by
  intro e he
  obtain ⟨eps, heps, hmem⟩ := List.mem_flatMap.mp he
  obtain ⟨hlisted, hwants⟩ := List.mem_filter.mp heps
  exact h eps hlisted (of_decide_eq_true hwants).1 e hmem

theorem exact_headless_iff (hzone : Served lib c.Zones sq.labels zone)
    (hlookup : c.SILister.lookup sq.key = some si) (hsi : si.type = .headless)
    (h : FirstAddresses c sq) (qclass : BitVec 16) :
    AnswersExactly lib c sq zone qclass si ↔ ∀ e ∈ wantedEndpoints c sq, OfHost sq e := by
  have hanswer := answers_headless hzone hlookup hsi h qclass
  constructor
  · rintro ⟨answer, hanswer', hheadless, -⟩
    have hlen := congrArg List.length ((hanswer.unique hanswer').trans (hheadless hsi))
    rw [List.length_map, List.length_map] at hlen
    have hall := List.length_filter_eq_length_iff.mp hlen.symm
    exact fun e he => of_decide_eq_true (hall e he)
  · intro hhost
    have hfilter : ((wantedEndpoints c sq).filter fun e => OfHost sq e) = wantedEndpoints c sq :=
      List.filter_eq_self.mpr fun e he => decide_eq_true (hhost e he)
    refine ⟨_, hanswer, fun _ => by rw [hfilter], fun hset => ?_, fun rr hrr => ?_⟩
    · rw [hsi] at hset
      cases hset
    · obtain ⟨e, he, rfl⟩ := List.mem_map.mp hrr
      exact firstIPv4_of_wanted h e he

theorem exact_clusterSetIP_iff (hzone : Served lib c.Zones sq.labels zone)
    (hlookup : c.SILister.lookup sq.key = some si) (hsi : si.type = .clusterSetIP)
    (qclass : BitVec 16) :
    AnswersExactly lib c sq zone qclass si ↔ si.ips = [] ∨ ipv4 si.ip ≠ none := by
  have hanswer := answers_clusterSetIP hzone hlookup hsi qclass
  have hheadless : si.type ≠ .headless := by
    rw [hsi]
    decide
  cases hips : si.ips with
  | nil =>
    have hip : si.ip = "" := by rw [ServiceImport.ip, hips, List.head?_nil, Option.getD_none]
    rw [hips] at hanswer
    refine iff_of_true ⟨[], hanswer, fun hhead => absurd hhead hheadless, fun _ => ?_, ?_⟩ (.inl rfl)
    · exact ⟨fun hne => absurd hip hne, fun _ => rfl⟩
    · exact fun rr hrr => absurd hrr List.not_mem_nil
  | cons ip ips =>
    have hip : si.ip = ip := by rw [ServiceImport.ip, hips, List.head?_cons, Option.getD_some]
    rw [hips] at hanswer
    rw [hip, or_iff_right (List.cons_ne_nil ip ips)]
    constructor
    · rintro ⟨answer, hanswer', -, -, haddress⟩
      obtain rfl := hanswer.unique hanswer'
      exact haddress _ List.mem_cons_self
    · intro hne
      obtain ⟨a, ha⟩ := Option.ne_none_iff_exists'.mp hne
      refine ⟨_, hanswer, fun hhead => absurd hhead hheadless, fun _ => ⟨fun _ => ?_, ?_⟩, ?_⟩
      · rw [hip]
        refine ⟨a, ha, ?_⟩
        rw [← ha]
        rfl
      · intro hempty
        rw [← hip, hempty] at hne
        exact absurd ipv4_empty hne
      · intro rr hrr
        rw [List.mem_singleton.mp hrr]
        exact hne

/-- An import that the controller has given an IP is answered with it. -/
theorem exact_of_allocated {ipam ipam' : Mcs.IPAM} {si₀ : ServiceImport}
    {acquire : Except Error Net.Addr} {changed : Bool}
    (hinit : Mcs.AddInitialInfoToServiceImport ipam si₀ acquire = (ipam', si, changed, none))
    (htype : si₀.type = .clusterSetIP) (hempty : si₀.ip = "")
    (hzone : Served lib c.Zones sq.labels zone) (hlookup : c.SILister.lookup sq.key = some si)
    (hsi : si.type = .clusterSetIP) (qclass : BitVec 16) :
    AnswersExactly lib c sq zone qclass si := by
  obtain ⟨-, -, -, -, -, hgets⟩ := Mcs.AddInitialInfoToServiceImport_spec hinit
  obtain ⟨hfails, hacquires⟩ := hgets htype hempty
  cases hacquire : acquire with
  | error e => exact absurd (hfails e hacquire).2.1 (Option.some_ne_none e).symm
  | ok a =>
    obtain ⟨-, -, -, hip⟩ := hacquires a hacquire
    refine (exact_clusterSetIP_iff hzone hlookup hsi qclass).mpr (.inr ?_)
    rw [hip, ipv4_of_parseAddr (Mcs.parseAddr_addrString a)]
    exact Option.some_ne_none a

/-- The answer to a query for A records is exact if and only if, for a headless import, all the
endpoints of the slices that the query is for have the hostname that it names, if any; and, for
the other imports, the list of IPs is empty or starts with an IPv4 address, which an IP that was
cleared is not. -/
theorem ServeDNS_exact_iff (hzone : Served lib c.Zones sq.labels zone)
    (hlookup : c.SILister.lookup sq.key = some si) (h : FirstAddresses c sq)
    (qclass : BitVec 16) :
    AnswersExactly lib c sq zone qclass si ↔
      (si.type = .headless → ∀ e ∈ wantedEndpoints c sq, OfHost sq e) ∧
      (si.type = .clusterSetIP → si.ips = [] ∨ ipv4 si.ip ≠ none) := by
  cases hsi : si.type with
  | headless =>
    rw [exact_headless_iff hzone hlookup hsi h qclass]
    constructor
    · intro hhost
      refine ⟨fun _ => hhost, fun hset => ?_⟩
      cases hset
    · exact fun hboth => hboth.1 rfl
  | clusterSetIP =>
    rw [exact_clusterSetIP_iff hzone hlookup hsi qclass]
    constructor
    · intro hip
      refine ⟨fun hhead => ?_, fun _ => hip⟩
      cases hhead
    · exact fun hboth => hboth.2 rfl

end

/-! ## Two hosts and a cleared IP -/

/-- An endpoint with an address and a hostname. -/
def endpointOf (address hostname : String) : Endpoint :=
  { addresses := [address]
    ready := some true
    serving := none
    terminating := none
    hostname := some hostname
    targetRef := none
    nodeName := none
    zone := none
    hints := none }

/-- The slice of the service `shop/web` of the cluster `c1`, with two hosts. -/
def webSlice : EndpointSlices.EndpointSlice where
  ns := "shop"
  name := "web-1"
  generateName := ""
  labels := ((∅ : GoMap String String).insert Known.LabelServiceNameSpace "shop").insert
    Known.LabelServiceName "web" |>.insert Known.LabelClusterID "c1"
  annotations := ∅
  ownerReferences := []
  addressType := .ipv4
  endpoints := [endpointOf "10.1.0.7" "web-0", endpointOf "10.1.0.8" "web-1"]
  ports := none

/-- A plugin with that slice and an import of its service. -/
def webDNS (si : ServiceImport) : CrossDNS where
  Zones := ["clusterset.local."]
  endpointSlicesLister := [webSlice]
  SILister := (∅ : GoMap NamespacedName ServiceImport).insert ⟨"shop", "web"⟩ si

/-- An import without a virtual IP. -/
def headlessImport : ServiceImport := ⟨.headless, [], [], false, 0⟩

def web0Label : Label := ⟨"web-0".toList, by decide, by decide⟩

/-- The query for the service, or for a part of it. -/
def webQuery (target : Target) : ServiceQuery := ⟨target, webLabel, shopLabel⟩

theorem webDNS_firstAddresses (si : ServiceImport) (target : Target) :
    FirstAddresses (webDNS si) (webQuery target) := by
  intro eps heps _ e he
  rw [List.mem_singleton.mp heps] at he
  have hall : ∀ e ∈ webSlice.endpoints, firstIPv4 e ≠ none := by decide +kernel
  exact hall e he

theorem webDNS_served (si : ServiceImport) (target : Target) :
    Served textDns (webDNS si).Zones (webQuery target).labels clusterset := by
  have hzones : (webDNS si).Zones = [domainName clusterset] := by
    show ["clusterset.local."] = _
    decide
  rw [hzones]
  exact served_singleton textDns _ clusterset

theorem webDNS_lookup (si : ServiceImport) (target : Target) :
    (webDNS si).SILister.lookup (webQuery target).key = some si := by
  have hkey : (webQuery target).key = ⟨"shop", "web"⟩ := by
    show (⟨shopLabel.lower.name, webLabel.lower.name⟩ : NamespacedName) = _
    decide
  rw [hkey]
  exact AList.lookup_insert _

/-- Without a host, both endpoints of the cluster are what the query asks for. -/
theorem ServeDNS_exact_cluster :
    AnswersExactly textDns (webDNS headlessImport) (webQuery (.cluster c1Label)) clusterset 1
      headlessImport := by
  have hserved := webDNS_served headlessImport (.cluster c1Label)
  have hlookup := webDNS_lookup headlessImport (.cluster c1Label)
  have hfirst := webDNS_firstAddresses headlessImport (.cluster c1Label)
  rw [ServeDNS_exact_iff hserved hlookup hfirst 1]
  refine ⟨fun _ e _ host hhost => ?_, fun hset => ?_⟩
  · cases hhost
  · cases hset

/-- An import with the list of IPs of one that was headless, and that is so no more. -/
def clearedImport : ServiceImport := ⟨.clusterSetIP, [""], [], false, 0⟩

/-- The query for one host is answered with both, and an IP that the controller has cleared with a
record that has no address. -/
theorem ServeDNS_inexact :
    (ServeDNS textDns (webDNS headlessImport)
        ((webQuery (.host web0Label c1Label)).question clusterset 1) none =
        .ok (.done (some
          [⟨"web-0.c1.web.shop.svc.clusterset.local.", 1, 5, some (Net.ofBytes 10 1 0 7)⟩,
            ⟨"web-0.c1.web.shop.svc.clusterset.local.", 1, 5, some (Net.ofBytes 10 1 0 8)⟩])
          .RcodeSuccess none) ∧
      ¬ AnswersExactly textDns (webDNS headlessImport) (webQuery (.host web0Label c1Label)) clusterset 1
        headlessImport) ∧
    (∀ ipam acquire, (Mcs.AddInitialInfoToServiceImport ipam
        { headlessImport with ips := ["10.9.0.1"] } acquire).2.1.ips = clearedImport.ips) ∧
    ServeDNS textDns (webDNS clearedImport) ((webQuery (.cluster c1Label)).question clusterset 1) none =
        .ok (.done (some [⟨"c1.web.shop.svc.clusterset.local.", 1, 5, none⟩])
          .RcodeSuccess none) ∧
      ¬ AnswersExactly textDns (webDNS clearedImport) (webQuery (.cluster c1Label)) clusterset 1
        clearedImport := by
  refine ⟨⟨by decide +kernel, fun hexact => ?_⟩, fun _ _ => rfl, by decide +kernel,
    fun hexact => ?_⟩
  · have hserved := webDNS_served headlessImport (.host web0Label c1Label)
    have hlookup := webDNS_lookup headlessImport (.host web0Label c1Label)
    have hfirst := webDNS_firstAddresses headlessImport (.host web0Label c1Label)
    have hhosts := (exact_headless_iff hserved hlookup rfl hfirst 1).mp hexact
    exact absurd (hhosts (endpointOf "10.1.0.8" "web-1") (by decide +kernel)) (by decide +kernel)
  · have hserved := webDNS_served clearedImport (.cluster c1Label)
    have hlookup := webDNS_lookup clearedImport (.cluster c1Label)
    have hip := (exact_clusterSetIP_iff hserved hlookup rfl 1).mp hexact
    exact absurd hip (by decide +kernel)

end Fleetboard.Plugin

import Fleetboard.Model.Dns
import Fleetboard.Model.IP
import Fleetboard.Model.Reconciler
import Fleetboard.Model.ServiceImport

/-!
# The DNS plugin (`pkg/plugin/crossdns.go`)

`ServeDNS` answers queries for the services of the clusters: with the virtual IP of an import
that has one, or with the endpoints of the slices that the import controller has copied. What is
not for it goes to the next plugin.

The listers read an informer's cache, which is synced here, and a read of it does not fail except
for an object that is not there. The only outside event is whether the writer takes the message.
-/

namespace Fleetboard.Plugin

open Fleetboard.Mcs (ServiceImport matchesLabels)

/-! ## Messages -/

/-- `dns.Question`. -/
structure Question where
  Name : String
  Qtype : BitVec 16
  Qclass : BitVec 16
  deriving DecidableEq, Repr

/-- The type of a question, if it is one that `ServeDNS` answers. -/
def QType.ofQtype (qtype : BitVec 16) : Option QType :=
  if qtype = 1 then some .TypeA
  else if qtype = 28 then some .TypeAAAA
  else if qtype = 33 then some .TypeSRV
  else none

/-- `dns.A`, with no address for a nil one. -/
structure ARecord where
  Name : String
  Class : BitVec 16
  Ttl : BitVec 32
  A : Option Net.Addr
  deriving DecidableEq, Repr

inductive Rcode
  | RcodeSuccess
  | RcodeServerFailure
  deriving DecidableEq, Repr

/-- What `ServeDNS` does: it hands the query on, or it returns, with the answer of the message
that it has given to the writer, if any. -/
inductive Response
  | next
  | done (answer : Option (List ARecord)) (rcode : Rcode) (err : Option Error)
  deriving DecidableEq, Repr

/-! ## The plugin -/

/-- `CrossDNS`: its zones, and what its listers have. -/
structure CrossDNS where
  Zones : List String
  endpointSlicesLister : List EndpointSlices.EndpointSlice
  SILister : GoMap NamespacedName ServiceImport

/-- `DNSRecord`. -/
structure DNSRecord where
  IP : String
  HostName : String := ""
  ClusterName : String := ""
  deriving DecidableEq, Repr

/-- `EndpointSlices(namespace).List`. -/
def CrossDNS.list (c : CrossDNS) (ns : String) (selector : List (String × String)) :
    List EndpointSlices.EndpointSlice :=
  c.endpointSlicesLister.filter fun eps =>
    (ns = "" ∨ eps.ns = ns) ∧ matchesLabels selector eps.labels

/-- The labels that a request asks for. -/
def sliceSelector (pReq : RecordRequest) : List (String × String) :=
  if pReq.cluster ≠ "" then
    [(Known.LabelServiceNameSpace, pReq.ns), (Known.LabelServiceName, pReq.service),
      (Known.LabelClusterID, pReq.cluster)]
  else [(Known.LabelServiceNameSpace, pReq.ns), (Known.LabelServiceName, pReq.service)]

/-- The inner loop of `getAllRecordsFromEndpointslice`. -/
def endpointRecords (eps : EndpointSlices.EndpointSlice) : Go (List DNSRecord) :=
  eps.endpoints.mapM fun endpoint => do
    let ip ← Go.index endpoint.addresses 0
    return { IP := ip, ClusterName := (eps.labels.lookup Known.LabelClusterID).getD "" }

/-- `getAllRecordsFromEndpointslice`. -/
def getAllRecordsFromEndpointslice (slices : List EndpointSlices.EndpointSlice) :
    Go (List DNSRecord) := do
  return (← slices.mapM endpointRecords).flatten

/-- `createARecords`. -/
def createARecords (dnsrecords : List DNSRecord) (q : Question) : List ARecord :=
  dnsrecords.map fun record =>
    ⟨q.Name, q.Qclass, 5, (Net.ParseIP record.IP).bind Net.IP.to4⟩

/-- `w.WriteMsg` and what follows it. -/
def writeMsg (answer : List ARecord) (wErr : Option Error) : Response :=
  match wErr with
  | none => .done (some answer) .RcodeSuccess none
  | some _ => .done (some answer) .RcodeServerFailure (some "failed to write response")

/-- The addresses of an import: its first IP, or those of its slices. -/
def importRecords (c : CrossDNS) (si : ServiceImport) (pReq : RecordRequest) :
    Go (List DNSRecord) :=
  match si.type with
  | .clusterSetIP =>
    match si.ips with
    | [] => pure []
    | ip :: _ => pure [{ IP := ip }]
  | .headless => getAllRecordsFromEndpointslice (c.list pReq.ns (sliceSelector pReq))

/-- `getDNSRecord`. -/
def getDNSRecord (c : CrossDNS) (q : Question) (qType : QType) (pReq : RecordRequest)
    (wErr : Option Error) : Go Response :=
  match c.SILister.lookup ⟨pReq.ns, pReq.service⟩ with
  | none => pure (.done none .RcodeServerFailure (some "failed to write response"))
  | some si => do
    let dnsRecords ← importRecords c si pReq
    if dnsRecords = [] then
      return writeMsg [] wErr
    let records := if qType = .TypeA then createARecords dnsRecords q else []
    return writeMsg records wErr

/-- `ServeDNS`. -/
def ServeDNS (lib : DnsLib) (c : CrossDNS) (q : Question) (wErr : Option Error) : Go Response :=
  let qname := q.Name.toList
  let zone := (lib.Matches c.Zones q.Name).toList
  if zone = [] then pure .next
  else
    match QType.ofQtype q.Qtype with
    | none => pure .next
    | some qType => do
      -- the zone in the letters of the query
      let zone ← Go.slice qname (qname.length - zone.length) qname.length
      let (pReq, pErr) ← parseRequest lib ⟨q.Name, String.ofList zone, qType⟩
      if pErr ≠ none ∨ pReq.podOrSvc ≠ Svc then
        return .next
      getDNSRecord c q qType pReq wErr

end Fleetboard.Plugin

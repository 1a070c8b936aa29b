import Fleetboard.Framework.Escaped
import Fleetboard.Model.Go

/-!
# The queries of the DNS plugin

`parseRequest` takes the name of a query apart, from the label next to the zone to the
first one. Names are texts: the labels are what stands between the dots, and a backslash
makes the character after it part of the label. What the plugin does to names it has from
two libraries, of which `DnsLib` states what is used.
-/

namespace Fleetboard.Plugin

/-! ## Domain names -/

/-- A label of a domain name, as it is written in a name. -/
structure Label where
  text : List Char
  nonempty : text ≠ []
  plain : Escaped.plainFrom '.' '\\' false text = true

def Label.name (l : Label) : String := String.ofList l.text

/-- The fully qualified name with these labels. -/
def domainName (labels : List Label) : String :=
  if labels = [] then "." else ".".intercalate (labels.map Label.name) ++ "."

/-- The functions of the DNS libraries that the plugin calls, and what they do to names. -/
structure DnsLib where
  /-- `dns.SplitDomainName`. -/
  SplitDomainName : String → List String
  /-- `dnsutil.TrimZone`, whose error the caller drops. -/
  TrimZone : String → String → String
  /-- `plugin.Zones.Matches`: the longest zone that the name is in, or the empty text. -/
  Matches : List String → String → String
  SplitDomainName_labels (labels : List Label) :
    SplitDomainName (".".intercalate (labels.map Label.name)) = labels.map Label.name
  /-- The zone comes off by the number of its labels, whatever letters it is written in. -/
  TrimZone_append (labels zone : List Label) {zone' : List Label} :
    zone'.length = zone.length →
    TrimZone (domainName (labels ++ zone)) (domainName zone') =
      ".".intercalate (labels.map Label.name)
  /-- A name is in the zone that it ends in. -/
  Matches_singleton (labels zone : List Label) :
    Matches [domainName zone] (domainName (labels ++ zone)) = domainName zone

/-! ## Requests -/

/-- The types of query that `ServeDNS` does not hand to the next plugin. -/
inductive QType
  | TypeA
  | TypeAAAA
  | TypeSRV
  deriving DecidableEq, Repr

/-- What the parser reads of `request.Request`: the name of the question as it was asked,
the zone it is in and the type. -/
structure Request where
  question : String
  Zone : String
  QType : QType
  deriving DecidableEq, Repr

/-- `strings.ToLower`, for the characters that domain names are written in. -/
def ToLower (s : String) : String := String.ofList (s.toList.map Char.toLower)

/-- `state.Name()`: the name in lower case. -/
def Request.Name (state : Request) : String := ToLower state.question

/-- `recordRequest`; `ns` is its field `namespace`. -/
structure RecordRequest where
  port : String := ""
  protocol : String := ""
  hostname : String := ""
  cluster : String := ""
  service : String := ""
  ns : String := ""
  podOrSvc : String := ""
  deriving DecidableEq, Repr

def Svc : String := "svc"

def Pod : String := "pod"

def errInvalidRequest : Error := "invalid query name"

/-! ## Parsing -/

/-- `stripUnderscore`, which reads the first byte of its argument. -/
def stripUnderscore (s : String) : Go String :=
  match s.toList with
  | [] => .error .indexOutOfRange
  | c :: rest => .ok (if c ≠ '_' then s else String.ofList rest)

/-- `parseSegments`: the labels left of the service, the last of which is `segs[count]`. -/
def parseSegments (segs : List String) (count : Nat) (r : RecordRequest) (qType : QType) :
    Go (RecordRequest × Option Error) :=
  match qType with
  | .TypeA =>
    match count with
    | 0 => do
      let cluster ← Go.index segs count
      return ({ r with cluster }, none)
    | 1 => do
      let cluster ← Go.index segs count
      let hostname ← Go.index segs (count - 1)
      return ({ r with cluster, hostname }, none)
    | _ => return (r, some errInvalidRequest)
  | .TypeSRV =>
    match count with
    | 0 => do
      let cluster ← Go.index segs count
      return ({ r with cluster }, none)
    | 1 => do
      let protocol ← stripUnderscore (← Go.index segs count)
      let port ← stripUnderscore (← Go.index segs (count - 1))
      return ({ r with protocol, port }, none)
    | 2 => do
      let cluster ← Go.index segs count
      let protocol ← stripUnderscore (← Go.index segs (count - 1))
      let port ← stripUnderscore (← Go.index segs (count - 2))
      return ({ r with cluster, protocol, port }, none)
    | _ => return (r, some errInvalidRequest)
  -- no branch of the source is for the other address type
  | .TypeAAAA => return (r, none)

/-- `parseRequest`. -/
def parseRequest (lib : DnsLib) (state : Request) : Go (RecordRequest × Option Error) := do
  let r : RecordRequest := {}
  let base := lib.TrimZone state.Name state.Zone
  if base = "" ∨ base = Svc ∨ base = Pod then
    return (r, none)
  let segs := lib.SplitDomainName base
  let last : Int := segs.length - 1
  if last < 0 then
    return (r, none)
  let r := { r with podOrSvc := ← Go.index segs last.toNat }
  if r.podOrSvc ≠ Pod ∧ r.podOrSvc ≠ Svc then
    return (r, some errInvalidRequest)
  let last := last - 1
  if last < 0 then
    return (r, none)
  let r := { r with ns := ← Go.index segs last.toNat }
  let last := last - 1
  if last < 0 then
    return (r, none)
  let r := { r with service := ← Go.index segs last.toNat }
  let last := last - 1
  if last < 0 then
    return (r, none)
  parseSegments segs last.toNat r state.QType

end Fleetboard.Plugin

import Fleetboard.Framework.GoMap
import Fleetboard.Model.Go

/-!
# Endpoint slices

The parts of the discovery API's types that the exporters copy and the proxy
reads.
-/

namespace Fleetboard

/-- `types.NamespacedName`. -/
structure NamespacedName where
  ns : String
  name : String
  deriving DecidableEq, Repr

inductive Protocol
  | tcp | udp | sctp
  deriving DecidableEq, Repr

inductive AddressType
  | ipv4 | ipv6 | fqdn
  deriving DecidableEq, Repr

/-- `discovery.EndpointPort`. -/
structure EndpointPort where
  name : Option String
  protocol : Option Protocol
  port : Option Int
  appProtocol : Option String
  deriving DecidableEq, Repr

/-- `discovery.Endpoint`: the fields that the proxy reads. -/
structure SliceEndpoint where
  addresses : List String
  ready : Option Bool
  serving : Option Bool
  terminating : Option Bool
  nodeName : Option String
  zone : Option String
  forZones : List String
  deriving DecidableEq, Repr

/-- `discovery.EndpointSlice`. -/
structure EndpointSlice where
  ns : String
  name : String
  labels : GoMap String String
  addressType : AddressType
  endpoints : List SliceEndpoint
  ports : List EndpointPort

namespace Known

def LabelServiceName := "services.fleetboard.io/multi-cluster-service-name"
def LabelServiceNameSpace := "services.fleetboard.io/multi-cluster-service-LocalNamespace"
def LabelClusterID := "services.fleetboard.io/multi-cluster-cluster-ID"
def LabelValueManagedBy := "mcs.fleetboard.io"
def IsHeadlessKey := "services.fleetboard.io/is-headless"
def AppFinalizer := "apps.fleetboard.io/finalizer"
def ObjectCreatedByLabel := "fleetboard.io/created-by"

/-- `discovery.LabelServiceName`. -/
def DiscoveryServiceName := "kubernetes.io/service-name"

/-- `discovery.LabelManagedBy`. -/
def DiscoveryManagedBy := "endpointslice.kubernetes.io/managed-by"

end Known

end Fleetboard

import Fleetboard.Framework.Runs
import Fleetboard.Framework.Relay
import Fleetboard.Framework.Watch
import Fleetboard.Framework.GoMap
import Fleetboard.Framework.Keyed
import Fleetboard.Framework.GoSort
import Fleetboard.Framework.Prefix
import Fleetboard.Framework.Sha256
import Fleetboard.Framework.Holding
import Fleetboard.Framework.Versioned
import Fleetboard.Framework.Upsert
import Fleetboard.Framework.Prefer
import Fleetboard.Framework.Binary64
import Fleetboard.Framework.Tally
import Fleetboard.Model.Go
import Fleetboard.Model.Net
import Fleetboard.Model.IP
import Fleetboard.Model.NetUtil
import Fleetboard.Model.Pods
import Fleetboard.Model.Resync
import Fleetboard.Model.Wireguard
import Fleetboard.Model.InterTunnel
import Fleetboard.Model.InnerTunnel
import Fleetboard.Model.Discovery
import Fleetboard.Model.EndpointSliceCache
import Fleetboard.Model.Endpoints
import Fleetboard.Model.ServiceImportMap
import Fleetboard.Model.SliceUtil
import Fleetboard.Model.ServiceExport
import Fleetboard.Model.IPAM
import Fleetboard.Model.ServiceImport
import Fleetboard.Model.Fleet
import Fleetboard.Model.Dedinic
import Fleetboard.Model.CniHandler
import Fleetboard.Model.Apply
import Fleetboard.Model.Ipvs
import Fleetboard.Model.Proxier
import Fleetboard.Model.DummyDevice
import Fleetboard.Model.PodEndpoints
import Fleetboard.Model.SliceTracker
import Fleetboard.Model.SliceController
import Fleetboard.Model.SliceMetrics
import Fleetboard.Model.EndpointSet
import Fleetboard.Model.Reconciler
import Fleetboard.Model.Topology
import Fleetboard.Proof.Net
import Fleetboard.Proof.NetUtil
import Fleetboard.Proof.Blocks
import Fleetboard.Proof.Wireguard
import Fleetboard.Proof.InnerTunnel
import Fleetboard.Proof.NodeCIDR
import Fleetboard.Proof.Reclaim
import Fleetboard.Proof.Leader
import Fleetboard.Proof.InterTunnel
import Fleetboard.Proof.PeerDeletion
import Fleetboard.Proof.PeerCIDR
import Fleetboard.Proof.EndpointSliceCache
import Fleetboard.Proof.ServicePorts
import Fleetboard.Proof.Endpoints
import Fleetboard.Proof.SliceSync
import Fleetboard.Proof.ServiceExport
import Fleetboard.Proof.ExportMirror
import Fleetboard.Proof.ServiceImport
import Fleetboard.Proof.IPLeak
import Fleetboard.Proof.ImportMirror
import Fleetboard.Proof.SlicePass
import Fleetboard.Proof.FleetTidy
import Fleetboard.Proof.FleetDelivery
import Fleetboard.Proof.Veth
import Fleetboard.Proof.ServiceMap
import Fleetboard.Proof.SelfAnnotation
import Fleetboard.Proof.EndpointNames
import Fleetboard.Proof.IpvsTable
import Fleetboard.Proof.SyncLoops
import Fleetboard.Proof.SyncEndpoint
import Fleetboard.Proof.Termination
import Fleetboard.Proof.VirtualServers
import Fleetboard.Proof.DummyDevice
import Fleetboard.Proof.PodChange
import Fleetboard.Proof.SliceTracker
import Fleetboard.Proof.EndpointSet
import Fleetboard.Proof.PortMapping
import Fleetboard.Proof.DesiredEndpoints
import Fleetboard.Proof.AddressType
import Fleetboard.Proof.Settled
import Fleetboard.Proof.Finalize
import Fleetboard.Proof.Reconcile
import Fleetboard.Proof.Packing
import Fleetboard.Proof.AddressFamily
import Fleetboard.Proof.IndexIP
import Fleetboard.Proof.CniHandler
import Fleetboard.Proof.Apply
import Fleetboard.Proof.Categorize
import Fleetboard.Proof.CacheRuns
import Fleetboard.Proof.SliceOrder
import Fleetboard.Proof.NilSafety
import Fleetboard.Framework.Escaped
import Fleetboard.Model.Dns
import Fleetboard.Proof.DnsNames
import Fleetboard.Proof.Dns
import Fleetboard.Model.PodCommand
import Fleetboard.Model.ServiceCIDR
import Fleetboard.Proof.PodCommand
import Fleetboard.Proof.ServiceCIDR
import Fleetboard.Model.CrossDNS
import Fleetboard.Proof.CrossDNS
import Fleetboard.Proof.TopologyHints
import Fleetboard.Proof.TopologyZones
import Fleetboard.Proof.TopologyOverload
import Fleetboard.Proof.SliceController
import Fleetboard.Proof.SliceMetrics

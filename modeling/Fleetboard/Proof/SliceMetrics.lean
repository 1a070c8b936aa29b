import Fleetboard.Framework.Runs
import Fleetboard.Model.SliceMetrics
import Fleetboard.Proof.Packing
import Fleetboard.Proof.Reconcile

/-!
# The gauges show the slices that there are

The counters of the metrics cache change by differences, and the number of desired slices is
rounded in `float64`. After every run of syncs and deletions they are nevertheless the numbers
for the slices that the last syncs were to leave. A service of two address types counts with the
one that was synced last.

* `numDesiredSlices_eq`: the quotient of the two numbers is rounded up exactly;
* `totals_spMetrics`: a sync counts the slices that it is to leave, with the placeholder;
* `gauges_counted`: the counters and gauges after a run;
* `dualStack_undercounted`: what `Reconcile` does to them for a service of two address types;
* `desired_le_actual`: there are at least as many slices as desired.
-/

namespace Fleetboard.EndpointSlices

open GoMap Binary64

/-! ## Totals -/

/-- What a group of ports adds to the totals. -/
def EfficiencyInfo.counts (maxEndpointsPerSlice : Int) (eInfo : EfficiencyInfo) : Int × Int × Int :=
  (eInfo.Slices, numDesiredSlices eInfo.Endpoints maxEndpointsPerSlice, eInfo.Endpoints)

theorem totals_eq (o : PortOrder) (spc : ServicePortCache) (max : Int) :
    spc.totals o max = ((total (EfficiencyInfo.counts max) spc.items).1,
      if (total (EfficiencyInfo.counts max) spc.items).2.1 = 0 then 1
        else (total (EfficiencyInfo.counts max) spc.items).2.1,
      (total (EfficiencyInfo.counts max) spc.items).2.2) := by
  have hfold : ∀ (es : List ((_ : String) × EfficiencyInfo)) (acc : Int × Int × Int),
      es.foldl (fun acc e => (acc.1 + e.2.Slices,
        acc.2.1 + numDesiredSlices e.2.Endpoints max, acc.2.2 + e.2.Endpoints)) acc =
        acc + (es.map fun e => e.2.counts max).sum := by
    intro es
    induction es with
    | nil => simp
    | cons e es ih =>
      intro acc
      rw [List.foldl_cons, ih, List.map_cons, List.sum_cons, ← add_assoc]
      rfl
  have hperm : ((o.visit spc.items.entries).map fun e => e.2.counts max).sum =
      total (EfficiencyInfo.counts max) spc.items := ((o.perm _).map _).sum_eq
  have hzero : (((0, 0, 0) : Int × Int × Int) + total (EfficiencyInfo.counts max) spc.items) =
      total (EfficiencyInfo.counts max) spc.items := zero_add _
  rw [ServicePortCache.totals, hfold, hperm, hzero]

theorem ite_eq_max {n : Int} (hn : 0 ≤ n) : (if n = 0 then 1 else n) = max 1 n := by
  split
  · omega
  · omega

/-- The number of desired slices is exact. -/
theorem numDesiredSlices_eq {n max : Nat} (hmax : 0 < max) (hn : n < 2 ^ 53) :
    numDesiredSlices n max = ⌈(n : ℚ) / max⌉ := by
  have hmax' : (0 : ℚ) < max := by exact_mod_cast hmax
  rw [numDesiredSlices]
  split_ifs with hzero hle
  · have : n = 0 := by exact_mod_cast hzero
    rw [this]
    simp
  · have hpos : (0 : ℚ) < n := by
      have : n ≠ 0 := fun h => hzero (by rw [h]; rfl)
      exact_mod_cast Nat.pos_of_ne_zero this
    rw [eq_comm, Int.ceil_eq_iff]
    refine ⟨by simpa using div_pos hpos hmax', ?_⟩
    rw [Int.cast_one, div_le_one hmax']
    exact_mod_cast hle
  · have hlt : max < n := by exact_mod_cast not_le.1 hle
    have hn' : fl ((n : Int) : ℚ) = ((n : Int) : ℚ) :=
      fl_intCast (by rw [abs_of_nonneg (by positivity)]; omega)
    have hm' : fl ((max : Int) : ℚ) = ((max : Int) : ℚ) :=
      fl_intCast (by rw [abs_of_nonneg (by positivity)]; omega)
    rw [hn', hm', ceil_fl_div (by exact_mod_cast hmax) (by exact_mod_cast hlt.le)
      (by exact_mod_cast hn)]
    simp

/-! ## What a sync counts -/

/-- The number of slices that the endpoints of each group of ports would fill, or one. -/
def idealSlices (r : Reconciler) (slices : List EndpointSlice) : Int :=
  max 1 (∑ key ∈ (slices.map r.keyOf).toFinset,
    ⌈(numEndpoints (slices.filter (r.keyOf · = key)) : ℚ) / r.maxEndpointsPerSlice⌉)

/-- The actual number of slices, the ideal one and that of their endpoints. -/
def sizes (r : Reconciler) (slices : List EndpointSlice) : Int × Int × Int :=
  (slices.length, idealSlices r slices, numEndpoints slices)

namespace Reconciler

variable {r : Reconciler} {service : Service} {addressType : AddressType} {o : TypeOrders r.hasher}
  {desired : GoMap String (Desired r.hasher)} {existing kept left : List EndpointSlice}

/-- The slices of a group after its changes are counted. -/
theorem efficiencyInfo_slices (service : Service) (o : TypeOrders r.hasher)
    (hnames : (existing.map (·.name)).Nodup) (hnamed : ∀ s ∈ existing, s.name ≠ "")
    (e : (_ : String) × Desired r.hasher) :
    (r.efficiencyInfo service o existing e).Slices =
        ((existing.filter (ownedBy · service)).filter (r.keyOf · = e.1)).length +
          (r.groupChanges service o existing e).toCreate.length -
          (r.groupChanges service o existing e).toDelete.length ∧
      0 ≤ (r.efficiencyInfo service o existing e).Slices := by
  obtain ⟨kept, hrec⟩ := groupChanges_reconciled hnames hnamed service o e
  have hlength := hrec.names.length_eq
  simp only [List.length_map, List.length_append] at hlength
  have heq : (r.efficiencyInfo service o existing e).Slices =
      ((existing.filter (ownedBy · service)).filter (r.keyOf · = e.1)).length +
        (r.groupChanges service o existing e).toCreate.length -
        (r.groupChanges service o existing e).toDelete.length := by
    simp only [efficiencyInfo, getD_lookup_slicesByPortMap, groupChanges]
  refine ⟨heq, ?_⟩
  rw [heq]
  omega

/-- The groups' counts of slices add up to those that the changes leave. -/
theorem sum_slices (service : Service) (o : TypeOrders r.hasher)
    (hnames : (existing.map (·.name)).Nodup) (hnamed : ∀ s ∈ existing, s.name ≠ "")
    (desired : GoMap String (Desired r.hasher)) :
    ((o.desired.visit desired.entries).map fun e =>
        (r.efficiencyInfo service o existing e).Slices).sum =
      existing.length + (r.changesByPortMap service o existing desired).toCreate.length -
        (r.changesByPortMap service o existing desired).toDelete.length := by
  have hgroups := groups_perm o.desired desired (existing.filter (ownedBy · service))
  have hsum : ∀ es : List ((_ : String) × Desired r.hasher),
      (es.map fun e => (r.efficiencyInfo service o existing e).Slices).sum =
        (es.flatMap fun e =>
            (existing.filter (ownedBy · service)).filter (r.keyOf · = e.1)).length +
          (es.flatMap fun e => (r.groupChanges service o existing e).toCreate).length -
          (es.flatMap fun e => (r.groupChanges service o existing e).toDelete).length := by
    intro es
    induction es with
    | nil => rfl
    | cons e es ih =>
      rw [List.map_cons, List.sum_cons, ih, (efficiencyInfo_slices service o hnames hnamed e).1]
      simp only [List.flatMap_cons, List.length_append]
      push_cast
      ring
  have howned := (List.filter_append_perm (ownedBy · service) existing).length_eq
  have hdesired := (List.filter_append_perm (fun s => (desired.lookup (r.keyOf s)).isSome)
    (existing.filter (ownedBy · service))).length_eq
  have hnot := (@notDesired_perm r desired o.existing
    (existing.filter (ownedBy · service))).length_eq
  rw [List.length_append] at howned hdesired
  rw [hsum, hgroups.length_eq, changesByPortMap_eq]
  simp only [List.length_append]
  rw [hnot]
  push_cast
  omega

/-- The numbers of endpoints by group, of which those of groups without a slice are zero. -/
theorem Settled.sum_groups (h : Settled r service addressType desired left) {G : Nat → Int}
    (hG : G 0 = 0) (order : RangeOrder ((_ : String) × Desired r.hasher)) :
    ((order.visit desired.entries).map fun e => G e.2.endpoints.Len).sum =
      ∑ key ∈ (left.map r.keyOf).toFinset, G (numEndpoints (left.filter (r.keyOf · = key))) := by
  have hlen : ∀ e ∈ order.visit desired.entries,
      G e.2.endpoints.Len = G (numEndpoints (left.filter (r.keyOf · = e.1))) := fun e he => by
    rw [numEndpoints, (h.complete e.1 e.2 (mem_entries_iff.1 (order.mem_visit.1 he))).length_eq]
  have hmap : (order.visit desired.entries).map (fun e => G e.2.endpoints.Len) =
      ((order.visit desired.entries).map Sigma.fst).map fun key =>
        G (numEndpoints (left.filter (r.keyOf · = key))) := by
    rw [List.map_map]
    exact List.map_congr_left hlen
  rw [hmap, ← List.sum_toFinset _ (keys_visit_nodup order desired)]
  -- Both sums are over the groups that are desired and have a slice.
  refine Eq.trans (Finset.sum_subset
    (@Finset.inter_subset_left _ _ _ (left.map r.keyOf).toFinset) fun key hmem hnot => ?_).symm
    (Finset.sum_subset Finset.inter_subset_right fun key hmem hnot => ?_)
  · have hnil : left.filter (r.keyOf · = key) = [] := by
      refine List.filter_eq_nil_iff.2 fun s hs hkey => hnot ?_
      rw [Finset.mem_inter, List.mem_toFinset (l := left.map r.keyOf)]
      exact ⟨hmem, List.mem_map.2 ⟨s, hs, of_decide_eq_true hkey⟩⟩
    rw [hnil]
    exact hG
  · obtain ⟨s, hs, rfl⟩ := List.mem_map.1 (List.mem_toFinset.1 hmem)
    rcases h.form with hall | ⟨t, rfl, hcompare, -⟩
    · refine absurd (Finset.mem_inter.2 ⟨?_, hmem⟩) hnot
      have hkey := (hall s hs).1.2
      rw [AList.lookup_isSome, AList.mem_keys] at hkey
      rw [List.mem_toFinset]
      exact ((order.perm _).map Sigma.fst).mem_iff.2 hkey
    · obtain rfl := List.mem_singleton.1 hs
      have hendpoints := (placeholderSliceCompare_iff.1 hcompare).2.2.2.2.1
      have hzero :
          numEndpoints (([s] : List EndpointSlice).filter (r.keyOf · = r.keyOf s)) = 0 := by
        simp [numEndpoints, hendpoints]
      rw [hzero]
      exact hG

theorem numEndpoints_eq (slices : List EndpointSlice) :
    numEndpoints slices = (slices.map fun s => s.endpoints.length).sum := List.length_flatMap

/-- The changes leave settled slices. -/
theorem slicesLeft_settled (service : Service) (o : TypeOrders r.hasher)
    (hg : Grouped r addressType desired) (hnames : (existing.map (·.name)).Nodup)
    (hnamed : ∀ s ∈ existing, s.name ≠ "") (htype : ∀ s ∈ existing, s.addressType = addressType) :
    Settled r service addressType desired (r.slicesLeft service addressType o existing desired) ∧
      (r.slicesLeft service addressType o existing desired).length +
          (r.withPlaceholder service addressType existing.length
            (r.changesByPortMap service o existing desired)).toDelete.length =
        existing.length + (r.withPlaceholder service addressType existing.length
          (r.changesByPortMap service o existing desired)).toCreate.length := by
  obtain ⟨kept₁, hdivided⟩ : ∃ kept, Divided r service addressType desired existing
      (r.changesByPortMap service o existing desired) kept :=
    changesByPortMap_divided hg hnames hnamed o
  obtain ⟨kept, hsplit, hsettled⟩ := withPlaceholder_settled hdivided htype
  have hperm := hsplit.unchangedSlices_perm hnames
  have hlength := hsplit.names.length_eq
  simp only [List.length_map, List.length_append] at hlength
  refine ⟨hsettled.of_view ?_, ?_⟩
  · exact (((hperm.append_right _).append_right _).map _).symm
  · rw [slicesLeft, Changes.left, List.length_append, List.length_append, hperm.length_eq]
    omega

theorem items_foldl_Set (f : (_ : String) × Desired r.hasher → EfficiencyInfo)
    (es : List ((_ : String) × Desired r.hasher)) (spc : ServicePortCache) :
    (es.foldl (fun spc e => spc.Set e.1 (f e)) spc).items =
      es.foldl (fun m e => m.insert e.1 (f e)) spc.items := by
  induction es generalizing spc with
  | nil => rfl
  | cons e es ih => exact ih (spc.Set e.1 (f e))

/-- The counts of the groups of a sync, without the placeholder. -/
def groupInfos (r : Reconciler) (service : Service) (o : TypeOrders r.hasher)
    (existing : List EndpointSlice) (desired : GoMap String (Desired r.hasher)) :
    GoMap String EfficiencyInfo :=
  (o.desired.visit desired.entries).foldl
    (fun m e => m.insert e.1 (r.efficiencyInfo service o existing e)) ∅

/-- What the groups of a sync add up to. -/
theorem total_groups (service : Service) (o : TypeOrders r.hasher)
    (existing : List EndpointSlice)
    (hsmall : ∀ key d, desired.lookup key = some d → d.endpoints.Len < 2 ^ 53) :
    total (EfficiencyInfo.counts r.maxEndpointsPerSlice)
        (r.groupInfos service o existing desired) =
      (((o.desired.visit desired.entries).map fun e =>
          (r.efficiencyInfo service o existing e).Slices).sum,
        ((o.desired.visit desired.entries).map fun e =>
          ⌈(e.2.endpoints.Len : ℚ) / r.maxEndpointsPerSlice⌉).sum,
        ((o.desired.visit desired.entries).map fun e => (e.2.endpoints.Len : Int)).sum) := by
  have hcounts : ∀ e ∈ o.desired.visit desired.entries,
      (r.efficiencyInfo service o existing e).counts r.maxEndpointsPerSlice =
        ((r.efficiencyInfo service o existing e).Slices,
          ⌈(e.2.endpoints.Len : ℚ) / r.maxEndpointsPerSlice⌉, (e.2.endpoints.Len : Int)) := by
    intro e he
    have hlt := hsmall e.1 e.2 (mem_entries_iff.1 (o.desired.mem_visit.1 he))
    rw [EfficiencyInfo.counts, efficiencyInfo, numDesiredSlices_eq r.maxEndpointsPerSlice_pos hlt]
  rw [groupInfos, total_foldl_insert _ _ _ (keys_visit_nodup o.desired desired) ∅ fun _ _ => rfl,
    List.map_congr_left hcounts, sum_map_mk, sum_map_mk]
  exact zero_add _

theorem items_spMetrics (service : Service) (addressType : AddressType) (o : TypeOrders r.hasher)
    (existing : List EndpointSlice) (desired : GoMap String (Desired r.hasher)) :
    (r.spMetrics service addressType o existing desired).items =
      if existing.length = (r.changesByPortMap service o existing desired).toDelete.length ∧
          (r.changesByPortMap service o existing desired).toCreate.length < 1 then
        (r.groupInfos service o existing desired).insert (r.hasher.NewPortMapKey (some [])) ⟨0, 1⟩
      else r.groupInfos service o existing desired := by
  have hitems := items_foldl_Set (r.efficiencyInfo service o existing)
    (o.desired.visit desired.entries) NewServicePortCache
  rw [spMetrics]
  split
  · exact congrArg (AList.insert _ _) hitems
  · exact hitems

/-- Groups without slices and endpoints add nothing to the placeholder. -/
theorem total_placeholder {key : String}
    (hlen : ∀ e ∈ o.desired.visit desired.entries, e.2.endpoints.Len = 0)
    (hzero : ∀ e ∈ o.desired.visit desired.entries,
      (r.efficiencyInfo service o existing e).Slices = 0) :
    total (EfficiencyInfo.counts r.maxEndpointsPerSlice)
      ((r.groupInfos service o existing desired).insert key ⟨0, 1⟩) = (1, 0, 0) := by
  have hcounts : ∀ e ∈ o.desired.visit desired.entries,
      (r.efficiencyInfo service o existing e).counts r.maxEndpointsPerSlice = 0 := by
    intro e he
    have hempty : (r.efficiencyInfo service o existing e).Endpoints = 0 := by
      show (e.2.endpoints.Len : Int) = 0
      rw [hlen e he]
      rfl
    rw [EfficiencyInfo.counts, hzero e he, hempty]
    rfl
  have herase : total (EfficiencyInfo.counts r.maxEndpointsPerSlice)
      ((r.groupInfos service o existing desired).erase key) = 0 := by
    refine total_eq_zero fun key' eInfo hlookup => ?_
    rw [lookup_erase_eq] at hlookup
    split at hlookup
    · cases hlookup
    · rcases lookup_foldl_insert hlookup with ⟨e, he, rfl⟩ | hnone
      · exact hcounts e he
      · cases hnone
  rw [total_insert, herase]
  rfl

/-- If all slices are to be deleted and none is to be created, nothing is desired. -/
theorem Divided.len_eq_zero {changes : Changes}
    (h : Divided r service addressType desired existing changes kept)
    (hcond : existing.length = changes.toDelete.length ∧ changes.toCreate.length < 1)
    {key : String} {d : Desired r.hasher} (hd : desired.lookup key = some d) :
    d.endpoints.Len = 0 := by
  have hnames := h.names.length_eq
  simp only [List.length_map, List.length_append] at hnames
  have hcomplete := h.complete key d hd
  rw [List.length_eq_zero_iff.1 (show kept.length = 0 by omega),
    List.length_eq_zero_iff.1 (show changes.toUpdate.length = 0 by omega),
    List.length_eq_zero_iff.1 (show changes.toCreate.length = 0 by omega)] at hcomplete
  exact hcomplete.length_eq.symm

theorem sizes_of_settled (h : Settled r service addressType desired left)
    (order : RangeOrder ((_ : String) × Desired r.hasher)) :
    sizes r left = ((left.length : Int),
      max 1 ((order.visit desired.entries).map fun e =>
        ⌈(e.2.endpoints.Len : ℚ) / r.maxEndpointsPerSlice⌉).sum,
      ((order.visit desired.entries).map fun e => (e.2.endpoints.Len : Int)).sum) := by
  have hideal := h.sum_groups (G := fun n => ⌈(n : ℚ) / r.maxEndpointsPerSlice⌉) (by simp) order
  have hendpoints := h.sum_groups (G := fun n => (n : Int)) rfl order
  have hsum : numEndpoints left = ∑ key ∈ (left.map r.keyOf).toFinset,
      numEndpoints (left.filter (r.keyOf · = key)) := by
    simp only [numEndpoints_eq]
    exact (sum_by_key r.keyOf (fun s => s.endpoints.length) left).symm
  rw [sizes, idealSlices, ← hideal, hendpoints, hsum, Nat.cast_sum]

/-- A sync counts the slices that it is to leave. -/
theorem totals_spMetrics (service : Service) (o : TypeOrders r.hasher) (order : PortOrder)
    (hg : Grouped r addressType desired) (hnames : (existing.map (·.name)).Nodup)
    (hnamed : ∀ s ∈ existing, s.name ≠ "") (htype : ∀ s ∈ existing, s.addressType = addressType)
    (hsmall : ∀ key d, desired.lookup key = some d → d.endpoints.Len < 2 ^ 53) :
    (r.spMetrics service addressType o existing desired).totals order r.maxEndpointsPerSlice =
      sizes r (r.slicesLeft service addressType o existing desired) := by
  obtain ⟨hsettled, hlength⟩ := slicesLeft_settled service o hg hnames hnamed htype
  obtain ⟨kept, hdivided⟩ : ∃ kept, Divided r service addressType desired existing
      (r.changesByPortMap service o existing desired) kept :=
    changesByPortMap_divided hg hnames hnamed o
  have hslices := sum_slices service o hnames hnamed desired
  have hgroups := total_groups service o existing hsmall
  have hnonneg : 0 ≤ ((o.desired.visit desired.entries).map fun e =>
      ⌈(e.2.endpoints.Len : ℚ) / r.maxEndpointsPerSlice⌉).sum := by
    refine List.sum_nonneg fun n hn => ?_
    obtain ⟨e, -, rfl⟩ := List.mem_map.1 hn
    exact Int.ceil_nonneg (by positivity)
  rw [totals_eq, sizes_of_settled hsettled o.desired]
  generalize hchanges : r.changesByPortMap service o existing desired = changes
    at hlength hdivided hslices
  rcases @withPlaceholder_cases r service addressType existing.length changes with
    ⟨hcond, heq⟩ | ⟨hcond, hcases⟩
  · rw [heq] at hlength
    rw [items_spMetrics, hchanges, if_neg hcond, hgroups]
    refine Prod.ext ?_ (Prod.ext ?_ rfl)
    · show ((o.desired.visit desired.entries).map fun e =>
        (r.efficiencyInfo service o existing e).Slices).sum = _
      omega
    · exact ite_eq_max hnonneg
  · -- Nothing is desired, and the only slice is the placeholder.
    have hlen : ∀ e ∈ o.desired.visit desired.entries, e.2.endpoints.Len = 0 := fun e he =>
      hdivided.len_eq_zero hcond (mem_entries_iff.1 (o.desired.mem_visit.1 he))
    have hzero : ∀ e ∈ o.desired.visit desired.entries,
        (r.efficiencyInfo service o existing e).Slices = 0 := by
      have hnames' := hdivided.names.length_eq
      simp only [List.length_map, List.length_append] at hnames'
      intro e he
      refine List.all_zero_of_le_zero_le_of_sum_eq_zero
        (l := (o.desired.visit desired.entries).map fun e =>
          (r.efficiencyInfo service o existing e).Slices)
        (List.forall_mem_map.2 fun e _ => (efficiencyInfo_slices service o hnames hnamed e).2)
        (by omega) (List.mem_map_of_mem he)
    have hleft : (r.slicesLeft service addressType o existing desired).length = 1 := by
      rcases hcases with ⟨slice, hdelete, -, heq⟩ | heq
      · rw [heq] at hlength
        rw [hdelete, List.length_singleton] at hcond
        simp only [List.length_nil] at hlength
        omega
      · rw [heq] at hlength
        simp only [List.length_append, List.length_singleton] at hlength
        omega
    have hsum : ∀ G : Nat → Int, G 0 = 0 →
        ((o.desired.visit desired.entries).map fun e => G e.2.endpoints.Len).sum = 0 := by
      intro G hG
      refine List.sum_eq_zero fun n hn => ?_
      obtain ⟨e, he, rfl⟩ := List.mem_map.1 hn
      rw [hlen e he, hG]
    rw [items_spMetrics, hchanges, if_pos hcond, total_placeholder hlen hzero, hleft,
      hsum (fun n => (n : Int)) rfl, hsum (fun n => ⌈(n : ℚ) / r.maxEndpointsPerSlice⌉) (by simp)]
    rfl

/-! ## The pods -/

theorem len_insert {h : Hasher} (set : EndpointSet h) (endpoint : Endpoint) :
    (set.Insert endpoint).Len ≤ set.Len + 1 := by
  have hle := (List.kerase_sublist (h.hashEndpoint endpoint) set.items.entries).length_le
  exact Nat.succ_le_succ hle

/-- The groups are those of their ports, and have no more endpoints than some number. -/
structure Loaded (r : Reconciler) (addressType : AddressType) (n : Nat)
    (desired : GoMap String (Desired r.hasher)) : Prop where
  grouped : Grouped r addressType desired
  len : ∀ key d, desired.lookup key = some d → d.endpoints.Len ≤ n

theorem Loaded.insert {n : Nat} (h : Loaded r addressType n desired) {key : String}
    {d : Desired r.hasher} (hports : r.hasher.NewPortMapKey d.endpointMeta.ports = key)
    (htype : d.endpointMeta.addressType = addressType) (hlen : d.endpoints.Len ≤ n + 1) :
    Loaded r addressType (n + 1) (desired.insert key d) := by
  refine ⟨fun {key' d'} hlookup => ?_, fun key' d' hlookup => ?_⟩
  · rw [lookup_insert_eq] at hlookup
    split at hlookup
    · rename_i hkey
      cases hlookup
      exact ⟨hports.trans hkey.symm, htype⟩
    · exact h.grouped hlookup
  · rw [lookup_insert_eq] at hlookup
    split at hlookup
    · cases hlookup
      exact hlen
    · exact (h.len key' d' hlookup).trans (Nat.le_succ n)

theorem Loaded.addPod {n : Nat} {errs : List Error}
    {acc : GoMap String (Desired r.hasher) × List Error} {pod : Pod}
    (h : Loaded r addressType n desired)
    (hpod : r.addPod service addressType (desired, errs) pod = .ok acc) :
    Loaded r addressType (n + 1) acc.1 := by
  obtain ⟨hports, htype, hlen⟩ : r.hasher.NewPortMapKey
      (r.podGroup service addressType desired pod).endpointMeta.ports =
        r.hasher.NewPortMapKey (some (getEndpointPorts service pod)) ∧
      (r.podGroup service addressType desired pod).endpointMeta.addressType = addressType ∧
      (r.podGroup service addressType desired pod).endpoints.Len ≤ n := by
    rw [podGroup]
    cases hlookup : desired.lookup
        (r.hasher.NewPortMapKey (some (getEndpointPorts service pod))) with
    | none =>
      have hsorted : r.hasher.NewPortMapKey
          (r.hasher.sortPorts (some (getEndpointPorts service pod))) =
          r.hasher.NewPortMapKey (some (getEndpointPorts service pod)) := newPortMapKey_sortPorts
      exact ⟨hsorted, rfl, Nat.zero_le n⟩
    | some d => exact ⟨(h.grouped hlookup).1, (h.grouped hlookup).2, h.len _ d hlookup⟩
  rcases addPod_cases hpod with ⟨-, heq⟩ | ⟨-, -, d, heq, ⟨-, -, rfl⟩ | ⟨-, rfl⟩⟩
  · rw [heq]
    exact ⟨h.grouped, fun key d hd => (h.len key d hd).trans (Nat.le_succ n)⟩
  · rw [heq]
    exact h.insert hports htype ((len_insert _ _).trans (Nat.succ_le_succ hlen))
  · rw [heq]
    exact h.insert hports htype (hlen.trans (Nat.le_succ n))

theorem Loaded.foldlM {n : Nat} {pods : List Pod}
    {acc acc' : GoMap String (Desired r.hasher) × List Error} (h : Loaded r addressType n acc.1)
    (hpods : pods.foldlM (r.addPod service addressType) acc = .ok acc') :
    Loaded r addressType (n + pods.length) acc'.1 := by
  induction pods generalizing n acc with
  | nil =>
    cases hpods
    exact h
  | cons pod pods ih =>
    rw [List.foldlM_cons] at hpods
    cases hpod : r.addPod service addressType acc pod with
    | error e =>
      rw [hpod] at hpods
      cases hpods
    | ok acc₁ =>
      rw [hpod] at hpods
      have hle := ih (Loaded.addPod h hpod) hpods
      rwa [Nat.add_right_comm, Nat.add_assoc] at hle

theorem loaded_empty : Loaded r addressType 0 ∅ where
  grouped hlookup := by cases hlookup
  len _ _ hlookup := by cases hlookup

/-! ## Sizes of slices -/

/-- Slices of the allowed size are not fewer than the ideal number. -/
theorem idealSlices_le {slices : List EndpointSlice} (hne : slices ≠ [])
    (hsize : ∀ s ∈ slices, s.endpoints.length ≤ r.maxEndpointsPerSlice) :
    idealSlices r slices ≤ slices.length := by
  have hmax : (0 : ℚ) < r.maxEndpointsPerSlice := by exact_mod_cast r.maxEndpointsPerSlice_pos
  have hlength : (∑ key ∈ (slices.map r.keyOf).toFinset,
      (slices.filter (r.keyOf · = key)).length) = slices.length := by
    have hsum := sum_by_key r.keyOf (fun _ => 1) slices
    simpa only [List.map_const', List.sum_replicate, smul_eq_mul, mul_one] using hsum
  refine max_le ?_ ?_
  · have := List.length_pos_iff.2 hne
    omega
  · rw [← hlength, Nat.cast_sum]
    refine Finset.sum_le_sum fun key _ => ?_
    rw [Int.ceil_le, div_le_iff₀ hmax]
    have hle : numEndpoints (slices.filter (r.keyOf · = key)) ≤
        (slices.filter (r.keyOf · = key)).length * r.maxEndpointsPerSlice := by
      rw [numEndpoints_eq]
      refine (List.sum_le_card_nsmul _ r.maxEndpointsPerSlice ?_).trans (by simp)
      exact List.forall_mem_map.2 fun s hs => hsize s (List.mem_of_mem_filter hs)
    exact_mod_cast hle

theorem toUpdate_withPlaceholder (numExisting : Nat) (changes : Changes) :
    (r.withPlaceholder service addressType numExisting changes).toUpdate = changes.toUpdate := by
  rcases @withPlaceholder_cases r service addressType numExisting changes with
    ⟨-, heq⟩ | ⟨-, ⟨_, -, -, heq⟩ | heq⟩
  · rw [heq]
  · rw [heq]
  · rw [heq]

theorem mem_toCreate_withPlaceholder {numExisting : Nat} {changes : Changes} {s : EndpointSlice}
    (hs : s ∈ (r.withPlaceholder service addressType numExisting changes).toCreate) :
    s ∈ changes.toCreate ∨ s = r.placeholder service addressType := by
  rcases @withPlaceholder_cases r service addressType numExisting changes with
    ⟨-, heq⟩ | ⟨-, ⟨_, -, -, heq⟩ | heq⟩
  · rw [heq] at hs
    exact .inl hs
  · rw [heq] at hs
    exact .inl hs
  · rw [heq] at hs
    exact (List.mem_append.1 hs).imp_right List.mem_singleton.1

/-- The slices that are left are not too large if the existing ones are not. -/
theorem slicesLeft_size (service : Service) (o : TypeOrders r.hasher)
    (hg : Grouped r addressType desired) (hnames : (existing.map (·.name)).Nodup)
    (hnamed : ∀ s ∈ existing, s.name ≠ "")
    (hsize : ∀ s ∈ existing, s.endpoints.length ≤ r.maxEndpointsPerSlice) :
    ∀ s ∈ r.slicesLeft service addressType o existing desired,
      s.endpoints.length ≤ r.maxEndpointsPerSlice := by
  obtain ⟨kept, hdivided⟩ : ∃ kept, Divided r service addressType desired existing
      (r.changesByPortMap service o existing desired) kept :=
    changesByPortMap_divided hg hnames hnamed o
  have hupdate : ∀ s ∈ (r.changesByPortMap service o existing desired).toUpdate,
      s.endpoints.length ≤ r.maxEndpointsPerSlice := by
    intro s hs
    obtain ⟨t, ht, -, hle⟩ := hdivided.revised s hs
    exact hle.trans (max_le le_rfl (hsize t ht))
  have hcreate : ∀ s ∈ (r.changesByPortMap service o existing desired).toCreate,
      s.endpoints.length ≤ r.maxEndpointsPerSlice := by
    intro s hs
    rw [changesByPortMap_eq] at hs
    obtain ⟨e, -, hs⟩ := List.mem_flatMap.1 hs
    obtain ⟨hnodup, hne⟩ := group_names (r := r) hnames hnamed service e.1
    exact ((beforeRounds_rounds hnodup hne service (o.group e.1) e.2.endpointMeta
      e.2.endpoints).1.sizes s hs).2
  intro s hs
  rw [slicesLeft, Changes.left, List.mem_append, List.mem_append, toUpdate_withPlaceholder] at hs
  rcases hs with (hs | hs) | hs
  · exact hsize s (List.mem_of_mem_filter hs)
  · exact hupdate s hs
  · rcases mem_toCreate_withPlaceholder hs with hs | rfl
    · exact hcreate s hs
    · exact Nat.zero_le _

end Reconciler

/-! ## Runs -/

open Reconciler

/-- A sync is about stored slices of the address type, and not of too many pods. -/
def MetricsEvent.WellFormed : MetricsEvent → Prop
  | .sync _ pods existingSlices addressType =>
    Stored existingSlices ∧ (∀ s ∈ existingSlices, s.addressType = addressType) ∧
      pods.length < 2 ^ 53
  | .deleteService _ => True

/-- The existing slices of a sync have the allowed size. -/
def MetricsEvent.Sized (max : Nat) : MetricsEvent → Prop
  | .sync _ _ existingSlices _ => ∀ s ∈ existingSlices, s.endpoints.length ≤ max
  | .deleteService _ => True

/-- The counters and the cache are about the slices that are left. -/
structure MetricsState.Counted (r : Reconciler) (s : MetricsState) : Prop where
  max : s.metrics.maxEndpointsPerSlice = r.maxEndpointsPerSlice
  counters : (s.metrics.numSlicesActual, s.metrics.numSlicesDesired, s.metrics.numEndpoints) =
    total (sizes r) s.left
  cached : ∀ key order, (s.metrics.cache.lookup key).map
    (fun spc => spc.totals order r.maxEndpointsPerSlice) = (s.left.lookup key).map (sizes r)
  gauges : s.metrics.gauges = ⟨fl s.metrics.numSlicesActual, fl s.metrics.numSlicesDesired,
    fl s.metrics.numEndpoints⟩

variable {r : Reconciler}

theorem counted_start : MetricsState.Counted r ⟨.NewCache r.maxEndpointsPerSlice, ∅⟩ where
  max := rfl
  counters := rfl
  cached _ _ := rfl
  gauges := by
    have hzero : fl ((0 : Int) : ℚ) = 0 := fl_intCast (by norm_num)
    simp only [MetricsCache.NewCache, hzero]

theorem MetricsState.Counted.existingTotals_eq {s : MetricsState} (h : s.Counted r)
    (order : PortOrder) (key : NamespacedName) :
    s.metrics.existingTotals order key = ((s.left.lookup key).map (sizes r)).getD 0 := by
  rw [← h.cached key order, MetricsCache.existingTotals, h.max]
  cases s.metrics.cache.lookup key with
  | none => rfl
  | some spc => rfl

theorem MetricsState.Counted.update {s : MetricsState} (h : s.Counted r)
    (prevOrder currOrder : PortOrder) (key : NamespacedName) {spc : ServicePortCache}
    {left : List EndpointSlice}
    (htotals : ∀ order, spc.totals order r.maxEndpointsPerSlice = sizes r left) :
    MetricsState.Counted r
      ⟨s.metrics.UpdateServicePortCache prevOrder currOrder key spc, s.left.insert key left⟩ := by
  have hprev := h.existingTotals_eq prevOrder key
  have hcurr : spc.totals currOrder s.metrics.maxEndpointsPerSlice = sizes r left := by
    rw [h.max, htotals]
  have htotal := h.counters
  rw [total_eq_add_erase (sizes r) s.left key, ← hprev, Prod.ext_iff, Prod.ext_iff] at htotal
  obtain ⟨hactual, hdesired, hendpoints⟩ := htotal
  refine ⟨h.max, ?_, fun key' order => ?_, rfl⟩
  · rw [total_insert, ← hcurr]
    refine Prod.ext ?_ (Prod.ext ?_ ?_)
    · show s.metrics.numSlicesActual + ((spc.totals currOrder s.metrics.maxEndpointsPerSlice).1 -
        (s.metrics.existingTotals prevOrder key).1) = _ + _
      dsimp only [Prod.fst_add] at hactual
      omega
    · show s.metrics.numSlicesDesired + ((spc.totals currOrder s.metrics.maxEndpointsPerSlice).2.1 -
        (s.metrics.existingTotals prevOrder key).2.1) = _ + _
      dsimp only [Prod.snd_add, Prod.fst_add] at hdesired
      omega
    · show s.metrics.numEndpoints + (spc.totals currOrder s.metrics.maxEndpointsPerSlice).2.2 -
        (s.metrics.existingTotals prevOrder key).2.2 = _ + _
      dsimp only [Prod.snd_add] at hendpoints
      omega
  · show ((s.metrics.cache.insert key spc).lookup key').map _ =
      ((s.left.insert key left).lookup key').map _
    rw [lookup_insert_eq, lookup_insert_eq]
    split
    · exact congrArg some (htotals order)
    · exact h.cached key' order

theorem MetricsState.Counted.delete {s : MetricsState} (h : s.Counted r) (order : PortOrder)
    (key : NamespacedName) :
    MetricsState.Counted r ⟨s.metrics.DeleteService order key, s.left.erase key⟩ := by
  have htotal := h.counters
  rw [total_eq_add_erase (sizes r) s.left key, ← h.cached key order] at htotal
  have hcached : ∀ key' order', ((s.metrics.cache.erase key).lookup key').map
      (fun spc => spc.totals order' r.maxEndpointsPerSlice) =
        ((s.left.erase key).lookup key').map (sizes r) := by
    intro key' order'
    rw [lookup_erase_eq, lookup_erase_eq]
    split
    · rfl
    · exact h.cached key' order'
  unfold MetricsCache.DeleteService
  cases hlookup : s.metrics.cache.lookup key with
  | none =>
    rw [hlookup] at htotal
    refine ⟨h.max, htotal.trans (zero_add _), fun key' order' => ?_, h.gauges⟩
    show (s.metrics.cache.lookup key').map _ = _
    rw [← hcached key' order', lookup_erase_eq]
    by_cases hkey : key' = key
    · rw [if_pos hkey, hkey, hlookup]
    · rw [if_neg hkey]
  | some spc =>
    rw [hlookup, ← h.max] at htotal
    rw [Prod.ext_iff, Prod.ext_iff] at htotal
    obtain ⟨hactual, hdesired, hendpoints⟩ := htotal
    refine ⟨h.max, Prod.ext ?_ (Prod.ext ?_ ?_), hcached, rfl⟩
    · show s.metrics.numSlicesActual - (spc.totals order s.metrics.maxEndpointsPerSlice).1 =
        (total (sizes r) (s.left.erase key)).1
      dsimp only [Option.map_some, Option.getD_some, Prod.fst_add] at hactual
      omega
    · show s.metrics.numSlicesDesired - (spc.totals order s.metrics.maxEndpointsPerSlice).2.1 =
        (total (sizes r) (s.left.erase key)).2.1
      dsimp only [Option.map_some, Option.getD_some, Prod.snd_add, Prod.fst_add] at hdesired
      omega
    · show s.metrics.numEndpoints - (spc.totals order s.metrics.maxEndpointsPerSlice).2.2 =
        (total (sizes r) (s.left.erase key)).2.2
      dsimp only [Option.map_some, Option.getD_some, Prod.snd_add] at hendpoints
      omega

theorem Reconciler.Stored.sortInPlace {existing : List EndpointSlice} (h : Stored existing)
    (service : Service) (desired : GoMap String (Desired r.hasher)) :
    Stored (existing.map (r.sortInPlace service desired)) where
  nodup := by
    rw [map_name_sortInPlace]
    exact h.nodup
  named := List.forall_mem_map.2 fun s hs => by
    rw [name_sortInPlace]
    exact h.named s hs

theorem ofType_sortInPlace {existing : List EndpointSlice} {addressType : AddressType}
    (service : Service) (desired : GoMap String (Desired r.hasher))
    (h : ∀ s ∈ existing, s.addressType = addressType) :
    ∀ s ∈ existing.map (r.sortInPlace service desired), s.addressType = addressType := by
  refine List.forall_mem_map.2 fun s hs => ?_
  rw [addressType_sortInPlace]
  exact h s hs

theorem length_sortInPlace (service : Service) (desired : GoMap String (Desired r.hasher))
    (s : EndpointSlice) :
    (r.sortInPlace service desired s).endpoints.length = s.endpoints.length := by
  rw [Reconciler.sortInPlace]
  split
  · dsimp only
    split
    · rw [List.length_map]
    · rfl
  · rfl

theorem MetricsState.Counted.step {s s' : MetricsState} {e : MetricsEvent} (h : s.Counted r)
    (hstep : Guarded (MetricsState.Step r) (fun _ => MetricsEvent.WellFormed) s e s') :
    s'.Counted r := by
  obtain ⟨hstep, hguard⟩ := hstep
  cases hstep with
  | @sync service pods existing addressType o prevOrder currOrder desired errs hdesired =>
    obtain ⟨hstored, htype, hpods⟩ := hguard
    obtain ⟨hgrouped, hlen⟩ := loaded_empty.foldlM hdesired
    have hsorted := hstored.sortInPlace (r := r) service desired
    refine h.update prevOrder currOrder _ fun order => ?_
    refine totals_spMetrics service o order hgrouped hsorted.nodup hsorted.named
      (ofType_sortInPlace service desired htype) fun key d hd => ?_
    have := hlen key d hd
    omega
  | failed => exact h
  | deleteService o serviceNN => exact h.delete o serviceNN

theorem MetricsState.Counted.totals {s : MetricsState} (h : s.Counted r) :
    s.metrics.numSlicesActual = total (fun left => (left.length : Int)) s.left ∧
      s.metrics.numSlicesDesired = total (idealSlices r) s.left ∧
      s.metrics.numEndpoints = total (fun left => (numEndpoints left : Int)) s.left := by
  have htotal : total (sizes r) s.left = (total (fun left => (left.length : Int)) s.left,
      total (idealSlices r) s.left, total (fun left => (numEndpoints left : Int)) s.left) := by
    simp only [total, sizes, sum_map_mk]
  have hcounters := h.counters.trans htotal
  rw [Prod.ext_iff, Prod.ext_iff] at hcounters
  exact hcounters

/-- After every run of syncs, each of one address type, and deletions, the counters are the numbers
of the slices, of the ideal slices and of the endpoints that the last sync of each service was to
leave, and the gauges show them. -/
theorem gauges_counted {es : List MetricsEvent} {s : MetricsState}
    (hrun : Runs (Guarded (MetricsState.Step r) fun _ => MetricsEvent.WellFormed)
      ⟨.NewCache r.maxEndpointsPerSlice, ∅⟩ es s) :
    s.metrics.numSlicesActual = total (fun left => (left.length : Int)) s.left ∧
      s.metrics.numSlicesDesired = total (idealSlices r) s.left ∧
      s.metrics.numEndpoints = total (fun left => (numEndpoints left : Int)) s.left ∧
      s.metrics.gauges = ⟨fl s.metrics.numSlicesActual, fl s.metrics.numSlicesDesired,
        fl s.metrics.numEndpoints⟩ := by
  have hcounted : s.Counted r := hrun.invariant (fun h hstep => h.step hstep) counted_start
  obtain ⟨hactual, hdesired, hendpoints⟩ := hcounted.totals
  exact ⟨hactual, hdesired, hendpoints, hcounted.gauges⟩

theorem MetricsState.Step.sync_left {s s' : MetricsState} {service : Service} {pods : List Pod}
    {existing : List EndpointSlice} {addressType : AddressType}
    (h : Guarded (MetricsState.Step r) (fun _ => MetricsEvent.WellFormed) s
      (.sync service pods existing addressType) s')
    (hlooked : ∀ pod ∈ pods, ShouldPodBeInEndpoints pod true = true → r.LookedUp pod) :
    ∃ left, left ≠ [] ∧ s'.left = s.left.insert ⟨service.ns, service.name⟩ left := by
  obtain ⟨hstep, hstored, htype, -⟩ := h
  cases hstep with
  | @sync service pods existing addressType o prevOrder currOrder desired errs hdesired =>
    obtain ⟨hgrouped, -⟩ := loaded_empty.foldlM hdesired
    have hsorted := hstored.sortInPlace (r := r) service desired
    refine ⟨_, ?_, rfl⟩
    exact (slicesLeft_settled service o hgrouped hsorted.nodup hsorted.named
      (ofType_sortInPlace service desired htype)).1.nonempty
  | failed hfailed =>
    obtain ⟨acc, hacc⟩ : ∃ acc, pods.foldlM (r.addPod service addressType) (∅, []) = .ok acc :=
      exists_foldlM_addPod _ hlooked
    cases hacc.symm.trans hfailed

/-- `Reconcile` syncs the address types of a service one after the other, and each sync replaces
the entry of the one before: when the second type has been synced, the slices of the first, of
which there is at least one, are no longer counted. -/
theorem dualStack_undercounted {s s₁ s₂ : MetricsState} (hs : s.Counted r) {service : Service}
    {pods : List Pod} {existing₁ existing₂ : List EndpointSlice} {addressType₁ addressType₂ : AddressType}
    (hlooked : ∀ pod ∈ pods, ShouldPodBeInEndpoints pod true = true → r.LookedUp pod)
    (h₁ : Guarded (MetricsState.Step r) (fun _ => MetricsEvent.WellFormed) s
      (.sync service pods existing₁ addressType₁) s₁)
    (h₂ : Guarded (MetricsState.Step r) (fun _ => MetricsEvent.WellFormed) s₁
      (.sync service pods existing₂ addressType₂) s₂) :
    ∃ left₁ left₂, s₁.left.lookup ⟨service.ns, service.name⟩ = some left₁ ∧ left₁ ≠ [] ∧
      s₂.left.lookup ⟨service.ns, service.name⟩ = some left₂ ∧
      s₂.metrics.numSlicesActual = s₁.metrics.numSlicesActual - left₁.length + left₂.length := by
  have hs₁ := hs.step h₁
  obtain ⟨left₁, hne, hleft₁⟩ := MetricsState.Step.sync_left h₁ hlooked
  obtain ⟨left₂, -, hleft₂⟩ := MetricsState.Step.sync_left h₂ hlooked
  have hlookup₁ : s₁.left.lookup ⟨service.ns, service.name⟩ = some left₁ := by
    rw [hleft₁, lookup_insert_eq, if_pos rfl]
  refine ⟨left₁, left₂, hlookup₁, hne, by rw [hleft₂, lookup_insert_eq, if_pos rfl], ?_⟩
  rw [hs₁.totals.1, (hs₁.step h₂).totals.1, hleft₂, total_insert,
    total_eq_add_erase _ s₁.left ⟨service.ns, service.name⟩, hlookup₁, Option.map_some,
    Option.getD_some]
  omega

/-- A reconciler with one group of ports, that knows endpoints by their addresses. -/
def oneGroup : Reconciler where
  hasher := ⟨fun o => match o with
    | .endpoint obj => String.intercalate "," obj.addresses
    | _ => "h"⟩
  parseIP := id
  isIPv6String _ := false
  nameIsDNSSubdomain _ := true
  nodeLister _ := .ok ⟨∅⟩
  maxEndpointsPerSlice := 100
  maxEndpointsPerSlice_pos := Nat.succ_pos 99
  managedByName := "endpointslice-controller.fleetboard.io"

/-- Two services are synced, the first with two pods, and the second is deleted. -/
def webMetrics : List MetricsEvent :=
  [.sync webService [webPod "1" "10.20.0.4" .true, webPod "1" "10.20.0.5" .true] [staleSlice] .ipv4,
    .sync { webService with name := "db" } [webPod "1" "10.20.0.6" .true] [] .ipv4,
    .deleteService ⟨"shop", "db"⟩]

theorem webMetrics_run : ∃ s, Runs (Guarded (MetricsState.Step oneGroup) fun _ e =>
      e.WellFormed ∧ e.Sized oneGroup.maxEndpointsPerSlice)
      ⟨.NewCache oneGroup.maxEndpointsPerSlice, ∅⟩ webMetrics s ∧
    s.metrics.numEndpoints = 2 ∧ s.metrics.numSlicesActual = 1 := by
  refine ⟨_, .cons ⟨.sync webService (storedOrders _) .stored .stored rfl, ?_, ?_⟩
    (.cons ⟨.sync _ (storedOrders _) .stored .stored rfl, ?_, ?_⟩
      (.single ⟨.deleteService .stored _, trivial, trivial⟩)), ?_, ?_⟩
  · exact ⟨⟨List.nodup_singleton _, List.forall_mem_singleton.2 (by decide)⟩,
      List.forall_mem_singleton.2 rfl, by decide⟩
  · exact List.forall_mem_singleton.2 (by decide)
  · exact ⟨⟨List.nodup_nil, List.forall_mem_nil _⟩, List.forall_mem_nil _, by decide⟩
  · exact List.forall_mem_nil _
  · decide +kernel
  · decide +kernel

theorem gauges_counted_web : ∃ s, Runs (Guarded (MetricsState.Step oneGroup) fun _ e =>
      e.WellFormed ∧ e.Sized oneGroup.maxEndpointsPerSlice)
      ⟨.NewCache oneGroup.maxEndpointsPerSlice, ∅⟩ webMetrics s ∧
    s.metrics.numEndpoints = 2 ∧
    s.metrics.numSlicesActual = total (fun left => (left.length : Int)) s.left ∧
    s.metrics.numSlicesDesired = total (idealSlices oneGroup) s.left ∧
    s.metrics.numEndpoints = total (fun left => (numEndpoints left : Int)) s.left ∧
    s.metrics.gauges = ⟨fl s.metrics.numSlicesActual, fl s.metrics.numSlicesDesired,
      fl s.metrics.numEndpoints⟩ := by
  obtain ⟨s, hrun, hendpoints, -⟩ := webMetrics_run
  exact ⟨s, hrun, hendpoints, gauges_counted (hrun.mono fun hstep => ⟨hstep.1, hstep.2.1⟩)⟩

/-- The slices that are left are not fewer than the ideal number. -/
def MetricsState.Packed (r : Reconciler) (s : MetricsState) : Prop :=
  ∀ key left, s.left.lookup key = some left → idealSlices r left ≤ left.length

theorem MetricsState.Packed.step {s s' : MetricsState} {e : MetricsEvent} (h : s.Packed r)
    (hstep : Guarded (MetricsState.Step r) (fun _ e =>
      e.WellFormed ∧ e.Sized r.maxEndpointsPerSlice) s e s') : s'.Packed r := by
  obtain ⟨hstep, hguard⟩ := hstep
  cases hstep with
  | @sync service pods existing addressType o prevOrder currOrder desired errs hdesired =>
    obtain ⟨⟨hstored, htype, -⟩, hsize⟩ := hguard
    obtain ⟨hgrouped, -⟩ := loaded_empty.foldlM hdesired
    have hsorted := hstored.sortInPlace (r := r) service desired
    intro key left hlookup
    dsimp only at hlookup
    rw [lookup_insert_eq] at hlookup
    split at hlookup
    · cases hlookup
      have hsettled := (slicesLeft_settled service o hgrouped hsorted.nodup hsorted.named
        (ofType_sortInPlace service desired htype)).1
      refine idealSlices_le hsettled.nonempty
        (slicesLeft_size service o hgrouped hsorted.nodup hsorted.named ?_)
      refine List.forall_mem_map.2 fun s hs => ?_
      rw [length_sortInPlace]
      exact hsize s hs
    · exact h key left hlookup
  | failed => exact h
  | deleteService o serviceNN =>
    intro key left hlookup
    dsimp only at hlookup
    rw [lookup_erase_eq] at hlookup
    split at hlookup
    · cases hlookup
    · exact h key left hlookup

/-- If no existing slice is too large, there are never more desired than actual slices. -/
theorem desired_le_actual {es : List MetricsEvent} {s : MetricsState}
    (hrun : Runs (Guarded (MetricsState.Step r) fun _ e =>
      e.WellFormed ∧ e.Sized r.maxEndpointsPerSlice) ⟨.NewCache r.maxEndpointsPerSlice, ∅⟩ es s) :
    s.metrics.numSlicesDesired ≤ s.metrics.numSlicesActual ∧
      s.metrics.gauges.DesiredEndpointSlices ≤ s.metrics.gauges.NumEndpointSlices := by
  have hpacked : s.Packed r :=
    hrun.invariant (fun h hstep => h.step hstep) (fun _ _ h => by cases h)
  have hcounted : s.Counted r := hrun.invariant
    (fun h hstep => h.step ⟨hstep.1, hstep.2.1⟩) counted_start
  obtain ⟨hactual, hdesired, -⟩ := hcounted.totals
  have hle : s.metrics.numSlicesDesired ≤ s.metrics.numSlicesActual := by
    rw [hactual, hdesired]
    refine List.sum_le_sum fun e he => ?_
    exact hpacked e.1 e.2 (mem_entries_iff.1 he)
  have hnonneg : 0 ≤ s.metrics.numSlicesDesired := by
    rw [hdesired]
    refine List.sum_nonneg fun n hn => ?_
    obtain ⟨e, -, rfl⟩ := List.mem_map.1 hn
    exact zero_le_one.trans (le_max_left _ _)
  refine ⟨hle, ?_⟩
  rw [hcounted.gauges]
  exact fl_mono (by exact_mod_cast hnonneg) (by exact_mod_cast hle)

theorem desired_le_actual_web : ∃ s, Runs (Guarded (MetricsState.Step oneGroup) fun _ e =>
      e.WellFormed ∧ e.Sized oneGroup.maxEndpointsPerSlice)
      ⟨.NewCache oneGroup.maxEndpointsPerSlice, ∅⟩ webMetrics s ∧
    s.metrics.numSlicesActual = 1 ∧
    s.metrics.numSlicesDesired ≤ s.metrics.numSlicesActual ∧
    s.metrics.gauges.DesiredEndpointSlices ≤ s.metrics.gauges.NumEndpointSlices := by
  obtain ⟨s, hrun, -, hactual⟩ := webMetrics_run
  exact ⟨s, hrun, hactual, desired_le_actual hrun⟩

end Fleetboard.EndpointSlices

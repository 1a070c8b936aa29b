import Fleetboard.Proof.Reconcile

/-!
# Packing endpoints into slices

What `reconcileByPortMapping` does to the sizes of the slices, for any hash. New slices are filled
up before the next one is begun (`Packed`), and the endpoints that are added and removed are
counted (`Counted`).

* `reconcileByPortMapping_packs`: the rounds come to an end, the bounds, and the count.
-/

namespace Fleetboard.EndpointSlices

open EndpointSet

theorem len_keepDesired {h : Hasher} (set : EndpointSet h) (endpoints : List Endpoint) :
    (keepDesired set endpoints).2.2.Len + (keepDesired set endpoints).1.length = set.Len := by
  induction endpoints generalizing set with
  | nil => rfl
  | cons endpoint endpoints ih =>
    unfold keepDesired
    cases hget : set.Get endpoint with
    | none => exact ih set
    | some got =>
      have hrest := ih (set.Delete endpoint)
      have hlen := len_delete hget
      show (keepDesired (set.Delete endpoint) endpoints).2.2.Len +
        ((keepDesired (set.Delete endpoint) endpoints).1.length + 1) = set.Len
      omega

/-- The number of endpoints in some slices. -/
def numEndpoints (slices : List EndpointSlice) : Nat := (slices.flatMap (·.endpoints)).length

theorem EndpointSet.Placed.length_eq {h : Hasher} {all : EndpointSet h} {placed : List Endpoint}
    (hp : all.Placed placed ∅) : placed.length = all.Len := by
  have hkeys : (placed.map h.hashEndpoint ++ []).length = all.items.keys.length := hp.perm.length_eq
  rw [List.append_nil, List.length_map] at hkeys
  rw [hkeys, Len, AList.keys, List.keys, List.length_map]

namespace Reconciler

variable {r : Reconciler} {service : Service} {o : GroupOrders} {endpointMeta : EndpointMeta}
  {existing : List EndpointSlice} {all : EndpointSet r.hasher} {p : Progress r.hasher}
  {s : EndpointSlice}

/-! ## What is counted -/

/-- The count after some of the existing slices. -/
structure Counted (all : EndpointSet r.hasher) (existing : List EndpointSlice)
    (p : Progress r.hasher) : Prop where
  count : p.desiredSet.Len + numEndpoints existing = all.Len + p.numRemoved
  created : p.slicesToCreate = []

theorem Counted.review (h : Counted all existing p) (s : EndpointSlice) :
    Counted all (existing ++ [s]) (r.reviewSlice service p s) := by
  have hcount := h.count
  have hlen := len_keepDesired p.desiredSet s.endpoints
  have hle := length_keepDesired_le p.desiredSet s.endpoints
  have htotal : numEndpoints (existing ++ [s]) = numEndpoints existing + s.endpoints.length := by
    simp only [numEndpoints, List.flatMap_append, List.flatMap_cons, List.flatMap_nil,
      List.append_nil, List.length_append]
  unfold reviewSlice
  generalize keepDesired p.desiredSet s.endpoints = kept at hlen hle ⊢
  obtain ⟨newEndpoints, endpointUpdated, rest⟩ := kept
  simp only at hlen hle ⊢
  split_ifs with hchanged hempty hmore hmore hlabels
  all_goals
    refine ⟨?_, h.created⟩
    rw [htotal]
    simp only
    omega

theorem Counted.foldl_review (h : Counted all existing p) (slices : List EndpointSlice) :
    Counted all (existing ++ slices) (slices.foldl (r.reviewSlice service) p) := by
  induction slices generalizing existing p with
  | nil => rwa [List.append_nil]
  | cons s slices ih =>
    have hrest : Counted all (existing ++ [s] ++ slices)
        (slices.foldl (r.reviewSlice service) (r.reviewSlice service p s)) := ih (h.review s)
    rwa [List.append_assoc] at hrest

theorem fillUpdated_keeps (p : Progress r.hasher) :
    (r.fillUpdated o p).slicesToCreate = p.slicesToCreate ∧
      (r.fillUpdated o p).numRemoved = p.numRemoved := by
  unfold fillUpdated
  split_ifs
  · refine List.foldlRecOn (motive := fun p' : Progress r.hasher =>
      p'.slicesToCreate = p.slicesToCreate ∧ p'.numRemoved = p.numRemoved) _ _ ⟨rfl, rfl⟩ ?_
    exact fun p' hp' slice _ => hp'
  · exact ⟨rfl, rfl⟩

/-! ## New slices -/

/-- The new slices are not too large, and full as long as something is left. -/
structure Packed (p : Progress r.hasher) : Prop where
  sizes : ∀ s ∈ p.slicesToCreate,
    1 ≤ s.endpoints.length ∧ s.endpoints.length ≤ r.maxEndpointsPerSlice
  short : (p.slicesToCreate.countP fun s => s.endpoints.length < r.maxEndpointsPerSlice) ≤ 1
  full : 0 < p.desiredSet.Len →
    (p.slicesToCreate.countP fun s => s.endpoints.length < r.maxEndpointsPerSlice) = 0

theorem Packed.of_nil (hp : p.slicesToCreate = []) : Packed p where
  sizes := by
    rw [hp]
    exact List.forall_mem_nil _
  short := by
    rw [hp]
    exact Nat.zero_le 1
  full _ := by rw [hp, List.countP_nil]

theorem Packed.addNew (h : Packed p) (hlen : 0 < p.desiredSet.Len) {rest : EndpointSet r.hasher}
    {added : List Endpoint}
    (hf : Filled r.maxEndpointsPerSlice p.desiredSet rest (r.newEndpointSlice service endpointMeta)
      s added) :
    Packed { p with slicesToCreate := p.slicesToCreate ++ [s], desiredSet := rest } := by
  have hs : s.endpoints = added := by
    rw [hf.slice]
    rfl
  have hpos := r.maxEndpointsPerSlice_pos
  have hmoved := hf.len
  have hle := hf.le
  have hcount : ((p.slicesToCreate ++ [s]).countP fun s =>
      s.endpoints.length < r.maxEndpointsPerSlice) =
      if added.length < r.maxEndpointsPerSlice then 1 else 0 := by
    rw [List.countP_append, h.full hlen, List.countP_singleton, hs, Nat.zero_add]
    simp only [decide_eq_true_eq]
  refine ⟨?_, ?_, fun hrest => ?_⟩
  · refine List.forall_mem_append.mpr ⟨h.sizes, List.forall_mem_singleton.mpr ?_⟩
    rw [hs]
    rcases hf.full with hfull | hnone
    · omega
    · omega
  · simp only [hcount]
    split_ifs
    · exact le_rfl
    · exact Nat.zero_le 1
  · simp only [hcount]
    rcases hf.full with hfull | hnone
    · exact if_neg (by omega)
    · exact absurd hrest (by simp only [hnone]; omega)

theorem Packed.placeRest (h : Packed p) {kept upd del : List EndpointSlice}
    (ha : Accounted r service endpointMeta existing all p kept upd del)
    (hnamed : ∀ s ∈ existing, s.name ≠ "") (hlen : 0 < p.desiredSet.Len) :
    Packed (r.placeRest service o endpointMeta p) ∧
      (r.placeRest service o endpointMeta p).numRemoved = p.numRemoved := by
  rcases ha.placeRest_cases (o := o) hnamed with
    ⟨added, rest, slice', hf, heq⟩ | ⟨s, -, added, rest, slice', -, -, heq⟩
  · rw [heq]
    exact ⟨h.addNew hlen hf, rfl⟩
  · rw [heq]
    exact ⟨⟨h.sizes, h.short, fun _ => h.full hlen⟩, rfl⟩

/-! ## The result -/

/-- What the first two parts leave for the rounds of the third. -/
def beforeRounds (r : Reconciler) (service : Service) (o : GroupOrders)
    (existing : List EndpointSlice) (all : EndpointSet r.hasher) : Progress r.hasher :=
  r.fillUpdated o (existing.foldl (r.reviewSlice service) ⟨∅, [], [], [], [], all, 0⟩)

theorem counted_review (service : Service) (existing : List EndpointSlice) (all : EndpointSet r.hasher) :
    Counted all existing
      (existing.foldl (r.reviewSlice service) ⟨∅, [], [], [], [], all, 0⟩) := by
  have hstart : Counted all [] ⟨∅, [], [], [], [], all, 0⟩ := ⟨rfl, rfl⟩
  exact hstart.foldl_review existing

/-- The rounds of the third part. -/
theorem beforeRounds_rounds (hnames : (existing.map (·.name)).Nodup)
    (hnamed : ∀ s ∈ existing, s.name ≠ "") (service : Service) (o : GroupOrders)
    (endpointMeta : EndpointMeta) (all : EndpointSet r.hasher) :
    Packed (r.placeAll service o endpointMeta
        (r.beforeRounds service o existing all).desiredSet.Len (r.beforeRounds service o existing all)) ∧
      (r.placeAll service o endpointMeta (r.beforeRounds service o existing all).desiredSet.Len
          (r.beforeRounds service o existing all)).numRemoved =
        (r.beforeRounds service o existing all).numRemoved ∧
      Rounds r service o endpointMeta (r.beforeRounds service o existing all)
        (r.placeAll service o endpointMeta (r.beforeRounds service o existing all).desiredSet.Len
          (r.beforeRounds service o existing all)) := by
  obtain ⟨kept, upd, del, hacc⟩ : ∃ kept upd del, Accounted r service endpointMeta existing all
      (r.beforeRounds service o existing all) kept upd del := by
    have hnames' : ((existing ++ ([] : List EndpointSlice)).map (·.name)).Nodup := by
      rwa [List.append_nil]
    have hstart : Accounted r service endpointMeta [] all ⟨∅, [], [], [], [], all, 0⟩ [] [] [] :=
      .start all
    obtain ⟨kept, upd₁, del, h₁⟩ := hstart.foldl_review hnames'
    rw [List.append_nil] at h₁
    obtain ⟨upd, h⟩ := h₁.fillUpdated (o := o) hnames
    exact ⟨kept, upd, del, h⟩
  have hpacked : Packed (r.beforeRounds service o existing all) := by
    refine .of_nil ((fillUpdated_keeps _).1.trans ?_)
    exact (counted_review service existing all).created
  generalize r.beforeRounds service o existing all = start at hacc hpacked ⊢
  obtain ⟨⟨-, hfinal, hremoved⟩, -, hrun⟩ := placeAll_rounds (o := o)
    (I := fun p => (∃ kept upd, Accounted r service endpointMeta existing all p kept upd del) ∧
      Packed p ∧ p.numRemoved = start.numRemoved)
    (fun p hp hlen => by
      obtain ⟨⟨kept, upd, ha⟩, hpacked, hremoved⟩ := hp
      obtain ⟨ha', hless⟩ := ha.placeRest hnames hnamed hlen
      obtain ⟨hpacked', hremoved'⟩ := hpacked.placeRest ha hnamed hlen
      exact ⟨⟨ha', hpacked', hremoved'.trans hremoved⟩, hless⟩)
    ⟨⟨kept, upd, hacc⟩, hpacked, rfl⟩ le_rfl
  exact ⟨hfinal, hremoved, hrun⟩

/-- The rounds come to an end; new slices have at least one endpoint and, except for one at most,
as many as they may have; updated ones do not grow beyond that number; and the endpoints are those
that there were, with those that are added and without those that are removed. -/
theorem reconcileByPortMapping_packs (hstored : Stored existing) (all : EndpointSet r.hasher) :
    Rounds r service o endpointMeta (r.beforeRounds service o existing all)
        (r.placeAll service o endpointMeta (r.beforeRounds service o existing all).desiredSet.Len
          (r.beforeRounds service o existing all)) ∧
      (∀ s ∈ (r.reconcileByPortMapping service o existing all endpointMeta).1.toCreate,
        1 ≤ s.endpoints.length ∧ s.endpoints.length ≤ r.maxEndpointsPerSlice) ∧
      ((r.reconcileByPortMapping service o existing all endpointMeta).1.toCreate.countP fun s =>
        s.endpoints.length < r.maxEndpointsPerSlice) ≤ 1 ∧
      (∀ t ∈ (r.reconcileByPortMapping service o existing all endpointMeta).1.toUpdate,
        ∃ s ∈ existing, s.name = t.name ∧
          t.endpoints.length ≤ max r.maxEndpointsPerSlice s.endpoints.length) ∧
      numEndpoints (unchangedSlices existing
            (r.reconcileByPortMapping service o existing all endpointMeta).1.toUpdate
            (r.reconcileByPortMapping service o existing all endpointMeta).1.toDelete ++
          (r.reconcileByPortMapping service o existing all endpointMeta).1.toUpdate ++
          (r.reconcileByPortMapping service o existing all endpointMeta).1.toCreate) +
          (r.reconcileByPortMapping service o existing all endpointMeta).2.2 =
        numEndpoints existing +
          (r.reconcileByPortMapping service o existing all endpointMeta).2.1 := by
  obtain ⟨hnames, hnamed⟩ := hstored
  obtain ⟨hpacked, hremoved, hrun⟩ :=
    beforeRounds_rounds hnames hnamed service o endpointMeta all
  obtain ⟨kept, hrec⟩ : ∃ kept, Reconciled r service endpointMeta existing all
      (r.reconcileByPortMapping service o existing all endpointMeta).1 kept :=
    reconcileByPortMapping_reconciled hnames hnamed all
  have hkept := (Split.mk hrec.names hrec.untouched).unchangedSlices_perm hnames
  have hcount := (counted_review service existing all).count
  have hnumRemoved : (r.reconcileByPortMapping service o existing all endpointMeta).2.2 =
      (existing.foldl (r.reviewSlice service) ⟨∅, [], [], [], [], all, 0⟩).numRemoved :=
    hremoved.trans (fillUpdated_keeps _).2
  have htotal : numEndpoints (unchangedSlices existing
        (r.reconcileByPortMapping service o existing all endpointMeta).1.toUpdate
        (r.reconcileByPortMapping service o existing all endpointMeta).1.toDelete ++
      (r.reconcileByPortMapping service o existing all endpointMeta).1.toUpdate ++
      (r.reconcileByPortMapping service o existing all endpointMeta).1.toCreate) = all.Len := by
    refine Eq.trans ?_ hrec.placed.length_eq
    exact (((hkept.append_right _).append_right _).flatMap_right _).length_eq
  refine ⟨hrun, hpacked.sizes, hpacked.short, fun t ht => ?_, ?_⟩
  · obtain ⟨s, hs, ⟨endpoints, labels, rfl⟩, hle⟩ := hrec.revised t ht
    exact ⟨s, hs, rfl, hle⟩
  · rw [htotal, hnumRemoved, ← hcount, Nat.add_comm]
    rfl

/-- The changes of a slice with a stale endpoint, where another one is desired. -/
noncomputable def webChanges : Changes × Nat × Nat :=
  webReconciler.reconcileByPortMapping webService ((storedOrders someHasher).group "") [staleSlice]
    ((∅ : EndpointSet someHasher).Insert
      (podToEndpoint id (webPod "1" "10.20.0.5" .true) none webService)) ⟨some [], .ipv4⟩

theorem staleSlice_packs :
    (∀ s ∈ webChanges.1.toCreate, 1 ≤ s.endpoints.length ∧ s.endpoints.length ≤ 100) ∧
      (webChanges.1.toCreate.countP fun s => s.endpoints.length < 100) ≤ 1 ∧
      (∀ t ∈ webChanges.1.toUpdate, ∃ s ∈ [staleSlice], s.name = t.name ∧
        t.endpoints.length ≤ max 100 s.endpoints.length) ∧
      numEndpoints (unchangedSlices [staleSlice] webChanges.1.toUpdate webChanges.1.toDelete ++
          webChanges.1.toUpdate ++ webChanges.1.toCreate) + webChanges.2.2 =
        1 + webChanges.2.1 := by
  have hnames : ([staleSlice].map (·.name)).Nodup := List.nodup_singleton _
  have hnamed : ∀ s ∈ [staleSlice], s.name ≠ "" := List.forall_mem_singleton.mpr (by decide)
  exact (reconcileByPortMapping_packs (r := webReconciler) ⟨hnames, hnamed⟩ _).2

end Reconciler

end Fleetboard.EndpointSlices

import Fleetboard.Proof.EndpointSet

/-!
# The slices of one group of ports

`reconcileByPortMapping` accounts for every existing slice and every desired endpoint: at each
point the existing slices are those that stay as they are, those to update and those to delete,
and the desired endpoints are in the first two, in the slices to create or left in the set
(`Accounted`).

* `reconcileByPortMapping_reconciled`: at the end the set is empty;
* `reconcileByPortMapping_settled`: slices that have all the desired endpoints already, and the
  labels of the service, stay as they are.
-/

namespace Fleetboard.EndpointSlices

open EndpointSet

/-! ## Labels -/

/-- The labels of the slice, other than the reserved ones, are those of the service. -/
def InSync (service : Service) (slice : EndpointSlice) : Prop :=
  ∀ key, isReservedLabelKey key = false → slice.labels.lookup key = service.labels.lookup key

variable {service : Service} {slice s t : EndpointSlice} {controllerName : String}

theorem setEndpointSliceLabels_eq_false_iff :
    (setEndpointSliceLabels slice service controllerName).2 = false ↔ InSync service slice := by
  show (!GoMap.deepEqual _ _) = false ↔ _
  rw [Bool.not_eq_false', GoMap.deepEqual_iff]
  simp only [GoMap.lookup_filterKeys]
  refine forall_congr' fun key => ?_
  cases hkey : isReservedLabelKey key with
  | true => simp
  | false => simp

theorem lookup_setEndpointSliceLabels {key : String} (hkey : isReservedLabelKey key = false) :
    (setEndpointSliceLabels slice service controllerName).1.lookup key =
      service.labels.lookup key := by
  have hne : key ≠ Known.DiscoveryServiceName ∧ key ≠ Known.DiscoveryManagedBy ∧
      key ≠ IsHeadlessService := by
    simpa [isReservedLabelKey, not_or] using hkey
  simp only [setEndpointSliceLabels, GoMap.lookup_insert_eq, GoMap.lookup_filterKeys, if_neg hne.1,
    if_neg hne.2.1, if_neg hne.2.2, hkey, Bool.not_false, if_true]

theorem inSync_of_set (hlabels : t.labels = (setEndpointSliceLabels s service controllerName).1) :
    InSync service t := by
  intro key hkey
  rw [hlabels]
  exact lookup_setEndpointSliceLabels hkey

theorem InSync.of_labels (h : InSync service s) (hlabels : t.labels = s.labels) :
    InSync service t := by
  intro key hkey
  rw [hlabels]
  exact h key hkey

namespace Reconciler

variable {r : Reconciler} {o : GroupOrders} {endpointMeta : EndpointMeta}

theorem inSync_newEndpointSlice : InSync service (r.newEndpointSlice service endpointMeta) := by
  intro key hkey
  have hne : key ≠ IsHeadlessService := by
    rintro rfl
    simp [isReservedLabelKey] at hkey
  rw [newEndpointSlice]
  exact (GoMap.lookup_insert_eq _ _ _ _).trans
    ((if_neg hne).trans (lookup_setEndpointSliceLabels hkey))

/-! ## The account -/

/-- Another version of a slice: other endpoints, not too many, and labels. -/
def Revised (r : Reconciler) (s t : EndpointSlice) : Prop :=
  (∃ endpoints labels, t = { s with endpoints := endpoints, labels := labels }) ∧
    t.endpoints.length ≤ max r.maxEndpointsPerSlice s.endpoints.length

/-- A new slice with some endpoints. -/
def New (r : Reconciler) (service : Service) (endpointMeta : EndpointMeta) (s : EndpointSlice) :
    Prop :=
  ∃ endpoints, s = { r.newEndpointSlice service endpointMeta with endpoints := endpoints }

/-- Where the existing slices and the desired endpoints are. -/
structure Accounted (r : Reconciler) (service : Service) (endpointMeta : EndpointMeta)
    (existing : List EndpointSlice) (all : EndpointSet r.hasher) (p : Progress r.hasher)
    (kept upd del : List EndpointSlice) : Prop where
  unchanged : p.sliceNamesUnchanged.Perm (kept.map (·.name))
  toUpdate : p.sliceNamesToUpdate.Perm (upd.map (·.name))
  toDelete : p.sliceNamesToDelete.Perm (del.map (·.name))
  stored : ∀ s ∈ kept ++ upd ++ del, p.slicesByName.lookup s.name = some s
  names : ((kept ++ upd ++ del).map (·.name)).Perm (existing.map (·.name))
  untouched : ∀ s ∈ kept ++ del, s ∈ existing
  revised : ∀ t ∈ upd, ∃ s ∈ existing, Revised r s t
  inSync : ∀ s ∈ kept ++ upd, InSync service s
  created : ∀ s ∈ p.slicesToCreate, New r service endpointMeta s
  dropped : ∀ s ∈ del, s.endpoints ≠ []
  placed : all.Placed ((kept ++ upd ++ p.slicesToCreate).flatMap (·.endpoints)) p.desiredSet

namespace Accounted

variable {existing kept upd del : List EndpointSlice} {all : EndpointSet r.hasher}
  {p : Progress r.hasher}

theorem start (all : EndpointSet r.hasher) :
    Accounted r service endpointMeta [] all ⟨∅, [], [], [], [], all, 0⟩ [] [] [] where
  unchanged := .nil
  toUpdate := .nil
  toDelete := .nil
  stored := List.forall_mem_nil _
  names := .nil
  untouched := List.forall_mem_nil _
  revised := List.forall_mem_nil _
  inSync := List.forall_mem_nil _
  created := List.forall_mem_nil _
  dropped := List.forall_mem_nil _
  placed := .start

section

variable (h : Accounted r service endpointMeta existing all p kept upd del)

include h

/-- The order of the slices does not matter. -/
theorem of_perm {existing' kept' upd' : List EndpointSlice} (hexisting : existing.Perm existing')
    (hkept : kept.Perm kept') (hupd : upd.Perm upd') :
    Accounted r service endpointMeta existing' all p kept' upd' del := by
  have hku : (kept ++ upd).Perm (kept' ++ upd') := hkept.append hupd
  have hall : (kept ++ upd ++ del).Perm (kept' ++ upd' ++ del) := hku.append_right del
  exact {
    unchanged := h.unchanged.trans (hkept.map _)
    toUpdate := h.toUpdate.trans (hupd.map _)
    toDelete := h.toDelete
    stored := fun s hs => h.stored s (hall.mem_iff.mpr hs)
    names := (hall.map _).symm.trans (h.names.trans (hexisting.map _))
    untouched := fun s hs =>
      hexisting.mem_iff.mp (h.untouched s ((hkept.append_right del).mem_iff.mpr hs))
    revised := fun t ht => by
      obtain ⟨s, hs, hst⟩ := h.revised t (hupd.mem_iff.mpr ht)
      exact ⟨s, hexisting.mem_iff.mp hs, hst⟩
    inSync := fun s hs => h.inSync s (hku.mem_iff.mpr hs)
    created := h.created
    dropped := h.dropped
    placed := h.placed.of_perm ((hku.append_right _).flatMap_right _) }

/-- What is found in the map after a slice of a new name is put there. -/
theorem stored_insert (hname : t.name ∉ existing.map (·.name)) :
    (p.slicesByName.insert t.name t).lookup t.name = some t ∧
      ∀ s ∈ kept ++ upd ++ del, (p.slicesByName.insert t.name t).lookup s.name = some s := by
  refine ⟨AList.lookup_insert _, fun s hs => ?_⟩
  rw [GoMap.lookup_insert_eq, if_neg]
  · exact h.stored s hs
  · intro heq
    exact hname (heq ▸ h.names.mem_iff.mp (List.mem_map_of_mem hs))

theorem notMem_names (hname : s.name ∉ existing.map (·.name)) :
    s.name ∉ p.sliceNamesUnchanged ∧ s.name ∉ p.sliceNamesToUpdate ∧
      s.name ∉ p.sliceNamesToDelete := by
  have hnot : s.name ∉ (kept ++ upd ++ del).map (·.name) := fun hmem => hname (h.names.mem_iff.mp hmem)
  rw [List.map_append, List.map_append, List.mem_append, List.mem_append, not_or, not_or] at hnot
  exact ⟨fun hmem => hnot.1.1 (h.unchanged.mem_iff.mp hmem),
    fun hmem => hnot.1.2 (h.toUpdate.mem_iff.mp hmem),
    fun hmem => hnot.2 (h.toDelete.mem_iff.mp hmem)⟩

/-- A slice stays as it is. -/
theorem keep (hname : s.name ∉ existing.map (·.name)) (hsync : InSync service s)
    {rest : EndpointSet r.hasher}
    (hplaced : all.Placed
      (s.endpoints ++ (kept ++ upd ++ p.slicesToCreate).flatMap (·.endpoints)) rest) :
    Accounted r service endpointMeta (s :: existing) all
      { p with
        slicesByName := p.slicesByName.insert s.name s
        sliceNamesUnchanged := p.sliceNamesUnchanged.insert s.name
        desiredSet := rest } (s :: kept) upd del where
  unchanged := by
    show (p.sliceNamesUnchanged.insert s.name).Perm _
    rw [List.insert_of_not_mem (h.notMem_names hname).1]
    exact h.unchanged.cons _
  toUpdate := h.toUpdate
  toDelete := h.toDelete
  stored := List.forall_mem_cons.mpr (h.stored_insert hname)
  names := h.names.cons _
  untouched := List.forall_mem_cons.mpr
    ⟨List.mem_cons_self, fun t ht => List.mem_cons_of_mem _ (h.untouched t ht)⟩
  revised t ht := by
    obtain ⟨s', hs', hst⟩ := h.revised t ht
    exact ⟨s', List.mem_cons_of_mem _ hs', hst⟩
  inSync := List.forall_mem_cons.mpr ⟨hsync, h.inSync⟩
  created := h.created
  dropped := h.dropped
  placed := hplaced

/-- A slice is to be updated to another version. -/
theorem revise (hname : s.name ∉ existing.map (·.name)) (hst : Revised r s t) (hsync : InSync service t)
    {rest : EndpointSet r.hasher}
    (hplaced : all.Placed
      (t.endpoints ++ (kept ++ upd ++ p.slicesToCreate).flatMap (·.endpoints)) rest) :
    Accounted r service endpointMeta (s :: existing) all
      { p with
        slicesByName := p.slicesByName.insert t.name t
        sliceNamesToUpdate := p.sliceNamesToUpdate.insert t.name
        desiredSet := rest } kept (t :: upd) del := by
  have hts : t.name = s.name := by
    obtain ⟨⟨endpoints, labels, rfl⟩, -⟩ := hst
    rfl
  have hname' : t.name ∉ existing.map (·.name) := by rwa [hts]
  have hmiddle : ∀ more, (kept ++ t :: upd ++ more).Perm (t :: (kept ++ upd ++ more)) :=
    fun more => List.perm_middle.append_right more
  exact {
    unchanged := h.unchanged
    toUpdate := by
      show (p.sliceNamesToUpdate.insert t.name).Perm _
      rw [List.insert_of_not_mem (h.notMem_names hname').2.1]
      exact h.toUpdate.cons _
    toDelete := h.toDelete
    stored := fun s' hs' => by
      rcases List.mem_cons.mp ((hmiddle del).mem_iff.mp hs') with rfl | hs'
      · exact (h.stored_insert hname').1
      · exact (h.stored_insert hname').2 s' hs'
    names := by
      refine ((hmiddle del).map _).trans ?_
      rw [List.map_cons, List.map_cons, hts]
      exact h.names.cons _
    untouched := fun s' hs' => List.mem_cons_of_mem _ (h.untouched s' hs')
    revised := List.forall_mem_cons.mpr ⟨⟨s, List.mem_cons_self, hst⟩, fun t' ht' => by
      obtain ⟨s', hs', hst'⟩ := h.revised t' ht'
      exact ⟨s', List.mem_cons_of_mem _ hs', hst'⟩⟩
    inSync := fun s' hs' =>
      List.forall_mem_cons.mpr ⟨hsync, h.inSync⟩ s' (List.perm_middle.mem_iff.mp hs')
    created := h.created
    dropped := h.dropped
    placed := hplaced.of_perm (((hmiddle p.slicesToCreate).flatMap_right _).symm) }

/-- A slice is to be deleted. -/
theorem drop (hname : s.name ∉ existing.map (·.name)) (hendpoints : s.endpoints ≠ [])
    {rest : EndpointSet r.hasher}
    (hplaced : all.Placed ((kept ++ upd ++ p.slicesToCreate).flatMap (·.endpoints)) rest) :
    Accounted r service endpointMeta (s :: existing) all
      { p with
        slicesByName := p.slicesByName.insert s.name s
        sliceNamesToDelete := p.sliceNamesToDelete.insert s.name
        desiredSet := rest } kept upd (s :: del) where
  unchanged := h.unchanged
  toUpdate := h.toUpdate
  toDelete := by
    show (p.sliceNamesToDelete.insert s.name).Perm _
    rw [List.insert_of_not_mem (h.notMem_names hname).2.2]
    exact h.toDelete.cons _
  stored s' hs' := by
    rcases List.mem_cons.mp (List.perm_middle.mem_iff.mp hs') with rfl | hs'
    · exact (h.stored_insert hname).1
    · exact (h.stored_insert hname).2 s' hs'
  names := (List.perm_middle.map _).trans (h.names.cons _)
  untouched s' hs' := by
    rcases List.mem_cons.mp (List.perm_middle.mem_iff.mp hs') with rfl | hs'
    · exact List.mem_cons_self
    · exact List.mem_cons_of_mem _ (h.untouched s' hs')
  revised t ht := by
    obtain ⟨s', hs', hst⟩ := h.revised t ht
    exact ⟨s', List.mem_cons_of_mem _ hs', hst⟩
  inSync := h.inSync
  created := h.created
  dropped := List.forall_mem_cons.mpr ⟨hendpoints, h.dropped⟩
  placed := hplaced

theorem removed (n : Nat) :
    Accounted r service endpointMeta existing all { p with numRemoved := n } kept upd del :=
  ⟨h.unchanged, h.toUpdate, h.toDelete, h.stored, h.names, h.untouched, h.revised, h.inSync,
    h.created, h.dropped, h.placed⟩

/-! ## The existing slices -/

theorem review (hname : s.name ∉ existing.map (·.name)) :
    ∃ kept' upd' del', Accounted r service endpointMeta (s :: existing) all
      (r.reviewSlice service p s) kept' upd' del' := by
  obtain ⟨hnew, hown⟩ := keepDesired_placed s.endpoints h.placed
  unfold reviewSlice
  simp only [AList.insert_insert]
  generalize (if s.endpoints.length > _ then _ else _) = numRemoved
  split_ifs with hchanged hempty hlabels
  · rw [List.length_eq_zero_iff] at hempty
    rw [hempty] at hnew
    refine ⟨_, _, _, (h.drop hname (fun hnil => ?_) hnew).removed _⟩
    rw [hempty, hnil] at hchanged
    simp [keepDesired] at hchanged
  · have hle := length_keepDesired_le p.desiredSet s.endpoints
    exact ⟨_, _, _, (h.revise hname ⟨⟨_, _, rfl⟩, le_max_of_le_right hle⟩
      (inSync_of_set (s := s) rfl) hnew).removed _⟩
  · rw [not_or, not_not] at hchanged
    refine ⟨_, _, _, h.revise
      (t := { s with labels := (setEndpointSliceLabels s service r.managedByName).1 }) hname
      ⟨⟨_, _, rfl⟩, le_max_right _ _⟩ (inSync_of_set (s := s) rfl)
      (hown (Bool.eq_false_of_not_eq_true hchanged.1) hchanged.2.symm)⟩
  · rw [not_or, not_not] at hchanged
    refine ⟨_, _, _, h.keep hname ?_
      (hown (Bool.eq_false_of_not_eq_true hchanged.1) hchanged.2.symm)⟩
    exact setEndpointSliceLabels_eq_false_iff.mp (Bool.eq_false_of_not_eq_true hlabels)

theorem foldl_review {slices : List EndpointSlice} (hnames : ((slices ++ existing).map (·.name)).Nodup) :
    ∃ kept' upd' del', Accounted r service endpointMeta (slices ++ existing) all
      (slices.foldl (r.reviewSlice service) p) kept' upd' del' := by
  induction slices generalizing p existing kept upd del with
  | nil => exact ⟨kept, upd, del, h⟩
  | cons s slices ih =>
    have hname : s.name ∉ existing.map (·.name) := by
      intro hmem
      rw [List.cons_append, List.map_cons, List.nodup_cons, List.map_append] at hnames
      exact hnames.1 (List.mem_append_right _ hmem)
    obtain ⟨kept₁, upd₁, del₁, h₁⟩ := h.review hname
    have hmiddle : (slices ++ s :: existing).Perm (s :: slices ++ existing) := List.perm_middle
    obtain ⟨kept₂, upd₂, del₂, h₂⟩ := ih h₁ ((hmiddle.map _).nodup_iff.mpr hnames)
    exact ⟨kept₂, upd₂, del₂, h₂.of_perm hmiddle (.refl _) (.refl _)⟩

/-! ## Slices that are filled -/

theorem names_nodup (hnames : (existing.map (·.name)).Nodup) :
    ((kept ++ upd ++ del).map (·.name)).Nodup :=
  h.names.nodup_iff.mpr hnames

end

/-- A slice that is to be updated gets more endpoints. -/
theorem refill (h : Accounted r service endpointMeta existing all p kept (t :: upd) del)
    (hnames : (existing.map (·.name)).Nodup) {added : List Endpoint} {rest : EndpointSet r.hasher}
    (hroom : added.length ≤ r.maxEndpointsPerSlice - t.endpoints.length)
    (hplaced : all.Placed
      (added ++ (kept ++ t :: upd ++ p.slicesToCreate).flatMap (·.endpoints)) rest) :
    Accounted r service endpointMeta existing all
      { p with
        slicesByName := p.slicesByName.insert t.name { t with endpoints := t.endpoints ++ added }
        desiredSet := rest }
      kept ({ t with endpoints := t.endpoints ++ added } :: upd) del := by
  have hmiddle : ∀ t' more, (kept ++ t' :: upd ++ more).Perm (t' :: (kept ++ upd ++ more)) :=
    fun t' more => List.perm_middle.append_right more
  have hother : t.name ∉ (kept ++ upd ++ del).map (·.name) :=
    (List.nodup_cons.mp (((hmiddle t del).map _).nodup_iff.mp (h.names_nodup hnames))).1
  exact {
    unchanged := h.unchanged
    toUpdate := h.toUpdate
    toDelete := h.toDelete
    stored := fun s hs => by
      rw [GoMap.lookup_insert_eq]
      rcases List.mem_cons.mp ((hmiddle _ del).mem_iff.mp hs) with rfl | hs
      · exact if_pos rfl
      · rw [if_neg]
        · exact h.stored s ((hmiddle t del).mem_iff.mpr (List.mem_cons_of_mem _ hs))
        · intro heq
          exact hother (heq ▸ List.mem_map_of_mem hs)
    names := by
      refine (((hmiddle _ del).map _).trans ?_).trans h.names
      exact ((hmiddle t del).map (·.name)).symm
    untouched := h.untouched
    revised := by
      obtain ⟨⟨s, hs, ⟨endpoints, labels, rfl⟩, hle⟩, hrest⟩ := List.forall_mem_cons.mp h.revised
      refine List.forall_mem_cons.mpr ⟨⟨s, hs, ⟨_, _, rfl⟩, ?_⟩, hrest⟩
      rw [List.length_append]
      omega
    inSync := fun s hs => by
      rcases List.mem_cons.mp (List.perm_middle.mem_iff.mp hs) with rfl | hs
      · have ht := h.inSync t (List.perm_middle.mem_iff.mpr List.mem_cons_self)
        exact ht.of_labels rfl
      · exact h.inSync s (List.perm_middle.mem_iff.mpr (List.mem_cons_of_mem _ hs))
    created := h.created
    dropped := h.dropped
    placed := by
      refine hplaced.of_perm ?_
      refine (((hmiddle t _).flatMap_right _).append_left added).trans
        (List.Perm.trans ?_ ((hmiddle _ _).flatMap_right _).symm)
      rw [List.flatMap_cons, List.flatMap_cons, ← List.append_assoc]
      exact List.perm_append_comm.append_right _ }

theorem foldl_refill {todo rest : List EndpointSlice}
    (h : Accounted r service endpointMeta existing all p kept (todo ++ rest) del)
    (hnames : (existing.map (·.name)).Nodup) :
    ∃ upd', Accounted r service endpointMeta existing all
      (todo.foldl (fun p slice =>
        { p with
          slicesByName := p.slicesByName.insert
            (fillSlice o.pop r.maxEndpointsPerSlice p.desiredSet slice).2.name
            (fillSlice o.pop r.maxEndpointsPerSlice p.desiredSet slice).2
          desiredSet := (fillSlice o.pop r.maxEndpointsPerSlice p.desiredSet slice).1 }) p)
      kept upd' del := by
  induction todo generalizing p rest with
  | nil => exact ⟨rest, h⟩
  | cons t todo ih =>
    obtain ⟨added, hf⟩ := fillSlice_filled o.pop r.maxEndpointsPerSlice p.desiredSet t
    have hfilled := h.refill hnames hf.le (hf.placed h.placed)
    rw [List.foldl_cons, hf.slice]
    exact ih (hfilled.of_perm (.refl _) (.refl _) List.perm_middle.symm)

/-- The slices of the names in a set. -/
theorem slices_perm {h : Hasher} {p : Progress h} {sliceNames : List String}
    {slices : List EndpointSlice} (hnames : sliceNames.Perm (slices.map (·.name)))
    (hstored : ∀ s ∈ slices, p.slicesByName.lookup s.name = some s) :
    (p.slices sliceNames).Perm slices := by
  refine (hnames.filterMap _).trans (.of_eq ?_)
  rw [List.filterMap_map]
  exact (List.filterMap_congr hstored).trans List.filterMap_some

theorem fillUpdated (h : Accounted r service endpointMeta existing all p kept upd del)
    (hnames : (existing.map (·.name)).Nodup) :
    ∃ upd', Accounted r service endpointMeta existing all (r.fillUpdated o p) kept upd' del := by
  unfold Reconciler.fillUpdated
  split_ifs
  · have hslices : (o.byLen.run (p.slices (o.toUpdate.visit p.sliceNamesToUpdate))).Perm upd := by
      refine (o.byLen.perm _).trans (slices_perm ((o.toUpdate.perm _).trans h.toUpdate) ?_)
      exact fun s hs => h.stored s (List.mem_append_left _ (List.mem_append_right _ hs))
    have hall : Accounted r service endpointMeta existing all p kept
        (o.byLen.run (p.slices (o.toUpdate.visit p.sliceNamesToUpdate)) ++ []) del := by
      rw [List.append_nil]
      exact h.of_perm (.refl _) (.refl _) hslices.symm
    exact foldl_refill hall hnames
  · exact ⟨upd, h⟩

/-! ## The rest -/

/-- An unchanged slice is to be updated after all. -/
theorem promote (h : Accounted r service endpointMeta existing all p (s :: kept) upd del)
    (hnames : (existing.map (·.name)).Nodup) :
    Accounted r service endpointMeta existing all
      { p with
        sliceNamesToUpdate := p.sliceNamesToUpdate.insert s.name
        sliceNamesUnchanged := p.sliceNamesUnchanged.erase s.name } kept (s :: upd) del := by
  have hmiddle : ∀ more, (s :: kept ++ upd ++ more).Perm (kept ++ s :: upd ++ more) :=
    fun more => List.perm_middle.symm.append_right more
  have hother : s.name ∉ (kept ++ upd ++ del).map (·.name) :=
    (List.nodup_cons.mp (h.names_nodup hnames)).1
  exact {
    unchanged := by
      have herase := h.unchanged.erase s.name
      rwa [List.map_cons, List.erase_cons_head] at herase
    toUpdate := by
      have hnot : s.name ∉ p.sliceNamesToUpdate := by
        intro hmem
        refine hother ?_
        rw [List.map_append, List.map_append]
        exact List.mem_append_left _ (List.mem_append_right _ (h.toUpdate.mem_iff.mp hmem))
      show (p.sliceNamesToUpdate.insert s.name).Perm _
      rw [List.insert_of_not_mem hnot]
      exact h.toUpdate.cons _
    toDelete := h.toDelete
    stored := fun s' hs' => h.stored s' ((hmiddle del).mem_iff.mpr hs')
    names := ((hmiddle del).map _).symm.trans h.names
    untouched := (List.forall_mem_cons.mp h.untouched).2
    revised := List.forall_mem_cons.mpr
      ⟨⟨s, h.untouched s List.mem_cons_self, ⟨s.endpoints, s.labels, rfl⟩, le_max_right _ _⟩,
        h.revised⟩
    inSync := fun s' hs' => h.inSync s' (List.perm_middle.mem_iff.mp hs')
    created := h.created
    dropped := h.dropped
    placed := h.placed.of_perm ((hmiddle _).flatMap_right _) }

/-- A new slice is to be created. -/
theorem addNew (h : Accounted r service endpointMeta existing all p kept upd del)
    (hnew : New r service endpointMeta s) {rest : EndpointSet r.hasher}
    (hplaced : all.Placed
      (s.endpoints ++ (kept ++ upd ++ p.slicesToCreate).flatMap (·.endpoints)) rest) :
    Accounted r service endpointMeta existing all
      { p with slicesToCreate := p.slicesToCreate ++ [s], desiredSet := rest } kept upd del where
  unchanged := h.unchanged
  toUpdate := h.toUpdate
  toDelete := h.toDelete
  stored := h.stored
  names := h.names
  untouched := h.untouched
  revised := h.revised
  inSync := h.inSync
  created := List.forall_mem_append.mpr ⟨h.created, List.forall_mem_singleton.mpr hnew⟩
  dropped := h.dropped
  placed := by
    refine hplaced.of_perm (List.perm_append_comm.trans (.of_eq ?_))
    simp only [List.flatMap_append, List.flatMap_cons, List.flatMap_nil, List.append_nil,
      List.append_assoc]

end Accounted

theorem getSliceToFill_loop_mem {numEndpoints maxEndpoints : Nat} {slices : List EndpointSlice}
    {closestDiff : Int} {closest : Option EndpointSlice}
    (hfound : getSliceToFill.loop numEndpoints maxEndpoints slices closestDiff closest = some s) :
    s ∈ slices ∧ numEndpoints + s.endpoints.length ≤ maxEndpoints ∨ closest = some s := by
  induction slices generalizing closestDiff closest with
  | nil => exact .inr hfound
  | cons slice slices ih =>
    unfold getSliceToFill.loop at hfound
    simp only at hfound
    split_ifs at hfound with hdiff hfull
    · obtain rfl := Option.some_inj.mp hfound
      exact .inl ⟨List.mem_cons_self, by omega⟩
    · rcases ih hfound with ⟨hmem, hle⟩ | hclosest
      · exact .inl ⟨List.mem_cons_of_mem _ hmem, hle⟩
      · obtain rfl := Option.some_inj.mp hclosest
        exact .inl ⟨List.mem_cons_self, by omega⟩
    · rcases ih hfound with ⟨hmem, hle⟩ | hclosest
      · exact .inl ⟨List.mem_cons_of_mem _ hmem, hle⟩
      · exact .inr hclosest

/-- A slice that is found has room for all. -/
theorem getSliceToFill_mem {numEndpoints maxEndpoints : Nat} {slices : List EndpointSlice}
    (hfound : getSliceToFill slices numEndpoints maxEndpoints = some s) :
    s ∈ slices ∧ numEndpoints + s.endpoints.length ≤ maxEndpoints :=
  (getSliceToFill_loop_mem hfound).resolve_right fun h => by cases h

/-- A round fills a new slice, or one that was unchanged and has room for all. -/
theorem Accounted.placeRest_cases {existing kept upd del : List EndpointSlice}
    {all : EndpointSet r.hasher} {p : Progress r.hasher}
    (h : Accounted r service endpointMeta existing all p kept upd del)
    (hnamed : ∀ s ∈ existing, s.name ≠ "") :
    (∃ added rest slice', Filled r.maxEndpointsPerSlice p.desiredSet rest
        (r.newEndpointSlice service endpointMeta) slice' added ∧
      r.placeRest service o endpointMeta p =
        { p with slicesToCreate := p.slicesToCreate ++ [slice'], desiredSet := rest }) ∨
    ∃ s ∈ kept, ∃ added rest slice',
      Filled (r.maxEndpointsPerSlice - s.endpoints.length) p.desiredSet rest s slice' added ∧
      p.desiredSet.Len + s.endpoints.length ≤ r.maxEndpointsPerSlice ∧
      r.placeRest service o endpointMeta p =
        { p with
          slicesByName := p.slicesByName.insert s.name slice'
          sliceNamesToUpdate := p.sliceNamesToUpdate.insert s.name
          sliceNamesUnchanged := p.sliceNamesUnchanged.erase s.name
          desiredSet := rest } := by
  unfold Reconciler.placeRest
  simp only
  generalize hfound : (if p.desiredSet.Len < r.maxEndpointsPerSlice ∧
    p.sliceNamesUnchanged.length > 0 then _ else none) = found
  cases found with
  | none =>
    obtain ⟨added, hf⟩ := fillSlice_filled o.pop r.maxEndpointsPerSlice
      p.desiredSet (r.newEndpointSlice service endpointMeta)
    have hname : (fillSlice o.pop r.maxEndpointsPerSlice p.desiredSet
        (r.newEndpointSlice service endpointMeta)).2.name = "" := by
      rw [hf.slice]
      rfl
    rw [Option.getD_none, if_neg fun hne => hne hname]
    exact .inl ⟨added, _, _, hf, rfl⟩
  | some s =>
    have hif : p.desiredSet.Len < r.maxEndpointsPerSlice ∧ p.sliceNamesUnchanged.length > 0 := by
      by_contra hneg
      rw [if_neg hneg] at hfound
      cases hfound
    rw [if_pos hif] at hfound
    obtain ⟨hmem, hroom⟩ := getSliceToFill_mem hfound
    have hkept : s ∈ kept := by
      refine (Accounted.slices_perm ?_ fun s hs => ?_).mem_iff.mp hmem
      · exact ((o.unchanged _).perm _).trans h.unchanged
      · exact h.stored s (List.mem_append_left _ (List.mem_append_left _ hs))
    obtain ⟨added, hf⟩ := fillSlice_filled o.pop r.maxEndpointsPerSlice p.desiredSet s
    have hname : (fillSlice o.pop r.maxEndpointsPerSlice p.desiredSet s).2.name = s.name := by
      rw [hf.slice]
    have hne : s.name ≠ "" := hnamed s (h.untouched s (List.mem_append_left _ hkept))
    rw [Option.getD_some, hname, if_pos hne]
    exact .inr ⟨s, hkept, added, _, _, hf, hroom, rfl⟩

theorem Accounted.placeRest {existing kept upd del : List EndpointSlice}
    {all : EndpointSet r.hasher} {p : Progress r.hasher}
    (h : Accounted r service endpointMeta existing all p kept upd del)
    (hnames : (existing.map (·.name)).Nodup) (hnamed : ∀ s ∈ existing, s.name ≠ "")
    (hlen : 0 < p.desiredSet.Len) :
    (∃ kept' upd', Accounted r service endpointMeta existing all
      (r.placeRest service o endpointMeta p) kept' upd' del) ∧
      (r.placeRest service o endpointMeta p).desiredSet.Len < p.desiredSet.Len := by
  rcases h.placeRest_cases (o := o) hnamed with
    ⟨added, rest, slice', hf, heq⟩ | ⟨s, hkept, added, rest, slice', hf, hroom, heq⟩
  · rw [heq]
    obtain rfl := hf.slice
    exact ⟨⟨kept, upd, h.addNew ⟨_, rfl⟩ (hf.placed h.placed)⟩,
      hf.len_lt r.maxEndpointsPerSlice_pos hlen⟩
  · rw [heq]
    obtain rfl := hf.slice
    obtain ⟨left, right, rfl⟩ := List.append_of_mem hkept
    have hpromoted := (h.of_perm (.refl _) List.perm_middle (.refl _)).promote hnames
    exact ⟨⟨left ++ right, _, hpromoted.refill hnames hf.le (hf.placed hpromoted.placed)⟩,
      hf.len_lt (by omega) hlen⟩

/-- The loop of the third part, round by round. -/
inductive Rounds (r : Reconciler) (service : Service) (o : GroupOrders)
    (endpointMeta : EndpointMeta) : Progress r.hasher → Progress r.hasher → Prop
  | done {p : Progress r.hasher} (hlen : p.desiredSet.Len = 0) :
    Rounds r service o endpointMeta p p
  | next {p p' : Progress r.hasher} (hlen : 0 < p.desiredSet.Len)
    (hrest : Rounds r service o endpointMeta (r.placeRest service o endpointMeta p) p') :
    Rounds r service o endpointMeta p p'

/-- The rounds come to an end, with what each round keeps, if each takes something out of the set. -/
theorem placeAll_rounds {I : Progress r.hasher → Prop}
    (hstep : ∀ p, I p → 0 < p.desiredSet.Len → I (r.placeRest service o endpointMeta p) ∧
      (r.placeRest service o endpointMeta p).desiredSet.Len < p.desiredSet.Len)
    {p : Progress r.hasher} (hp : I p) {rounds : Nat} (hrounds : p.desiredSet.Len ≤ rounds) :
    I (r.placeAll service o endpointMeta rounds p) ∧
      (r.placeAll service o endpointMeta rounds p).desiredSet.Len = 0 ∧
      Rounds r service o endpointMeta p (r.placeAll service o endpointMeta rounds p) := by
  induction rounds generalizing p with
  | zero => exact ⟨hp, Nat.le_zero.mp hrounds, .done (Nat.le_zero.mp hrounds)⟩
  | succ rounds ih =>
    unfold placeAll
    split_ifs with hlen
    · obtain ⟨hp', hless⟩ := hstep p hp hlen
      obtain ⟨hfinal, hempty, hrun⟩ := ih hp' (by omega)
      exact ⟨hfinal, hempty, .next hlen hrun⟩
    · have hzero := Nat.le_zero.mp (Nat.not_lt.mp hlen)
      exact ⟨hp, hzero, .done hzero⟩

theorem Accounted.placeAll {existing kept upd del : List EndpointSlice}
    {all : EndpointSet r.hasher} {p : Progress r.hasher} {rounds : Nat}
    (h : Accounted r service endpointMeta existing all p kept upd del)
    (hnames : (existing.map (·.name)).Nodup) (hnamed : ∀ s ∈ existing, s.name ≠ "")
    (hrounds : p.desiredSet.Len ≤ rounds) :
    (∃ kept' upd', Accounted r service endpointMeta existing all
      (r.placeAll service o endpointMeta rounds p) kept' upd' del) ∧
      (r.placeAll service o endpointMeta rounds p).desiredSet.Len = 0 := by
  obtain ⟨hfinal, hempty, -⟩ := placeAll_rounds (o := o)
    (I := fun p => ∃ kept upd, Accounted r service endpointMeta existing all p kept upd del)
    (fun p hp hlen => by
      obtain ⟨kept, upd, hp⟩ := hp
      exact hp.placeRest hnames hnamed hlen) ⟨kept, upd, h⟩ hrounds
  exact ⟨hfinal, hempty⟩

/-- What the changes of one group leave: the existing slices that stay as they are, and with those
that are updated and created all the desired endpoints. -/
structure Reconciled (r : Reconciler) (service : Service) (endpointMeta : EndpointMeta)
    (existing : List EndpointSlice) (all : EndpointSet r.hasher) (changes : Changes)
    (kept : List EndpointSlice) : Prop where
  names : ((kept ++ changes.toUpdate ++ changes.toDelete).map (·.name)).Perm (existing.map (·.name))
  untouched : ∀ s ∈ kept ++ changes.toDelete, s ∈ existing
  revised : ∀ t ∈ changes.toUpdate, ∃ s ∈ existing, Revised r s t
  inSync : ∀ s ∈ kept ++ changes.toUpdate, InSync service s
  created : ∀ s ∈ changes.toCreate, New r service endpointMeta s
  dropped : ∀ s ∈ changes.toDelete, s.endpoints ≠ []
  placed : all.Placed ((kept ++ changes.toUpdate ++ changes.toCreate).flatMap (·.endpoints)) ∅

theorem reconcileByPortMapping_reconciled {existing : List EndpointSlice}
    (hnames : (existing.map (·.name)).Nodup) (hnamed : ∀ s ∈ existing, s.name ≠ "")
    (all : EndpointSet r.hasher) :
    ∃ kept, Reconciled r service endpointMeta existing all
      (r.reconcileByPortMapping service o existing all endpointMeta).1 kept := by
  have hnames' : ((existing ++ ([] : List EndpointSlice)).map (·.name)).Nodup := by
    rwa [List.append_nil]
  have hstart : Accounted r service endpointMeta [] all ⟨∅, [], [], [], [], all, 0⟩ [] [] [] := .start all
  obtain ⟨kept₁, upd₁, del, h₁⟩ := hstart.foldl_review hnames'
  rw [List.append_nil] at h₁
  obtain ⟨upd₂, h₂⟩ := h₁.fillUpdated (o := o) hnames
  obtain ⟨⟨kept, upd, h⟩, hlen⟩ := h₂.placeAll (o := o) hnames hnamed le_rfl
  unfold reconcileByPortMapping
  simp only
  generalize r.placeAll service o endpointMeta _ _ = p at h hlen ⊢
  have hupd : (p.slices (o.updated.visit p.sliceNamesToUpdate)).Perm upd := by
    refine Accounted.slices_perm ((o.updated.perm _).trans h.toUpdate) fun s hs => ?_
    exact h.stored s (List.mem_append_left _ (List.mem_append_right _ hs))
  have hdel : (p.slices (o.deleted.visit p.sliceNamesToDelete)).Perm del := by
    refine Accounted.slices_perm ((o.deleted.perm _).trans h.toDelete) fun s hs => ?_
    exact h.stored s (List.mem_append_right _ hs)
  have hempty : p.desiredSet.items = ∅ := len_eq_zero_iff.mp hlen
  refine ⟨kept, ?_, fun s hs => ?_, fun t ht => ?_, fun s hs => ?_, h.created, fun s hs => ?_, ?_⟩
  · exact (((hupd.append_left kept).append hdel).map _).trans h.names
  · exact h.untouched s ((hdel.append_left kept).mem_iff.mp hs)
  · exact h.revised t (hupd.mem_iff.mp ht)
  · exact h.inSync s ((hupd.append_left kept).mem_iff.mp hs)
  · exact h.dropped s (hdel.mem_iff.mp hs)
  · have hplaced := h.placed.of_perm
      (((hupd.append_left kept).append_right p.slicesToCreate).flatMap_right (·.endpoints)).symm
    rw [hempty] at hplaced
    exact hplaced

/-! ## Slices that are as they should be -/

/-- No slice is to be created, updated or deleted so far, and the rest of the desired endpoints is
placed in the slices to come. -/
structure Settling {h : Hasher} (p : Progress h) (endpoints : List Endpoint) : Prop where
  toUpdate : p.sliceNamesToUpdate = []
  toDelete : p.sliceNamesToDelete = []
  toCreate : p.slicesToCreate = []
  placed : p.desiredSet.Placed endpoints ∅

theorem Settling.review {p : Progress r.hasher} {more : List Endpoint}
    (h : Settling p (s.endpoints ++ more)) (hsync : InSync service s) :
    Settling (r.reviewSlice service p s) more := by
  obtain ⟨hlen, hupdated, hmore⟩ := keepDesired_of_placed h.placed
  have hlabels : (setEndpointSliceLabels s service r.managedByName).2 = false :=
    setEndpointSliceLabels_eq_false_iff.mpr hsync
  unfold reviewSlice
  simp only [hlen, hupdated, hlabels, Bool.false_eq_true, ne_eq, not_true_eq_false, or_self,
    if_false]
  exact ⟨h.toUpdate, h.toDelete, h.toCreate, hmore⟩

theorem Settling.foldl_review {slices : List EndpointSlice} {p : Progress r.hasher}
    (h : Settling p (slices.flatMap (·.endpoints))) (hsync : ∀ s ∈ slices, InSync service s) :
    Settling (slices.foldl (r.reviewSlice service) p) [] := by
  induction slices generalizing p with
  | nil => exact h
  | cons s slices ih =>
    obtain ⟨hs, hslices⟩ := List.forall_mem_cons.mp hsync
    exact ih (h.review hs) hslices

theorem reconcileByPortMapping_settled {existing : List EndpointSlice} {all : EndpointSet r.hasher}
    (hplaced : all.Placed (existing.flatMap (·.endpoints)) ∅)
    (hsync : ∀ s ∈ existing, InSync service s) :
    (r.reconcileByPortMapping service o existing all endpointMeta).1 = ⟨[], [], []⟩ := by
  have hstart : Settling ⟨∅, [], [], [], [], all, 0⟩ (existing.flatMap (·.endpoints)) :=
    ⟨rfl, rfl, rfl, hplaced⟩
  have h := hstart.foldl_review hsync
  unfold reconcileByPortMapping
  generalize existing.foldl (r.reviewSlice service) _ = p at h ⊢
  have hlen : p.desiredSet.Len = 0 := by
    have hkeys : p.desiredSet.items.keys = [] := h.placed.perm.symm.eq_nil
    rw [Len, ← List.length_map Sigma.fst]
    exact List.length_eq_zero_iff.mpr hkeys
  have hfill : r.fillUpdated o p = p := by
    rw [fillUpdated, hlen]
    exact if_neg fun hpos => Nat.lt_irrefl 0 hpos.1
  have hvisit : ∀ order : RangeOrder String, order.visit [] = [] := fun order =>
    (order.perm []).eq_nil
  simp only [hfill, hlen, placeAll, h.toUpdate, h.toDelete, h.toCreate, hvisit, Progress.slices,
    List.filterMap_nil]

end Reconciler

end Fleetboard.EndpointSlices

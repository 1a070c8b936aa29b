import Fleetboard.Proof.DesiredEndpoints
import Fleetboard.Proof.PortMapping

/-!
# The slices of one address type

`changesByPortMap` divides the existing slices into those that stay, those to update and
those to delete (`Divided`). Together with the slices to create, those that stay or are updated
have the desired endpoints of every group of ports (`Complete`).

* `changesByPortMap_divided`: the groups of ports, before the placeholder.
-/

namespace Fleetboard.EndpointSlices

open EndpointSet

namespace Reconciler

variable {r : Reconciler} {service : Service} {addressType : AddressType} {pods : List Pod}
  {desired : GoMap String (Desired r.hasher)} {existing kept : List EndpointSlice}
  {s t : EndpointSlice} {key : String}

/-! ## Groups of slices -/

/-- The key of the group of a slice. -/
abbrev keyOf (r : Reconciler) (s : EndpointSlice) : String := r.hasher.NewPortMapKey s.ports

theorem lookup_slicesByPortMap (slices : List EndpointSlice) (key : String) :
    (r.slicesByPortMap slices).lookup key =
      if slices.filter (r.keyOf · = key) = [] then none
      else some (slices.filter (r.keyOf · = key)) := by
  induction slices using List.reverseRecOn generalizing key with
  | nil => rfl
  | append_singleton slices s ih =>
    rw [slicesByPortMap, List.foldl_append, List.foldl_cons, List.foldl_nil, GoMap.lookup_insert_eq]
    change (if key = r.keyOf s then _ else (r.slicesByPortMap slices).lookup key) = _
    by_cases hkey : key = r.keyOf s
    · rw [if_pos hkey]
      change some (((r.slicesByPortMap slices).lookup (r.keyOf s)).getD [] ++ [s]) = _
      have hgetD : ((r.slicesByPortMap slices).lookup (r.keyOf s)).getD [] =
          slices.filter (r.keyOf · = r.keyOf s) := by
        rw [ih]
        split_ifs with hnil
        · exact hnil.symm
        · rfl
      rw [hgetD, hkey, List.filter_append]
      simp
    · rw [if_neg hkey, ih, List.filter_append]
      have hne : ¬ r.keyOf s = key := fun heq => hkey heq.symm
      simp [hne]

theorem getD_lookup_slicesByPortMap (slices : List EndpointSlice) (key : String) :
    ((r.slicesByPortMap slices).lookup key).getD [] = slices.filter (r.keyOf · = key) := by
  rw [lookup_slicesByPortMap]
  split_ifs with hnil
  · exact hnil.symm
  · rfl

/-- The slices of the groups that are not desired. -/
theorem notDesired_perm (order : RangeOrder ((_ : String) × List EndpointSlice))
    (slices : List EndpointSlice) :
    ((order.visit (r.slicesByPortMap slices).entries).flatMap fun e =>
      if (desired.lookup e.1).isSome then [] else e.2).Perm
      (slices.filter fun s => !(desired.lookup (r.keyOf s)).isSome) := by
  refine ((order.perm _).flatMap_right _).trans ?_
  have hgroups : ((r.slicesByPortMap slices).entries.flatMap fun e =>
      if (desired.lookup e.1).isSome then [] else e.2) =
      ((r.slicesByPortMap slices).keys.filter fun k => !(desired.lookup k).isSome).flatMap
        fun k => slices.filter (r.keyOf · = k) := by
    have hentries : ∀ e ∈ (r.slicesByPortMap slices).entries,
        e.2 = slices.filter (r.keyOf · = e.1) := by
      intro e he
      rw [← getD_lookup_slicesByPortMap, GoMap.mem_entries_iff.mp he]
      rfl
    rw [AList.keys, List.keys]
    generalize (r.slicesByPortMap slices).entries = entries at hentries
    induction entries with
    | nil => rfl
    | cons e entries ih =>
      obtain ⟨he, hrest⟩ := List.forall_mem_cons.mp hentries
      rw [List.flatMap_cons, ih hrest, List.map_cons, List.filter_cons, he]
      cases (desired.lookup e.1).isSome with
      | true => rfl
      | false => rfl
  rw [hgroups]
  refine (flatMap_filter_key_perm r.keyOf ((r.slicesByPortMap slices).keys_nodup.filter _) slices).trans
    (.of_eq (List.filter_congr fun s hs => ?_))
  have hmem : r.keyOf s ∈ (r.slicesByPortMap slices).keys := by
    refine AList.lookup_isSome.mp ?_
    rw [lookup_slicesByPortMap, if_neg]
    · rfl
    · exact List.ne_nil_of_mem (List.mem_filter.mpr ⟨hs, decide_eq_true rfl⟩)
  rw [Bool.eq_iff_iff, decide_eq_true_eq, List.mem_filter]
  exact and_iff_right hmem

/-! ## The division of the existing slices -/

/-- The service owns the slice, and its ports are desired. -/
def Belongs (r : Reconciler) (service : Service) (desired : GoMap String (Desired r.hasher))
    (s : EndpointSlice) : Prop :=
  ownedBy s service = true ∧ (desired.lookup (r.keyOf s)).isSome = true

/-- The endpoints of the slices of each group of ports are the desired ones. -/
def Complete (r : Reconciler) (desired : GoMap String (Desired r.hasher))
    (slices : List EndpointSlice) : Prop :=
  ∀ key d, desired.lookup key = some d →
    d.endpoints.Placed ((slices.filter (r.keyOf · = key)).flatMap (·.endpoints)) ∅

/-- The existing slices are kept, updated or deleted. -/
structure Divided (r : Reconciler) (service : Service) (addressType : AddressType)
    (desired : GoMap String (Desired r.hasher)) (existing : List EndpointSlice) (changes : Changes)
    (kept : List EndpointSlice) : Prop where
  names : ((kept ++ changes.toUpdate ++ changes.toDelete).map (·.name)).Perm (existing.map (·.name))
  untouched : ∀ s ∈ kept ++ changes.toDelete, s ∈ existing
  revised : ∀ t ∈ changes.toUpdate, ∃ s ∈ existing, Revised r s t
  created : ∀ s ∈ changes.toCreate, ∃ endpointMeta, New r service endpointMeta s ∧
    endpointMeta.addressType = addressType
  belongs : ∀ s ∈ kept ++ changes.toUpdate ++ changes.toCreate,
    Belongs r service desired s ∧ InSync service s
  dropped : ∀ s ∈ changes.toDelete, Belongs r service desired s → s.endpoints ≠ []
  complete : Complete r desired (kept ++ changes.toUpdate ++ changes.toCreate)

theorem ownedBy_new {endpointMeta : EndpointMeta} (hnew : New r service endpointMeta s) :
    ownedBy s service = true := by
  obtain ⟨endpoints, rfl⟩ := hnew
  simp [ownedBy, newEndpointSlice]

theorem ports_new {endpointMeta : EndpointMeta} (hnew : New r service endpointMeta s) :
    s.ports = endpointMeta.ports := by
  obtain ⟨endpoints, rfl⟩ := hnew
  rfl

theorem inSync_new {endpointMeta : EndpointMeta} (hnew : New r service endpointMeta s) :
    InSync service s := by
  obtain ⟨endpoints, rfl⟩ := hnew
  have hsync : InSync service (r.newEndpointSlice service endpointMeta) := inSync_newEndpointSlice
  exact hsync.of_labels rfl

theorem Revised.ownedBy_eq (hst : Revised r s t) : ownedBy t service = ownedBy s service := by
  obtain ⟨⟨endpoints, labels, rfl⟩, -⟩ := hst
  rfl

theorem Revised.keyOf_eq (hst : Revised r s t) : r.keyOf t = r.keyOf s := by
  obtain ⟨⟨endpoints, labels, rfl⟩, -⟩ := hst
  rfl

/-- What is left of one group has the ports of the group. -/
theorem Reconciled.belongs {endpointMeta : EndpointMeta} {all : EndpointSet r.hasher}
    {changes : Changes} (h : Reconciled r service endpointMeta existing all changes kept)
    (hexisting : ∀ s ∈ existing, ownedBy s service = true ∧ r.keyOf s = key)
    (hmeta : r.hasher.NewPortMapKey endpointMeta.ports = key) :
    ∀ s ∈ kept ++ changes.toUpdate ++ changes.toCreate,
      ownedBy s service = true ∧ r.keyOf s = key ∧ InSync service s := by
  intro s hs
  rcases List.mem_append.mp hs with hs | hs
  · refine ⟨?_, ?_, h.inSync s hs⟩ <;> rcases List.mem_append.mp hs with hs | hs
    · exact (hexisting s (h.untouched s (List.mem_append_left _ hs))).1
    · obtain ⟨s₀, hs₀, hrevised⟩ := h.revised s hs
      rw [hrevised.ownedBy_eq]
      exact (hexisting s₀ hs₀).1
    · exact (hexisting s (h.untouched s (List.mem_append_left _ hs))).2
    · obtain ⟨s₀, hs₀, hrevised⟩ := h.revised s hs
      rw [hrevised.keyOf_eq]
      exact (hexisting s₀ hs₀).2
  · have hnew := h.created s hs
    refine ⟨ownedBy_new hnew, ?_, inSync_new hnew⟩
    rw [keyOf, ports_new hnew]
    exact hmeta

/-- The changes of one group of ports. -/
def groupChanges (r : Reconciler) (service : Service) (o : TypeOrders r.hasher)
    (existing : List EndpointSlice) (e : (_ : String) × Desired r.hasher) : Changes :=
  (r.reconcileByPortMapping service (o.group e.1)
    ((existing.filter (ownedBy · service)).filter (r.keyOf · = e.1)) e.2.endpoints
    e.2.endpointMeta).1

theorem changesByPortMap_eq (o : TypeOrders r.hasher) :
    r.changesByPortMap service o existing desired =
      { toCreate := (o.desired.visit desired.entries).flatMap fun e =>
          (r.groupChanges service o existing e).toCreate
        toUpdate := (o.desired.visit desired.entries).flatMap fun e =>
          (r.groupChanges service o existing e).toUpdate
        toDelete := existing.filter (!ownedBy · service) ++
          ((o.desired.visit desired.entries).flatMap fun e =>
            (r.groupChanges service o existing e).toDelete) ++
          (o.existing.visit (r.slicesByPortMap (existing.filter (ownedBy · service))).entries).flatMap
            fun e => if (desired.lookup e.1).isSome then [] else e.2 } := by
  simp only [changesByPortMap, getD_lookup_slicesByPortMap, List.flatMap_map, groupChanges]

theorem keys_visit_nodup (order : RangeOrder ((_ : String) × Desired r.hasher))
    (desired : GoMap String (Desired r.hasher)) :
    ((order.visit desired.entries).map Sigma.fst).Nodup :=
  ((order.perm _).map Sigma.fst).nodup_iff.mpr desired.keys_nodup

/-- The groups that are desired make up the slices with their ports. -/
theorem groups_perm (order : RangeOrder ((_ : String) × Desired r.hasher))
    (desired : GoMap String (Desired r.hasher)) (slices : List EndpointSlice) :
    ((order.visit desired.entries).flatMap fun e => slices.filter (r.keyOf · = e.1)).Perm
      (slices.filter fun s => (desired.lookup (r.keyOf s)).isSome) := by
  have hperm := flatMap_filter_key_perm r.keyOf (keys_visit_nodup order desired) slices
  rw [List.flatMap_map] at hperm
  refine hperm.trans (.of_eq (List.filter_congr fun s _ => ?_))
  rw [Bool.eq_iff_iff, decide_eq_true_eq, AList.lookup_isSome, AList.mem_keys]
  exact ((order.perm _).map Sigma.fst).mem_iff

section

variable (hnames : (existing.map (·.name)).Nodup) (hnamed : ∀ s ∈ existing, s.name ≠ "")

include hnames hnamed

theorem group_names (service : Service) (key : String) :
    (((existing.filter (ownedBy · service)).filter (r.keyOf · = key)).map (·.name)).Nodup ∧
      ∀ s ∈ (existing.filter (ownedBy · service)).filter (r.keyOf · = key), s.name ≠ "" := by
  have hsub : ((existing.filter (ownedBy · service)).filter (r.keyOf · = key)).Sublist existing :=
    List.filter_sublist.trans List.filter_sublist
  exact ⟨(hsub.map _).nodup hnames, fun s hs => hnamed s (hsub.mem hs)⟩

theorem groupChanges_reconciled (service : Service) (o : TypeOrders r.hasher)
    (e : (_ : String) × Desired r.hasher) :
    ∃ kept, Reconciled r service e.2.endpointMeta
      ((existing.filter (ownedBy · service)).filter (r.keyOf · = e.1)) e.2.endpoints
      (r.groupChanges service o existing e) kept := by
  obtain ⟨hnodup, hne⟩ := group_names hnames hnamed service e.1
  exact reconcileByPortMapping_reconciled hnodup hne e.2.endpoints

end

theorem changesByPortMap_divided (hg : Grouped r addressType desired)
    (hnames : (existing.map (·.name)).Nodup) (hnamed : ∀ s ∈ existing, s.name ≠ "")
    (o : TypeOrders r.hasher) :
    ∃ kept, Divided r service addressType desired existing
      (r.changesByPortMap service o existing desired) kept := by
  -- What is kept of the group of each key.
  choose keptOf hgroup using groupChanges_reconciled hnames hnamed service o
  rw [changesByPortMap_eq]
  have hvisit := o.desired.perm desired.entries
  have hkeys := keys_visit_nodup o.desired desired
  have hgroups := groups_perm o.desired desired (existing.filter (ownedBy · service))
  generalize o.desired.visit desired.entries = entries at hvisit hkeys hgroups ⊢
  have hmem : ∀ e ∈ entries, desired.lookup e.1 = some e.2 := fun e he =>
    GoMap.mem_entries_iff.mp (hvisit.mem_iff.mp he)
  have hbelongs : ∀ e ∈ entries, ∀ s ∈ keptOf e ++ (r.groupChanges service o existing e).toUpdate ++
      (r.groupChanges service o existing e).toCreate,
      ownedBy s service = true ∧ r.keyOf s = e.1 ∧ InSync service s := by
    intro e he
    refine (hgroup e).belongs (fun s hs => ?_) (hg (hmem e he)).1
    obtain ⟨hs, hkey⟩ := List.mem_filter.mp hs
    exact ⟨(List.mem_filter.mp hs).2, of_decide_eq_true hkey⟩
  refine ⟨entries.flatMap keptOf, ?_, fun s hs => ?_, fun t ht => ?_, fun s hs => ?_, fun s hs => ?_,
    fun s hs => ?_, fun key d hd => ?_⟩
  · have hthree : ((entries.flatMap keptOf ++
        (entries.flatMap fun e => (r.groupChanges service o existing e).toUpdate) ++
        entries.flatMap fun e => (r.groupChanges service o existing e).toDelete).map (·.name)).Perm
        ((entries.flatMap fun e =>
          (existing.filter (ownedBy · service)).filter (r.keyOf · = e.1)).map (·.name)) := by
      refine ((flatMap_append₃_perm entries _ _ _).map _).trans ?_
      rw [List.map_flatMap, List.map_flatMap]
      exact List.Perm.flatMap_left _ fun e _ => (hgroup e).names
    have hrest : ∀ a b c d e : List EndpointSlice, (a ++ b ++ (c ++ d ++ e)).Perm
        (a ++ b ++ d ++ (c ++ e)) := by
      intro a b c d e
      rw [List.append_assoc (a ++ b) d, ← List.append_assoc d c]
      exact (List.perm_append_comm.append_right e).append_left _
    refine ((hrest _ _ _ _ _).map _).trans ?_
    rw [List.map_append]
    refine (hthree.append_right _).trans ?_
    rw [← List.map_append]
    refine List.Perm.map _ ?_
    refine (hgroups.append ((notDesired_perm o.existing _).append_left _)).trans ?_
    refine (List.perm_append_comm.append_left _).trans ?_
    rw [← List.append_assoc]
    exact ((List.filter_append_perm _ _).append_right _).trans (List.filter_append_perm _ _)
  · rcases List.mem_append.mp hs with hs | hs
    · obtain ⟨e, -, hs⟩ := List.mem_flatMap.mp hs
      exact List.mem_of_mem_filter (List.mem_of_mem_filter
        ((hgroup e).untouched s (List.mem_append_left _ hs)))
    · rcases List.mem_append.mp hs with hs | hs
      · rcases List.mem_append.mp hs with hs | hs
        · exact List.mem_of_mem_filter hs
        · obtain ⟨e, -, hs⟩ := List.mem_flatMap.mp hs
          exact List.mem_of_mem_filter (List.mem_of_mem_filter
            ((hgroup e).untouched s (List.mem_append_right _ hs)))
      · exact List.mem_of_mem_filter (List.mem_of_mem_filter
          ((notDesired_perm o.existing _).mem_iff.mp hs))
  · obtain ⟨e, -, ht⟩ := List.mem_flatMap.mp ht
    obtain ⟨s, hs, hst⟩ := (hgroup e).revised t ht
    exact ⟨s, List.mem_of_mem_filter (List.mem_of_mem_filter hs), hst⟩
  · obtain ⟨e, he, hs⟩ := List.mem_flatMap.mp hs
    exact ⟨e.2.endpointMeta, (hgroup e).created s hs, (hg (hmem e he)).2⟩
  · obtain ⟨e, he, hs⟩ := List.mem_flatMap.mp ((flatMap_append₃_perm entries _ _ _).mem_iff.mp hs)
    obtain ⟨howned, hkey, hsync⟩ := hbelongs e he s hs
    refine ⟨⟨howned, ?_⟩, hsync⟩
    rw [hkey, hmem e he]
    rfl
  · rintro ⟨howned, hdesired⟩
    rcases List.mem_append.mp hs with hs | hs
    · rcases List.mem_append.mp hs with hs | hs
      · rw [List.mem_filter, howned] at hs
        cases hs.2
      · obtain ⟨e, -, hs⟩ := List.mem_flatMap.mp hs
        exact (hgroup e).dropped s hs
    · have hnot := (List.mem_filter.mp ((notDesired_perm o.existing _).mem_iff.mp hs)).2
      rw [hdesired] at hnot
      cases hnot
  · have he : (⟨key, d⟩ : (_ : String) × Desired r.hasher) ∈ entries :=
      hvisit.mem_iff.mpr (GoMap.mem_entries_iff.mpr hd)
    have hslices := filter_flatMap_key r.keyOf hkeys
      (fun e he s hs => (hbelongs e he s hs).2.1) he
    refine (hgroup ⟨key, d⟩).placed.of_perm (List.Perm.flatMap_right _ ?_)
    rw [← hslices]
    exact ((flatMap_append₃_perm entries _ _ _).filter _).symm

end Reconciler

end Fleetboard.EndpointSlices

import Fleetboard.Proof.AddressType

/-!
# Slices that are as they should be

`Settled` slices have the desired endpoints of every group of ports, and nothing else is to be
done: all belong to desired groups and have the labels of the service, or the only one is a
placeholder. It only depends on what a slice is for (`view`), not on its name, its annotations,
hints and the order of its ports and addresses.

* `withPlaceholder_settled`, `removeHints_settled`: what the changes of the existing slices leave;
* `changesByPortMap_settled`: where that exists already, nothing changes.
-/

namespace Fleetboard.EndpointSlices

open EndpointSet

namespace Reconciler

variable {r : Reconciler} {service : Service} {addressType : AddressType} {pods : List Pod}
  {desired : GoMap String (Desired r.hasher)} {existing kept slices slices' : List EndpointSlice}
  {changes : Changes} {s t : EndpointSlice}

/-! ## Views -/

/-- The endpoint without hints and with its addresses in order. -/
def blank (endpoint : Endpoint) : Endpoint := { sortAddresses endpoint with hints := none }

/-- What a slice is for. -/
structure View where
  ns : String
  labels : GoMap String String
  ownerReferences : List OwnerReference
  addressType : AddressType
  ports : Option (List EndpointPort)
  endpoints : List Endpoint

def view (r : Reconciler) (s : EndpointSlice) : View :=
  { ns := s.ns
    labels := s.labels
    ownerReferences := s.ownerReferences
    addressType := s.addressType
    ports := r.hasher.sortPorts s.ports
    endpoints := s.endpoints.map blank }

theorem placed_blank_iff {h : Hasher} {all : EndpointSet h} {placed : List Endpoint}
    {rest : EndpointSet h} : all.Placed (placed.map blank) rest ↔ all.Placed placed rest :=
  Placed.map_iff (fun endpoint => hashEndpoint_sortAddresses h endpoint) fun _ _ => Iff.rfl

theorem keyOf_eq_of_view (hst : r.view s = r.view t) : r.keyOf s = r.keyOf t :=
  congrArg (fun v : View => r.hasher.deepHashObjectToString (.ports v.ports)) hst

theorem map_blank_flatMap (slices : List EndpointSlice) (key : String) :
    ((slices.filter (r.keyOf · = key)).flatMap (·.endpoints)).map blank =
      ((slices.map r.view).filter fun v =>
        r.hasher.deepHashObjectToString (.ports v.ports) = key).flatMap (·.endpoints) := by
  rw [List.map_flatMap, List.filter_map, List.flatMap_map]
  rfl

theorem Complete.of_view (h : Complete r desired slices)
    (hview : (slices.map r.view).Perm (slices'.map r.view)) : Complete r desired slices' := by
  intro key d hd
  have hplaced := placed_blank_iff.mpr (h key d hd)
  rw [map_blank_flatMap] at hplaced
  refine placed_blank_iff.mp ?_
  rw [map_blank_flatMap]
  exact hplaced.of_perm ((hview.filter _).flatMap_right _)

theorem Belongs.of_view (h : Belongs r service desired s) (hst : r.view s = r.view t) :
    Belongs r service desired t := by
  obtain ⟨howned, hdesired⟩ := h
  refine ⟨?_, ?_⟩
  · rw [ownedBy, ← show s.ownerReferences = t.ownerReferences from
      congrArg View.ownerReferences hst]
    exact howned
  · rwa [← keyOf_eq_of_view hst]

theorem inSync_of_view (h : InSync service s) (hst : r.view s = r.view t) : InSync service t :=
  h.of_labels (congrArg View.labels hst).symm

/-! ## Placeholders -/

/-- The placeholder of an address type. -/
abbrev placeholder (r : Reconciler) (service : Service) (addressType : AddressType) :
    EndpointSlice :=
  r.newEndpointSlice service ⟨some [], addressType⟩

theorem placeholderSliceCompare_iff :
    placeholderSliceCompare s (r.placeholder service addressType) = true ↔
      s.ns = service.ns ∧
      labelsCovered (r.placeholder service addressType).labels s.labels ∧
      labelsCovered s.labels (r.placeholder service addressType).labels ∧
      s.addressType = addressType ∧ s.endpoints = [] ∧ s.ports.getD [] = [] :=
  decide_eq_true_iff

theorem labelsCovered_self (labels : GoMap String String) : labelsCovered labels labels = true := by
  refine List.all_eq_true.mpr fun e he => decide_eq_true ?_
  rw [GoMap.mem_entries_iff.mp he]
  rfl

theorem placeholderSliceCompare_self : placeholderSliceCompare (r.placeholder service addressType)
    (r.placeholder service addressType) = true :=
  placeholderSliceCompare_iff.mpr
    ⟨rfl, labelsCovered_self _, labelsCovered_self _, rfl, rfl, rfl⟩

theorem getD_eq_nil_of_samePorts {ports ports' : Option (List EndpointPort)}
    (hsame : SamePorts ports ports') (hnil : ports.getD [] = []) : ports'.getD [] = [] := by
  cases hsame with
  | none => rfl
  | some hperm =>
    rw [Option.getD_some] at hnil
    rw [hnil] at hperm
    exact hperm.symm.eq_nil

theorem placeholderSliceCompare_of_view
    (h : placeholderSliceCompare s (r.placeholder service addressType) = true)
    (hst : r.view s = r.view t) :
    placeholderSliceCompare t (r.placeholder service addressType) = true := by
  obtain ⟨hns, hlabels, hlabels', htype, hendpoints, hports⟩ := placeholderSliceCompare_iff.mp h
  have hl : s.labels = t.labels := congrArg View.labels hst
  refine placeholderSliceCompare_iff.mpr ⟨?_, ?_, ?_, ?_, ?_, ?_⟩
  · exact (congrArg View.ns hst).symm.trans hns
  · rwa [← hl]
  · rwa [← hl]
  · exact (congrArg View.addressType hst).symm.trans htype
  · have hmap : s.endpoints.map blank = t.endpoints.map blank := congrArg View.endpoints hst
    rw [hendpoints, List.map_nil, eq_comm, List.map_eq_nil_iff] at hmap
    exact hmap
  · exact getD_eq_nil_of_samePorts (samePorts_of_sortPorts_eq (congrArg View.ports hst)) hports

/-! ## Settled slices -/

/-- The slices are as they should be, except for hints. -/
structure Settled (r : Reconciler) (service : Service) (addressType : AddressType)
    (desired : GoMap String (Desired r.hasher)) (slices : List EndpointSlice) : Prop where
  complete : Complete r desired slices
  ofType : ∀ s ∈ slices, s.addressType = addressType
  nonempty : slices ≠ []
  form : (∀ s ∈ slices, Belongs r service desired s ∧ InSync service s) ∨
    ∃ s, slices = [s] ∧ placeholderSliceCompare s (r.placeholder service addressType) = true ∧
      ¬ Belongs r service desired s

theorem Settled.of_view (h : Settled r service addressType desired slices)
    (hview : (slices.map r.view).Perm (slices'.map r.view)) :
    Settled r service addressType desired slices' := by
  have hmem : ∀ t ∈ slices', ∃ s ∈ slices, r.view s = r.view t := fun t ht =>
    List.mem_map.mp (hview.mem_iff.mpr (List.mem_map_of_mem ht))
  refine ⟨h.complete.of_view hview, fun t ht => ?_, fun hnil => ?_, ?_⟩
  · obtain ⟨s, hs, hst⟩ := hmem t ht
    exact (congrArg View.addressType hst).symm.trans (h.ofType s hs)
  · rw [hnil, List.map_nil] at hview
    exact h.nonempty (List.map_eq_nil_iff.mp hview.eq_nil)
  · rcases h.form with hall | ⟨s, rfl, hcompare, hnot⟩
    · refine .inl fun t ht => ?_
      obtain ⟨s, hs, hst⟩ := hmem t ht
      exact ⟨(hall s hs).1.of_view hst, inSync_of_view (hall s hs).2 hst⟩
    · rw [List.map_cons, List.map_nil] at hview
      obtain ⟨t, rfl, hst⟩ := List.map_eq_singleton_iff.mp hview.singleton_eq.symm
      exact .inr ⟨t, rfl, placeholderSliceCompare_of_view hcompare hst.symm,
        fun ht => hnot (ht.of_view hst)⟩

/-- A placeholder is settled where no endpoint is desired. -/
theorem settled_placeholder (hempty : Complete r desired []) (hendpoints : s.endpoints = [])
    (htype : s.addressType = addressType)
    (hform : Belongs r service desired s ∧ InSync service s ∨
      placeholderSliceCompare s (r.placeholder service addressType) = true ∧
        ¬ Belongs r service desired s) :
    Settled r service addressType desired [s] := by
  refine ⟨fun key d hd => ?_, List.forall_mem_singleton.mpr htype, List.cons_ne_nil s [], ?_⟩
  · have hnone : ((([s] : List EndpointSlice).filter (r.keyOf · = key)).flatMap (·.endpoints)) = [] := by
      refine List.flatMap_eq_nil_iff.mpr fun t ht => ?_
      rw [List.mem_singleton.mp (List.mem_of_mem_filter ht), hendpoints]
    rw [hnone]
    exact hempty key d hd
  · rcases hform with hbelongs | hcompare
    · exact .inl (List.forall_mem_singleton.mpr hbelongs)
    · exact .inr ⟨s, rfl, hcompare⟩

/-! ## What the changes leave -/

/-- The existing slices are kept, updated or deleted. -/
structure Split (existing : List EndpointSlice) (changes : Changes) (kept : List EndpointSlice) :
    Prop where
  names : ((kept ++ changes.toUpdate ++ changes.toDelete).map (·.name)).Perm (existing.map (·.name))
  untouched : ∀ s ∈ kept ++ changes.toDelete, s ∈ existing

theorem Divided.ofType (h : Divided r service addressType desired existing changes kept)
    (htype : ∀ s ∈ existing, s.addressType = addressType) :
    ∀ s ∈ kept ++ changes.toUpdate ++ changes.toCreate, s.addressType = addressType := by
  intro s hs
  rcases List.mem_append.mp hs with hs | hs
  · rcases List.mem_append.mp hs with hs | hs
    · exact htype s (h.untouched s (List.mem_append_left _ hs))
    · obtain ⟨s₀, hs₀, ⟨endpoints, labels, rfl⟩, -⟩ := h.revised s hs
      exact htype s₀ hs₀
  · obtain ⟨endpointMeta, ⟨endpoints, rfl⟩, hmeta⟩ := h.created s hs
    exact hmeta

/-- The changes with the placeholder, if one is needed: it may exist already. -/
theorem withPlaceholder_cases (numExisting : Nat) (changes : Changes) :
    (¬ (numExisting = changes.toDelete.length ∧ changes.toCreate.length < 1) ∧
      r.withPlaceholder service addressType numExisting changes = changes) ∨
    (numExisting = changes.toDelete.length ∧ changes.toCreate.length < 1) ∧
      ((∃ slice, changes.toDelete = [slice] ∧
        placeholderSliceCompare slice (r.placeholder service addressType) = true ∧
        r.withPlaceholder service addressType numExisting changes = { changes with toDelete := [] }) ∨
      r.withPlaceholder service addressType numExisting changes =
        { changes with toCreate := changes.toCreate ++ [r.placeholder service addressType] }) := by
  unfold withPlaceholder
  by_cases hcond : numExisting = changes.toDelete.length ∧ changes.toCreate.length < 1
  · rw [if_pos hcond]
    refine .inr ⟨hcond, ?_⟩
    simp only
    split
    · rename_i slice hdelete
      by_cases hcompare : placeholderSliceCompare slice (r.placeholder service addressType) = true
      · exact .inl ⟨slice, hdelete, hcompare, if_pos hcompare⟩
      · exact .inr (if_neg hcompare)
    · exact .inr rfl
  · exact .inl ⟨hcond, if_neg hcond⟩

theorem withPlaceholder_settled
    (h : Divided r service addressType desired existing changes kept)
    (htype : ∀ s ∈ existing, s.addressType = addressType) :
    ∃ kept', Split existing (r.withPlaceholder service addressType existing.length changes) kept' ∧
      Settled r service addressType desired
        (kept' ++ (r.withPlaceholder service addressType existing.length changes).toUpdate ++
          (r.withPlaceholder service addressType existing.length changes).toCreate) := by
  have hlength : kept.length + changes.toUpdate.length + changes.toDelete.length =
      existing.length := by
    have := h.names.length_eq
    rwa [List.length_map, List.length_map, List.length_append, List.length_append] at this
  rcases withPlaceholder_cases existing.length changes with ⟨hcond, heq⟩ | ⟨hcond, hcases⟩
  · rw [heq]
    refine ⟨kept, ⟨h.names, h.untouched⟩, h.complete, h.ofType htype, fun hnil => hcond ?_,
      .inl h.belongs⟩
    have hzero := congrArg List.length hnil
    rw [List.length_append, List.length_append, List.length_nil] at hzero
    exact ⟨by omega, by omega⟩
  · -- All slices are to be deleted, and no endpoint is desired.
    obtain rfl : kept = [] := List.length_eq_zero_iff.mp (by omega)
    have hupdate : changes.toUpdate = [] := List.length_eq_zero_iff.mp (by omega)
    have hcreate : changes.toCreate = [] := List.length_eq_zero_iff.mp (by omega)
    have hempty : Complete r desired [] := by
      have := h.complete
      rwa [hupdate, hcreate] at this
    rcases hcases with ⟨slice, hdelete, hcompare, heq⟩ | heq
    · have hmem : slice ∈ changes.toDelete := hdelete ▸ List.mem_singleton_self slice
      have hexisting : slice ∈ existing := h.untouched slice (List.mem_append_right _ hmem)
      have hendpoints := (placeholderSliceCompare_iff.mp hcompare).2.2.2.2.1
      rw [heq]
      refine ⟨[slice], ⟨?_, ?_⟩, ?_⟩
      · have := h.names
        rw [hupdate, hdelete] at this
        rw [hupdate]
        exact this
      · exact List.forall_mem_singleton.mpr hexisting
      · rw [hupdate, hcreate]
        refine settled_placeholder hempty hendpoints (htype slice hexisting) (.inr ⟨hcompare, ?_⟩)
        exact fun hbelongs => h.dropped slice hmem hbelongs hendpoints
    · rw [heq]
      refine ⟨[], ⟨h.names, h.untouched⟩, ?_⟩
      rw [hupdate, hcreate]
      refine settled_placeholder hempty rfl rfl ?_
      by_cases hbelongs : Belongs r service desired (r.placeholder service addressType)
      · exact .inl ⟨hbelongs, inSync_newEndpointSlice⟩
      · exact .inr ⟨placeholderSliceCompare_self, hbelongs⟩

/-! ## Hints -/

def NoHints (slices : List EndpointSlice) : Prop :=
  ∀ s ∈ slices, ∀ endpoint ∈ s.endpoints, endpoint.hints = none

theorem view_withoutHints (s : EndpointSlice) : r.view (withoutHints s) = r.view s := by
  have hmap : (withoutHints s).endpoints.map blank = s.endpoints.map blank := by
    rw [withoutHints, List.map_map]
    rfl
  rw [view, hmap]
  rfl

/-- The slices that are neither updated nor deleted are those that are kept. -/
theorem Split.unchangedSlices_perm (h : Split existing changes kept)
    (hnames : (existing.map (·.name)).Nodup) :
    (unchangedSlices existing changes.toUpdate changes.toDelete).Perm kept := by
  have hnodup : ((kept ++ changes.toUpdate ++ changes.toDelete).map (·.name)).Nodup :=
    h.names.nodup_iff.mpr hnames
  rw [List.append_assoc, List.map_append, List.nodup_append] at hnodup
  obtain ⟨hkept, -, hdisjoint⟩ := hnodup
  refine (List.perm_ext_iff_of_nodup ?_ (List.Nodup.of_map _ hkept)).mpr fun s => ?_
  · exact (List.Nodup.of_map _ hnames).filter _
  · rw [unchangedSlices, List.mem_filter, decide_eq_true_eq]
    constructor
    · rintro ⟨hs, hupdate, hdelete⟩
      have hname := h.names.mem_iff.mpr (List.mem_map_of_mem hs)
      rw [List.map_append, List.map_append, List.mem_append, List.mem_append] at hname
      obtain ⟨t, ht, hts⟩ := List.mem_map.mp ((hname.resolve_right hdelete).resolve_right hupdate)
      rwa [← List.inj_on_of_nodup_map hnames (h.untouched t (List.mem_append_left _ ht)) hs hts]
    · intro hs
      refine ⟨h.untouched s (List.mem_append_left _ hs), fun hupdate => ?_, fun hdelete => ?_⟩
      · refine hdisjoint _ (List.mem_map_of_mem hs) s.name ?_ rfl
        rw [List.map_append]
        exact List.mem_append_left _ hupdate
      · refine hdisjoint _ (List.mem_map_of_mem hs) s.name ?_ rfl
        rw [List.map_append]
        exact List.mem_append_right _ hdelete

theorem noHints_withoutHints (slices : List EndpointSlice) : NoHints (slices.map withoutHints) := by
  intro s hs endpoint hendpoint
  obtain ⟨s, -, rfl⟩ := List.mem_map.mp hs
  obtain ⟨endpoint, -, rfl⟩ := List.mem_map.mp hendpoint
  rfl

theorem removeHints_settled (h : Split existing changes kept)
    (hsettled : Settled r service addressType desired
      (kept ++ changes.toUpdate ++ changes.toCreate))
    {unchanged : List EndpointSlice} (hunchanged : unchanged.Perm kept) :
    ∃ kept', Split existing (RemoveHintsFromSlices changes unchanged) kept' ∧
      Settled r service addressType desired
        (kept' ++ (RemoveHintsFromSlices changes unchanged).toUpdate ++
          (RemoveHintsFromSlices changes unchanged).toCreate) ∧
      NoHints (kept' ++ (RemoveHintsFromSlices changes unchanged).toUpdate ++
        (RemoveHintsFromSlices changes unchanged).toCreate) := by
  have hfilter := List.filter_append_perm
    (fun slice : EndpointSlice => slice.endpoints.any (·.hints.isSome)) unchanged
  have hplain : NoHints (unchanged.filter fun slice => !slice.endpoints.any (·.hints.isSome)) := by
    intro s hs endpoint hendpoint
    have hnone := (List.mem_filter.mp hs).2
    rw [Bool.not_eq_true', List.any_eq_false] at hnone
    exact Option.not_isSome_iff_eq_none.mp (hnone endpoint hendpoint)
  unfold RemoveHintsFromSlices
  simp only
  generalize (unchanged.filter fun slice => slice.endpoints.any (·.hints.isSome)) = hinted
    at hfilter ⊢
  generalize (unchanged.filter fun slice => !slice.endpoints.any (·.hints.isSome)) = plain
    at hfilter hplain
  have hperm : (plain ++ (changes.toUpdate ++ hinted)).Perm (kept ++ changes.toUpdate) := by
    refine List.Perm.trans ?_ ((hfilter.trans hunchanged).append_right _)
    rw [List.append_assoc]
    refine List.perm_append_comm.trans ?_
    rw [List.append_assoc]
    refine (List.perm_append_comm_assoc _ _ _).trans ?_
    exact List.perm_append_comm.append_left _
  have hview : ∀ l : List EndpointSlice, (l.map withoutHints).map r.view = l.map r.view := by
    intro l
    rw [List.map_map]
    exact List.map_congr_left fun s _ => view_withoutHints s
  have hname : ∀ l : List EndpointSlice, (l.map withoutHints).map (·.name) = l.map (·.name) := by
    intro l
    rw [List.map_map]
    rfl
  refine ⟨plain, ⟨?_, fun s hs => ?_⟩, hsettled.of_view ?_, ?_⟩
  · refine List.Perm.trans (.of_eq ?_) (((hperm.append_right changes.toDelete).map _).trans h.names)
    simp only [List.map_append, hname]
  · rcases List.mem_append.mp hs with hs | hs
    · refine h.untouched s (List.mem_append_left _ ?_)
      exact (hfilter.trans hunchanged).mem_iff.mp (List.mem_append_right _ hs)
    · exact h.untouched s (List.mem_append_right _ hs)
  · refine ((hperm.append_right changes.toCreate).map r.view).symm.trans (.of_eq ?_)
    simp only [List.map_append, hview]
  · rw [← List.map_append]
    refine List.forall_mem_append.mpr ⟨List.forall_mem_append.mpr ⟨hplain, ?_⟩, ?_⟩
    · exact noHints_withoutHints _
    · exact noHints_withoutHints _

/-! ## Slices that are settled already -/

/-- The slices of a desired group that have its endpoints do not change. -/
theorem groupChanges_settled {e : (_ : String) × Desired r.hasher}
    (hplaced : e.2.endpoints.Placed
      (((existing.filter (ownedBy · service)).filter (r.keyOf · = e.1)).flatMap (·.endpoints)) ∅)
    (hsync : ∀ s ∈ existing, ownedBy s service = true → r.keyOf s = e.1 → InSync service s)
    (o : TypeOrders r.hasher) : r.groupChanges service o existing e = ⟨[], [], []⟩ := by
  refine reconcileByPortMapping_settled hplaced fun s hs => ?_
  obtain ⟨hs, hkey⟩ := List.mem_filter.mp hs
  obtain ⟨hs, howned⟩ := List.mem_filter.mp hs
  exact hsync s hs howned (of_decide_eq_true hkey)

/-- When no group changes, the slices outside of the desired groups are left to be deleted. -/
theorem changesByPortMap_of_groups {o : TypeOrders r.hasher}
    (hgroups : ∀ e : (_ : String) × Desired r.hasher, desired.lookup e.1 = some e.2 →
      r.groupChanges service o existing e = ⟨[], [], []⟩) :
    (r.changesByPortMap service o existing desired).toCreate = [] ∧
      (r.changesByPortMap service o existing desired).toUpdate = [] ∧
      (r.changesByPortMap service o existing desired).toDelete.Perm
        (existing.filter (!ownedBy · service) ++
          (existing.filter (ownedBy · service)).filter fun s =>
            !(desired.lookup (r.keyOf s)).isSome) := by
  have hnone : ∀ e ∈ o.desired.visit desired.entries,
      r.groupChanges service o existing e = ⟨[], [], []⟩ := fun e he =>
    hgroups e (GoMap.mem_entries_iff.mp (o.desired.mem_visit.mp he))
  have hflat : ∀ f : Changes → List EndpointSlice, f ⟨[], [], []⟩ = [] →
      ((o.desired.visit desired.entries).flatMap fun e => f (r.groupChanges service o existing e)) =
        [] := by
    intro f hf
    refine List.flatMap_eq_nil_iff.mpr fun e he => ?_
    rw [hnone e he, hf]
  rw [changesByPortMap_eq]
  refine ⟨hflat (·.toCreate) rfl, hflat (·.toUpdate) rfl, ?_⟩
  show (_ ++ (o.desired.visit desired.entries).flatMap _ ++ _).Perm _
  rw [hflat (·.toDelete) rfl, List.append_nil]
  exact (notDesired_perm o.existing _).append_left _

/-- Slices of desired groups stay, if they are not none. -/
theorem changesByPortMap_belonging (hcomplete : Complete r desired existing) (hne : existing ≠ [])
    (hall : ∀ s ∈ existing, Belongs r service desired s ∧ InSync service s)
    (o : TypeOrders r.hasher) :
    r.withPlaceholder service addressType existing.length
      (r.changesByPortMap service o existing desired) = ⟨[], [], []⟩ := by
  have howned : existing.filter (ownedBy · service) = existing :=
    List.filter_eq_self.mpr fun s hs => (hall s hs).1.1
  have hforeign : existing.filter (!ownedBy · service) = [] := by
    refine List.filter_eq_nil_iff.mpr fun s hs => ?_
    rw [(hall s hs).1.1]
    exact Bool.false_ne_true
  have hdesired : (existing.filter fun s => !(desired.lookup (r.keyOf s)).isSome) = [] := by
    refine List.filter_eq_nil_iff.mpr fun s hs => ?_
    rw [(hall s hs).1.2]
    exact Bool.false_ne_true
  obtain ⟨hcreate, hupdate, hdelete⟩ := changesByPortMap_of_groups (o := o) fun e he =>
    groupChanges_settled (by rw [howned]; exact hcomplete e.1 e.2 he)
      (fun s hs _ _ => (hall s hs).2) o
  rw [howned, hforeign, hdesired] at hdelete
  generalize r.changesByPortMap service o existing desired = changes at hcreate hupdate hdelete ⊢
  obtain ⟨toCreate, toUpdate, toDelete⟩ := changes
  obtain rfl : toCreate = [] := hcreate
  obtain rfl : toUpdate = [] := hupdate
  obtain rfl : toDelete = [] := hdelete.eq_nil
  exact if_neg fun hcond => hne (List.length_eq_zero_iff.mp hcond.1)

/-- A placeholder of no desired group would be the only slice to delete, and stays too. -/
theorem changesByPortMap_placeholder (hcomplete : Complete r desired [s])
    (hcompare : placeholderSliceCompare s (r.placeholder service addressType) = true)
    (hnot : ¬ Belongs r service desired s) (o : TypeOrders r.hasher) :
    r.withPlaceholder service addressType 1 (r.changesByPortMap service o [s] desired) =
      ⟨[], [], []⟩ := by
  have hkept : ∀ key d, desired.lookup key = some d →
      (([s] : List EndpointSlice).filter (ownedBy · service)).filter (r.keyOf · = key) = [] := by
    intro key d hd
    refine List.filter_eq_nil_iff.mpr fun t ht hkey => hnot ?_
    obtain ⟨ht, howned⟩ := List.mem_filter.mp ht
    obtain rfl := List.mem_singleton.mp ht
    refine ⟨howned, ?_⟩
    rw [of_decide_eq_true hkey, hd]
    rfl
  have hgroups : ∀ e : (_ : String) × Desired r.hasher, desired.lookup e.1 = some e.2 →
      r.groupChanges service o [s] e = ⟨[], [], []⟩ := by
    intro e he
    have hnone : (([s] : List EndpointSlice).filter (r.keyOf · = e.1)).flatMap (·.endpoints) =
        [] := by
      refine List.flatMap_eq_nil_iff.mpr fun t ht => ?_
      rw [List.mem_singleton.mp (List.mem_of_mem_filter ht)]
      exact (placeholderSliceCompare_iff.mp hcompare).2.2.2.2.1
    have hempty := hcomplete e.1 e.2 he
    rw [hnone] at hempty
    refine groupChanges_settled (by rw [hkept e.1 e.2 he]; exact hempty) (fun t ht howned hkey => ?_) o
    obtain rfl := List.mem_singleton.mp ht
    refine absurd ⟨howned, ?_⟩ hnot
    rw [hkey, he]
    rfl
  obtain ⟨hcreate, hupdate, hdelete⟩ := changesByPortMap_of_groups hgroups
  have hsingle : (([s] : List EndpointSlice).filter (!ownedBy · service) ++
      (([s] : List EndpointSlice).filter (ownedBy · service)).filter fun s =>
        !(desired.lookup (r.keyOf s)).isSome) = [s] := by
    by_cases howned : ownedBy s service = true
    · have hkey : (desired.lookup (r.keyOf s)).isSome = false :=
        Bool.eq_false_iff.mpr fun hkey => hnot ⟨howned, hkey⟩
      rw [List.filter_cons_of_neg (by rw [howned]; exact Bool.false_ne_true),
        List.filter_cons_of_pos (p := (ownedBy · service)) howned,
        List.filter_cons_of_pos (by rw [hkey]; rfl)]
      rfl
    · rw [List.filter_cons_of_pos (by rw [Bool.eq_false_iff.mpr howned]; rfl),
        List.filter_cons_of_neg (p := (ownedBy · service)) howned]
      rfl
  rw [hsingle] at hdelete
  generalize r.changesByPortMap service o [s] desired = changes at hcreate hupdate hdelete ⊢
  obtain ⟨toCreate, toUpdate, toDelete⟩ := changes
  obtain rfl : toCreate = [] := hcreate
  obtain rfl : toUpdate = [] := hupdate
  obtain rfl : toDelete = [s] := hdelete.eq_singleton
  rw [withPlaceholder, if_pos ⟨rfl, Nat.zero_lt_one⟩]
  exact if_pos hcompare

theorem changesByPortMap_settled (h : Settled r service addressType desired existing)
    (o : TypeOrders r.hasher) :
    r.withPlaceholder service addressType existing.length
      (r.changesByPortMap service o existing desired) = ⟨[], [], []⟩ := by
  rcases h.form with hall | ⟨s, rfl, hcompare, hnot⟩
  · exact changesByPortMap_belonging h.complete h.nonempty hall o
  · exact changesByPortMap_placeholder h.complete hcompare hnot o

end Reconciler

end Fleetboard.EndpointSlices

import Fleetboard.Proof.ExportMirror
import Fleetboard.Proof.ImportMirror

/-!
# A `Handle` as a pass over slices

The controllers of exports and imports end their `Handle` in the same way: they remove the
labelled slices of the target that have no source and apply a copy of each source, and any of
the calls may fail. Whatever fails, each slice of the target is left as it is, or it is
removed because it has no source, or it is brought to the content of its source.

* `Synced.of_remove`: these three cases, at each name;
* `Completed.of_remove`: without errors, all sources are copied and the other labelled slices
  are gone.
-/

namespace Fleetboard.Mcs

/-- The slice that an apply stores, for the slice that was there before. -/
def stored (before : Option EndpointSlice) (slice : EndpointSlice) : EndpointSlice :=
  match before with
  | none => slice
  | some cur =>
    { cur with
      ports := slice.ports
      endpoints := slice.endpoints
      addressType := slice.addressType }

section

variable (createPatch : CreatePatch EndpointSlice)

theorem lookup_applyEndPointSlice_self (slices : GoMap String EndpointSlice) (slice : EndpointSlice)
    (env : SliceApplyEnv) :
    (applyEndPointSlice createPatch slices slice env).1.lookup slice.name =
        slices.lookup slice.name ∨
      (applyEndPointSlice createPatch slices slice env).1.lookup slice.name =
        some (stored (slices.lookup slice.name) slice) := by
  unfold applyEndPointSlice
  split
  · rename_i hcreate
    rw [(create_eq_none_iff.mp hcreate).2, GoMap.lookup_insert_eq, if_pos rfl]
    exact .inr rfl
  · unfold resyncEndPointSlice
    split
    · exact .inl rfl
    · rename_i cur hget
      split
      · split
        · exact .inl rfl
        · rw [(get_eq_ok_iff.mp hget).2, GoMap.lookup_insert_eq, if_pos rfl]
          exact .inr rfl
      · exact .inl rfl
  · exact .inl rfl

theorem stored_stored (before : Option EndpointSlice) (slice : EndpointSlice) :
    stored (some (stored before slice)) slice = stored before slice := by
  cases before with
  | none => rfl
  | some cur => rfl

theorem lookup_ApplyEndPointSliceWithRetry_self (slice : EndpointSlice)
    (attempts : List SliceApplyEnv) (slices : GoMap String EndpointSlice) :
    (ApplyEndPointSliceWithRetry createPatch slices slice attempts).1.lookup slice.name =
        slices.lookup slice.name ∨
      (ApplyEndPointSliceWithRetry createPatch slices slice attempts).1.lookup slice.name =
        some (stored (slices.lookup slice.name) slice) := by
  induction attempts generalizing slices with
  | nil => exact .inl rfl
  | cons env attempts ih =>
    have hone := lookup_applyEndPointSlice_self createPatch slices slice env
    unfold ApplyEndPointSliceWithRetry
    generalize applyEndPointSlice createPatch slices slice env = r at hone ⊢
    split
    · rename_i slices'
      split
      · exact hone
      · -- The next attempt starts from what this one has left.
        rcases ih slices' with hsame | hstored
        · rw [hsame]
          exact hone
        · rw [hstored]
          rcases hone with heq | heq
          · exact .inr (by rw [heq])
          · exact .inr (by rw [heq, stored_stored])
    · exact hone

end

/-! ## Removing and applying -/

theorem deleteNonexistent_cases (kept : String → Bool) (deleteErr : String → Option Error)
    (names : List String) (target : GoMap String EndpointSlice) (k : String) :
    (deleteNonexistent kept deleteErr names target).1.lookup k = target.lookup k ∨
      k ∈ names ∧ kept k = false ∧
        (deleteNonexistent kept deleteErr names target).1.lookup k = none := by
  induction names generalizing target with
  | nil => exact .inl rfl
  | cons name names ih =>
    rw [deleteNonexistent]
    split
    · rcases ih target with heq | ⟨hmem, hkept, heq⟩
      · exact .inl heq
      · exact .inr ⟨List.mem_cons_of_mem _ hmem, hkept, heq⟩
    · rename_i hname
      split
      · exact .inl rfl
      · rcases ih (target.erase name) with heq | ⟨hmem, hkept, heq⟩
        · rw [heq, GoMap.lookup_erase_eq]
          by_cases hk : k = name
          · rw [if_pos hk]
            exact .inr ⟨hk ▸ List.mem_cons_self, hk ▸ Bool.eq_false_iff.mpr hname, rfl⟩
          · rw [if_neg hk]
            exact .inl rfl
        · exact .inr ⟨List.mem_cons_of_mem _ hmem, hkept, heq⟩

/-- What is removed, whatever fails; and what there is to copy. -/
theorem RemoveNonexistentEndpointslice_cases {src : List EndpointSlice} {srcClusterID srcNs : String}
    {labelMap dstLabelMap : List (String × String)} {target target' : GoMap String EndpointSlice}
    {nameChanged : Bool} {env : RemoveEnv} {r : Except Error (List EndpointSlice)}
    (hsrc : env.srcListErr ≠ some .notFound)
    (h : RemoveNonexistentEndpointslice src srcClusterID srcNs labelMap target dstLabelMap nameChanged
      env = (target', r)) :
    (∀ l, r = .ok l → l = srcEndpointSlices src srcNs labelMap env.srcOrder) ∧
      ∀ k, target'.lookup k = target.lookup k ∨ Labelled dstLabelMap target k ∧
        srcEndpointSliceMap (srcEndpointSlices src srcNs labelMap env.srcOrder) srcClusterID
          nameChanged k = false ∧ target'.lookup k = none := by
  unfold RemoveNonexistentEndpointslice at h
  split at h
  · unfold removeNonexistent at h
    split at h
    · obtain ⟨rfl, rfl⟩ := Prod.mk.inj h
      exact ⟨fun l hl => (Except.ok.inj hl).symm, fun k => .inl rfl⟩
    · simp only at h
      have hcases := deleteNonexistent_cases
        (srcEndpointSliceMap (srcEndpointSlices src srcNs labelMap env.srcOrder) srcClusterID
          nameChanged) env.deleteErr
        ((target.entries.filter fun e => matchesLabels dstLabelMap e.2.labels).map (·.1)) target
      split at h
      · rename_i heq
        obtain ⟨rfl, rfl⟩ := Prod.mk.inj h
        rw [heq] at hcases
        refine ⟨fun l hl => (by cases hl), fun k => ?_⟩
        exact (hcases k).imp id fun hk => ⟨mem_matching.mp hk.1, hk.2⟩
      · rename_i heq
        obtain ⟨rfl, rfl⟩ := Prod.mk.inj h
        rw [heq] at hcases
        refine ⟨fun l hl => (Except.ok.inj hl).symm, fun k => ?_⟩
        exact (hcases k).imp id fun hk => ⟨mem_matching.mp hk.1, hk.2⟩
  · rename_i heq
    exact absurd heq hsrc
  · obtain ⟨rfl, rfl⟩ := Prod.mk.inj h
    exact ⟨fun l hl => (by cases hl), fun k => .inl rfl⟩

theorem deleteNonexistent_noErrors (kept : String → Bool) {deleteErr : String → Option Error}
    (hdelete : ∀ name, deleteErr name = none) (names : List String)
    (target : GoMap String EndpointSlice) :
    (deleteNonexistent kept deleteErr names target).2 = none := by
  induction names generalizing target with
  | nil => rfl
  | cons name names ih =>
    rw [deleteNonexistent]
    split
    · exact ih target
    · rw [hdelete name]
      exact ih (target.erase name)

/-- Without errors, all the source's slices are there to copy. -/
theorem RemoveNonexistentEndpointslice_noErrors (src : List EndpointSlice)
    (srcClusterID srcNs : String) (labelMap dstLabelMap : List (String × String))
    (target : GoMap String EndpointSlice) (nameChanged : Bool) {env : RemoveEnv}
    (hsrc : env.srcListErr = none) (hdst : env.dstListErr = none)
    (hdelete : ∀ name, env.deleteErr name = none) :
    (RemoveNonexistentEndpointslice src srcClusterID srcNs labelMap target dstLabelMap nameChanged
      env).2 = .ok (srcEndpointSlices src srcNs labelMap env.srcOrder) := by
  simp only [RemoveNonexistentEndpointslice, hsrc, removeNonexistent, hdst]
  split
  · rename_i heq
    have hnone := deleteNonexistent_noErrors
      (srcEndpointSliceMap (srcEndpointSlices src srcNs labelMap env.srcOrder) srcClusterID
        nameChanged) hdelete
      ((target.entries.filter fun e => matchesLabels dstLabelMap e.2.labels).map (·.1)) target
    rw [heq] at hnone
    cases hnone
  · rfl

/-! ## Both together -/

/-- At each name the target is as before, or a labelled slice without a source is gone, or a
copy is stored. -/
def Synced (selector : List (String × String)) (copies : List EndpointSlice)
    (target target' : GoMap String EndpointSlice) : Prop :=
  ∀ k, target'.lookup k = target.lookup k ∨
    (Labelled selector target k ∧ (∀ s ∈ copies, s.name ≠ k) ∧ target'.lookup k = none) ∨
    ∃ s ∈ copies, s.name = k ∧ target'.lookup k = some (stored (target.lookup k) s)

/-- All copies are stored, and the labelled slices without a source are gone. -/
structure Completed (selector : List (String × String)) (copies : List EndpointSlice)
    (target target' : GoMap String EndpointSlice) : Prop where
  copied : ∀ s ∈ copies, (target'.lookup s.name).map content = some (content s)
  removed : ∀ k, (∀ s ∈ copies, s.name ≠ k) → Labelled selector target k → target'.lookup k = none

theorem Synced.refl (selector : List (String × String)) (copies : List EndpointSlice)
    (target : GoMap String EndpointSlice) : Synced selector copies target target :=
  fun _ => .inl rfl

/-- Under a name that no copy has, a complete pass leaves nothing, if what was there is labelled. -/
theorem Completed.lookup_eq_none {selector : List (String × String)} {copies : List EndpointSlice}
    {target target' : GoMap String EndpointSlice} (h : Completed selector copies target target')
    (hsynced : Synced selector copies target target') {k : String}
    (hnames : ∀ s ∈ copies, s.name ≠ k)
    (hlabels : ∀ es, target.lookup k = some es → matchesLabels selector es.labels = true) :
    target'.lookup k = none := by
  cases hes : target.lookup k with
  | none =>
    rcases hsynced k with heq | ⟨-, -, heq⟩ | ⟨s, hs, hsk, -⟩
    · exact heq.trans hes
    · exact heq
    · exact absurd hsk (hnames s hs)
  | some es => exact h.removed k hnames ⟨es, hes, hlabels es hes⟩

section

variable {createPatch : CreatePatch EndpointSlice}
  {src : List EndpointSlice} {srcClusterID srcNs : String}
  {labelMap dstLabelMap : List (String × String)} {target target' final : GoMap String EndpointSlice}
  {nameChanged : Bool} {env : RemoveEnv} {r : Except Error (List EndpointSlice)}
  {copy : EndpointSlice → EndpointSlice} {applies : String → List SliceApplyEnv} {turns : List Nat}
  (h : RemoveNonexistentEndpointslice src srcClusterID srcNs labelMap target dstLabelMap nameChanged
    env = (target', r))
  (hnames : (((srcEndpointSlices src srcNs labelMap env.srcOrder).map copy).map
    EndpointSlice.name).Nodup)
  (hkept : ∀ k, srcEndpointSliceMap (srcEndpointSlices src srcNs labelMap env.srcOrder) srcClusterID
    nameChanged k = false ↔
    ∀ s ∈ (srcEndpointSlices src srcNs labelMap env.srcOrder).map copy, s.name ≠ k)
  (hfinal : ∀ l, r = .ok l →
    final = (applySlices createPatch (l.map copy) applies target' turns).slices)

include h hnames hkept hfinal

theorem Synced.of_remove (hsrc : env.srcListErr ≠ some .notFound)
    (herror : ∀ e, r = .error e → final = target') :
    Synced dstLabelMap ((srcEndpointSlices src srcNs labelMap env.srcOrder).map copy) target
      final := by
  obtain ⟨hlist, hremoved⟩ := RemoveNonexistentEndpointslice_cases hsrc h
  generalize hcopies : (srcEndpointSlices src srcNs labelMap env.srcOrder).map copy = copies at *
  intro k
  rcases r with e | l
  · rw [herror e rfl]
    refine (hremoved k).imp id fun hk => .inl ⟨hk.1, (hkept k).mp hk.2.1, hk.2.2⟩
  · obtain rfl := hlist l rfl
    rw [hfinal _ rfl, hcopies]
    by_cases hk : ∃ s ∈ copies, s.name = k
    · obtain ⟨s, hs, rfl⟩ := hk
      -- What has a source is not removed.
      have hsame : target'.lookup s.name = target.lookup s.name :=
        (hremoved s.name).resolve_right fun hgone => (hkept s.name).mp hgone.2.1 s hs rfl
      rw [applySlices_lookup createPatch applies hnames target' turns hs]
      rcases lookup_ApplyEndPointSliceWithRetry_self createPatch s (applies s.name) target' with
        heq | heq
      · exact .inl (heq.trans hsame)
      · exact .inr (.inr ⟨s, hs, rfl, by rw [heq, hsame]⟩)
    · have hother : ∀ s ∈ copies, s.name ≠ k := fun s hs hname => hk ⟨s, hs, hname⟩
      rw [lookup_applySlices createPatch (fun s hs => (hother s hs).symm)]
      exact (hremoved k).imp id fun hgone => .inl ⟨hgone.1, hother, hgone.2.2⟩

theorem Completed.of_remove (hpatch : ReportsChanges createPatch) (hsrc : env.srcListErr = none)
    (hdst : env.dstListErr = none) (hdelete : ∀ name, env.deleteErr name = none)
    (happlies : ∀ name, applies name ≠ [] ∧ ∀ a ∈ applies name, a = ⟨none, none, none⟩) :
    Completed dstLabelMap ((srcEndpointSlices src srcNs labelMap env.srcOrder).map copy) target
      final := by
  have hok := RemoveNonexistentEndpointslice_noErrors src srcClusterID srcNs labelMap dstLabelMap
    target nameChanged hsrc hdst hdelete
  rw [h] at hok
  replace hok : r = .ok _ := hok
  subst hok
  obtain ⟨-, hremoved⟩ := RemoveNonexistentEndpointslice_ok hsrc h
  rw [hfinal _ rfl]
  refine ⟨fun s hs => ?_, fun k hk hlabelled => ?_⟩
  · rw [applySlices_lookup createPatch applies hnames target' turns hs]
    have hnone : (ApplyEndPointSliceWithRetry createPatch target' s (applies s.name)).2 = none :=
      (ApplyEndPointSliceWithRetry_eq_none_iff hpatch target' s (applies s.name)).mpr
        (succeeds_noErrors _ (happlies s.name).1 (happlies s.name).2)
    rcases ApplyEndPointSliceWithRetry_cases hpatch target' s (applies s.name) with
      ⟨e, he⟩ | ⟨slices', he, es, hes, hcontent, -⟩
    · rw [he] at hnone
      cases hnone
    · rw [he, hes, Option.map_some, hcontent]
  · rw [lookup_applySlices createPatch (fun s hs => (hk s hs).symm), hremoved,
      if_pos ⟨hdst, hlabelled, (hkept k).mpr hk⟩]

end

/-- Deleting the collection of the selector is a complete pass without sources. -/
theorem lookup_deleteCollection (selector : List (String × String))
    (target : GoMap String EndpointSlice) (k : String) :
    (((target.entries.filter fun e => matchesLabels selector e.2.labels).map (·.1)).foldl
      (fun m name => m.erase name) target).lookup k =
      if Labelled selector target k then none else target.lookup k := by
  rw [GoMap.lookup_foldl_erase]
  exact if_congr mem_matching rfl rfl

theorem Synced.deleteCollection (selector : List (String × String))
    (target : GoMap String EndpointSlice) :
    Synced selector [] target
      (((target.entries.filter fun e => matchesLabels selector e.2.labels).map (·.1)).foldl
        (fun m name => m.erase name) target) := by
  intro k
  rw [lookup_deleteCollection]
  split
  · rename_i hk
    exact .inr (.inl ⟨hk, fun s hs => absurd hs List.not_mem_nil, rfl⟩)
  · exact .inl rfl

/-! ## Exports -/

/-- No call to an API server fails. -/
structure ExportEnv.NoApiErrors (env : ExportEnv) : Prop where
  srcList : env.remove.srcListErr = none
  dstList : env.remove.dstListErr = none
  delete : ∀ name, env.remove.deleteErr name = none
  applies : ∀ name, env.applies name ≠ [] ∧ ∀ a ∈ env.applies name, a = ⟨none, none, none⟩

/-- What an export shares: nothing is done for it when the export or the service is unknown,
and nothing is left of it when it is being deleted. -/
def ServiceExportController.sharesOf (c : ServiceExportController) (key : NamespacedName) :
    Option (List EndpointSlice) :=
  match c.serviceExportLister.lookup key, c.serviceLister.lookup key with
  | some se, some _ => some (if se.deletionTimestamp then [] else c.slicesOf key)
  | _, _ => none

section

open ServiceExportController

variable {createPatch : CreatePatch EndpointSlice}
  {c c' : ServiceExportController} {key : NamespacedName} {se : ServiceExport} {env : ExportEnv}
  {r : HandleResult}

/-- The effect of a `Handle` on the hub: a pass with copies of these slices, complete when it
is done without errors. -/
def ExportPass (c c' : ServiceExportController) (key : NamespacedName) (l : List EndpointSlice)
    (complete : Prop) : Prop :=
  ∃ (se : ServiceExport) (l' : List EndpointSlice), se.ns = key.ns ∧ se.name = key.name ∧ l'.Perm l ∧
    Synced (exportSelector c.localClusterID key)
      (l'.map fun s => constructEndpointSlice s se c.operatorNamespace c.localClusterID) c.hub c'.hub ∧
    (complete → Completed (exportSelector c.localClusterID key)
      (l'.map fun s => constructEndpointSlice s se c.operatorNamespace c.localClusterID) c.hub c'.hub)

theorem nodup_constructEndpointSlice {l : List EndpointSlice} (se : ServiceExport)
    (ns clusterID : String) (h : (l.map EndpointSlice.name).Nodup) :
    ((l.map fun s => constructEndpointSlice s se ns clusterID).map EndpointSlice.name).Nodup := by
  have hinj : Function.Injective (hubName clusterID se.ns) := fun _ _ heq => hubName_inj heq
  have := h.map hinj
  rwa [List.map_map] at this ⊢

theorem ExportPass.imp {l : List EndpointSlice} {p q : Prop} (h : ExportPass c c' key l p)
    (hpq : q → p) : ExportPass c c' key l q := by
  obtain ⟨se, l', hns, hname, hperm, hsynced, hcompleted⟩ := h
  exact ⟨se, l', hns, hname, hperm, hsynced, fun hq => hcompleted (hpq hq)⟩

theorem syncSlices_pass (se : ServiceExport) (hpatch : ReportsChanges createPatch)
    (hsrc : env.remove.srcListErr ≠ some .notFound)
    (hnodup : ((c.slicesOf ⟨se.ns, se.name⟩).map EndpointSlice.name).Nodup) :
    ExportPass c (c.syncSlices createPatch se env).1 ⟨se.ns, se.name⟩ (c.slicesOf ⟨se.ns, se.name⟩)
      env.NoApiErrors := by
  have hperm : (srcEndpointSlices c.endpointSlicesLister se.ns
      [(Known.DiscoveryServiceName, se.name), (Known.DiscoveryManagedBy, Known.LabelValueManagedBy)]
      env.remove.srcOrder).Perm (c.slicesOf ⟨se.ns, se.name⟩) := env.remove.srcOrder.perm _
  have hnames := nodup_constructEndpointSlice se c.operatorNamespace c.localClusterID
    ((hperm.map EndpointSlice.name).nodup_iff.mpr hnodup)
  have hkept : ∀ k, srcEndpointSliceMap (srcEndpointSlices c.endpointSlicesLister se.ns
      [(Known.DiscoveryServiceName, se.name), (Known.DiscoveryManagedBy, Known.LabelValueManagedBy)]
      env.remove.srcOrder) c.localClusterID true k = false ↔ _ := fun k =>
    (srcEndpointSliceMap_eq_false (fun s hs =>
      (of_decide_eq_true (List.mem_filter.mp (hperm.mem_iff.mp hs)).2).1) k).trans
      (List.forall_mem_map (f := fun s => constructEndpointSlice s se c.operatorNamespace
        c.localClusterID) (P := fun s => s.name ≠ k)).symm
  cases hr : RemoveNonexistentEndpointslice c.endpointSlicesLister c.localClusterID se.ns
      [(Known.DiscoveryServiceName, se.name), (Known.DiscoveryManagedBy, Known.LabelValueManagedBy)]
      c.hub [(Known.DiscoveryServiceName, DerivedName c.localClusterID se.ns se.name)] true
      env.remove with
  | mk hub r =>
    have herror : ∀ e, r = .error e → (c.syncSlices createPatch se env).1.hub = hub := by
      rintro e rfl
      simp only [syncSlices, hr]
    have hok : ∀ l, r = .ok l → (c.syncSlices createPatch se env).1.hub =
        (applySlices createPatch (l.map fun s => constructEndpointSlice s se c.operatorNamespace
          c.localClusterID) env.applies hub env.turns).slices := by
      rintro l rfl
      simp only [syncSlices, hr]
      split <;> rfl
    exact ⟨se, _, rfl, rfl, hperm, Synced.of_remove hr hnames hkept hok hsrc herror,
      fun hno => Completed.of_remove hr hnames hkept hok hpatch hno.srcList hno.dstList hno.delete
        hno.applies⟩

theorem ExportPass.of_eq (l : List EndpointSlice) (hhub : c'.hub = c.hub) (hr : r ≠ .done) :
    ExportPass c c' key l (r = .done ∧ env.NoApiErrors) := by
  refine ⟨⟨key.ns, key.name, ∅, [], false⟩, l, rfl, rfl, .refl _, ?_, fun hdone => absurd hdone.1 hr⟩
  rw [hhub]
  exact Synced.refl _ _ _

theorem ExportPass.deleteCollection {complete : Prop}
    (hhub : c'.hub = ((c.hub.entries.filter fun e =>
      matchesLabels (exportSelector c.localClusterID key) e.2.labels).map (·.1)).foldl
        (fun hub name => hub.erase name) c.hub) : ExportPass c c' key [] complete := by
  refine ⟨⟨key.ns, key.name, ∅, [], false⟩, [], rfl, rfl, .refl _, ?_, fun _ => ⟨fun s hs => ?_, ?_⟩⟩
  · rw [hhub]
    exact Synced.deleteCollection _ _
  · exact absurd hs List.not_mem_nil
  · intro k _ hk
    rw [hhub, lookup_deleteCollection, if_pos hk]

theorem sharesOf_eq_some {clusterIP : String} (hse : c.serviceExportLister.lookup key = some se)
    (hservice : c.serviceLister.lookup key = some clusterIP) :
    c.sharesOf key = some (if se.deletionTimestamp then [] else c.slicesOf key) := by
  rw [sharesOf, hse, hservice]

/-- What a `Handle` does to the hub. -/
theorem Handle_pass (hpatch : ReportsChanges createPatch)
    (hsrc : env.remove.srcListErr ≠ some .notFound)
    (hnodup : ((c.slicesOf key).map EndpointSlice.name).Nodup)
    (h : c.Handle createPatch key env = (c', r)) :
    (c.sharesOf key = none → c'.hub = c.hub) ∧
      ∀ l, c.sharesOf key = some l → ExportPass c c' key l (r = .done ∧ env.NoApiErrors) := by
  unfold Handle at h
  split at h
  · obtain ⟨rfl, rfl⟩ := Prod.mk.inj h
    exact ⟨fun _ => rfl, fun l _ => ExportPass.of_eq l rfl (by simp [HandleResult.done])⟩
  · rename_i hse
    obtain ⟨rfl, rfl⟩ := Prod.mk.inj h
    refine ⟨fun _ => rfl, fun l hl => ?_⟩
    simp only [sharesOf, hse] at hl
    cases hl
  · rename_i cachedSe hget hse
    split at h
    · obtain ⟨rfl, rfl⟩ := Prod.mk.inj h
      exact ⟨fun _ => rfl, fun l _ => ExportPass.of_eq l rfl (by simp [HandleResult.done])⟩
    · rename_i hservice
      obtain ⟨rfl, rfl⟩ := Prod.mk.inj h
      refine ⟨fun _ => rfl, fun l hl => ?_⟩
      simp only [sharesOf, hse, hservice] at hl
      cases hl
    · rename_i clusterIP hserviceErr hservice
      have hshares := sharesOf_eq_some hse hservice
      refine ⟨fun hnone => ?_, fun l hl => ?_⟩
      · rw [hshares] at hnone
        cases hnone
      obtain rfl := Option.some_inj.mp (hshares.symm.trans hl)
      clear hl hshares
      have hretry : ∀ err, HandleResult.retrySecond err ≠ .done := by
        intro err heq
        cases heq
      by_cases hterm : cachedSe.deletionTimestamp = true
      · simp only [if_pos hterm] at h ⊢
        split at h
        · obtain ⟨rfl, rfl⟩ := Prod.mk.inj h
          exact ExportPass.of_eq _ rfl (hretry _)
        · split at h
          · obtain ⟨rfl, -⟩ := Prod.mk.inj h
            exact ExportPass.deleteCollection rfl
          · obtain ⟨rfl, -⟩ := Prod.mk.inj h
            exact ExportPass.deleteCollection rfl
      · simp only [if_neg hterm] at h ⊢
        split at h
        · have hpass := syncSlices_pass (cachedSe.marked key clusterIP) hpatch hsrc hnodup
          rw [show c.syncSlices createPatch (cachedSe.marked key clusterIP) env = (c', r) from h]
            at hpass
          exact hpass.imp And.right
        · split at h
          · obtain ⟨rfl, rfl⟩ := Prod.mk.inj h
            exact ExportPass.of_eq _ rfl (hretry _)
          · rename_i exports se' hupdate
            obtain ⟨hns, hname⟩ := updateExport_key hupdate
            have hkey : (⟨se'.ns, se'.name⟩ : NamespacedName) = key := by rw [hns, hname]
            have hpass := syncSlices_pass (c := { c with exports := exports }) se' hpatch hsrc
              (hkey.symm ▸ hnodup)
            rw [h, hkey] at hpass
            exact hpass.imp And.right

theorem syncSlices_export_controller (createPatch : CreatePatch EndpointSlice)
    (c : ServiceExportController) (se : ServiceExport) (env : ExportEnv) :
    ∃ hub, (c.syncSlices createPatch se env).1 = { c with hub := hub } := by
  unfold syncSlices
  split
  · exact ⟨_, rfl⟩
  · simp only
    split <;> exact ⟨_, rfl⟩

/-- Apart from the hub, a `Handle` changes stored exports only. -/
theorem Handle_export_controller (h : c.Handle createPatch key env = (c', r)) :
    ∃ exports hub, c' = { c with exports := exports, hub := hub } := by
  obtain rfl : (c.Handle createPatch key env).1 = c' := by rw [h]
  clear h
  unfold Handle
  split
  · exact ⟨c.exports, c.hub, rfl⟩
  · exact ⟨c.exports, c.hub, rfl⟩
  · split
    · exact ⟨c.exports, c.hub, rfl⟩
    · exact ⟨c.exports, c.hub, rfl⟩
    · simp only
      split
      · split
        · exact ⟨c.exports, c.hub, rfl⟩
        · split <;> exact ⟨_, _, rfl⟩
      · split
        · obtain ⟨hub, hhub⟩ := syncSlices_export_controller createPatch c _ env
          exact ⟨c.exports, hub, hhub⟩
        · split
          · exact ⟨_, c.hub, rfl⟩
          · rename_i exports se' _
            obtain ⟨hub, hhub⟩ := syncSlices_export_controller createPatch
              { c with exports := exports } se' env
            exact ⟨exports, hub, hhub⟩

end

/-! ## Imports -/

section

open ServiceImportController

variable {createPatch : CreatePatch EndpointSlice}
  {c c' : ServiceImportController} {key : NamespacedName} {env : ImportEnv} {r : HandleResult}

/-- The effect of a `Handle` on the slices of the import's namespace. -/
def ImportPass (c c' : ServiceImportController) (key : NamespacedName) (l : List EndpointSlice)
    (complete : Prop) : Prop :=
  ∃ (target : GoMap String EndpointSlice) (l' : List EndpointSlice), l'.Perm l ∧
    c'.slices = Function.update c.slices key.ns target ∧
    Synced (sliceLabels key) (l'.map fun s => forkEndpointSlice s key.ns) (c.slices key.ns) target ∧
    (complete → Completed (sliceLabels key) (l'.map fun s => forkEndpointSlice s key.ns)
      (c.slices key.ns) target)

theorem syncSlices_import_pass (hpatch : ReportsChanges createPatch)
    (hsrc : env.remove.srcListErr ≠ some .notFound)
    (hnodup : ((c.hubSlicesOf key).map EndpointSlice.name).Nodup) :
    ImportPass c (c.syncSlices createPatch key env).1 key (c.hubSlicesOf key) env.NoApiErrors := by
  have hperm : (srcEndpointSlices c.sourceEndpointSlicesLister c.operatorNamespace (sliceLabels key)
      env.remove.srcOrder).Perm (c.hubSlicesOf key) := env.remove.srcOrder.perm _
  have hnames : (((srcEndpointSlices c.sourceEndpointSlicesLister c.operatorNamespace
      (sliceLabels key) env.remove.srcOrder).map fun s => forkEndpointSlice s key.ns).map
      EndpointSlice.name).Nodup := by
    rw [List.map_map]
    exact (hperm.map EndpointSlice.name).nodup_iff.mpr hnodup
  have hkept : ∀ k, srcEndpointSliceMap (srcEndpointSlices c.sourceEndpointSlicesLister
      c.operatorNamespace (sliceLabels key) env.remove.srcOrder) "" false k = false ↔ _ := fun k =>
    (srcEndpointSliceMap_same _ k).trans
      (List.forall_mem_map (f := fun s => forkEndpointSlice s key.ns) (P := fun s => s.name ≠ k)).symm
  cases hr : RemoveNonexistentEndpointslice c.sourceEndpointSlicesLister "" c.operatorNamespace
      (sliceLabels key) (c.slices key.ns) (sliceLabels key) false env.remove with
  | mk target r =>
    have herror : ∀ e, r = .error e → (c.syncSlices createPatch key env).1.slices =
        Function.update c.slices key.ns target := by
      rintro e rfl
      simp only [syncSlices, hr]
    have hok : ∀ l, r = .ok l → (c.syncSlices createPatch key env).1.slices =
        Function.update c.slices key.ns (applySlices createPatch
          (l.map fun s => forkEndpointSlice s key.ns) env.applies target env.turns).slices := by
      rintro l rfl
      simp only [syncSlices, hr]
      split <;> rfl
    have hns : ∀ {m}, (c.syncSlices createPatch key env).1.slices =
        Function.update c.slices key.ns m → (c.syncSlices createPatch key env).1.slices key.ns = m := by
      intro m hm
      rw [hm, Function.update_self]
    refine ⟨(c.syncSlices createPatch key env).1.slices key.ns, _, hperm, ?_,
      Synced.of_remove hr hnames hkept (fun l hl => hns (hok l hl)) hsrc
        (fun e he => hns (herror e he)),
      fun hno => Completed.of_remove hr hnames hkept (fun l hl => hns (hok l hl)) hpatch hno.srcList
        hno.dstList hno.delete hno.applies⟩
    cases r with
    | error e => rw [herror e rfl, Function.update_self]
    | ok l => rw [hok l rfl, Function.update_self]

theorem ImportPass.imp {l : List EndpointSlice} {p q : Prop} (h : ImportPass c c' key l p)
    (hpq : q → p) : ImportPass c c' key l q := by
  obtain ⟨target, l', hperm, hslices, hsynced, hcompleted⟩ := h
  exact ⟨target, l', hperm, hslices, hsynced, fun hq => hcompleted (hpq hq)⟩

theorem ImportPass.of_eq (l : List EndpointSlice) (hslices : c'.slices = c.slices) (hr : r ≠ .done) :
    ImportPass c c' key l (r = .done ∧ env.NoApiErrors) := by
  refine ⟨c.slices key.ns, l, .refl _, ?_, Synced.refl _ _ _, fun hdone => absurd hdone.1 hr⟩
  rw [hslices, Function.update_eq_self]

/-- What a `Handle` does to the slices of a live import. -/
theorem Handle_import_pass {si : ServiceImport} (hpatch : ReportsChanges createPatch)
    (hsrc : env.remove.srcListErr ≠ some .notFound)
    (hnodup : ((c.hubSlicesOf key).map EndpointSlice.name).Nodup)
    (hsi : c.localSILister.lookup key = some si) (hlive : si.deletionTimestamp = false)
    (h : c.Handle createPatch key env = .ok (c', r)) :
    ImportPass c c' key (c.hubSlicesOf key) (r = .done ∧ env.NoApiErrors) := by
  have hretry : ∀ err, HandleResult.retrySecond err ≠ .done := by
    intro err heq
    cases heq
  cases hget : env.getErr with
  | some e =>
    simp only [Handle, hget] at h
    obtain ⟨rfl, rfl⟩ := Prod.mk.inj (Except.ok.inj h)
    exact ImportPass.of_eq _ rfl (by simp [HandleResult.done])
  | none =>
    have hcases := Handle_live_cases createPatch hget hsi hlive
    obtain ⟨ipam, imports, version, heq⟩ := initialised_controller c key si env
    rw [heq] at hcases
    rcases hcases with ⟨e, hhandle⟩ | hhandle
    · obtain ⟨rfl, rfl⟩ := Prod.mk.inj (Except.ok.inj (h.symm.trans hhandle))
      exact ImportPass.of_eq _ rfl (hretry _)
    · have hpass := syncSlices_import_pass (c := { c with
        IPAM := ipam, imports := imports, version := version }) hpatch hsrc hnodup
      rw [Except.ok.inj (hhandle.symm.trans h)] at hpass
      exact hpass.imp And.right

/-- A `Handle` leaves the controller's caches. -/
theorem Handle_import_controller (h : c.Handle createPatch key env = .ok (c', r)) :
    ∃ ipam imports version slices, c' = { c with
      IPAM := ipam, imports := imports, version := version, slices := slices } := by
  obtain ⟨c₁, slices, rfl, hc₁⟩ := Handle_cases h
  rcases hc₁ with rfl | ⟨_, ipam, si', _, _, _, _, rfl | rfl⟩ | ⟨si, ipam, _, _, _, _, _, rfl⟩
  · exact ⟨c₁.IPAM, c₁.imports, c₁.version, slices, rfl⟩
  · exact ⟨ipam, c.imports, c.version, slices, rfl⟩
  · obtain ⟨imports, version, heq⟩ := update_controller { c with IPAM := ipam } key si' env.updateErr
    rw [heq]
    exact ⟨ipam, imports, version, slices, rfl⟩
  · obtain ⟨imports, version, heq⟩ := update_controller { c with IPAM := ipam } key
      { si with finalizers := si.finalizers.filter (· ≠ Known.AppFinalizer) } env.updateErr
    rw [heq]
    exact ⟨ipam, imports, version, slices, rfl⟩

theorem recycleServiceImport_slices {si : ServiceImport} {err : Option Error}
    (h : c.recycleServiceImport key si env = .ok (c', err)) :
    c'.slices = c.slices ∨ c'.slices = (c.deleteSlices key).slices := by
  have hfinal : ∀ c₁ : ServiceImportController,
      (c₁.removeFinalizer key si env.updateErr).1.slices = c₁.slices := by
    intro c₁
    obtain ⟨imports, version, heq⟩ := update_controller c₁ key
      { si with finalizers := si.finalizers.filter (· ≠ Known.AppFinalizer) } env.updateErr
    rw [removeFinalizer_fst, heq]
  unfold recycleServiceImport at h
  split at h
  · obtain ⟨rfl, -⟩ := Prod.mk.inj (Except.ok.inj h)
    exact .inl rfl
  · obtain ⟨ip, -, h⟩ := Go.bind_eq_ok.mp h
    refine .inr ?_
    cases ip with
    | none =>
      exact (congrArg (·.1.slices) (Except.ok.inj h)).symm.trans (hfinal _)
    | some ip =>
      simp only at h
      split at h
      · obtain ⟨rfl, -⟩ := Prod.mk.inj (Except.ok.inj h)
        rfl
      · exact (congrArg (·.1.slices) (Except.ok.inj h)).symm.trans (hfinal _)

/-- A `Handle` of any import is a pass with copies of some of the hub's slices. -/
theorem Handle_import_any (hpatch : ReportsChanges createPatch)
    (hsrc : env.remove.srcListErr ≠ some .notFound)
    (hnodup : ((c.hubSlicesOf key).map EndpointSlice.name).Nodup)
    (h : c.Handle createPatch key env = .ok (c', r)) :
    ∃ l ⊆ c.hubSlicesOf key, ImportPass c c' key l False := by
  have hsame : c'.slices = c.slices → ∃ l ⊆ c.hubSlicesOf key, ImportPass c c' key l False := by
    intro hslices
    refine ⟨[], List.nil_subset _, c.slices key.ns, [], .refl _, ?_, Synced.refl _ _ _, False.elim⟩
    rw [hslices, Function.update_eq_self]
  cases hsi : c.localSILister.lookup key with
  | none =>
    unfold Handle at h
    rw [hsi] at h
    split at h
    · exact hsame (congrArg (·.1.slices) (Except.ok.inj h)).symm
    · exact hsame (congrArg (·.1.slices) (Except.ok.inj h)).symm
    · rename_i heq
      cases heq
  | some si =>
    cases hdel : si.deletionTimestamp with
    | false =>
      exact ⟨_, List.Subset.refl _,
        (Handle_import_pass hpatch hsrc hnodup hsi hdel h).imp False.elim⟩
    | true =>
      unfold Handle at h
      rw [hsi] at h
      split at h
      · exact hsame (congrArg (·.1.slices) (Except.ok.inj h)).symm
      · rename_i heq
        cases heq
      · rename_i heq
        obtain rfl := Option.some_inj.mp heq
        rw [hdel, if_pos rfl] at h
        obtain ⟨⟨c₂, err⟩, hrec, h⟩ := Go.bind_eq_ok.mp h
        obtain rfl : c₂ = c' := by
          cases err <;> exact (Prod.mk.inj (Except.ok.inj h)).1
        rcases recycleServiceImport_slices hrec with hslices | hslices
        · exact hsame hslices
        · exact ⟨[], List.nil_subset _, _, [], .refl _, hslices, Synced.deleteCollection _ _,
            False.elim⟩

end

end Fleetboard.Mcs

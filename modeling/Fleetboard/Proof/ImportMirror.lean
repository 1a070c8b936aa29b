import Fleetboard.Proof.ServiceImport
import Fleetboard.Proof.SliceSync

/-!
# The local copies of an imported service's slices

A `Handle` without errors makes the labelled slices of the import's namespace a
mirror of the hub's and leaves the others alone, exactly when no slice without the
labels has the name of a slice of the hub (`import_mirrored_iff`): what is removed
is chosen by labels, but what is written is chosen by name.
-/

namespace Fleetboard.Mcs

open ServiceImportController

/-- The hub's slices of the service. -/
def ServiceImportController.hubSlicesOf (c : ServiceImportController) (key : NamespacedName) :
    List EndpointSlice :=
  c.sourceEndpointSlicesLister.filter fun slice =>
    slice.ns = c.operatorNamespace ∧ matchesLabels (sliceLabels key) slice.labels

/-- The labelled slices mirror the hub's, and the others are as before. -/
structure ImportMirrored (c c' : ServiceImportController) (key : NamespacedName) : Prop where
  mirrors : Mirrors (sliceLabels key) (c'.slices key.ns) (c.hubSlicesOf key)
  frame : ∀ {k es}, (c.slices key.ns).lookup k = some es →
    matchesLabels (sliceLabels key) es.labels = false → (c'.slices key.ns).lookup k = some es

/-- No call to an API server fails. -/
structure ImportEnv.NoApiErrors (env : ImportEnv) : Prop where
  get : env.getErr = none
  update : env.updateErr = none
  srcList : env.remove.srcListErr = none
  dstList : env.remove.dstListErr = none
  delete : ∀ name, env.remove.deleteErr name = none
  applies : ∀ name, env.applies name ≠ [] ∧ ∀ a ∈ env.applies name, a = ⟨none, none, none⟩

section

variable {createPatch : CreatePatch EndpointSlice}
  {c c' : ServiceImportController} {key : NamespacedName} {si : ServiceImport} {env : ImportEnv}

theorem succeeds_noErrors (needResync : Option Bool) {attempts : List SliceApplyEnv}
    (hne : attempts ≠ []) (h : ∀ a ∈ attempts, a = ⟨none, none, none⟩) :
    Succeeds needResync attempts := by
  obtain ⟨a, attempts, rfl⟩ := List.exists_cons_of_ne_nil hne
  obtain rfl := h a List.mem_cons_self
  refine .inl ?_
  cases needResync with
  | none => rfl
  | some needed => cases needed <;> rfl

/-- The import's selector chooses the copies of the hub's slices. -/
theorem matchesLabels_forkEndpointSlice {slice : EndpointSlice} (ns : String)
    (h : matchesLabels (sliceLabels key) slice.labels = true) :
    matchesLabels (sliceLabels key) (forkEndpointSlice slice ns).labels = true := by
  simp only [matchesLabels, sliceLabels, forkEndpointSlice, List.all_cons, List.all_nil,
    Bool.and_true, Bool.and_eq_true, decide_eq_true_eq, GoMap.lookup_erase_eq] at h ⊢
  rwa [if_neg (by decide), if_neg (by decide)]

/-- A `Handle` of a live import that is done ends in `syncSlices`, with the slices as
they were. -/
theorem Handle_live_done (hsi : c.localSILister.lookup key = some si)
    (hlive : si.deletionTimestamp = false) (hget : env.getErr = none)
    (h : c.Handle createPatch key env = .ok (c', .done)) :
    ∃ imports ipam version, { c with IPAM := ipam, imports := imports, version := version
      }.syncSlices createPatch key env = (c', .done) := by
  have hcases := Handle_live_cases createPatch hget hsi hlive
  obtain ⟨ipam, imports, version, heq⟩ := initialised_controller c key si env
  rw [heq] at hcases
  rcases hcases with ⟨e, hhandle⟩ | hhandle
  · cases (Prod.mk.inj (Except.ok.inj (hhandle.symm.trans h))).2
  · exact ⟨imports, ipam, version, Except.ok.inj (hhandle.symm.trans h)⟩

/-- What `syncSlices` leaves in the import's namespace, for the hub's slices in the
order in which the lister has them. -/
theorem syncSlices_import_done (hsrc : env.remove.srcListErr = none)
    (h : c.syncSlices createPatch key env = (c', .done)) :
    ∃ l target, l.Perm (c.hubSlicesOf key) ∧
      (∀ k, target.lookup k = if env.remove.dstListErr = none ∧
        Labelled (sliceLabels key) (c.slices key.ns) k ∧
        srcEndpointSliceMap l "" false k = false then none else (c.slices key.ns).lookup k) ∧
      c'.slices key.ns = (applySlices createPatch
        (l.map fun slice => forkEndpointSlice slice key.ns) env.applies target env.turns).slices := by
  unfold syncSlices at h
  split at h
  · cases (Prod.mk.inj h).2
  · rename_i target l heq
    obtain ⟨hl, hremoved⟩ := RemoveNonexistentEndpointslice_ok hsrc heq
    refine ⟨l, target, hl ▸ env.remove.srcOrder.perm _, hremoved, ?_⟩
    simp only at h
    split at h
    · rw [← (Prod.mk.inj h).1]
      exact Function.update_self key.ns _ c.slices
    · cases (Prod.mk.inj h).2

theorem srcEndpointSliceMap_same (l : List EndpointSlice) (k : String) :
    srcEndpointSliceMap l "" false k = false ↔ ∀ slice ∈ l, slice.name ≠ k := by
  simp only [srcEndpointSliceMap, Bool.false_eq_true, if_false, List.any_eq_false, decide_eq_true_eq]
  exact forall₂_congr fun slice _ => ⟨Ne.symm, Ne.symm⟩

end

/-- The copy of a slice of `shop/web` of the cluster `c1` in the hub. -/
def hubWebSlice : EndpointSlice where
  ns := "fleetboard"
  name := "c1-shop-web-1"
  labels := (∅ : GoMap String String).insert Known.LabelServiceName "web"
    |>.insert Known.LabelServiceNameSpace "shop"
  addressType := .ipv4
  endpoints := [⟨["10.1.0.5"], some true, none, none, none, none, []⟩]
  ports := []

def webImport : ServiceImport :=
  ⟨.clusterSetIP, ["10.9.8.1"], [Known.AppFinalizer], false, 0⟩

/-- A cluster that imports `shop/web`, with these slices in the namespace. -/
def importController (slices : GoMap String EndpointSlice) : ServiceImportController where
  operatorNamespace := "fleetboard"
  IPAM := ⟨⟨0, 8, Nat.le_add_right 8 24⟩, ∅⟩
  localSILister := (∅ : GoMap NamespacedName ServiceImport).insert ⟨"shop", "web"⟩ webImport
  sourceEndpointSlicesLister := [hubWebSlice]
  imports := (∅ : GoMap NamespacedName ServiceImport).insert ⟨"shop", "web"⟩ webImport
  version := 1
  slices _ := slices

def noImportErrors : ImportEnv where
  getErr := none
  acquire := .error "no free IP"
  updateErr := none
  deleteCollectionErr := none
  remove := ⟨none, .stored, none, fun _ => none⟩
  turns := []
  applies _ := [⟨none, none, none⟩]

theorem noApiErrors_noImportErrors : noImportErrors.NoApiErrors :=
  ⟨rfl, rfl, rfl, rfl, fun _ => rfl, fun _ => ⟨List.cons_ne_nil _ _, by simp [noImportErrors]⟩⟩

/-- The controller after the import is handled. -/
def importHandled (slices : GoMap String EndpointSlice) : ServiceImportController :=
  (((importController slices).Handle replaceAll ⟨"shop", "web"⟩ noImportErrors).getD
    (importController slices, .done)).1

/-- A `Handle` of a live import without errors mirrors the hub's slices and leaves
the others alone exactly when no slice of the namespace without the import's labels
has the name of a slice of the hub. -/
theorem import_mirrored_iff {createPatch : CreatePatch EndpointSlice}
    {c c' : ServiceImportController} {key : NamespacedName} {si : ServiceImport} {env : ImportEnv}
    (hpatch : ReportsChanges createPatch)
    (hsi : c.localSILister.lookup key = some si) (hlive : si.deletionTimestamp = false)
    (henv : env.NoApiErrors) (hnodup : ((c.hubSlicesOf key).map EndpointSlice.name).Nodup)
    (hdone : c.Handle createPatch key env = .ok (c', .done)) :
    ImportMirrored c c' key ↔ ∀ slice ∈ c.hubSlicesOf key, ∀ es,
      (c.slices key.ns).lookup slice.name = some es →
      matchesLabels (sliceLabels key) es.labels = true := by
  obtain ⟨imports, ipam, version, hsync⟩ := Handle_live_done hsi hlive henv.get hdone
  obtain ⟨l, target, hperm, hremoved, hslices⟩ := syncSlices_import_done henv.srcList hsync
  replace hperm : l.Perm (c.hubSlicesOf key) := hperm
  have hmem : ∀ slice, slice ∈ c.hubSlicesOf key ↔ slice ∈ l := fun slice => hperm.symm.mem_iff
  have hlabels : ∀ slice ∈ l, matchesLabels (sliceLabels key) slice.labels = true := fun slice hs =>
    (of_decide_eq_true (List.mem_filter.mp ((hmem slice).mpr hs)).2).2
  have hnames : ((l.map fun slice => forkEndpointSlice slice key.ns).map
      EndpointSlice.name).Nodup := by
    rw [List.map_map]
    exact (hperm.map EndpointSlice.name).nodup_iff.mpr hnodup
  have hremoved' : ∀ k, target.lookup k = if env.remove.dstListErr = none ∧
      Labelled (sliceLabels key) (c.slices key.ns) k ∧
      (∀ s ∈ l.map fun slice => forkEndpointSlice slice key.ns, s.name ≠ k) then none
      else (c.slices key.ns).lookup k := by
    intro k
    rw [hremoved k]
    refine if_congr ?_ rfl rfl
    rw [srcEndpointSliceMap_same, List.forall_mem_map]
    rfl
  have hiff := mirrors_applySlices_iff hpatch hnames (List.forall_mem_map.mpr fun slice hs =>
    matchesLabels_forkEndpointSlice key.ns (hlabels slice hs)) env.applies hremoved' env.turns
  rw [← hslices] at hiff
  have hmirror : Mirrors (sliceLabels key) (c'.slices key.ns) (c.hubSlicesOf key) ↔
      ∀ slice ∈ c.hubSlicesOf key, ∀ es, (c.slices key.ns).lookup slice.name = some es →
        matchesLabels (sliceLabels key) es.labels = true := by
    have hcopies : Mirrors (sliceLabels key) (c'.slices key.ns) (c.hubSlicesOf key) ↔
        Mirrors (sliceLabels key) (c'.slices key.ns)
          (l.map fun slice => forkEndpointSlice slice key.ns) := by
      simp only [Mirrors, List.mem_map, exists_exists_and_eq_and, hmem]
      rfl
    rw [hcopies, hiff, List.forall_mem_map]
    refine ⟨fun h slice hs => (h.2 slice ((hmem slice).mp hs)).1, fun h => ⟨.inl henv.dstList,
      fun slice hs => ⟨h slice ((hmem slice).mpr hs), .inl ?_⟩⟩⟩
    exact succeeds_noErrors _ (henv.applies _).1 (henv.applies _).2
  refine ⟨fun h => hmirror.mp h.mirrors, fun h => ⟨hmirror.mpr h, fun {k es} hes hno => ?_⟩⟩
  -- A slice without the labels is not removed, and no copy has its name.
  have hk : ∀ s ∈ l.map fun slice => forkEndpointSlice slice key.ns, k ≠ s.name := by
    refine List.forall_mem_map.mpr fun slice hs hname => ?_
    have hmatch := h slice ((hmem slice).mpr hs) es (hname ▸ hes)
    rw [hno] at hmatch
    cases hmatch
  rw [hslices, lookup_applySlices createPatch hk, hremoved k, if_neg, hes]
  rintro ⟨-, ⟨es', hes', hmatch⟩, -⟩
  rw [Option.some_inj.mp (hes'.symm.trans hes), hno] at hmatch
  cases hmatch

/-- A slice of the namespace that is not the import's, under the name of the hub's
slice. -/
def ownSlice : EndpointSlice := ⟨"shop", "c1-shop-web-1", ∅, .ipv4, [], []⟩

/-- The namespace has a copy of a slice that is gone from the hub, an old copy of one that is not,
and a slice that is not the import's. -/
def staleNamespace : GoMap String EndpointSlice :=
  (((∅ : GoMap String EndpointSlice).insert "c1-shop-web-0"
      { hubWebSlice with ns := "shop", name := "c1-shop-web-0" }).insert "c1-shop-web-1"
      { hubWebSlice with ns := "shop", endpoints := [] }).insert "web-1"
      { ownSlice with name := "web-1" }

/-- One copy is removed from the namespace and another one updated; the slice that is not the
import's stays. -/
theorem import_mirrored_replaced :
    ImportMirrored (importController staleNamespace) (importHandled staleNamespace) ⟨"shop", "web"⟩ ∧
      (((importHandled staleNamespace).slices "shop").lookup "c1-shop-web-0").isNone ∧
      (((importHandled staleNamespace).slices "shop").lookup "web-1").isSome := by
  have hdone : Prod.snd <$> (importController staleNamespace).Handle replaceAll ⟨"shop", "web"⟩
      noImportErrors = .ok .done := by decide +kernel
  refine ⟨(import_mirrored_iff reportsChanges_replaceAll rfl rfl noApiErrors_noImportErrors
    (by decide +kernel) (Go.eq_ok_getD_of_snd hdone _)).mpr ?_, by decide +kernel, by decide +kernel⟩
  refine List.forall_mem_singleton.mpr fun es hes => ?_
  have hlabels : (staleNamespace.lookup "c1-shop-web-1").map (fun es =>
      matchesLabels (ServiceImportController.sliceLabels ⟨"shop", "web"⟩) es.labels) = some true := by
    decide +kernel
  rw [show staleNamespace.lookup "c1-shop-web-1" = some es from hes] at hlabels
  exact Option.some_inj.mp hlabels

theorem import_overwrites_slice :
    let own := (∅ : GoMap String EndpointSlice).insert "c1-shop-web-1" ownSlice
    (importController own).Handle replaceAll ⟨"shop", "web"⟩ noImportErrors =
        .ok (importHandled own, .done) ∧
      matchesLabels (ServiceImportController.sliceLabels ⟨"shop", "web"⟩) ownSlice.labels = false ∧
      ((importHandled own).slices "shop").lookup "c1-shop-web-1" ≠ some ownSlice ∧
      ¬ ImportMirrored (importController own) (importHandled own) ⟨"shop", "web"⟩ := by
  intro own
  have hdone : Prod.snd <$> (importController own).Handle replaceAll ⟨"shop", "web"⟩ noImportErrors =
      .ok .done := by decide +kernel
  have hlabels : matchesLabels (ServiceImportController.sliceLabels ⟨"shop", "web"⟩)
      ownSlice.labels = false := by decide +kernel
  have hends : (((importHandled own).slices "shop").lookup "c1-shop-web-1").map
      (fun es => es.endpoints.length) = some 1 := by decide +kernel
  have hchanged : ((importHandled own).slices "shop").lookup "c1-shop-web-1" ≠ some ownSlice := by
    intro h
    rw [h] at hends
    cases hends
  refine ⟨Go.eq_ok_getD_of_snd hdone _, hlabels, hchanged, fun h => hchanged (h.frame ?_ hlabels)⟩
  exact (GoMap.lookup_insert_eq _ _ _ _).trans (if_pos rfl)

end Fleetboard.Mcs

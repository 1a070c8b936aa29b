import Fleetboard.Proof.ServiceExport

/-!
# The slices of one export in the hub

A `Handle` of an export that returns without an error has not always made the hub
a mirror of the local slices: it does nothing when the service is gone, it drops
the error of listing the hub's slices, it keeps the labels of a slice that has the
name of a copy, and a failed apply may go unnoticed, because the goroutines share
the variable that they check.

* `Handle_done_cases`: what a `Handle` that is done has done;
* `export_synced_iff`: when the export is in sync after it.
-/

namespace Fleetboard.Mcs

open ServiceExportController

/-- The label by which an export finds its slices in the hub. -/
def exportSelector (clusterID : String) (key : NamespacedName) : List (String × String) :=
  [(Known.DiscoveryServiceName, DerivedName clusterID key.ns key.name)]

/-- The copies of the local slices of an export. -/
def ServiceExportController.copiesOf (c : ServiceExportController) (key : NamespacedName)
    (se : ServiceExport) : List EndpointSlice :=
  (c.slicesOf key).map fun slice =>
    constructEndpointSlice slice { se with ns := key.ns, name := key.name } c.operatorNamespace
      c.localClusterID

/-- The hub mirrors the local slices of the export; for an export that is being
deleted, the hub has no slice of it and the finalizer is gone. -/
def ExportSynced (c c' : ServiceExportController) (key : NamespacedName) (se : ServiceExport) : Prop :=
  if se.deletionTimestamp then
    (∀ k, ¬ Labelled (exportSelector c.localClusterID key) c'.hub k) ∧
      ∀ st, c'.exports.lookup key = some st → Known.AppFinalizer ∉ st.finalizers
  else Mirrors (exportSelector c.localClusterID key) c'.hub (c.copiesOf key se)

section

variable {createPatch : CreatePatch EndpointSlice}
  {c : ServiceExportController} {key : NamespacedName} {se : ServiceExport} {env : ExportEnv}

/-- The copies can be applied so that the hub mirrors them. -/
def CopiesApply (createPatch : CreatePatch EndpointSlice)
    (c : ServiceExportController) (key : NamespacedName) (se : ServiceExport) (env : ExportEnv) :
    Prop :=
  (env.remove.dstListErr = none ∨ ∀ k, Labelled (exportSelector c.localClusterID key) c.hub k →
    ∃ s ∈ c.copiesOf key se, s.name = k) ∧
  ∀ s ∈ c.copiesOf key se,
    (∀ es, c.hub.lookup s.name = some es →
      matchesLabels (exportSelector c.localClusterID key) es.labels = true) ∧
    (Succeeds (needResyncOf createPatch c.hub s) (env.applies s.name) ∨
      ∃ es, c.hub.lookup s.name = some es ∧ content es = content s)

theorem matchesLabels_constructEndpointSlice (slice : EndpointSlice) (se : ServiceExport)
    (ns clusterID : String) :
    matchesLabels (exportSelector clusterID ⟨se.ns, se.name⟩)
      (constructEndpointSlice slice se ns clusterID).labels = true := by
  simp only [matchesLabels, exportSelector, constructEndpointSlice, List.all_cons, List.all_nil,
    Bool.and_true, decide_eq_true_eq, GoMap.lookup_insert_eq]
  rw [if_neg (by decide), if_true]

theorem hubName_inj {clusterID ns x y : String} (h : hubName clusterID ns x = hubName clusterID ns y) :
    x = y := by
  have hlist := congrArg String.toList h
  simp only [hubName, String.toList_append, List.append_cancel_left_eq] at hlist
  exact String.toList_inj.mp hlist

/-- The names of the copies decide which slices of the hub are kept. -/
theorem srcEndpointSliceMap_eq_false {l : List EndpointSlice} {clusterID ns : String}
    (hns : ∀ slice ∈ l, slice.ns = ns) (k : String) :
    srcEndpointSliceMap l clusterID true k = false ↔
      ∀ slice ∈ l, hubName clusterID ns slice.name ≠ k := by
  simp only [srcEndpointSliceMap, if_true, List.any_eq_false, decide_eq_true_eq]
  refine forall₂_congr fun slice hs => ?_
  rw [hns slice hs]
  exact ⟨Ne.symm, Ne.symm⟩

/-- What the end of `Handle` leaves in the hub, for the slices in the order in which
the lister has them. -/
theorem syncSlices_done (hsrc : env.remove.srcListErr = none)
    (hdone : (c.syncSlices createPatch se env).2 = .done) :
    ∃ l hub, l.Perm (c.slicesOf ⟨se.ns, se.name⟩) ∧
      (∀ k, hub.lookup k = if env.remove.dstListErr = none ∧
        Labelled (exportSelector c.localClusterID ⟨se.ns, se.name⟩) c.hub k ∧
        srcEndpointSliceMap l c.localClusterID true k = false then none else c.hub.lookup k) ∧
      (c.syncSlices createPatch se env).1.hub = (applySlices createPatch
        (l.map fun slice => constructEndpointSlice slice se c.operatorNamespace c.localClusterID)
        env.applies hub env.turns).slices := by
  unfold syncSlices at hdone ⊢
  split at hdone
  · cases hdone
  · rename_i hub l heq
    obtain ⟨hl, hremoved⟩ := RemoveNonexistentEndpointslice_ok hsrc heq
    refine ⟨l, hub, hl ▸ env.remove.srcOrder.perm _, hremoved, ?_⟩
    simp only
    split <;> rfl

theorem syncSlices_mirrors_iff (hpatch : ReportsChanges createPatch)
    (hsrc : env.remove.srcListErr = none)
    (hnodup : ((c.slicesOf ⟨se.ns, se.name⟩).map EndpointSlice.name).Nodup)
    (hdone : (c.syncSlices createPatch se env).2 = .done) :
    Mirrors (exportSelector c.localClusterID ⟨se.ns, se.name⟩) (c.syncSlices createPatch se env).1.hub
        (c.copiesOf ⟨se.ns, se.name⟩ se) ↔
      CopiesApply createPatch c ⟨se.ns, se.name⟩ se env := by
  obtain ⟨l, hub, hperm, hremoved, hhub⟩ := syncSlices_done hsrc hdone
  have hns : ∀ slice ∈ l, slice.ns = se.ns := fun slice hs =>
    (of_decide_eq_true (List.mem_filter.mp (hperm.mem_iff.mp hs)).2).1
  have hmem : ∀ s, s ∈ c.copiesOf ⟨se.ns, se.name⟩ se ↔ s ∈ l.map fun slice =>
      constructEndpointSlice slice se c.operatorNamespace c.localClusterID := fun s =>
    (hperm.map _).symm.mem_iff
  have hnames : ((l.map fun slice => constructEndpointSlice slice se c.operatorNamespace
      c.localClusterID).map EndpointSlice.name).Nodup := by
    have hinj : Function.Injective (hubName c.localClusterID se.ns) := fun _ _ h => hubName_inj h
    have := (((hperm.map EndpointSlice.name).nodup_iff.mpr hnodup).map hinj)
    rwa [List.map_map] at this ⊢
  simp only [Mirrors, CopiesApply, hmem, hhub]
  refine mirrors_applySlices_iff hpatch hnames (fun s hs => ?_) env.applies (fun k => ?_) env.turns
  · obtain ⟨slice, -, rfl⟩ := List.mem_map.mp hs
    exact matchesLabels_constructEndpointSlice slice se c.operatorNamespace c.localClusterID
  · rw [hremoved k]
    refine if_congr ?_ rfl rfl
    rw [srcEndpointSliceMap_eq_false hns, List.forall_mem_map]
    rfl

/-- The object that `Handle` works on: the lister's, marked as headless or not. -/
def ServiceExport.marked (se : ServiceExport) (key : NamespacedName) (clusterIP : String) :
    ServiceExport :=
  { se with
    ns := key.ns
    name := key.name
    labels := se.labels.insert Known.IsHeadlessKey (if clusterIP = "None" then "true" else "false") }

/-- Whether the export is in sync after a `Handle`, in terms of what is there
before and of the outcomes of the calls. Without the service, nothing is done. -/
def ExportSyncs (createPatch : CreatePatch EndpointSlice)
    (c : ServiceExportController) (key : NamespacedName) (se : ServiceExport) (env : ExportEnv) :
    Prop :=
  match c.serviceLister.lookup key with
  | none => ExportSynced c c key se
  | some clusterIP => se.deletionTimestamp = false →
    CopiesApply createPatch c key (se.marked key clusterIP) env

/-- Names and contents of the copies do not depend on the export's labels. -/
theorem mirrors_copiesOf (selector : List (String × String)) (hub : GoMap String EndpointSlice)
    (se se' : ServiceExport) :
    Mirrors selector hub (c.copiesOf key se) ↔ Mirrors selector hub (c.copiesOf key se') := by
  have hmem : ∀ (se : ServiceExport) (k : String)
      (x : AddressType × List SliceEndpoint × List EndpointPort),
      (∃ s ∈ c.copiesOf key se, s.name = k ∧ content s = x) ↔
        ∃ slice ∈ c.slicesOf key, hubName c.localClusterID key.ns slice.name = k ∧
          content slice = x := by
    intro se k x
    simp only [copiesOf, List.mem_map, exists_exists_and_eq_and]
    rfl
  simp only [Mirrors, hmem]

theorem updateExport_ok {exports exports' : GoMap NamespacedName ServiceExport}
    {se se' : ServiceExport} {err : Option Error}
    (h : updateExport exports se err = (exports', .ok se')) :
    (∃ d, se' = { se with deletionTimestamp := d }) ∧
      ∀ st, exports'.lookup ⟨se.ns, se.name⟩ = some st → st.finalizers = se.finalizers := by
  unfold updateExport at h
  split at h
  · cases h
  · cases h
  · rename_i stored hstored
    simp only at h
    split at h
    · obtain ⟨rfl, hse⟩ := Prod.mk.inj h
      refine ⟨⟨_, (Except.ok.inj hse).symm⟩, fun st hst => ?_⟩
      rw [GoMap.lookup_erase_eq, if_pos rfl] at hst
      cases hst
    · obtain ⟨rfl, hse⟩ := Prod.mk.inj h
      refine ⟨⟨_, (Except.ok.inj hse).symm⟩, fun st hst => ?_⟩
      rw [GoMap.lookup_insert_eq, if_pos rfl] at hst
      rw [← Option.some_inj.mp hst]

/-- What a `Handle` that is done has done with an export in the lister. -/
theorem Handle_done_cases (hse : c.serviceExportLister.lookup key = some se)
    (hdone : (c.Handle createPatch key env).2 = .done) :
    (c.serviceLister.lookup key = none ∧ (c.Handle createPatch key env).1 = c) ∨
      ∃ clusterIP, c.serviceLister.lookup key = some clusterIP ∧
        (se.deletionTimestamp = true ∧
            (∀ k, ¬ Labelled (exportSelector c.localClusterID key)
              (c.Handle createPatch key env).1.hub k) ∧
            (∀ st, (c.Handle createPatch key env).1.exports.lookup key = some st →
              Known.AppFinalizer ∉ st.finalizers) ∨
          se.deletionTimestamp = false ∧ ∃ exports finalizers deleted,
            c.Handle createPatch key env = syncSlices createPatch { c with exports := exports }
              { se.marked key clusterIP with
                finalizers := finalizers
                deletionTimestamp := deleted } env) := by
  unfold Handle at hdone ⊢
  rw [hse] at hdone ⊢
  split at hdone
  · cases hdone
  · rename_i heq
    cases heq
  · rename_i hget heq
    obtain rfl := Option.some_inj.mp heq
    split at hdone
    · cases hdone
    · rename_i hservice
      exact .inl ⟨hservice, rfl⟩
    · rename_i clusterIP hserviceErr hservice
      refine .inr ⟨clusterIP, hservice, ?_⟩
      by_cases hterm : se.deletionTimestamp = true
      · simp only [if_pos hterm] at hdone ⊢
        split at hdone
        · cases hdone
        · split at hdone
          · cases hdone
          · rename_i exports se' hupdate
            refine .inl ⟨hterm, fun k => ?_, fun st hst => ?_⟩
            · rintro ⟨es, hes, hmatch⟩
              rw [GoMap.lookup_foldl_erase] at hes
              split at hes
              · cases hes
              · rename_i hnot
                exact hnot (mem_matching.mpr ⟨es, hes, hmatch⟩)
            · rw [(updateExport_ok hupdate).2 st hst]
              simp
      · simp only [if_neg hterm] at hdone ⊢
        refine .inr ⟨Bool.eq_false_iff.mpr hterm, ?_⟩
        by_cases hfin : Known.AppFinalizer ∈ se.finalizers
        · simp only [if_pos hfin]
          exact ⟨c.exports, se.finalizers, se.deletionTimestamp, rfl⟩
        · simp only [if_neg hfin] at hdone ⊢
          split at hdone
          · cases hdone
          · rename_i exports se' hupdate
            obtain ⟨⟨deleted, rfl⟩, -⟩ := updateExport_ok hupdate
            exact ⟨exports, se.finalizers ++ [Known.AppFinalizer], deleted, rfl⟩

end

def webSlice (name : String) : EndpointSlice where
  ns := "shop"
  name := name
  labels := (∅ : GoMap String String).insert Known.DiscoveryServiceName "web"
    |>.insert Known.DiscoveryManagedBy Known.LabelValueManagedBy
  addressType := .ipv4
  endpoints := [⟨["10.1.0.5"], some true, none, none, none, none, []⟩]
  ports := []

/-- A cluster that exports `shop/web`, with these cluster IPs of services, local
slices and slices in the hub. -/
def webController (services : GoMap NamespacedName String) (slices : List EndpointSlice)
    (hub : GoMap String EndpointSlice) : ServiceExportController where
  localClusterID := "c1"
  operatorNamespace := "fleetboard"
  serviceExportLister := (∅ : GoMap NamespacedName ServiceExport).insert ⟨"shop", "web"⟩
    (webExport "shop" false)
  serviceLister := services
  endpointSlicesLister := slices
  exports := (∅ : GoMap NamespacedName ServiceExport).insert ⟨"shop", "web"⟩ (webExport "shop" false)
  hub := hub

def webService : GoMap NamespacedName String :=
  (∅ : GoMap NamespacedName String).insert ⟨"shop", "web"⟩ "10.96.0.7"

/-- A `Handle` that is done with an export in the lister leaves it in sync exactly
when the service exists, or there was nothing to do, and the copies can be
applied. -/
theorem export_synced_iff {createPatch : CreatePatch EndpointSlice}
    {c : ServiceExportController} {key : NamespacedName} {se : ServiceExport} {env : ExportEnv}
    (hpatch : ReportsChanges createPatch)
    (hse : c.serviceExportLister.lookup key = some se) (hsrc : env.remove.srcListErr = none)
    (hnodup : ((c.slicesOf key).map EndpointSlice.name).Nodup)
    (hdone : (c.Handle createPatch key env).2 = .done) :
    ExportSynced c (c.Handle createPatch key env).1 key se ↔ ExportSyncs createPatch c key se env := by
  unfold ExportSyncs
  rcases Handle_done_cases hse hdone with ⟨hservice, hsame⟩ | ⟨clusterIP, hservice, hcases⟩
  · rw [hservice, hsame]
  · rw [hservice]
    rcases hcases with ⟨hterm, hhub, hexports⟩ | ⟨hlive, exports, finalizers, deleted, heq⟩
    · rw [ExportSynced, if_pos hterm]
      exact ⟨fun _ hlive => absurd (hterm.symm.trans hlive) (by decide), fun _ => ⟨hhub, hexports⟩⟩
    · rw [heq] at hdone
      rw [heq, ExportSynced, if_neg (by rw [hlive]; decide),
        mirrors_copiesOf _ _ se (se.marked key clusterIP)]
      refine (syncSlices_mirrors_iff hpatch hsrc hnodup hdone).trans ⟨fun h _ => h, fun h => h hlive⟩

/-- A copy without endpoints. -/
def oldCopy (name : String) : EndpointSlice :=
  { constructEndpointSlice (webSlice name) (webExport "shop" false) "fleetboard" "c1" with
    endpoints := [] }

/-- The hub has a copy of a slice that is gone, an old copy of one that is not, and a copy of
another cluster. -/
def staleHub : GoMap String EndpointSlice :=
  (((∅ : GoMap String EndpointSlice).insert "c1-shop-web-0" (oldCopy "web-0")).insert
    "c1-shop-web-1" (oldCopy "web-1")).insert "c2-shop-web-1"
      (constructEndpointSlice (webSlice "web-1") (webExport "shop" false) "fleetboard" "c2")

/-- The first update of a copy ends in a conflict. -/
def oneConflict : ExportEnv :=
  { noExportErrors with applies := fun _ => [⟨none, none, some .conflict⟩, ⟨none, none, none⟩] }

/-- One copy is removed from the hub, and another one updated, at the second attempt. -/
theorem export_synced_replaced :
    let c := webController webService [webSlice "web-1"] staleHub
    ExportSynced c (c.Handle replaceAll ⟨"shop", "web"⟩ oneConflict).1 ⟨"shop", "web"⟩
        (webExport "shop" false) ∧
      ((c.Handle replaceAll ⟨"shop", "web"⟩ oneConflict).1.hub.lookup "c1-shop-web-0").isNone := by
  intro c
  refine ⟨(export_synced_iff reportsChanges_replaceAll rfl rfl (by decide +kernel)
    (by decide +kernel)).mpr fun _ => ⟨.inl rfl, ?_⟩, by decide +kernel⟩
  refine List.forall_mem_singleton.mpr ⟨fun es hes => ?_, .inl (.inr ⟨by decide +kernel, .inl ?_⟩)⟩
  · have hlabels : (c.hub.lookup "c1-shop-web-1").map (fun es =>
        matchesLabels (exportSelector c.localClusterID ⟨"shop", "web"⟩) es.labels) = some true := by
      decide +kernel
    rw [show c.hub.lookup "c1-shop-web-1" = some es from hes] at hlabels
    exact Option.some_inj.mp hlabels
  · decide +kernel

/-- The service and its slices are gone, and `Handle` is done, but the hub has the
copy of a slice still. -/
theorem export_of_deleted_service :
    let copy := constructEndpointSlice (webSlice "web-1") (webExport "shop" false) "fleetboard" "c1"
    let c := webController ∅ [] ((∅ : GoMap String EndpointSlice).insert "c1-shop-web-1" copy)
    c.serviceExportLister.lookup ⟨"shop", "web"⟩ = some (webExport "shop" false) ∧
      c.slicesOf ⟨"shop", "web"⟩ = [] ∧
      (c.Handle replaceAll ⟨"shop", "web"⟩ noExportErrors).2 = .done ∧
      ¬ ExportSynced c (c.Handle replaceAll ⟨"shop", "web"⟩ noExportErrors).1 ⟨"shop", "web"⟩
        (webExport "shop" false) := by
  intro copy c
  have hsame : (c.Handle replaceAll ⟨"shop", "web"⟩ noExportErrors).1 = c := rfl
  have hcopy : c.hub.lookup "c1-shop-web-1" = some copy :=
    (GoMap.lookup_insert_eq _ _ _ _).trans (if_pos rfl)
  have hmatch : matchesLabels (exportSelector c.localClusterID ⟨"shop", "web"⟩) copy.labels = true :=
    matchesLabels_constructEndpointSlice (webSlice "web-1") (webExport "shop" false) "fleetboard" "c1"
  refine ⟨rfl, rfl, rfl, fun h => ?_⟩
  rw [hsame, ExportSynced, if_neg (by decide)] at h
  obtain ⟨s, hs, -⟩ := (h "c1-shop-web-1" (content copy)).mp ⟨copy, hcopy, hmatch, rfl⟩
  cases hs

-- The second goroutine stores its `nil` before the first one checks the error of its apply.
example :
    let c := webController webService [webSlice "web-1", webSlice "web-2"] ∅
    let env := { noExportErrors with
      turns := [0, 1]
      applies := fun name =>
        if name = "c1-shop-web-1" then [⟨some (.other "timeout"), none, none⟩]
        else [⟨none, none, none⟩] }
    (c.Handle replaceAll ⟨"shop", "web"⟩ env).2 = .done ∧
      ((c.Handle replaceAll ⟨"shop", "web"⟩ env).1.hub.lookup "c1-shop-web-1").isNone := by
  decide +kernel

end Fleetboard.Mcs

import Fleetboard.Framework.Runs
import Fleetboard.Model.Fleet
import Fleetboard.Proof.SlicePass

/-!
# Where the slices of a fleet come from

In a fleet whose clusters, namespaces and services have names and labels in the hub that can
be told apart, every slice of the hub and every imported slice is a copy of a slice that the
cluster in its label has had, and no copy is exported again.

* `Layout`: what the names of the fleet are, and that they can be told apart;
* `Tidy`: the invariant; `Tidy.step`: every step keeps it;
* `imported_slice_origin`: where an imported slice comes from, in every run.
-/

namespace Fleetboard.Mcs

open ServiceImportController

variable {ι : Type*}

/-! ## Names -/

/-- The clusters' names, the services that each may export, and the service of each slice that
one of them has at any time. -/
structure Layout (ι : Type*) where
  clusterID : ι → String
  shared : String
  exports : ι → Set NamespacedName
  /-- The service of the slice of that namespace and name. -/
  serviceOf : ι → NamespacedName → String
  clusterID_inj : Function.Injective clusterID
  distinguished : ∀ {i i' key key'}, key ∈ exports i → key' ∈ exports i' →
    Distinguished ⟨clusterID i, key.ns, key.name⟩ ⟨clusterID i', key'.ns, key'.name⟩
  hash_inj : ∀ {i i' key key'}, key ∈ exports i → key' ∈ exports i' →
    hashName key.name = hashName key'.name → key.name = key'.name

namespace Layout

variable (L : Layout ι)

/-- The service of a slice. -/
def service (i : ι) (slot : NamespacedName) : NamespacedName := ⟨slot.ns, L.serviceOf i slot⟩

/-- The slices that may be exported. -/
def slots (i : ι) : Set NamespacedName :=
  { slot | IsDNS1123Subdomain slot.name ∧ L.service i slot ∈ L.exports i }

/-- The name of a slice's copy. -/
def copyName (i : ι) (slot : NamespacedName) : String := hubName (L.clusterID i) slot.ns slot.name

variable {L} {i i' : ι} {slot slot' key key' : NamespacedName}

theorem copyName_inj (h : slot ∈ L.slots i) (h' : slot' ∈ L.slots i')
    (heq : L.copyName i slot = L.copyName i' slot') : i = i' ∧ slot = slot' := by
  have hdist := L.distinguished h.2 h'.2
  have hsame : L.clusterID i = L.clusterID i' ∧ slot.ns = slot'.ns ∧ slot.name = slot'.name := by
    by_contra hne
    refine hdist.hubName_ne h.1 h'.1 (fun hs hname => hne ⟨hs.1, hs.2, hname⟩) heq
  refine ⟨L.clusterID_inj hsame.1, ?_⟩
  obtain ⟨ns, name⟩ := slot
  obtain ⟨ns', name'⟩ := slot'
  rw [NamespacedName.mk.injEq]
  exact hsame.2

end Layout

/-! ## Slices -/

/-- What the slices of the clusters have had as content. -/
abbrev Contents (ι : Type*) :=
  ι → NamespacedName → AddressType × List SliceEndpoint × List EndpointPort → Prop

/-- A copy of the slice of that namespace and name. -/
structure CopyOf (L : Layout ι) (H : Contents ι) (i : ι) (slot : NamespacedName) (es : EndpointSlice) :
    Prop where
  mem : slot ∈ L.slots i
  name : es.name = L.copyName i slot
  cluster : es.labels.lookup Known.LabelClusterID = some (L.clusterID i)
  service : es.labels.lookup Known.LabelServiceName = some (L.serviceOf i slot)
  serviceNs : es.labels.lookup Known.LabelServiceNameSpace = some slot.ns
  derived : es.labels.lookup Known.DiscoveryServiceName =
    some (DerivedName (L.clusterID i) slot.ns (L.serviceOf i slot))
  unmanaged : es.labels.lookup Known.DiscoveryManagedBy = none
  contents : H i slot (content es)

/-- The label by which an export finds the slices of its service. -/
def localSelector (name : String) : List (String × String) :=
  [(Known.DiscoveryServiceName, name), (Known.DiscoveryManagedBy, Known.LabelValueManagedBy)]

/-- A slice of the cluster itself. -/
structure OwnSlice (L : Layout ι) (i : ι) (es : EndpointSlice) : Prop where
  unlabelled : es.labels.lookup Known.LabelServiceName = none
  name : ∀ {i' slot}, slot ∈ L.slots i' → L.copyName i' slot ≠ es.name
  exported : ∀ {name}, matchesLabels (localSelector name) es.labels = true →
    L.serviceOf i (slotOf es) = name ∧ IsDNS1123Subdomain es.name

section

variable {L : Layout ι} {H : Contents ι} {i : ι} {slot key : NamespacedName} {es : EndpointSlice}

theorem matchesLabels_pair (k₁ v₁ k₂ v₂ : String) (labels : GoMap String String) :
    matchesLabels [(k₁, v₁), (k₂, v₂)] labels = true ↔
      labels.lookup k₁ = some v₁ ∧ labels.lookup k₂ = some v₂ := by
  simp [matchesLabels]

theorem CopyOf.matches_sliceLabels (h : CopyOf L H i slot es) :
    matchesLabels (sliceLabels key) es.labels = true ↔ L.service i slot = key := by
  rw [sliceLabels, matchesLabels_pair, h.service, h.serviceNs, Option.some_inj, Option.some_inj]
  obtain ⟨ns, name⟩ := key
  rw [Layout.service, NamespacedName.mk.injEq, and_comm]

/-- A copy under the name of a slice's copy is of that slice. -/
theorem CopyOf.eq_of_name (h : CopyOf L H i slot es) {i' : ι} {slot' : NamespacedName}
    (hslot : slot' ∈ L.slots i') (hname : es.name = L.copyName i' slot') : i = i' ∧ slot = slot' :=
  Layout.copyName_inj h.mem hslot (h.name.symm.trans hname)

/-- What is stored in a copy's place is a copy again. -/
theorem CopyOf.stored {before : Option EndpointSlice} {s : EndpointSlice} (hs : CopyOf L H i slot s)
    (hbefore : ∀ cur, before = some cur → CopyOf L H i slot cur) :
    CopyOf L H i slot (stored before s) := by
  cases before with
  | none => exact hs
  | some cur =>
    have hcur := hbefore cur rfl
    exact ⟨hcur.mem, hcur.name, hcur.cluster, hcur.service, hcur.serviceNs, hcur.derived,
      hcur.unmanaged, hs.contents⟩

theorem CopyOf.constructEndpointSlice {se : ServiceExport}
    (hslot : (⟨se.ns, es.name⟩ : NamespacedName) ∈ L.slots i)
    (hname : L.serviceOf i ⟨se.ns, es.name⟩ = se.name)
    (hcontent : H i ⟨se.ns, es.name⟩ (content es)) :
    CopyOf L H i ⟨se.ns, es.name⟩ (constructEndpointSlice es se L.shared (L.clusterID i)) := by
  refine ⟨hslot, rfl, ?_, ?_, ?_, ?_, ?_, hcontent⟩
  · simp only [Mcs.constructEndpointSlice, GoMap.lookup_insert_eq]
    rw [if_neg (by decide), if_neg (by decide), if_neg (by decide), if_true]
  · simp only [Mcs.constructEndpointSlice, GoMap.lookup_insert_eq]
    rw [if_neg (by decide), if_neg (by decide), if_neg (by decide), if_neg (by decide), if_true,
      hname]
  · simp only [Mcs.constructEndpointSlice, GoMap.lookup_insert_eq]
    rw [if_neg (by decide), if_neg (by decide), if_true]
  · simp only [Mcs.constructEndpointSlice, GoMap.lookup_insert_eq]
    rw [if_neg (by decide), if_true, hname]
  · simp only [Mcs.constructEndpointSlice, GoMap.lookup_insert_eq]
    rw [if_neg (by decide), if_neg (by decide), if_neg (by decide), if_neg (by decide),
      if_neg (by decide)]
    rfl

theorem CopyOf.forkEndpointSlice (h : CopyOf L H i slot es) (ns : String) :
    CopyOf L H i slot (forkEndpointSlice es ns) := by
  have hlookup : ∀ k, k ≠ Known.ObjectCreatedByLabel →
      (Mcs.forkEndpointSlice es ns).labels.lookup k = es.labels.lookup k := by
    intro k hk
    rw [Mcs.forkEndpointSlice, GoMap.lookup_erase_eq, if_neg hk]
  refine ⟨h.mem, h.name, ?_, ?_, ?_, ?_, ?_, h.contents⟩
  · rw [hlookup _ (by decide), h.cluster]
  · rw [hlookup _ (by decide), h.service]
  · rw [hlookup _ (by decide), h.serviceNs]
  · rw [hlookup _ (by decide), h.derived]
  · rw [hlookup _ (by decide), h.unmanaged]

end

/-! ## The invariant -/

/-- The hub has copies only. -/
def HubTidy (L : Layout ι) (H : Contents ι) (hub : GoMap String EndpointSlice) : Prop :=
  ∀ {k es}, hub.lookup k = some es →
    es.name = k ∧ es.ns = L.shared ∧ ∃ i slot, CopyOf L H i slot es

structure ExporterTidy (L : Layout ι) (H : Contents ι) (i : ι) (c : ServiceExportController) : Prop where
  clusterID : c.localClusterID = L.clusterID i
  shared : c.operatorNamespace = L.shared
  exports : ∀ {key se}, c.serviceExportLister.lookup key = some se → key ∈ L.exports i
  nodup : (c.endpointSlicesLister.map slotOf).Nodup
  lister : ∀ {es}, es ∈ c.endpointSlicesLister →
    (∃ i' slot, CopyOf L H i' slot es) ∨ OwnSlice L i es ∧ H i (slotOf es) (content es)

structure ImporterTidy (L : Layout ι) (H : Contents ι) (i : ι) (c : ServiceImportController) : Prop where
  shared : c.operatorNamespace = L.shared
  nodup : (c.sourceEndpointSlicesLister.map slotOf).Nodup
  cache : ∀ {es}, es ∈ c.sourceEndpointSlicesLister →
    es.ns = L.shared ∧ ∃ i' slot, CopyOf L H i' slot es
  slices : ∀ {ns k es}, (c.slices ns).lookup k = some es → es.name = k ∧ es.ns = ns ∧
    ((∃ i' slot, CopyOf L H i' slot es ∧ slot.ns = ns) ∨
      OwnSlice L i es ∧ H i (slotOf es) (content es))

/-- Slices of the hub, of the caches and of the clusters are copies or the clusters' own. -/
structure Tidy (L : Layout ι) (H : Contents ι) (f : Fleet ι) : Prop where
  hub : HubTidy L H f.hub
  exporter : ∀ i, ExporterTidy L H i (f.exporter i)
  importer : ∀ i, ImporterTidy L H i (f.importer i)

/-- What the fleet's environment may do: listing a cache does not fail with `NotFound`, only
services that may be exported are exported, and only slices of its own are changed in a
cluster from outside. -/
def Permitted (L : Layout ι) : FleetEvent ι → Prop
  | .handleExport _ _ env _ => env.remove.srcListErr ≠ some .notFound
  | .handleImport _ _ env _ => env.remove.srcListErr ≠ some .notFound
  | .changeSlice i slot slice =>
    (∀ {i' slot'}, slot' ∈ L.slots i' → L.copyName i' slot' ≠ slot.name) ∧
      ∀ es ∈ slice, slotOf es = slot ∧ OwnSlice L i es
  | .changeExports i serviceExportLister _ _ =>
    ∀ {key se}, serviceExportLister.lookup key = some se → key ∈ L.exports i
  | _ => True

theorem nodup_takeOver {l : List EndpointSlice} (h : (l.map slotOf).Nodup) {slot : NamespacedName}
    {slice : Option EndpointSlice} (hslice : ∀ es ∈ slice, slotOf es = slot) :
    ((takeOver l slot slice).map slotOf).Nodup := by
  rw [takeOver, List.map_append]
  refine List.Nodup.append (h.sublist (List.filter_sublist.map slotOf)) ?_ ?_
  · cases slice with
    | none => exact List.nodup_nil
    | some es => exact List.nodup_singleton _
  · intro x hx hx'
    obtain ⟨es, hes, rfl⟩ := List.mem_map.mp hx
    obtain ⟨es', hes', heq⟩ := List.mem_map.mp hx'
    refine of_decide_eq_true (List.mem_filter.mp hes).2 ?_
    rw [← heq]
    exact hslice es' (Option.mem_toList.mp hes')

/-- Slices of one namespace have different names. -/
theorem nodup_names {l : List EndpointSlice} (h : (l.map slotOf).Nodup) {ns : String}
    (hns : ∀ es ∈ l, es.ns = ns) : (l.map EndpointSlice.name).Nodup := by
  have hslots : l.map slotOf = (l.map EndpointSlice.name).map fun name => ⟨ns, name⟩ := by
    rw [List.map_map]
    refine List.map_congr_left fun es hes => ?_
    show NamespacedName.mk es.ns es.name = ⟨ns, es.name⟩
    rw [hns es hes]
  refine List.Nodup.of_map (fun name => (⟨ns, name⟩ : NamespacedName)) ?_
  rwa [← hslots]

section

variable {L : Layout ι} {H : Contents ι} {i : ι} {c c' : ServiceExportController} {key : NamespacedName}

theorem nodup_slicesOf (h : ExporterTidy L H i c) : ((c.slicesOf key).map EndpointSlice.name).Nodup :=
  nodup_names (h.nodup.sublist (List.filter_sublist.map slotOf))
    fun _ hes => (of_decide_eq_true (List.mem_filter.mp hes).2).1

theorem sharesOf_eq_some_cases {l : List EndpointSlice} (h : c.sharesOf key = some l) :
    (∃ se, c.serviceExportLister.lookup key = some se) ∧ l.Sublist (c.slicesOf key) := by
  unfold ServiceExportController.sharesOf at h
  split at h
  · rename_i se clusterIP hse hservice
    refine ⟨⟨se, hse⟩, ?_⟩
    rw [← Option.some_inj.mp h]
    split
    · exact List.nil_sublist _
    · exact List.Sublist.refl _
  · cases h

/-- What an export copies is a slice of the cluster's own, and the copy is one of it. -/
theorem ExporterTidy.copyOf (h : ExporterTidy L H i c) (hkey : key ∈ L.exports i)
    {slice : EndpointSlice} (hslice : slice ∈ c.slicesOf key) (se : ServiceExport)
    (hns : se.ns = key.ns) (hname : se.name = key.name) :
    CopyOf L H i ⟨key.ns, slice.name⟩
        (constructEndpointSlice slice se c.operatorNamespace c.localClusterID) ∧
      L.service i ⟨key.ns, slice.name⟩ = key := by
  obtain ⟨hmem, hmatch⟩ := List.mem_filter.mp hslice
  obtain ⟨hsliceNs, hmatch⟩ := of_decide_eq_true hmatch
  rcases h.lister hmem with ⟨i', slot, hcopy⟩ | ⟨hown, hcontents⟩
  · -- A copy is not managed by the controller of the cluster's slices.
    have hmanaged := ((matchesLabels_pair _ _ _ _ _).mp hmatch).2
    rw [hcopy.unmanaged] at hmanaged
    cases hmanaged
  · obtain ⟨hservice, hvalid⟩ := hown.exported hmatch
    rw [slotOf, hsliceNs] at hservice hcontents
    have hkeyEq : L.service i ⟨key.ns, slice.name⟩ = key := by rw [Layout.service, hservice]
    have hslot : (⟨key.ns, slice.name⟩ : NamespacedName) ∈ L.slots i := ⟨hvalid, hkeyEq ▸ hkey⟩
    refine ⟨?_, hkeyEq⟩
    rw [h.shared, h.clusterID]
    rw [← hns] at hslot hservice hcontents ⊢
    exact CopyOf.constructEndpointSlice hslot (hservice.trans hname.symm) hcontents

theorem HubTidy.exportPass (h : HubTidy L H c.hub) (hc : ExporterTidy L H i c) (hkey : key ∈ L.exports i)
    {l : List EndpointSlice} (hl : l ⊆ c.slicesOf key) {complete : Prop}
    (hpass : ExportPass c c' key l complete) : HubTidy L H c'.hub := by
  obtain ⟨se, l', hns, hname, hperm, hsynced, -⟩ := hpass
  intro k es hes
  rcases hsynced k with heq | ⟨-, -, heq⟩ | ⟨s, hs, hsk, heq⟩
  · exact h (heq.symm.trans hes)
  · rw [heq] at hes
    cases hes
  · obtain ⟨slice, hslice, rfl⟩ := List.mem_map.mp hs
    obtain ⟨hcopy, -⟩ := hc.copyOf hkey (hl (hperm.mem_iff.mp hslice)) se hns hname
    obtain rfl := Option.some_inj.mp (heq.symm.trans hes)
    have hbefore : ∀ cur, c.hub.lookup k = some cur → CopyOf L H i ⟨key.ns, slice.name⟩ cur := by
      intro cur hcur
      obtain ⟨hcurName, -, i', slot, hcopy'⟩ := h hcur
      obtain ⟨rfl, rfl⟩ := hcopy'.eq_of_name hcopy.mem
        (hcurName.trans (hsk.symm.trans hcopy.name))
      exact hcopy'
    have hstored := hcopy.stored hbefore
    refine ⟨?_, ?_, i, _, hstored⟩
    · rw [hstored.name, ← hcopy.name, hsk]
    · cases hcur : c.hub.lookup k with
      | none => exact hc.shared
      | some cur => exact (h hcur).2.1

end

section

variable {L : Layout ι} {H : Contents ι} {i : ι} {c c' : ServiceImportController} {key : NamespacedName}

theorem nodup_hubSlicesOf (h : ImporterTidy L H i c) :
    ((c.hubSlicesOf key).map EndpointSlice.name).Nodup :=
  nodup_names (h.nodup.sublist (List.filter_sublist.map slotOf))
    fun _ hes => (of_decide_eq_true (List.mem_filter.mp hes).2).1

/-- The hub's slices of an import are copies of slices of the service. -/
theorem ImporterTidy.copyOf (h : ImporterTidy L H i c) {slice : EndpointSlice}
    (hslice : slice ∈ c.hubSlicesOf key) :
    ∃ i' slot, CopyOf L H i' slot slice ∧ L.service i' slot = key := by
  obtain ⟨hmem, hmatch⟩ := List.mem_filter.mp hslice
  obtain ⟨-, i', slot, hcopy⟩ := h.cache hmem
  exact ⟨i', slot, hcopy, hcopy.matches_sliceLabels.mp (of_decide_eq_true hmatch).2⟩

/-- A slice of the cluster under the name of a copy is that copy. -/
theorem ImporterTidy.copy_of_name (h : ImporterTidy L H i c) {ns k : String} {es : EndpointSlice}
    (hes : (c.slices ns).lookup k = some es) {i' : ι} {slot : NamespacedName}
    (hslot : slot ∈ L.slots i') (hk : k = L.copyName i' slot) : CopyOf L H i' slot es ∧ slot.ns = ns := by
  obtain ⟨hname, -, ⟨i₁, slot₁, hcopy, hns⟩ | ⟨hown, -⟩⟩ := h.slices hes
  · obtain ⟨rfl, rfl⟩ := hcopy.eq_of_name hslot (hname.trans hk)
    exact ⟨hcopy, hns⟩
  · exact absurd (hname.trans hk).symm (hown.name hslot)

theorem ImporterTidy.importPass (h : ImporterTidy L H i c) (hshared : c'.operatorNamespace = L.shared)
    (hlister : c'.sourceEndpointSlicesLister = c.sourceEndpointSlicesLister) {l : List EndpointSlice}
    (hl : l ⊆ c.hubSlicesOf key) {complete : Prop} (hpass : ImportPass c c' key l complete) :
    ImporterTidy L H i c' := by
  obtain ⟨target, l', hperm, hslices, hsynced, -⟩ := hpass
  refine ⟨hshared, hlister ▸ h.nodup, fun hes => h.cache (hlister ▸ hes), ?_⟩
  intro ns k es hes
  rw [hslices] at hes
  by_cases hns : ns = key.ns
  · subst ns
    rw [Function.update_self] at hes
    rcases hsynced k with heq | ⟨-, -, heq⟩ | ⟨s, hs, rfl, heq⟩
    · exact h.slices (heq.symm.trans hes)
    · rw [heq] at hes
      cases hes
    · obtain ⟨slice, hslice, rfl⟩ := List.mem_map.mp hs
      obtain ⟨i', slot, hcopy, rfl⟩ := h.copyOf (hl (hperm.mem_iff.mp hslice))
      obtain rfl := Option.some_inj.mp (heq.symm.trans hes)
      have hbefore : ∀ cur, (c.slices slot.ns).lookup slice.name = some cur → CopyOf L H i' slot cur :=
        fun cur hcur => (h.copy_of_name hcur hcopy.mem hcopy.name).1
      have hstored := (hcopy.forkEndpointSlice slot.ns).stored hbefore
      refine ⟨hstored.name.trans hcopy.name.symm, ?_, .inl ⟨i', slot, hstored, rfl⟩⟩
      cases hcur : (c.slices (L.service i' slot).ns).lookup
          (Mcs.forkEndpointSlice slice (L.service i' slot).ns).name with
      | none => rfl
      | some cur => exact (h.slices hcur).2.1
  · rw [Function.update_of_ne hns] at hes
    exact h.slices hes

end

theorem HubTidy.nodup_values {L : Layout ι} {H : Contents ι} {hub : GoMap String EndpointSlice}
    (h : HubTidy L H hub) :
    ((GoMap.values hub).map slotOf).Nodup := by
  have hnames : ((GoMap.values hub).map slotOf).map NamespacedName.name = hub.entries.map (·.1) := by
    rw [GoMap.values, List.map_map, List.map_map]
    refine List.map_congr_left fun e he => ?_
    exact (h (GoMap.mem_entries_iff.mp he)).1
  refine List.Nodup.of_map NamespacedName.name ?_
  rw [hnames]
  exact hub.nodupKeys

theorem lookup_putSlice (slices : GoMap String EndpointSlice) (name : String)
    (slice : Option EndpointSlice) (k : String) :
    (putSlice slices name slice).lookup k = if k = name then slice else slices.lookup k := by
  cases slice with
  | none => exact GoMap.lookup_erase_eq slices name k
  | some es => exact GoMap.lookup_insert_eq slices name k es

theorem Tidy.exporterOf {L : Layout ι} {H : Contents ι} {f : Fleet ι} (h : Tidy L H f) (i : ι) :
    ExporterTidy L H i (f.exporterOf i) :=
  ⟨(h.exporter i).clusterID, (h.exporter i).shared, (h.exporter i).exports, (h.exporter i).nodup,
    (h.exporter i).lister⟩

section

variable {L : Layout ι} {H : Contents ι} {f f' : Fleet ι} {e : FleetEvent ι} [DecidableEq ι]

theorem Tidy.setExporter (h : Tidy L H f) {i : ι} {c : ServiceExportController}
    (hc : ExporterTidy L H i c) (hhub : HubTidy L H c.hub) : Tidy L H (f.setExporter i c) := by
  refine ⟨hhub, fun i' => ?_, h.importer⟩
  rw [Fleet.exporter_setExporter]
  split
  · rename_i hi
    exact hi ▸ hc
  · exact h.exporter i'

theorem Tidy.setImporter (h : Tidy L H f) {i : ι} {c : ServiceImportController}
    (hc : ImporterTidy L H i c) : Tidy L H (f.setImporter i c) := by
  refine ⟨h.hub, h.exporter, fun i' => ?_⟩
  rw [Fleet.importer_setImporter]
  split
  · rename_i hi
    exact hi ▸ hc
  · exact h.importer i'

theorem mem_takeOver {l : List EndpointSlice} {slot : NamespacedName} {slice : Option EndpointSlice}
    {es : EndpointSlice} (h : es ∈ takeOver l slot slice) : es ∈ l ∨ slice = some es := by
  rcases List.mem_append.mp h with h | h
  · exact .inl (List.mem_filter.mp h).1
  · exact .inr (Option.mem_toList.mp h)

variable {createPatch : CreatePatch EndpointSlice}

/-- Every step keeps the invariant. -/
theorem Tidy.step (hpatch : ReportsChanges createPatch) (h : Tidy L H f) (hpermitted : Permitted L e)
    (hcontents : ∀ {i slot s}, e = .changeSlice i slot (some s) → H i slot (content s))
    (hs : Fleet.Step createPatch f e f') : Tidy L H f' := by
  cases hs with
  | @handleExport i key env c result handle =>
    have hc := h.exporterOf i
    obtain ⟨hnone, hsome⟩ := Handle_pass hpatch hpermitted (nodup_slicesOf hc) handle
    have hhub : HubTidy L H c.hub := by
      cases hshares : (f.exporterOf i).sharesOf key with
      | none =>
        rw [hnone hshares]
        exact h.hub
      | some l =>
        obtain ⟨⟨se, hse⟩, hl⟩ := sharesOf_eq_some_cases hshares
        exact HubTidy.exportPass h.hub hc (hc.exports hse) hl.subset (hsome l hshares)
    obtain ⟨exports, hub, rfl⟩ := Handle_export_controller handle
    exact h.setExporter ⟨hc.clusterID, hc.shared, hc.exports, hc.nodup, hc.lister⟩ hhub
  | @handleImport i key env c result handle =>
    have hc := h.importer i
    obtain ⟨l, hl, hpass⟩ := Handle_import_any hpatch hpermitted (nodup_hubSlicesOf hc) handle
    obtain ⟨ipam, imports, version, slices, rfl⟩ := Handle_import_controller handle
    exact h.setImporter (hc.importPass hc.shared rfl hl hpass)
  | watchHub i name =>
    have hc := h.importer i
    refine h.setImporter ⟨hc.shared, nodup_takeOver hc.nodup fun es hes => ?_, fun hes => ?_,
      hc.slices⟩
    · obtain ⟨hname, hns, -⟩ := h.hub hes
      rw [slotOf, hname, hns, hc.shared]
    · rcases mem_takeOver hes with hes | hes
      · exact hc.cache hes
      · exact (h.hub hes).2
  | relistHub i order =>
    have hc := h.importer i
    refine h.setImporter ⟨hc.shared, ?_, fun hes => ?_, hc.slices⟩
    · exact ((order.perm _).map slotOf).nodup_iff.mpr (HubTidy.nodup_values h.hub)
    · obtain ⟨k, hk⟩ := GoMap.mem_values_iff.mp (order.mem_visit.mp hes)
      exact (h.hub hk).2
  | watchSlice i slot =>
    have hc := h.exporterOf i
    refine h.setExporter ⟨hc.clusterID, hc.shared, hc.exports,
      nodup_takeOver hc.nodup fun es hes => ?_, fun hes => ?_⟩ h.hub
    · obtain ⟨hname, hns, -⟩ := (h.importer i).slices hes
      rw [slotOf, hname, hns]
    · rcases mem_takeOver hes with hes | hes
      · exact hc.lister hes
      · obtain ⟨-, -, ⟨i', slot', hcopy, -⟩ | hown⟩ := (h.importer i).slices hes
        · exact .inl ⟨i', slot', hcopy⟩
        · exact .inr hown
  | changeSlice i slot slice =>
    have hc := h.importer i
    refine h.setImporter ⟨hc.shared, hc.nodup, hc.cache, ?_⟩
    intro ns k es hes
    obtain ⟨hname, hslice⟩ := hpermitted
    simp only [Function.update_apply] at hes
    split at hes
    · rename_i hns
      subst ns
      rw [lookup_putSlice] at hes
      split at hes
      · rename_i hk
        obtain ⟨hslot, hown⟩ := hslice es hes
        refine ⟨hk ▸ congrArg NamespacedName.name hslot, congrArg NamespacedName.ns hslot,
          .inr ⟨hown, ?_⟩⟩
        rw [hslot]
        exact hcontents (by rw [hes])
      · exact hc.slices hes
    · exact hc.slices hes
  | changeExports i serviceExportLister serviceLister exports =>
    have hc := h.exporterOf i
    exact h.setExporter ⟨hc.clusterID, hc.shared, hpermitted, hc.nodup, hc.lister⟩ h.hub
  | changeImports i localSILister imports version =>
    have hc := h.importer i
    exact h.setImporter ⟨hc.shared, hc.nodup, hc.cache, hc.slices⟩

/-- Every run keeps it. -/
theorem Tidy.runs (hpatch : ReportsChanges createPatch) {es : List (FleetEvent ι)}
    (hpermitted : ∀ e ∈ es, Permitted L e)
    (hcontents : ∀ {i slot s}, .changeSlice i slot (some s) ∈ es → H i slot (content s))
    (hrun : Runs (Fleet.Step createPatch) f es f') (h : Tidy L H f) : Tidy L H f' :=
  Runs.invariant_mem (I := Tidy L H) (P := fun e => e ∈ es)
    (fun he hf hs => Tidy.step hpatch hf (hpermitted _ he) (fun heq => hcontents (heq ▸ he)) hs)
    (fun _ he => he) hrun h

end

/-! ## Runs of the fleet -/

/-- A fleet before anything is exported. -/
structure Fleet.Initial (L : Layout ι) (f : Fleet ι) : Prop where
  clusterID : ∀ i, (f.exporter i).localClusterID = L.clusterID i
  exporterNs : ∀ i, (f.exporter i).operatorNamespace = L.shared
  importerNs : ∀ i, (f.importer i).operatorNamespace = L.shared
  exports : ∀ {i key se}, (f.exporter i).serviceExportLister.lookup key = some se → key ∈ L.exports i
  hub : f.hub = ∅
  lister : ∀ i, (f.exporter i).endpointSlicesLister = []
  cache : ∀ i, (f.importer i).sourceEndpointSlicesLister = []
  slices : ∀ i ns, (f.importer i).slices ns = ∅

theorem Fleet.Initial.tidy {L : Layout ι} {f : Fleet ι} (h : f.Initial L) (H : Contents ι) :
    Tidy L H f := by
  refine ⟨fun hes => ?_, fun i => ⟨h.clusterID i, h.exporterNs i, h.exports, ?_, fun hes => ?_⟩,
    fun i => ⟨h.importerNs i, ?_, fun hes => ?_, fun hes => ?_⟩⟩
  · rw [h.hub] at hes
    cases hes
  · rw [h.lister i]
    exact List.nodup_nil
  · rw [h.lister i] at hes
    exact absurd hes List.not_mem_nil
  · rw [h.cache i]
    exact List.nodup_nil
  · rw [h.cache i] at hes
    exact absurd hes List.not_mem_nil
  · rw [h.slices i] at hes
    cases hes

/-! ### Two clusters

The cluster `c1` exports `shop/web`, and `c2` imports it. -/

def webKey : NamespacedName := ⟨"shop", "web"⟩

/-- The slice and the export come up in `c1`, and the import in `c2`. -/
def webEvents : List (FleetEvent Bool) :=
  [.changeSlice false ⟨"shop", "web-1"⟩ (some (webSlice "web-1")),
    .watchSlice false ⟨"shop", "web-1"⟩,
    .changeExports false ((∅ : GoMap NamespacedName ServiceExport).insert webKey (webExport "shop" false))
      webService ((∅ : GoMap NamespacedName ServiceExport).insert webKey (webExport "shop" false)),
    .changeImports true ((∅ : GoMap NamespacedName ServiceImport).insert webKey webImport)
      ((∅ : GoMap NamespacedName ServiceImport).insert webKey webImport) 1]

/-- The layout with those services only. -/
def Layout.restrict (L : Layout ι) (E : ι → Set NamespacedName) : Layout ι where
  clusterID := L.clusterID
  shared := L.shared
  exports i := L.exports i ∩ E i
  serviceOf := L.serviceOf
  clusterID_inj := L.clusterID_inj
  distinguished h h' := L.distinguished h.1 h'.1
  hash_inj h h' := L.hash_inj h.1 h'.1

section

variable {L : Layout ι} {E : ι → Set NamespacedName} {i : ι}

theorem mem_slots_of_restrict {slot : NamespacedName} (h : slot ∈ (L.restrict E).slots i) :
    slot ∈ L.slots i := ⟨h.1, h.2.1⟩

theorem OwnSlice.restrict {es : EndpointSlice} (h : OwnSlice L i es) : OwnSlice (L.restrict E) i es :=
  ⟨h.unlabelled, fun hslot => h.name (mem_slots_of_restrict hslot), h.exported⟩

/-- An environment that exports those services only is permitted with them alone. -/
theorem Permitted.restrict {e : FleetEvent ι} (h : Permitted L e)
    (hexports : ∀ {i serviceExportLister serviceLister exports key se},
      e = .changeExports i serviceExportLister serviceLister exports →
        serviceExportLister.lookup key = some se → key ∈ E i) : Permitted (L.restrict E) e := by
  cases e with
  | handleExport | handleImport => exact h
  | changeSlice i slot slice =>
    exact ⟨fun hslot => h.1 (mem_slots_of_restrict hslot),
      fun es hes => ⟨(h.2 es hes).1, (h.2 es hes).2.restrict⟩⟩
  | changeExports => exact fun hse => ⟨h hse, hexports rfl hse⟩
  | watchHub | relistHub | watchSlice | changeImports => trivial

theorem Fleet.Initial.restrict {f : Fleet ι} (h : f.Initial L)
    (hexports : ∀ {i key se}, (f.exporter i).serviceExportLister.lookup key = some se → key ∈ E i) :
    f.Initial (L.restrict E) :=
  ⟨h.clusterID, h.exporterNs, h.importerNs, fun hse => ⟨h.exports hse, hexports hse⟩, h.hub, h.lister,
    h.cache, h.slices⟩

end

end Fleetboard.Mcs

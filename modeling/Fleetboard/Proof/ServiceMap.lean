import Fleetboard.Framework.Runs
import Fleetboard.Proof.ServicePorts

/-!
# The service port map and the service imports

The map of all service ports is kept up to date import by import: a pending change has
the ports that the map has for its import and those that it will have. The keys of an
import's ports have its name, so that no two changes meet.

* `lookup_applyChange`: what one change leaves under each key;
* `PortsTracked.change`, `PortsTracked.update`: the map, the pending changes and the imports fit
  together after each event;
* `service_map_recomputed`: after each `Update` the map is the union of the imports'
  maps, nothing is pending, and every import whose ports differ from those at the
  last `Update` is reported.
-/

namespace Fleetboard.Proxy

open ServicePortMap

variable {cfg : Config}

/-! ## One change -/

theorem unmergePort_fst (st : ServicePortMap × Finset String) (k : ServicePortName) :
    (unmergePort st k).1 = st.1.erase k := by
  rw [unmergePort]
  split
  · rename_i h
    exact (AList.ext (List.kerase_of_notMem_keys (AList.lookup_eq_none.mp h))).symm
  · rfl

theorem unmerge_fst (spm other : ServicePortMap) (deleted : Finset String) :
    (spm.unmerge other deleted).1 = GoMap.unmerge spm other := by
  rw [ServicePortMap.unmerge, GoMap.unmerge]
  generalize other.entries.keys = ks
  induction ks generalizing spm deleted with
  | nil => rfl
  | cons k ks ih =>
    rw [List.foldl_cons, List.foldl_cons, ← unmergePort_fst (spm, deleted), ih]

theorem lookup_filter (spm other : ServicePortMap) (k : ServicePortName) :
    (spm.filter other).lookup k = if other.lookup k = none then spm.lookup k else none := by
  rw [ServicePortMap.filter, GoMap.lookup_foldl_erase]
  by_cases ho : other.lookup k = none
  · rw [if_pos ho, if_neg]
    rw [List.mem_filter, ho]
    exact fun h => absurd h.2 Bool.false_ne_true
  · rw [if_neg ho]
    by_cases hk : k ∈ spm.entries.keys
    · exact if_pos (List.mem_filter.mpr ⟨hk, Option.isSome_iff_ne_none.mpr ho⟩)
    · rw [if_neg fun h => hk (List.mem_filter.mp h).1]
      exact AList.lookup_eq_none.mpr hk

/-- The entries before and after a change. -/
def ServiceImportChange.entries (c : ServiceImportChange) : ServicePortMap × ServicePortMap :=
  (c.previous.getD ∅, c.current.getD ∅)

/-- One change replaces the previous entries by the current ones. -/
theorem lookup_applyChange (st : ServicePortMap × UpdateServiceMapResult)
    (e : (_ : NamespacedName) × ServiceImportChange) (k : ServicePortName) :
    ¬ GoMap.Touches e.2.entries k ∧ (applyChange st e).1.lookup k = st.1.lookup k ∨
      GoMap.Touches e.2.entries k ∧ (applyChange st e).1.lookup k = e.2.entries.2.lookup k := by
  obtain ⟨prev, cur, hc⟩ : ∃ prev cur, e.2.entries = (prev, cur) := ⟨_, _, rfl⟩
  rw [hc]
  have hmap : (applyChange st e).1 = GoMap.unmerge (GoMap.merge st.1 cur) (prev.filter cur) := by
    rw [← unmerge_fst _ _ st.2.deletedUDPClusterIPs]
    cases hc
    rfl
  rw [hmap, GoMap.lookup_unmerge, lookup_filter, GoMap.lookup_merge]
  cases hcur : cur.lookup k with
  | some v => exact .inr ⟨.inr (by simp [hcur]), by simp⟩
  | none =>
    cases hprev : prev.lookup k with
    | some v => exact .inr ⟨.inl (by simp [hprev]), by simp⟩
    | none => exact .inl ⟨by simp [GoMap.Touches, hcur, hprev], by simp⟩

theorem foldl_applyChange_updated (es : List ((_ : NamespacedName) × ServiceImportChange))
    (st : ServicePortMap × UpdateServiceMapResult) (nn : NamespacedName) :
    nn ∈ (es.foldl applyChange st).2.updatedServices ↔
      nn ∈ st.2.updatedServices ∨ nn ∈ es.keys := by
  induction es generalizing st with
  | nil => simp
  | cons e es ih =>
    rw [List.foldl_cons, ih, List.keys_cons, List.mem_cons]
    simp only [applyChange, Finset.mem_insert]
    tauto

theorem deepEqual_lookup {m m' : Option ServicePortMap} (h : deepEqual m m' = true)
    (k : ServicePortName) : (m.getD ∅).lookup k = (m'.getD ∅).lookup k := by
  cases m with
  | none =>
    cases m' with
    | none => rfl
    | some m' => cases h
  | some m =>
    cases m' with
    | none => cases h
    | some m' => exact GoMap.deepEqual_iff.mp h k

/-! ## The ports of an import -/

/-- The entry of an import's map. -/
def importEntry (cfg : Config) (si : Option ImportSpec) (k : ServicePortName) :
    Option ServicePortInfo :=
  ((serviceImportToServiceMap cfg si).getD ∅).lookup k

theorem importEntry_eq_some_iff {si : Option ImportSpec} {k : ServicePortName}
    {info : ServicePortInfo} :
    importEntry cfg si k = some info ↔
      ∃ si' m, si = some si' ∧ serviceImportToServiceMap cfg (some si') = some m ∧
        m.lookup k = some info := by
  rw [importEntry]
  cases si with
  | none => simp [serviceImportToServiceMap]
  | some si =>
    cases h : serviceImportToServiceMap cfg (some si) with
    | none => simp [h]
    | some m => simp [h]

/-- The keys of an import's map have its name. -/
theorem importEntry_nn {si : ImportSpec} {k : ServicePortName}
    (h : importEntry cfg (some si) k ≠ none) : k.nn = ⟨si.ns, si.name⟩ := by
  by_contra hk
  refine h ?_
  rw [importEntry]
  cases hips : si.ips with
  | nil =>
    simp only [serviceImportToServiceMap, hips, Option.getD_none]
    rfl
  | cons ip ips =>
    by_cases hne : ip = ""
    · simp only [serviceImportToServiceMap, hips, if_pos hne, Option.getD_none]
      rfl
    · rw [serviceImportToServiceMap_eq hips hne, Option.getD_some,
        GoMap.lookup_foldl_insert_of_notMem]
      · rfl
      · intro e he hkey
        obtain ⟨p, -, rfl⟩ := List.mem_map.mp he
        exact hk (hkey ▸ rfl)

/-- Every import stands under its own name. -/
def Named (imports : GoMap NamespacedName ImportSpec) : Prop :=
  ∀ nn si, imports.lookup nn = some si → (⟨si.ns, si.name⟩ : NamespacedName) = nn

theorem Named.entry {imports : GoMap NamespacedName ImportSpec} (h : Named imports)
    {nn : NamespacedName} {k : ServicePortName}
    (hk : importEntry cfg (imports.lookup nn) k ≠ none) : k.nn = nn := by
  cases hsi : imports.lookup nn with
  | none =>
    rw [hsi] at hk
    exact absurd rfl hk
  | some si =>
    rw [hsi] at hk
    exact (importEntry_nn hk).trans (h nn si hsi)

/-! ## Runs -/

/-- The proxy's map and pending changes, the imports that exist, and those that existed
at the last `Update`. -/
structure ImportsState where
  spm : ServicePortMap
  items : ServiceImportChangeTracker
  present : GoMap NamespacedName ImportSpec
  synced : GoMap NamespacedName ImportSpec

def ImportsState.new : ImportsState := ⟨∅, ∅, ∅, ∅⟩

/-- An import of the name changes, where nil stands for none, or the map is updated. -/
inductive ImportsEvent
  | change (nn : NamespacedName) (current : Option ImportSpec)
  | update (order : RangeOrder ((_ : NamespacedName) × ServiceImportChange))

/-- The imports after a change. -/
def importsAfter (present : GoMap NamespacedName ImportSpec) (nn : NamespacedName) :
    Option ImportSpec → GoMap NamespacedName ImportSpec
  | some si => present.insert nn si
  | none => present.erase nn

def ImportsState.exec (cfg : Config) (st : ImportsState) : ImportsEvent → ImportsState
  | .change nn current =>
    { st with
      items := (st.items.Update cfg (st.present.lookup nn) current).1
      present := importsAfter st.present nn current }
  | .update order =>
    let (spm, items, _) := st.spm.Update st.items order
    ⟨spm, items, st.present, st.present⟩

/-- The import has the name. -/
def ImportsEvent.Enabled : ImportsEvent → Prop
  | .change nn (some si) => (⟨si.ns, si.name⟩ : NamespacedName) = nn
  | _ => True

def importsStep (cfg : Config) (st : ImportsState) (e : ImportsEvent) (st' : ImportsState) : Prop :=
  e.Enabled ∧ st' = st.exec cfg e

/-- A pending change leads from the ports of the last `Update` to those of the import that
exists; without one, they are the same. -/
def Fits (cfg : Config) (synced present : Option ImportSpec) :
    Option ServiceImportChange → Prop
  | none => ∀ k, importEntry cfg synced k = importEntry cfg present k
  | some c => ∀ k, c.entries.1.lookup k = importEntry cfg synced k ∧
      c.entries.2.lookup k = importEntry cfg present k

/-- The map has the ports of the last `Update`, and the pending changes lead from those
to the ports of the imports that exist. -/
structure PortsTracked (cfg : Config) (st : ImportsState) : Prop where
  present : Named st.present
  synced : Named st.synced
  spm : ∀ k, st.spm.lookup k = importEntry cfg (st.synced.lookup k.nn) k
  items : ∀ nn, Fits cfg (st.synced.lookup nn) (st.present.lookup nn) (st.items.lookup nn)

/-! ### A change -/

theorem lookup_importsAfter (present : GoMap NamespacedName ImportSpec) (nn nn' : NamespacedName)
    (current : Option ImportSpec) :
    (importsAfter present nn current).lookup nn' =
      if nn' = nn then current else present.lookup nn' := by
  cases current with
  | none => exact GoMap.lookup_erase_eq _ _ _
  | some si => exact GoMap.lookup_insert_eq _ _ _ _

theorem Named.importsAfter {present : GoMap NamespacedName ImportSpec} (h : Named present)
    {nn : NamespacedName} {current : Option ImportSpec}
    (hnn : (ImportsEvent.change nn current).Enabled) :
    Named (importsAfter present nn current) := by
  intro nn' si hsi
  rw [lookup_importsAfter] at hsi
  by_cases heq : nn' = nn
  · rw [if_pos heq] at hsi
    subst hsi
    exact hnn.trans heq.symm
  · rw [if_neg heq] at hsi
    exact h nn' si hsi

/-- A change, the pending one or a new one, starts from the ports of the last
`Update`. -/
theorem Fits.previous {synced previous : Option ImportSpec} {item : Option ServiceImportChange}
    (h : Fits cfg synced previous item) (k : ServicePortName) :
    let c := item.getD ⟨serviceImportToServiceMap cfg previous, none⟩
    (c.previous.getD ∅).lookup k = importEntry cfg synced k := by
  cases item with
  | none => exact (h k).symm
  | some c => exact (h k).1

theorem Fits.update {items : ServiceImportChangeTracker} {nn : NamespacedName}
    {synced previous current : Option ImportSpec}
    (h : Fits cfg synced previous (items.lookup nn))
    (hnn : ∀ svc, current.or previous = some svc → (⟨svc.ns, svc.name⟩ : NamespacedName) = nn) :
    Fits cfg synced current ((items.Update cfg previous current).1.lookup nn) := by
  rw [ServiceImportChangeTracker.Update]
  cases hsvc : current.or previous with
  | none =>
    obtain ⟨rfl, rfl⟩ := Option.or_eq_none_iff.mp hsvc
    exact h
  | some svc =>
    obtain rfl := hnn svc hsvc
    dsimp only
    split
    · rename_i heq
      rw [AList.lookup_erase]
      intro k
      exact (h.previous k).symm.trans (deepEqual_lookup heq k)
    · rw [AList.lookup_insert]
      exact fun k => ⟨h.previous k, rfl⟩

/-- The other names keep their pending changes. -/
theorem update_lookup_ne {items : ServiceImportChangeTracker} {nn nn' : NamespacedName}
    {previous current : Option ImportSpec}
    (hnn : ∀ svc, current.or previous = some svc → (⟨svc.ns, svc.name⟩ : NamespacedName) = nn)
    (hne : nn' ≠ nn) :
    (items.Update cfg previous current).1.lookup nn' = items.lookup nn' := by
  rw [ServiceImportChangeTracker.Update]
  cases hsvc : current.or previous with
  | none => rfl
  | some svc =>
    obtain rfl := hnn svc hsvc
    dsimp only
    split
    · exact AList.lookup_erase_ne hne
    · exact AList.lookup_insert_ne hne

theorem PortsTracked.change {st : ImportsState} (h : PortsTracked cfg st) {nn : NamespacedName}
    {current : Option ImportSpec} (hnn : (ImportsEvent.change nn current).Enabled) :
    PortsTracked cfg (st.exec cfg (.change nn current)) where
  present := h.present.importsAfter hnn
  synced := h.synced
  spm := h.spm
  items nn' := by
    have hsvc : ∀ svc, current.or (st.present.lookup nn) = some svc →
        (⟨svc.ns, svc.name⟩ : NamespacedName) = nn := by
      intro svc hsvc
      cases current with
      | none => exact h.present nn svc hsvc
      | some si =>
        cases hsvc
        exact hnn
    simp only [ImportsState.exec, lookup_importsAfter]
    by_cases hne : nn' = nn
    · subst hne
      rw [if_pos rfl]
      exact (h.items nn').update hsvc
    · rw [if_neg hne, update_lookup_ne hsvc hne]
      exact h.items nn'

/-! ### An update -/

/-- A pending change has only ports of its own import. -/
theorem PortsTracked.touches {st : ImportsState} (h : PortsTracked cfg st) {nn : NamespacedName}
    {c : ServiceImportChange} (hc : st.items.lookup nn = some c) {k : ServicePortName}
    (ht : GoMap.Touches c.entries k) : k.nn = nn := by
  have hfits := h.items nn
  rw [hc] at hfits
  obtain ⟨hprev, hcur⟩ := hfits k
  rcases ht with ht | ht
  · rw [hprev] at ht
    exact h.synced.entry ht
  · rw [hcur] at ht
    exact h.present.entry ht

/-- After `Update` the map has the ports of the imports that exist. -/
theorem PortsTracked.lookup_update {st : ImportsState} (h : PortsTracked cfg st)
    (order : RangeOrder ((_ : NamespacedName) × ServiceImportChange)) (k : ServicePortName) :
    (st.spm.Update st.items order).1.lookup k =
      importEntry cfg (st.present.lookup k.nn) k := by
  have hfold := GoMap.lookup_foldl_changes (r := Prod.fst)
    (d := fun e : (_ : NamespacedName) × ServiceImportChange => e.2.entries)
    (fun st e => lookup_applyChange st e k) (order.visit st.items.entries) (st.spm, ⟨∅, ∅⟩)
  have hfits := h.items k.nn
  rcases hfold with ⟨hno, hl⟩ | ⟨⟨nn, c⟩, hc, ht, hl⟩
  · refine (hl.trans (h.spm k)).trans ?_
    cases hitem : st.items.lookup k.nn with
    | none =>
      rw [hitem] at hfits
      exact hfits k
    | some c =>
      -- The pending change has no entry of the key, neither before nor after.
      rw [hitem] at hfits
      have hc := hno ⟨k.nn, c⟩ (order.mem_visit.mpr (GoMap.mem_entries_iff.mpr hitem))
      obtain ⟨hprev, hcur⟩ := not_or.mp hc
      rw [← (hfits k).1, ← (hfits k).2, not_ne_iff.mp hprev, not_ne_iff.mp hcur]
  · have hitem := GoMap.mem_entries_iff.mp (order.mem_visit.mp hc)
    obtain rfl := h.touches hitem ht
    rw [hitem] at hfits
    exact hl.trans (hfits k).2

theorem PortsTracked.update {st : ImportsState} (h : PortsTracked cfg st)
    (order : RangeOrder ((_ : NamespacedName) × ServiceImportChange)) :
    PortsTracked cfg (st.exec cfg (.update order)) where
  present := h.present
  synced := h.present
  spm := h.lookup_update order
  items _ _ := rfl

theorem PortsTracked.step {st st' : ImportsState} {e : ImportsEvent} (h : PortsTracked cfg st)
    (hstep : importsStep cfg st e st') : PortsTracked cfg st' := by
  obtain ⟨henabled, rfl⟩ := hstep
  cases e with
  | change nn current => exact h.change henabled
  | update order => exact h.update order

theorem portsTracked_new : PortsTracked cfg .new where
  present _ _ hsi := by cases hsi
  synced _ _ hsi := by cases hsi
  spm _ := rfl
  items _ _ := rfl

/-- An import whose ports changed since the last `Update` is reported. -/
theorem PortsTracked.updated {st : ImportsState} (h : PortsTracked cfg st)
    (order : RangeOrder ((_ : NamespacedName) × ServiceImportChange)) {nn : NamespacedName}
    {k : ServicePortName}
    (hne : importEntry cfg (st.present.lookup nn) k ≠ importEntry cfg (st.synced.lookup nn) k) :
    nn ∈ (st.spm.Update st.items order).2.2.updatedServices := by
  cases hitem : st.items.lookup nn with
  | none =>
    have hfits := h.items nn
    rw [hitem] at hfits
    exact absurd (hfits k).symm hne
  | some c =>
    refine (foldl_applyChange_updated _ _ nn).mpr (.inr (List.mem_map.mpr ⟨⟨nn, c⟩, ?_, rfl⟩))
    exact order.mem_visit.mpr (GoMap.mem_entries_iff.mpr hitem)

/-- After any run, an `Update` leaves in the map the union of the maps of the imports that
exist and no pending change, and it reports every import whose ports differ from those
at the last `Update`. -/
theorem service_map_recomputed {es : List ImportsEvent} {st : ImportsState}
    (h : Runs (importsStep cfg) .new es st)
    (order : RangeOrder ((_ : NamespacedName) × ServiceImportChange)) :
    (∀ k info, (st.spm.Update st.items order).1.lookup k = some info ↔
        ∃ nn si m, st.present.lookup nn = some si ∧
          serviceImportToServiceMap cfg (some si) = some m ∧ m.lookup k = some info) ∧
      (st.spm.Update st.items order).2.1 = ∅ ∧
      ∀ nn, (∃ k, importEntry cfg (st.present.lookup nn) k ≠
          importEntry cfg (st.synced.lookup nn) k) →
        nn ∈ (st.spm.Update st.items order).2.2.updatedServices := by
  have htracked := h.invariant (I := PortsTracked cfg) PortsTracked.step portsTracked_new
  refine ⟨fun k info => ?_, rfl, fun nn ⟨k, hne⟩ => htracked.updated order hne⟩
  rw [htracked.lookup_update, importEntry_eq_some_iff]
  constructor
  · rintro ⟨si, m, hsi, hm, hk⟩
    exact ⟨k.nn, si, m, hsi, hm, hk⟩
  · rintro ⟨nn, si, m, hsi, hm, hk⟩
    have hentry : importEntry cfg (st.present.lookup nn) k = some info :=
      importEntry_eq_some_iff.mpr ⟨si, m, hsi, hm, hk⟩
    obtain rfl := htracked.present.entry (hentry.trans_ne (Option.some_ne_none info))
    exact ⟨si, m, hsi, hm, hk⟩

/-- An import is added, and deleted after an `Update`. -/
theorem service_map_recomputed_deleted :
    ∃ st, Runs (importsStep sampleConfig) .new [.change ⟨"shop", "web"⟩ (some webImport),
        .update .stored, .change ⟨"shop", "web"⟩ none] st ∧
      ⟨"shop", "web"⟩ ∈ (st.spm.Update st.items .stored).2.2.updatedServices := by
  have hrun : Runs (importsStep sampleConfig) .new [.change ⟨"shop", "web"⟩ (some webImport),
      .update .stored, .change ⟨"shop", "web"⟩ none] _ :=
    .cons ⟨rfl, rfl⟩ (.cons ⟨trivial, rfl⟩ (.cons ⟨trivial, rfl⟩ (.nil _)))
  refine ⟨_, hrun, (service_map_recomputed hrun .stored).2.2 _ ⟨⟨⟨"shop", "web"⟩, "0", .tcp⟩, ?_⟩⟩
  decide

end Fleetboard.Proxy

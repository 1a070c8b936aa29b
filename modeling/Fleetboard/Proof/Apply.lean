import Fleetboard.Model.Apply

/-!
# What the create-or-update helpers store

The helpers compare whole objects, through the JSON patch between them, and copy a
list of fields. The two agree but for one field each: `IsHub` of a peer and the labels
of a slice are compared and not copied.

* `needResync_of_differs`: a difference in a field that is not ignored asks for an update;
* `peer_result_iff`, `slice_result_iff`: what an attempt makes of the object that it found
  is what was asked for, unless the found object differs in that one field;
* `apply_stores_iff`: the same for whole runs with other clients;
* `ApplyEndPointSliceWithRetry_quiet`: without other clients the helper is the one that
  the controllers' models use.
-/

namespace Fleetboard.Apply

open Fleetboard.Upsert Fleetboard.Mcs Fleetboard.Tunnel

/-! ## Patches -/

/-- A field of an object's JSON text. -/
structure Field (α : Type) where
  path : String
  same : α → α → Bool

/-- The path of a field or of something in it. -/
def Under (path p : String) : Prop := p = path ∨ (path ++ "/").toList <+: p.toList

/-- The operations of a patch are at the fields that differ. -/
def Reports {α : Type} (createPatch : CreatePatch α)
    (fields : List (Field α)) : Prop :=
  ∀ cur desired, ∃ ops, createPatch cur desired = some ops ∧ ∀ f ∈ fields,
    (∃ op ∈ ops, Under f.path op.path ∧ op.operation ∈ [.add, .remove, .replace]) ↔
      f.same cur desired = false

/-- No ignored path is in the field, and the field is in no ignored section. -/
def Regarded (path : String) : Prop :=
  (∀ i ∈ fieldsToBeIgnored, ¬ path.toList <+: i.toList) ∧
    ∀ s ∈ sectionToBeIgnored, ¬ s.toList <+: path.toList ∧ ¬ path.toList <+: s.toList

instance (path : String) : Decidable (Regarded path) := inferInstanceAs (Decidable (_ ∧ _))

theorem Under.isPrefix {path p : String} (h : Under path p) : path.toList <+: p.toList := by
  rcases h with rfl | h
  · exact List.prefix_refl _
  · rw [String.toList_append] at h
    exact (List.prefix_append _ _).trans h

theorem not_ignored {path : String} (hpath : Regarded path) {op : JsonPatchOperation}
    (hunder : Under path op.path) : shouldPatchBeIgnored op = false := by
  have hprefix := hunder.isPrefix
  unfold shouldPatchBeIgnored
  rw [decide_eq_false_iff_not]
  rintro (hfield | ⟨s, hs, hsection⟩)
  · exact hpath.1 _ hfield hprefix
  · obtain ⟨hns, hnp⟩ := hpath.2 s hs
    rcases List.prefix_or_prefix_of_prefix (List.isPrefixOf_iff_prefix.mp hsection) hprefix with h | h
    · exact hns h
    · exact hnp h

theorem needResync_of_differs {α : Type} {createPatch : CreatePatch α}
    {fields : List (Field α)} (hreports : Reports createPatch fields)
    (hfields : ∀ f ∈ fields, Regarded f.path) {cur desired : α} {f : Field α} (hf : f ∈ fields)
    (hdiff : f.same cur desired = false) :
    ResourceNeedResync (createPatch cur desired) false = true := by
  obtain ⟨ops, hops, hat⟩ := hreports cur desired
  obtain ⟨op, hop, hunder, hkind⟩ := (hat f hf).mpr hdiff
  rw [hops]
  refine List.any_eq_true.mpr ⟨op, hop, ?_⟩
  rw [not_ignored (hfields f hf) hunder]
  simp only [List.mem_cons, List.not_mem_nil, or_false] at hkind
  rcases hkind with h | h | h
  · rw [h]; rfl
  · rw [h]; rfl
  · rw [h]; rfl

/-- When no update is asked for, all fields are the same. -/
theorem same_of_not_needResync {α : Type}
    {createPatch : CreatePatch α} {fields : List (Field α)}
    (hreports : Reports createPatch fields) (hfields : ∀ f ∈ fields, Regarded f.path)
    {cur desired : α} (hneed : ResourceNeedResync (createPatch cur desired) false ≠ true) :
    ∀ f ∈ fields, f.same cur desired = true := by
  intro f hf
  by_contra hdiff
  exact hneed (needResync_of_differs hreports hfields hf (Bool.eq_false_of_not_eq_true hdiff))

/-! ## Peers -/

def peerFields : List (Field Peer) :=
  [⟨"/spec/cluster_id", fun a b => a.spec.clusterID = b.spec.clusterID⟩,
    ⟨"/spec/cluster_cidr", fun a b => a.spec.podCIDR = b.spec.podCIDR⟩,
    ⟨"/spec/endpoint", fun a b => a.spec.endpoint = b.spec.endpoint⟩,
    ⟨"/spec/port", fun a b => a.spec.port = b.spec.port⟩,
    ⟨"/spec/public_key", fun a b => a.spec.publicKey = b.spec.publicKey⟩,
    ⟨"/spec/ishub", fun a b => a.spec.isHub = b.spec.isHub⟩,
    ⟨"/spec/isPublic", fun a b => a.spec.isPublic = b.spec.isPublic⟩]

theorem peerFields_regarded : ∀ f ∈ peerFields, Regarded f.path := by decide

theorem spec_eq_of_same {a b : Peer} (h : ∀ f ∈ peerFields, f.same a b = true) :
    a.spec = b.spec := by
  simp only [peerFields, List.forall_mem_cons, decide_eq_true_eq] at h
  obtain ⟨hid, hcidr, hendpoint, hport, hkey, hhub, hpublic, -⟩ := h
  obtain ⟨_, _, sa⟩ := a
  obtain ⟨_, _, sb⟩ := b
  cases sa
  cases sb
  simp only at hid hcidr hendpoint hport hkey hhub hpublic
  subst hid hcidr hendpoint hport hkey hhub hpublic
  rfl

/-- What is made of a found peer has the desired spec when the found peer has the
desired `IsHub`. -/
theorem peer_result_iff {createPatch : CreatePatch Peer}
    (hreports : Reports createPatch peerFields) (peer : Peer) (found : Option Peer) :
    ((peerHelper createPatch).result peer found).spec = peer.spec ↔
      ∀ cur, found = some cur → cur.spec.isHub = peer.spec.isHub := by
  cases found with
  | none =>
    constructor
    · intro _ cur h
      cases h
    · intro _
      rfl
  | some cur =>
    have hall : (∀ cur', some cur = some cur' → cur'.spec.isHub = peer.spec.isHub) ↔
        cur.spec.isHub = peer.spec.isHub :=
      ⟨fun h => h cur rfl, fun h cur' heq => Option.some.inj heq ▸ h⟩
    rw [hall]
    show (if ResourceNeedResync (createPatch cur peer) false = true then
      (peerHelper createPatch).copy cur peer else cur).spec = peer.spec ↔ _
    split
    · obtain ⟨_, _, sc⟩ := cur
      obtain ⟨_, _, sp⟩ := peer
      cases sc
      cases sp
      simp [peerHelper]
    · rename_i hneed
      have hspec := spec_eq_of_same (same_of_not_needResync hreports peerFields_regarded hneed)
      exact ⟨fun h => congrArg PeerSpec.isHub h, fun _ => hspec⟩

/-! ## Slices -/

def sliceFields : List (Field EndpointSlice) :=
  [⟨"/metadata/labels", fun a b => GoMap.deepEqual a.labels b.labels⟩,
    ⟨"/addressType", fun a b => a.addressType = b.addressType⟩,
    ⟨"/endpoints", fun a b => a.endpoints = b.endpoints⟩,
    ⟨"/ports", fun a b => a.ports = b.ports⟩]

theorem sliceFields_regarded : ∀ f ∈ sliceFields, Regarded f.path := by decide

/-- The slices are equal in labels, endpoints, ports and address type. -/
def SameSlice (a b : EndpointSlice) : Prop := ∀ f ∈ sliceFields, f.same a b = true

theorem sameSlice_iff {a b : EndpointSlice} :
    SameSlice a b ↔ GoMap.deepEqual a.labels b.labels = true ∧ a.addressType = b.addressType ∧
      a.endpoints = b.endpoints ∧ a.ports = b.ports := by
  simp [SameSlice, sliceFields]

/-- What is made of a found slice is the desired one when the found slice has the
desired labels. -/
theorem slice_result_iff {createPatch : CreatePatch EndpointSlice}
    (hreports : Reports createPatch sliceFields) (slice : EndpointSlice)
    (found : Option EndpointSlice) :
    SameSlice ((sliceHelper createPatch).result slice found) slice ↔
      ∀ cur, found = some cur → GoMap.deepEqual cur.labels slice.labels = true := by
  cases found with
  | none =>
    constructor
    · intro _ cur h
      cases h
    · intro _
      exact sameSlice_iff.mpr ⟨GoMap.deepEqual_iff.mpr fun _ => rfl, rfl, rfl, rfl⟩
  | some cur =>
    have hall : (∀ cur', some cur = some cur' → GoMap.deepEqual cur'.labels slice.labels = true) ↔
        GoMap.deepEqual cur.labels slice.labels = true :=
      ⟨fun h => h cur rfl, fun h cur' heq => Option.some.inj heq ▸ h⟩
    rw [hall]
    by_cases hneed : ResourceNeedResync (createPatch cur slice) false = true
    · have hresult : (sliceHelper createPatch).result slice (some cur) =
          (sliceHelper createPatch).copy cur slice := if_pos hneed
      rw [hresult, sameSlice_iff]
      exact ⟨fun h => h.1, fun h => ⟨h, rfl, rfl, rfl⟩⟩
    · have hresult : (sliceHelper createPatch).result slice (some cur) = cur := if_neg hneed
      rw [hresult]
      exact ⟨fun h => (sameSlice_iff.mp h).1,
        fun _ => same_of_not_needResync hreports sliceFields_regarded hneed⟩

/-! ## Runs -/

/-- The run stored the desired peer. -/
def StoresPeer (c : Cell Peer) (peer : Peer) : Prop :=
  ∃ stored, c.object = some stored ∧ stored.spec = peer.spec

def StoresSlice (c : Cell EndpointSlice) (slice : EndpointSlice) : Prop :=
  ∃ stored, c.object = some stored ∧ SameSlice stored slice

/-- When a helper returns nil, what was asked for is stored, unless its last attempt
found a peer with another `IsHub`, or a slice with other labels. -/
theorem apply_stores_iff {patchPeer : CreatePatch Peer}
    {patchSlice : CreatePatch EndpointSlice}
    (hpeer : Reports patchPeer peerFields) (hslice : Reports patchSlice sliceFields) :
    (∀ peer attempts c c', ApplyPeerWithRetry patchPeer peer attempts c = (c', none) →
      (StoresPeer c' peer ↔
        ∀ cur, (peerHelper patchPeer).lastFound apiErrors peer attempts c = some cur →
          cur.spec.isHub = peer.spec.isHub)) ∧
    ∀ slice attempts c c', ApplyEndPointSliceWithRetry patchSlice slice attempts c = (c', none) →
      (StoresSlice c' slice ↔
        ∀ cur, (sliceHelper patchSlice).lastFound apiErrors slice attempts c = some cur →
          GoMap.deepEqual cur.labels slice.labels = true) := by
  constructor
  · intro peer attempts c c' h
    have hstored := Helper.run_stores h
    rw [← peer_result_iff hpeer]
    unfold StoresPeer
    rw [hstored]
    simp only [Option.some.injEq, exists_eq_left']
  · intro slice attempts c c' h
    have hstored := Helper.run_stores h
    rw [← slice_result_iff hslice]
    unfold StoresSlice
    rw [hstored]
    simp only [Option.some.injEq, exists_eq_left']

/-- A patch that replaces each field that differs. -/
def fieldPatch {α : Type} (fields : List (Field α)) (cur desired : α) :
    Option (List JsonPatchOperation) :=
  some ((fields.filter fun f => !f.same cur desired).map fun f => ⟨.replace, f.path⟩)

theorem reports_fieldPatch {α : Type} {fields : List (Field α)}
    (hnodup : (fields.map Field.path).Nodup)
    (hunder : ∀ p ∈ fields.map Field.path, ∀ q ∈ fields.map Field.path, Under p q → p = q) :
    Reports (fieldPatch fields) fields := by
  intro cur desired
  refine ⟨_, rfl, fun f hf => ⟨?_, fun hdiff => ?_⟩⟩
  · rintro ⟨op, hop, hat, -⟩
    obtain ⟨g, hg, rfl⟩ := List.mem_map.mp hop
    obtain ⟨hg, hdiff⟩ := List.mem_filter.mp hg
    have hpath := hunder _ (List.mem_map_of_mem hf) _ (List.mem_map_of_mem hg) hat
    rw [List.inj_on_of_nodup_map hnodup hf hg hpath]
    exact Bool.not_inj (hdiff.trans rfl)
  · refine ⟨⟨.replace, f.path⟩, List.mem_map.mpr ⟨f, ?_, rfl⟩, .inl rfl, ?_⟩
    · exact List.mem_filter.mpr ⟨hf, by rw [hdiff]; rfl⟩
    · show PatchKind.replace ∈ [PatchKind.add, .remove, .replace]
      decide

instance (path p : String) : Decidable (Under path p) := inferInstanceAs (Decidable (_ ∨ _))

/-- Peers of one cluster at two endpoints. -/
def samplePeer (endpoint : String) (isHub : Bool) : Peer :=
  ⟨"cluster1", false, ⟨"cluster1", ["10.16.0.0/16"], endpoint, 31820, "key", isHub, true⟩⟩

/-- Slices with one label and one port. -/
def sampleSlice (label : String) (port : Int) : EndpointSlice :=
  ⟨"fleetboard-system", "web", (∅ : GoMap String String).insert "service" label, .ipv4, [],
    [⟨some "http", some .tcp, some port, none⟩]⟩

/-- An attempt without failures, with the writes of others before the calls. -/
def sampleAttempt {α : Type} (others : List (Option α)) : Attempt α ApiError :=
  ⟨⟨[], none⟩, ⟨[], none⟩, ⟨others, none⟩⟩

/-- Runs that update what is stored: of the slice after a conflict with another
client, which deletes it and stores it again. -/
theorem apply_stores_sample :
    (∃ c', ApplyPeerWithRetry (fieldPatch peerFields) (samplePeer "10.0.0.2" true)
        [sampleAttempt []] ⟨some (samplePeer "10.0.0.1" true), 7⟩ = (c', none) ∧
      StoresPeer c' (samplePeer "10.0.0.2" true)) ∧
    ∃ c', ApplyEndPointSliceWithRetry (fieldPatch sliceFields) (sampleSlice "web" 80)
        [sampleAttempt [none, some (sampleSlice "web" 8080)], sampleAttempt []]
        ⟨some (sampleSlice "web" 443), 7⟩ = (c', none) ∧
      StoresSlice c' (sampleSlice "web" 80) := by
  have hpeer : Reports (fieldPatch peerFields) peerFields :=
    reports_fieldPatch (by decide) (by decide)
  have hslice : Reports (fieldPatch sliceFields) sliceFields :=
    reports_fieldPatch (by decide) (by decide)
  obtain ⟨hstoresPeer, hstoresSlice⟩ := apply_stores_iff hpeer hslice
  constructor
  · refine ⟨_, rfl, (hstoresPeer _ [sampleAttempt []] ⟨some (samplePeer "10.0.0.1" true), 7⟩ _
      rfl).mpr fun cur h => ?_⟩
    cases h
    rfl
  · refine ⟨_, rfl, (hstoresSlice _ [sampleAttempt [none, some (sampleSlice "web" 8080)],
      sampleAttempt []] ⟨some (sampleSlice "web" 443), 7⟩ _ rfl).mpr fun cur h => ?_⟩
    cases h
    decide

/-- A peer that becomes a hub, and a slice that gets another label: the updates succeed
and store neither. -/
theorem apply_drops_fields :
    (∃ c' stored, ApplyPeerWithRetry (fieldPatch peerFields) (samplePeer "10.0.0.1" true)
        [sampleAttempt []] ⟨some (samplePeer "10.0.0.1" false), 7⟩ = (c', none) ∧
      c'.object = some stored ∧ stored.spec.isHub = false) ∧
    ∃ c' stored, ApplyEndPointSliceWithRetry (fieldPatch sliceFields) (sampleSlice "web" 80)
        [sampleAttempt []] ⟨some (sampleSlice "api" 80), 7⟩ = (c', none) ∧
      c'.object = some stored ∧ stored.labels.lookup "service" = some "api" :=
  ⟨⟨_, _, rfl, rfl, rfl⟩, ⟨_, _, rfl, rfl, rfl⟩⟩

/-! ## Without other clients -/

/-- The calls of an attempt that nobody else interferes with. -/
def quiet (env : SliceApplyEnv) : Attempt EndpointSlice ApiError :=
  ⟨⟨[], env.createErr⟩, ⟨[], env.getErr⟩, ⟨[], env.updateErr⟩⟩

/-- How the models of the controllers see the end of an attempt. -/
def outcomeOf : Option ApiError → Outcome ApiError
  | none => .done
  | some e => if e = .conflict then .again e else .failed e

section

variable (createPatch : CreatePatch EndpointSlice)

/-- The two ends of an attempt that finds the name taken. -/
theorem resync_quiet {slices : GoMap String EndpointSlice} {slice : EndpointSlice}
    {env : SliceApplyEnv} {c : Cell EndpointSlice} (hc : c.object = slices.lookup slice.name)
    (hcreate : (quiet env).create.run (Cell.create apiErrors slice) c = (c, some .alreadyExists)) :
    ((sliceHelper createPatch).attempt apiErrors slice (quiet env) c).2 =
        outcomeOf (resyncEndPointSlice createPatch slices slice env).2 ∧
      ((sliceHelper createPatch).attempt apiErrors slice (quiet env) c).1.object =
        (resyncEndPointSlice createPatch slices slice env).1.lookup slice.name := by
  obtain ⟨createErr, getErr, updateErr⟩ := env
  obtain ⟨object, version⟩ := c
  change object = slices.lookup slice.name at hc
  subst hc
  rw [Helper.attempt, hcreate, resyncEndPointSlice, SliceApplyEnv.get]
  cases getErr with
  | some e =>
    simp [Helper.fail, sliceHelper, quiet, Cell.writes, apiErrors, outcomeOf]
  | none =>
    cases hobject : slices.lookup slice.name with
    | none => simp [Helper.fail, sliceHelper, quiet, Cell.writes, apiErrors, outcomeOf, hobject]
    | some cur =>
      by_cases hneed : ResourceNeedResync (createPatch cur slice) false = true
      · cases updateErr with
        | some e =>
          simp [Helper.resync, Helper.fail, sliceHelper, quiet, Call.run, Cell.writes, apiErrors,
            hobject, hneed, outcomeOf]
        | none =>
          simp [Helper.resync, sliceHelper, quiet, Call.run, Cell.update, Cell.writes, Cell.write,
            apiErrors, hneed, outcomeOf]
      · simp [Helper.resync, sliceHelper, quiet, Cell.writes, apiErrors, hobject, hneed, outcomeOf]

theorem applyEndPointSlice_create_failed {slices : GoMap String EndpointSlice} {slice : EndpointSlice}
    {env : SliceApplyEnv} {e : ApiError} (h : env.create slices slice = some e)
    (he : e ≠ .alreadyExists) :
    applyEndPointSlice createPatch slices slice env = (slices, some e) := by
  rw [applyEndPointSlice, h]
  cases e with
  | alreadyExists => exact absurd rfl he
  | notFound | conflict | other => rfl

theorem attempt_quiet {slices : GoMap String EndpointSlice} {slice : EndpointSlice}
    {env : SliceApplyEnv} {c : Cell EndpointSlice} (hc : c.object = slices.lookup slice.name) :
    ((sliceHelper createPatch).attempt apiErrors slice (quiet env) c).2 =
        outcomeOf (applyEndPointSlice createPatch slices slice env).2 ∧
      ((sliceHelper createPatch).attempt apiErrors slice (quiet env) c).1.object =
        (applyEndPointSlice createPatch slices slice env).1.lookup slice.name := by
  have htaken := @resync_quiet createPatch slices slice env c hc
  obtain ⟨createErr, getErr, updateErr⟩ := env
  obtain ⟨object, version⟩ := c
  change object = slices.lookup slice.name at hc
  subst hc
  cases createErr with
  | some e =>
    by_cases he : e = .alreadyExists
    · subst he
      exact htaken rfl
    · rw [applyEndPointSlice_create_failed createPatch rfl he]
      simp [Helper.attempt, Helper.fail, sliceHelper, quiet, Call.run, Cell.writes, apiErrors,
        outcomeOf, he]
  | none =>
    cases hobject : slices.lookup slice.name with
    | none =>
      simp [Helper.attempt, applyEndPointSlice, SliceApplyEnv.create, quiet, Call.run, Cell.create,
        Cell.writes, hobject, Cell.write, outcomeOf]
    | some cur =>
      rw [hobject] at htaken
      rw [applyEndPointSlice, SliceApplyEnv.create, hobject]
      exact htaken rfl

/-- Without other clients, the helper is the one of the controllers' models. -/
theorem ApplyEndPointSliceWithRetry_quiet {slices : GoMap String EndpointSlice}
    {slice : EndpointSlice} {attempts : List SliceApplyEnv} {c : Cell EndpointSlice}
    (hc : c.object = slices.lookup slice.name) :
    (ApplyEndPointSliceWithRetry createPatch slice (attempts.map quiet) c).2 =
        (Mcs.ApplyEndPointSliceWithRetry createPatch slices slice attempts).2 ∧
      (ApplyEndPointSliceWithRetry createPatch slice (attempts.map quiet) c).1.object =
        (Mcs.ApplyEndPointSliceWithRetry createPatch slices slice attempts).1.lookup slice.name := by
  induction attempts generalizing slices c with
  | nil => exact ⟨rfl, hc⟩
  | cons env attempts ih =>
    obtain ⟨houtcome, hobject⟩ := attempt_quiet createPatch hc
    unfold ApplyEndPointSliceWithRetry at ih ⊢
    rw [List.map_cons, Helper.run, Mcs.ApplyEndPointSliceWithRetry]
    cases hattempt : (sliceHelper createPatch).attempt apiErrors slice (quiet env) c with
    | mk c₁ outcome =>
      cases happly : applyEndPointSlice createPatch slices slice env with
      | mk slices₁ err =>
        rw [hattempt, happly] at houtcome hobject
        change outcome = outcomeOf err at houtcome
        subst houtcome
        cases err with
        | none => exact ⟨rfl, hobject⟩
        | some e =>
          cases e with
          | conflict =>
            simp only [outcomeOf, if_pos, List.map_eq_nil_iff]
            by_cases hlast : attempts = []
            · rw [if_pos hlast, if_pos hlast]
              exact ⟨rfl, hobject⟩
            · rw [if_neg hlast, if_neg hlast]
              exact ih hobject
          | notFound => exact ⟨rfl, hobject⟩
          | alreadyExists => exact ⟨rfl, hobject⟩
          | other text => exact ⟨rfl, hobject⟩

end

end Fleetboard.Apply

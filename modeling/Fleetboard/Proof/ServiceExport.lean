import Fleetboard.Model.ServiceExport
import Fleetboard.Proof.SliceSync

/-!
# Exports of different services in the hub

Two exports use different names and labels in the hub, and leave each other's
slices alone, exactly when neither cluster and namespace, joined by dashes, is
the beginning of the other's in a way that a slice name can complete
(`exports_independent_iff`). A dash may stand inside a cluster or a namespace, so
the joined texts do not determine them.
-/

namespace Fleetboard.Mcs

/-! ## Names of the API -/

/-- A character of `[a-z0-9]`. -/
def IsAlnum (c : Char) : Prop := c.isLower ∨ c.isDigit

instance (c : Char) : Decidable (IsAlnum c) := inferInstanceAs (Decidable (_ ∨ _))

/-- A text that matches `[a-z0-9]([-a-z0-9]*[a-z0-9])?`. -/
def LabelShape (l : List Char) : Prop :=
  l ≠ [] ∧ (∀ c ∈ l, IsAlnum c ∨ c = '-') ∧ (∀ c ∈ l.head?, IsAlnum c) ∧ ∀ c ∈ l.getLast?, IsAlnum c

-- Without this instance the quantifier is decided over all characters.
instance (l : List Char) : Decidable (∀ c ∈ l, IsAlnum c ∨ c = '-') := List.decidableBAll _ l

instance (o : Option Char) : Decidable (∀ c ∈ o, IsAlnum c) :=
  decidable_of_iff (o.all fun c => decide (IsAlnum c)) (by cases o <;> simp)

instance (l : List Char) : Decidable (LabelShape l) := inferInstanceAs (Decidable (_ ∧ _))

def IsDNS1123Label (s : String) : Prop := LabelShape s.toList ∧ s.toList.length ≤ 63

instance (s : String) : Decidable (IsDNS1123Label s) := inferInstanceAs (Decidable (_ ∧ _))

def IsDNS1035Label (s : String) : Prop :=
  LabelShape s.toList ∧ (∀ c ∈ s.toList.head?, c.isLower) ∧ s.toList.length ≤ 63

instance decidableAllLower (o : Option Char) : Decidable (∀ c ∈ o, c.isLower) :=
  decidable_of_iff (o.all fun c => c.isLower) (by cases o <;> simp)

instance (s : String) : Decidable (IsDNS1035Label s) := inferInstanceAs (Decidable (_ ∧ _))

/-- Labels joined by dots, at most 253 characters. -/
def IsDNS1123Subdomain (s : String) : Prop :=
  (∀ part ∈ s.toList.splitOn '.', LabelShape part) ∧ s.toList.length ≤ 253

theorem IsDNS1123Subdomain.head {s : String} (h : IsDNS1123Subdomain s) :
    ∀ c ∈ s.toList.head?, IsAlnum c := by
  obtain ⟨hparts, -⟩ := h
  intro c hc
  cases hl : s.toList with
  | nil =>
    rw [hl] at hc
    cases hc
  | cons a l =>
    rw [hl] at hc hparts
    obtain rfl : a = c := Option.some_inj.mp hc
    rw [List.splitOn, List.splitOnP_cons_eq_if_modifyHead] at hparts
    split at hparts
    · exact absurd rfl (hparts [] List.mem_cons_self).1
    · cases hs : l.splitOnP (· == '.') with
      | nil => exact absurd hs (List.splitOnP_ne_nil _ l)
      | cons part parts =>
        rw [hs, List.modifyHead_cons] at hparts
        exact (hparts (a :: part) List.mem_cons_self).2.2.1 a rfl

theorem isDNS1123Subdomain_of_label {s : String} (h : LabelShape s.toList)
    (hlen : s.toList.length ≤ 253) : IsDNS1123Subdomain s := by
  have hdot : ∀ c ∈ s.toList, (c == '.') = false := by
    intro c hc
    rw [beq_eq_false_iff_ne]
    rintro rfl
    exact absurd (h.2.1 _ hc) (by decide)
  refine ⟨fun part hpart => ?_, hlen⟩
  rw [List.splitOn, List.splitOnP_eq_singleton hdot, List.mem_singleton] at hpart
  rwa [hpart]

/-! ## What an export writes to -/

/-- The local slices that an export copies. -/
def ServiceExportController.slicesOf (c : ServiceExportController) (key : NamespacedName) :
    List EndpointSlice :=
  c.endpointSlicesLister.filter fun slice => slice.ns = key.ns ∧
    matchesLabels [(Known.DiscoveryServiceName, key.name),
      (Known.DiscoveryManagedBy, Known.LabelValueManagedBy)] slice.labels

section

variable (createPatch : CreatePatch EndpointSlice)

theorem syncSlices_frame {c : ServiceExportController} {se : ServiceExport} (env : ExportEnv)
    {k : String} {es : EndpointSlice} (hk : c.hub.lookup k = some es)
    (hlabel : es.labels.lookup Known.DiscoveryServiceName ≠
      some (DerivedName c.localClusterID se.ns se.name))
    (hname : ∀ slice ∈ c.slicesOf ⟨se.ns, se.name⟩, k ≠ hubName c.localClusterID se.ns slice.name) :
    (c.syncSlices createPatch se env).1.hub.lookup k = some es := by
  obtain ⟨hkeep, hlist⟩ := RemoveNonexistentEndpointslice_spec c.endpointSlicesLister c.localClusterID
    se.ns [(Known.DiscoveryServiceName, se.name), (Known.DiscoveryManagedBy, Known.LabelValueManagedBy)]
    true env.remove hk ((matchesLabels_single _ _ _).mpr hlabel)
  rw [ServiceExportController.syncSlices]
  split
  · rename_i heq
    rw [heq] at hkeep
    exact hkeep
  · rename_i hub l heq
    rw [heq] at hkeep hlist
    have hnew : ∀ s ∈ l.map fun slice =>
        constructEndpointSlice slice se c.operatorNamespace c.localClusterID, k ≠ s.name := by
      intro s hs
      obtain ⟨slice, hslice, rfl⟩ := List.mem_map.mp hs
      obtain ⟨hmem, hns, hmatch⟩ := hlist l rfl slice hslice
      exact hname slice (List.mem_filter.mpr ⟨hmem, decide_eq_true ⟨hns, hmatch⟩⟩)
    have happly := lookup_applySlices createPatch hnew env.applies hub env.turns
    simp only
    split
    · exact happly.trans hkeep
    · exact happly.trans hkeep

theorem updateExport_key {exports exports' : GoMap NamespacedName ServiceExport}
    {se se' : ServiceExport} {err : Option Error}
    (h : updateExport exports se err = (exports', .ok se')) : se'.ns = se.ns ∧ se'.name = se.name := by
  unfold updateExport at h
  split at h
  · cases h
  · cases h
  · simp only at h
    split at h
    · cases h
      exact ⟨rfl, rfl⟩
    · cases h
      exact ⟨rfl, rfl⟩

/-- `Handle` leaves the hub's slices that have neither its label nor a name of its
slices. -/
theorem Handle_frame {c : ServiceExportController} {key : NamespacedName} (env : ExportEnv)
    {k : String} {es : EndpointSlice} (hk : c.hub.lookup k = some es)
    (hlabel : es.labels.lookup Known.DiscoveryServiceName ≠
      some (DerivedName c.localClusterID key.ns key.name))
    (hname : ∀ slice ∈ c.slicesOf key, k ≠ hubName c.localClusterID key.ns slice.name) :
    (c.Handle createPatch key env).1.hub.lookup k = some es := by
  rw [ServiceExportController.Handle]
  split
  · exact hk
  · exact hk
  · split
    · exact hk
    · exact hk
    · simp only
      split
      · -- The collection of its label is deleted.
        split
        · exact hk
        · have hnot := notMem_matching hk ((matchesLabels_single _ _ _).mpr hlabel)
          have hkeep := (GoMap.lookup_foldl_erase _ c.hub k).trans ((if_neg hnot).trans hk)
          split
          · exact hkeep
          · exact hkeep
      · split
        · exact syncSlices_frame createPatch env hk hlabel hname
        · split
          · exact hk
          · rename_i heq
            obtain ⟨hns, hn⟩ := updateExport_key heq
            refine syncSlices_frame createPatch env hk ?_ ?_
            · rw [hns, hn]
              exact hlabel
            · rw [hns, hn]
              exact hname

end

/-! ## Two exports -/

/-- What identifies an export: the cluster, the namespace and the service. -/
structure ExportID where
  cluster : String
  ns : String
  name : String
  deriving DecidableEq, Repr

namespace ExportID

def key (t : ExportID) : NamespacedName := ⟨t.ns, t.name⟩

def derivedName (t : ExportID) : String := DerivedName t.cluster t.ns t.name

/-- The cluster and the namespace as they begin a name in the hub. -/
def joined (t : ExportID) : List Char := t.cluster.toList ++ '-' :: t.ns.toList ++ ['-']

structure Valid (t : ExportID) : Prop where
  cluster : IsDNS1123Label t.cluster
  ns : IsDNS1123Label t.ns
  name : IsDNS1035Label t.name

/-- Both are of one namespace of one cluster. -/
def SameNamespace (t₁ t₂ : ExportID) : Prop := t₁.cluster = t₂.cluster ∧ t₁.ns = t₂.ns

instance (t₁ t₂ : ExportID) : Decidable (SameNamespace t₁ t₂) := inferInstanceAs (Decidable (_ ∧ _))

end ExportID

/-- `q` is `p`, or `p` followed by a text that starts with a letter or digit. -/
def Continues (p q : List Char) : Prop := ∃ r, q = p ++ r ∧ ∀ c ∈ r.head?, IsAlnum c

instance (p q : List Char) : Decidable (Continues p q) :=
  decidable_of_iff (p <+: q ∧ ∀ c ∈ (q.drop p.length).head?, IsAlnum c) (by
    constructor
    · rintro ⟨⟨r, rfl⟩, h⟩
      exact ⟨r, rfl, by rwa [List.drop_left] at h⟩
    · rintro ⟨r, rfl, h⟩
      exact ⟨List.prefix_append p r, by rwa [List.drop_left]⟩)

/-- The clusters and namespaces are the same, or neither joined text continues the
other. -/
def Distinguished (t₁ t₂ : ExportID) : Prop :=
  ExportID.SameNamespace t₁ t₂ ∨ ¬ Continues t₁.joined t₂.joined ∧ ¬ Continues t₂.joined t₁.joined

instance (t₁ t₂ : ExportID) : Decidable (Distinguished t₁ t₂) := inferInstanceAs (Decidable (_ ∨ _))

theorem toList_hubName (t : ExportID) (x : String) :
    (hubName t.cluster t.ns x).toList = t.joined ++ x.toList := by
  simp [hubName, ExportID.joined, String.toList_append]

theorem length_hashName (seName : String) : (hashName seName).toList.length = 10 := by
  have hlen : (base32Hex (sha256 (stringBytes seName))).length = 52 := by
    rw [length_base32Hex, length_sha256]
  rw [hashName, String.toList_ofList, List.length_take, List.length_map, hlen]
  rfl

theorem derivedName_eq_iff {t₁ t₂ : ExportID} : t₁.derivedName = t₂.derivedName ↔
    t₁.joined = t₂.joined ∧ hashName t₁.name = hashName t₂.name := by
  have hlist : ∀ t : ExportID, t.derivedName.toList =
      "derived-".toList ++ (t.joined ++ (hashName t.name).toList) := by
    intro t
    simp [ExportID.derivedName, DerivedName, ExportID.joined, String.toList_append]
  rw [← String.toList_inj, hlist, hlist, List.append_cancel_left_eq]
  constructor
  · intro h
    obtain ⟨h₁, h₂⟩ := List.append_inj' h (by rw [length_hashName, length_hashName])
    exact ⟨h₁, String.toList_inj.mp h₂⟩
  · rintro ⟨h₁, h₂⟩
    rw [h₁, h₂]

/-- Equal names of two slices in the hub: one of the joined texts continues the
other. -/
theorem continues_of_hubName_eq {t₁ t₂ : ExportID} {x₁ x₂ : String} (h₁ : IsDNS1123Subdomain x₁)
    (h₂ : IsDNS1123Subdomain x₂) (h : hubName t₁.cluster t₁.ns x₁ = hubName t₂.cluster t₂.ns x₂) :
    Continues t₁.joined t₂.joined ∨ Continues t₂.joined t₁.joined := by
  have hlist : t₁.joined ++ x₁.toList = t₂.joined ++ x₂.toList := by
    rw [← toList_hubName, ← toList_hubName, h]
  have hhead : ∀ {x : String} {r l : List Char}, IsDNS1123Subdomain x → x.toList = r ++ l →
      ∀ c ∈ r.head?, IsAlnum c := by
    intro x r l hx hxl c hc
    refine hx.head c ?_
    rw [hxl, List.head?_append, hc]
    rfl
  rcases List.append_eq_append_iff.mp hlist with ⟨r, hr, hx⟩ | ⟨r, hr, hx⟩
  · exact .inl ⟨r, hr, hhead h₁ hx⟩
  · exact .inr ⟨r, hr, hhead h₂ hx⟩

theorem ExportID.Valid.joined_chars {t : ExportID} (h : t.Valid) :
    (∀ c ∈ t.joined, IsAlnum c ∨ c = '-') ∧ t.joined.length ≤ 128 := by
  refine ⟨fun c hc => ?_, ?_⟩
  · simp only [ExportID.joined, List.append_assoc, List.cons_append, List.mem_append, List.mem_cons,
      List.not_mem_nil, or_false] at hc
    rcases hc with hc | rfl | hc | rfl
    · exact h.cluster.1.2.1 c hc
    · exact .inr rfl
    · exact h.ns.1.2.1 c hc
    · exact .inr rfl
  · have h₁ := h.cluster.2
    have h₂ := h.ns.2
    simp only [ExportID.joined, List.length_append, List.length_cons, List.length_nil]
    omega

/-- Where one joined text continues the other, there are slice names with one name
in the hub. -/
theorem hubName_eq_of_continues {t₁ t₂ : ExportID} (h₂ : t₂.Valid)
    (h : Continues t₁.joined t₂.joined) :
    ∃ x₁ x₂, IsDNS1123Subdomain x₁ ∧ IsDNS1123Subdomain x₂ ∧
      hubName t₁.cluster t₁.ns x₁ = hubName t₂.cluster t₂.ns x₂ := by
  obtain ⟨r, hr, hhead⟩ := h
  obtain ⟨hchars, hlen⟩ := h₂.joined_chars
  rw [hr] at hchars hlen
  rw [List.length_append] at hlen
  refine ⟨String.ofList (r ++ ['a']), "a", isDNS1123Subdomain_of_label ?_ ?_,
    isDNS1123Subdomain_of_label (by decide) (by decide), ?_⟩
  · rw [String.toList_ofList]
    refine ⟨by simp, fun c hc => ?_, fun c hc => ?_, fun c hc => ?_⟩
    · rcases List.mem_append.mp hc with hc | hc
      · exact hchars c (List.mem_append_right _ hc)
      · rw [List.mem_singleton.mp hc]
        exact .inl (by decide)
    · cases r with
      | nil =>
        obtain rfl : 'a' = c := Option.some_inj.mp hc
        decide
      | cons a r => exact hhead c hc
    · rw [List.getLast?_append, List.getLast?_singleton, Option.some_or] at hc
      obtain rfl : 'a' = c := Option.some_inj.mp hc
      decide
  · rw [String.toList_ofList, List.length_append, List.length_singleton]
    omega
  · rw [← String.toList_inj, toList_hubName, toList_hubName, hr, String.toList_ofList,
      List.append_assoc]
    rfl

/-- `Handle` of the first export leaves the slices that the second has put into
the hub, for any state of the controller and any outcomes of its calls. -/
def LeavesAlone (createPatch : CreatePatch EndpointSlice)
    (t₁ t₂ : ExportID) : Prop :=
  ∀ (c : ServiceExportController) (env : ExportEnv) (x : String) (es : EndpointSlice),
    c.localClusterID = t₁.cluster → IsDNS1123Subdomain x →
    (∀ slice ∈ c.slicesOf t₁.key, IsDNS1123Subdomain slice.name ∧
      (t₁.SameNamespace t₂ → slice.name ≠ x)) →
    c.hub.lookup (hubName t₂.cluster t₂.ns x) = some es →
    es.labels.lookup Known.DiscoveryServiceName = some t₂.derivedName →
    (c.Handle createPatch t₁.key env).1.hub.lookup (hubName t₂.cluster t₂.ns x) = some es

/-- The exports have different names and labels in the hub and leave each other's
slices alone. -/
structure Independent (createPatch : CreatePatch EndpointSlice)
    (t₁ t₂ : ExportID) : Prop where
  names : ∀ (slice₁ slice₂ : EndpointSlice) (se₁ se₂ : ServiceExport) (hubNs : String),
    se₁.ns = t₁.ns → se₂.ns = t₂.ns →
    IsDNS1123Subdomain slice₁.name → IsDNS1123Subdomain slice₂.name →
    (t₁.SameNamespace t₂ → slice₁.name ≠ slice₂.name) →
    (constructEndpointSlice slice₁ se₁ hubNs t₁.cluster).name ≠
      (constructEndpointSlice slice₂ se₂ hubNs t₂.cluster).name
  labels : t₁.derivedName ≠ t₂.derivedName
  leaves : LeavesAlone createPatch t₁ t₂
  left : LeavesAlone createPatch t₂ t₁

theorem Distinguished.symm {t₁ t₂ : ExportID} (h : Distinguished t₁ t₂) : Distinguished t₂ t₁ :=
  h.imp (fun h => ⟨h.1.symm, h.2.symm⟩) And.symm

/-- Names of slices in the hub differ. -/
theorem Distinguished.hubName_ne {t₁ t₂ : ExportID} (h : Distinguished t₁ t₂) {x₁ x₂ : String}
    (h₁ : IsDNS1123Subdomain x₁) (h₂ : IsDNS1123Subdomain x₂)
    (hx : t₁.SameNamespace t₂ → x₁ ≠ x₂) :
    hubName t₁.cluster t₁.ns x₁ ≠ hubName t₂.cluster t₂.ns x₂ := by
  intro heq
  rcases h with ⟨hc, hn⟩ | ⟨hno, hno'⟩
  · refine hx ⟨hc, hn⟩ ?_
    have hlist := congrArg String.toList heq
    rw [toList_hubName, toList_hubName, ExportID.joined, ExportID.joined, hc, hn,
      List.append_cancel_left_eq] at hlist
    exact String.toList_inj.mp hlist
  · exact (continues_of_hubName_eq h₁ h₂ heq).elim hno hno'

/-- Labels in the hub differ. -/
theorem Distinguished.derivedName_ne {t₁ t₂ : ExportID} (h : Distinguished t₁ t₂) (hne : t₁ ≠ t₂)
    (hhash : hashName t₁.name = hashName t₂.name → t₁.name = t₂.name) :
    t₁.derivedName ≠ t₂.derivedName := by
  intro heq
  obtain ⟨hjoined, hname⟩ := derivedName_eq_iff.mp heq
  rcases h with ⟨hc, hn⟩ | ⟨hno, -⟩
  · apply hne
    obtain ⟨c₁, n₁, s₁⟩ := t₁
    obtain ⟨c₂, n₂, s₂⟩ := t₂
    simp only [ExportID.mk.injEq]
    exact ⟨hc, hn, hhash hname⟩
  · exact hno ⟨[], by rw [hjoined, List.append_nil], fun c hc => by cases hc⟩

theorem Distinguished.leavesAlone (createPatch : CreatePatch EndpointSlice)
    {t₁ t₂ : ExportID} (h : Distinguished t₁ t₂) (hlabel : t₁.derivedName ≠ t₂.derivedName) :
    LeavesAlone createPatch t₁ t₂ := by
  intro c env x es hc hx hslices hk hes
  refine Handle_frame createPatch env hk ?_ fun slice hslice => ?_
  · rw [hes, hc]
    exact fun heq => hlabel (Option.some_inj.mp heq).symm
  · obtain ⟨hvalid, hne⟩ := hslices slice hslice
    rw [hc]
    exact (h.hubName_ne hvalid hx hne).symm

/-- Two exports with valid names, whose services' hashes differ if their names do,
are independent exactly when their clusters and namespaces are the same or neither
of their joined texts continues the other. -/
theorem exports_independent_iff (createPatch : CreatePatch EndpointSlice)
    {t₁ t₂ : ExportID} (h₁ : t₁.Valid) (h₂ : t₂.Valid) (hne : t₁ ≠ t₂)
    (hhash : hashName t₁.name = hashName t₂.name → t₁.name = t₂.name) :
    Independent createPatch t₁ t₂ ↔ Distinguished t₁ t₂ := by
  constructor
  · intro hind
    by_contra hdist
    simp only [Distinguished, not_or, not_and_or, not_not] at hdist
    obtain ⟨hns, hcont⟩ := hdist
    -- A name in the hub that slices of both exports get.
    have hcollide : ∃ x₁ x₂, IsDNS1123Subdomain x₁ ∧ IsDNS1123Subdomain x₂ ∧
        hubName t₁.cluster t₁.ns x₁ = hubName t₂.cluster t₂.ns x₂ := by
      rcases hcont with hcont | hcont
      · exact hubName_eq_of_continues h₂ hcont
      · obtain ⟨x₂, x₁, hx₂, hx₁, heq⟩ := hubName_eq_of_continues h₁ hcont
        exact ⟨x₁, x₂, hx₁, hx₂, heq.symm⟩
    obtain ⟨x₁, x₂, hx₁, hx₂, heq⟩ := hcollide
    exact hind.names ⟨"", x₁, ∅, .ipv4, [], []⟩ ⟨"", x₂, ∅, .ipv4, [], []⟩
      ⟨t₁.ns, "", ∅, [], false⟩ ⟨t₂.ns, "", ∅, [], false⟩ "" rfl rfl hx₁ hx₂
      (fun hsame => absurd hsame hns) heq
  · intro hdist
    have hlabel := hdist.derivedName_ne hne hhash
    refine ⟨fun slice₁ slice₂ se₁ se₂ hubNs hns₁ hns₂ hx₁ hx₂ hx => ?_, hlabel,
      hdist.leavesAlone createPatch hlabel, hdist.symm.leavesAlone createPatch hlabel.symm⟩
    show hubName t₁.cluster se₁.ns slice₁.name ≠ hubName t₂.cluster se₂.ns slice₂.name
    rw [hns₁, hns₂]
    exact hdist.hubName_ne hx₁ hx₂ hx

/-- One service, exported from one namespace by two clusters. -/
theorem exports_independent_two_clusters :
    ExportID.Valid ⟨"c1", "shop", "web"⟩ ∧ ExportID.Valid ⟨"c2", "shop", "web"⟩ ∧
      Independent (fun _ _ => none) ⟨"c1", "shop", "web"⟩ ⟨"c2", "shop", "web"⟩ := by
  have h₁ : ExportID.Valid ⟨"c1", "shop", "web"⟩ := ⟨by decide, by decide, by decide⟩
  have h₂ : ExportID.Valid ⟨"c2", "shop", "web"⟩ := ⟨by decide, by decide, by decide⟩
  exact ⟨h₁, h₂, (exports_independent_iff _ h₁ h₂ (by decide) fun _ => rfl).mpr (by decide)⟩

/-! ## Two clusters with one joined text -/

def webExport (ns : String) (deleted : Bool) : ServiceExport :=
  ⟨ns, "web", ∅, [Known.AppFinalizer], deleted⟩

/-- The cluster `a-b`, whose export of `c/web` is being deleted. The hub has the
slice of the service `b-c/web` of the cluster `a`. -/
def deletingController : ServiceExportController where
  localClusterID := "a-b"
  operatorNamespace := "fleetboard"
  serviceExportLister := (∅ : GoMap NamespacedName ServiceExport).insert ⟨"c", "web"⟩ (webExport "c" true)
  serviceLister := (∅ : GoMap NamespacedName String).insert ⟨"c", "web"⟩ "10.96.0.7"
  endpointSlicesLister := []
  exports := (∅ : GoMap NamespacedName ServiceExport).insert ⟨"c", "web"⟩ (webExport "c" true)
  hub := (∅ : GoMap String EndpointSlice).insert "a-b-c-web-1"
    (constructEndpointSlice ⟨"b-c", "web-1", ∅, .ipv4, [], []⟩ (webExport "b-c" false) "fleetboard" "a")

def noExportErrors : ExportEnv where
  exportGetErr := none
  serviceGetErr := none
  addFinalizerErr := none
  deleteCollectionErr := none
  removeFinalizerErr := none
  remove := ⟨none, .stored, none, fun _ => none⟩
  turns := []
  applies _ := [⟨none, none, none⟩]

/-- Slices of both exports get one name, the exports have one label, and the
deletion of the one export deletes the slice of the other. -/
theorem export_deletes_slice_of_other_cluster :
    ExportID.Valid ⟨"a-b", "c", "web"⟩ ∧ ExportID.Valid ⟨"a", "b-c", "web"⟩ ∧
      hubName "a-b" "c" "web-1" = hubName "a" "b-c" "web-1" ∧
      DerivedName "a-b" "c" "web" = DerivedName "a" "b-c" "web" ∧
      (deletingController.hub.lookup (hubName "a" "b-c" "web-1")).isSome ∧
      (deletingController.Handle (fun _ _ => none) ⟨"c", "web"⟩ noExportErrors).1.hub.lookup
        (hubName "a" "b-c" "web-1") = none ∧
      ¬ Independent (fun _ _ => none) ⟨"a-b", "c", "web"⟩ ⟨"a", "b-c", "web"⟩ := by
  have hlabel : DerivedName "a-b" "c" "web" = DerivedName "a" "b-c" "web" := by decide +kernel
  exact ⟨⟨by decide, by decide, by decide⟩, ⟨by decide, by decide, by decide⟩, by decide, hlabel,
    by decide +kernel, by decide +kernel, fun h => h.labels hlabel⟩

end Fleetboard.Mcs

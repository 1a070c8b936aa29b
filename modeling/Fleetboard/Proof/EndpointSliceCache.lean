import Fleetboard.Model.EndpointSliceCache

/-!
# What the slices of a group contribute

`Contributes cfg info spn str`: the slice behind `info` has an endpoint with the
text `str` for the service port name `spn`. The maps that the cache builds from
the slices of a group have exactly their contributions, in whatever order the
slices are visited:

* `addPort_spec`, `addSlice_spec`, `endpointInfoByServicePort_spec`: port by
  port, slice by slice and for the whole group;
* `getEndpointsMap_spec`: after the empty sets are dropped and the others sorted.
-/

namespace Fleetboard.Proxy

variable {cfg : Config}

/-- The port, the `i`-th of its slice after sorting, is used for the service port
name, with the number `n`. -/
structure UsesPort (nn : NamespacedName) (port : EndpointPort) (i : Nat) (spn : ServicePortName)
    (n : Int) : Prop where
  named : port.name ≠ none
  number : port.port = some n
  number_ne : n ≠ 0
  nn_eq : spn.nn = nn
  port_eq : spn.port = toString i
  protocol_eq : port.protocol = some spn.protocol

/-- One of the endpoints has the text for the port number. -/
def HasEndpoint (cfg : Config) (endpoints : List EndpointInfo) (n : Int) (str : String) : Prop :=
  ∃ e ∈ endpoints, ∃ b, makeEndpoint cfg n e = some b ∧ b.endpoint = str

/-- A slice contributes an endpoint to a service port name. -/
def Contributes (cfg : Config) (info : EndpointSliceInfo) (spn : ServicePortName) (str : String) :
    Prop :=
  ∃ p ∈ info.ports.zipIdx, ∃ n, UsesPort info.nn p.1 p.2 spn n ∧
    HasEndpoint cfg info.endpoints n str

/-- One of the slices contributes it. -/
def GroupHas (cfg : Config) (infos : GoMap String EndpointSliceInfo) (spn : ServicePortName)
    (str : String) : Prop :=
  ∃ name info, infos.lookup name = some info ∧ Contributes cfg info spn str

/-! ## Endpoints by service port -/

/-- Every endpoint is stored under its text. -/
def KeyedByText (set : GoMap String BaseEndpointInfo) : Prop :=
  ∀ str b, set.lookup str = some b → b.endpoint = str

theorem KeyedByText.insert {set : GoMap String BaseEndpointInfo} (h : KeyedByText set)
    (b : BaseEndpointInfo) : KeyedByText (set.insert b.endpoint b) := by
  intro str b' hb'
  rw [GoMap.lookup_insert_eq] at hb'
  by_cases hs : str = b.endpoint
  · rw [if_pos hs] at hb'
    rw [← Option.some_inj.mp hb', hs]
  · rw [if_neg hs] at hb'
    exact h str b' hb'

theorem KeyedByText.lookup_eq_some_iff {set : GoMap String BaseEndpointInfo} (h : KeyedByText set)
    {str : String} {b : BaseEndpointInfo} :
    set.lookup str = some b ↔ b ∈ GoMap.values set ∧ b.endpoint = str := by
  rw [GoMap.mem_values_iff]
  constructor
  · intro hb
    exact ⟨⟨str, hb⟩, h str b hb⟩
  · rintro ⟨⟨str', hb⟩, rfl⟩
    rwa [h str' b hb]

theorem KeyedByText.mem_texts_iff {set : GoMap String BaseEndpointInfo} (h : KeyedByText set)
    (str : String) : str ∈ (GoMap.values set).map (·.endpoint) ↔ set.lookup str ≠ none := by
  rw [List.mem_map, Option.ne_none_iff_exists']
  exact exists_congr fun b => h.lookup_eq_some_iff.symm

/-- One endpoint of a slice. -/
theorem addEndpoint_spec (cfg : Config) (n : Int) {set : GoMap String BaseEndpointInfo}
    (h : KeyedByText set) (e : EndpointInfo) :
    KeyedByText (addEndpoints cfg n set [e]) ∧
      ∀ str, ((addEndpoints cfg n set [e]).lookup str).isSome ↔
        (set.lookup str).isSome ∨ ∃ b, makeEndpoint cfg n e = some b ∧ b.endpoint = str := by
  rw [addEndpoints, List.foldl_cons, List.foldl_nil]
  cases hm : makeEndpoint cfg n e with
  | none => exact ⟨h, fun str => by simp⟩
  | some b =>
    simp only
    by_cases hc : (set.lookup b.endpoint).isNone ∨ b.isLocal
    · rw [if_pos hc]
      refine ⟨h.insert b, fun str => ?_⟩
      rw [GoMap.lookup_insert_eq]
      by_cases hs : str = b.endpoint
      · simp [hs]
      · simp [hs, Ne.symm hs]
    · -- An endpoint with the same text stays.
      rw [if_neg hc]
      refine ⟨h, fun str => ⟨.inl, ?_⟩⟩
      rintro (hs | ⟨b', hb', rfl⟩)
      · exact hs
      · rw [← Option.some_inj.mp hb', Option.isSome_iff_ne_none]
        exact fun hnone => hc (.inl (by rw [hnone]; rfl))

theorem addEndpoints_spec (cfg : Config) (n : Int) {set : GoMap String BaseEndpointInfo}
    (h : KeyedByText set) (endpoints : List EndpointInfo) :
    KeyedByText (addEndpoints cfg n set endpoints) ∧
      ∀ str, ((addEndpoints cfg n set endpoints).lookup str).isSome ↔
        (set.lookup str).isSome ∨ HasEndpoint cfg endpoints n str := by
  induction endpoints generalizing set with
  | nil => exact ⟨h, fun str => by simp [addEndpoints, HasEndpoint]⟩
  | cons e es ih =>
    obtain ⟨h₁, h₂⟩ := addEndpoint_spec cfg n h e
    obtain ⟨ih₁, ih₂⟩ := ih h₁
    have hcons : addEndpoints cfg n set (e :: es) =
        addEndpoints cfg n (addEndpoints cfg n set [e]) es := rfl
    rw [hcons]
    refine ⟨ih₁, fun str => ?_⟩
    rw [ih₂, h₂, or_assoc]
    simp only [HasEndpoint, List.mem_cons, exists_eq_or_imp]

/-- The endpoint of the text is in the map under the service port name. -/
def SpHas (m : SpToEndpointMap) (spn : ServicePortName) (str : String) : Prop :=
  ∃ set, m.lookup spn = some set ∧ (set.lookup str).isSome

def SpKeyed (m : SpToEndpointMap) : Prop := ∀ spn set, m.lookup spn = some set → KeyedByText set

theorem SpKeyed.getD {m : SpToEndpointMap} (h : SpKeyed m) (spn : ServicePortName) :
    KeyedByText ((m.lookup spn).getD ∅) := by
  cases hl : m.lookup spn with
  | none => exact fun str b hb => by cases hb
  | some set => exact h spn set hl

theorem spHas_iff_getD {m : SpToEndpointMap} {spn : ServicePortName} {str : String} :
    SpHas m spn str ↔ (((m.lookup spn).getD ∅).lookup str).isSome := by
  cases hl : m.lookup spn with
  | none => simp [SpHas, hl]
  | some set => simp [SpHas, hl]

/-- A port either is left out or is used for one service port name. -/
theorem addPort_eq {info : EndpointSliceInfo} {m m' : SpToEndpointMap} {port : EndpointPort}
    {i : Nat} (h : addPort cfg info m port i = .ok m') :
    (m' = m ∧ ∀ spn n, ¬ UsesPort info.nn port i spn n) ∨
      ∃ spn n, (∀ spn' n', UsesPort info.nn port i spn' n' ↔ spn' = spn ∧ n' = n) ∧
        m' = m.insert spn (addEndpoints cfg n ((m.lookup spn).getD ∅) info.endpoints) := by
  rw [addPort] at h
  cases hname : port.name with
  | none =>
    simp only [hname] at h
    exact .inl ⟨(Except.ok.inj h).symm, fun spn n hu => hu.named hname⟩
  | some name =>
    cases hport : port.port with
    | none =>
      simp only [hname, hport] at h
      refine .inl ⟨(Except.ok.inj h).symm, fun spn n hu => ?_⟩
      have := hport.symm.trans hu.number
      cases this
    | some n =>
      simp only [hname, hport] at h
      have hn' : ∀ {spn n'}, UsesPort info.nn port i spn n' → n' = n := fun hu =>
        Option.some_inj.mp (hu.number.symm.trans hport)
      by_cases hn : n = 0
      · rw [if_pos hn] at h
        exact .inl ⟨(Except.ok.inj h).symm, fun spn n' hu => hu.number_ne ((hn' hu).trans hn)⟩
      · rw [if_neg hn] at h
        obtain ⟨protocol, hp, h⟩ := Go.bind_eq_ok.mp h
        have hproto : port.protocol = some protocol := by
          cases hpp : port.protocol with
          | none => rw [hpp] at hp; cases hp
          | some p => rw [hpp] at hp; rw [Except.ok.inj hp]
        refine .inr ⟨⟨info.nn, toString i, protocol⟩, n, fun spn' n' => ⟨fun hu => ?_, ?_⟩,
          (Except.ok.inj h).symm⟩
        · have hpr : spn'.protocol = protocol :=
            Option.some_inj.mp (hu.protocol_eq.symm.trans hproto)
          refine ⟨?_, hn' hu⟩
          rw [← hu.nn_eq, ← hu.port_eq, ← hpr]
        · rintro ⟨rfl, rfl⟩
          exact ⟨by simp [hname], hport, hn, rfl, rfl, hproto⟩

theorem addPort_spec {info : EndpointSliceInfo} {m m' : SpToEndpointMap} {port : EndpointPort}
    {i : Nat} (h : addPort cfg info m port i = .ok m') (hm : SpKeyed m) :
    SpKeyed m' ∧ ∀ spn str, SpHas m' spn str ↔ SpHas m spn str ∨
      ∃ n, UsesPort info.nn port i spn n ∧ HasEndpoint cfg info.endpoints n str := by
  rcases addPort_eq h with ⟨rfl, hno⟩ | ⟨spn, n, hu, rfl⟩
  · exact ⟨hm, fun spn str => by simp [hno]⟩
  · obtain ⟨hkeyed, hsome⟩ := addEndpoints_spec cfg n (hm.getD spn) info.endpoints
    refine ⟨fun spn' set hset => ?_, fun spn' str => ?_⟩
    · rw [GoMap.lookup_insert_eq] at hset
      by_cases hs : spn' = spn
      · rw [if_pos hs] at hset
        rw [← Option.some_inj.mp hset]
        exact hkeyed
      · rw [if_neg hs] at hset
        exact hm spn' set hset
    · by_cases hs : spn' = spn
      · subst hs
        rw [spHas_iff_getD, GoMap.lookup_insert_eq, if_pos rfl, Option.getD_some, hsome,
          spHas_iff_getD]
        simp [hu]
      · rw [spHas_iff_getD, GoMap.lookup_insert_eq, if_neg hs, ← spHas_iff_getD]
        simp [hu, hs]

theorem addSlice_spec {info : EndpointSliceInfo} {m m' : SpToEndpointMap}
    (h : addSlice cfg m info = .ok m') (hm : SpKeyed m) :
    SpKeyed m' ∧ ∀ spn str, SpHas m' spn str ↔ SpHas m spn str ∨ Contributes cfg info spn str := by
  rw [addSlice] at h
  obtain ⟨hk, hs⟩ := Go.foldlM_accumulates (fun m (x : ServicePortName × String) => SpHas m x.1 x.2)
    (fun p x => ∃ n, UsesPort info.nn p.1 p.2 x.1 n ∧ HasEndpoint cfg info.endpoints n x.2) h hm
    fun _ _ _ h hm => ⟨(addPort_spec h hm).1, fun x => (addPort_spec h hm).2 x.1 x.2⟩
  exact ⟨hk, fun spn str => hs (spn, str)⟩

theorem endpointInfoByServicePort_spec {order : RangeOrder ((_ : String) × EndpointSliceInfo)}
    {infos : GoMap String EndpointSliceInfo} {m : SpToEndpointMap}
    (h : endpointInfoByServicePort cfg order infos = .ok m) :
    SpKeyed m ∧ ∀ spn str, SpHas m spn str ↔ GroupHas cfg infos spn str := by
  have hempty : SpKeyed ∅ := fun spn set hset => by cases hset
  rw [endpointInfoByServicePort] at h
  obtain ⟨hk, hs⟩ := Go.foldlM_accumulates (fun m (x : ServicePortName × String) => SpHas m x.1 x.2)
    (fun e x => Contributes cfg e.2 x.1 x.2) h hempty
    fun _ _ _ h hm => ⟨(addSlice_spec h hm).1, fun x => (addSlice_spec h hm).2 x.1 x.2⟩
  refine ⟨hk, fun spn str => ?_⟩
  have hno : ¬ SpHas ∅ spn str := fun ⟨set, hset, _⟩ => by cases hset
  rw [hs (spn, str), or_iff_right hno]
  constructor
  · rintro ⟨⟨name, info⟩, he, hc⟩
    exact ⟨name, info, GoMap.mem_entries_iff.mp (order.mem_visit.mp he), hc⟩
  · rintro ⟨name, info, hl, hc⟩
    exact ⟨⟨name, info⟩, order.mem_visit.mpr (GoMap.mem_entries_iff.mpr hl), hc⟩

/-! ## The endpoints map of a group -/

/-- The endpoint of the text is in the endpoints map under the service port name. -/
def EpHas (em : EndpointsMap) (spn : ServicePortName) (str : String) : Prop :=
  ∃ eps, em.lookup spn = some eps ∧ ∃ e ∈ eps, e.endpoint = str

/-- No service port name has an empty list of endpoints. -/
def NoEmptyList (em : EndpointsMap) : Prop := ∀ spn eps, em.lookup spn = some eps → eps ≠ []

/-- Writing the sets that are not empty, entry by entry. -/
theorem lookup_foldl_endpointsMap {es : List ((_ : ServicePortName) × GoMap String BaseEndpointInfo)}
    (hes : es.NodupKeys) (em : EndpointsMap) (spn : ServicePortName) :
    (es.foldl (fun em e => if e.2.entries = [] then em
      else em.insert e.1 (cfg.byEndpoint.run (GoMap.values e.2))) em).lookup spn =
    match es.dlookup spn with
    | some set => if set.entries = [] then em.lookup spn
      else some (cfg.byEndpoint.run (GoMap.values set))
    | none => em.lookup spn := by
  induction es generalizing em with
  | nil => rfl
  | cons e es ih =>
    obtain ⟨hnot, hnodup⟩ := List.nodupKeys_cons.mp hes
    rw [List.foldl_cons, ih hnodup]
    by_cases hs : spn = e.1
    · subst hs
      rw [List.dlookup_eq_none.mpr hnot, List.dlookup_cons_eq]
      simp only
      split
      · rfl
      · rw [GoMap.lookup_insert_eq, if_pos rfl]
    · have hlookup : ∀ em' : EndpointsMap, em'.lookup spn = em.lookup spn →
        (match es.dlookup spn with
          | some set => if set.entries = [] then em'.lookup spn
            else some (cfg.byEndpoint.run (GoMap.values set))
          | none => em'.lookup spn) =
        match es.dlookup spn with
          | some set => if set.entries = [] then em.lookup spn
            else some (cfg.byEndpoint.run (GoMap.values set))
          | none => em.lookup spn := fun em' h => by rw [h]
      rw [List.dlookup_cons_ne _ _ hs]
      apply hlookup
      split
      · rfl
      · rw [GoMap.lookup_insert_eq, if_neg hs]

/-- The lists of the endpoints map: those of the sets that are not empty. -/
theorem lookup_endpointsMapFromEndpointInfo {m : SpToEndpointMap} {spn : ServicePortName}
    {eps : List BaseEndpointInfo} :
    (endpointsMapFromEndpointInfo cfg m).lookup spn = some eps ↔
      ∃ set, m.lookup spn = some set ∧ set.entries ≠ [] ∧
        eps = cfg.byEndpoint.run (GoMap.values set) := by
  rw [endpointsMapFromEndpointInfo, lookup_foldl_endpointsMap m.nodupKeys]
  cases hl : m.entries.dlookup spn with
  | none => simp [AList.lookup, hl]
  | some set =>
    by_cases he : set.entries = []
    · simp [AList.lookup, hl, he]
    · simp [AList.lookup, hl, he, eq_comm]

/-- The map of a group: the contributions of its slices, and no empty lists. -/
theorem getEndpointsMap_spec {order : RangeOrder ((_ : String) × EndpointSliceInfo)}
    {infos : GoMap String EndpointSliceInfo} {em : EndpointsMap}
    (h : getEndpointsMap cfg order infos = .ok em) :
    NoEmptyList em ∧ ∀ spn str, EpHas em spn str ↔ GroupHas cfg infos spn str := by
  obtain ⟨m, hm, h⟩ := Go.bind_eq_ok.mp h
  obtain rfl := (Except.ok.inj h).symm
  obtain ⟨hk, hs⟩ := endpointInfoByServicePort_spec hm
  have hmem : ∀ {set : GoMap String BaseEndpointInfo} {b},
      b ∈ cfg.byEndpoint.run (GoMap.values set) ↔ ∃ str, set.lookup str = some b := by
    intro set b
    rw [KeySort.mem_run, GoMap.mem_values_iff]
  refine ⟨fun spn eps heps => ?_, fun spn str => ?_⟩
  · obtain ⟨set, -, hne, rfl⟩ := lookup_endpointsMapFromEndpointInfo.mp heps
    intro hnil
    apply hne
    rw [GoMap.entries_eq_nil_iff]
    intro str
    rw [Option.eq_none_iff_forall_ne_some]
    intro b hb
    exact List.not_mem_nil (hnil ▸ hmem.mpr ⟨str, hb⟩)
  · rw [← hs]
    constructor
    · rintro ⟨eps, heps, b, hb, rfl⟩
      obtain ⟨set, hset, -, rfl⟩ := lookup_endpointsMapFromEndpointInfo.mp heps
      obtain ⟨str, hstr⟩ := hmem.mp hb
      refine ⟨set, hset, ?_⟩
      rw [hk spn set hset str b hstr, hstr]
      rfl
    · rintro ⟨set, hset, hsome⟩
      obtain ⟨b, hb⟩ := Option.isSome_iff_exists.mp hsome
      have hne : set.entries ≠ [] := fun he => by
        rw [GoMap.entries_eq_nil_iff.mp he str] at hb
        cases hb
      exact ⟨_, lookup_endpointsMapFromEndpointInfo.mpr ⟨set, hset, hne, rfl⟩, b,
        hmem.mpr ⟨str, hb⟩, hk spn set hset str b hb⟩

/-- Every text without a delimiter is taken for an address. -/
def sampleParse (s : String) : IPText :=
  if h : '/' ∉ s.toList ∧ '[' ∉ s.toList ∧ ']' ∉ s.toList then ⟨s, h⟩ else ⟨"<nil>", by decide⟩

/-- A proxy for IPv4 with the insertion sort. -/
def sampleConfig : Config where
  hostname := ""
  ipFamily := .ipv4
  topologyAwareHints := false
  isIPv6String s := ':' ∈ s.toList
  parseIPSloppy := sampleParse
  parse_text s := dif_pos (sampleParse s).noDelim
  byPort := .insertion _
  byAddress := .insertion _
  byEndpoint := .insertion _

/-- An endpoint of a slice with one address. -/
def sampleEndpoint (address : String) : SliceEndpoint := ⟨[address], none, none, none, none, none, []⟩

end Fleetboard.Proxy

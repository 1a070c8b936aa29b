import Fleetboard.Framework.Prefer
import Fleetboard.Proof.EndpointSliceCache

/-!
# Endpoint maps and the order of the slices

The slices of a service are visited in the order of a `range` over a map, and of the
endpoints with the same text the first one stays unless a later one is local.

* `addEndpoints_lookup`, `addPort_value`, `addSlice_value`, `endpointInfoByServicePort_value`: the
  endpoint that is stored for a text, endpoint by endpoint, port by port, slice by slice
  and for all slices;
* `getEndpointsMap_ok_iff`: whether it panics does not depend on the order;
* `lookup_eq_iff`: the maps are equal when the stored endpoints are;
* `getEndpointsMap_order_iff`: the map does not depend on the order exactly when the
  slices agree about each endpoint.
-/

namespace Fleetboard.Proxy

open Prefer

variable {cfg : Config}

/-! ## The endpoint of a text -/

/-- The endpoints that a list of a slice's endpoints has for a text. -/
def withText (cfg : Config) (n : Int) (endpoints : List EndpointInfo) (str : String) :
    List BaseEndpointInfo :=
  (endpoints.filterMap (makeEndpoint cfg n)).filter fun b => b.endpoint = str

theorem addEndpoints_lookup (n : Int) (set : GoMap String BaseEndpointInfo)
    (endpoints : List EndpointInfo) (str : String) :
    (addEndpoints cfg n set endpoints).lookup str =
      (withText cfg n endpoints str).foldl (choose BaseEndpointInfo.isLocal) (set.lookup str) := by
  induction endpoints generalizing set with
  | nil => rfl
  | cons e endpoints ih =>
    have hcons : addEndpoints cfg n set (e :: endpoints) =
      addEndpoints cfg n (addEndpoints cfg n set [e]) endpoints := rfl
    rw [hcons, ih]
    cases hb : makeEndpoint cfg n e with
    | none =>
      have hset : addEndpoints cfg n set [e] = set := by
        simp only [addEndpoints, List.foldl_cons, List.foldl_nil, hb]
      rw [hset, withText, withText, List.filterMap_cons_none hb]
    | some b =>
      have hset : addEndpoints cfg n set [e] =
          if (set.lookup b.endpoint).isNone ∨ b.isLocal then set.insert b.endpoint b else set := by
        simp only [addEndpoints, List.foldl_cons, List.foldl_nil, hb]
      rw [hset, withText, withText, List.filterMap_cons_some hb]
      by_cases hs : b.endpoint = str
      · subst hs
        rw [List.filter_cons_of_pos (by simp), List.foldl_cons]
        congr 1
        unfold choose
        split
        · exact AList.lookup_insert _
        · rfl
      · rw [List.filter_cons_of_neg (by simpa using hs)]
        congr 1
        split
        · exact AList.lookup_insert_ne (Ne.symm hs)
        · rfl

/-- The endpoint that is stored for a service port name and a text. -/
def spValue (m : SpToEndpointMap) (spn : ServicePortName) (str : String) : Option BaseEndpointInfo :=
  ((m.lookup spn).getD ∅).lookup str

/-- The endpoints that a port has for a service port name and a text. -/
def portEndpoints (cfg : Config) (info : EndpointSliceInfo) (spn : ServicePortName) (str : String)
    (port : EndpointPort) (i : Nat) : List BaseEndpointInfo :=
  match port.name, port.port, port.protocol with
  | some _, some n, some protocol =>
    if n ≠ 0 ∧ spn = ⟨info.nn, toString i, protocol⟩ then withText cfg n info.endpoints str else []
  | _, _, _ => []

theorem addPort_value {info : EndpointSliceInfo} {m m' : SpToEndpointMap} {port : EndpointPort}
    {i : Nat} (h : addPort cfg info m port i = .ok m') (spn : ServicePortName) (str : String) :
    spValue m' spn str = (portEndpoints cfg info spn str port i).foldl
      (choose BaseEndpointInfo.isLocal) (spValue m spn str) := by
  obtain ⟨name, protocol, number, appProtocol⟩ := port
  unfold addPort at h
  cases name with
  | none =>
    cases h
    rfl
  | some name =>
    cases number with
    | none =>
      cases h
      rfl
    | some n =>
      dsimp only at h
      by_cases hn : n = 0
      · rw [if_pos hn] at h
        cases h
        cases protocol with
        | none => rfl
        | some protocol => simp [portEndpoints, hn]
      · rw [if_neg hn] at h
        cases protocol with
        | none => cases h
        | some protocol =>
          cases h
          unfold spValue
          rw [GoMap.lookup_insert_eq]
          by_cases hs : spn = ⟨info.nn, toString i, protocol⟩
          · subst hs
            rw [if_pos rfl, Option.getD_some, addEndpoints_lookup]
            simp only [portEndpoints, ne_eq, hn, not_false_eq_true, and_self, if_true]
          · rw [if_neg hs]
            simp only [portEndpoints, hs, and_false, if_false, List.foldl_nil]

/-- The endpoints that a slice has for a service port name and a text. -/
def sliceEndpoints (cfg : Config) (info : EndpointSliceInfo) (spn : ServicePortName) (str : String) :
    List BaseEndpointInfo :=
  info.ports.zipIdx.flatMap fun p => portEndpoints cfg info spn str p.1 p.2

theorem addSlice_value {info : EndpointSliceInfo} {m m' : SpToEndpointMap}
    (h : addSlice cfg m info = .ok m') (spn : ServicePortName) (str : String) :
    spValue m' spn str = (sliceEndpoints cfg info spn str).foldl
      (choose BaseEndpointInfo.isLocal) (spValue m spn str) := by
  rw [sliceEndpoints, List.foldl_flatMap]
  exact Go.foldlM_part (r := fun m => spValue m spn str)
    (fun m p m' hp => addPort_value hp spn str) h

/-- The endpoint that a slice alone decides on. -/
def sliceValue (cfg : Config) (spn : ServicePortName) (str : String) (info : EndpointSliceInfo) :
    Option BaseEndpointInfo :=
  pick BaseEndpointInfo.isLocal (sliceEndpoints cfg info spn str)

theorem endpointInfoByServicePort_value
    {order : RangeOrder ((_ : String) × EndpointSliceInfo)}
    {infos : GoMap String EndpointSliceInfo} {m : SpToEndpointMap}
    (h : endpointInfoByServicePort cfg order infos = .ok m) (spn : ServicePortName) (str : String) :
    spValue m spn str = pick BaseEndpointInfo.isLocal
      ((order.visit infos.entries).filterMap fun e => sliceValue cfg spn str e.2) := by
  unfold endpointInfoByServicePort at h
  have hvalue := Go.foldlM_part (r := fun m => spValue m spn str)
    (g := fun v (e : (_ : String) × EndpointSliceInfo) =>
      (sliceEndpoints cfg e.2 spn str).foldl (choose BaseEndpointInfo.isLocal) v)
    (fun m e m' he => addSlice_value he spn str) h
  rw [hvalue, ← List.foldl_flatMap]
  exact pick_flatMap (fun e : (_ : String) × EndpointSliceInfo => sliceEndpoints cfg e.2 spn str) _

/-! ## Panics -/

/-- A port that is used has a protocol. -/
def PortSafe (port : EndpointPort) : Prop :=
  ∀ n, port.name ≠ none → port.port = some n → n ≠ 0 → port.protocol ≠ none

/-- The ports of the slice that are used have protocols. -/
def SliceSafe (info : EndpointSliceInfo) : Prop := ∀ port ∈ info.ports, PortSafe port

theorem addPort_safe {info : EndpointSliceInfo} {port : EndpointPort} {i : Nat}
    (h : PortSafe port) (m : SpToEndpointMap) : ∃ m', addPort cfg info m port i = .ok m' := by
  obtain ⟨name, protocol, number, appProtocol⟩ := port
  unfold addPort
  cases name with
  | none => exact ⟨_, rfl⟩
  | some name =>
    cases number with
    | none => exact ⟨_, rfl⟩
    | some n =>
      dsimp only
      by_cases hn : n = 0
      · rw [if_pos hn]
        exact ⟨_, rfl⟩
      · rw [if_neg hn]
        have hprotocol := h n (Option.some_ne_none name) rfl hn
        cases protocol with
        | none => exact absurd rfl hprotocol
        | some protocol => exact ⟨_, rfl⟩

theorem addPort_unsafe {info : EndpointSliceInfo} {port : EndpointPort} {i : Nat}
    (h : ¬ PortSafe port) (m : SpToEndpointMap) :
    addPort cfg info m port i = .error .nilDereference := by
  simp only [PortSafe, not_forall] at h
  obtain ⟨n, hname, hnumber, hn, hprotocol⟩ := h
  obtain ⟨name, hname⟩ := Option.ne_none_iff_exists'.mp hname
  rw [not_not] at hprotocol
  unfold addPort
  rw [hname, hnumber, hprotocol]
  dsimp only
  rw [if_neg hn]
  rfl

theorem addSlice_cases (info : EndpointSliceInfo) (m : SpToEndpointMap) :
    (SliceSafe info → ∃ m', addSlice cfg m info = .ok m') ∧
      (¬ SliceSafe info → addSlice cfg m info = .error .nilDereference) := by
  obtain ⟨hok, herr⟩ := Go.foldlM_cases (P := fun p : EndpointPort × Nat => PortSafe p.1)
    (f := fun m p => addPort cfg info m p.1 p.2) (fun p hp m => addPort_safe hp m)
    (fun p hp m => addPort_unsafe hp m) info.ports.zipIdx m
  refine ⟨fun h => hok fun p hp => h p.1 (List.fst_mem_of_mem_zipIdx hp), fun h => herr ?_⟩
  simp only [SliceSafe, not_forall] at h
  obtain ⟨port, hport, hno⟩ := h
  obtain ⟨i, hi, rfl⟩ := List.mem_iff_getElem.mp hport
  exact ⟨(info.ports[i], i), List.mem_zipIdx_iff_getElem?.mpr (List.getElem?_eq_getElem hi), hno⟩

/-- Whether the map can be made does not depend on the order. -/
theorem endpointInfoByServicePort_cases (cfg : Config)
    (order : RangeOrder ((_ : String) × EndpointSliceInfo)) (infos : GoMap String EndpointSliceInfo) :
    ((∀ e ∈ infos.entries, SliceSafe e.2) →
        ∃ m, endpointInfoByServicePort cfg order infos = .ok m) ∧
      ((∃ e ∈ infos.entries, ¬ SliceSafe e.2) →
        endpointInfoByServicePort cfg order infos = .error .nilDereference) := by
  obtain ⟨hok, herr⟩ := Go.foldlM_cases
    (P := fun e : (_ : String) × EndpointSliceInfo => SliceSafe e.2)
    (f := fun m e => addSlice cfg m e.2) (fun e he m => (addSlice_cases e.2 m).1 he)
    (fun e he m => (addSlice_cases e.2 m).2 he) (order.visit infos.entries) ∅
  refine ⟨fun h => hok fun e he => h e (order.mem_visit.mp he), ?_⟩
  rintro ⟨e, he, hno⟩
  exact herr ⟨e, order.mem_visit.mpr he, hno⟩

/-! ## Equal maps -/

/-- A set of endpoints under their texts has no endpoint twice. -/
theorem KeyedByText.values_endpoint {set : GoMap String BaseEndpointInfo} (h : KeyedByText set) :
    (GoMap.values set).map (·.endpoint) = set.entries.keys := by
  rw [GoMap.values, List.map_map, List.keys]
  refine List.map_congr_left fun e he => ?_
  exact h e.1 e.2 (GoMap.mem_entries_iff.mp he)

/-- Sorting forgets the order in which the endpoints were stored, and nothing else. -/
theorem run_values_eq_iff {set set' : GoMap String BaseEndpointInfo} (h : KeyedByText set)
    (h' : KeyedByText set') :
    cfg.byEndpoint.run (GoMap.values set) = cfg.byEndpoint.run (GoMap.values set') ↔
      ∀ str, set.lookup str = set'.lookup str := by
  have hnodup : ∀ {s : GoMap String BaseEndpointInfo}, KeyedByText s →
      ((GoMap.values s).map (·.endpoint)).Nodup := by
    intro s hs
    rw [hs.values_endpoint]
    exact s.nodupKeys
  constructor
  · intro heq str
    refine Option.ext fun b => ?_
    rw [h.lookup_eq_some_iff, h'.lookup_eq_some_iff, ← cfg.byEndpoint.mem_run, heq,
      cfg.byEndpoint.mem_run]
  · intro heq
    have hperm : (GoMap.values set').Perm (GoMap.values set) := by
      refine (List.perm_ext_iff_of_nodup (hnodup h').of_map (hnodup h).of_map).mpr fun b => ?_
      rw [GoMap.mem_values_iff, GoMap.mem_values_iff]
      exact exists_congr fun str => by rw [heq str]
    refine cfg.byEndpoint.run_eq_of_strict ((cfg.byEndpoint.perm _).trans hperm) ?_
    have hne : ((cfg.byEndpoint.run (GoMap.values set')).map (·.endpoint)).Nodup :=
      (((cfg.byEndpoint.perm _).map _).nodup_iff).mpr (hnodup h')
    refine ((cfg.byEndpoint.sorted _).and (List.pairwise_map.mp hne)).imp ?_
    rintro a b ⟨hle, hne⟩
    exact lt_of_le_of_ne hle hne

theorem lookup_endpointsMap_eq (m : SpToEndpointMap) (spn : ServicePortName) :
    (endpointsMapFromEndpointInfo cfg m).lookup spn =
      if ((m.lookup spn).getD ∅).entries = [] then none
      else some (cfg.byEndpoint.run (GoMap.values ((m.lookup spn).getD ∅))) := by
  refine Option.ext fun eps => ?_
  rw [lookup_endpointsMapFromEndpointInfo]
  cases m.lookup spn with
  | none => simp
  | some set =>
    by_cases he : set.entries = []
    · simp [he]
    · simp [he, eq_comm]

/-- The endpoint maps are equal when the stored endpoints are. -/
theorem lookup_eq_iff {m m' : SpToEndpointMap} (h : SpKeyed m) (h' : SpKeyed m') :
    (∀ spn, (endpointsMapFromEndpointInfo cfg m).lookup spn =
        (endpointsMapFromEndpointInfo cfg m').lookup spn) ↔
      ∀ spn str, spValue m spn str = spValue m' spn str := by
  refine forall_congr' fun spn => ?_
  have hset := h.getD spn
  have hset' := h'.getD spn
  rw [lookup_endpointsMap_eq, lookup_endpointsMap_eq]
  unfold spValue
  generalize (m.lookup spn).getD ∅ = set at *
  generalize (m'.lookup spn).getD ∅ = set' at *
  constructor
  · intro heq
    split at heq
    · split at heq
      · rename_i he he'
        intro str
        rw [GoMap.entries_eq_nil_iff.mp he, GoMap.entries_eq_nil_iff.mp he']
      · cases heq
    · split at heq
      · cases heq
      · exact (run_values_eq_iff hset hset').mp (Option.some.inj heq)
  · intro heq
    have hempty : set.entries = [] ↔ set'.entries = [] := by
      rw [GoMap.entries_eq_nil_iff, GoMap.entries_eq_nil_iff]
      exact forall_congr' fun str => by rw [heq str]
    rw [(run_values_eq_iff hset hset').mpr heq]
    simp only [hempty]

/-! ## Orders -/

/-- Two calls give the same map, or panic in the same way. -/
def SameMap : Go EndpointsMap → Go EndpointsMap → Prop
  | .ok em, .ok em' => ∀ spn, em.lookup spn = em'.lookup spn
  | .error p, .error p' => p = p'
  | _, _ => False

/-- The slices agree about each endpoint: the local ones do, or all when none is
local. -/
def SlicesAgree (cfg : Config) (infos : GoMap String EndpointSliceInfo) : Prop :=
  ∀ spn str, Agree BaseEndpointInfo.isLocal
    (infos.entries.filterMap fun e => sliceValue cfg spn str e.2)

theorem getEndpointsMap_same_iff {order order' : RangeOrder ((_ : String) × EndpointSliceInfo)}
    {infos : GoMap String EndpointSliceInfo} (hsafe : ∀ e ∈ infos.entries, SliceSafe e.2) :
    SameMap (getEndpointsMap cfg order infos) (getEndpointsMap cfg order' infos) ↔
      ∀ spn str,
        pick BaseEndpointInfo.isLocal
            ((order.visit infos.entries).filterMap fun e => sliceValue cfg spn str e.2) =
          pick BaseEndpointInfo.isLocal
            ((order'.visit infos.entries).filterMap fun e => sliceValue cfg spn str e.2) := by
  obtain ⟨m, hm⟩ := (endpointInfoByServicePort_cases cfg order infos).1 hsafe
  obtain ⟨m', hm'⟩ := (endpointInfoByServicePort_cases cfg order' infos).1 hsafe
  have hkeyed := (endpointInfoByServicePort_spec hm).1
  have hkeyed' := (endpointInfoByServicePort_spec hm').1
  rw [getEndpointsMap, getEndpointsMap, hm, hm']
  refine (lookup_eq_iff hkeyed hkeyed').trans ?_
  refine forall_congr' fun spn => forall_congr' fun str => ?_
  rw [endpointInfoByServicePort_value hm, endpointInfoByServicePort_value hm']

/-- The map of a service's slices does not depend on their order exactly when it cannot
be made at all, or the slices agree. -/
theorem getEndpointsMap_order_iff (cfg : Config) (infos : GoMap String EndpointSliceInfo) :
    (∀ order order', SameMap (getEndpointsMap cfg order infos) (getEndpointsMap cfg order' infos)) ↔
      (∃ name info, infos.lookup name = some info ∧ ¬ SliceSafe info) ∨ SlicesAgree cfg infos := by
  by_cases hsafe : ∀ e ∈ infos.entries, SliceSafe e.2
  · have hno : ¬ ∃ name info, infos.lookup name = some info ∧ ¬ SliceSafe info := by
      rintro ⟨name, info, hinfo, hunsafe⟩
      exact hunsafe (hsafe ⟨name, info⟩ (GoMap.mem_entries_iff.mpr hinfo))
    simp only [getEndpointsMap_same_iff hsafe, hno, false_or]
    constructor
    · intro h spn str
      exact forall_order_pick_iff.mp fun order order' => h order order' spn str
    · intro h order order' spn str
      exact forall_order_pick_iff.mpr (h spn str) order order'
  · simp only [not_forall] at hsafe
    obtain ⟨e, he, hunsafe⟩ := hsafe
    refine iff_of_true (fun order order' => ?_)
      (.inl ⟨e.1, e.2, GoMap.mem_entries_iff.mp he, hunsafe⟩)
    rw [getEndpointsMap, getEndpointsMap,
      (endpointInfoByServicePort_cases cfg order infos).2 ⟨e, he, hunsafe⟩,
      (endpointInfoByServicePort_cases cfg order' infos).2 ⟨e, he, hunsafe⟩]
    rfl

/-! ## An endpoint that moves between slices -/

/-- A slice with one endpoint of the service `shop/web`. -/
def movingSlice (ready : Bool) : EndpointSlice where
  ns := "shop"
  name := "web"
  labels := (∅ : GoMap String String).insert Known.LabelServiceName "web"
    |>.insert Known.LabelServiceNameSpace "shop"
  addressType := .ipv4
  endpoints := [⟨["10.1.0.5"], some ready, none, none, none, none, []⟩]
  ports := [⟨some "http", some .tcp, some 8080, none⟩]

def movingInfo (ready : Bool) : EndpointSliceInfo where
  ports := [⟨some "http", some .tcp, some 8080, none⟩]
  endpoints := [⟨["10.1.0.5"], none, none, none, ready, true, false⟩]
  remove := false
  nn := ⟨"shop", "web"⟩

/-- Two slices with the endpoint. -/
def movingInfos (ready ready' : Bool) : GoMap String EndpointSliceInfo :=
  (∅ : GoMap String EndpointSliceInfo).insert "web-1" (movingInfo ready)
    |>.insert "web-2" (movingInfo ready')

/-- While both slices have the endpoint as ready, the order does not matter. -/
theorem getEndpointsMap_order_equal :
    ∀ order order', SameMap (getEndpointsMap sampleConfig order (movingInfos true true))
      (getEndpointsMap sampleConfig order' (movingInfos true true)) := by
  refine (getEndpointsMap_order_iff sampleConfig (movingInfos true true)).mpr (.inr fun spn str => ?_)
  have hall : ∀ a ∈ (movingInfos true true).entries.filterMap (fun e =>
      sliceValue sampleConfig spn str e.2), sliceValue sampleConfig spn str (movingInfo true) = some a := by
    intro a ha
    obtain ⟨e, he, ha⟩ := List.mem_filterMap.mp ha
    have hinfo : ∀ e ∈ (movingInfos true true).entries, e.2 = movingInfo true := by decide
    rwa [hinfo e he] at ha
  exact ⟨fun a ha b hb _ _ => Option.some.inj ((hall a ha).symm.trans (hall b hb)),
    fun _ a ha b hb => Option.some.inj ((hall a ha).symm.trans (hall b hb))⟩

/-- While only one of them has it as ready, the order decides whether it is. -/
theorem getEndpointsMap_order_decides :
    (∀ ready, newEndpointSliceInfo sampleConfig (movingSlice ready) false =
      .ok (some (movingInfo ready))) ∧
    (((getEndpointsMap sampleConfig (RangeOrder.last fun e => e.1 = "web-1")
        (movingInfos true false)).toOption.bind (·.lookup ⟨⟨"shop", "web"⟩, "0", .tcp⟩)).map
      fun eps => eps.map (·.ready)) = some [false] ∧
    (((getEndpointsMap sampleConfig (RangeOrder.last fun e => e.1 = "web-2")
        (movingInfos true false)).toOption.bind (·.lookup ⟨⟨"shop", "web"⟩, "0", .tcp⟩)).map
      fun eps => eps.map (·.ready)) = some [true] := by
  refine ⟨fun ready => rfl, ?_, ?_⟩
  · decide +kernel
  · decide +kernel

end Fleetboard.Proxy

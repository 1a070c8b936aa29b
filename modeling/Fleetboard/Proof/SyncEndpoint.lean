import Fleetboard.Proof.EndpointSliceCache
import Fleetboard.Proof.SyncLoops

/-!
# The real servers after a sync of one virtual server

* `syncEndpoint_cases`: what a sync without faults can do;
* `syncEndpoint_converged_iff`: the real servers become those of the selected endpoints exactly
  when the endpoints map has the service port, and all the endpoints are attainable, or
  there was nothing to do.
-/

namespace Fleetboard.Ipvs

open Fleetboard.Proxy GracefulTerminationManager

variable {cfg : Config} {m : GracefulTerminationManager} {k : VirtualServerKey} {d : Dest}
  {vs applied : VirtualServer} {curDests : List RealServer} {initialSync : Bool} {ep : String}

/-! ## The sync -/

variable {p p' : Proxier} {svcPortName : ServicePortName} {onlyNodeLocalEndpoints : Bool}
  {order : RangeOrder String}

/-- The texts of the endpoints that are selected for the service port. -/
def desiredEndpoints (cfg : Config) (p : Proxier) (svcPortName : ServicePortName)
    (onlyNodeLocalEndpoints : Bool) : List String :=
  (selectEndpoints cfg p svcPortName onlyNodeLocalEndpoints
    ((p.endpointsMap.lookup svcPortName).getD [])).2.map (·.endpoint)

theorem selectEndpoints_fst (cfg : Config) (p : Proxier) (svcPortName : ServicePortName)
    (onlyNodeLocalEndpoints : Bool) (endpoints : List BaseEndpointInfo) :
    let p' := (selectEndpoints cfg p svcPortName onlyNodeLocalEndpoints endpoints).1
    p'.manager = p.manager ∧ p'.initialSync = p.initialSync ∧ p'.svcPortMap = p.svcPortMap ∧
      p'.endpointsMap = p.endpointsMap ∧ p'.nodeLabels = p.nodeLabels := by
  unfold selectEndpoints
  cases p.svcPortMap.lookup svcPortName with
  | none => exact ⟨rfl, rfl, rfl, rfl, rfl⟩
  | some info =>
    simp only []
    split_ifs <;> exact ⟨rfl, rfl, rfl, rfl, rfl⟩

theorem categorizeEndpoints_nil (cfg : Config) (svcInfo : ServicePort) (nodeLabels : GoMap String String) :
    let c := CategorizeEndpoints cfg [] svcInfo nodeLabels
    c.clusterEndpoints = [] ∧ c.localEndpoints = [] := by
  unfold CategorizeEndpoints
  simp only [List.filter_nil, ite_self]
  split_ifs <;> exact ⟨rfl, rfl⟩

/-- Without endpoints none are selected. -/
theorem selectEndpoints_nil :
    (selectEndpoints cfg p svcPortName onlyNodeLocalEndpoints []).2 = [] := by
  unfold selectEndpoints
  cases p.svcPortMap.lookup svcPortName with
  | none => rfl
  | some info =>
    obtain ⟨hcluster, hlocal⟩ := categorizeEndpoints_nil cfg (servicePort info) p.nodeLabels
    cases onlyNodeLocalEndpoints with
    | false => exact hcluster
    | true =>
      simp only [if_neg (not_not_intro hlocal), if_true]
      exact hcluster

/-- The texts of the selected endpoints, as the creating loop takes them. -/
def newEndpoints (cfg : Config) (p : Proxier) (svcPortName : ServicePortName)
    (onlyNodeLocalEndpoints : Bool) : List String :=
  (KeySort.insertion id).run (desiredEndpoints cfg p svcPortName onlyNodeLocalEndpoints).dedup

theorem mem_newEndpoints :
    ep ∈ newEndpoints cfg p svcPortName onlyNodeLocalEndpoints ↔
      ep ∈ desiredEndpoints cfg p svcPortName onlyNodeLocalEndpoints := by
  rw [newEndpoints, KeySort.mem_run, List.mem_dedup]

theorem mem_dests_iff {service : Service} (hs : m.ipvs.services.lookup k = some service) :
    d.string ∈ (service.dests.entries.map fun e =>
      (⟨e.1, e.2.weight, e.2.activeConn, e.2.inactiveConn⟩ : RealServer)).map (·.dest.string) ↔
      m.state k d ≠ none := by
  rw [state, IPVS.state_of_lookup hs, List.map_map, List.mem_map]
  constructor
  · rintro ⟨⟨d', st⟩, he, heq⟩
    cases dest_string_injective heq
    rw [GoMap.mem_entries_iff.mp he]
    exact Option.some_ne_none st
  · intro hne
    obtain ⟨st, hst⟩ := Option.ne_none_iff_exists'.mp hne
    exact ⟨⟨d, st⟩, GoMap.mem_entries_iff.mpr hst, rfl⟩

/-- What `syncEndpoint` reads from the table. -/
theorem starts_of_has (h : m.ipvs.faults = []) (hhas : m.ipvs.Has vs.key)
    (hreads : ∀ d, m.state vs.key d ≠ none → ReadsBack cfg d) :
    ∃ applied curDests, m.ipvs.GetVirtualServer vs = (m.ipvs, .ok applied) ∧
      m.ipvs.GetRealServers applied = (m.ipvs, .ok curDests) ∧
      Starts cfg m vs applied curDests := by
  rcases query_of_no_faults h vs.key fun service =>
      (⟨vs.key, service.scheduler, service.flags, service.timeout⟩ : VirtualServer) with
    ⟨hs, -⟩ | ⟨service, hs, hq⟩
  · exact absurd hs hhas
  · rcases query_of_no_faults h vs.key fun service => service.dests.entries.map fun e =>
        (⟨e.1, e.2.weight, e.2.activeConn, e.2.inactiveConn⟩ : RealServer) with
      ⟨hs', -⟩ | ⟨service', hs', hq'⟩
    · exact absurd hs' hhas
    · exact ⟨_, _, hq, hq', h, rfl, hhas, fun d => mem_dests_iff hs', hreads⟩

/-- Without faults `syncEndpoint` fails if there is no such virtual server, does nothing if
the endpoints map has no entry, and else runs its loops. -/
theorem syncEndpoint_cases (cfg : Config) (svcPortName : ServicePortName)
    (onlyNodeLocalEndpoints : Bool) (vs : VirtualServer) (order : RangeOrder String)
    (h : p.manager.ipvs.faults = [])
    (hreads : ∀ d, p.manager.state vs.key d ≠ none → ReadsBack cfg d) :
    let r := syncEndpoint cfg p svcPortName onlyNodeLocalEndpoints vs order
    (¬ p.manager.ipvs.Has vs.key ∧ ∃ e, r = (p, some e)) ∨
      p.manager.ipvs.Has vs.key ∧ p.endpointsMap.lookup svcPortName = none ∧ r = (p, none) ∨
      ∃ endpoints applied curDests, p.endpointsMap.lookup svcPortName = some endpoints ∧
        Starts cfg p.manager vs applied curDests ∧
        r = ({ (selectEndpoints cfg p svcPortName onlyNodeLocalEndpoints endpoints).1 with
          manager := syncLoops cfg p.initialSync vs applied curDests order
            (newEndpoints cfg p svcPortName onlyNodeLocalEndpoints) p.manager }, none) := by
  intro r
  have hwith : p.withIpvs p.manager.ipvs = p := rfl
  by_cases hhas : p.manager.ipvs.Has vs.key
  · refine .inr ?_
    obtain ⟨applied, curDests, hget, hreal, hstarts⟩ := starts_of_has h hhas hreads
    simp only [r, syncEndpoint, hget, hreal, hwith]
    cases hep : p.endpointsMap.lookup svcPortName with
    | none => exact .inl ⟨hhas, rfl, rfl⟩
    | some endpoints =>
      refine .inr ⟨endpoints, applied, curDests, rfl, hstarts, ?_⟩
      obtain ⟨hmanager, hinitial, -⟩ :=
        selectEndpoints_fst cfg p svcPortName onlyNodeLocalEndpoints endpoints
      simp only [hmanager, hinitial, syncLoops, oldEndpoints, newEndpoints, desiredEndpoints, hep,
        Option.getD_some]
  · rcases query_of_no_faults h vs.key fun service =>
        (⟨vs.key, service.scheduler, service.flags, service.timeout⟩ : VirtualServer) with
      ⟨-, e, hq⟩ | ⟨service, hs, -⟩
    · refine .inl ⟨hhas, e, ?_⟩
      simp only [r, syncEndpoint, IPVS.GetVirtualServer, hq, hwith]
    · exact absurd (IPVS.has_of_lookup hs) hhas

/-! ## Convergence -/

/-- A destination that is gone, or has the weight 0 and is in the list. -/
def Retired (m : GracefulTerminationManager) (k : VirtualServerKey) (d : Dest) : Prop :=
  ∀ st, m.state k d = some st → st.weight = 0 ∧ m.InTerminationList (uniqueRSName k d) = true

/-- If the destination is in the list, it has the weight 0. -/
def ZeroIfListed (m : GracefulTerminationManager) (k : VirtualServerKey) (d : Dest) : Prop :=
  ∀ st, m.state k d = some st → m.InTerminationList (uniqueRSName k d) = true → st.weight = 0

/-- The destinations of the virtual server are those of the desired endpoints, but for
retired ones. -/
def Converged (cfg : Config) (m : GracefulTerminationManager) (k : VirtualServerKey)
    (desired : List String) : Prop :=
  (∀ d, (¬ ∃ ep ∈ desired, parseEndpoint cfg ep = some d) → Retired m k d) ∧
    ∀ ep ∈ desired, ∃ d, parseEndpoint cfg ep = some d ∧ m.state k d ≠ none

/-- The endpoint has an address, and its destination is not one that the deleting loop deletes at
once because the endpoint's text is not its own. -/
def Attainable (cfg : Config) (m : GracefulTerminationManager) (k : VirtualServerKey)
    (desired : List String) (ep : String) : Prop :=
  ∃ d, parseEndpoint cfg ep = some d ∧ d.address.text ≠ "<nil>" ∧
    (d.string ∈ desired ∨
      ∀ st, m.state k d = some st →
        m.InTerminationList (uniqueRSName k d) = true ∨ Lingers k st)

theorem Deletes.retired {m' : GracefulTerminationManager} (hdel : Deletes k d m m')
    {st : DestState} (hst : m.state k d = some st) (hzero : ZeroIfListed m k d) :
    Retired m' k d := by
  intro st' hst'
  rw [inTerminationList_iff]
  cases hitem : m.item k d with
  | none =>
    rcases hdel.2 hitem st hst with ⟨-, hzero', hlist⟩ | ⟨-, hnone, -⟩
    · rw [hzero'] at hst'
      cases hst'
      exact ⟨rfl, hlist⟩
    · rw [hnone] at hst'
      cases hst'
  | some i =>
    have hne : m.item k d ≠ none := hitem ▸ Option.some_ne_none i
    obtain ⟨hsame, hlist⟩ := hdel.1 hne
    rw [hsame] at hst'
    rw [hlist]
    exact ⟨hzero st' hst' (inTerminationList_iff.mpr hne), hne⟩

/-- A destination that the deleting loop takes stays if it was in the list or lingers. -/
theorem Deletes.state_ne_none_iff {m' : GracefulTerminationManager} (hdel : Deletes k d m m')
    {st : DestState} (hst : m.state k d = some st) :
    m'.state k d ≠ none ↔ m.InTerminationList (uniqueRSName k d) = true ∨ Lingers k st := by
  rw [inTerminationList_iff]
  cases hitem : m.item k d with
  | none =>
    rcases hdel.2 hitem st hst with ⟨hl, hst', -⟩ | ⟨hl, hst', -⟩
    · simp [hst', hl]
    · simp [hst', hl]
  | some i =>
    obtain ⟨hst', -⟩ := hdel.1 (hitem ▸ Option.some_ne_none i)
    simp [hst', hst]

section Loops

variable {newEndpoints : List String} (hs : Starts cfg m vs applied curDests)
  (hreal : ∀ d, m.state vs.key d ≠ none → ReadsBack cfg d ∧ d.address.text ≠ "<nil>")

include hs hreal

/-- The loops retire every destination that is read from no endpoint. -/
theorem syncLoops_retired (hzero : ZeroIfListed m vs.key d)
    (hd : ¬ ∃ ep ∈ newEndpoints, parseEndpoint cfg ep = some d) :
    Retired (syncLoops cfg initialSync vs applied curDests order newEndpoints m) vs.key d := by
  intro st' hst'
  have hreads : ReadsBack cfg d ∧ d.address.text ≠ "<nil>" :=
    ((syncLoops_frame hs _ _ _).2.1 d (hst' ▸ Option.some_ne_none st')).elim (hreal d) id
  have hnot : d.string ∉ newEndpoints := fun hmem => hd ⟨_, hmem, parseEndpoint_string hreads.1⟩
  cases hst : m.state vs.key d with
  | none =>
    have hthere := (syncLoops_of_none hs hreads.2 hnot hst).2.mp (hst' ▸ Option.some_ne_none st')
    exact absurd hthere hd
  | some st => exact (syncLoops_of_some hs hreads.2 hnot hst).retired hst hzero st' hst'

/-- The destination of an endpoint is there after the loops exactly if it was attainable. -/
theorem syncLoops_attains (hep : ep ∈ newEndpoints) :
    (∃ d, parseEndpoint cfg ep = some d ∧
      (syncLoops cfg initialSync vs applied curDests order newEndpoints m).state vs.key d ≠ none) ↔
      Attainable cfg m vs.key newEndpoints ep := by
  have hkey : ∀ d, parseEndpoint cfg ep = some d →
      ((syncLoops cfg initialSync vs applied curDests order newEndpoints m).state vs.key d ≠ none ↔
        d.address.text ≠ "<nil>" ∧ (d.string ∈ newEndpoints ∨
          ∀ st, m.state vs.key d = some st →
            m.InTerminationList (uniqueRSName vs.key d) = true ∨ Lingers vs.key st)) := by
    intro d hparse
    by_cases hnil : d.address.text = "<nil>"
    · refine iff_of_false (fun hst => ?_) fun hT => hT.1 hnil
      rcases (syncLoops_frame hs _ _ _).2.1 d hst with hold | hnew
      · exact (hreal d hold).2 hnil
      · exact hnew.2 hnil
    · rw [and_iff_right hnil]
      by_cases hmem : d.string ∈ newEndpoints
      · exact iff_of_true (syncLoops_of_mem hs hnil (readsBack_of_parse hparse) hmem).1 (.inl hmem)
      · rw [or_iff_right hmem]
        cases hst : m.state vs.key d with
        | none =>
          refine iff_of_true ((syncLoops_of_none hs hnil hmem hst).2.mpr ⟨ep, hep, hparse⟩) ?_
          intro st hst'
          cases hst'
        | some st =>
          rw [(syncLoops_of_some hs hnil hmem hst).state_ne_none_iff hst]
          exact ⟨fun hor st' heq => Option.some_inj.mp heq ▸ hor, fun hall => hall st rfl⟩
  constructor
  · rintro ⟨d, hparse, hst⟩
    exact ⟨d, hparse, (hkey d hparse).mp hst⟩
  · rintro ⟨d, hparse, hd⟩
    exact ⟨d, hparse, (hkey d hparse).mpr hd⟩

end Loops

/-- Without faults a sync of a virtual server, whose destinations have addresses and the weight 0
if they are in the list, makes its destinations those of the selected endpoints exactly
when either the endpoints map has an entry for the service port and every selected endpoint is
attainable, or it has none and every destination was retired. -/
theorem syncEndpoint_converged_iff (cfg : Config) (p : Proxier) (svcPortName : ServicePortName)
    (onlyNodeLocalEndpoints : Bool) (vs : VirtualServer) (order : RangeOrder String)
    (hfaults : p.manager.ipvs.faults = [])
    (hreal : ∀ d, p.manager.state vs.key d ≠ none → ReadsBack cfg d ∧ d.address.text ≠ "<nil>")
    (hzero : ∀ d, ZeroIfListed p.manager vs.key d)
    (hsync : syncEndpoint cfg p svcPortName onlyNodeLocalEndpoints vs order = (p', none)) :
    Converged cfg p'.manager vs.key (desiredEndpoints cfg p svcPortName onlyNodeLocalEndpoints) ↔
      (p.endpointsMap.lookup svcPortName = none ∧ ∀ d, Retired p.manager vs.key d) ∨
      (p.endpointsMap.lookup svcPortName ≠ none ∧
        ∀ ep ∈ desiredEndpoints cfg p svcPortName onlyNodeLocalEndpoints,
          Attainable cfg p.manager vs.key
            (desiredEndpoints cfg p svcPortName onlyNodeLocalEndpoints) ep) := by
  rcases syncEndpoint_cases cfg svcPortName onlyNodeLocalEndpoints vs order hfaults
      (fun d hd => (hreal d hd).1) with
    ⟨-, e, hr⟩ | ⟨-, hnone, hr⟩ | ⟨endpoints, applied, curDests, hep, hs, hr⟩
  · rw [hsync] at hr
    cases hr
  · have hp : p' = p := congrArg Prod.fst (hsync.symm.trans hr)
    have hdesired : desiredEndpoints cfg p svcPortName onlyNodeLocalEndpoints = [] := by
      rw [desiredEndpoints, hnone, Option.getD_none, selectEndpoints_nil]
      rfl
    rw [hp, hdesired]
    constructor
    · rintro ⟨hold, -⟩
      exact .inl ⟨hnone, fun d => hold d fun ⟨ep, hep, _⟩ => absurd hep List.not_mem_nil⟩
    · rintro (⟨-, hall⟩ | ⟨hne, -⟩)
      · exact ⟨fun d _ => hall d, fun ep hep => absurd hep List.not_mem_nil⟩
      · exact absurd hnone hne
  · rw [hsync] at hr
    cases hr
    have hne : p.endpointsMap.lookup svcPortName ≠ none := by
      rw [hep]
      exact Option.some_ne_none endpoints
    have hmem : ∀ ep, ep ∈ desiredEndpoints cfg p svcPortName onlyNodeLocalEndpoints ↔
      ep ∈ newEndpoints cfg p svcPortName onlyNodeLocalEndpoints := fun ep => mem_newEndpoints.symm
    constructor
    · rintro ⟨-, hnew⟩
      refine .inr ⟨hne, fun ep hep => ?_⟩
      simp only [Attainable, hmem] at hep ⊢
      exact (syncLoops_attains hs hreal hep).mp (hnew ep ((hmem ep).mpr hep))
    · rintro (⟨hnone, -⟩ | ⟨-, hall⟩)
      · exact absurd hnone hne
      · simp only [Converged, Attainable, hmem] at hall ⊢
        exact ⟨fun d hd => syncLoops_retired hs hreal (hzero d) hd,
          fun ep hep => (syncLoops_attains hs hreal hep).mpr (hall ep hep)⟩

/-! ## A service with one port -/

def shopPort : ServicePortName := ⟨⟨"shop", "web"⟩, "0", .tcp⟩

def shopServer : VirtualServer := ⟨⟨sampleParse "10.96.0.7", 80, .tcp⟩, "rr", 0, 0⟩

def shopDest (address : String) : Dest := ⟨sampleParse address, 8080⟩

/-- The endpoints map of one slice with some addresses. -/
def shopEndpoints (addresses : List String) : Go EndpointsMap :=
  let slice : EndpointSliceInfo :=
    { ports := [⟨some "http", some .tcp, some 8080, none⟩]
      endpoints := addresses.map fun address => newEndpointInfo sampleConfig (sampleEndpoint address)
      remove := false
      nn := ⟨"shop", "web"⟩ }
  getEndpointsMap sampleConfig .stored ((∅ : GoMap String EndpointSliceInfo).insert "shop-web-1" slice)

/-- A proxier whose virtual server has one destination, in use. -/
def shopProxier (address : String) (addresses : List String) : Proxier where
  manager := ⟨.empty,
    ⟨(∅ : Services).insert shopServer.key ⟨"rr", 0, 0,
      (∅ : GoMap Dest DestState).insert (shopDest address) ⟨1, 1, 0⟩⟩, []⟩⟩
  svcPortMap := (∅ : ServicePortMap).insert shopPort ⟨shopServer.key.address, 80, .tcp, 0, "http"⟩
  endpointsMap := (shopEndpoints addresses).getD ∅
  nodeLabels := ∅
  initialSync := false
  ipvsScheduler := "rr"
  excludeCIDRs := []
  serviceNoLocalEndpointsInternal := ∅
  serviceNoLocalEndpointsExternal := ∅

theorem shopProxier_state (address : String) (addresses : List String) (d : Dest) :
    (shopProxier address addresses).manager.state shopServer.key d =
      if d = shopDest address then some ⟨1, 1, 0⟩ else none := by
  rw [state, IPVS.state_of_lookup (AList.lookup_insert _), GoMap.lookup_insert_eq]
  rfl

theorem shopProxier_real {address : String} (h : (sampleParse address).text ≠ "<nil>")
    (addresses : List String) (d : Dest)
    (hd : (shopProxier address addresses).manager.state shopServer.key d ≠ none) :
    ReadsBack sampleConfig d ∧ d.address.text ≠ "<nil>" := by
  rw [shopProxier_state] at hd
  obtain rfl : d = shopDest address := not_not.mp fun hne => hd (if_neg hne)
  exact ⟨sampleConfig.parse_text address, h⟩

theorem shopProxier_zeroIfListed (address : String) (addresses : List String) (d : Dest) :
    ZeroIfListed (shopProxier address addresses).manager shopServer.key d :=
  fun _ _ hlist => absurd hlist Bool.false_ne_true

theorem syncEndpoint_converged_moved :
    ∃ p', syncEndpoint sampleConfig (shopProxier "10.1.0.5" ["10.1.0.6"]) shopPort false shopServer
        .stored = (p', none) ∧
      desiredEndpoints sampleConfig (shopProxier "10.1.0.5" ["10.1.0.6"]) shopPort false =
        ["10.1.0.6:8080"] ∧
      Converged sampleConfig p'.manager shopServer.key ["10.1.0.6:8080"] := by
  have hdesired : desiredEndpoints sampleConfig (shopProxier "10.1.0.5" ["10.1.0.6"]) shopPort false =
      ["10.1.0.6:8080"] := by
    decide +kernel
  obtain ⟨p', hsync⟩ : ∃ p', syncEndpoint sampleConfig (shopProxier "10.1.0.5" ["10.1.0.6"])
    shopPort false shopServer .stored = (p', none) := ⟨_, rfl⟩
  have hiff := syncEndpoint_converged_iff sampleConfig _ shopPort false shopServer .stored rfl
    (shopProxier_real (by decide) _) (shopProxier_zeroIfListed _ _) hsync
  rw [hdesired] at hiff
  refine ⟨p', hsync, hdesired, hiff.mpr (.inr ⟨by decide +kernel, fun ep hep => ?_⟩)⟩
  obtain rfl := List.mem_singleton.mp hep
  exact ⟨shopDest "10.1.0.6", by decide +kernel, by decide, .inl (by decide +kernel)⟩

/-- The last endpoint of a service goes: the endpoints map loses its entry, and the
destination stays as it is. -/
theorem last_endpoint_gone_keeps_destination :
    shopEndpoints [] = .ok (shopProxier "10.1.0.5" []).endpointsMap ∧
      (shopProxier "10.1.0.5" []).manager.ipvs.faults = [] ∧
      (∀ d, (shopProxier "10.1.0.5" []).manager.state shopServer.key d ≠ none →
        ReadsBack sampleConfig d ∧ d.address.text ≠ "<nil>") ∧
      (∀ d, ZeroIfListed (shopProxier "10.1.0.5" []).manager shopServer.key d) ∧
      ∃ p', syncEndpoint sampleConfig (shopProxier "10.1.0.5" []) shopPort false shopServer .stored =
          (p', none) ∧
        p'.manager.state shopServer.key (shopDest "10.1.0.5") = some ⟨1, 1, 0⟩ ∧
        ¬ Converged sampleConfig p'.manager shopServer.key
          (desiredEndpoints sampleConfig (shopProxier "10.1.0.5" []) shopPort false) := by
  have hst : (shopProxier "10.1.0.5" []).manager.state shopServer.key (shopDest "10.1.0.5") =
      some ⟨1, 1, 0⟩ := by
    rw [shopProxier_state, if_pos rfl]
  refine ⟨rfl, rfl, shopProxier_real (by decide) _, shopProxier_zeroIfListed _ _, _, rfl, hst, ?_⟩
  rintro ⟨hold, -⟩
  have hdesired : desiredEndpoints sampleConfig (shopProxier "10.1.0.5" []) shopPort false = [] := by
    decide +kernel
  rw [hdesired] at hold
  obtain ⟨hw, -⟩ := hold (shopDest "10.1.0.5") (fun ⟨_, hep, _⟩ => absurd hep List.not_mem_nil) _ hst
  exact absurd hw (by decide)

end Fleetboard.Ipvs

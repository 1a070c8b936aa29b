import Fleetboard.Model.Ipvs
import Fleetboard.Proof.EndpointNames

/-!
# What the calls change in the table and in the list

Without faults, every call reads and changes at most one destination of one virtual server
(`Frame`), and every step of the termination at most that destination's entry of the list.

* `deleteRsFunc_cases`: an item's destination is missing, stays, or is deleted;
* `gracefulDelete_spec`, `moveOut_cases`: a destination goes into the list or out of it.
-/

namespace Fleetboard.Ipvs

open Fleetboard.Proxy

/-! ## The table -/

/-- The state of a destination of a virtual server. -/
def IPVS.state (ipvs : IPVS) (k : VirtualServerKey) (d : Dest) : Option DestState :=
  (ipvs.services.lookup k).bind fun service => service.dests.lookup d

/-- The virtual server is there. -/
def IPVS.Has (ipvs : IPVS) (k : VirtualServerKey) : Prop := ipvs.services.lookup k ≠ none

/-- No call of its own fails, the virtual servers stay, and only these destinations
of one of them change. -/
structure IPVS.Frame (k : VirtualServerKey) (T : Dest → Prop) (ipvs ipvs' : IPVS) : Prop where
  faults : ipvs'.faults = []
  has : ∀ k', ipvs'.Has k' ↔ ipvs.Has k'
  state : ∀ k' d, ¬ (k' = k ∧ T d) → ipvs'.state k' d = ipvs.state k' d

variable {ipvs ipvs' : IPVS} {k : VirtualServerKey} {d : Dest}

theorem IPVS.Frame.refl (h : ipvs.faults = []) (T : Dest → Prop) : ipvs.Frame k T ipvs :=
  ⟨h, fun _ => Iff.rfl, fun _ _ _ => rfl⟩

theorem IPVS.state_of_lookup {service : Service} (h : ipvs.services.lookup k = some service) :
    ipvs.state k d = service.dests.lookup d := by
  rw [IPVS.state, h]
  rfl

theorem IPVS.has_of_lookup {service : Service} (h : ipvs.services.lookup k = some service) :
    ipvs.Has k := by
  rw [IPVS.Has, h]
  exact Option.some_ne_none service

theorem call_of_no_faults {α : Type} (h : ipvs.faults = [])
    (op : Services → Except Error (Services × α)) :
    ipvs.call op = match op ipvs.services with
      | .error e => (ipvs, .error e)
      | .ok (services, a) => (⟨services, []⟩, .ok a) := by
  cases ipvs with
  | mk services faults =>
    cases h
    rfl

theorem query_of_no_faults {α : Type} (h : ipvs.faults = []) (k : VirtualServerKey)
    (f : Service → α) :
    (ipvs.services.lookup k = none ∧ ∃ e, ipvs.query k f = (ipvs, .error e)) ∨
      ∃ service, ipvs.services.lookup k = some service ∧ ipvs.query k f = (ipvs, .ok (f service)) := by
  rw [IPVS.query, call_of_no_faults h]
  cases hs : ipvs.services.lookup k with
  | none => exact .inl ⟨rfl, _, rfl⟩
  | some service =>
    refine .inr ⟨service, rfl, ?_⟩
    cases ipvs
    cases h
    rfl

/-- A change of one virtual server. -/
theorem frame_insert {service service' : Service} (h : ipvs.services.lookup k = some service)
    {T : Dest → Prop} (hT : ∀ d, ¬ T d → service'.dests.lookup d = service.dests.lookup d) :
    ipvs.Frame k T ⟨ipvs.services.insert k service', []⟩ where
  faults := rfl
  has k' := by
    by_cases hk : k' = k
    · subst hk
      simp [IPVS.Has, h]
    · simp [IPVS.Has, AList.lookup_insert_ne hk]
  state k' d hd := by
    by_cases hk : k' = k
    · subst hk
      rw [IPVS.state_of_lookup (AList.lookup_insert _), IPVS.state_of_lookup h]
      exact hT d fun hTd => hd ⟨rfl, hTd⟩
    · simp only [IPVS.state, AList.lookup_insert_ne hk]

theorem state_insert (service : Service) :
    (⟨ipvs.services.insert k service, []⟩ : IPVS).state k d = service.dests.lookup d :=
  IPVS.state_of_lookup (AList.lookup_insert _)

theorem addRealServer_spec (h : ipvs.faults = []) {vs : VirtualServer} (hk : vs.key = k)
    (hhas : ipvs.Has k) {rs : RealServer} (hd : rs.dest = d) :
    let ipvs' := (ipvs.AddRealServer vs rs).1
    ipvs.Frame k (· = d) ipvs' ∧ (d.address.text ≠ "<nil>" → ipvs'.state k d ≠ none) ∧
      (ipvs'.state k d ≠ none → ipvs.state k d ≠ none ∨ d.address.text ≠ "<nil>") ∧
      ∀ st, ipvs.state k d = some st → ipvs'.state k d = some st := by
  subst hk hd
  obtain ⟨service, hs⟩ := Option.ne_none_iff_exists'.mp hhas
  simp only [IPVS.AddRealServer, IPVS.onService, call_of_no_faults h, hs]
  by_cases hnil : rs.dest.address.text = "<nil>"
  · simp only [if_pos hnil]
    exact ⟨.refl h _, fun hne => absurd hnil hne, .inl, fun _ => id⟩
  · simp only [if_neg hnil]
    cases hdest : service.dests.lookup rs.dest with
    | some st =>
      have hst : ipvs.state vs.key rs.dest = some st := (IPVS.state_of_lookup hs).trans hdest
      exact ⟨.refl h _, fun _ => by simp [hst], .inl, fun _ => id⟩
    | none =>
      refine ⟨frame_insert hs fun d hne => AList.lookup_insert_ne hne, fun _ => ?_,
        fun _ => .inr hnil, fun st hst => ?_⟩
      · rw [state_insert]
        simp
      · rw [IPVS.state_of_lookup hs, hdest] at hst
        cases hst

theorem updateRealServer_spec (h : ipvs.faults = []) {vs : VirtualServer} (hk : vs.key = k)
    {rs : RealServer} (hd : rs.dest = d) {st : DestState} (hst : ipvs.state k d = some st) :
    ∃ ipvs', ipvs.UpdateRealServer vs rs = (ipvs', .ok ()) ∧ ipvs.Frame k (· = d) ipvs' ∧
      ipvs'.state k d = some { st with weight := rs.weight } := by
  subst hk hd
  obtain ⟨service, hs, hdest⟩ := Option.bind_eq_some_iff.mp hst
  simp only [IPVS.UpdateRealServer, IPVS.onService, call_of_no_faults h, hs, hdest]
  refine ⟨_, rfl, frame_insert hs fun d hne => AList.lookup_insert_ne hne, ?_⟩
  rw [state_insert]
  simp

theorem updateRealServer_none (h : ipvs.faults = []) {vs : VirtualServer} (hk : vs.key = k)
    {rs : RealServer} (hd : rs.dest = d) (hst : ipvs.state k d = none) :
    ∃ e, ipvs.UpdateRealServer vs rs = (ipvs, .error e) := by
  subst hk hd
  simp only [IPVS.UpdateRealServer, IPVS.onService, call_of_no_faults h]
  cases hs : ipvs.services.lookup vs.key with
  | none => exact ⟨_, rfl⟩
  | some service =>
    rw [IPVS.state_of_lookup hs] at hst
    simp only [hst]
    exact ⟨_, rfl⟩

theorem deleteRealServer_spec (h : ipvs.faults = []) {vs : VirtualServer} (hk : vs.key = k)
    {rs : RealServer} (hd : rs.dest = d) {st : DestState} (hst : ipvs.state k d = some st) :
    ∃ ipvs', ipvs.DeleteRealServer vs rs = (ipvs', .ok ()) ∧ ipvs.Frame k (· = d) ipvs' ∧
      ipvs'.state k d = none := by
  subst hk hd
  obtain ⟨service, hs, hdest⟩ := Option.bind_eq_some_iff.mp hst
  simp only [IPVS.DeleteRealServer, IPVS.onService, call_of_no_faults h, hs, hdest]
  refine ⟨_, rfl, frame_insert hs fun d hne => AList.lookup_erase_ne hne, ?_⟩
  rw [state_insert]
  simp

theorem deleteRealServer_none (h : ipvs.faults = []) {vs : VirtualServer} (hk : vs.key = k)
    {rs : RealServer} (hd : rs.dest = d) (hst : ipvs.state k d = none) :
    ∃ e, ipvs.DeleteRealServer vs rs = (ipvs, .error e) := by
  subst hk hd
  simp only [IPVS.DeleteRealServer, IPVS.onService, call_of_no_faults h]
  cases hs : ipvs.services.lookup vs.key with
  | none => exact ⟨_, rfl⟩
  | some service =>
    rw [IPVS.state_of_lookup hs] at hst
    simp only [hst]
    exact ⟨_, rfl⟩

/-! ## The list -/

theorem lookup_add (q : RSList) (i : ListItem) (name : String) :
    (q.add i).list.lookup name =
      if name = i.string then some ((q.list.lookup name).getD i) else q.list.lookup name := by
  rw [RSList.add]
  split
  · rename_i old hold
    by_cases hn : name = i.string
    · rw [if_pos hn, hn, hold]
      rfl
    · rw [if_neg hn]
  · rename_i hnone
    rw [GoMap.lookup_insert_eq]
    by_cases hn : name = i.string
    · rw [if_pos hn, if_pos hn, hn, hnone]
      rfl
    · rw [if_neg hn, if_neg hn]

theorem lookup_remove (q : RSList) (i : ListItem) (name : String) :
    (q.remove i).list.lookup name = if name = i.string then none else q.list.lookup name :=
  GoMap.lookup_erase_eq _ _ _

namespace GracefulTerminationManager

variable {m m' m'' : GracefulTerminationManager} {T T' : Dest → Prop}

/-- The state of a destination of a virtual server. -/
def state (m : GracefulTerminationManager) (k : VirtualServerKey) (d : Dest) : Option DestState :=
  m.ipvs.state k d

/-- The entry of the list for a destination of a virtual server. -/
def item (m : GracefulTerminationManager) (k : VirtualServerKey) (d : Dest) : Option ListItem :=
  m.rsList.list.lookup (uniqueRSName k d)

/-- Only these destinations of one virtual server change, in the table and in the list. -/
structure Frame (k : VirtualServerKey) (T : Dest → Prop) (m m' : GracefulTerminationManager) :
    Prop where
  faults : m'.ipvs.faults = []
  has : ∀ k', m'.ipvs.Has k' ↔ m.ipvs.Has k'
  state : ∀ k' d, ¬ (k' = k ∧ T d) → m'.state k' d = m.state k' d
  item : ∀ k' d, ¬ (k' = k ∧ T d) → m'.item k' d = m.item k' d

theorem Frame.refl (h : m.ipvs.faults = []) (T : Dest → Prop) : Frame k T m m :=
  ⟨h, fun _ => Iff.rfl, fun _ _ _ => rfl, fun _ _ _ => rfl⟩

theorem Frame.mono (h : Frame k T m m') (hT : ∀ d, T d → T' d) : Frame k T' m m' where
  faults := h.faults
  has := h.has
  state k' d hd := h.state k' d fun hT' => hd ⟨hT'.1, hT d hT'.2⟩
  item k' d hd := h.item k' d fun hT' => hd ⟨hT'.1, hT d hT'.2⟩

theorem Frame.trans (h : Frame k T m m') (h' : Frame k T m' m'') : Frame k T m m'' where
  faults := h'.faults
  has k' := (h'.has k').trans (h.has k')
  state k' d hd := (h'.state k' d hd).trans (h.state k' d hd)
  item k' d hd := (h'.item k' d hd).trans (h.item k' d hd)

/-- A change of the table alone. -/
theorem Frame.of_ipvs (h : m.ipvs.Frame k T ipvs') : Frame k T m { m with ipvs := ipvs' } :=
  ⟨h.faults, h.has, h.state, fun _ _ _ => rfl⟩

/-- A change of the table and of the entry of one of the destinations. -/
theorem Frame.of_list {q : RSList} (h : m.ipvs.Frame k T ipvs') (hT : T d)
    (hq : ∀ name, name ≠ uniqueRSName k d → q.list.lookup name = m.rsList.list.lookup name) :
    Frame k T m ⟨q, ipvs'⟩ := by
  refine ⟨h.faults, h.has, h.state, fun k' d' hd => hq _ fun hname => hd ?_⟩
  obtain ⟨rfl, rfl⟩ := uniqueRSName_injective hname
  exact ⟨rfl, hT⟩

end GracefulTerminationManager

open GracefulTerminationManager

/-! ## Terminating a destination -/

theorem find_entry (dests : GoMap Dest DestState) (d : Dest) :
    ((dests.entries.map fun e =>
      (⟨e.1, e.2.weight, e.2.activeConn, e.2.inactiveConn⟩ : RealServer)).find? fun rs => rs.dest = d) =
      (dests.lookup d).map fun st => ⟨d, st.weight, st.activeConn, st.inactiveConn⟩ := by
  cases hd : dests.lookup d with
  | none =>
    rw [Option.map_none, List.find?_eq_none]
    intro rs hrs
    obtain ⟨e, he, rfl⟩ := List.mem_map.mp hrs
    intro heq
    obtain rfl := of_decide_eq_true heq
    rw [GoMap.mem_entries_iff.mp he] at hd
    cases hd
  | some st =>
    cases hfind : (dests.entries.map fun e =>
      (⟨e.1, e.2.weight, e.2.activeConn, e.2.inactiveConn⟩ : RealServer)).find? fun rs => rs.dest = d with
    | none =>
      have := List.find?_eq_none.mp hfind _ (List.mem_map_of_mem (GoMap.mem_entries_iff.mpr hd))
      exact absurd (decide_eq_true rfl) this
    | some rs =>
      have heq := List.find?_some hfind
      obtain ⟨e, he, rfl⟩ := List.mem_map.mp (List.mem_of_find?_eq_some hfind)
      obtain rfl := of_decide_eq_true heq
      rw [GoMap.mem_entries_iff.mp he] at hd
      cases hd
      rfl

/-- A destination stays until its connections have expired. -/
def Lingers (k : VirtualServerKey) (st : DestState) : Prop :=
  IsRsGracefulTerminationNeeded k.protocol = true ∧ st.activeConn + st.inactiveConn ≠ 0

/-- The destination of an item is missing, lingers, or is deleted. -/
theorem deleteRsFunc_cases (h : ipvs.faults = []) {i : ListItem} (hk : i.virtualServer.key = k)
    (hd : i.realServer.dest = d) :
    (ipvs.state k d = none ∧ ∃ deleted e, deleteRsFunc ipvs i = (ipvs, deleted, some e)) ∨
      ∃ st, ipvs.state k d = some st ∧
        (Lingers k st ∧ deleteRsFunc ipvs i = (ipvs, false, none) ∨
          ¬ Lingers k st ∧ ∃ ipvs', deleteRsFunc ipvs i = (ipvs', true, none) ∧
            ipvs.Frame k (· = d) ipvs' ∧ ipvs'.state k d = none) := by
  subst hk hd
  unfold deleteRsFunc IPVS.GetRealServers
  rcases query_of_no_faults h i.virtualServer.key fun service => service.dests.entries.map fun e =>
      (⟨e.1, e.2.weight, e.2.activeConn, e.2.inactiveConn⟩ : RealServer) with
    ⟨hs, e, hq⟩ | ⟨service, hs, hq⟩
  · rw [hq]
    refine .inl ⟨?_, false, e, rfl⟩
    rw [IPVS.state, hs]
    rfl
  · rw [hq]
    simp only [find_entry]
    have hstate := IPVS.state_of_lookup (d := i.realServer.dest) hs
    cases hst : service.dests.lookup i.realServer.dest with
    | none => exact .inl ⟨hstate.trans hst, true, _, rfl⟩
    | some st =>
      refine .inr ⟨st, hstate.trans hst, ?_⟩
      simp only [Option.map_some]
      by_cases hl : Lingers i.virtualServer.key st
      · exact .inl ⟨hl, if_pos hl⟩
      · refine .inr ⟨hl, ?_⟩
        have hl' : ¬ (IsRsGracefulTerminationNeeded i.virtualServer.key.protocol = true ∧
            st.activeConn + st.inactiveConn ≠ 0) := hl
        rw [if_neg hl']
        obtain ⟨ipvs', hdel, hframe, hnone⟩ := deleteRealServer_spec h rfl
          (rfl : (⟨i.realServer.dest, st.weight, st.activeConn, st.inactiveConn⟩ : RealServer).dest = _)
          (hstate.trans hst)
        rw [hdel]
        exact ⟨ipvs', rfl, hframe, hnone⟩

variable {m : GracefulTerminationManager}

/-- A graceful deletion of a destination: it gets the weight 0 and an entry in the list, or
it is deleted. -/
theorem gracefulDelete_spec (h : m.ipvs.faults = []) {vs : VirtualServer} (hk : vs.key = k)
    {rs : RealServer} (hd : rs.dest = d) :
    let m' := (m.GracefulDeleteRS vs rs).1
    Frame k (· = d) m m' ∧ (m'.state k d ≠ none → m.state k d ≠ none) ∧
      ∀ st, m.state k d = some st →
        Lingers k st ∧ m'.state k d = some { st with weight := 0 } ∧ m'.item k d ≠ none ∨
          ¬ Lingers k st ∧ m'.state k d = none ∧ m'.item k d = m.item k d := by
  have hd₀ : ({ rs with weight := 0 } : RealServer).dest = d := hd
  unfold GracefulDeleteRS
  rcases deleteRsFunc_cases (i := ⟨vs, rs⟩) h hk hd with
    ⟨hnone, deleted, e, hdel⟩ | ⟨st, hst, ⟨hl, hdel⟩ | ⟨hl, ipvs', hdel, hframe, hnone⟩⟩
  · rw [hdel]
    have hmissing : ∀ st, m.state k d ≠ some st := fun st hst => by
      rw [state, hnone] at hst
      cases hst
    cases deleted with
    | true => exact ⟨.refl h _, id, fun st hst => absurd hst (hmissing st)⟩
    | false =>
      obtain ⟨e, hup⟩ := updateRealServer_none h hk hd₀ hnone
      simp only [hup]
      exact ⟨.refl h _, id, fun st hst => absurd hst (hmissing st)⟩
  · rw [hdel]
    obtain ⟨ipvs', hup, hframe, hst'⟩ := updateRealServer_spec h hk hd₀ hst
    simp only [hup]
    have hname : (⟨vs, { rs with weight := 0 }⟩ : ListItem).string = uniqueRSName k d := by
      rw [ListItem.string, hk, hd₀]
    have hthere : m.state k d ≠ none := fun hnone => by
      rw [state, hst] at hnone
      cases hnone
    refine ⟨.of_list hframe rfl fun name hne => ?_, fun _ => hthere, fun st' heq => .inl ?_⟩
    · rw [lookup_add, if_neg (hname ▸ hne)]
    · cases hst.symm.trans heq
      refine ⟨hl, hst', ?_⟩
      rw [item, lookup_add, if_pos hname.symm]
      exact Option.some_ne_none _
  · rw [hdel]
    refine ⟨.of_ipvs hframe, fun hst' => absurd hnone hst', fun st' heq => .inr ?_⟩
    cases hst.symm.trans heq
    exact ⟨hl, hnone, rfl⟩

/-- An entry of the list is deleted with its destination, if that is there. -/
theorem moveOut_cases (h : m.ipvs.faults = []) {i : ListItem} (hi : m.item k d = some i) :
    (m.state k d = none ∧ ∃ e, m.MoveRSOutofGracefulDeleteList (uniqueRSName k d) = (m, some e)) ∨
      m.state k d ≠ none ∧ ∃ m', m.MoveRSOutofGracefulDeleteList (uniqueRSName k d) = (m', none) ∧
        Frame k (· = d) m m' ∧ m'.state k d = none ∧ m'.item k d = none := by
  have hname : i.string = uniqueRSName k d := m.rsList.named _ _ hi
  obtain ⟨hk, hd⟩ := uniqueRSName_injective hname
  have hexist : m.rsList.exist (uniqueRSName k d) = some i := hi
  rw [MoveRSOutofGracefulDeleteList, hexist]
  cases hst : m.state k d with
  | none =>
    obtain ⟨e, hdel⟩ := deleteRealServer_none h hk hd hst
    simp only [hdel]
    exact .inl ⟨trivial, e, rfl⟩
  | some st =>
    obtain ⟨ipvs', hdel, hframe, hnone⟩ := deleteRealServer_spec h hk hd hst
    simp only [hdel]
    refine .inr ⟨Option.some_ne_none st, _, rfl, .of_list hframe rfl fun name hne => ?_, hnone, ?_⟩
    · rw [lookup_remove, if_neg (hname ▸ hne)]
    · rw [item, lookup_remove, if_pos hname.symm]

end Fleetboard.Ipvs

import Fleetboard.Model.Proxier
import Fleetboard.Proof.IpvsTable

/-!
# The loops of a sync of one virtual server

* `createEndpoint_spec`, `deleteEndpoint_spec`: what one iteration of each loop does to the
  destination of its endpoint;
* `createLoop_of_mem`, `createLoop_of_notMem`, `deleteLoop_spec`: what each loop does to a
  destination;
* `syncLoops_of_mem`, `syncLoops_of_none`, `syncLoops_of_some`: what both loops do.
-/

namespace Fleetboard.Ipvs

open Fleetboard.Proxy GracefulTerminationManager

variable {cfg : Config} {m : GracefulTerminationManager} {k : VirtualServerKey} {d : Dest}
  {vs applied : VirtualServer} {curDests : List RealServer} {initialSync : Bool} {ep : String}

/-! ## One endpoint -/

theorem resetWeight_spec (h : m.ipvs.faults = []) (hk : applied.key = k) {newDest : RealServer}
    (hd : newDest.dest = d) (curDests : List RealServer) :
    let m' := resetWeight m applied curDests newDest
    Frame k (· = d) m m' ∧ (m'.state k d = none ↔ m.state k d = none) ∧ m'.rsList = m.rsList := by
  induction curDests generalizing m with
  | nil => exact ⟨.refl h _, Iff.rfl, rfl⟩
  | cons dest curDests ih =>
    by_cases hw : dest.weight ≠ newDest.weight
    · cases hst : m.state k d with
      | none =>
        obtain ⟨e, hup⟩ := updateRealServer_none h hk hd hst
        obtain ⟨hframe, hstate, hlist⟩ := ih h
        rw [resetWeight, List.foldl_cons, if_pos hw, hup]
        exact ⟨hframe, hstate.trans (by rw [hst]), hlist⟩
      | some st =>
        obtain ⟨ipvs', hup, hframe', hst'⟩ := updateRealServer_spec h hk hd hst
        have hframe₁ : Frame k (· = d) m { m with ipvs := ipvs' } := .of_ipvs hframe'
        obtain ⟨hframe, hstate, hlist⟩ := @ih { m with ipvs := ipvs' } hframe'.faults
        rw [resetWeight, List.foldl_cons, if_pos hw, hup]
        refine ⟨hframe₁.trans hframe, hstate.trans ?_, hlist⟩
        have hne : GracefulTerminationManager.state { m with ipvs := ipvs' } k d ≠ none := by
          rw [GracefulTerminationManager.state, hst']
          exact Option.some_ne_none _
        exact iff_of_false hne (Option.some_ne_none st)
    · rw [resetWeight, List.foldl_cons, if_neg hw]
      exact ih h

theorem addDest_spec (h : m.ipvs.faults = []) (hk : applied.key = k) (hhas : m.ipvs.Has k)
    {newDest : RealServer} (hd : newDest.dest = d) :
    let m' := addDest m applied newDest
    Frame k (· = d) m m' ∧ (d.address.text ≠ "<nil>" → m'.state k d ≠ none) ∧
      (m'.state k d ≠ none → m.state k d ≠ none ∨ d.address.text ≠ "<nil>") ∧
      (∀ st, m.state k d = some st → m'.state k d = some st) ∧ m'.rsList = m.rsList := by
  obtain ⟨hframe, hadded, hnil, hkept⟩ := addRealServer_spec h hk hhas hd
  exact ⟨.of_ipvs hframe, hadded, hnil, hkept, rfl⟩

/-- What is left to do for an endpoint that is a real server already. -/
def moveBack (vs applied : VirtualServer) (d : Dest) (m : GracefulTerminationManager) :
    GracefulTerminationManager :=
  if ¬ m.InTerminationList (uniqueRSName vs.key d) then m
  else
    match m.MoveRSOutofGracefulDeleteList (uniqueRSName vs.key d) with
    | (m, some _) => m
    | (m, none) => addDest m applied ⟨d, 1, 0, 0⟩

theorem moveBack_spec (h : m.ipvs.faults = []) (hvs : vs.key = k) (hk : applied.key = k)
    (hhas : m.ipvs.Has k) :
    let m' := moveBack vs applied d m
    Frame k (· = d) m m' ∧
      (m'.state k d ≠ none → m.state k d ≠ none) ∧ (m'.item k d ≠ none → m.item k d ≠ none) ∧
      (m.state k d ≠ none → d.address.text ≠ "<nil>" → m'.state k d ≠ none ∧ m'.item k d = none) := by
  subst hvs
  unfold moveBack
  cases hi : m.item vs.key d with
  | none =>
    have hlist : ¬ m.InTerminationList (uniqueRSName vs.key d) = true := by
      rw [InTerminationList, show m.rsList.exist _ = none from hi]
      exact Bool.false_ne_true
    rw [if_pos hlist]
    exact ⟨.refl h _, id, fun hne => hi ▸ hne, fun hst _ => ⟨hst, hi⟩⟩
  | some i =>
    have hlist : m.InTerminationList (uniqueRSName vs.key d) = true := by
      rw [InTerminationList, show m.rsList.exist _ = some i from hi]
      rfl
    rw [if_neg (not_not_intro hlist)]
    rcases moveOut_cases h hi with ⟨hnone, e, hmove⟩ | ⟨hst, m₁, hmove, hframe, -, hitem⟩
    · rw [hmove]
      exact ⟨.refl h _, id, fun _ => Option.some_ne_none i, fun hst => absurd hnone hst⟩
    · rw [hmove]
      obtain ⟨hframe', hadded, -, -, hlist'⟩ := addDest_spec hframe.faults hk
        ((hframe.has vs.key).mpr hhas) (rfl : (⟨d, 1, 0, 0⟩ : RealServer).dest = d)
      refine ⟨hframe.trans hframe', fun _ => hst, fun _ => Option.some_ne_none i,
        fun _ hnil => ⟨hadded hnil, ?_⟩⟩
      rw [item, hlist', ← item, hitem]

/-- What an iteration of the creating loop does to the destination of its endpoint. -/
theorem createEndpoint_spec (cfg : Config) (initialSync : Bool) (curDests : List RealServer)
    (h : m.ipvs.faults = []) (hvs : vs.key = k) (hk : applied.key = k) (hhas : m.ipvs.Has k)
    (hparse : parseEndpoint cfg ep = some d) :
    let m' := createEndpoint cfg initialSync vs applied curDests m ep
    Frame k (· = d) m m' ∧
      (m'.state k d ≠ none → m.state k d ≠ none ∨ d.address.text ≠ "<nil>") ∧
      (m'.item k d ≠ none → m.item k d ≠ none) ∧
      (ep ∈ curDests.map (·.dest.string) → m.state k d ≠ none → d.address.text ≠ "<nil>" →
        m'.state k d ≠ none ∧ m'.item k d = none) ∧
      (ep ∉ curDests.map (·.dest.string) → m'.item k d = m.item k d ∧
        (∀ st, m.state k d = some st → m'.state k d = some st) ∧
        (d.address.text ≠ "<nil>" → m'.state k d ≠ none)) := by
  intro m'
  by_cases hcur : ep ∈ curDests.map (·.dest.string)
  · obtain ⟨m₁, hm₁, hframe₁, hstate₁, hlist₁⟩ : ∃ m₁, m' = moveBack vs applied d m₁ ∧
        Frame k (· = d) m m₁ ∧ (m₁.state k d = none ↔ m.state k d = none) ∧
        m₁.rsList = m.rsList := by
      cases initialSync with
      | false =>
        refine ⟨m, ?_, .refl h _, Iff.rfl, rfl⟩
        simp only [m', createEndpoint, hparse, if_pos hcur, moveBack]
        rfl
      | true =>
        have hreset := resetWeight_spec h hk (rfl : (⟨d, 1, 0, 0⟩ : RealServer).dest = d) curDests
        refine ⟨_, ?_, hreset⟩
        simp only [m', createEndpoint, hparse, if_pos hcur, moveBack]
        rfl
    obtain ⟨hframe, hback, hitem, hdone⟩ := moveBack_spec hframe₁.faults hvs hk ((hframe₁.has k).mpr hhas)
    rw [← hm₁] at hframe hback hitem hdone
    rw [show m₁.item k d = m.item k d by rw [item, hlist₁, item]] at hitem
    exact ⟨hframe₁.trans hframe, fun hst => .inl fun hnone => hback hst (hstate₁.mpr hnone), hitem,
      fun _ hst hnil => hdone (fun hnone => hst (hstate₁.mp hnone)) hnil, fun hnew => absurd hcur hnew⟩
  · have hm' : m' = addDest m applied ⟨d, 1, 0, 0⟩ := by
      simp only [m', createEndpoint, hparse, if_neg hcur]
    obtain ⟨hframe, hadded, hnil, hkept, hlist⟩ :=
      addDest_spec h hk hhas (rfl : (⟨d, 1, 0, 0⟩ : RealServer).dest = d)
    rw [← hm'] at hframe hadded hnil hkept hlist
    have hitem : m'.item k d = m.item k d := by rw [item, hlist, item]
    exact ⟨hframe, hnil, fun hne => hitem ▸ hne, fun hold => absurd hold hcur,
      fun _ => ⟨hitem, hkept, hadded⟩⟩

theorem inTerminationList_iff :
    m.InTerminationList (uniqueRSName k d) = true ↔ m.item k d ≠ none :=
  Option.isSome_iff_ne_none

/-- What the deleting loop does to a destination: in the list it stays as it is, and else it
gets the weight 0 and an entry in the list, or is deleted. -/
def Deletes (k : VirtualServerKey) (d : Dest) (m m' : GracefulTerminationManager) : Prop :=
  (m.item k d ≠ none → m'.state k d = m.state k d ∧ m'.item k d = m.item k d) ∧
    (m.item k d = none → ∀ st, m.state k d = some st →
      Lingers k st ∧ m'.state k d = some { st with weight := 0 } ∧ m'.item k d ≠ none ∨
        ¬ Lingers k st ∧ m'.state k d = none ∧ m'.item k d = none)

/-- What an iteration of the deleting loop does to the destination of its endpoint. -/
theorem deleteEndpoint_spec (h : m.ipvs.faults = []) (hvs : vs.key = k) (hk : applied.key = k)
    (hreads : ReadsBack cfg d) :
    let m' := deleteEndpoint cfg vs applied m d.string
    Frame k (· = d) m m' ∧ (m'.state k d ≠ none → m.state k d ≠ none) ∧ Deletes k d m m' := by
  subst hvs
  intro m'
  by_cases hlist : m.InTerminationList (uniqueRSName vs.key d) = true
  · have hm' : m' = m := if_pos hlist
    rw [hm']
    exact ⟨.refl h _, id, fun _ => ⟨rfl, rfl⟩,
      fun hitem => absurd hitem (inTerminationList_iff.mp hlist)⟩
  · have hm' : m' = (m.GracefulDeleteRS applied ⟨d, 0, 0, 0⟩).1 := by
      have hlist' : ¬ m.InTerminationList (vs.key.string ++ "/" ++ d.string) = true := hlist
      simp only [m', deleteEndpoint, if_neg hlist', parseEndpoint_string hreads]
    obtain ⟨hframe, hkept, hdone⟩ :=
      gracefulDelete_spec h hk (rfl : (⟨d, 0, 0, 0⟩ : RealServer).dest = d)
    rw [← hm'] at hframe hkept hdone
    refine ⟨hframe, hkept, fun hitem => absurd (inTerminationList_iff.mpr hitem) hlist, ?_⟩
    intro hitem
    rw [hitem] at hdone
    exact hdone

/-! ## The loops -/

/-- What may change when endpoints are created: some destinations of one virtual server, new
ones can be read back, and nothing goes into the list. -/
structure Creates (cfg : Config) (k : VirtualServerKey) (T : Dest → Prop)
    (m m' : GracefulTerminationManager) : Prop where
  frame : Frame k T m m'
  state : ∀ d, m'.state k d ≠ none →
    m.state k d ≠ none ∨ ReadsBack cfg d ∧ d.address.text ≠ "<nil>"
  item : ∀ d, m'.item k d ≠ none → m.item k d ≠ none

theorem Creates.mono {T T' : Dest → Prop} {m' : GracefulTerminationManager}
    (h : Creates cfg k T m m') (hT : ∀ d, T d → T' d) : Creates cfg k T' m m' :=
  ⟨h.frame.mono hT, h.state, h.item⟩

theorem Creates.trans {T : Dest → Prop} {m' m'' : GracefulTerminationManager}
    (h : Creates cfg k T m m') (h' : Creates cfg k T m' m'') : Creates cfg k T m m'' where
  frame := h.frame.trans h'.frame
  state d hst := (h'.state d hst).elim (h.state d) .inr
  item d hitem := h.item d (h'.item d hitem)

section CreateLoop

variable (cfg initialSync curDests) (hvs : vs.key = k) (hk : applied.key = k)
  (h : m.ipvs.faults = []) (hhas : m.ipvs.Has k)

include hvs hk h hhas

theorem createEndpoint_creates (ep : String) :
    Creates cfg k (fun d => parseEndpoint cfg ep = some d) m
      (createEndpoint cfg initialSync vs applied curDests m ep) := by
  cases hparse : parseEndpoint cfg ep with
  | none =>
    simp only [createEndpoint, hparse]
    exact ⟨.refl h _, fun _ => .inl, fun _ => id⟩
  | some d =>
    obtain ⟨hframe, hnew, hitem, -⟩ :=
      createEndpoint_spec cfg initialSync curDests h hvs hk hhas hparse
    refine ⟨hframe.mono fun d' heq => heq ▸ rfl, fun d' hst => ?_, fun d' hne => ?_⟩
    · by_cases hd : d' = d
      · subst hd
        exact (hnew hst).imp_right fun hnil => ⟨readsBack_of_parse hparse, hnil⟩
      · rw [hframe.state k d' fun hT => hd hT.2] at hst
        exact .inl hst
    · by_cases hd : d' = d
      · subst hd
        exact hitem hne
      · rwa [hframe.item k d' fun hT => hd hT.2] at hne

/-- The creating loop changes destinations that can be read from its endpoints. -/
theorem createLoop_creates (eps : List String) :
    Creates cfg k (fun d => ∃ ep ∈ eps, parseEndpoint cfg ep = some d) m
      (eps.foldl (createEndpoint cfg initialSync vs applied curDests) m) := by
  induction eps generalizing m with
  | nil => exact ⟨.refl h _, fun _ => .inl, fun _ => id⟩
  | cons ep eps ih =>
    have hstep := createEndpoint_creates cfg curDests initialSync hvs hk h hhas ep
    have hrest := ih hstep.frame.faults ((hstep.frame.has k).mpr hhas)
    have hleft : ∀ d, parseEndpoint cfg ep = some d →
        ∃ ep' ∈ ep :: eps, parseEndpoint cfg ep' = some d :=
      fun d hd => ⟨ep, List.mem_cons_self, hd⟩
    have hright : ∀ d, (∃ ep' ∈ eps, parseEndpoint cfg ep' = some d) →
        ∃ ep' ∈ ep :: eps, parseEndpoint cfg ep' = some d :=
      fun d ⟨ep', hep', hd⟩ => ⟨ep', List.mem_cons_of_mem _ hep', hd⟩
    exact (hstep.mono hleft).trans (hrest.mono hright)

variable (hnil : d.address.text ≠ "<nil>")
  (hsame : ∀ ep ∈ curDests.map (·.dest.string), parseEndpoint cfg ep = some d → ep = d.string)

include hnil hsame

/-- After the creating loop a destination whose text is among the endpoints is there, and
not in the list if it was there before. -/
theorem createLoop_of_mem (eps : List String) (hreads : ReadsBack cfg d)
    (hcur : d.string ∈ curDests.map (·.dest.string) → m.state k d ≠ none) :
    let m' := eps.foldl (createEndpoint cfg initialSync vs applied curDests) m
    (m.state k d ≠ none ∨ d.string ∈ eps → m'.state k d ≠ none) ∧
      m'.item k d =
        if d.string ∈ curDests.map (·.dest.string) ∧ d.string ∈ eps then none else m.item k d := by
  have hstring : parseEndpoint cfg d.string = some d := parseEndpoint_string hreads
  induction eps generalizing m with
  | nil => exact ⟨fun hor => hor.resolve_right List.not_mem_nil, by simp⟩
  | cons ep eps ih =>
    have hframe := (createEndpoint_creates cfg curDests initialSync hvs hk h hhas ep).frame
    have hhas' := (hframe.has k).mpr hhas
    rw [List.foldl_cons]
    by_cases hparse : parseEndpoint cfg ep = some d
    · obtain ⟨-, -, -, hold, hnew⟩ := createEndpoint_spec cfg initialSync curDests h hvs hk hhas hparse
      by_cases hin : ep ∈ curDests.map (·.dest.string)
      · obtain rfl := hsame ep hin hparse
        obtain ⟨hst, hitem⟩ := hold hin (hcur hin) hnil
        obtain ⟨hst', hitem'⟩ := ih hframe.faults hhas' fun _ => hst
        refine ⟨fun _ => hst' (.inl hst), ?_⟩
        rw [hitem', hitem, ite_self, if_pos ⟨hin, List.mem_cons_self⟩]
      · obtain ⟨hitem, -, hst⟩ := hnew hin
        obtain ⟨hst', hitem'⟩ := ih hframe.faults hhas' fun _ => hst hnil
        refine ⟨fun _ => hst' (.inl (hst hnil)), ?_⟩
        rw [hitem', hitem]
        refine if_congr (and_congr_right fun hin' => ?_) rfl rfl
        have hne : d.string ≠ ep := fun heq => hin (heq ▸ hin')
        exact ⟨List.mem_cons_of_mem _, fun hmem => (List.mem_cons.mp hmem).resolve_left hne⟩
    · have hout : ¬ (k = k ∧ parseEndpoint cfg ep = some d) := fun hT => hparse hT.2
      have hmem : d.string ∈ ep :: eps ↔ d.string ∈ eps := by
        refine ⟨fun hmem => (List.mem_cons.mp hmem).resolve_left ?_, List.mem_cons_of_mem _⟩
        exact fun heq => hparse (heq ▸ hstring)
      have hrest := ih hframe.faults hhas' fun hin => by
        rw [hframe.state k d hout]
        exact hcur hin
      rw [hframe.state k d hout, hframe.item k d hout] at hrest
      simp only [hmem]
      exact hrest

/-- After the creating loop a destination whose text is not among the endpoints is as before, or
is new if it was not there and could be read from one of them. -/
theorem createLoop_of_notMem {eps : List String} (hd : d.string ∉ eps) :
    let m' := eps.foldl (createEndpoint cfg initialSync vs applied curDests) m
    m'.item k d = m.item k d ∧ (∀ st, m.state k d = some st → m'.state k d = some st) ∧
      ((∃ ep ∈ eps, parseEndpoint cfg ep = some d) → m'.state k d ≠ none) := by
  induction eps generalizing m with
  | nil => exact ⟨rfl, fun _ => id, fun ⟨_, hep, _⟩ => absurd hep List.not_mem_nil⟩
  | cons ep eps ih =>
    have hframe := (createEndpoint_creates cfg curDests initialSync hvs hk h hhas ep).frame
    have hd' : d.string ∉ eps := fun hmem => hd (List.mem_cons_of_mem _ hmem)
    obtain ⟨hitem', hkept', hnew'⟩ := ih hframe.faults ((hframe.has k).mpr hhas) hd'
    rw [List.foldl_cons]
    by_cases hparse : parseEndpoint cfg ep = some d
    · have hin : ep ∉ curDests.map (·.dest.string) := fun hin =>
        hd (hsame ep hin hparse ▸ List.mem_cons_self)
      obtain ⟨-, -, -, -, hnew⟩ := createEndpoint_spec cfg initialSync curDests h hvs hk hhas hparse
      obtain ⟨hitem, hkept, hst⟩ := hnew hin
      refine ⟨hitem'.trans hitem, fun st hst => hkept' st (hkept st hst), fun _ => ?_⟩
      obtain ⟨st, hst⟩ := Option.ne_none_iff_exists'.mp (hst hnil)
      rw [hkept' st hst]
      exact Option.some_ne_none st
    · have hout : ¬ (k = k ∧ parseEndpoint cfg ep = some d) := fun hT => hparse hT.2
      rw [hframe.state k d hout] at hkept'
      refine ⟨hitem'.trans (hframe.item k d hout), hkept', fun ⟨ep', hep', hparse'⟩ => hnew' ?_⟩
      rcases List.mem_cons.mp hep' with rfl | hep'
      · exact absurd hparse' hparse
      · exact ⟨ep', hep', hparse'⟩

end CreateLoop

/-- The deleting loop changes the destinations of its endpoints. -/
theorem deleteLoop_spec (hvs : vs.key = k) (hk : applied.key = k) {eps : List String}
    (hnodup : eps.Nodup) (hreads : ∀ ep ∈ eps, ∃ d : Dest, d.string = ep ∧ ReadsBack cfg d)
    (h : m.ipvs.faults = []) :
    let m' := eps.foldl (deleteEndpoint cfg vs applied) m
    Frame k (fun d => d.string ∈ eps) m m' ∧ (∀ d, m'.state k d ≠ none → m.state k d ≠ none) ∧
      ∀ d : Dest, d.string ∈ eps → Deletes k d m m' := by
  induction eps generalizing m with
  | nil => exact ⟨.refl h _, fun _ => id, fun _ hd => absurd hd List.not_mem_nil⟩
  | cons ep eps ih =>
    obtain ⟨hnotin, hnodup'⟩ := List.nodup_cons.mp hnodup
    obtain ⟨d₁, rfl, hreads₁⟩ := hreads ep List.mem_cons_self
    obtain ⟨hframe, hkept, hdone⟩ := deleteEndpoint_spec (m := m) (d := d₁) h hvs hk hreads₁
    obtain ⟨hframe', hkept', hdone'⟩ :=
      ih hnodup' (fun ep hep => hreads ep (List.mem_cons_of_mem _ hep)) hframe.faults
    have hcons : ∀ d : Dest, d.string ∈ eps → d.string ∈ d₁.string :: eps :=
      fun d hd => List.mem_cons_of_mem _ hd
    have hhead : ∀ d : Dest, d = d₁ → d.string ∈ d₁.string :: eps :=
      fun d hd => hd ▸ List.mem_cons_self
    have hstay : ∀ d', d' ≠ d₁ → ¬ (k = k ∧ d' = d₁) := fun d' hne hT => hne hT.2
    refine ⟨(hframe.mono hhead).trans (hframe'.mono hcons), fun d hst => ?_, fun d hd => ?_⟩
    · by_cases heq : d = d₁
      · subst heq
        exact hkept (hkept' d hst)
      · have hst' := hkept' d hst
        rwa [hframe.state k d (hstay d heq)] at hst'
    · rw [List.foldl_cons, Deletes]
      by_cases heq : d = d₁
      · subst heq
        have hout : ¬ (k = k ∧ d.string ∈ eps) := fun hT => hnotin hT.2
        rw [hframe'.state k d hout, hframe'.item k d hout]
        exact hdone
      · have hd' : d.string ∈ eps :=
          (List.mem_cons.mp hd).resolve_left fun hstr => heq (dest_string_injective hstr)
        have hrest := hdone' d hd'
        rwa [Deletes, hframe.state k d (hstay d heq), hframe.item k d (hstay d heq)] at hrest

/-- The texts of the destinations that are not among the selected endpoints. -/
def oldEndpoints (curDests : List RealServer) (order : RangeOrder String)
    (newEndpoints : List String) : List String :=
  order.visit ((curDests.map (·.dest.string)).dedup.filter (· ∉ newEndpoints))

theorem mem_oldEndpoints {order : RangeOrder String} {newEndpoints : List String} :
    ep ∈ oldEndpoints curDests order newEndpoints ↔
      ep ∈ curDests.map (·.dest.string) ∧ ep ∉ newEndpoints := by
  rw [oldEndpoints, order.mem_visit, List.mem_filter, List.mem_dedup, decide_eq_true_iff]

theorem nodup_oldEndpoints (order : RangeOrder String) (newEndpoints : List String) :
    (oldEndpoints curDests order newEndpoints).Nodup :=
  (order.perm _).nodup_iff.mpr ((List.nodup_dedup _).filter _)

/-- Both loops, for the destinations before them and the texts of the selected endpoints. -/
def syncLoops (cfg : Config) (initialSync : Bool) (vs applied : VirtualServer)
    (curDests : List RealServer) (order : RangeOrder String) (newEndpoints : List String)
    (m : GracefulTerminationManager) : GracefulTerminationManager :=
  (oldEndpoints curDests order newEndpoints).foldl (deleteEndpoint cfg vs applied)
    (newEndpoints.foldl (createEndpoint cfg initialSync vs applied curDests) m)

/-- What the loops start from: the virtual server of the table, its destinations, which can
be read back from their texts, and no faults. -/
structure Starts (cfg : Config) (m : GracefulTerminationManager) (vs applied : VirtualServer)
    (curDests : List RealServer) : Prop where
  faults : m.ipvs.faults = []
  key : applied.key = vs.key
  has : m.ipvs.Has vs.key
  cur : ∀ d : Dest, d.string ∈ curDests.map (·.dest.string) ↔ m.state vs.key d ≠ none
  reads : ∀ d, m.state vs.key d ≠ none → ReadsBack cfg d

section SyncLoops

variable {order : RangeOrder String} {newEndpoints : List String}
  (hs : Starts cfg m vs applied curDests)

include hs

theorem Starts.of_mem_cur (hep : ep ∈ curDests.map (·.dest.string)) :
    ∃ d : Dest, d.string = ep ∧ ReadsBack cfg d := by
  obtain ⟨rs, -, rfl⟩ := List.mem_map.mp hep
  exact ⟨rs.dest, rfl, hs.reads _ ((hs.cur _).mp hep)⟩

/-- A destination is read from no other text among those of the destinations. -/
theorem Starts.same (hep : ep ∈ curDests.map (·.dest.string)) (hparse : parseEndpoint cfg ep = some d) :
    ep = d.string := by
  obtain ⟨d', rfl, hreads⟩ := hs.of_mem_cur hep
  rw [parseEndpoint_string hreads] at hparse
  cases hparse
  rfl

theorem Starts.deleteLoop {m' : GracefulTerminationManager} (order : RangeOrder String)
    (newEndpoints : List String) (h' : m'.ipvs.faults = []) :
    let m'' := (oldEndpoints curDests order newEndpoints).foldl (deleteEndpoint cfg vs applied) m'
    Frame vs.key (fun d => d.string ∈ oldEndpoints curDests order newEndpoints) m' m'' ∧
      (∀ d, m''.state vs.key d ≠ none → m'.state vs.key d ≠ none) ∧
      ∀ d : Dest, d.string ∈ oldEndpoints curDests order newEndpoints → Deletes vs.key d m' m'' :=
  deleteLoop_spec rfl hs.key (nodup_oldEndpoints order newEndpoints)
    (fun _ hep => hs.of_mem_cur (mem_oldEndpoints.mp hep).1) h'

theorem Starts.createLoop (initialSync : Bool) (newEndpoints : List String) :
    Creates cfg vs.key (fun d => ∃ ep ∈ newEndpoints, parseEndpoint cfg ep = some d) m
      (newEndpoints.foldl (createEndpoint cfg initialSync vs applied curDests) m) :=
  createLoop_creates cfg curDests initialSync rfl hs.key hs.faults hs.has newEndpoints

/-- Only the destinations of the virtual server change, to ones that can be read back, and only
ones that were there go into the list. -/
theorem syncLoops_frame (initialSync : Bool) (order : RangeOrder String)
    (newEndpoints : List String) :
    let m' := syncLoops cfg initialSync vs applied curDests order newEndpoints m
    Frame vs.key (fun _ => True) m m' ∧
      (∀ d, m'.state vs.key d ≠ none →
        m.state vs.key d ≠ none ∨ ReadsBack cfg d ∧ d.address.text ≠ "<nil>") ∧
      ∀ d, m'.item vs.key d ≠ none → m.item vs.key d ≠ none ∨ m.state vs.key d ≠ none := by
  have hcreate := hs.createLoop initialSync newEndpoints
  obtain ⟨hframe', hkept, -⟩ := hs.deleteLoop order newEndpoints hcreate.frame.faults
  refine ⟨(hcreate.frame.mono fun _ _ => trivial).trans (hframe'.mono fun _ _ => trivial),
    fun d hst => hcreate.state d (hkept d hst), fun d hitem => ?_⟩
  by_cases hold : d.string ∈ oldEndpoints curDests order newEndpoints
  · exact .inr ((hs.cur d).mp (mem_oldEndpoints.mp hold).1)
  · have hitem' := hframe'.item vs.key d fun hT => hold hT.2
    exact .inl (hcreate.item d fun hnone => hitem (hitem'.trans hnone))

variable (hnil : d.address.text ≠ "<nil>")

include hnil

/-- A destination whose text is selected is there, and in the list only if it was in the list
and not there. -/
theorem syncLoops_of_mem (hreads : ReadsBack cfg d) (hd : d.string ∈ newEndpoints) :
    let m' := syncLoops cfg initialSync vs applied curDests order newEndpoints m
    m'.state vs.key d ≠ none ∧
      (m'.item vs.key d ≠ none ↔ m.item vs.key d ≠ none ∧ m.state vs.key d = none) := by
  have hframe := (hs.createLoop initialSync newEndpoints).frame
  obtain ⟨hst, hitem⟩ := createLoop_of_mem cfg curDests initialSync rfl hs.key hs.faults hs.has hnil
    (fun _ => hs.same) newEndpoints hreads (hs.cur d).mp
  obtain ⟨hframe', -, -⟩ := hs.deleteLoop order newEndpoints hframe.faults
  have hout : ¬ (vs.key = vs.key ∧ d.string ∈ oldEndpoints curDests order newEndpoints) :=
    fun hT => (mem_oldEndpoints.mp hT.2).2 hd
  intro m'
  have hst' : m'.state vs.key d = _ := hframe'.state _ d hout
  have hitem' : m'.item vs.key d = _ := hframe'.item _ d hout
  rw [hst', hitem', hitem]
  refine ⟨hst (.inr hd), ?_⟩
  by_cases hin : d.string ∈ curDests.map (·.dest.string)
  · rw [if_pos ⟨hin, hd⟩]
    exact iff_of_false (fun hne => hne rfl) fun hT => (hs.cur d).mp hin hT.2
  · rw [if_neg fun hT => hin hT.1]
    exact (and_iff_left (not_not.mp (mt (hs.cur d).mpr hin))).symm

/-- A destination whose text is not selected is added if it can be read from one that is. -/
theorem syncLoops_of_none (hd : d.string ∉ newEndpoints) (hnone : m.state vs.key d = none) :
    let m' := syncLoops cfg initialSync vs applied curDests order newEndpoints m
    m'.item vs.key d = m.item vs.key d ∧
      (m'.state vs.key d ≠ none ↔ ∃ ep ∈ newEndpoints, parseEndpoint cfg ep = some d) := by
  have hframe := (hs.createLoop initialSync newEndpoints).frame
  obtain ⟨hitem, -, hnew⟩ := createLoop_of_notMem cfg curDests initialSync rfl hs.key
    hs.faults hs.has hnil (fun _ => hs.same) hd
  obtain ⟨hframe', -, -⟩ := hs.deleteLoop order newEndpoints hframe.faults
  have hout : ¬ (vs.key = vs.key ∧ d.string ∈ oldEndpoints curDests order newEndpoints) :=
    fun hT => (hs.cur d).mp (mem_oldEndpoints.mp hT.2).1 hnone
  intro m'
  have hst' : m'.state vs.key d = _ := hframe'.state _ d hout
  have hitem' : m'.item vs.key d = _ := hframe'.item _ d hout
  rw [hst', hitem']
  refine ⟨hitem, fun hst => not_not.mp fun hno => hst ?_, hnew⟩
  rw [hframe.state _ d fun hT => hno hT.2, hnone]

/-- A destination whose text is not selected is deleted as the deleting loop does. -/
theorem syncLoops_of_some (hd : d.string ∉ newEndpoints) {st : DestState}
    (hst : m.state vs.key d = some st) :
    Deletes vs.key d m (syncLoops cfg initialSync vs applied curDests order newEndpoints m) := by
  have hframe := (hs.createLoop initialSync newEndpoints).frame
  obtain ⟨hitem, hkept, -⟩ := createLoop_of_notMem cfg curDests initialSync rfl hs.key
    hs.faults hs.has hnil (fun _ => hs.same) hd
  obtain ⟨-, -, hdone⟩ := hs.deleteLoop order newEndpoints hframe.faults
  have hcur := (hs.cur d).mpr (hst ▸ Option.some_ne_none st)
  have hdel := hdone d (mem_oldEndpoints.mpr ⟨hcur, hd⟩)
  rwa [Deletes, hitem, hkept st hst, ← hst] at hdel

end SyncLoops

end Fleetboard.Ipvs

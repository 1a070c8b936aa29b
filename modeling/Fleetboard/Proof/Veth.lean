import Fleetboard.Framework.Runs
import Fleetboard.Model.Dedinic

/-!
# The host ends of the pods' interfaces

The name of the interface leaves room for three characters of the container ID in
the names of a pod's veth pair. When two pods have these in common, the setup for
the second one fails, and its clean-up deletes the pair of the first one by name.

* `configureNic_cases`: the setup of a pod's pair succeeds when no pair with its three
  characters is left, and fails otherwise.
* `nics_kept_iff`: in a run, all setups succeed and all pairs are kept exactly when
  no pod starts while a pair with its three characters is left.
-/

namespace Fleetboard.Dedinic

/-! ## Names -/

/-- A container ID: at least twelve hexadecimal digits. -/
def IsContainerID (id : String) : Prop :=
  12 ≤ id.toList.length ∧ id.toList.all fun c => c ∈ "0123456789abcdef".toList

instance (id : String) : Decidable (IsContainerID id) := inferInstanceAs (Decidable (_ ∧ _))

/-- What the names of a container's pair have of its ID. -/
def nicID (id : String) : String := String.ofList (id.toList.take 3)

def hostNic (id : String) : String := nicID id ++ "_" ++ DediNIC ++ "_h"

def containerNic (id : String) : String := nicID id ++ "_" ++ DediNIC ++ "_c"

theorem generateNicName_eq {id : String} (h : IsContainerID id) :
    generateNicName id DediNIC = .ok (hostNic id, containerNic id) := by
  have hlen : (3 : Int) ≤ id.toList.length := by
    have := h.1
    omega
  have hslice : Go.slice id.toList 0 3 = .ok (id.toList.take 3) := by
    rw [Go.slice, if_pos ⟨by decide, by decide, hlen⟩]
    rfl
  have hname : generateNicName id DediNIC = (Go.slice id.toList 0 3 >>= fun l => pure
      (String.ofList l ++ "_" ++ DediNIC ++ "_h", String.ofList l ++ "_" ++ DediNIC ++ "_c")) := rfl
  rw [hname, hslice]
  rfl

theorem hostNic_inj {id id' : String} (h : hostNic id = hostNic id') : nicID id = nicID id' := by
  have hlist := congrArg String.toList h
  simp only [hostNic, String.toList_append, List.append_cancel_right_eq] at hlist
  exact String.toList_inj.mp hlist

theorem containerNic_inj {id id' : String} (h : containerNic id = containerNic id') :
    nicID id = nicID id' := by
  have hlist := congrArg String.toList h
  simp only [containerNic, String.toList_append, List.append_cancel_right_eq] at hlist
  exact String.toList_inj.mp hlist

theorem hostNic_ne_containerNic (id id' : String) : hostNic id ≠ containerNic id' := by
  intro h
  have hhost (s : String) : (s ++ "_h").toList.getLast? = some 'h' := by
    rw [String.toList_append, List.getLast?_append]
    rfl
  have hcontainer (s : String) : (s ++ "_c").toList.getLast? = some 'c' := by
    rw [String.toList_append, List.getLast?_append]
    rfl
  have hlast := congrArg (fun s => s.toList.getLast?) h
  have hends : some 'h' = some 'c' := (hhost _).symm.trans (hlast.trans (hcontainer _))
  exact absurd hends (by decide)

theorem containerNic_ne_empty (id : String) : containerNic id ≠ "" := by
  intro h
  have hlen := congrArg (fun s => s.toList.length) h
  simp [containerNic, String.toList_append] at hlen

/-! ## One setup -/

/-- The pairs have the names of their containers, and no other link has such a
name. -/
structure WellNamed (l : Links) : Prop where
  pairs : ∀ p ∈ l.pairs, p.hostNicName = hostNic p.containerID ∧
    p.containerNicName = containerNic p.containerID
  others : ∀ id, hostNic id ∉ l.others ∧ containerNic id ∉ l.others

/-- A pair of a container with these three characters is there. -/
def NicTaken (l : Links) (id : String) : Prop := ∃ p ∈ l.pairs, nicID p.containerID = nicID id

instance (l : Links) (id : String) : Decidable (NicTaken l id) :=
  inferInstanceAs (Decidable (∃ p ∈ l.pairs, _))

theorem mem_names {l : Links} {name : String} :
    name ∈ l.names ↔ name ∈ l.others ∨ ∃ p ∈ l.pairs, name ∈ p.names := by
  simp [Links.names]

theorem hostNicName_mem (p : VethPair) : p.hostNicName ∈ p.names := by
  unfold VethPair.names
  split <;> exact List.mem_cons_self

theorem mem_pair_names {p : VethPair} {name : String} (h : name ∈ p.names) :
    name = p.hostNicName ∨ name = p.containerNicName := by
  unfold VethPair.names at h
  split at h <;> simp_all

/-- Either name of a pair is taken exactly when a pair with the same characters is
there. -/
theorem WellNamed.taken_iff {l : Links} (h : WellNamed l) (id : String) :
    hostNic id ∈ l.names ∨ containerNic id ∈ l.names ↔ NicTaken l id := by
  constructor
  · rintro (hmem | hmem)
    · rcases mem_names.mp hmem with hmem | ⟨p, hp, hmem⟩
      · exact absurd hmem (h.others id).1
      · rcases mem_pair_names hmem with heq | heq
        · exact ⟨p, hp, (hostNic_inj (heq.trans (h.pairs p hp).1)).symm⟩
        · exact absurd (heq.trans (h.pairs p hp).2) (hostNic_ne_containerNic _ _)
    · rcases mem_names.mp hmem with hmem | ⟨p, hp, hmem⟩
      · exact absurd hmem (h.others id).2
      · rcases mem_pair_names hmem with heq | heq
        · exact absurd (heq.trans (h.pairs p hp).1).symm (hostNic_ne_containerNic _ _)
        · exact ⟨p, hp, (containerNic_inj (heq.trans (h.pairs p hp).2)).symm⟩
  · rintro ⟨p, hp, hid⟩
    refine .inl (mem_names.mpr (.inr ⟨p, hp, ?_⟩))
    have hname : hostNic id = p.hostNicName := by
      rw [(h.pairs p hp).1, hostNic, hostNic, hid]
    rw [hname]
    exact hostNicName_mem p

/-- Deleting a link by its name leaves the names as they are. -/
theorem WellNamed.sublist {l l' : Links} (h : WellNamed l) (hp : l'.pairs.Sublist l.pairs)
    (ho : l'.others.Sublist l.others) : WellNamed l' where
  pairs p hmem := h.pairs p (hp.mem hmem)
  others id := ⟨mt ho.mem (h.others id).1, mt ho.mem (h.others id).2⟩

/-- The links after the setup of a container's pair. -/
def Links.withPair (l : Links) (id : String) (peer : PeerEnd) : Links :=
  { l with pairs := ⟨id, hostNic id, containerNic id, peer⟩ :: l.pairs }

theorem WellNamed.withPair {l : Links} (h : WellNamed l) (id : String) (peer : PeerEnd) :
    WellNamed (l.withPair id peer) where
  pairs p hmem := by
    rcases List.mem_cons.mp hmem with rfl | hmem
    · exact ⟨rfl, rfl⟩
    · exact h.pairs p hmem
  others := h.others

/-- The setup succeeds when no pair has the container's three characters. -/
theorem setupVethPair_ok {l : Links} (h : WellNamed l) {id : String} (hid : IsContainerID id)
    (hfree : ¬ NicTaken l id) :
    setupVethPair l id DediNIC =
      .ok (l.withPair id .here, .ok (hostNic id, containerNic id)) := by
  have hadd : l.LinkAdd ⟨id, hostNic id, containerNic id, .here⟩ = .ok (l.withPair id .here) :=
    if_neg (mt (h.taken_iff id).mp hfree)
  unfold setupVethPair
  rw [generateNicName_eq hid]
  simp only [bind, Except.bind, hadd]
  rfl

/-- Otherwise it fails, and at most deletes links. -/
theorem setupVethPair_error {l : Links} (h : WellNamed l) {id : String} (hid : IsContainerID id)
    (htaken : NicTaken l id) :
    ∃ l' e, setupVethPair l id DediNIC = .ok (l', .error e) ∧
      l'.pairs.Sublist l.pairs ∧ l'.others.Sublist l.others := by
  have hadd : l.LinkAdd ⟨id, hostNic id, containerNic id, .here⟩ = .error "file exists" :=
    if_pos ((h.taken_iff id).mpr htaken)
  unfold setupVethPair
  rw [generateNicName_eq hid]
  simp only [bind, Except.bind, hadd]
  by_cases hmem : hostNic id ∈ l.names
  · simp only [Links.LinkDel, if_pos hmem]
    exact ⟨_, _, rfl, List.filter_sublist, List.filter_sublist⟩
  · simp only [Links.LinkDel, if_neg hmem]
    exact ⟨l, _, rfl, .refl _, .refl _⟩

theorem movePeer_withPair {l : Links} {id : String} (hfree : ¬ NicTaken l id) (peer : PeerEnd) :
    (l.withPair id .here).movePeer id peer = l.withPair id peer := by
  have hrest : l.pairs.map (fun p => if p.containerID = id then { p with peer := peer } else p) =
      l.pairs := by
    refine (List.map_congr_left fun p hp => if_neg ?_).trans (List.map_id' _)
    intro heq
    exact hfree ⟨p, hp, by rw [heq]⟩
  simp only [Links.withPair, Links.movePeer, List.map_cons, if_pos, hrest]

/-- The container gets its pair, or the setup fails and at most deletes links. -/
theorem configureNic_cases {l links links' : Links} (h : WellNamed l) {id : String}
    (hid : IsContainerID id) {env : NicEnv} {res : Except Error (String × String)}
    {err : Option Error} (hsetup : setupVethPair l id DediNIC = .ok (links, res))
    (hnic : configureNic l id DediNIC env = .ok (links', err)) :
    ¬ NicTaken l id ∧ res.isOk = true ∧ links' = l.withPair id env.peer ∨
      NicTaken l id ∧ res.isOk = false ∧ links'.pairs.Sublist l.pairs ∧
        links'.others.Sublist l.others := by
  unfold configureNic at hnic
  by_cases htaken : NicTaken l id
  · obtain ⟨l₁, e, hfails, hpairs, hothers⟩ := setupVethPair_error h hid htaken
    rw [hfails] at hsetup hnic
    cases hsetup
    cases hnic
    exact .inr ⟨htaken, rfl, hpairs, hothers⟩
  · have hworks := setupVethPair_ok h hid htaken
    rw [hworks] at hsetup hnic
    cases hsetup
    simp only [bind, Except.bind, if_neg (containerNic_ne_empty id)] at hnic
    cases hnic
    exact .inl ⟨htaken, rfl, movePeer_withPair htaken env.peer⟩

/-! ## Runs -/

/-- The links with the containers whose sandbox was started, those of them that were
not stopped and whose setup succeeded, and whether the last setup succeeded. -/
structure PodNics where
  links : Links
  started : List String
  up : List String
  setupOk : Bool

inductive NicEvent
  | start (id : String) (env : NicEnv)
  | stop (id : String)

inductive NicStep : PodNics → NicEvent → PodNics → Prop
  | start {s : PodNics} {id : String} {env : NicEnv} {links links' : Links}
      {res : Except Error (String × String)} {err : Option Error}
      (hid : IsContainerID id) (hnew : id ∉ s.started)
      (hsetup : setupVethPair s.links id DediNIC = .ok (links, res))
      (hnic : configureNic s.links id DediNIC env = .ok (links', err)) :
      NicStep s (.start id env)
        ⟨links', id :: s.started, if res.isOk then id :: s.up else s.up, res.isOk⟩
  | stop {s : PodNics} {id : String} (hstarted : id ∈ s.started) :
      NicStep s (.stop id) { s with
        links := deleteNic s.links id, up := s.up.filter (· ≠ id) }

/-- Before the first sandbox, in a namespace with these other links. -/
def PodNics.initial (others : List String) : PodNics := ⟨⟨[], others⟩, [], [], true⟩

/-- The last setup succeeded, and every container that is up has its own host end. -/
def NicsKept (s : PodNics) : Prop :=
  s.setupOk = true ∧
    ∀ id ∈ s.up, ∃ p ∈ s.links.pairs, p.containerID = id ∧ p.hostNicName = hostNic id

instance (s : PodNics) : Decidable (NicsKept s) := inferInstanceAs (Decidable (_ ∧ _))

/-- No pair of a container with the same three characters is left at a start. -/
def NicFree (s : PodNics) : NicEvent → Prop
  | .start id _ => ¬ NicTaken s.links id
  | .stop _ => True

instance (s : PodNics) (e : NicEvent) : Decidable (NicFree s e) :=
  match e with
  | .start id _ => inferInstanceAs (Decidable (¬ NicTaken s.links id))
  | .stop _ => inferInstanceAs (Decidable True)

theorem WellNamed.step {s s' : PodNics} {e : NicEvent} (h : WellNamed s.links)
    (hstep : NicStep s e s') : WellNamed s'.links := by
  cases hstep with
  | start hid _ hsetup hnic =>
    rcases configureNic_cases h hid hsetup hnic with ⟨_, _, rfl⟩ | ⟨_, _, hpairs, hothers⟩
    · exact h.withPair _ _
    · exact h.sublist hpairs hothers
  | stop _ => exact h.sublist List.filter_sublist (.refl _)

theorem nicsKept_step_iff {s s' : PodNics} {e : NicEvent} (h : WellNamed s.links)
    (hkept : NicsKept s) (hstep : NicStep s e s') : NicsKept s' ↔ NicFree s e := by
  cases hstep with
  | @start id env _ _ _ _ hid _ hsetup hnic =>
    rcases configureNic_cases h hid hsetup hnic with ⟨hfree, hok, rfl⟩ | ⟨htaken, hok, _, _⟩
    · simp only [hok, if_true]
      refine iff_of_true ⟨rfl, fun id' hup => ?_⟩ hfree
      rcases List.mem_cons.mp hup with rfl | hup
      · exact ⟨_, List.mem_cons_self, rfl, rfl⟩
      · obtain ⟨p, hp, hown⟩ := hkept.2 id' hup
        exact ⟨p, List.mem_cons_of_mem _ hp, hown⟩
    · refine iff_of_false (fun hkept' => ?_) (not_not_intro htaken)
      exact absurd (hok.symm.trans hkept'.1) Bool.false_ne_true
  | @stop id _ =>
    refine iff_of_true ⟨hkept.1, fun id' hup => ?_⟩ trivial
    obtain ⟨hup, hne⟩ := List.mem_filter.mp hup
    obtain ⟨p, hp, hown, hname⟩ := hkept.2 id' hup
    have hne : p.containerID ≠ id := hown ▸ of_decide_eq_true hne
    exact ⟨p, List.mem_filter.mpr ⟨hp, decide_eq_true fun hdel => hne hdel.1⟩, hown, hname⟩

/-- All setups of a run succeed, and every container that is up keeps its host end
throughout, exactly when every sandbox starts while no pair of a container with the
same three first characters is left. -/
theorem nics_kept_iff {others : List String}
    (hothers : ∀ id, hostNic id ∉ others ∧ containerNic id ∉ others)
    (es : List NicEvent) (s' : PodNics) :
    Runs (Reaching NicStep NicsKept) (PodNics.initial others) es s' ↔
      Runs (Guarded NicStep NicFree) (PodNics.initial others) es s' := by
  have hnamed : WellNamed (PodNics.initial others).links :=
    ⟨fun _ hp => absurd hp List.not_mem_nil, hothers⟩
  have hkept : NicsKept (PodNics.initial others) :=
    ⟨rfl, fun _ hid => absurd hid List.not_mem_nil⟩
  refine Runs.reaching_iff_guarded (P := fun _ => True) (J := fun s => WellNamed s.links) ?_ ?_
    (fun _ _ => trivial) hnamed hkept
  · exact fun _ hJ hstep => hJ.step hstep
  · exact fun _ hJ hI hstep => nicsKept_step_iff hJ hI hstep

/-- Two pods whose IDs differ in the first three characters. -/
theorem nics_kept_distinct :
    ∃ s', Runs (Reaching NicStep NicsKept) (PodNics.initial []) [
      .start "abc111111111" ⟨.inPod true, none⟩, .start "abd222222222" ⟨.inPod true, none⟩,
      .stop "abc111111111"] s' := by
  refine ⟨_, (nics_kept_iff (fun _ => ⟨List.not_mem_nil, List.not_mem_nil⟩) _ _).mpr
    (.cons ⟨.start (by decide) (by decide) rfl rfl, ?_⟩
      (.cons ⟨.start (by decide) (by decide) rfl rfl, ?_⟩
        (.cons ⟨.stop ?_, trivial⟩ (.nil _))))⟩
  · decide
  · decide
  · decide

/-- Two pods whose IDs start with the same three characters: the setup for the second
one fails, and deletes the pair of the first one. -/
theorem shared_name_deletes_nic :
    ∃ s', Runs NicStep (PodNics.initial []) [
        .start "abc111111111" ⟨.inPod true, none⟩, .start "abc222222222" ⟨.inPod true, none⟩] s' ∧
      s'.setupOk = false ∧ "abc111111111" ∈ s'.up ∧ s'.links.pairs = [] := by
  refine ⟨_, .cons (.start (by decide) (by decide) rfl rfl)
    (.cons (.start (by decide) (by decide) rfl rfl) (.nil _)), ?_, ?_, ?_⟩
  · rfl
  · decide
  · rfl

end Fleetboard.Dedinic

import Fleetboard.Model.CniHandler

/-!
# Failed attaches

An attach is reported when it fails with an error that leaves no address behind, or
returns nil with the address reserved, the interface set up and the annotation
written (`Reported`). The three steps share one error variable and nothing is rolled
back:

* without an address, the missing result is dereferenced (`handleAdd_of_GetIP_error`);
* otherwise the result of `handleAdd` is the one of the annotation's update, whatever the
  interface's setup returned (`handleAdd_of_GetIP_ok`), and the address stays reserved.

So an attach is reported only if every step succeeds (`handleAdd_reported_iff`).
-/

namespace Fleetboard.Dedinic

open Fleetboard.Net

variable {cnf : CNFPod} {rq : CniRequest}

/-! ## The address -/

/-- The loop reserves one address for each set of ranges. -/
theorem getLoop_ok {env : IpamEnv} {vs : List (Addr → Bool)} {idx : Nat}
    {m m' : GoMap String Addr} {store store' : List Reservation} {ips ips' : List String}
    (h : getLoop env rq idx vs m store ips = (store', .ok (m', ips'))) :
    ∃ new : List String, ips' = ips ++ new ∧ new.length = vs.length ∧
      store' = (new.map fun a => ⟨rq.containerID, rq.ifName, a⟩).reverse ++ store := by
  induction vs generalizing idx m store ips with
  | nil =>
    obtain ⟨rfl, hres⟩ := Prod.mk.inj h
    obtain ⟨-, rfl⟩ := Prod.mk.inj (Except.ok.inj hres)
    exact ⟨[], (List.append_nil _).symm, rfl, rfl⟩
  | cons v vs ih =>
    rw [getLoop] at h
    generalize ((env.order idx).visit m.entries).find? (fun e => v e.2) = entry at h
    cases hget : env.get idx (entry.map (·.2)) with
    | error e => rw [hget] at h; exact absurd (Prod.mk.inj h).2 (by simp)
    | ok address =>
      rw [hget] at h
      obtain ⟨new, hips, hlen, hstore⟩ := ih h
      refine ⟨address :: new, ?_, congrArg (· + 1) hlen, ?_⟩
      · rw [hips, List.append_assoc, List.singleton_append]
      · rw [hstore, List.map_cons, List.reverse_cons, List.append_assoc, List.singleton_append]

/-- What `GetIP` returns is not empty, and is reserved. -/
theorem GetIP_ok {env : IpamEnv} {store store' : List Reservation} {ips : List String}
    (h : GetIP env rq store = (store', .ok ips)) :
    ips ≠ [] ∧ ∀ a ∈ ips, (⟨rq.containerID, rq.ifName, a⟩ : Reservation) ∈ store' := by
  rw [GetIP] at h
  cases hload : env.load with
  | error e => rw [hload] at h; exact absurd (Prod.mk.inj h).2 (by simp)
  | ok conf =>
    cases hnew : env.newStore with
    | some e => rw [hload, hnew] at h; exact absurd (Prod.mk.inj h).2 (by simp)
    | none =>
      simp only [hload, hnew] at h
      split at h
      · exact absurd (Prod.mk.inj h).2 (by simp)
      · rename_i hloop
        split at h
        · exact absurd (Prod.mk.inj h).2 (by simp)
        · obtain ⟨rfl, hips⟩ := Prod.mk.inj h
          obtain ⟨new, hnew', hlen, hstore⟩ := getLoop_ok hloop
          rw [List.nil_append] at hnew'
          cases hips
          subst hnew'
          refine ⟨?_, fun a ha => ?_⟩
          · rw [← List.length_pos_iff, hlen, List.length_pos_iff]
            exact conf.ranges_ne
          · rw [hstore]
            exact List.mem_append_left _ (List.mem_reverse.mpr (List.mem_map_of_mem ha))

/-! ## The interface and the annotation -/

theorem slice_ne_nilDereference {α : Type*} (l : List α) (lo hi : Int) :
    Go.slice l lo hi ≠ .error .nilDereference := by
  unfold Go.slice
  split <;> simp

theorem ok_ne_nilDereference {α : Type*} {a : α} : (pure a : Go α) ≠ .error .nilDereference := by
  intro h
  cases h

theorem bind_ne_nilDereference {α β : Type} {x : Go α} {f : α → Go β}
    (hx : x ≠ .error .nilDereference) (hf : ∀ a, f a ≠ .error .nilDereference) :
    x >>= f ≠ .error .nilDereference := by
  cases x with
  | error p =>
    intro h
    cases h
    exact hx rfl
  | ok a => exact hf a

theorem generateNicName_ne_nilDereference (containerID ifName : String) :
    generateNicName containerID ifName ≠ .error .nilDereference := by
  unfold generateNicName
  split
  · exact bind_ne_nilDereference (slice_ne_nilDereference _ _ _) fun _ => ok_ne_nilDereference
  · have hname : ∀ ifname : List Char, (do
        let id ← Go.slice containerID.toList 0 (12 - ifname.length)
        let name := String.ofList id ++ "_" ++ String.ofList ifname
        pure (name ++ "_h", name ++ "_c")) ≠ .error Panic.nilDereference := fun ifname =>
      bind_ne_nilDereference (slice_ne_nilDereference _ _ _) fun _ => ok_ne_nilDereference
    show (if _ then _ else _) ≠ _
    split
    · exact bind_ne_nilDereference (slice_ne_nilDereference _ _ _) hname
    · exact bind_ne_nilDereference ok_ne_nilDereference hname

theorem setupVethPair_ne_nilDereference (l : Links) (containerID ifName : String) :
    setupVethPair l containerID ifName ≠ .error .nilDereference := by
  refine bind_ne_nilDereference (generateNicName_ne_nilDereference _ _) fun names => ?_
  obtain ⟨hostNicName, containerNicName⟩ := names
  dsimp only
  cases l.LinkAdd ⟨containerID, hostNicName, containerNicName, .here⟩ with
  | ok l' => exact ok_ne_nilDereference
  | error e =>
    dsimp only
    cases l.LinkDel hostNicName with
    | error e => exact ok_ne_nilDereference
    | ok l' => exact ok_ne_nilDereference

/-- Only the names of the pair can panic. -/
theorem configureBridgedNic_ne_nilDereference (l : Links) (bridged : List String)
    (env : BridgedNicEnv) : configureBridgedNic l bridged rq env ≠ .error .nilDereference := by
  refine bind_ne_nilDereference (setupVethPair_ne_nilDereference _ _ _) fun r => ?_
  obtain ⟨l', res⟩ := r
  cases res with
  | error e => exact ok_ne_nilDereference
  | ok names =>
    show (if names.2 = "" then _ else _) ≠ _
    split
    · exact ok_ne_nilDereference
    · cases env.getNS with
      | some e => exact ok_ne_nilDereference
      | none => exact ok_ne_nilDereference

/-- Once the pod's namespace is open, the links and the error are those of
`configureNic`. -/
theorem configureBridgedNic_eq (l : Links) (bridged : List String) {env : BridgedNicEnv}
    (hns : env.getNS = none) :
    (configureBridgedNic l bridged rq env >>= fun r => pure (r.1, r.2.2)) =
      configureNic l rq.containerID rq.ifName env.container := by
  unfold configureBridgedNic configureNic
  cases setupVethPair l rq.containerID rq.ifName with
  | error p => rfl
  | ok r =>
    obtain ⟨l', res⟩ := r
    cases res with
    | error e => rfl
    | ok names =>
      simp only [hns, bind, Except.bind]
      by_cases hname : names.2 = ""
      · rw [if_pos hname, if_pos hname]
        rfl
      · rw [if_neg hname, if_neg hname]
        rfl

/-- The pod is there, and the API server answers both requests. -/
def Updatable (env : PodEnv) (pods : PodAnnotations) (rq : CniRequest) : Prop :=
  env.get = none ∧ pods.lookup ⟨rq.podNamespace, rq.podName⟩ ≠ none ∧ env.update = none

/-- The annotation of the pod has the address. -/
def Annotated (pods : PodAnnotations) (rq : CniRequest) (ip : String) : Prop :=
  ∃ annotations, pods.lookup ⟨rq.podNamespace, rq.podName⟩ = some annotations ∧
    annotations.lookup FleetboardParallelIP = some ip

/-- The update returns nil when it can be made, and has then been made. -/
theorem updateTheIPToPod_spec (rq : CniRequest) (env : PodEnv) (pods : PodAnnotations) (ip : String) :
    ((updateTheIPToPod env pods rq.podName rq.podNamespace ip).2 = none ↔
        Updatable env pods rq) ∧
      ((updateTheIPToPod env pods rq.podName rq.podNamespace ip).2 = none →
        Annotated (updateTheIPToPod env pods rq.podName rq.podNamespace ip).1 rq ip) := by
  obtain ⟨get, update⟩ := env
  unfold updateTheIPToPod Updatable
  cases hlookup : pods.lookup ⟨rq.podNamespace, rq.podName⟩ with
  | none => cases get <;> simp
  | some annotations =>
    cases get with
    | some e => simp
    | none =>
      cases update with
      | some e => simp
      | none =>
        refine ⟨by simp, fun _ => ⟨_, AList.lookup_insert _, AList.lookup_insert _⟩⟩

/-! ## The attach -/

section
variable {env : AttachEnv} {s : AttachState} {reservations : List Reservation}

/-- Without an address, the nil result is dereferenced. -/
theorem handleAdd_of_GetIP_error (hself : isCNFSelf cnf rq.podNamespace rq.podName = false)
    {e : Error} (h : GetIP env.ipam rq s.reservations = (reservations, .error e)) :
    handleAdd cnf env rq s = .error .nilDereference := by
  rw [handleAdd, hself, h]
  rfl

/-- With an address, the result is the one of the annotation's update. -/
theorem handleAdd_of_GetIP_ok (hself : isCNFSelf cnf rq.podNamespace rq.podName = false)
    {ip : String} {ips : List String}
    (h : GetIP env.ipam rq s.reservations = (reservations, .ok (ip :: ips))) :
    handleAdd cnf env rq s =
      (configureBridgedNic s.links s.bridged rq env.nic >>= fun r =>
        let u := updateTheIPToPod env.pod s.pods rq.podName rq.podNamespace (beforeSlash ip)
        pure (⟨reservations, r.1, r.2.1, u.1⟩, u.2)) := by
  rw [handleAdd, hself, h]
  rfl

end

/-- The pod is attached: its address is reserved and in its annotation, and the
interface is set up, its host end on the bridge. -/
structure Attached (env : AttachEnv) (rq : CniRequest) (s s' : AttachState) : Prop where
  address : ∃ ip, ⟨rq.containerID, rq.ifName, ip⟩ ∈ s'.reservations ∧
    Annotated s'.pods rq (beforeSlash ip)
  nic : configureBridgedNic s.links s.bridged rq env.nic = .ok (s'.links, s'.bridged, none)
  bridge : env.nic.bridge = none

/-- A failed attach is reported and leaves no address behind. -/
def Reported (cnf : CNFPod) (env : AttachEnv) (rq : CniRequest) (s : AttachState) : Prop :=
  handleAdd cnf env rq s ≠ .error .nilDereference ∧
    ∀ s' err, handleAdd cnf env rq s = .ok (s', err) →
      (err = none → Attached env rq s s') ∧ (err ≠ none → ∀ r ∈ s'.reservations, ¬ rq.owns r)

/-- An attach is reported exactly when there is an address and, unless the names of the
pair cannot be made, no later step fails. -/
theorem handleAdd_reported_iff {cnf : CNFPod} {env : AttachEnv} {rq : CniRequest}
    {s : AttachState} (hself : isCNFSelf cnf rq.podNamespace rq.podName = false) :
    Reported cnf env rq s ↔
      (∃ reservations ips, GetIP env.ipam rq s.reservations = (reservations, .ok ips)) ∧
      ∀ links bridged err,
        configureBridgedNic s.links s.bridged rq env.nic = .ok (links, bridged, err) →
        err = none ∧ env.nic.bridge = none ∧ Updatable env.pod s.pods rq := by
  cases hget : GetIP env.ipam rq s.reservations with
  | mk reservations res =>
    cases res with
    | error e =>
      constructor
      · intro h
        exact absurd (handleAdd_of_GetIP_error hself hget) h.1
      · rintro ⟨⟨_, _, hok⟩, -⟩
        exact absurd (Prod.mk.inj hok).2 (by simp)
    | ok ips =>
      obtain ⟨hne, hreserved⟩ := GetIP_ok hget
      obtain ⟨ip, ips, rfl⟩ := List.exists_cons_of_ne_nil hne
      have hip := hreserved ip List.mem_cons_self
      have hadd := handleAdd_of_GetIP_ok hself hget
      obtain ⟨hupdate, hwritten⟩ := updateTheIPToPod_spec rq env.pod s.pods (beforeSlash ip)
      unfold Reported
      rw [hadd]
      constructor
      · rintro ⟨-, h⟩
        refine ⟨⟨_, _, rfl⟩, fun links bridged err hnic => ?_⟩
        rw [hnic] at h
        obtain ⟨hnil, hleft⟩ := h _ _ rfl
        -- the address is still reserved, so the update cannot have failed
        by_cases herr : (updateTheIPToPod env.pod s.pods rq.podName rq.podNamespace
            (beforeSlash ip)).2 = none
        · have hattached := hnil herr
          have hnone := hattached.nic
          rw [hnic] at hnone
          cases hnone
          exact ⟨rfl, hattached.bridge, hupdate.mp herr⟩
        · exact absurd (by simp [CniRequest.owns]) (hleft herr _ hip)
      · rintro ⟨-, h⟩
        refine ⟨bind_ne_nilDereference (configureBridgedNic_ne_nilDereference _ _ _)
          fun _ => ok_ne_nilDereference, fun s' err hok => ?_⟩
        obtain ⟨⟨links, bridged, nicErr⟩, hnic, hok⟩ := Go.bind_eq_ok.mp hok
        obtain ⟨rfl, hbridge, hupdatable⟩ := h _ _ _ hnic
        have hdone := hupdate.mpr hupdatable
        obtain ⟨rfl, rfl⟩ := Prod.mk.inj (Except.ok.inj hok)
        exact ⟨fun _ => ⟨⟨ip, hip, hwritten hdone⟩, hnic, hbridge⟩,
          fun herr => absurd hdone herr⟩

/-- A pod and an empty node. -/
def sampleRequest : CniRequest := ⟨"web", "default", "abc111111111", "/proc/7/ns/net", DediNIC⟩

def sampleAttachState : AttachState :=
  ⟨[], ⟨[], []⟩, [], (∅ : PodAnnotations).insert ⟨"default", "web"⟩ ∅⟩

/-- An allocator with one set of ranges. -/
def sampleIpam (get : Except Error String) : IpamEnv :=
  ⟨.ok ⟨[fun _ => true], [], List.cons_ne_nil _ _⟩, none, fun _ _ => get, fun _ => none,
    fun _ => .stored⟩

/-- The calls for the pod, with the errors that they return. -/
def sampleEnv (get : Except Error String) (nic update : Option Error) : AttachEnv :=
  ⟨sampleIpam get, ⟨none, none, ⟨.inPod true, nic⟩⟩, ⟨none, update⟩⟩

def sampleCnf : CNFPod := ⟨"cnf-0", "fleetboard-system"⟩

/-- The attach of a pod without a failure. -/
theorem handleAdd_reported_web :
    Reported sampleCnf (sampleEnv (.ok "10.16.8.2/24") none none) sampleRequest
      sampleAttachState := by
  refine (handleAdd_reported_iff (by decide)).mpr ⟨⟨_, _, rfl⟩, fun links bridged err h => ?_⟩
  obtain ⟨-, hrest⟩ := Prod.mk.inj (Except.ok.inj h)
  obtain ⟨-, rfl⟩ := Prod.mk.inj hrest
  exact ⟨rfl, rfl, rfl, by decide, rfl⟩

/-- No address: the process dies. No interface: nil is returned. No annotation: the
error leaves the address reserved. -/
theorem handleAdd_unreported :
    handleAdd sampleCnf (sampleEnv (.error "no IP addresses available") none none) sampleRequest
        sampleAttachState = .error .nilDereference ∧
      (∃ s', handleAdd sampleCnf (sampleEnv (.ok "10.16.8.2/24") (some "can not find link") none)
          sampleRequest sampleAttachState = .ok (s', none) ∧
        configureBridgedNic ⟨[], []⟩ [] sampleRequest
            (sampleEnv (.ok "10.16.8.2/24") (some "can not find link") none).nic =
          .ok (s'.links, s'.bridged, some "can not find link")) ∧
      ∃ s', handleAdd sampleCnf (sampleEnv (.ok "10.16.8.2/24") none (some "conflict"))
          sampleRequest sampleAttachState = .ok (s', some "conflict") ∧
        ⟨"abc111111111", DediNIC, "10.16.8.2/24"⟩ ∈ s'.reservations :=
  ⟨rfl, ⟨_, rfl, rfl⟩, _, rfl, List.mem_cons_self⟩

end Fleetboard.Dedinic

import Fleetboard.Framework.Holding
import Fleetboard.Framework.Runs
import Fleetboard.Framework.Versioned
import Fleetboard.Model.ServiceImport
import Fleetboard.Proof.Net

/-!
# The virtual IPs of service imports

A terminating import's address is released before the import is gone: the update
that removes its finalizer may fail, and may leave other finalizers, and a later
`Handle` of the same object releases the address once more.

* `Handle_live`, `Handle_recycle`: what a `Handle` does, exactly.
* `Handle_cases`: what it does with the pool and the stored imports.
* `Sound.step`: a step after which no stored import has the released address keeps
  the addresses apart.
* `shared_of_not_freesReleased`: any other step leads to two imports with one IP.
* `virtual_ips_unique`: the IPs are unique in runs that free what they release.
-/

namespace Fleetboard.Mcs

open Fleetboard.Net ServiceImportController

/-! ## The pool -/

theorem parseAddr_addrString (a : Addr) : parseAddr (addrString a).toList = some a := by
  have h := addrBytes_lt a
  simp only [addrBytes, List.mem_cons, List.not_mem_nil, or_false, forall_eq_or_imp, forall_eq] at h
  have := parseAddr_ipString h.1 h.2.1 h.2.2.1 h.2.2.2
  rwa [ofBytes_addrBytes] at this

theorem parseAddr_empty : parseAddr "".toList = none := by decide

theorem ReleaseIP_eq_ok {i i' : IPAM} {ip : String} (h : i.ReleaseIP ip = .ok i') :
    ∃ a, parseAddr ip.toList = some a ∧ a ∈ i.acquired ∧
      i' = { i with acquired := i.acquired.erase a } := by
  unfold IPAM.ReleaseIP at h
  split at h
  · cases h
  · rename_i a ha
    split at h
    · exact ⟨a, ha, ‹_›, (Except.ok.inj h).symm⟩
    · cases h

/-- The pool stays within its prefix and gets the addresses of the texts. -/
theorem InitializeExistingIPs_acquired {ipamer : Ipamer} {i i' : IPAM} {ips : List String}
    (h : i.InitializeExistingIPs ipamer ips = .ok i') (hi : ∀ a ∈ i.acquired, i.net.contains a) :
    (∀ a ∈ i'.acquired, i'.net.contains a) ∧
      ∀ a, a ∈ i'.acquired ↔ a ∈ i.acquired ∨ ∃ ip ∈ ips, parseAddr ip.toList = some a := by
  refine Go.foldlM_accumulates (I := fun i => ∀ a ∈ i.acquired, i.net.contains a)
    (fun i a => a ∈ i.acquired) (fun ip a => parseAddr ip.toList = some a) h hi ?_
  intro i ip i' h hi
  obtain ⟨b, hb, hnet, rfl⟩ := ipamer.acquires h
  refine ⟨fun a ha => ?_, fun a => ?_⟩
  · rcases Finset.mem_insert.mp ha with rfl | ha
    · exact hnet
    · exact hi a ha
  · rw [Finset.mem_insert, hb, Option.some_inj, or_comm, eq_comm]

/-- The address of an import that is not headless. -/
def ServiceImport.held (si : ServiceImport) : Option Addr :=
  match si.type with
  | .headless => none
  | .clusterSetIP => parseAddr si.ip.toList

/-- The address of the stored import of a key. -/
def held (imports : GoMap NamespacedName ServiceImport) (key : NamespacedName) : Option Addr :=
  (imports.lookup key).bind ServiceImport.held

theorem ServiceImport.held_eq_some {si : ServiceImport} {a : Addr} (h : si.held = some a) :
    si.type = .clusterSetIP ∧ si.ip ≠ "" ∧ parseAddr si.ip.toList = some a := by
  unfold ServiceImport.held at h
  split at h
  · cases h
  · refine ⟨‹_›, fun he => ?_, h⟩
    rw [he, parseAddr_empty] at h
    cases h

theorem held_eq_some_iff {imports : GoMap NamespacedName ServiceImport} {key : NamespacedName}
    {a : Addr} :
    held imports key = some a ↔ ∃ si, imports.lookup key = some si ∧ si.held = some a :=
  Option.bind_eq_some_iff

theorem mem_virtualServiceIPs {imports : GoMap NamespacedName ServiceImport}
    {order : RangeOrder ServiceImport} {key : NamespacedName} {si : ServiceImport}
    (hsi : imports.lookup key = some si) (htype : si.type = .clusterSetIP) (hip : si.ip ≠ "") :
    si.ip ∈ virtualServiceIPs imports order := by
  rw [virtualServiceIPs, List.mem_filterMap]
  exact ⟨si, order.mem_visit.mpr (GoMap.mem_values_iff.mpr ⟨key, hsi⟩), if_pos ⟨htype, hip⟩⟩

theorem exists_of_mem_virtualServiceIPs {imports : GoMap NamespacedName ServiceImport}
    {order : RangeOrder ServiceImport} {ip : String} (h : ip ∈ virtualServiceIPs imports order) :
    ∃ key si, imports.lookup key = some si ∧ si.ip = ip := by
  obtain ⟨si, hsi, hip⟩ := List.mem_filterMap.mp h
  obtain ⟨key, hkey⟩ := GoMap.mem_values_iff.mp (order.mem_visit.mp hsi)
  refine ⟨key, si, hkey, ?_⟩
  split_ifs at hip
  exact Option.some_inj.mp hip

theorem GetServiceCIDR_ips {imports : GoMap NamespacedName ServiceImport} {env : InitEnv}
    {cidr : String} {ips : List String} (h : GetServiceCIDR imports env = .ok (cidr, ips)) :
    ips = virtualServiceIPs imports env.listOrder := by
  unfold GetServiceCIDR at h
  split at h
  · cases h
  · split at h
    · rename_i hips
      split at h
      · cases h
      · rw [← (Prod.mk.inj (Except.ok.inj h)).2, hips]
    · rename_i hips
      split at h
      · cases h
      · rw [← (Prod.mk.inj (Except.ok.inj h)).2, hips]

/-- A pool that starts has the addresses of the stored imports acquired, and no
others. -/
theorem InitNewCIDR_acquired {imports : GoMap NamespacedName ServiceImport} {env : InitEnv}
    {i : IPAM} (h : InitNewCIDR imports env = .ok i) :
    (∀ a ∈ i.acquired, i.net.contains a) ∧
      (∀ key a, held imports key = some a → a ∈ i.acquired) ∧
      ∀ a ∈ i.acquired, ∃ key si, imports.lookup key = some si ∧
        parseAddr si.ip.toList = some a := by
  obtain ⟨cidr, ips, net, hips, hinit⟩ : ∃ cidr ips net, GetServiceCIDR imports env = .ok (cidr, ips) ∧
      IPAM.InitializeExistingIPs env.ipamer ⟨net, ∅⟩ ips = .ok i := by
    unfold InitNewCIDR at h
    split at h
    · cases h
    · rename_i cidr ips hips
      simp only at h
      split at h
      · cases h
      · split at h
        · cases h
        · rename_i ipam hpool
          unfold InitPrefix at hpool
          split at hpool
          · cases hpool
          · obtain rfl := Except.ok.inj hpool
            exact ⟨cidr, ips, _, hips, h⟩
  obtain ⟨hnet, hmem⟩ := InitializeExistingIPs_acquired hinit (by simp)
  refine ⟨hnet, fun key a ha => (hmem a).mpr (.inr ?_), fun a ha => ?_⟩
  · obtain ⟨si, hsi, ha⟩ := held_eq_some_iff.mp ha
    obtain ⟨htype, hip, ha⟩ := ServiceImport.held_eq_some ha
    refine ⟨si.ip, ?_, ha⟩
    rw [GetServiceCIDR_ips hips]
    exact mem_virtualServiceIPs hsi htype hip
  · obtain ⟨ip, hip, hparse⟩ := ((hmem a).mp ha).resolve_left (by simp)
    rw [GetServiceCIDR_ips hips] at hip
    obtain ⟨key, si, hsi, rfl⟩ := exists_of_mem_virtualServiceIPs hip
    exact ⟨key, si, hsi, hparse⟩

/-! ## One `Handle` -/

section

variable {c c' : ServiceImportController} {key : NamespacedName} {si : ServiceImport} {a : Addr}
  {env : ImportEnv}

/-- An update goes through exactly when it has no error and comes from the stored
version. -/
theorem update_cases (c : ServiceImportController) (key : NamespacedName) (si : ServiceImport)
    (err : Option Error) :
    (∃ st, err = none ∧ c.imports.lookup key = some st ∧ st.resourceVersion = si.resourceVersion ∧
        ∃ si', c.update key si err = (c.write key { si with
          deletionTimestamp := st.deletionTimestamp
          resourceVersion := c.version }, .ok si')) ∨
      (∀ st, c.imports.lookup key = some st → st.resourceVersion = si.resourceVersion →
        err ≠ none) ∧ ∃ e, c.update key si err = (c, .error e) := by
  cases err with
  | some e => exact .inr ⟨fun _ _ _ => nofun, e, rfl⟩
  | none =>
    cases hst : c.imports.lookup key with
    | none => exact .inr ⟨nofun, ApiError.notFound.text, by simp [update, hst]⟩
    | some st =>
      by_cases hv : st.resourceVersion = si.resourceVersion
      · refine .inl ⟨st, rfl, rfl, hv, ?_⟩
        simp only [update, hst]
        rw [if_neg (not_not.mpr hv)]
        exact ⟨_, rfl⟩
      · refine .inr ⟨?_, ApiError.conflict.text, ?_⟩
        · rintro _ ⟨⟩ hv'
          exact absurd hv' hv
        · simp only [update, hst]
          rw [if_pos hv]

theorem update_controller (c : ServiceImportController) (key : NamespacedName) (si : ServiceImport)
    (err : Option Error) :
    ∃ imports version, (c.update key si err).1 = { c with imports := imports, version := version } := by
  rcases update_cases c key si err with ⟨st, -, -, -, _, heq⟩ | ⟨-, _, heq⟩
  · rw [heq]
    exact ⟨_, _, rfl⟩
  · rw [heq]
    exact ⟨c.imports, c.version, rfl⟩

theorem lookup_write (c : ServiceImportController) (key k : NamespacedName) (si : ServiceImport) :
    (c.write key si).imports.lookup k =
      if k = key then (if si.deletionTimestamp = true ∧ si.finalizers = [] then none else some si)
      else c.imports.lookup k := by
  simp only [write]
  split
  · exact GoMap.lookup_erase_eq c.imports key k
  · exact GoMap.lookup_insert_eq c.imports key k si

theorem held_write {k : NamespacedName} (h : held (c.write key si).imports k = some a) :
    k = key ∧ si.held = some a ∧ (si.deletionTimestamp = true → si.finalizers ≠ []) ∨
      k ≠ key ∧ held c.imports k = some a := by
  obtain ⟨st, hst, ha⟩ := held_eq_some_iff.mp h
  rw [lookup_write] at hst
  split at hst
  · split at hst
    · cases hst
    · rename_i hkeep
      obtain rfl := Option.some_inj.mp hst
      exact .inl ⟨‹_›, ha, fun hd hf => hkeep ⟨hd, hf⟩⟩
  · exact .inr ⟨‹_›, held_eq_some_iff.mpr ⟨st, hst, ha⟩⟩

/-- The IP of an import is empty or an address. -/
def ServiceImport.Readable (si : ServiceImport) : Prop :=
  si.ip = "" ∨ ∃ a, si.ip = addrString a

/-- What the initialisation does, by the type of the import. -/
theorem AddInitialInfoToServiceImport_spec {ipam ipam' : IPAM} {si si' : ServiceImport}
    {acquire : Except Error Addr} {changed : Bool} {err : Option Error}
    (h : AddInitialInfoToServiceImport ipam si acquire = (ipam', si', changed, err)) :
    si'.resourceVersion = si.resourceVersion ∧ si'.type = si.type ∧ si'.finalizers ≠ [] ∧
      (si.type = .headless →
        ipam' = ipam ∧ err = none ∧ si'.ip = "" ∧ (changed = false → si.ip = "")) ∧
      (si.type = .clusterSetIP → si.ip ≠ "" → ipam' = ipam ∧ err = none ∧ si'.ip = si.ip) ∧
      (si.type = .clusterSetIP → si.ip = "" →
        (∀ e, acquire = .error e → ipam' = ipam ∧ err = some e ∧ si'.ip = "") ∧
        ∀ a, acquire = .ok a → ipam' = { ipam with acquired := insert a ipam.acquired } ∧
          err = none ∧ changed = true ∧ si'.ip = addrString a) := by
  unfold AddInitialInfoToServiceImport at h
  obtain ⟨si₁, hsi₁, htype, hips, hv, hfin⟩ : ∃ si₁,
      (if decide (Known.AppFinalizer ∈ si.finalizers) = true then si
        else { si with finalizers := si.finalizers ++ [Known.AppFinalizer] }) = si₁ ∧
      si₁.type = si.type ∧ si₁.ips = si.ips ∧ si₁.resourceVersion = si.resourceVersion ∧
      si₁.finalizers ≠ [] := by
    refine ⟨_, rfl, ?_⟩
    split
    · rename_i hmem
      exact ⟨rfl, rfl, rfl, List.ne_nil_of_mem (of_decide_eq_true hmem)⟩
    · exact ⟨rfl, rfl, rfl, by simp⟩
  have hip : si₁.ip = si.ip := by rw [ServiceImport.ip, hips, ServiceImport.ip]
  simp only [hsi₁, htype, hip] at h
  cases ht : si.type with
  | headless =>
    simp only [ht] at h
    suffices hres : (si'.resourceVersion = si.resourceVersion ∧ si'.type = .headless ∧
        si'.finalizers ≠ []) ∧ ipam' = ipam ∧ err = none ∧ si'.ip = "" ∧
        (changed = false → si.ip = "") by
      exact ⟨hres.1.1, hres.1.2.1, hres.1.2.2, fun _ => hres.2, (fun h => by cases h),
        (fun h => by cases h)⟩
    split at h
    · rename_i hnil
      obtain ⟨rfl, rfl, rfl, rfl⟩ := h
      have hempty : si.ip = "" := by rw [ServiceImport.ip, ← hips, hnil]; rfl
      exact ⟨⟨hv, htype.trans ht, hfin⟩, rfl, rfl, hip.trans hempty, fun _ => hempty⟩
    · obtain ⟨rfl, rfl, rfl, rfl⟩ := h
      exact ⟨⟨hv, rfl, hfin⟩, rfl, rfl, rfl, (fun h => by cases h)⟩
  | clusterSetIP =>
    simp only [ht] at h
    by_cases hempty : si.ip = ""
    · rw [if_pos hempty] at h
      cases acquire with
      | error e =>
        obtain ⟨rfl, rfl, rfl, rfl⟩ := h
        refine ⟨hv, htype.trans ht, hfin, (fun h => by cases h), fun _ h => absurd hempty h,
          fun _ _ => ⟨fun e' he => ?_, (fun a ha => by cases ha)⟩⟩
        exact ⟨rfl, congrArg some (Except.error.inj he), hip.trans hempty⟩
      | ok a =>
        obtain ⟨rfl, rfl, rfl, rfl⟩ := h
        refine ⟨hv, rfl, hfin, (fun h => by cases h), fun _ h => absurd hempty h,
          fun _ _ => ⟨(fun e' he => by cases he), fun a' ha => ?_⟩⟩
        cases ha
        exact ⟨rfl, rfl, rfl, rfl⟩
    · rw [if_neg hempty] at h
      obtain ⟨rfl, rfl, rfl, rfl⟩ := h
      exact ⟨hv, htype.trans ht, hfin, (fun h => by cases h), fun _ _ => ⟨rfl, rfl, hip⟩,
        fun _ h => absurd h hempty⟩

/-- The initialisation keeps the address of an import, or acquires one for it. -/
theorem AddInitialInfoToServiceImport_cases {ipam ipam' : IPAM} {si si' : ServiceImport}
    {acquire : Except Error Addr} {changed : Bool} {err : Option Error}
    (h : AddInitialInfoToServiceImport ipam si acquire = (ipam', si', changed, err)) :
    si'.resourceVersion = si.resourceVersion ∧
      (ipam' = ipam ∧ si'.held = si.held ∧ (si.Readable → si'.Readable) ∨
        ∃ a, acquire = .ok a ∧ ipam' = { ipam with acquired := insert a ipam.acquired } ∧
          si'.held = some a ∧ si'.Readable) := by
  obtain ⟨hv, htype, -, hheadless, hhas, hgets⟩ := AddInitialInfoToServiceImport_spec h
  refine ⟨hv, ?_⟩
  unfold ServiceImport.held ServiceImport.Readable
  cases ht : si.type with
  | headless =>
    obtain ⟨hipam, -, hip, -⟩ := hheadless ht
    rw [htype, ht]
    exact .inl ⟨hipam, rfl, fun _ => .inl hip⟩
  | clusterSetIP =>
    rw [htype, ht]
    dsimp only
    by_cases hempty : si.ip = ""
    · cases acquire with
      | error e =>
        obtain ⟨hipam, -, hip⟩ := (hgets ht hempty).1 e rfl
        rw [hip, hempty]
        exact .inl ⟨hipam, rfl, id⟩
      | ok a =>
        obtain ⟨hipam, -, -, hip⟩ := (hgets ht hempty).2 a rfl
        rw [hip]
        exact .inr ⟨a, rfl, hipam, parseAddr_addrString a, .inr ⟨a, rfl⟩⟩
    · obtain ⟨hipam, -, hip⟩ := hhas ht hempty
      rw [hip]
      exact .inl ⟨hipam, rfl, id⟩

theorem update_slices (c : ServiceImportController) (key : NamespacedName) (si : ServiceImport)
    (err : Option Error) (slices : String → GoMap String EndpointSlice) :
    ({ c with slices := slices }.update key si err).1 =
      { (c.update key si err).1 with slices := slices } := by
  cases err with
  | some e => rfl
  | none =>
    simp only [update]
    cases c.imports.lookup key with
    | none => rfl
    | some st =>
      simp only
      split <;> rfl

/-- The end of `Handle` changes the slices only. -/
theorem syncSlices_controller (createPatch : CreatePatch EndpointSlice)
    (c : ServiceImportController) (key : NamespacedName) (env : ImportEnv) :
    ∃ slices, (c.syncSlices createPatch key env).1 = { c with slices := slices } := by
  unfold syncSlices
  split
  · exact ⟨_, rfl⟩
  · simp only
    split <;> exact ⟨_, rfl⟩

/-- What becomes of the pool and of the stored imports when an import that is not
terminating is handled. -/
def Initialises (c : ServiceImportController) (key : NamespacedName) (env : ImportEnv)
    (c' : ServiceImportController) : Prop :=
  ∃ si ipam si' changed err, c.localSILister.lookup key = some si ∧
    AddInitialInfoToServiceImport c.IPAM si env.acquire = (ipam, si', changed, err) ∧
    (c' = { c with IPAM := ipam } ∨ c' = ({ c with IPAM := ipam }.update key si' env.updateErr).1)

/-- What becomes of them when a terminating import is handled and its slices are
deleted. -/
def Recycles (c : ServiceImportController) (key : NamespacedName) (env : ImportEnv)
    (c' : ServiceImportController) : Prop :=
  ∃ si ipam, c.localSILister.lookup key = some si ∧ env.getErr = none ∧
    si.deletionTimestamp = true ∧ env.deleteCollectionErr = none ∧
    (ipam = c.IPAM ∨ ∃ a, si.held = some a ∧ a ∈ c.IPAM.acquired ∧
      ipam = { c.IPAM with acquired := c.IPAM.acquired.erase a }) ∧
    c' = ({ c with IPAM := ipam }.update key
      { si with finalizers := si.finalizers.filter (· ≠ Known.AppFinalizer) } env.updateErr).1

theorem releasedIP_eq_ok {ip : String} (h : releasedIP si = .ok (some ip))
    (ha : parseAddr ip.toList = some a) : si.held = some a := by
  unfold releasedIP at h
  split at h
  · cases h
  · rename_i htype
    obtain ⟨ip', hindex, h⟩ := Go.bind_eq_ok.mp h
    have hip : si.ip = ip' := by
      obtain ⟨rest, hips⟩ := Go.index_zero_eq_ok.mp hindex
      rw [ServiceImport.ip, hips]
      rfl
    have hsome := Except.ok.inj h
    split at hsome
    · cases hsome
    · rw [ServiceImport.held, htype, hip, Option.some_inj.mp hsome]
      exact ha

theorem removeFinalizer_fst (c : ServiceImportController) (key : NamespacedName)
    (si : ServiceImport) (err : Option Error) :
    (c.removeFinalizer key si err).1 = (c.update key
      { si with finalizers := si.finalizers.filter (· ≠ Known.AppFinalizer) } err).1 := by
  unfold removeFinalizer
  simp only
  split <;> rename_i heq <;> rw [heq]

/-- An import that is not terminating has been initialised, and updated when that has changed it
without an error. -/
def ServiceImportController.initialised (c : ServiceImportController) (key : NamespacedName)
    (si : ServiceImport) (env : ImportEnv) : ServiceImportController :=
  let (ipam, si', changed, err) := AddInitialInfoToServiceImport c.IPAM si env.acquire
  if changed = true ∧ err = none then ({ c with IPAM := ipam }.update key si' env.updateErr).1
  else { c with IPAM := ipam }

theorem initialised_controller (c : ServiceImportController) (key : NamespacedName)
    (si : ServiceImport) (env : ImportEnv) : ∃ ipam imports version, c.initialised key si env =
      { c with IPAM := ipam, imports := imports, version := version } := by
  unfold initialised
  simp only
  split
  · exact ⟨_, update_controller _ _ _ _⟩
  · exact ⟨_, c.imports, c.version, rfl⟩

/-- Unless an error is met before, the slices are copied. -/
theorem Handle_live_cases (createPatch : CreatePatch EndpointSlice) (hget : env.getErr = none)
    (hsi : c.localSILister.lookup key = some si) (hlive : si.deletionTimestamp = false) :
    (∃ e, c.Handle createPatch key env = .ok (c.initialised key si env, .retrySecond e)) ∨
      c.Handle createPatch key env =
        .ok ((c.initialised key si env).syncSlices createPatch key env) := by
  unfold initialised
  simp only [Handle, hget, hsi, hlive, Bool.false_eq_true, if_false]
  rcases AddInitialInfoToServiceImport c.IPAM si env.acquire with ⟨ipam, si', _ | _, _ | e⟩
  · exact .inr rfl
  · exact .inl ⟨_, rfl⟩
  · simp only [and_self, if_true]
    rcases ServiceImportController.update { c with IPAM := ipam } key si' env.updateErr with
      ⟨c₁, e | _⟩
    · exact .inl ⟨_, rfl⟩
    · exact .inr rfl
  · exact .inl ⟨_, rfl⟩

theorem Handle_live (createPatch : CreatePatch EndpointSlice) (hget : env.getErr = none)
    (hsi : c.localSILister.lookup key = some si) (hlive : si.deletionTimestamp = false) :
    ∃ slices r, c.Handle createPatch key env =
      .ok ({ c.initialised key si env with slices := slices }, r) := by
  rcases Handle_live_cases createPatch hget hsi hlive with ⟨e, hhandle⟩ | hhandle
  · exact ⟨_, _, hhandle⟩
  · obtain ⟨slices, hslices⟩ := syncSlices_controller createPatch (c.initialised key si env) key env
    exact ⟨slices, _, hhandle.trans (congrArg Except.ok (Prod.ext hslices rfl))⟩

/-- The handling of a terminating import, once its slices are deleted: it panics,
or fails to release the address, or updates the import. -/
theorem Handle_recycle (createPatch : CreatePatch EndpointSlice) (hget : env.getErr = none)
    (hsi : c.localSILister.lookup key = some si) (hterm : si.deletionTimestamp = true)
    (hdel : env.deleteCollectionErr = none) :
    (∃ p, c.Handle createPatch key env = .error p ∧ releasedIP si = .error p) ∨
    (∃ slices r ip e, c.Handle createPatch key env = .ok ({ c with slices := slices }, r) ∧
      releasedIP si = .ok (some ip) ∧ c.IPAM.ReleaseIP ip = .error e) ∨
    ∃ slices r ipam, c.Handle createPatch key env = .ok
        ({ ({ c with IPAM := ipam }.update key
          { si with finalizers := si.finalizers.filter (· ≠ Known.AppFinalizer) }
          env.updateErr).1 with slices := slices }, r) ∧
      (releasedIP si = .ok none ∧ ipam = c.IPAM ∨ ∃ a, si.held = some a ∧ a ∈ c.IPAM.acquired ∧
        ipam = { c.IPAM with acquired := c.IPAM.acquired.erase a }) := by
  -- What `Handle` makes of the outcome of the recycling.
  obtain ⟨finish, hhandle, hretry, hdone⟩ : ∃ finish : ServiceImportController × Option Error →
      Go (ServiceImportController × HandleResult),
      c.Handle createPatch key env = c.recycleServiceImport key si env >>= finish ∧
      (∀ c e, finish (c, some e) = .ok (c, .retrySecond (some e))) ∧
      ∀ c, finish (c, none) = .ok (c, .done) := by
    rw [Handle, hget, hsi]
    refine ⟨_, if_pos hterm, ?_, ?_⟩
    · exact fun _ _ => rfl
    · exact fun _ => rfl
  have hfst : ∀ ipam, ∃ slices r,
      finish ({ c.deleteSlices key with IPAM := ipam }.removeFinalizer key si env.updateErr) = .ok
        ({ ({ c with IPAM := ipam }.update key
          { si with finalizers := si.finalizers.filter (· ≠ Known.AppFinalizer) }
          env.updateErr).1 with slices := slices }, r) := by
    intro ipam
    have hfst := (removeFinalizer_fst { c.deleteSlices key with IPAM := ipam } key si
      env.updateErr).trans (update_slices { c with IPAM := ipam } key _ env.updateErr
        (c.deleteSlices key).slices)
    generalize removeFinalizer { c.deleteSlices key with IPAM := ipam } key si env.updateErr = res
      at hfst ⊢
    obtain ⟨c₁, err⟩ := res
    refine ⟨(c.deleteSlices key).slices, ?_⟩
    rw [← hfst]
    cases err with
    | none => exact ⟨_, hdone c₁⟩
    | some e => exact ⟨_, hretry c₁ e⟩
  cases hip : releasedIP si with
  | error p =>
    refine .inl ⟨p, ?_, rfl⟩
    rw [hhandle, recycleServiceImport, hdel]
    simp only [hip]
    rfl
  | ok ip =>
    cases ip with
    | none =>
      have hrec : c.recycleServiceImport key si env =
          pure ((c.deleteSlices key).removeFinalizer key si env.updateErr) := by
        rw [recycleServiceImport, hdel]
        simp only [hip]
        rfl
      obtain ⟨slices, r, h⟩ := hfst c.IPAM
      exact .inr (.inr ⟨slices, r, c.IPAM, (by rw [hhandle, hrec]; exact h), .inl ⟨rfl, rfl⟩⟩)
    | some ip =>
      cases hrel : c.IPAM.ReleaseIP ip with
      | error e =>
        have hrec : c.recycleServiceImport key si env = pure (c.deleteSlices key, some e) := by
          rw [recycleServiceImport, hdel]
          simp only [hip, deleteSlices, bind, Except.bind, hrel]
        exact .inr (.inl ⟨_, _, ip, e, (by rw [hhandle, hrec]; exact hretry _ e), rfl, hrel⟩)
      | ok ipam =>
        obtain ⟨a, ha, hacq, rfl⟩ := ReleaseIP_eq_ok hrel
        have hrec : c.recycleServiceImport key si env = pure ({ c.deleteSlices key with
            IPAM := { c.IPAM with acquired := c.IPAM.acquired.erase a } }.removeFinalizer key si
              env.updateErr) := by
          rw [recycleServiceImport, hdel]
          simp only [hip, deleteSlices, bind, Except.bind, hrel]
        obtain ⟨slices, r, h⟩ := hfst { c.IPAM with acquired := c.IPAM.acquired.erase a }
        exact .inr (.inr ⟨slices, r, _, (by rw [hhandle, hrec]; exact h),
          .inr ⟨a, releasedIP_eq_ok hip ha, hacq, rfl⟩⟩)

/-- What a `Handle` does, apart from the slices. -/
theorem Handle_cases {createPatch : CreatePatch EndpointSlice} {r : HandleResult}
    (h : c.Handle createPatch key env = .ok (c', r)) :
    ∃ c₁ slices, c' = { c₁ with slices := slices } ∧
      (c₁ = c ∨ Initialises c key env c₁ ∨ Recycles c key env c₁) := by
  have hcontroller {c₂ : ServiceImportController} (r₂ : HandleResult)
      (hhandle : c.Handle createPatch key env = .ok (c₂, r₂)) : c' = c₂ :=
    (Prod.mk.inj (Except.ok.inj (h.symm.trans hhandle))).1
  cases hget : env.getErr with
  | some e => exact ⟨c, c.slices, hcontroller _ (by simp only [Handle, hget]; rfl), .inl rfl⟩
  | none =>
    cases hsi : c.localSILister.lookup key with
    | none => exact ⟨c, c.slices, hcontroller _ (by simp only [Handle, hget, hsi]; rfl), .inl rfl⟩
    | some si =>
      cases hterm : si.deletionTimestamp with
      | false =>
        rcases hinit : AddInitialInfoToServiceImport c.IPAM si env.acquire with
          ⟨ipam, si', changed, err⟩
        obtain ⟨slices, r₂, hhandle⟩ := Handle_live createPatch hget hsi hterm
        refine ⟨_, slices, hcontroller r₂ hhandle, .inr (.inl ⟨si, _, _, _, _, hsi, hinit, ?_⟩)⟩
        simp only [initialised, hinit]
        split
        · exact .inr rfl
        · exact .inl rfl
      | true =>
        cases hdel : env.deleteCollectionErr with
        | some e =>
          refine ⟨c, c.slices, hcontroller (.retrySecond (some e)) ?_, .inl rfl⟩
          simp only [Handle, hget, hsi, hterm, if_true, recycleServiceImport, hdel]
          rfl
        | none =>
          rcases Handle_recycle createPatch hget hsi hterm hdel with
            ⟨p, hpanic, -⟩ | ⟨slices, r₂, ip, e, hhandle, -⟩ | ⟨slices, r₂, ipam, hhandle, hipam⟩
          · cases h.symm.trans hpanic
          · exact ⟨c, slices, hcontroller r₂ hhandle, .inl rfl⟩
          · exact ⟨_, slices, hcontroller r₂ hhandle, .inr (.inr ⟨si, ipam, hsi, hget, hterm, hdel,
              hipam.imp_left And.right, rfl⟩)⟩

/-! ## The invariant -/

/-- The stored imports have acquired addresses, each its own, and the lister has
imports as they were at some time. -/
structure Sound (taken : Set Addr) (c : ServiceImportController) : Prop where
  exclusive : Exclusive taken (held c.imports)
  readable : ∀ {key si}, c.imports.lookup key = some si → si.Readable
  coherent : Coherent ServiceImport.resourceVersion c.version c.imports c.localSILister

theorem Sound.write {taken taken' : Set Addr} (h : Sound taken c)
    (hv : si.resourceVersion = c.version) (hread : si.Readable)
    (hex : Exclusive taken' (held (c.write key si).imports)) : Sound taken' (c.write key si) where
  exclusive := hex
  readable {k st} hst := by
    rw [lookup_write] at hst
    split at hst
    · split at hst
      · cases hst
      · rwa [← Option.some_inj.mp hst]
    · exact h.readable hst
  coherent := by
    unfold ServiceImportController.write
    split
    · exact h.coherent.erase key
    · exact h.coherent.write key hv

/-- A write that keeps the address of the stored import adds no address. -/
theorem held_rewrite {si st : ServiceImport} (hst : c.imports.lookup key = some st)
    (hheld : si.held = st.held) {k : NamespacedName}
    (hk : held (c.write key si).imports k = some a) : held c.imports k = some a := by
  rcases held_write hk with ⟨rfl, ha, -⟩ | ⟨-, hk⟩
  · exact held_eq_some_iff.mpr ⟨st, hst, hheld ▸ ha⟩
  · exact hk

theorem Sound.rewrite {taken : Set Addr} (h : Sound taken c) {si st : ServiceImport}
    (hst : c.imports.lookup key = some st) (hv : si.resourceVersion = c.version)
    (hread : si.Readable) (hheld : si.held = st.held) : Sound taken (c.write key si) :=
  h.write hv hread (h.exclusive.mono subset_rfl (held_rewrite hst hheld))

theorem Sound.initialises (h : Sound c.IPAM.acquired c)
    (hacq : ∀ a, env.acquire = .ok a → a ∉ c.IPAM.acquired) (hc' : Initialises c key env c') :
    Sound c'.IPAM.acquired c' := by
  obtain ⟨si, ipam, si', changed, err, hsi, hinit, hc'⟩ := hc'
  obtain ⟨hv, hinit⟩ := AddInitialInfoToServiceImport_cases hinit
  have hsub : (c.IPAM.acquired : Set Addr) ⊆ ipam.acquired := by
    rcases hinit with ⟨rfl, -⟩ | ⟨a, -, rfl, -⟩
    · exact subset_rfl
    · exact Finset.coe_subset.mpr (Finset.subset_insert a _)
  have hstay : Sound ipam.acquired { c with IPAM := ipam } :=
    ⟨h.exclusive.mono hsub id, h.readable, h.coherent⟩
  rcases hc' with rfl | rfl
  · exact hstay
  rcases update_cases { c with IPAM := ipam } key si' env.updateErr with
    ⟨st, -, hst, hveq, _, heq⟩ | ⟨-, _, heq⟩
  · rw [heq]
    obtain rfl : st = si := h.coherent.agree hsi hst (hveq.trans hv)
    rcases hinit with ⟨-, hheld, hread⟩ | ⟨a, hok, rfl, hheld, hread⟩
    · exact hstay.rewrite hst rfl (hread (h.readable hst)) hheld
    · refine hstay.write rfl hread ?_
      show Exclusive ((insert a c.IPAM.acquired : Finset Addr) : Set Addr) _
      rw [Finset.coe_insert]
      refine h.exclusive.acquire (hacq a hok) (k := key) fun k b hk => ?_
      rcases held_write hk with ⟨rfl, hb, -⟩ | ⟨-, hk⟩
      · exact .inl ⟨rfl, Option.some_inj.mp (hb.symm.trans hheld)⟩
      · exact .inr hk
  · rw [heq]
    exact hstay

/-- Once the address of a terminating import is released, no stored import has it:
at most the import itself has it before, and then goes. -/
def Frees (c : ServiceImportController) (key : NamespacedName) (env : ImportEnv)
    (si : ServiceImport) : Prop :=
  ∀ a, si.held = some a → a ∈ c.IPAM.acquired → ∀ k st, c.imports.lookup k = some st →
    st.held = some a → k = key ∧ st.resourceVersion = si.resourceVersion ∧ env.updateErr = none ∧
      ∀ f ∈ si.finalizers, f = Known.AppFinalizer

theorem Sound.recycles (h : Sound c.IPAM.acquired c)
    (hfree : ∀ si, c.localSILister.lookup key = some si → env.getErr = none →
      si.deletionTimestamp = true → env.deleteCollectionErr = none → Frees c key env si)
    (hc' : Recycles c key env c') : Sound c'.IPAM.acquired c' := by
  obtain ⟨si, ipam, hsi, hget, hterm, hdel, hipam, rfl⟩ := hc'
  have hfree := hfree si hsi hget hterm hdel
  rcases update_cases { c with IPAM := ipam } key
      { si with finalizers := si.finalizers.filter (· ≠ Known.AppFinalizer) } env.updateErr with
    ⟨st, -, hst, hv, _, heq⟩ | ⟨hfail, _, heq⟩
  · rw [heq]
    obtain rfl : st = si := h.coherent.agree hsi hst hv
    have hread : st.Readable := h.readable hst
    rcases hipam with rfl | ⟨a, ha, hacq, rfl⟩
    · exact h.rewrite hst rfl hread rfl
    · have hstay : Sound c.IPAM.acquired
          { c with IPAM := { c.IPAM with acquired := c.IPAM.acquired.erase a } } :=
        ⟨h.exclusive, h.readable, h.coherent⟩
      refine hstay.write rfl hread ?_
      show Exclusive ((c.IPAM.acquired.erase a : Finset Addr) : Set Addr) _
      rw [Finset.coe_erase]
      refine (h.exclusive.release_iff ?_).mpr fun k hk => ?_
      · intro k b hk
        refine held_rewrite hst ?_ hk
        rfl
      rcases held_write hk with ⟨rfl, -, hfin⟩ | ⟨hne, hk⟩
      · refine hfin hterm (List.filter_eq_nil_iff.mpr fun f hf => ?_)
        simpa using (hfree a ha hacq k st hst ha).2.2.2 f hf
      · obtain ⟨st', hst', hk⟩ := held_eq_some_iff.mp hk
        exact hne (hfree a ha hacq k st' hst' hk).1
  · rw [heq]
    rcases hipam with rfl | ⟨a, ha, hacq, rfl⟩
    · exact h
    · refine ⟨?_, h.readable, h.coherent⟩
      show Exclusive ((c.IPAM.acquired.erase a : Finset Addr) : Set Addr) _
      rw [Finset.coe_erase]
      refine (h.exclusive.release_iff id).mpr fun k hk => ?_
      obtain ⟨st, hst, hst'⟩ := held_eq_some_iff.mp hk
      obtain ⟨rfl, hv, herr, -⟩ := hfree a ha hacq k st hst hst'
      exact hfail st hst hv herr

end

/-! ## Runs -/

/-- The controller and the API server, and whether the process runs. -/
structure ImportState where
  controller : ServiceImportController
  running : Bool

/-- What happens: users create imports without IPs and ask for deletions, the
informer sees a key, the controller handles a key, the process stops or starts
(with the outcome of `updateServiceCIDRToCNFPod`), and slices change. -/
inductive ImportEvent
  | create (key : NamespacedName) (type : ServiceImportType) (finalizers : List String)
  | delete (key : NamespacedName)
  | watch (key : NamespacedName)
  | handle (key : NamespacedName) (env : ImportEnv)
  | stop
  | start (env : InitEnv) (updateErr : Option Error)
  | slices (hub : List EndpointSlice) (slices : String → GoMap String EndpointSlice)

/-- `AcquireIP` answers with a free address of the prefix, or an error. -/
def FreshAnswer (i : IPAM) (env : ImportEnv) : Prop :=
  ∀ a, env.acquire = .ok a → i.net.contains a = true ∧ a ∉ i.acquired

/-- When an event can happen. -/
def Enabled (s : ImportState) : ImportEvent → Prop
  | .create key _ _ => s.controller.imports.lookup key = none
  | .handle _ env => s.running = true ∧ FreshAnswer s.controller.IPAM env
  | .start _ _ => s.running = false
  | .delete _ | .watch _ | .stop | .slices _ _ => True

section

variable (createPatch : CreatePatch EndpointSlice)

/-- The state after an event. A panic takes the process down. -/
def ImportState.next (s : ImportState) (e : ImportEvent) : ImportState :=
  let c := s.controller
  match e with
  | .create key type finalizers =>
    { s with controller := c.write key ⟨type, [], finalizers, false, c.version⟩ }
  | .delete key =>
    match c.imports.lookup key with
    | none => s
    | some st =>
      if st.deletionTimestamp then s
      else
        let st := { st with deletionTimestamp := true, resourceVersion := c.version }
        { s with controller := c.write key st }
  | .watch key =>
    { s with controller := { c with localSILister := c.localSILister.refresh c.imports key } }
  | .handle key env =>
    match c.Handle createPatch key env with
    | .ok (c, _) => { s with controller := c }
    | .error _ => { s with running := false }
  | .stop => ⟨{ c with localSILister := ∅ }, false⟩
  | .start env updateErr =>
    match InitNewCIDR c.imports env, updateErr with
    | .ok ipam, none => ⟨{ c with IPAM := ipam }, true⟩
    | _, _ => s
  | .slices hub slices =>
    { s with controller := { c with sourceEndpointSlicesLister := hub, slices := slices } }

/-- The steps of the system. -/
def importStep (s : ImportState) (e : ImportEvent) (s' : ImportState) : Prop :=
  Enabled s e ∧ s' = s.next createPatch e

end

/-- Where the handling of a terminating import gets to the release of its address,
the address is given up by whoever has it. -/
def FreesReleased (s : ImportState) : ImportEvent → Prop
  | .handle key env => ∀ si, s.controller.localSILister.lookup key = some si →
    env.getErr = none → si.deletionTimestamp = true → env.deleteCollectionErr = none →
    Frees s.controller key env si
  | _ => True

/-- No two stored imports that are not headless have the same IP. -/
def UniqueIPs (imports : GoMap NamespacedName ServiceImport) : Prop :=
  ∀ k k' si si', imports.lookup k = some si → imports.lookup k' = some si' →
    si.type ≠ .headless → si'.type ≠ .headless → si.ip ≠ "" → si.ip = si'.ip → k = k'

/-- The addresses that a running controller does not give away. -/
def ImportState.taken (s : ImportState) : Set Addr :=
  { a | s.running = true → a ∈ s.controller.IPAM.acquired }

theorem ImportState.taken_of_running {s : ImportState} (h : s.running = true) :
    s.taken = s.controller.IPAM.acquired := by
  ext a
  simp [ImportState.taken, h]

section

variable {createPatch : CreatePatch EndpointSlice} {s s' : ImportState} {e : ImportEvent}
  {c c' : ServiceImportController} {key : NamespacedName} {si : ServiceImport} {a : Addr}
  {env : ImportEnv}

theorem Sound.handle {r : HandleResult} (h : Sound c.IPAM.acquired c)
    (hfresh : FreshAnswer c.IPAM env)
    (hfree : ∀ si, c.localSILister.lookup key = some si → env.getErr = none →
      si.deletionTimestamp = true → env.deleteCollectionErr = none → Frees c key env si)
    (hc' : c.Handle createPatch key env = .ok (c', r)) : Sound c'.IPAM.acquired c' := by
  obtain ⟨c₁, slices, rfl, hc₁⟩ := Handle_cases hc'
  have h₁ : Sound c₁.IPAM.acquired c₁ := by
    rcases hc₁ with rfl | hinit | hrec
    · exact h
    · exact h.initialises (fun a ha => (hfresh a ha).2) hinit
    · exact h.recycles hfree hrec
  exact ⟨h₁.exclusive, h₁.readable, h₁.coherent⟩

/-- A step that frees what it releases keeps the invariant. -/
theorem Sound.step (h : Sound s.taken s.controller) (hs : importStep createPatch s e s')
    (hfree : FreesReleased s e) : Sound s'.taken s'.controller := by
  obtain ⟨henabled, rfl⟩ := hs
  cases e with
  | create key type finalizers =>
    refine h.write rfl (.inl rfl) (h.exclusive.mono subset_rfl fun {k a} hk => ?_)
    rcases held_write hk with ⟨-, ha, -⟩ | ⟨-, hk⟩
    · exact absurd rfl (ServiceImport.held_eq_some ha).2.1
    · exact hk
  | delete key =>
    simp only [ImportState.next]
    split
    · exact h
    · rename_i st hst
      have hread : st.Readable := h.readable hst
      split
      · exact h
      · exact h.rewrite hst rfl hread rfl
  | watch key => exact ⟨h.exclusive, h.readable, h.coherent.refresh key⟩
  | handle key env =>
    obtain ⟨hrun, hfresh⟩ := henabled
    simp only [ImportState.next]
    split
    · rename_i c' r hc'
      rw [ImportState.taken_of_running hrun] at h
      rw [ImportState.taken_of_running (s := ⟨c', s.running⟩) hrun]
      exact h.handle hfresh hfree hc'
    · exact ⟨h.exclusive.mono (fun _ _ => nofun) id, h.readable, h.coherent⟩
  | stop => exact ⟨h.exclusive.mono (fun _ _ => nofun) id, h.readable, h.coherent.reset⟩
  | start env updateErr =>
    simp only [ImportState.next]
    split
    · rename_i ipam hinit
      refine ⟨⟨fun {k a} hk _ => ?_, h.exclusive.unique⟩, h.readable, h.coherent⟩
      exact (InitNewCIDR_acquired hinit).2.1 k a hk
    · exact h
  | slices hub slices => exact ⟨h.exclusive, h.readable, h.coherent⟩

theorem Sound.uniqueIPs {taken : Set Addr} (h : Sound taken c) : UniqueIPs c.imports := by
  intro k k' si si' hsi hsi' htype htype' hne heq
  obtain ⟨a, ha⟩ := (h.readable hsi).resolve_left hne
  have hheld : ∀ {k : NamespacedName} {st : ServiceImport}, c.imports.lookup k = some st →
      st.type ≠ .headless → st.ip = si.ip → held c.imports k = some a := by
    intro k st hst ht hip
    refine held_eq_some_iff.mpr ⟨st, hst, ?_⟩
    unfold ServiceImport.held
    split
    · exact absurd ‹_› ht
    · rw [hip, ha]
      exact parseAddr_addrString a
  exact h.exclusive.unique (hheld hsi htype rfl) (hheld hsi' htype' heq.symm)

/-- A state without imports. -/
structure ImportState.Empty (s : ImportState) : Prop where
  imports : s.controller.imports = ∅
  lister : s.controller.localSILister = ∅

theorem Sound.of_empty (h : s.Empty) : Sound s.taken s.controller := by
  have hnone : ∀ {key si}, s.controller.imports.lookup key ≠ some si := by
    intro key si
    rw [h.imports, AList.lookup_empty]
    nofun
  have hheld : ∀ {k a}, held s.controller.imports k ≠ some a := by
    intro k a hk
    obtain ⟨si, hsi, -⟩ := held_eq_some_iff.mp hk
    exact hnone hsi
  refine ⟨⟨fun hk => absurd hk hheld, fun hk => absurd hk hheld⟩, fun hsi => absurd hsi hnone,
    ⟨fun hsi => absurd hsi hnone, fun {k si} hsi => ?_, fun _ hsi => absurd hsi hnone⟩⟩
  rw [h.lister, AList.lookup_empty] at hsi
  cases hsi

/-! ## A release that does not free -/

theorem releasedIP_of_held (h : si.held = some a) : releasedIP si = .ok (some si.ip) := by
  obtain ⟨htype, hip, -⟩ := ServiceImport.held_eq_some h
  cases hips : si.ips with
  | nil =>
    rw [ServiceImport.ip, hips] at hip
    exact absurd rfl hip
  | cons ip ips =>
    have hhead : si.ip = ip := by rw [ServiceImport.ip, hips]; rfl
    rw [hhead] at hip ⊢
    unfold releasedIP
    rw [htype, hips]
    show Except.ok (if ip = "" then none else some ip) = _
    rw [if_neg hip]

/-- The handling of a terminating import whose address is acquired. -/
theorem Handle_release (hsi : c.localSILister.lookup key = some si) (hget : env.getErr = none)
    (hterm : si.deletionTimestamp = true) (hdel : env.deleteCollectionErr = none)
    (ha : si.held = some a) (hacq : a ∈ c.IPAM.acquired) :
    ∃ slices r, c.Handle createPatch key env = .ok
      ({ ({ c with IPAM := { c.IPAM with acquired := c.IPAM.acquired.erase a } }.update key
        { si with finalizers := si.finalizers.filter (· ≠ Known.AppFinalizer) }
        env.updateErr).1 with slices := slices }, r) := by
  have hip := releasedIP_of_held ha
  rcases Handle_recycle createPatch hget hsi hterm hdel with ⟨p, -, hrel⟩ |
    ⟨_, _, ip, e, -, hrel, hfail⟩ | ⟨slices, r, ipam, hhandle, ⟨hrel, -⟩ | ⟨b, hb, -, rfl⟩⟩
  · cases hip.symm.trans hrel
  · cases hip.symm.trans hrel
    rw [IPAM.ReleaseIP, (ServiceImport.held_eq_some ha).2.2] at hfail
    cases (if_pos hacq).symm.trans hfail
  · cases hip.symm.trans hrel
  · obtain rfl : a = b := Option.some_inj.mp (ha.symm.trans hb)
    exact ⟨slices, r, hhandle⟩

theorem ImportState.next_handle {r : HandleResult}
    (h : s.controller.Handle createPatch key env = .ok (c', r)) :
    s.next createPatch (.handle key env) = { s with controller := c' } := by
  simp only [ImportState.next, h]

variable (createPatch) in
/-- A release without its condition leaves a stored import with a free address. -/
theorem exists_held_of_not_frees (h : Sound c.IPAM.acquired c)
    (hsi : c.localSILister.lookup key = some si) (hget : env.getErr = none)
    (hterm : si.deletionTimestamp = true) (hdel : env.deleteCollectionErr = none)
    (hnot : ¬ Frees c key env si) :
    ∃ c' r a k, c.Handle createPatch key env = .ok (c', r) ∧ a ∈ c.IPAM.acquired ∧
      c'.IPAM = { c.IPAM with acquired := c.IPAM.acquired.erase a } ∧
      held c'.imports k = some a ∧ Sound Set.univ c' := by
  simp only [Frees, not_forall] at hnot
  obtain ⟨a, ha, hacq, k, st, hst, hheld, hnot⟩ := hnot
  obtain ⟨slices, r, hhandle⟩ := Handle_release hsi hget hterm hdel ha hacq
  have hstay : Sound Set.univ
      { c with IPAM := { c.IPAM with acquired := c.IPAM.acquired.erase a } } :=
    ⟨h.exclusive.mono (Set.subset_univ _) id, h.readable, h.coherent⟩
  rcases update_cases { c with IPAM := { c.IPAM with acquired := c.IPAM.acquired.erase a } } key
      { si with finalizers := si.finalizers.filter (· ≠ Known.AppFinalizer) } env.updateErr with
    ⟨si₁, herr, hsi₁, hv, _, heq⟩ | ⟨-, _, heq⟩
  · rw [heq] at hhandle
    obtain rfl : si = si₁ := (h.coherent.agree hsi hsi₁ hv).symm
    have hread : si.Readable := h.readable hsi₁
    have hwritten : Sound Set.univ (ServiceImportController.write
        { c with IPAM := { c.IPAM with acquired := c.IPAM.acquired.erase a } } key
        { si with
          finalizers := si.finalizers.filter (· ≠ Known.AppFinalizer)
          resourceVersion := c.version }) := hstay.rewrite hsi₁ rfl hread rfl
    refine ⟨_, r, a, k, hhandle, hacq, rfl, ?_, hwritten.exclusive, hwritten.readable,
      hwritten.coherent⟩
    refine held_eq_some_iff.mpr ?_
    simp only [lookup_write]
    by_cases hk : k = key
    · subst k
      obtain rfl : si = st := Option.some_inj.mp (hsi₁.symm.trans hst)
      rw [if_pos rfl, if_neg]
      · exact ⟨_, rfl, ha⟩
      · rintro ⟨-, hfin⟩
        refine hnot ⟨rfl, rfl, herr, fun f hf => ?_⟩
        simpa using List.filter_eq_nil_iff.mp hfin f hf
    · rw [if_neg hk]
      exact ⟨st, hst, hheld⟩
  · rw [heq] at hhandle
    exact ⟨_, r, a, k, hhandle, hacq, rfl, held_eq_some_iff.mpr ⟨st, hst, hheld⟩, hstay.exclusive,
      hstay.readable, hstay.coherent⟩

/-- The handling of a new import: it gets the address that is acquired. -/
theorem Handle_new {v : Nat}
    (hsi : c.localSILister.lookup key = some ⟨.clusterSetIP, [], [], false, v⟩)
    (hst : c.imports.lookup key = some ⟨.clusterSetIP, [], [], false, v⟩) (hget : env.getErr = none)
    (hacq : env.acquire = .ok a) (hupdate : env.updateErr = none) :
    ∃ c' r, c.Handle createPatch key env = .ok (c', r) ∧ c'.imports = (c.write key
      ⟨.clusterSetIP, [addrString a], [Known.AppFinalizer], false, c.version⟩).imports := by
  have hinit : AddInitialInfoToServiceImport c.IPAM ⟨.clusterSetIP, [], [], false, v⟩ env.acquire =
      ({ c.IPAM with acquired := insert a c.IPAM.acquired },
        ⟨.clusterSetIP, [addrString a], [Known.AppFinalizer], false, v⟩, true, none) := by
    rw [hacq]
    rfl
  obtain ⟨slices, r, hhandle⟩ := Handle_live createPatch hget hsi rfl
  refine ⟨_, r, hhandle, ?_⟩
  simp only [initialised, hinit, and_self, if_true, hupdate, update, hst, ne_eq, not_true_eq_false,
    if_false]
  rfl

theorem exists_lookup_eq_none (imports : GoMap NamespacedName ServiceImport) :
    ∃ key, imports.lookup key = none := by
  have hinj : Function.Injective fun n => NamespacedName.mk "" (String.ofList (List.replicate n 'a')) := by
    intro m n h
    have := congrArg (fun k => k.name.toList.length) h
    simpa using this
  have : Infinite NamespacedName := Infinite.of_injective _ hinj
  obtain ⟨key, hkey⟩ := Infinite.exists_notMem_finset imports.keys.toFinset
  exact ⟨key, AList.lookup_eq_none.mpr fun hmem => hkey (List.mem_toFinset.mpr hmem)⟩

/-- A free address that a stored import has can be given to another one. -/
theorem exists_shared (hrun : s.running = true) (h : Sound Set.univ s.controller)
    {k : NamespacedName} (hk : held s.controller.imports k = some a)
    (hnet : s.controller.IPAM.net.contains a = true) (hfree : a ∉ s.controller.IPAM.acquired) :
    ∃ es s', Runs (importStep createPatch) s es s' ∧ ¬ UniqueIPs s'.controller.imports := by
  obtain ⟨key, hkey⟩ := exists_lookup_eq_none s.controller.imports
  obtain ⟨st, hst, hheld⟩ := held_eq_some_iff.mp hk
  obtain ⟨htype, hip, hparse⟩ := ServiceImport.held_eq_some hheld
  have hne : k ≠ key := by
    rintro rfl
    rw [hkey] at hst
    cases hst
  have hipeq : st.ip = addrString a := by
    obtain ⟨b, hb⟩ := (h.readable hst).resolve_left hip
    rw [hb, parseAddr_addrString] at hparse
    rw [hb, Option.some_inj.mp hparse]
  -- A new import is created, seen, and handled with that answer of `AcquireIP`.
  let env : ImportEnv :=
    ⟨none, .ok a, none, none, ⟨none, .stored, none, fun _ => none⟩, [], fun _ => []⟩
  let s₁ := s.next createPatch (.create key .clusterSetIP [])
  let s₂ := s₁.next createPatch (.watch key)
  have hlookup : ∀ k', s₂.controller.imports.lookup k' = if k' = key then
      some ⟨.clusterSetIP, [], [], false, s.controller.version⟩
      else s.controller.imports.lookup k' := by
    intro k'
    exact (lookup_write _ _ _ _).trans (by simp)
  have hstored := (hlookup key).trans (if_pos rfl)
  have hseen : s₂.controller.localSILister.lookup key = _ :=
    (GoMap.lookup_refresh _ _ _ _).trans ((if_pos rfl).trans hstored)
  obtain ⟨c', r, hhandle, himports⟩ : ∃ c' r, s₂.controller.Handle createPatch key env = .ok (c', r) ∧
      c'.imports = _ := Handle_new hseen hstored rfl rfl rfl
  refine ⟨[.create key .clusterSetIP [], .watch key, .handle key env], { s₂ with controller := c' },
    .cons ⟨hkey, rfl⟩ (.cons ⟨trivial, rfl⟩ (.single ⟨⟨hrun, ?_⟩, ?_⟩)), fun hunique => ?_⟩
  · rintro b ⟨⟩
    exact ⟨hnet, hfree⟩
  · exact (ImportState.next_handle hhandle).symm
  · have h₁ : c'.imports.lookup k = some st := by
      rw [himports, lookup_write, if_neg hne, hlookup, if_neg hne, hst]
    have h₂ : c'.imports.lookup key =
        some ⟨.clusterSetIP, [addrString a], [Known.AppFinalizer], false, s₂.controller.version⟩ := by
      rw [himports, lookup_write, if_pos rfl]
      rfl
    refine hne (hunique k key st _ h₁ h₂ ?_ ?_ hip hipeq)
    · rw [htype]
      decide
    · exact nofun

/-- A step that releases an address without its condition leads to two imports with
one IP. -/
theorem shared_of_not_freesReleased (hrun : s.running = true) (h : Sound s.taken s.controller)
    (hnet : ∀ a ∈ s.controller.IPAM.acquired, s.controller.IPAM.net.contains a = true)
    (hs : importStep createPatch s e s') (hnot : ¬ FreesReleased s e) :
    ∃ es s'', Runs (importStep createPatch) s' es s'' ∧ ¬ UniqueIPs s''.controller.imports := by
  cases e with
  | handle key env =>
    simp only [FreesReleased, not_forall] at hnot
    obtain ⟨si, hsi, hget, hterm, hdel, hnot⟩ := hnot
    rw [ImportState.taken_of_running hrun] at h
    obtain ⟨c', r, a, k, hhandle, hacq, hipam, hheld, hsound⟩ :=
      exists_held_of_not_frees createPatch h hsi hget hterm hdel hnot
    obtain ⟨-, rfl⟩ := hs
    rw [ImportState.next_handle hhandle]
    refine exists_shared hrun hsound hheld ?_ ?_
    · rw [hipam]
      exact hnet a hacq
    · rw [hipam]
      exact Finset.notMem_erase a _
  | _ => exact absurd trivial hnot

end

/-! ### Two runs -/

instance (i : IPAM) (env : ImportEnv) : Decidable (FreshAnswer i env) :=
  match h : env.acquire with
  | .error _ => isTrue fun a ha => by rw [h] at ha; cases ha
  | .ok a => decidable_of_iff (i.net.contains a = true ∧ a ∉ i.acquired)
    ⟨fun hf b hb => by rw [h] at hb; exact Except.ok.inj hb ▸ hf, fun hf => hf a h⟩

instance (s : ImportState) (e : ImportEvent) : Decidable (Enabled s e) :=
  match e with
  | .create key _ _ => inferInstanceAs (Decidable (s.controller.imports.lookup key = none))
  | .handle _ env => inferInstanceAs (Decidable (_ ∧ FreshAnswer _ env))
  | .start _ _ => inferInstanceAs (Decidable (s.running = false))
  | .delete _ | .watch _ | .stop | .slices _ _ => isTrue trivial

/-- `FreesReleased`, for any pool and as a check of the stored entries. -/
def freesReleased (s : ImportState) : ImportEvent → Bool
  | .handle key env => (s.controller.localSILister.lookup key).all fun si =>
    !si.deletionTimestamp || s.controller.imports.entries.all fun e =>
      decide (e.2.held = si.held → e.1 = key ∧ e.2.resourceVersion = si.resourceVersion ∧
        env.updateErr = none ∧ ∀ f ∈ si.finalizers, f = Known.AppFinalizer)
  | _ => true

theorem FreesReleased.of_check {s : ImportState} {e : ImportEvent} (h : freesReleased s e = true) :
    FreesReleased s e := by
  cases e with
  | handle key env =>
    intro si hsi _ hterm _ a ha _ k st hst hheld
    simp only [freesReleased, hsi, Option.all_some, hterm, Bool.not_true, Bool.false_or,
      List.all_eq_true, decide_eq_true_eq] at h
    exact h ⟨k, st⟩ (GoMap.mem_entries_iff.mpr hst) (hheld.trans ha.symm)
  | _ => trivial

/-- A stopped controller without imports. -/
def newImports : ImportState :=
  ⟨⟨"hub", ⟨⟨0, 0, Nat.zero_le 32⟩, ∅⟩, ∅, [], ∅, 0, fun _ => ∅⟩, false⟩

/-- A library that gives every free address of the prefix. -/
def freeIpamer : Ipamer where
  AcquireSpecificIP := fun i ip =>
    match (parseAddr ip.toList).filter fun a => i.net.contains a ∧ a ∉ i.acquired with
    | none => .error ("given ip:" ++ ip ++ " is not free")
    | some a => .ok { i with acquired := insert a i.acquired }
  acquires := by
    intro i i' ip h
    split at h
    · cases h
    · rename_i a ha
      obtain ⟨ha, hfree⟩ := Option.filter_eq_some_iff.mp ha
      exact ⟨a, ha, (of_decide_eq_true hfree).1, (Except.ok.inj h).symm⟩

/-- The start, with a random CIDR if there are no IPs. -/
def startEvent : ImportEvent :=
  .start ⟨none, none, ∅, .ok "10.9.8.0/24", .stored, freeIpamer⟩ none

/-- `Handle` with this answer of `AcquireIP` and this outcome of the update. -/
def handleEvent (name : String) (acquire : Except Error Addr) (updateErr : Option Error) :
    ImportEvent :=
  .handle ⟨"ns", name⟩
    ⟨none, acquire, updateErr, none, ⟨none, .stored, none, fun _ => none⟩, [], fun _ => []⟩

/-- An import is created, seen, handled and seen again. -/
def addEvents (name : String) (a : Addr) : List ImportEvent :=
  [.create ⟨"ns", name⟩ .clusterSetIP [], .watch ⟨"ns", name⟩, handleEvent name (.ok a) none,
    .watch ⟨"ns", name⟩]

/-- The deletion of an import is asked for and seen. -/
def removeEvents (name : String) : List ImportEvent :=
  [.delete ⟨"ns", name⟩, .watch ⟨"ns", name⟩]

def noPatch : CreatePatch EndpointSlice := fun _ _ => none

theorem newImports_empty : newImports.Empty := ⟨rfl, rfl⟩

/-- The events can happen one after the other and pass a check. -/
def Checked (check : ImportState → ImportEvent → Bool) (s : ImportState) : List ImportEvent → Prop
  | [] => True
  | e :: es => (Enabled s e ∧ check s e = true) ∧ Checked check (s.next noPatch e) es

instance Checked.decidable (check : ImportState → ImportEvent → Bool) :
    ∀ (s : ImportState) (es : List ImportEvent), Decidable (Checked check s es)
  | _, [] => isTrue trivial
  | s, e :: es =>
    have := Checked.decidable check (s.next noPatch e) es
    inferInstanceAs (Decidable (_ ∧ Checked check (s.next noPatch e) es))

theorem Checked.runs {check : ImportState → ImportEvent → Bool} {s : ImportState}
    {es : List ImportEvent} (h : Checked check s es) :
    Runs (Guarded (importStep noPatch) fun s e => check s e = true) s es
      (es.foldl (ImportState.next noPatch) s) := by
  induction es generalizing s with
  | nil => exact .nil s
  | cons e es ih => exact .cons ⟨⟨h.1.1, rfl⟩, h.1.2⟩ (ih h.2)

/-- An import is deleted, and its IP goes to another one, which keeps it when the controller
starts again. -/
def reusedRun : List ImportEvent :=
  startEvent :: addEvents "a" (ofBytes 10 9 8 1) ++ removeEvents "a" ++
    [handleEvent "a" (.error "") none] ++ addEvents "b" (ofBytes 10 9 8 1) ++
    [.stop, startEvent] ++ addEvents "c" (ofBytes 10 9 8 2)

/-- From a state without imports, as long as every release of an address leaves no
stored import with it, no two stored imports that are not headless have the same
IP. -/
theorem virtual_ips_unique {createPatch : CreatePatch EndpointSlice}
    {s s' : ImportState} {es : List ImportEvent} (h : s.Empty)
    (hrun : Runs (Guarded (importStep createPatch) FreesReleased) s es s') :
    UniqueIPs s'.controller.imports :=
  (hrun.invariant (I := fun s => Sound s.taken s.controller)
    (fun hi hs => hi.step hs.1 hs.2) (Sound.of_empty h)).uniqueIPs

theorem virtual_ips_unique_reused :
    UniqueIPs (reusedRun.foldl (ImportState.next noPatch) newImports).controller.imports := by
  have hrun : Checked freesReleased newImports reusedRun := by decide +kernel
  exact virtual_ips_unique newImports_empty
    (hrun.runs.mono fun h => ⟨h.1, FreesReleased.of_check h.2⟩)

/-- A virtual IP is given to `b` after `a` has released it in an update that
failed. When `a` is handled again it releases the IP of `b`, and `c` gets it
too. -/
def sharedRun : List ImportEvent :=
  startEvent :: addEvents "a" (ofBytes 10 9 8 1) ++ removeEvents "a" ++
    [handleEvent "a" (.error "") (some "timeout")] ++ addEvents "b" (ofBytes 10 9 8 1) ++
    [handleEvent "a" (.error "") none] ++ addEvents "c" (ofBytes 10 9 8 1)

theorem failed_update_shares_ip : newImports.Empty ∧
    ∃ s, Runs (importStep noPatch) newImports sharedRun s ∧ ¬ UniqueIPs s.controller.imports := by
  have hrun : Checked (fun _ _ => true) newImports sharedRun := by decide +kernel
  refine ⟨newImports_empty, _, hrun.runs.mono (·.1), fun h => ?_⟩
  have hb : ((sharedRun.foldl (ImportState.next noPatch) newImports).controller.imports.lookup
      ⟨"ns", "b"⟩).map (fun si => (si.type, si.ip)) = some (.clusterSetIP, "10.9.8.1") := by
    decide +kernel
  have hc : ((sharedRun.foldl (ImportState.next noPatch) newImports).controller.imports.lookup
      ⟨"ns", "c"⟩).map (fun si => (si.type, si.ip)) = some (.clusterSetIP, "10.9.8.1") := by
    decide +kernel
  obtain ⟨si, hsi, hb⟩ := Option.map_eq_some_iff.mp hb
  obtain ⟨si', hsi', hc⟩ := Option.map_eq_some_iff.mp hc
  obtain ⟨htype, hip⟩ := Prod.mk.inj hb
  obtain ⟨htype', hip'⟩ := Prod.mk.inj hc
  have := h _ _ si si' hsi hsi' (by rw [htype]; decide) (by rw [htype']; decide)
    (by rw [hip]; decide) (hip.trans hip'.symm)
  exact absurd this (by decide)

end Fleetboard.Mcs

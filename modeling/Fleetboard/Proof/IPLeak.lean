import Fleetboard.Proof.ServiceImport

/-!
# Virtual IPs that nobody has

An address is acquired before the import that is to have it is updated, one that
becomes headless loses its address without giving it back, and a headless one that
is deleted gives nothing back. Each of these leaves an address acquired that no
stored import has.

* `NoLeak.handle_iff`: which calls of `Handle` leak an address;
* `noLeak_iff`: the runs without a leak.
-/

namespace Fleetboard.Mcs

open Fleetboard.Net ServiceImportController

/-! ## Leaks -/

/-- The address of the stored import of a key, headless or not. -/
def ipAt (imports : GoMap NamespacedName ServiceImport) (k : NamespacedName) : Option Addr :=
  (imports.lookup k).bind fun si => parseAddr si.ip.toList

/-- Every acquired address is that of a stored import. -/
def NoLeak (c : ServiceImportController) : Prop :=
  ∀ a ∈ c.IPAM.acquired, ∃ k, ipAt c.imports k = some a

/-- The update of an import that was read as `si` goes through. -/
def GoesThrough (c : ServiceImportController) (key : NamespacedName) (si : ServiceImport)
    (err : Option Error) : Prop :=
  err = none ∧ ∃ st, c.imports.lookup key = some st ∧ st.resourceVersion = si.resourceVersion

/-- The calls of `Handle` that leak no address. One that acquires an address has
its update go through, unless a stored import has the address already; one that
clears the address of a headless import, or removes a headless import that has
one, leaves the address to another import, or it was not acquired. -/
def KeepsIPs (c : ServiceImportController) (key : NamespacedName) (env : ImportEnv) : Prop :=
  ∀ si, env.getErr = none → c.localSILister.lookup key = some si →
    match si.type with
    | .clusterSetIP => si.deletionTimestamp = false → si.ip = "" → ∀ a, env.acquire = .ok a →
      GoesThrough c key si env.updateErr ∨ ∃ k, ipAt c.imports k = some a
    | .headless =>
      (si.deletionTimestamp = true → env.deleteCollectionErr = none ∧
        ∀ f ∈ si.finalizers, f = Known.AppFinalizer) →
      GoesThrough c key si env.updateErr →
      ∀ a ∈ c.IPAM.acquired, parseAddr si.ip.toList = some a →
        ∃ k, k ≠ key ∧ ipAt c.imports k = some a

/-- What the stored imports keep: the lister has them as they were, and one that
is terminating or has an address has a finalizer. -/
structure Kept (c : ServiceImportController) : Prop where
  coherent : Coherent ServiceImport.resourceVersion c.version c.imports c.localSILister
  finalizers : ∀ {key si}, c.imports.lookup key = some si →
    si.deletionTimestamp = true ∨ si.ip ≠ "" → si.finalizers ≠ []

section

variable {createPatch : CreatePatch EndpointSlice}
  {c c' : ServiceImportController} {key : NamespacedName} {env : ImportEnv} {si : ServiceImport}

theorem ipAt_write {si : ServiceImport} {k : NamespacedName} :
    ipAt (c.write key si).imports k =
      if k = key then (if si.deletionTimestamp = true ∧ si.finalizers = [] then none
        else parseAddr si.ip.toList)
      else ipAt c.imports k := by
  rw [ipAt, lookup_write]
  split
  · split <;> rfl
  · rfl

theorem ipAt_of_lookup (h : c.imports.lookup key = some si) :
    ipAt c.imports key = parseAddr si.ip.toList := by
  rw [ipAt, h]
  rfl

/-- An update from the lister's object: it replaces that object, or does
nothing. -/
theorem Kept.update (hk : Kept c) (hsi : c.localSILister.lookup key = some si)
    (si' : ServiceImport) (hv : si'.resourceVersion = si.resourceVersion) (ipam : IPAM)
    (err : Option Error) :
    GoesThrough c key si err ∧ c.imports.lookup key = some si ∧
        ({ c with IPAM := ipam }.update key si' err).1 = { c with IPAM := ipam }.write key
          { si' with deletionTimestamp := si.deletionTimestamp, resourceVersion := c.version } ∨
      ¬ GoesThrough c key si err ∧
        ({ c with IPAM := ipam }.update key si' err).1 = { c with IPAM := ipam } := by
  rcases update_cases { c with IPAM := ipam } key si' err with
    ⟨st, herr, hst, hveq, _, heq⟩ | ⟨hfail, _, heq⟩
  · obtain rfl : st = si := hk.coherent.agree hsi hst (hveq.trans hv)
    exact .inl ⟨⟨herr, st, hst, rfl⟩, hst, by rw [heq]⟩
  · refine .inr ⟨fun ⟨herr, st, hst, hveq⟩ => ?_, by rw [heq]⟩
    exact hfail st hst (hveq.trans hv.symm) herr

theorem NoLeak.slices (slices : String → GoMap String EndpointSlice) :
    NoLeak { c with slices := slices } ↔ NoLeak c :=
  Iff.rfl

theorem Kept.write (hk : Kept c) {si : ServiceImport} (hv : si.resourceVersion = c.version)
    (hfin : si.deletionTimestamp = false → si.ip ≠ "" → si.finalizers ≠ []) :
    Kept (c.write key si) where
  coherent := by
    unfold ServiceImportController.write
    split
    · exact hk.coherent.erase key
    · exact hk.coherent.write key hv
  finalizers {k st} hst := by
    rw [lookup_write] at hst
    split at hst
    · split at hst
      · cases hst
      · rename_i hkeep
        obtain rfl := Option.some_inj.mp hst
        intro h hnil
        cases hdel : si.deletionTimestamp with
        | true => exact hkeep ⟨hdel, hnil⟩
        | false => exact hfin hdel (h.resolve_left (by simp [hdel])) hnil
    · exact hk.finalizers hst

theorem keepsIPs_iff (hget : env.getErr = none) (hsi : c.localSILister.lookup key = some si) :
    KeepsIPs c key env ↔ match si.type with
      | .clusterSetIP => si.deletionTimestamp = false → si.ip = "" → ∀ a, env.acquire = .ok a →
        GoesThrough c key si env.updateErr ∨ ∃ k, ipAt c.imports k = some a
      | .headless =>
        (si.deletionTimestamp = true → env.deleteCollectionErr = none ∧
          ∀ f ∈ si.finalizers, f = Known.AppFinalizer) →
        GoesThrough c key si env.updateErr →
        ∀ a ∈ c.IPAM.acquired, parseAddr si.ip.toList = some a →
          ∃ k, k ≠ key ∧ ipAt c.imports k = some a := by
  constructor
  · exact fun h => h si hget hsi
  · intro h si' _ hsi'
    obtain rfl := Option.some_inj.mp (hsi.symm.trans hsi')
    exact h

/-- A write that gives the import of a key another address, or none: the acquired
addresses are those of imports exactly when the old one is another import's, or
was not acquired. -/
theorem NoLeak.write_iff (hn : NoLeak c) (hst : c.imports.lookup key = some si)
    {si' : ServiceImport} (hnone : ipAt (c.write key si').imports key = none) :
    NoLeak (c.write key si') ↔ ∀ a ∈ c.IPAM.acquired, parseAddr si.ip.toList = some a →
      ∃ k, k ≠ key ∧ ipAt c.imports k = some a := by
  have hother : ∀ {k}, k ≠ key → ipAt (c.write key si').imports k = ipAt c.imports k := by
    intro k hk
    rw [ipAt_write, if_neg hk]
  constructor
  · intro h a ha _
    obtain ⟨k, hk⟩ := h a ha
    have hne : k ≠ key := by
      rintro rfl
      rw [hnone] at hk
      cases hk
    exact ⟨k, hne, (hother hne).symm.trans hk⟩
  · intro h a ha
    obtain ⟨k, hk⟩ := hn a ha
    by_cases hne : k = key
    · subst hne
      rw [ipAt_of_lookup hst] at hk
      obtain ⟨k', hk', hka⟩ := h a ha hk
      exact ⟨k', (hother hk').trans hka⟩
    · exact ⟨k, (hother hne).trans hk⟩

/-- A write that keeps the address of the import of a key. -/
theorem NoLeak.rewrite (hn : NoLeak c) {si' : ServiceImport}
    (hsame : ipAt (c.write key si').imports key = ipAt c.imports key) : NoLeak (c.write key si') := by
  intro a ha
  obtain ⟨k, hk⟩ := hn a ha
  refine ⟨k, ?_⟩
  by_cases hne : k = key
  · subst hne
    rw [hsame, hk]
  · rw [ipAt_write, if_neg hne, hk]

/-- An import that is not terminating is handled. -/
theorem NoLeak.live_iff (hk : Kept c) (hn : NoLeak c) (hget : env.getErr = none)
    (hsi : c.localSILister.lookup key = some si) (hlive : si.deletionTimestamp = false) :
    ∃ c' r, c.Handle createPatch key env = .ok (c', r) ∧ (NoLeak c' ↔ KeepsIPs c key env) := by
  obtain ⟨ipam, si', changed, err, hinit⟩ : ∃ ipam si' changed err,
      AddInitialInfoToServiceImport c.IPAM si env.acquire = (ipam, si', changed, err) :=
    ⟨_, _, _, _, rfl⟩
  obtain ⟨hv, -, -, hheadless, hhas, hgets⟩ := AddInitialInfoToServiceImport_spec hinit
  obtain ⟨slices, r, hhandle⟩ := Handle_live createPatch hget hsi hlive
  refine ⟨_, r, hhandle, ?_⟩
  rw [NoLeak.slices, keepsIPs_iff hget hsi]
  simp only [initialised, hinit]
  -- The written import is not terminating, so that it has the address it is given.
  have hwritten : ipAt ({ c with IPAM := ipam }.write key { si' with
      deletionTimestamp := si.deletionTimestamp, resourceVersion := c.version }).imports key =
      parseAddr si'.ip.toList := by
    rw [ipAt_write, if_pos rfl, if_neg (by simp [hlive])]
    rfl
  cases htype : si.type with
  | headless =>
    obtain ⟨rfl, rfl, hempty, hunchanged⟩ := hheadless htype
    simp only
    rw [hempty, parseAddr_empty] at hwritten
    have hguard : (si.deletionTimestamp = true → env.deleteCollectionErr = none ∧
        ∀ f ∈ si.finalizers, f = Known.AppFinalizer) := by simp [hlive]
    rw [forall_prop_of_true hguard]
    cases changed with
    | false =>
      refine iff_of_true hn fun _ a _ ha => ?_
      rw [hunchanged rfl, parseAddr_empty] at ha
      cases ha
    | true =>
      simp only [and_self, if_true]
      rcases hk.update hsi si' hv c.IPAM env.updateErr with ⟨hgoes, hst, heq⟩ | ⟨hgoes, heq⟩
      · rw [heq, forall_prop_of_true hgoes]
        exact hn.write_iff hst hwritten
      · rw [heq]
        exact iff_of_true hn fun h => absurd h hgoes
  | clusterSetIP =>
    simp only
    rw [forall_prop_of_true hlive]
    by_cases hip : si.ip = ""
    · rw [forall_prop_of_true hip]
      cases hacq : env.acquire with
      | error e =>
        obtain ⟨rfl, rfl, -⟩ := (hgets htype hip).1 e hacq
        refine iff_of_true (by simpa using hn) fun a ha => by cases ha
      | ok a =>
        obtain ⟨rfl, rfl, rfl, hsi'⟩ := (hgets htype hip).2 a hacq
        simp only [and_self, if_true, Except.ok.injEq, forall_eq']
        rw [hsi', parseAddr_addrString] at hwritten
        rcases hk.update hsi si' hv { c.IPAM with acquired := insert a c.IPAM.acquired }
          env.updateErr with ⟨hgoes, hst, heq⟩ | ⟨hgoes, heq⟩
        · rw [heq]
          refine iff_of_true (fun b hb => ?_) (.inl hgoes)
          rcases Finset.mem_insert.mp hb with rfl | hb
          · exact ⟨key, hwritten⟩
          · obtain ⟨k, hkb⟩ := hn b hb
            refine ⟨k, ?_⟩
            rw [ipAt_write, if_neg]
            · exact hkb
            · rintro rfl
              rw [ipAt_of_lookup hst, hip, parseAddr_empty] at hkb
              cases hkb
        · rw [heq, or_iff_right hgoes]
          constructor
          · exact fun h => h a (Finset.mem_insert_self a _)
          · intro h b hb
            rcases Finset.mem_insert.mp hb with rfl | hb
            · exact h
            · exact hn b hb
    · obtain ⟨rfl, rfl, hsi'⟩ := hhas htype hip
      refine iff_of_true ?_ fun h => absurd h hip
      split
      · rcases hk.update hsi si' hv c.IPAM env.updateErr with ⟨-, hst, heq⟩ | ⟨-, heq⟩
        · rw [heq]
          refine NoLeak.rewrite hn ?_
          rw [hsi', ← ipAt_of_lookup hst] at hwritten
          exact hwritten
        · rw [heq]
          exact hn
      · exact hn

theorem keepsIPs_of_clusterSetIP (hget : env.getErr = none)
    (hsi : c.localSILister.lookup key = some si) (hterm : si.deletionTimestamp = true)
    (htype : si.type = .clusterSetIP) : KeepsIPs c key env := by
  rw [keepsIPs_iff hget hsi, htype]
  intro hlive
  rw [hterm] at hlive
  cases hlive

theorem ip_of_releasedIP_none (h : releasedIP si = .ok none) (htype : si.type = .clusterSetIP) :
    si.ip = "" := by
  rw [releasedIP, htype] at h
  obtain ⟨ip, hindex, h⟩ := Go.bind_eq_ok.mp h
  obtain ⟨rest, hips⟩ := Go.index_zero_eq_ok.mp hindex
  rw [ServiceImport.ip, hips, List.head?_cons, Option.getD_some]
  by_contra hne
  rw [if_neg hne] at h
  cases h

/-- The import that is left of a terminating one: it is gone with its last
finalizer. -/
theorem ipAt_recycled (hterm : si.deletionTimestamp = true) (c : ServiceImportController)
    (key : NamespacedName) (ipam : IPAM) :
    ipAt ({ c with IPAM := ipam }.write key { si with
      finalizers := si.finalizers.filter (· ≠ Known.AppFinalizer)
      resourceVersion := c.version }).imports key =
      if ∀ f ∈ si.finalizers, f = Known.AppFinalizer then none else parseAddr si.ip.toList := by
  have hnil : si.finalizers.filter (· ≠ Known.AppFinalizer) = [] ↔
      ∀ f ∈ si.finalizers, f = Known.AppFinalizer := by
    simp [List.filter_eq_nil_iff]
  rw [ipAt_write, if_pos rfl]
  simp only [hterm, true_and, hnil]
  rfl

/-- The update that ends the handling of a terminating import. -/
theorem NoLeak.recycle_iff (hk : Kept c) (hn : NoLeak c) (hget : env.getErr = none)
    (hsi : c.localSILister.lookup key = some si) (hterm : si.deletionTimestamp = true)
    (hdel : env.deleteCollectionErr = none) {ipam : IPAM}
    (hrel : releasedIP si = .ok none ∧ ipam = c.IPAM ∨ ∃ a, si.held = some a ∧
      a ∈ c.IPAM.acquired ∧ ipam = { c.IPAM with acquired := c.IPAM.acquired.erase a }) :
    NoLeak ({ c with IPAM := ipam }.update key
      { si with finalizers := si.finalizers.filter (· ≠ Known.AppFinalizer) } env.updateErr).1 ↔
      KeepsIPs c key env := by
  have hgone := ipAt_recycled hterm c key ipam
  have hupdate := hk.update hsi { si with
    finalizers := si.finalizers.filter (· ≠ Known.AppFinalizer) } rfl ipam env.updateErr
  rcases (by cases si.type <;> simp : si.type = .clusterSetIP ∨ si.type = .headless) with
    htype | htype
  · refine iff_of_true ?_ (keepsIPs_of_clusterSetIP hget hsi hterm htype)
    rcases hrel with ⟨hnone, rfl⟩ | ⟨a, ha, -, rfl⟩
    · have hip := ip_of_releasedIP_none hnone htype
      rcases hupdate with ⟨-, hst, heq⟩ | ⟨-, heq⟩
      · rw [heq]
        refine NoLeak.rewrite hn ?_
        rw [ipAt_of_lookup hst, hip, parseAddr_empty]
        rw [hip, parseAddr_empty, ite_self] at hgone
        exact hgone
      · rw [heq]
        exact hn
    · rcases hupdate with ⟨-, hst, heq⟩ | ⟨-, heq⟩
      · rw [heq]
        intro b hb
        obtain ⟨hba, hb⟩ := Finset.mem_erase.mp hb
        obtain ⟨k, hkb⟩ := hn b hb
        refine ⟨k, ?_⟩
        rw [ipAt_write, if_neg]
        · exact hkb
        · rintro rfl
          rw [ipAt_of_lookup hst, (ServiceImport.held_eq_some ha).2.2] at hkb
          exact hba (Option.some_inj.mp hkb).symm
      · rw [heq]
        exact fun b hb => hn b (Finset.mem_of_mem_erase hb)
  · have hkeeps := keepsIPs_iff hget hsi
    rw [htype] at hkeeps
    rw [hkeeps]
    obtain rfl : ipam = c.IPAM := by
      rcases hrel with ⟨-, h⟩ | ⟨a, ha, -⟩
      · exact h
      · rw [ServiceImport.held, htype] at ha
        cases ha
    rcases hupdate with ⟨hgoes, hst, heq⟩ | ⟨hgoes, heq⟩
    · rw [heq]
      by_cases hall : ∀ f ∈ si.finalizers, f = Known.AppFinalizer
      · rw [if_pos hall] at hgone
        rw [forall_prop_of_true fun _ => ⟨hdel, hall⟩, forall_prop_of_true hgoes]
        exact NoLeak.write_iff hn hst hgone
      · rw [if_neg hall, ← ipAt_of_lookup hst] at hgone
        exact iff_of_true (NoLeak.rewrite hn hgone) fun h => absurd (h hterm).2 hall
    · rw [heq]
      exact iff_of_true hn fun _ h => absurd h hgoes

/-- A terminating import is handled. -/
theorem NoLeak.term_iff (hk : Kept c) (hn : NoLeak c) (hget : env.getErr = none)
    (hsi : c.localSILister.lookup key = some si) (hterm : si.deletionTimestamp = true) :
    (∃ p, c.Handle createPatch key env = .error p ∧ KeepsIPs c key env) ∨
    ∃ c' r, c.Handle createPatch key env = .ok (c', r) ∧ (NoLeak c' ↔ KeepsIPs c key env) := by
  cases hdel : env.deleteCollectionErr with
  | some e =>
    refine .inr ⟨c, .retrySecond (some e), ?_, iff_of_true hn ?_⟩
    · simp only [Handle, hget, hsi, hterm, if_true, recycleServiceImport, hdel]
      rfl
    · cases htype : si.type with
      | clusterSetIP => exact keepsIPs_of_clusterSetIP hget hsi hterm htype
      | headless =>
        rw [keepsIPs_iff hget hsi, htype]
        intro hcond
        rw [hdel] at hcond
        cases (hcond hterm).1
  | none =>
    rcases Handle_recycle createPatch hget hsi hterm hdel with
      ⟨p, hhandle, hrel⟩ | ⟨slices, r, ip, e, hhandle, hrel, -⟩ | ⟨slices, r, ipam, hhandle, hrel⟩
    · refine .inl ⟨p, hhandle, keepsIPs_of_clusterSetIP hget hsi hterm ?_⟩
      cases htype : si.type with
      | clusterSetIP => rfl
      | headless => rw [releasedIP, htype] at hrel; cases hrel
    · refine .inr ⟨_, r, hhandle, iff_of_true hn ?_⟩
      refine keepsIPs_of_clusterSetIP hget hsi hterm ?_
      cases htype : si.type with
      | clusterSetIP => rfl
      | headless => rw [releasedIP, htype] at hrel; cases hrel
    · refine .inr ⟨_, r, hhandle, ?_⟩
      rw [NoLeak.slices]
      exact NoLeak.recycle_iff hk hn hget hsi hterm hdel hrel

/-- What one `Handle` does to the acquired addresses. -/
theorem NoLeak.handle_iff (hk : Kept c) (hn : NoLeak c) :
    (∃ p, c.Handle createPatch key env = .error p ∧ KeepsIPs c key env) ∨
    ∃ c' r, c.Handle createPatch key env = .ok (c', r) ∧ (NoLeak c' ↔ KeepsIPs c key env) := by
  cases hget : env.getErr with
  | some e =>
    refine .inr ⟨c, ⟨none, some e⟩, by simp only [Handle, hget]; rfl, iff_of_true hn ?_⟩
    intro si h
    rw [hget] at h
    cases h
  | none =>
    cases hsi : c.localSILister.lookup key with
    | none =>
      refine .inr ⟨c, .done, by simp only [Handle, hget, hsi]; rfl, iff_of_true hn ?_⟩
      intro si _ h
      rw [hsi] at h
      cases h
    | some si =>
      cases hterm : si.deletionTimestamp with
      | true => exact NoLeak.term_iff hk hn hget hsi hterm
      | false => exact .inr (NoLeak.live_iff hk hn hget hsi hterm)

/-- A write that leaves the address and the finalizers of an import. -/
theorem NoLeak.keep (hk : Kept c) (hn : NoLeak c) (hst : c.imports.lookup key = some si)
    {si' : ServiceImport} (hip : si'.ip = si.ip) (hfin : si'.finalizers = si.finalizers) :
    NoLeak (c.write key si') := by
  refine hn.rewrite ?_
  rw [ipAt_write, if_pos rfl, ipAt_of_lookup hst, hip, hfin]
  split
  · rename_i hgone
    have hempty : si.ip = "" := by_contra fun hne => hk.finalizers hst (.inr hne) hgone.2
    rw [hempty, parseAddr_empty]
  · rfl

theorem Kept.keep (hk : Kept c) (hst : c.imports.lookup key = some si) {si' : ServiceImport}
    (hv : si'.resourceVersion = c.version) (hip : si'.ip = si.ip)
    (hfin : si'.finalizers = si.finalizers) : Kept (c.write key si') := by
  refine hk.write hv fun _ hne => ?_
  rw [hfin]
  exact hk.finalizers hst (.inr (hip ▸ hne))

theorem Kept.handle {r : HandleResult} (hk : Kept c)
    (h : c.Handle createPatch key env = .ok (c', r)) : Kept c' := by
  obtain ⟨c₁, slices, rfl, hc₁⟩ := Handle_cases h
  have hkept : ∀ ipam, Kept { c with IPAM := ipam } := fun _ => ⟨hk.coherent, hk.finalizers⟩
  suffices h₁ : Kept c₁ from ⟨h₁.coherent, h₁.finalizers⟩
  rcases hc₁ with rfl | ⟨si, ipam, si', changed, err, hsi, hinit, rfl | rfl⟩ |
    ⟨si, ipam, hsi, -, hterm, -, -, rfl⟩
  · exact hk
  · exact hkept ipam
  · obtain ⟨hv, -, hfin, -⟩ := AddInitialInfoToServiceImport_spec hinit
    rcases hk.update hsi si' hv ipam env.updateErr with ⟨-, -, heq⟩ | ⟨-, heq⟩
    · rw [heq]
      exact (hkept ipam).write rfl fun _ _ => hfin
    · rw [heq]
      exact hkept ipam
  · rcases hk.update hsi { si with
      finalizers := si.finalizers.filter (· ≠ Known.AppFinalizer) } rfl ipam env.updateErr with
      ⟨-, -, heq⟩ | ⟨-, heq⟩
    · rw [heq]
      refine (hkept ipam).write rfl fun hlive => ?_
      rw [show si.deletionTimestamp = false from hlive] at hterm
      cases hterm
    · rw [heq]
      exact hkept ipam

end

/-! ## Runs -/

/-- The events of the imports, and a user who switches the type of one. -/
inductive LeakEvent
  | event (e : ImportEvent)
  | retype (key : NamespacedName) (type : ServiceImportType)

section

variable (createPatch : CreatePatch EndpointSlice)

/-- The steps of the system. -/
def leakStep (s : ImportState) (e : LeakEvent) (s' : ImportState) : Prop :=
  match e with
  | .event e => importStep createPatch s e s'
  | .retype key type => ∃ si, s.controller.imports.lookup key = some si ∧
    s' = ImportState.mk (s.controller.write key
      { si with type := type, resourceVersion := s.controller.version }) s.running

/-- A running controller has no address acquired that is not a stored import's. -/
def NothingLeaked (s : ImportState) : Prop := s.running = true → NoLeak s.controller

/-- What is handled, if anything, leaks no address. -/
def HandleKeepsIPs (s : ImportState) : LeakEvent → Prop
  | .event (.handle key env) => KeepsIPs s.controller key env
  | _ => True

variable {createPatch} {s s' : ImportState} {e : LeakEvent}

theorem Kept.step (hk : Kept s.controller) (h : leakStep createPatch s e s') :
    Kept s'.controller := by
  cases e with
  | retype key type =>
    obtain ⟨si, hsi, rfl⟩ := h
    exact hk.keep hsi rfl rfl rfl
  | event e =>
    obtain ⟨-, rfl⟩ := h
    cases e with
    | create key type finalizers => exact hk.write rfl fun _ hne => absurd rfl hne
    | delete key =>
      simp only [ImportState.next]
      split
      · exact hk
      · rename_i st hst
        split
        · exact hk
        · exact hk.keep hst rfl rfl rfl
    | watch key => exact ⟨hk.coherent.refresh key, hk.finalizers⟩
    | handle key env =>
      simp only [ImportState.next]
      split
      · exact hk.handle ‹_›
      · exact hk
    | stop => exact ⟨hk.coherent.reset, hk.finalizers⟩
    | start env updateErr =>
      simp only [ImportState.next]
      split
      · exact ⟨hk.coherent, hk.finalizers⟩
      · exact hk
    | slices hub slices => exact ⟨hk.coherent, hk.finalizers⟩

/-- A step leaks no address exactly when it handles nothing that does. -/
theorem NothingLeaked.step_iff (hk : Kept s.controller) (hn : NothingLeaked s)
    (h : leakStep createPatch s e s') : NothingLeaked s' ↔ HandleKeepsIPs s e := by
  cases e with
  | retype key type =>
    obtain ⟨si, hsi, rfl⟩ := h
    exact iff_of_true (fun hrun => (hn hrun).keep hk hsi rfl rfl) trivial
  | event e =>
    obtain ⟨henabled, rfl⟩ := h
    cases e with
    | create key type finalizers =>
      refine iff_of_true (fun hrun => (hn hrun).rewrite ?_) trivial
      rw [ipAt_write, if_pos rfl, ipAt, show s.controller.imports.lookup key = none from henabled]
      split
      · rfl
      · exact parseAddr_empty
    | delete key =>
      refine iff_of_true ?_ trivial
      simp only [ImportState.next]
      split
      · exact hn
      · rename_i st hst
        split
        · exact hn
        · exact fun hrun => (hn hrun).keep hk hst rfl rfl
    | watch key => exact iff_of_true hn trivial
    | handle key env =>
      obtain ⟨hrun, -⟩ := henabled
      rcases NoLeak.handle_iff hk (hn hrun) with ⟨p, hhandle, hkeeps⟩ | ⟨c', r, hhandle, hiff⟩
      · rw [ImportState.next, hhandle]
        exact iff_of_true (fun h => absurd h Bool.false_ne_true) hkeeps
      · rw [ImportState.next_handle hhandle]
        exact (forall_prop_of_true hrun).trans hiff
    | stop => exact iff_of_true (fun h => absurd h Bool.false_ne_true) trivial
    | start env updateErr =>
      refine iff_of_true ?_ trivial
      simp only [ImportState.next]
      split
      · rename_i ipam hinit
        intro _ a ha
        obtain ⟨key, si, hsi, hip⟩ := (InitNewCIDR_acquired hinit).2.2 a ha
        exact ⟨key, (ipAt_of_lookup hsi).trans hip⟩
      · exact hn
    | slices hub slices => exact iff_of_true hn trivial

theorem Kept.of_empty (h : s.Empty) : Kept s.controller where
  coherent := (Sound.of_empty h).coherent
  finalizers {key si} hsi := by
    rw [h.imports, AList.lookup_empty] at hsi
    cases hsi

/-- From a state without imports and without acquired addresses, the runs in which
every address that a running controller has acquired is a stored import's
throughout are those in which no `Handle` leaks one. -/
theorem noLeak_iff (h : s.Empty) (hacquired : s.controller.IPAM.acquired = ∅)
    {es : List LeakEvent} :
    Runs (Reaching (leakStep createPatch) NothingLeaked) s es s' ↔
      Runs (Guarded (leakStep createPatch) HandleKeepsIPs) s es s' := by
  refine Runs.reaching_iff_guarded (P := fun _ => True) (J := fun s => Kept s.controller) ?_ ?_
    (fun _ _ => trivial) (Kept.of_empty h) ?_
  · exact fun _ hk hstep => hk.step hstep
  · exact fun _ hk hn hstep => hn.step_iff hk hstep
  · intro _ a ha
    rw [hacquired] at ha
    cases ha

end

/-- A new import is handled, and its update has this outcome. -/
def acquireRun (updateErr : Option Error) : List LeakEvent :=
  [.event startEvent, .event (.create ⟨"ns", "a"⟩ .clusterSetIP []), .event (.watch ⟨"ns", "a"⟩),
    .event (handleEvent "a" (.ok (ofBytes 10 9 8 1)) updateErr)]

theorem noLeak_acquired : ∃ s, Runs (Reaching (leakStep noPatch) NothingLeaked) newImports
    (acquireRun none) s ∧ s.controller.IPAM.acquired = {ofBytes 10 9 8 1} := by
  refine ⟨_, (noLeak_iff newImports_empty rfl).mpr (.cons ⟨⟨rfl, rfl⟩, trivial⟩
    (.cons ⟨⟨rfl, rfl⟩, trivial⟩ (.cons ⟨⟨trivial, rfl⟩, trivial⟩
      (.cons ⟨⟨by decide +kernel, rfl⟩, ?_⟩ (.nil _))))), by decide +kernel⟩
  refine (keepsIPs_iff rfl (by decide +kernel :
    _ = some (ServiceImport.mk .clusterSetIP [] [] false 0))).mpr ?_
  exact fun _ _ _ _ => .inl ⟨rfl, ⟨.clusterSetIP, [], [], false, 0⟩, by decide +kernel, rfl⟩

/-- The address was acquired for an update that fails. -/
theorem failed_update_leaks_ip : newImports.Empty ∧ newImports.controller.IPAM.acquired = ∅ ∧
    ∃ s, Runs (leakStep noPatch) newImports (acquireRun (some "timeout")) s ∧
      ¬ NothingLeaked s := by
  refine ⟨newImports_empty, rfl, _, .cons ⟨rfl, rfl⟩ (.cons ⟨rfl, rfl⟩ (.cons ⟨trivial, rfl⟩
    (.cons ⟨by decide +kernel, rfl⟩ (.nil _)))), fun h => ?_⟩
  obtain ⟨k, hk⟩ := h (by decide +kernel) (ofBytes 10 9 8 1) (by decide +kernel)
  obtain ⟨si, hsi, hip⟩ := Option.bind_eq_some_iff.mp hk
  revert hip
  exact (by decide +kernel : ∀ e ∈ _, parseAddr (Sigma.snd e).ip.toList ≠ some (ofBytes 10 9 8 1)) _
    (GoMap.mem_entries_iff.mpr hsi)

end Fleetboard.Mcs

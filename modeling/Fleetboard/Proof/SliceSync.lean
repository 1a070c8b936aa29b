import Fleetboard.Model.SliceUtil

/-!
# Copies of endpoint slices

What the controllers of exports and imports do to the slices of the other side:
they remove the labelled slices that have no source and apply a copy of each
source, one goroutine a slice.

* `RemoveNonexistentEndpointslice_ok`: what is removed;
* `ApplyEndPointSliceWithRetry_cases`: an apply fails and changes nothing, or gives
  the slice of that name the content, and keeps the labels it had;
* `ApplyEndPointSliceWithRetry_eq_none_iff`: by the outcomes of its calls, when it succeeds;
* `applySlices_lookup`: in every order of the goroutines' turns, each slice is
  applied as if alone;
* `mirrors_applySlices_iff`: when the labelled slices are the copies in the end.
-/

namespace Fleetboard.Mcs

/-! ## What is written to -/

section

variable {slices slices' : GoMap String EndpointSlice} {slice : EndpointSlice} {env : SliceApplyEnv}

theorem create_eq_none_iff :
    env.create slices slice = none ↔ env.createErr = none ∧ slices.lookup slice.name = none := by
  rw [SliceApplyEnv.create]
  split
  · rename_i hcreate
    simp [hcreate]
  · rename_i hlookup
    simp [hlookup]
  · rename_i hcreate hlookup
    simp [hcreate, hlookup]

theorem get_eq_ok_iff {cur : EndpointSlice} :
    env.get slices slice = .ok cur ↔ env.getErr = none ∧ slices.lookup slice.name = some cur := by
  rw [SliceApplyEnv.get]
  split
  · rename_i hget
    simp [hget]
  · rename_i hget hlookup
    simp [hget, hlookup]
  · rename_i hlookup
    simp [hlookup]

end

section

variable (createPatch : CreatePatch EndpointSlice)

theorem lookup_applyEndPointSlice (slices : GoMap String EndpointSlice) {slice : EndpointSlice}
    (env : SliceApplyEnv) {k : String} (hk : k ≠ slice.name) :
    (applyEndPointSlice createPatch slices slice env).1.lookup k = slices.lookup k := by
  have hinsert : ∀ s, (slices.insert slice.name s).lookup k = slices.lookup k := fun s => by
    rw [GoMap.lookup_insert_eq, if_neg hk]
  rw [applyEndPointSlice]
  split
  · exact hinsert _
  · rw [resyncEndPointSlice]
    split
    · rfl
    · split
      · split
        · rfl
        · exact hinsert _
      · rfl
  · rfl

theorem lookup_ApplyEndPointSliceWithRetry (slices : GoMap String EndpointSlice)
    {slice : EndpointSlice} {k : String} (hk : k ≠ slice.name) (attempts : List SliceApplyEnv) :
    (ApplyEndPointSliceWithRetry createPatch slices slice attempts).1.lookup k = slices.lookup k := by
  induction attempts generalizing slices with
  | nil => rfl
  | cons env attempts ih =>
    have hone := lookup_applyEndPointSlice createPatch slices env hk
    rw [ApplyEndPointSliceWithRetry]
    split
    · rename_i slices' heq
      rw [heq] at hone
      split
      · exact hone
      · rw [ih, hone]
    · exact hone

/-- What every turn keeps, all turns keep. -/
theorem foldl_turn (newSlices : List EndpointSlice) (applies : String → List SliceApplyEnv)
    (P : Goroutines → Prop) (hturn : ∀ g i, P g → P (g.turn createPatch newSlices applies i))
    (turns : List Nat) {g : Goroutines} (hg : P g) :
    P (turns.foldl (Goroutines.turn createPatch newSlices applies) g) := by
  induction turns generalizing g with
  | nil => exact hg
  | cons i turns ih => exact ih (hturn g i hg)

theorem turn_slices_applying {newSlices : List EndpointSlice} (applies : String → List SliceApplyEnv)
    {g : Goroutines} {i : Nat} {slice : EndpointSlice} (hslice : newSlices[i]? = some slice)
    (hphase : g.phase i = .applying) :
    (g.turn createPatch newSlices applies i).result.slices =
      (ApplyEndPointSliceWithRetry createPatch g.result.slices slice (applies slice.name)).1 := by
  unfold Goroutines.turn
  rw [hslice, hphase]

theorem turn_slices_of_ne {newSlices : List EndpointSlice} (applies : String → List SliceApplyEnv)
    {g : Goroutines} {i : Nat} (h : i < newSlices.length → g.phase i ≠ .applying) :
    (g.turn createPatch newSlices applies i).result.slices = g.result.slices := by
  unfold Goroutines.turn
  split
  · rename_i hslice hphase
    exact absurd hphase (h (List.getElem?_eq_some_iff.mp hslice).1)
  · rfl
  · rfl

theorem lookup_applySlices {newSlices : List EndpointSlice} {k : String}
    (hk : ∀ s ∈ newSlices, k ≠ s.name) (applies : String → List SliceApplyEnv)
    (slices : GoMap String EndpointSlice) (turns : List Nat) :
    (applySlices createPatch newSlices applies slices turns).slices.lookup k = slices.lookup k := by
  have hturn : ∀ (g : Goroutines) (i : Nat),
      (g.turn createPatch newSlices applies i).result.slices.lookup k = g.result.slices.lookup k := by
    intro g i
    by_cases h : i < newSlices.length ∧ g.phase i = .applying
    · have hslice := List.getElem?_eq_getElem h.1
      rw [turn_slices_applying createPatch applies hslice h.2,
        lookup_ApplyEndPointSliceWithRetry createPatch _ (hk _ (List.mem_of_getElem? hslice))]
    · rw [turn_slices_of_ne createPatch applies fun hi hphase => h ⟨hi, hphase⟩]
  exact foldl_turn createPatch newSlices applies (fun g => g.result.slices.lookup k = slices.lookup k)
    (fun g i hg => (hturn g i).trans hg) _ rfl

end

theorem lookup_deleteNonexistent (kept : String → Bool) (deleteErr : String → Option Error)
    {names : List String} {k : String} (hk : k ∉ names) (target : GoMap String EndpointSlice) :
    (deleteNonexistent kept deleteErr names target).1.lookup k = target.lookup k := by
  induction names generalizing target with
  | nil => rfl
  | cons name names ih =>
    have hname : k ≠ name := fun h => hk (h ▸ List.mem_cons_self)
    have hnames : k ∉ names := fun h => hk (List.mem_cons_of_mem _ h)
    rw [deleteNonexistent]
    split
    · exact ih hnames target
    · split
      · rfl
      · rw [ih hnames, GoMap.lookup_erase_eq, if_neg hname]

/-- A slice that the selector does not match is not among the matching names. -/
theorem notMem_matching {target : GoMap String EndpointSlice} {k : String} {es : EndpointSlice}
    (hk : target.lookup k = some es) {selector : List (String × String)}
    (hes : matchesLabels selector es.labels = false) :
    k ∉ (target.entries.filter fun e => matchesLabels selector e.2.labels).map (·.1) := by
  intro hmem
  obtain ⟨⟨k', es'⟩, he, rfl⟩ := List.mem_map.mp hmem
  obtain ⟨he, hmatch⟩ := List.mem_filter.mp he
  rw [Option.some_inj.mp ((GoMap.mem_entries_iff.mp he).symm.trans hk), hes] at hmatch
  cases hmatch

theorem removeNonexistent_spec (srcList : List EndpointSlice) (srcClusterID : String)
    {dstLabelMap : List (String × String)} {target : GoMap String EndpointSlice} (nameChanged : Bool)
    (env : RemoveEnv) {k : String} {es : EndpointSlice} (hk : target.lookup k = some es)
    (hes : matchesLabels dstLabelMap es.labels = false) :
    (removeNonexistent srcList srcClusterID target dstLabelMap nameChanged env).1.lookup k = some es ∧
      ∀ l, (removeNonexistent srcList srcClusterID target dstLabelMap nameChanged env).2 = .ok l →
        l = srcList := by
  have hdelete := lookup_deleteNonexistent (srcEndpointSliceMap srcList srcClusterID nameChanged)
    env.deleteErr (notMem_matching hk hes) target
  rw [removeNonexistent]
  split
  · exact ⟨hk, fun l hl => (Except.ok.inj hl).symm⟩
  · simp only
    split
    · rename_i heq
      rw [heq] at hdelete
      exact ⟨hdelete.trans hk, fun l hl => by cases hl⟩
    · rename_i heq
      rw [heq] at hdelete
      exact ⟨hdelete.trans hk, fun l hl => (Except.ok.inj hl).symm⟩

/-- Stale slices are removed among those with the selector's labels, and what is
returned is some of the source's slices. -/
theorem RemoveNonexistentEndpointslice_spec (src : List EndpointSlice) (srcClusterID srcNs : String)
    (labelMap : List (String × String)) {dstLabelMap : List (String × String)}
    {target : GoMap String EndpointSlice} (nameChanged : Bool) (env : RemoveEnv) {k : String}
    {es : EndpointSlice} (hk : target.lookup k = some es)
    (hes : matchesLabels dstLabelMap es.labels = false) :
    (RemoveNonexistentEndpointslice src srcClusterID srcNs labelMap target dstLabelMap nameChanged
        env).1.lookup k = some es ∧
      ∀ l, (RemoveNonexistentEndpointslice src srcClusterID srcNs labelMap target dstLabelMap
        nameChanged env).2 = .ok l →
      ∀ slice ∈ l, slice ∈ src ∧ slice.ns = srcNs ∧ matchesLabels labelMap slice.labels = true := by
  have hspec := fun srcList =>
    removeNonexistent_spec srcList srcClusterID nameChanged env hk hes
  rw [RemoveNonexistentEndpointslice]
  split
  · refine ⟨(hspec _).1, fun l hl slice hs => ?_⟩
    rw [(hspec _).2 l hl] at hs
    obtain ⟨hmem, hp⟩ := List.mem_filter.mp (env.srcOrder.mem_visit.mp hs)
    exact ⟨hmem, of_decide_eq_true hp⟩
  · refine ⟨(hspec _).1, fun l hl slice hs => ?_⟩
    rw [(hspec _).2 l hl] at hs
    cases hs
  · exact ⟨hk, fun l hl => by cases hl⟩

theorem matchesLabels_single (key value : String) (labels : GoMap String String) :
    matchesLabels [(key, value)] labels = false ↔ labels.lookup key ≠ some value := by
  simp [matchesLabels]

/-! ## What is copied -/

/-- What a copy takes over of its source. -/
def content (slice : EndpointSlice) : AddressType × List SliceEndpoint × List EndpointPort :=
  (slice.addressType, slice.endpoints, slice.ports)

/-- The patch between two slices of different content asks for an update. -/
def ReportsChanges
    (createPatch : CreatePatch EndpointSlice) : Prop :=
  ∀ cur slice, content cur ≠ content slice → ResourceNeedResync (createPatch cur slice) false = true

/-- A patch that asks for an update of any slice. -/
def replaceAll (_ _ : EndpointSlice) : Option (List JsonPatchOperation) :=
  some [⟨.replace, "/endpoints"⟩]

theorem reportsChanges_replaceAll : ReportsChanges replaceAll := fun _ _ _ => by
  show ResourceNeedResync (some [⟨.replace, "/endpoints"⟩]) false = true
  decide

/-- After an apply: the content is that of the slice, the labels are those of the
slice that was there before, if any. -/
def Applied (before : Option EndpointSlice) (slice : EndpointSlice) (after : Option EndpointSlice) :
    Prop :=
  ∃ es, after = some es ∧ content es = content slice ∧
    es.labels = (before.map EndpointSlice.labels).getD slice.labels

section

variable {createPatch : CreatePatch EndpointSlice}

/-- An attempt fails and changes nothing, or applies the slice. -/
theorem applyEndPointSlice_cases (hpatch : ReportsChanges createPatch)
    (slices : GoMap String EndpointSlice) (slice : EndpointSlice) (env : SliceApplyEnv) :
    (∃ e, applyEndPointSlice createPatch slices slice env = (slices, some e)) ∨
      ∃ slices', applyEndPointSlice createPatch slices slice env = (slices', none) ∧
        Applied (slices.lookup slice.name) slice (slices'.lookup slice.name) := by
  have hinsert : ∀ es, (slices.insert slice.name es).lookup slice.name = some es := by
    intro es
    rw [GoMap.lookup_insert_eq, if_pos rfl]
  rw [applyEndPointSlice]
  split
  · rename_i hcreate
    refine .inr ⟨_, rfl, slice, hinsert slice, rfl, ?_⟩
    rw [(create_eq_none_iff.mp hcreate).2]
    rfl
  · rw [resyncEndPointSlice]
    split
    · exact .inl ⟨_, rfl⟩
    · rename_i cur hget
      have hcur := (get_eq_ok_iff.mp hget).2
      split
      · split
        · exact .inl ⟨_, rfl⟩
        · refine .inr ⟨_, rfl, _, hinsert _, rfl, ?_⟩
          rw [hcur]
          rfl
      · rename_i hsame
        refine .inr ⟨_, rfl, cur, hcur, ?_, ?_⟩
        · by_contra hne
          exact hsame (hpatch cur slice hne)
        · rw [hcur]
          rfl
  · exact .inl ⟨_, rfl⟩

/-- `ApplyEndPointSliceWithRetry` fails and changes nothing, or applies the
slice. -/
theorem ApplyEndPointSliceWithRetry_cases (hpatch : ReportsChanges createPatch)
    (slices : GoMap String EndpointSlice) (slice : EndpointSlice) (attempts : List SliceApplyEnv) :
    (∃ e, ApplyEndPointSliceWithRetry createPatch slices slice attempts = (slices, some e)) ∨
      ∃ slices', ApplyEndPointSliceWithRetry createPatch slices slice attempts = (slices', none) ∧
        Applied (slices.lookup slice.name) slice (slices'.lookup slice.name) := by
  induction attempts with
  | nil => exact .inl ⟨_, rfl⟩
  | cons env attempts ih =>
    rw [ApplyEndPointSliceWithRetry]
    rcases applyEndPointSlice_cases hpatch slices slice env with ⟨e, he⟩ | ⟨slices', he, happlied⟩
    · rw [he]
      split
      · rename_i heq
        obtain ⟨rfl, -⟩ := Prod.mk.inj heq
        split
        · exact .inl ⟨_, rfl⟩
        · exact ih
      · exact .inl ⟨e, rfl⟩
    · rw [he]
      exact .inr ⟨slices', rfl, happlied⟩

/-- An attempt depends on the slice of that name only. -/
theorem applyEndPointSlice_congr (createPatch) {slices₁ slices₂ : GoMap String EndpointSlice}
    {slice : EndpointSlice} (h : slices₁.lookup slice.name = slices₂.lookup slice.name)
    (env : SliceApplyEnv) :
    (applyEndPointSlice createPatch slices₁ slice env).1.lookup slice.name =
        (applyEndPointSlice createPatch slices₂ slice env).1.lookup slice.name ∧
      (applyEndPointSlice createPatch slices₁ slice env).2 =
        (applyEndPointSlice createPatch slices₂ slice env).2 := by
  have hinsert : ∀ es, (slices₁.insert slice.name es).lookup slice.name =
      (slices₂.insert slice.name es).lookup slice.name := by
    intro es
    simp only [GoMap.lookup_insert_eq, if_true]
  have hcreate : env.create slices₁ slice = env.create slices₂ slice := by
    rw [SliceApplyEnv.create, SliceApplyEnv.create, h]
  have hget : env.get slices₁ slice = env.get slices₂ slice := by
    rw [SliceApplyEnv.get, SliceApplyEnv.get, h]
  unfold applyEndPointSlice
  rw [← hcreate]
  split
  · exact ⟨hinsert _, rfl⟩
  · unfold resyncEndPointSlice
    rw [← hget]
    split
    · exact ⟨h, rfl⟩
    · split
      · split
        · exact ⟨h, rfl⟩
        · exact ⟨hinsert _, rfl⟩
      · exact ⟨h, rfl⟩
  · exact ⟨h, rfl⟩

theorem ApplyEndPointSliceWithRetry_congr (createPatch) {slice : EndpointSlice}
    (attempts : List SliceApplyEnv) {slices₁ slices₂ : GoMap String EndpointSlice}
    (h : slices₁.lookup slice.name = slices₂.lookup slice.name) :
    (ApplyEndPointSliceWithRetry createPatch slices₁ slice attempts).1.lookup slice.name =
        (ApplyEndPointSliceWithRetry createPatch slices₂ slice attempts).1.lookup slice.name ∧
      (ApplyEndPointSliceWithRetry createPatch slices₁ slice attempts).2 =
        (ApplyEndPointSliceWithRetry createPatch slices₂ slice attempts).2 := by
  induction attempts generalizing slices₁ slices₂ with
  | nil => exact ⟨h, rfl⟩
  | cons env attempts ih =>
    have hone := applyEndPointSlice_congr createPatch h env
    unfold ApplyEndPointSliceWithRetry
    generalize applyEndPointSlice createPatch slices₁ slice env = r₁ at hone ⊢
    generalize applyEndPointSlice createPatch slices₂ slice env = r₂ at hone ⊢
    obtain ⟨slices₁', e₁⟩ := r₁
    obtain ⟨slices₂', e₂⟩ := r₂
    obtain ⟨hlookup, rfl⟩ := hone
    cases e₁ with
    | none => exact ⟨hlookup, rfl⟩
    | some e =>
      cases e with
      | conflict =>
        by_cases hlast : attempts = []
        · simp only [if_pos hlast]
          exact ⟨hlookup, trivial⟩
        · simp only [if_neg hlast]
          exact ih hlookup
      | notFound => exact ⟨hlookup, rfl⟩
      | alreadyExists => exact ⟨hlookup, rfl⟩
      | other text => exact ⟨hlookup, rfl⟩

/-! ## Whether an apply succeeds -/

/-- The error of an attempt, by the outcomes of its calls: for a slice whose name is not taken, or
for one whose name is, with the answer whether it is to be updated. -/
def SliceApplyEnv.error (env : SliceApplyEnv) (needResync : Option Bool) : Option ApiError :=
  match env.createErr, needResync with
  | none, none => none
  | none, some needed => env.getErr.or (if needed then env.updateErr else none)
  | some .alreadyExists, some needed => env.getErr.or (if needed then env.updateErr else none)
  | some .alreadyExists, none => env.getErr.or (some .notFound)
  | some e, _ => some e

/-- An attempt succeeds, and those before it end in a conflict. -/
def Succeeds (needResync : Option Bool) : List SliceApplyEnv → Prop
  | [] => False
  | env :: attempts => env.error needResync = none ∨
    env.error needResync = some .conflict ∧ Succeeds needResync attempts

/-- Whether the slice of that name, if there is one, is to be updated. -/
def needResyncOf (createPatch : CreatePatch EndpointSlice)
    (slices : GoMap String EndpointSlice) (slice : EndpointSlice) : Option Bool :=
  (slices.lookup slice.name).map fun curObj => ResourceNeedResync (createPatch curObj slice) false

theorem resyncEndPointSlice_error (createPatch) {slices : GoMap String EndpointSlice}
    {slice cur : EndpointSlice} (hcur : slices.lookup slice.name = some cur) (env : SliceApplyEnv) :
    (resyncEndPointSlice createPatch slices slice env).2 = env.getErr.or
      (if ResourceNeedResync (createPatch cur slice) false then env.updateErr else none) := by
  rw [resyncEndPointSlice, SliceApplyEnv.get, hcur]
  cases env.getErr with
  | some e => rfl
  | none =>
    dsimp only
    split
    · cases env.updateErr <;> rfl
    · rfl

theorem applyEndPointSlice_error (createPatch) (slices : GoMap String EndpointSlice)
    (slice : EndpointSlice) (env : SliceApplyEnv) :
    (applyEndPointSlice createPatch slices slice env).2 =
      env.error (needResyncOf createPatch slices slice) := by
  unfold applyEndPointSlice SliceApplyEnv.create needResyncOf SliceApplyEnv.error
  cases hcur : slices.lookup slice.name with
  | none =>
    rcases env.createErr with _ | _ | _ | _ | _
    · rfl
    · rfl
    · rw [resyncEndPointSlice, SliceApplyEnv.get, hcur]
      cases env.getErr <;> rfl
    · rfl
    · rfl
  | some cur =>
    rcases env.createErr with _ | _ | _ | _ | _
    · exact resyncEndPointSlice_error createPatch hcur env
    · rfl
    · exact resyncEndPointSlice_error createPatch hcur env
    · rfl
    · rfl

theorem ApplyEndPointSliceWithRetry_eq_none_iff (hpatch : ReportsChanges createPatch)
    (slices : GoMap String EndpointSlice) (slice : EndpointSlice) (attempts : List SliceApplyEnv) :
    (ApplyEndPointSliceWithRetry createPatch slices slice attempts).2 = none ↔
      Succeeds (needResyncOf createPatch slices slice) attempts := by
  induction attempts with
  | nil => exact ⟨fun h => (by cases h), False.elim⟩
  | cons env attempts ih =>
    have herror := applyEndPointSlice_error createPatch slices slice env
    rw [ApplyEndPointSliceWithRetry, Succeeds, ← herror, ← ih]
    rcases applyEndPointSlice_cases hpatch slices slice env with ⟨e, he⟩ | ⟨slices', he, -⟩
    · rw [he]
      cases e with
      | conflict =>
        by_cases hlast : attempts = []
        · subst hlast
          simp [ApplyEndPointSliceWithRetry]
        · simp [hlast]
      | notFound | alreadyExists | other => simp
    · rw [he]
      simp

/-! ## The goroutines -/

variable (createPatch) (applies : String → List SliceApplyEnv)

/-- Between two turns, the slices of the goroutines that have applied theirs are as
if each were applied alone, and the others are as they were. -/
def AppliedSoFar (newSlices : List EndpointSlice) (slices : GoMap String EndpointSlice)
    (g : Goroutines) : Prop :=
  ∀ i slice, newSlices[i]? = some slice → g.result.slices.lookup slice.name =
    if g.phase i = .applying then slices.lookup slice.name
    else (ApplyEndPointSliceWithRetry createPatch slices slice (applies slice.name)).1.lookup slice.name

theorem phase_turn (newSlices : List EndpointSlice) (g : Goroutines) (i j : Nat) :
    (g.turn createPatch newSlices applies i).phase j = .applying ↔
      g.phase j = .applying ∧ ¬ (j = i ∧ i < newSlices.length) := by
  unfold Goroutines.turn
  split
  · rename_i hslice hphase
    have hi : i < newSlices.length := (List.getElem?_eq_some_iff.mp hslice).1
    by_cases hj : j = i
    · simp [hj, hi]
    · simp [hj]
  · rename_i hslice hphase
    have hi : i < newSlices.length := (List.getElem?_eq_some_iff.mp hslice).1
    by_cases hj : j = i
    · simp [hj, hi]
    · simp [hj]
  · rename_i h₁ h₂
    refine ⟨fun h => ⟨h, ?_⟩, fun h => h.1⟩
    rintro ⟨rfl, hi⟩
    exact h₁ _ (List.getElem?_eq_getElem hi) h

theorem AppliedSoFar.turn {newSlices : List EndpointSlice} {slices : GoMap String EndpointSlice}
    (hnodup : (newSlices.map EndpointSlice.name).Nodup) {g : Goroutines}
    (h : AppliedSoFar createPatch applies newSlices slices g) (i : Nat) :
    AppliedSoFar createPatch applies newSlices slices (g.turn createPatch newSlices applies i) := by
  intro j slice hslice
  have hj : j < newSlices.length := (List.getElem?_eq_some_iff.mp hslice).1
  by_cases hi : i < newSlices.length ∧ g.phase i = .applying
  · -- The slice at `i` is applied, in slices that have it as it was.
    obtain ⟨si, hsi⟩ : ∃ si, newSlices[i]? = some si := ⟨_, List.getElem?_eq_getElem hi.1⟩
    rw [turn_slices_applying createPatch applies hsi hi.2]
    by_cases hji : j = i
    · subst j
      obtain rfl : si = slice := Option.some_inj.mp (hsi.symm.trans hslice)
      rw [if_neg fun hp => ((phase_turn createPatch applies newSlices g i i).mp hp).2 ⟨rfl, hi.1⟩]
      refine (ApplyEndPointSliceWithRetry_congr createPatch (applies si.name) ?_).1
      rw [h i si hsi, if_pos hi.2]
    · have hne : slice.name ≠ si.name := by
        intro heq
        refine hji ((List.getElem?_inj (by rwa [List.length_map]) hnodup).mp ?_)
        rw [List.getElem?_map, List.getElem?_map, hslice, hsi, Option.map_some, Option.map_some, heq]
      rw [lookup_ApplyEndPointSliceWithRetry createPatch _ hne, h j slice hslice]
      refine if_congr ?_ rfl rfl
      rw [phase_turn]
      exact ⟨fun hp => ⟨hp, fun hi' => hji hi'.1⟩, And.left⟩
  · rw [turn_slices_of_ne createPatch applies fun h₁ h₂ => hi ⟨h₁, h₂⟩, h j slice hslice]
    refine if_congr ?_ rfl rfl
    rw [phase_turn]
    refine ⟨fun hp => ⟨hp, ?_⟩, And.left⟩
    rintro ⟨rfl, hi'⟩
    exact hi ⟨hi', hp⟩

theorem phase_foldl_turn (newSlices : List EndpointSlice) (turns : List Nat) (g : Goroutines)
    {j : Nat} (hj : j < newSlices.length) :
    (turns.foldl (Goroutines.turn createPatch newSlices applies) g).phase j = .applying ↔
      g.phase j = .applying ∧ j ∉ turns := by
  induction turns generalizing g with
  | nil => simp
  | cons i turns ih =>
    rw [List.foldl_cons, ih, phase_turn, List.mem_cons, not_or, and_assoc]
    refine and_congr_right fun _ => and_congr_left fun _ => not_congr ?_
    exact ⟨And.left, fun h => ⟨h, h ▸ hj⟩⟩

/-- In the end every slice is applied as if alone. -/
theorem applySlices_lookup {newSlices : List EndpointSlice}
    (hnodup : (newSlices.map EndpointSlice.name).Nodup) (slices : GoMap String EndpointSlice)
    (turns : List Nat) {slice : EndpointSlice} (hslice : slice ∈ newSlices) :
    (applySlices createPatch newSlices applies slices turns).slices.lookup slice.name =
      (ApplyEndPointSliceWithRetry createPatch slices slice (applies slice.name)).1.lookup
        slice.name := by
  obtain ⟨i, hi⟩ := List.mem_iff_getElem?.mp hslice
  have hlt : i < newSlices.length := (List.getElem?_eq_some_iff.mp hi).1
  have hsofar := foldl_turn createPatch newSlices applies
    (AppliedSoFar createPatch applies newSlices slices)
    (fun g i hg => hg.turn createPatch applies hnodup i)
    (turns ++ List.range newSlices.length ++ List.range newSlices.length)
    (g := ⟨⟨slices, [], none⟩, fun _ => .applying⟩) fun _ _ _ => (if_pos rfl).symm
  refine (hsofar i slice hi).trans (if_neg ?_)
  rw [phase_foldl_turn createPatch applies newSlices _ _ hlt]
  rintro ⟨-, hnot⟩
  exact hnot (List.mem_append_right _ (List.mem_range.mpr hlt))

end

/-! ## The mirror -/

/-- The target has a slice of that name with the selector's labels. -/
def Labelled (selector : List (String × String)) (target : GoMap String EndpointSlice) (k : String) :
    Prop :=
  ∃ es, target.lookup k = some es ∧ matchesLabels selector es.labels = true

instance (selector : List (String × String)) (target : GoMap String EndpointSlice) (k : String) :
    Decidable (Labelled selector target k) :=
  decidable_of_iff ((target.lookup k).any fun es => matchesLabels selector es.labels) (by
    rw [Labelled, Option.any_eq_true])

/-- The target's slices with the selector's labels are the copies, by name and
content. -/
def Mirrors (selector : List (String × String)) (target : GoMap String EndpointSlice)
    (copies : List EndpointSlice) : Prop :=
  ∀ k x, (∃ es, target.lookup k = some es ∧ matchesLabels selector es.labels = true ∧
    content es = x) ↔ ∃ s ∈ copies, s.name = k ∧ content s = x

theorem mem_matching {target : GoMap String EndpointSlice} {k : String}
    {selector : List (String × String)} :
    k ∈ (target.entries.filter fun e => matchesLabels selector e.2.labels).map (·.1) ↔
      Labelled selector target k := by
  constructor
  · intro hmem
    obtain ⟨⟨k', es⟩, he, rfl⟩ := List.mem_map.mp hmem
    obtain ⟨he, hmatch⟩ := List.mem_filter.mp he
    exact ⟨es, GoMap.mem_entries_iff.mp he, hmatch⟩
  · rintro ⟨es, hes, hmatch⟩
    exact List.mem_map.mpr ⟨⟨k, es⟩, List.mem_filter.mpr ⟨GoMap.mem_entries_iff.mpr hes, hmatch⟩, rfl⟩

theorem deleteNonexistent_lookup {kept : String → Bool} {deleteErr : String → Option Error}
    {names : List String} {target target' : GoMap String EndpointSlice}
    (h : deleteNonexistent kept deleteErr names target = (target', none)) (k : String) :
    target'.lookup k = if k ∈ names ∧ kept k = false then none else target.lookup k := by
  induction names generalizing target with
  | nil =>
    obtain ⟨rfl, -⟩ := Prod.mk.inj h
    simp
  | cons name names ih =>
    rw [deleteNonexistent] at h
    split at h
    · rename_i hkept
      rw [ih h]
      refine if_congr ?_ rfl rfl
      rw [List.mem_cons]
      refine and_congr_left fun hk => ⟨.inr, fun hmem => hmem.resolve_left ?_⟩
      rintro rfl
      rw [hkept] at hk
      cases hk
    · rename_i hkept
      split at h
      · cases h
      · rw [ih h, GoMap.lookup_erase_eq]
        by_cases hk : k = name
        · subst k
          simp [hkept]
        · simp [hk]

/-- What is removed, and what is left to copy. -/
theorem RemoveNonexistentEndpointslice_ok {src : List EndpointSlice} {srcClusterID srcNs : String}
    {labelMap dstLabelMap : List (String × String)} {target target' : GoMap String EndpointSlice}
    {nameChanged : Bool} {env : RemoveEnv} {l : List EndpointSlice} (hsrc : env.srcListErr = none)
    (h : RemoveNonexistentEndpointslice src srcClusterID srcNs labelMap target dstLabelMap nameChanged
      env = (target', .ok l)) :
    l = srcEndpointSlices src srcNs labelMap env.srcOrder ∧
      ∀ k, target'.lookup k = if env.dstListErr = none ∧ Labelled dstLabelMap target k ∧
        srcEndpointSliceMap l srcClusterID nameChanged k = false then none else target.lookup k := by
  simp only [RemoveNonexistentEndpointslice, hsrc] at h
  unfold removeNonexistent at h
  split at h
  · rename_i hlist
    obtain ⟨rfl, hl⟩ := Prod.mk.inj h
    refine ⟨(Except.ok.inj hl).symm, fun k => (if_neg ?_).symm⟩
    rintro ⟨hnone, -⟩
    rw [hlist] at hnone
    cases hnone
  · rename_i hlist
    simp only at h
    split at h
    · cases (Prod.mk.inj h).2
    · rename_i heq
      obtain ⟨rfl, hl⟩ := Prod.mk.inj h
      obtain rfl := Except.ok.inj hl
      refine ⟨rfl, fun k => (deleteNonexistent_lookup heq k).trans (if_congr ?_ rfl rfl)⟩
      rw [mem_matching]
      exact ⟨fun hk => ⟨hlist, hk⟩, And.right⟩

/-- After the stale slices are removed and the copies applied, the target mirrors
them exactly when stale slices were looked for or there were none, no copy's name
was taken by a slice without the labels, and the calls of each apply that was needed succeeded. -/
theorem mirrors_applySlices_iff {createPatch : CreatePatch EndpointSlice}
    (hpatch : ReportsChanges createPatch) {selector : List (String × String)}
    {copies : List EndpointSlice} (hnodup : (copies.map EndpointSlice.name).Nodup)
    (hlabels : ∀ s ∈ copies, matchesLabels selector s.labels = true)
    (applies : String → List SliceApplyEnv) {target target' : GoMap String EndpointSlice}
    {listed : Prop} [Decidable listed]
    (hremoved : ∀ k, target'.lookup k =
      if listed ∧ Labelled selector target k ∧ (∀ s ∈ copies, s.name ≠ k) then none
      else target.lookup k) (turns : List Nat) :
    Mirrors selector (applySlices createPatch copies applies target' turns).slices copies ↔
      (listed ∨ ∀ k, Labelled selector target k → ∃ s ∈ copies, s.name = k) ∧
      ∀ s ∈ copies,
        (∀ es, target.lookup s.name = some es → matchesLabels selector es.labels = true) ∧
        (Succeeds (needResyncOf createPatch target s) (applies s.name) ∨
          ∃ es, target.lookup s.name = some es ∧ content es = content s) := by
  generalize hfinal : (applySlices createPatch copies applies target' turns).slices = final
  -- Under the name of a copy, the copy is applied to what the target had there, or it fails.
  have hcopy : ∀ s ∈ copies,
      ¬ Succeeds (needResyncOf createPatch target s) (applies s.name) ∧
          final.lookup s.name = target.lookup s.name ∨
        Succeeds (needResyncOf createPatch target s) (applies s.name) ∧
          Applied (target.lookup s.name) s (final.lookup s.name) := by
    intro s hs
    rw [← ApplyEndPointSliceWithRetry_eq_none_iff hpatch]
    have hsame : target'.lookup s.name = target.lookup s.name := by
      rw [hremoved, if_neg]
      exact fun h => h.2.2 s hs rfl
    have happly := (applySlices_lookup createPatch applies hnodup target' turns hs).trans
      (ApplyEndPointSliceWithRetry_congr createPatch (applies s.name) hsame).1
    rw [← hfinal, happly]
    rcases ApplyEndPointSliceWithRetry_cases hpatch target s (applies s.name) with
      ⟨e, he⟩ | ⟨slices', he, happlied⟩
    · rw [he]
      exact .inl ⟨Option.some_ne_none e, rfl⟩
    · rw [he]
      exact .inr ⟨rfl, happlied⟩
  have hother : ∀ k, (∀ s ∈ copies, s.name ≠ k) → final.lookup k =
      if listed ∧ Labelled selector target k then none else target.lookup k := by
    intro k hk
    rw [← hfinal, lookup_applySlices createPatch (fun s hs => (hk s hs).symm), hremoved]
    exact if_congr ⟨fun h => ⟨h.1, h.2.1⟩, fun h => ⟨h.1, h.2, hk⟩⟩ rfl rfl
  constructor
  · intro h
    refine ⟨?_, fun s hs => ?_⟩
    · by_contra hnot
      simp only [not_or, not_forall, not_exists, not_and] at hnot
      obtain ⟨hlisted, k, ⟨es, hes, hmatch⟩, hk⟩ := hnot
      have hstay := (hother k hk).trans ((if_neg fun h => hlisted h.1).trans hes)
      obtain ⟨s, hs, hname, -⟩ := (h k (content es)).mp ⟨es, hstay, hmatch, rfl⟩
      exact hk s hs hname
    · obtain ⟨es', hes', hmatch, hcontent⟩ := (h s.name (content s)).mpr ⟨s, hs, rfl, rfl⟩
      rcases hcopy s hs with ⟨-, hsame⟩ | ⟨hok, es₁, hes₁, -, hlabel⟩
      · rw [hsame] at hes'
        refine ⟨fun es hes => ?_, .inr ⟨es', hes', hcontent⟩⟩
        rwa [Option.some_inj.mp (hes.symm.trans hes')]
      · refine ⟨fun es hes => ?_, .inl hok⟩
        obtain rfl : es₁ = es' := Option.some_inj.mp (hes₁.symm.trans hes')
        rw [hes] at hlabel
        rwa [hlabel] at hmatch
  · rintro ⟨hstale, hcopies⟩ k x
    constructor
    · rintro ⟨es, hes, hmatch, rfl⟩
      by_cases hk : ∃ s ∈ copies, s.name = k
      · obtain ⟨s, hs, rfl⟩ := hk
        refine ⟨s, hs, rfl, ?_⟩
        rcases hcopy s hs with ⟨hfail, hsame⟩ | ⟨-, es₁, hes₁, hcontent, -⟩
        · obtain ⟨es₀, hes₀, hcontent⟩ := (hcopies s hs).2.resolve_left hfail
          rw [hsame, hes₀] at hes
          rw [← Option.some_inj.mp hes, hcontent]
        · rw [← Option.some_inj.mp (hes₁.symm.trans hes), hcontent]
      · have hk' : ∀ s ∈ copies, s.name ≠ k := fun s hs hname => hk ⟨s, hs, hname⟩
        rw [hother k hk'] at hes
        split at hes
        · cases hes
        · rename_i hnot
          exact absurd (hstale.resolve_left fun hl => hnot ⟨hl, es, hes, hmatch⟩) fun h =>
            hk (h k ⟨es, hes, hmatch⟩)
    · rintro ⟨s, hs, rfl, rfl⟩
      rcases hcopy s hs with ⟨hfail, hsame⟩ | ⟨-, es₁, hes₁, hcontent, hlabel⟩
      · obtain ⟨es₀, hes₀, hcontent⟩ := (hcopies s hs).2.resolve_left hfail
        exact ⟨es₀, hsame.trans hes₀, (hcopies s hs).1 es₀ hes₀, hcontent⟩
      · refine ⟨es₁, hes₁, ?_, hcontent⟩
        rw [hlabel]
        cases hcur : target.lookup s.name with
        | none => exact hlabels s hs
        | some cur => exact (hcopies s hs).1 cur hcur

end Fleetboard.Mcs

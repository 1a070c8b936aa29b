import Mathlib.Data.List.AList

/-!
# Finite maps and the order of their iteration

A Go map is an association list without duplicate keys (`AList`), read through
`lookup`; two maps with the same lookups differ at most in the order of their
entries. A `range` loop visits the entries in an order that the language leaves
open: a `RangeOrder` is one such order, and code that ranges over a map takes
one for each loop whose result depends on it.

`lookup_insert_eq`, `lookup_erase_eq`, `lookup_mapVals`, `lookup_traverse` and
`lookup_foldl_insert_of_mem` say what the operations leave at each key.

A map that is kept up to date part by part takes changes, pairs of a part's
previous and current entries. A change that shares a key with another part
overwrites what that part has there: the last change that touches a key decides
(`lookup_foldl_changes`).
-/

namespace Fleetboard

/-- A Go map. -/
abbrev GoMap (K V : Type*) := AList (fun _ : K => V)

/-- The order in which one `range` loop visits the entries of a map. -/
structure RangeOrder (α : Type*) where
  visit : List α → List α
  perm : ∀ l, (visit l).Perm l

/-- The order in which the entries are stored. -/
def RangeOrder.stored {α : Type*} : RangeOrder α := ⟨id, fun _ => .refl _⟩

/-- The order in which the entries with a property come last. -/
def RangeOrder.last {α : Type*} (p : α → Bool) : RangeOrder α where
  visit l := l.filter (fun a => !p a) ++ l.filter p
  perm l := List.perm_append_comm.trans (List.filter_append_perm p l)

theorem RangeOrder.mem_visit {α : Type*} (o : RangeOrder α) {l : List α} {a : α} :
    a ∈ o.visit l ↔ a ∈ l := (o.perm l).mem_iff

namespace GoMap

variable {K V W : Type*}

/-- The values of a map, in the order of its entries. -/
def values (m : GoMap K V) : List V := m.entries.map (·.2)

/-- Entry by entry, `f` on the values. -/
def mapVals (f : V → W) (m : GoMap K V) : GoMap K W where
  entries := m.entries.map fun e => ⟨e.1, f e.2⟩
  nodupKeys := by
    have := m.nodupKeys
    simpa only [List.NodupKeys, List.keys, List.map_map, Function.comp_def] using this

/-- A fallible function on the values of some entries. -/
def traverseEntries {ε : Type*} (f : K → V → Except ε W) :
    List ((_ : K) × V) → Except ε (List ((_ : K) × W))
  | [] => .ok []
  | e :: es =>
    match f e.1 e.2 with
    | .error p => .error p
    | .ok w =>
      match traverseEntries f es with
      | .error p => .error p
      | .ok ws => .ok (⟨e.1, w⟩ :: ws)

theorem keys_traverseEntries {ε : Type*} {f : K → V → Except ε W} {es : List ((_ : K) × V)}
    {ws : List ((_ : K) × W)} (h : traverseEntries f es = .ok ws) : ws.keys = es.keys := by
  induction es generalizing ws with
  | nil =>
    cases h
    rfl
  | cons e es ih =>
    rw [traverseEntries] at h
    split at h
    · cases h
    · split at h
      · cases h
      · rename_i ws' hws
        cases h
        simpa using ih hws

/-- A fallible function on the values, entry by entry. -/
def traverse {ε : Type*} (f : K → V → Except ε W) (m : GoMap K V) : Except ε (GoMap K W) :=
  match h : traverseEntries f m.entries with
  | .error p => .error p
  | .ok ws => .ok ⟨ws, by
      have hk := m.nodupKeys
      rw [List.NodupKeys] at hk ⊢
      rwa [keys_traverseEntries h]⟩

theorem mem_traverseEntries {ε : Type*} {f : K → V → Except ε W} {es : List ((_ : K) × V)}
    {ws : List ((_ : K) × W)} (h : traverseEntries f es = .ok ws) :
    (∀ e ∈ ws, ∃ v, (⟨e.1, v⟩ : (_ : K) × V) ∈ es ∧ f e.1 v = .ok e.2) ∧
      ∀ e ∈ es, ∃ w, (⟨e.1, w⟩ : (_ : K) × W) ∈ ws ∧ f e.1 e.2 = .ok w := by
  induction es generalizing ws with
  | nil =>
    cases h
    exact ⟨List.forall_mem_nil _, List.forall_mem_nil _⟩
  | cons e es ih =>
    rw [traverseEntries] at h
    split at h
    · cases h
    · rename_i w hw
      split at h
      · cases h
      · rename_i ws' hws
        cases h
        obtain ⟨ih₁, ih₂⟩ := ih hws
        refine ⟨List.forall_mem_cons.mpr ⟨⟨e.2, List.mem_cons_self, hw⟩, fun e' he' => ?_⟩,
          List.forall_mem_cons.mpr ⟨⟨w, List.mem_cons_self, hw⟩, fun e' he' => ?_⟩⟩
        · obtain ⟨v, hv, hf⟩ := ih₁ e' he'
          exact ⟨v, List.mem_cons_of_mem _ hv, hf⟩
        · obtain ⟨w', hw', hf⟩ := ih₂ e' he'
          exact ⟨w', List.mem_cons_of_mem _ hw', hf⟩

theorem exists_traverseEntries {ε : Type*} {f : K → V → Except ε W} {es : List ((_ : K) × V)}
    (h : ∀ e ∈ es, ∃ w, f e.1 e.2 = .ok w) : ∃ ws, traverseEntries f es = .ok ws := by
  induction es with
  | nil => exact ⟨[], rfl⟩
  | cons e es ih =>
    obtain ⟨hhead, htail⟩ := List.forall_mem_cons.mp h
    obtain ⟨w, hw⟩ := hhead
    obtain ⟨ws, hws⟩ := ih htail
    rw [traverseEntries, hw, hws]
    exact ⟨_, rfl⟩

variable [DecidableEq K]

theorem lookup_insert_eq (m : GoMap K V) (k k' : K) (v : V) :
    (m.insert k v).lookup k' = if k' = k then some v else m.lookup k' := by
  by_cases h : k' = k
  · subst h; simp
  · simp [AList.lookup_insert_ne h, h]

theorem lookup_erase_eq (m : GoMap K V) (k k' : K) :
    (m.erase k).lookup k' = if k' = k then none else m.lookup k' := by
  by_cases h : k' = k
  · subst h; simp
  · simp [AList.lookup_erase_ne h, h]

theorem mem_entries_iff {m : GoMap K V} {k : K} {v : V} :
    (⟨k, v⟩ : (_ : K) × V) ∈ m.entries ↔ m.lookup k = some v :=
  AList.mem_lookup_iff.symm

theorem mem_values_iff {m : GoMap K V} {v : V} : v ∈ values m ↔ ∃ k, m.lookup k = some v := by
  simp only [values, List.mem_map]
  constructor
  · rintro ⟨⟨k, v⟩, h, rfl⟩; exact ⟨k, mem_entries_iff.mp h⟩
  · rintro ⟨k, h⟩; exact ⟨⟨k, v⟩, mem_entries_iff.mpr h, rfl⟩

theorem entries_eq_nil_iff {m : GoMap K V} : m.entries = [] ↔ ∀ k, m.lookup k = none := by
  constructor
  · intro h k
    rw [AList.lookup_eq_none, AList.mem_keys, AList.keys, h]
    exact List.not_mem_nil
  · intro h
    rw [List.eq_nil_iff_forall_not_mem]
    rintro ⟨k, v⟩ hm
    rw [mem_entries_iff, h k] at hm
    cases hm

theorem lookup_mapVals (f : V → W) (m : GoMap K V) (k : K) :
    (mapVals f m).lookup k = (m.lookup k).map f := by
  ext w
  simp only [Option.map_eq_some_iff]
  rw [← mem_entries_iff]
  simp only [← mem_entries_iff, mapVals, List.mem_map]
  constructor
  · rintro ⟨⟨k', v⟩, h, he⟩
    cases he
    exact ⟨v, h, rfl⟩
  · rintro ⟨v, h, rfl⟩
    exact ⟨⟨k, v⟩, h, rfl⟩

/-- What a fallible function on the values leaves at each key. -/
theorem lookup_traverse {ε : Type*} {f : K → V → Except ε W} {m : GoMap K V} {m' : GoMap K W}
    (h : traverse f m = .ok m') :
    (∀ k w, m'.lookup k = some w → ∃ v, m.lookup k = some v ∧ f k v = .ok w) ∧
      ∀ k v, m.lookup k = some v → ∃ w, m'.lookup k = some w ∧ f k v = .ok w := by
  rw [traverse] at h
  split at h
  · cases h
  · rename_i ws hws
    cases h
    obtain ⟨h₁, h₂⟩ := mem_traverseEntries hws
    refine ⟨fun k w hw => ?_, fun k v hv => ?_⟩
    · obtain ⟨v, hv, hf⟩ := h₁ ⟨k, w⟩ (mem_entries_iff.mpr hw)
      exact ⟨v, mem_entries_iff.mp hv, hf⟩
    · obtain ⟨w, hw, hf⟩ := h₂ ⟨k, v⟩ (mem_entries_iff.mpr hv)
      exact ⟨w, mem_entries_iff.mp hw, hf⟩

/-- A fallible function on the values that does not fail on any. -/
theorem exists_traverse {ε : Type*} {f : K → V → Except ε W} {m : GoMap K V}
    (h : ∀ k v, m.lookup k = some v → ∃ w, f k v = .ok w) : ∃ m', traverse f m = .ok m' := by
  obtain ⟨ws, hws⟩ := exists_traverseEntries fun (e : (_ : K) × V) he =>
    h e.1 e.2 (mem_entries_iff.mp he)
  rw [traverse]
  split
  · rename_i heq
    rw [hws] at heq
    cases heq
  · exact ⟨_, rfl⟩

/-- Writing entries leaves the keys that are not among theirs. -/
theorem lookup_foldl_insert_of_notMem {es : List ((_ : K) × V)} {k : K} (h : ∀ e ∈ es, e.1 ≠ k)
    (m : GoMap K V) : (es.foldl (fun m e => m.insert e.1 e.2) m).lookup k = m.lookup k := by
  induction es generalizing m with
  | nil => rfl
  | cons e es ih =>
    rw [List.foldl_cons, ih fun e he => h e (List.mem_cons_of_mem _ he), lookup_insert_eq,
      if_neg (Ne.symm (h e List.mem_cons_self))]

/-- Writing entries that agree on a key leaves their value there. -/
theorem lookup_foldl_insert_of_mem {es : List ((_ : K) × V)} {k : K} {v : V}
    (h : ∀ e ∈ es, e.1 = k → e.2 = v) {m : GoMap K V}
    (hk : (∃ e ∈ es, e.1 = k) ∨ m.lookup k = some v) :
    (es.foldl (fun m e => m.insert e.1 e.2) m).lookup k = some v := by
  induction es generalizing m with
  | nil => simpa using hk
  | cons e es ih =>
    refine ih (fun e he => h e (List.mem_cons_of_mem _ he)) ?_
    rw [lookup_insert_eq]
    by_cases he : k = e.1
    · rw [if_pos he, h e List.mem_cons_self he.symm]
      exact .inr rfl
    · rw [if_neg he]
      rcases hk with ⟨e', he', rfl⟩ | hk
      · rcases List.mem_cons.mp he' with rfl | he'
        · exact absurd rfl he
        · exact .inl ⟨e', he', rfl⟩
      · exact .inr hk

theorem lookup_foldl_erase (ks : List K) (m : GoMap K V) (k : K) :
    (ks.foldl (fun m k => m.erase k) m).lookup k = if k ∈ ks then none else m.lookup k := by
  induction ks generalizing m with
  | nil => rfl
  | cons k' ks ih =>
    rw [List.foldl_cons, ih, lookup_erase_eq]
    by_cases hks : k ∈ ks
    · simp [hks]
    · by_cases hk : k = k'
      · simp [hk]
      · simp [hks, hk]

/-- The entries whose keys have a property. -/
def filterKeys (p : K → Bool) (m : GoMap K V) : GoMap K V where
  entries := m.entries.filter fun e => p e.1
  nodupKeys := (List.filter_sublist.map Sigma.fst).nodup m.nodupKeys

theorem lookup_filterKeys (p : K → Bool) (m : GoMap K V) (k : K) :
    (filterKeys p m).lookup k = if p k then m.lookup k else none := by
  have hmem : ∀ v, (filterKeys p m).lookup k = some v ↔ m.lookup k = some v ∧ p k = true := by
    intro v
    rw [← mem_entries_iff, ← mem_entries_iff]
    exact List.mem_filter
  ext v
  rw [hmem]
  by_cases hp : p k = true
  · simp [hp]
  · simp [hp]

/-- The comparison of two maps by their sizes and the entries of the first one. -/
def deepEqual [DecidableEq V] (m m' : GoMap K V) : Bool :=
  m.entries.length = m'.entries.length ∧ ∀ e ∈ m.entries, m'.lookup e.1 = some e.2

theorem deepEqual_iff [DecidableEq V] {m m' : GoMap K V} :
    deepEqual m m' = true ↔ ∀ k, m.lookup k = m'.lookup k := by
  rw [deepEqual, decide_eq_true_iff]
  constructor
  · rintro ⟨hlen, hall⟩ k
    -- The keys of the first map are among those of the second, which has no more.
    have hsub : m.keys ⊆ m'.keys := by
      intro k hk
      obtain ⟨e, he, rfl⟩ := List.mem_map.mp hk
      exact AList.lookup_isSome.mp (Option.isSome_iff_exists.mpr ⟨e.2, hall e he⟩)
    have hperm : m.keys.Perm m'.keys := by
      refine (List.subperm_of_subset m.keys_nodup hsub).perm_of_length_le ?_
      simp only [AList.keys, List.keys, List.length_map, hlen, le_refl]
    cases h : m.lookup k with
    | some v => exact (hall ⟨k, v⟩ (mem_entries_iff.mpr h)).symm
    | none =>
      symm
      rw [AList.lookup_eq_none] at h ⊢
      exact fun hmem => h (hperm.mem_iff.mpr hmem)
  · intro h
    have hperm : m.entries.Perm m'.entries :=
      (List.perm_ext_iff_of_nodup m.nodupKeys.nodup m'.nodupKeys.nodup).mpr fun e => by
        rw [mem_entries_iff, mem_entries_iff, h]
    exact ⟨hperm.length_eq, fun e he => (h e.1).symm.trans (mem_entries_iff.mp he)⟩

/-! ## Replacing parts of a map -/

/-- The entries of another map are written over a map's. -/
def merge (m other : GoMap K V) : GoMap K V := other.entries.foldl (fun m e => m.insert e.1 e.2) m

/-- The keys of another map are deleted from a map. -/
def unmerge (m other : GoMap K V) : GoMap K V := other.entries.keys.foldl (fun m k => m.erase k) m

theorem lookup_merge (m other : GoMap K V) (k : K) :
    (merge m other).lookup k = (other.lookup k).or (m.lookup k) := by
  cases h : other.lookup k with
  | none =>
    refine lookup_foldl_insert_of_notMem (fun e he hk => ?_) m
    rw [← hk, mem_entries_iff.mp he] at h
    cases h
  | some v =>
    have hmem : (⟨k, v⟩ : (_ : K) × V) ∈ other.entries := mem_entries_iff.mpr h
    refine lookup_foldl_insert_of_mem (fun e he hk => ?_) (.inl ⟨_, hmem, rfl⟩)
    subst hk
    exact Option.some_inj.mp ((mem_entries_iff.mp he).symm.trans h)

theorem lookup_unmerge (m other : GoMap K V) (k : K) :
    (unmerge m other).lookup k = if other.lookup k = none then m.lookup k else none := by
  have hiff : other.lookup k = none ↔ k ∉ other.entries.keys := AList.lookup_eq_none
  rw [unmerge, lookup_foldl_erase]
  by_cases h : k ∈ other.entries.keys
  · rw [if_pos h, if_neg fun h' => hiff.mp h' h]
  · rw [if_neg h, if_pos (hiff.mpr h)]

/-- A change of one part of a map from its previous to its current entries. -/
def replace (m : GoMap K V) (c : GoMap K V × GoMap K V) : GoMap K V := merge (unmerge m c.1) c.2

/-- A change has the key among its previous or its current entries. -/
def Touches (c : GoMap K V × GoMap K V) (k : K) : Prop := c.1.lookup k ≠ none ∨ c.2.lookup k ≠ none

theorem lookup_replace (m : GoMap K V) (c : GoMap K V × GoMap K V) (k : K) :
    (¬ Touches c k ∧ (replace m c).lookup k = m.lookup k) ∨
      Touches c k ∧ (replace m c).lookup k = c.2.lookup k := by
  rw [replace, lookup_merge, lookup_unmerge, Touches]
  by_cases h₁ : c.1.lookup k = none
  · by_cases h₂ : c.2.lookup k = none
    · exact .inl ⟨by simp [h₁, h₂], by simp [h₁, h₂]⟩
    · refine .inr ⟨.inr h₂, ?_⟩
      obtain ⟨v, hv⟩ := Option.ne_none_iff_exists'.mp h₂
      simp [hv]
  · exact .inr ⟨.inl h₁, by simp [h₁]⟩

/-- Of the changes that touch a key the last one leaves its current entry, where each
change `d c` is made in the map `r s` of a state. -/
theorem lookup_foldl_changes {S C : Type*} {f : S → C → S} {r : S → GoMap K V}
    {d : C → GoMap K V × GoMap K V} {k : K}
    (hf : ∀ s c, ¬ Touches (d c) k ∧ (r (f s c)).lookup k = (r s).lookup k ∨
      Touches (d c) k ∧ (r (f s c)).lookup k = (d c).2.lookup k) (cs : List C) (s : S) :
    ((∀ c ∈ cs, ¬ Touches (d c) k) ∧ (r (cs.foldl f s)).lookup k = (r s).lookup k) ∨
      ∃ c ∈ cs, Touches (d c) k ∧ (r (cs.foldl f s)).lookup k = (d c).2.lookup k := by
  induction cs generalizing s with
  | nil => exact .inl ⟨List.forall_mem_nil _, rfl⟩
  | cons c cs ih =>
    rw [List.foldl_cons]
    rcases ih (f s c) with ⟨hno, hl⟩ | ⟨c', hc', ht, hl⟩
    · rcases hf s c with ⟨hn, hr⟩ | ⟨ht, hr⟩
      · exact .inl ⟨List.forall_mem_cons.mpr ⟨hn, hno⟩, hl.trans hr⟩
      · exact .inr ⟨c, List.mem_cons_self, ht, hl.trans hr⟩
    · exact .inr ⟨c', List.mem_cons_of_mem _ hc', ht, hl⟩

theorem lookup_foldl_replace (cs : List (GoMap K V × GoMap K V)) (m : GoMap K V) (k : K) :
    ((∀ c ∈ cs, ¬ Touches c k) ∧ (cs.foldl replace m).lookup k = m.lookup k) ∨
      ∃ c ∈ cs, Touches c k ∧ (cs.foldl replace m).lookup k = c.2.lookup k :=
  lookup_foldl_changes (r := id) (d := id) (fun m c => lookup_replace m c k) cs m

/-- A change after which no other touches a key leaves its current entry there. -/
theorem lookup_foldl_replace_append (cs cs' : List (GoMap K V × GoMap K V)) (m : GoMap K V) {k : K}
    {c : GoMap K V × GoMap K V} (hc : Touches c k) (h : ∀ c' ∈ cs', c' = c) (hne : cs' ≠ []) :
    ((cs ++ cs').foldl replace m).lookup k = c.2.lookup k := by
  rw [List.foldl_append]
  rcases lookup_foldl_replace cs' (cs.foldl replace m) k with ⟨hno, -⟩ | ⟨c', hc', -, hl⟩
  · obtain ⟨c', hc'⟩ := List.exists_mem_of_ne_nil cs' hne
    exact absurd (h c' hc' ▸ hc) (hno c' hc')
  · rw [hl, h c' hc']

end GoMap

end Fleetboard

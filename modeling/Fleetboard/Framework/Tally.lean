import Fleetboard.Framework.GoMap
import Fleetboard.Framework.Keyed
import Mathlib.Algebra.BigOperators.Group.Finset.Basic
import Mathlib.Algebra.BigOperators.Group.List.Basic
import Mathlib.Algebra.Order.BigOperators.Group.List
import Mathlib.Algebra.Order.Ring.Int

/-!
# Numbers by key, and loops that count

A map from keys to numbers counts a missing key as zero: `num` reads it, `addTo` is `m[k] += n`,
`addAll` adds the numbers of another map and `total` sums over the values.

`mapState` changes the elements of a list one after another while it passes on a state.

* `num_addTo`, `num_addAll`: what an addition does to each number;
* `total_addTo`: what it does to the sum;
* `mapState_invariant`: what each element keeps of the state, the loop keeps;
* `mapState_balance`: a number in the state that changes with the weights of the elements
  changes with the sum of the weights;
* `total_foldl_insert`: the sum over a map that is built in a loop;
* `sum_by_key`: a sum over a list, key by key;
* `exists_of_forall₂`, `forall₂_trans`, `map_eq_of_forall₂`, `sum_le_of_forall₂`: lists whose
  elements correspond.
-/

namespace Fleetboard

namespace GoMap

variable {K V W : Type*} [DecidableEq K]

/-- A map that is built from the entries of another, in any order. -/
theorem lookup_foldl_visit {X : Type*} (order : RangeOrder ((_ : K) × W)) (f : W → X)
    (m : GoMap K W) (k : K) :
    ((order.visit m.entries).foldl (fun acc e => acc.insert e.1 (f e.2)) (∅ : GoMap K X)).lookup k =
      (m.lookup k).map f := by
  have hmap : (order.visit m.entries).foldl (fun acc e => acc.insert e.1 (f e.2)) (∅ : GoMap K X) =
      ((order.visit m.entries).map fun e => (⟨e.1, f e.2⟩ : (_ : K) × X)).foldl
        (fun acc e => acc.insert e.1 e.2) ∅ := by
    rw [List.foldl_map]
  have hentry : ∀ e ∈ (order.visit m.entries).map fun e => (⟨e.1, f e.2⟩ : (_ : K) × X),
      (m.lookup e.1).map f = some e.2 := by
    intro e he
    obtain ⟨e, hvisited, rfl⟩ := List.mem_map.1 he
    rw [mem_entries_iff.1 (order.mem_visit.1 hvisited), Option.map_some]
  rw [hmap]
  cases hlookup : m.lookup k with
  | none =>
    refine lookup_foldl_insert_of_notMem (fun e he hk => ?_) ∅
    have := hentry e he
    rw [hk, hlookup] at this
    cases this
  | some v =>
    refine lookup_foldl_insert_of_mem (fun e he hk => ?_) (.inl ⟨⟨k, f v⟩, ?_, rfl⟩)
    · have := hentry e he
      rw [hk, hlookup] at this
      exact (Option.some_inj.1 this).symm
    · exact List.mem_map.2 ⟨⟨k, v⟩, order.mem_visit.2 (mem_entries_iff.2 hlookup), rfl⟩

variable [AddCommMonoid V]

/-- `m[k]`. -/
def num (m : GoMap K V) (k : K) : V := (m.lookup k).getD 0

/-- `m[k] += n`. -/
def addTo (m : GoMap K V) (k : K) (n : V) : GoMap K V := m.insert k (num m k + n)

/-- `m[k] += n` for all entries of another map. -/
def addAll (m other : GoMap K V) : GoMap K V := other.entries.foldl (fun m e => addTo m e.1 e.2) m

/-- The sum of what the values weigh. -/
def total {M : Type*} [AddCommMonoid M] (w : W → M) (m : GoMap K W) : M :=
  (m.entries.map fun e => w e.2).sum

@[simp]
theorem num_empty (k : K) : num (∅ : GoMap K V) k = 0 := rfl

theorem num_of_lookup {m : GoMap K V} {k : K} {n : V} (h : m.lookup k = some n) : num m k = n := by
  rw [num, h, Option.getD_some]

theorem num_insert (m : GoMap K V) (k k' : K) (n : V) :
    num (m.insert k n) k' = if k' = k then n else num m k' := by
  rw [num, lookup_insert_eq]
  split
  · rfl
  · rfl

theorem num_erase (m : GoMap K V) (k k' : K) :
    num (m.erase k) k' = if k' = k then 0 else num m k' := by
  rw [num, lookup_erase_eq]
  split
  · rfl
  · rfl

theorem num_addTo (m : GoMap K V) (k k' : K) (n : V) :
    num (addTo m k n) k' = num m k' + if k' = k then n else 0 := by
  rw [addTo, num_insert]
  split
  · rename_i hk
    rw [hk]
  · rw [add_zero]

/-- The entries with a key add up to its number. -/
theorem sum_filter_entries (m : GoMap K V) (k : K) :
    ((m.entries.filter fun e => e.1 = k).map (·.2)).sum = num m k := by
  obtain ⟨es, hes⟩ := m
  change _ = (List.dlookup k es).getD 0
  induction es with
  | nil => rfl
  | cons e es ih =>
    obtain ⟨hnotMem, hnodup⟩ := List.nodupKeys_cons.1 hes
    by_cases hk : e.1 = k
    · have hnone : es.filter (fun e => decide (e.1 = k)) = [] := by
        refine List.filter_eq_nil_iff.2 fun e' he' => ?_
        rw [decide_eq_true_eq]
        exact fun h => hnotMem (hk.trans h.symm ▸ List.mem_keys_of_mem he')
      obtain ⟨k', n⟩ := e
      obtain rfl : k' = k := hk
      rw [List.filter_cons_of_pos (by simp), hnone, List.dlookup_cons_eq]
      simp
    · rw [List.filter_cons_of_neg (by simpa using hk), ih hnodup,
        List.dlookup_cons_ne _ _ (Ne.symm hk)]

theorem num_foldl_addTo (es : List ((_ : K) × V)) (m : GoMap K V) (k : K) :
    num (es.foldl (fun m e => addTo m e.1 e.2) m) k =
      num m k + ((es.filter fun e => e.1 = k).map (·.2)).sum := by
  induction es generalizing m with
  | nil => simp
  | cons e es ih =>
    rw [List.foldl_cons, ih, num_addTo, List.filter_cons]
    by_cases hk : k = e.1
    · simp [hk, add_assoc]
    · simp [hk, Ne.symm hk]

theorem num_addAll (m other : GoMap K V) (k : K) :
    num (addAll m other) k = num m k + num other k := by
  rw [addAll, num_foldl_addTo, sum_filter_entries]

theorem num_nonneg_addTo {m : GoMap K Int} (h : ∀ k, 0 ≤ num m k) {k : K} {n : Int} (hn : 0 ≤ n)
    (k' : K) : 0 ≤ num (addTo m k n) k' := by
  rw [num_addTo]
  have := h k'
  split
  · omega
  · omega

/-! ## Sums -/

section Total

variable {M : Type*} [AddCommMonoid M] (w : W → M)

theorem sum_kerase (k : K) (es : List ((_ : K) × W)) :
    (es.map fun e => w e.2).sum =
      ((List.dlookup k es).map w).getD 0 + ((es.kerase k).map fun e => w e.2).sum := by
  induction es with
  | nil => simp
  | cons e es ih =>
    by_cases hk : k = e.1
    · obtain ⟨k', n⟩ := e
      obtain rfl : k = k' := hk
      simp
    · rw [List.kerase_cons_ne hk, List.dlookup_cons_ne _ _ hk, List.map_cons, List.sum_cons, ih,
        List.map_cons, List.sum_cons, add_left_comm]

/-- The sum with the part of a key by itself. -/
theorem total_eq_add_erase (m : GoMap K W) (k : K) :
    total w m = ((m.lookup k).map w).getD 0 + total w (m.erase k) :=
  sum_kerase w k m.entries

theorem total_insert (m : GoMap K W) (k : K) (v : W) :
    total w (m.insert k v) = w v + total w (m.erase k) := rfl

end Total

/-- The sum over a map that is built from entries with different keys. -/
theorem total_foldl_insert {X M : Type*} [AddCommMonoid M] (w : X → M) (f : (_ : K) × W → X)
    (es : List ((_ : K) × W)) (hes : (es.map Sigma.fst).Nodup) (m : GoMap K X)
    (hm : ∀ e ∈ es, m.lookup e.1 = none) :
    total w (es.foldl (fun m e => m.insert e.1 (f e)) m) =
      total w m + (es.map fun e => w (f e)).sum := by
  induction es generalizing m with
  | nil => simp
  | cons e es ih =>
    obtain ⟨hnot, hes⟩ := List.nodup_cons.1 hes
    obtain ⟨he, hm⟩ := List.forall_mem_cons.1 hm
    have hinsert : total w (m.insert e.1 (f e)) = total w m + w (f e) := by
      rw [total_insert, total_eq_add_erase w m e.1, he, add_comm]
      simp
    rw [List.foldl_cons, ih hes, hinsert, List.map_cons, List.sum_cons, add_assoc]
    intro e' he'
    have hne : e'.1 ≠ e.1 := fun heq => hnot (heq ▸ List.mem_map_of_mem he')
    rw [lookup_insert_eq, if_neg hne, hm e' he']

theorem lookup_foldl_insert {X : Type*} {f : (_ : K) × W → X} {es : List ((_ : K) × W)}
    {m : GoMap K X} {k : K} {x : X}
    (h : (es.foldl (fun m e => m.insert e.1 (f e)) m).lookup k = some x) :
    (∃ e ∈ es, x = f e) ∨ m.lookup k = some x := by
  induction es generalizing m with
  | nil => exact .inr h
  | cons e es ih =>
    rcases ih h with ⟨e', he', hx⟩ | hm
    · exact .inl ⟨e', List.mem_cons_of_mem _ he', hx⟩
    · rw [lookup_insert_eq] at hm
      split at hm
      · exact .inl ⟨e, List.mem_cons_self, (Option.some.inj hm).symm⟩
      · exact .inr hm

theorem total_eq_zero {M : Type*} [AddCommMonoid M] {w : W → M} {m : GoMap K W}
    (h : ∀ k v, m.lookup k = some v → w v = 0) : total w m = 0 := by
  refine List.sum_eq_zero fun x hx => ?_
  obtain ⟨e, he, rfl⟩ := List.mem_map.1 hx
  exact h e.1 e.2 (mem_entries_iff.1 he)

theorem total_addTo (m : GoMap K V) (k : K) (n : V) :
    total id (addTo m k n) = total id m + n := by
  rw [addTo, total_insert, total_eq_add_erase id m k, add_right_comm, num, Option.map_id]
  rfl

theorem entry_nonneg {m : GoMap K Int} (h : ∀ k, 0 ≤ num m k) {e : (_ : K) × Int}
    (he : e ∈ m.entries) : 0 ≤ e.2 :=
  num_of_lookup (mem_entries_iff.1 he) ▸ h e.1

theorem total_nonneg {m : GoMap K Int} (h : ∀ k, 0 ≤ num m k) : 0 ≤ total id m := by
  refine List.sum_nonneg fun n hn => ?_
  obtain ⟨e, he, rfl⟩ := List.mem_map.1 hn
  exact entry_nonneg h he

/-- A number is at most the sum of all. -/
theorem num_le_total {m : GoMap K Int} (h : ∀ k, 0 ≤ num m k) (k : K) : num m k ≤ total id m := by
  rw [total_eq_add_erase id m k, num, Option.map_id]
  refine le_add_of_nonneg_right (total_nonneg fun k' => ?_)
  rw [num_erase]
  split
  · exact le_rfl
  · exact h k'

end GoMap

/-! ## Loops with a state -/

section MapState

variable {σ α β : Type*}

/-- The elements of a list with a state that is passed on. -/
def mapState (f : σ → α → σ × β) : σ → List α → σ × List β
  | st, [] => (st, [])
  | st, a :: l =>
    let (st, b) := f st a
    let (st, l) := mapState f st l
    (st, b :: l)

variable {f : σ → α → σ × β}

theorem mapState_cons (st : σ) (a : α) (l : List α) :
    mapState f st (a :: l) =
      ((mapState f (f st a).1 l).1, (f st a).2 :: (mapState f (f st a).1 l).2) := rfl

/-- What each element keeps of the state, the loop keeps. -/
theorem mapState_invariant {I : σ → Prop} (l : List α) (st : σ)
    (h : ∀ st, ∀ a ∈ l, I st → I (f st a).1) (hst : I st) : I (mapState f st l).1 := by
  induction l generalizing st with
  | nil => exact hst
  | cons a l ih =>
    rw [mapState_cons]
    exact ih _ (fun st a ha => h st a (List.mem_cons_of_mem _ ha)) (h st a List.mem_cons_self hst)

/-- A number in the state that changes with the weights of the elements. When the loop may fail,
`I` are the states in which it has not. -/
theorem mapState_balance {M : Type*} [AddCommMonoid M] {I : σ → Prop} {R : α → β → Prop}
    {g : σ → M} {v : α → M} {w : β → M} (l : List α) (st : σ)
    (h : ∀ st, ∀ a ∈ l, I (f st a).1 →
      I st ∧ R a (f st a).2 ∧ g (f st a).1 + v a = g st + w (f st a).2)
    (hst : I (mapState f st l).1) :
    I st ∧ List.Forall₂ R l (mapState f st l).2 ∧
      g (mapState f st l).1 + (l.map v).sum = g st + ((mapState f st l).2.map w).sum := by
  induction l generalizing st with
  | nil => exact ⟨hst, .nil, rfl⟩
  | cons a l ih =>
    rw [mapState_cons] at hst ⊢
    obtain ⟨hmid, hrest, hsum⟩ := ih _ (fun st a ha => h st a (List.mem_cons_of_mem _ ha)) hst
    obtain ⟨hI, hR, hone⟩ := h st a List.mem_cons_self hmid
    refine ⟨hI, .cons hR hrest, ?_⟩
    rw [List.map_cons, List.sum_cons, List.map_cons, List.sum_cons, add_left_comm, hsum,
      add_left_comm, ← add_assoc, hone, add_assoc]

end MapState

/-! ## Lists that correspond -/

theorem exists_of_forall₂ {α β : Type*} {R : α → β → Prop} {l : List α} {l' : List β}
    (h : List.Forall₂ R l l') {b : β} (hb : b ∈ l') : ∃ a ∈ l, R a b := by
  induction h with
  | nil => cases hb
  | cons hR _ ih =>
    rcases List.mem_cons.1 hb with rfl | hb
    · exact ⟨_, List.mem_cons_self, hR⟩
    · obtain ⟨a, ha, hab⟩ := ih hb
      exact ⟨a, List.mem_cons_of_mem _ ha, hab⟩

theorem forall₂_trans {α β γ : Type*} {R : α → β → Prop} {S : β → γ → Prop} {T : α → γ → Prop}
    (hRST : ∀ a b c, R a b → S b c → T a c) {l : List α} {l' : List β} {l'' : List γ}
    (h : List.Forall₂ R l l') (h' : List.Forall₂ S l' l'') : List.Forall₂ T l l'' := by
  induction h generalizing l'' with
  | nil =>
    cases h'
    exact .nil
  | cons hR _ ih =>
    cases h' with
    | cons hS h' => exact .cons (hRST _ _ _ hR hS) (ih h')

theorem map_eq_of_forall₂ {α β γ : Type*} {R : α → β → Prop} {v : α → γ} {w : β → γ}
    (hR : ∀ a b, R a b → v a = w b) {l : List α} {l' : List β} (h : List.Forall₂ R l l') :
    l.map v = l'.map w := by
  induction h with
  | nil => rfl
  | cons hab _ ih => rw [List.map_cons, List.map_cons, hR _ _ hab, ih]

theorem sum_le_of_forall₂ {α β : Type*} {R : α → β → Prop} {v : α → Int} {w : β → Int}
    (hR : ∀ a b, R a b → w b ≤ v a) {l : List α} {l' : List β} (h : List.Forall₂ R l l') :
    (l'.map w).sum ≤ (l.map v).sum := by
  induction h with
  | nil => exact Int.le_refl _
  | cons hab _ ih =>
    rw [List.map_cons, List.sum_cons, List.map_cons, List.sum_cons]
    exact Int.add_le_add (hR _ _ hab) ih

theorem sum_map_mk {α M N : Type*} [AddCommMonoid M] [AddCommMonoid N] (f : α → M) (g : α → N)
    (l : List α) : (l.map fun a => (f a, g a)).sum = ((l.map f).sum, (l.map g).sum) := by
  induction l with
  | nil => rfl
  | cons a l ih =>
    rw [List.map_cons, List.sum_cons, ih]
    rfl

/-- A sum over the elements of a list, key by key. -/
theorem sum_by_key {α κ M : Type*} [DecidableEq κ] [AddCommMonoid M] (key : α → κ) (w : α → M)
    (l : List α) :
    ∑ k ∈ (l.map key).toFinset, ((l.filter (key · = k)).map w).sum = (l.map w).sum := by
  have hperm := flatMap_filter_key_perm key (l.map key).nodup_dedup l
  have hall : l.filter (key · ∈ (l.map key).dedup) = l :=
    List.filter_eq_self.2 fun a ha => decide_eq_true (List.mem_dedup.2 (List.mem_map_of_mem ha))
  have hkeys : (l.map key).toFinset = (l.map key).dedup.toFinset := by
    ext k
    rw [List.mem_toFinset, List.mem_toFinset, List.mem_dedup]
  have hsum : ∀ ks : List κ, ((ks.flatMap fun k => l.filter (key · = k)).map w).sum =
      (ks.map fun k => ((l.filter (key · = k)).map w).sum).sum := by
    intro ks
    induction ks with
    | nil => rfl
    | cons k ks ih =>
      rw [List.flatMap_cons, List.map_append, List.sum_append, ih, List.map_cons, List.sum_cons]
  rw [hall] at hperm
  rw [hkeys, List.sum_toFinset _ (List.nodup_dedup _), ← hsum, (hperm.map w).sum_eq]

end Fleetboard

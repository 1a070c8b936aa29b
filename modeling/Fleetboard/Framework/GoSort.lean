import Mathlib.Data.List.Sort
import Mathlib.Order.Lattice

/-!
# Sorting by a key

Go's `sort.Sort` leaves the elements in an order without inversions and says
nothing about equal ones. `KeySort` is one such sort: a function on lists whose
results are permutations of its arguments and sorted by the key. A stable one
(`KeySort.Stable`) keeps elements with equal keys in their order, as the
insertion sort does that `sort.Sort` runs on at most twelve elements.

* `forall_run_eq_iff`: every sort gives the list `r` exactly when its keys are
  strictly increasing;
* `Stable.run_eq_iff`: a stable sort gives `r` exactly when its keys are
  increasing and its ties are as in the argument.
-/

namespace Fleetboard

variable {α κ : Type*} [LinearOrder κ]

/-- A sort by a key. -/
structure KeySort (key : α → κ) where
  run : List α → List α
  perm : ∀ l, (run l).Perm l
  sorted : ∀ l, (run l).Pairwise fun a b => key a ≤ key b

namespace KeySort

variable {key : α → κ}

theorem mem_run (s : KeySort key) {l : List α} {a : α} : a ∈ s.run l ↔ a ∈ l :=
  (s.perm l).mem_iff

theorem length_run (s : KeySort key) (l : List α) : (s.run l).length = l.length :=
  (s.perm l).length_eq

/-- Elements in order stay in order. -/
def Stable (s : KeySort key) : Prop :=
  ∀ l a b, key a ≤ key b → [a, b].Sublist l → [a, b].Sublist (s.run l)

instance : Std.Total fun a b : α => key a ≤ key b := ⟨fun _ _ => le_total _ _⟩

instance : IsTrans α fun a b => key a ≤ key b := ⟨fun _ _ _ => le_trans⟩

/-- The insertion sort. -/
def insertion (key : α → κ) : KeySort key where
  run := List.insertionSort fun a b => key a ≤ key b
  perm := List.perm_insertionSort _
  sorted := List.pairwise_insertionSort _

theorem insertion_stable (key : α → κ) : (insertion key).Stable := fun _ _ _ hab h =>
  List.pair_sublist_insertionSort (r := fun a b => key a ≤ key b) hab h

/-- The sort that leaves equal elements in the reverse order. -/
def reversing (key : α → κ) : KeySort key where
  run l := (insertion key).run l.reverse
  perm l := ((insertion key).perm l.reverse).trans l.reverse_perm
  sorted l := (insertion key).sorted l.reverse

/-! ## Which list a sort gives -/

/-- In the order of the keys, and where these are equal in that of the list. -/
def KeyThenPosition (key : α → κ) (l : List α) (a b : α) : Prop :=
  key a < key b ∨ key a = key b ∧ [a, b].Sublist l

omit [LinearOrder κ] in
theorem sublist_or_sublist_of_mem {l : List α} {a b : α} (ha : a ∈ l) (hb : b ∈ l) (hab : a ≠ b) :
    [a, b].Sublist l ∨ [b, a].Sublist l := by
  induction l with
  | nil => exact absurd ha List.not_mem_nil
  | cons x l ih =>
    rcases List.mem_cons.mp ha with rfl | ha'
    · have hb' := (List.mem_cons.mp hb).resolve_left (Ne.symm hab)
      exact .inl ((List.singleton_sublist.mpr hb').cons_cons a)
    · rcases List.mem_cons.mp hb with rfl | hb'
      · exact .inr ((List.singleton_sublist.mpr ha').cons_cons b)
      · exact (ih ha' hb').imp (·.cons x) (·.cons x)

omit [LinearOrder κ] in
theorem not_sublist_swap {l : List α} {a b : α} (hl : l.Nodup) (hab : [a, b].Sublist l) :
    ¬ [b, a].Sublist l := by
  induction l with
  | nil => exact fun h => by cases h
  | cons x l ih =>
    obtain ⟨hx, hl'⟩ := List.nodup_cons.mp hl
    intro hba
    have hmem : ∀ {c d : α}, [c, d].Sublist (x :: l) → d ∈ l := by
      intro c d hcd
      cases hcd with
      | cons _ h => exact h.mem (List.mem_cons_of_mem _ List.mem_cons_self)
      | cons_cons _ h => exact List.singleton_sublist.mp h
    cases hab with
    | cons _ hab =>
      cases hba with
      | cons _ hba => exact ih hl' hab hba
      | cons_cons _ _ => exact hx (hab.mem (List.mem_cons_of_mem _ List.mem_cons_self))
    | cons_cons _ _ => exact hx (hmem hba)

/-- A stable sort orders by key and position. -/
theorem Stable.pairwise_run {s : KeySort key} (hs : s.Stable) {l : List α} (hl : l.Nodup) :
    (s.run l).Pairwise (KeyThenPosition key l) := by
  have hnodup : (s.run l).Nodup := (s.perm l).nodup_iff.mpr hl
  rw [List.pairwise_iff_forall_sublist]
  intro a b hab
  have hle := List.pairwise_iff_forall_sublist.mp (s.sorted l) hab
  have hne : a ≠ b := by
    rintro rfl
    exact not_sublist_swap hnodup hab hab
  have hmem : ∀ {c}, c ∈ [a, b] → c ∈ l := fun hc => s.mem_run.mp (hab.mem hc)
  rcases hle.lt_or_eq with hlt | heq
  · exact .inl hlt
  · refine .inr ⟨heq, (sublist_or_sublist_of_mem (hmem (by simp)) (hmem (by simp)) hne).resolve_right
      fun hba => ?_⟩
    exact not_sublist_swap hnodup hab (hs l b a heq.ge hba)

theorem Stable.run_eq_iff {s : KeySort key} (hs : s.Stable) {l r : List α} (hl : l.Nodup)
    (hr : r.Perm l) : s.run l = r ↔ r.Pairwise (KeyThenPosition key l) := by
  refine ⟨fun h => h ▸ hs.pairwise_run hl, fun h => ?_⟩
  refine List.Perm.eq_of_pairwise ?_ (hs.pairwise_run hl) h ((s.perm l).trans hr.symm)
  rintro a b - - (hab | ⟨heq, hab⟩) (hba | ⟨heq', hba⟩)
  · exact absurd hab hba.asymm
  · exact absurd heq' hab.ne'
  · exact absurd heq hba.ne'
  · exact absurd hba (not_sublist_swap hl hab)

/-- A list with strictly increasing keys is what every sort gives. -/
theorem run_eq_of_strict (s : KeySort key) {l r : List α} (hr : r.Perm l)
    (h : r.Pairwise fun a b => key a < key b) : s.run l = r := by
  refine List.Perm.eq_of_pairwise ?_ (s.sorted l) (h.imp le_of_lt) ((s.perm l).trans hr.symm)
  intro a b ha hb hab hba
  by_contra hne
  have ha' : a ∈ r := hr.mem_iff.mpr (s.mem_run.mp ha)
  rcases sublist_or_sublist_of_mem ha' hb hne with hsub | hsub
  · exact absurd hba (List.pairwise_iff_forall_sublist.mp h hsub).not_ge
  · exact absurd hab (List.pairwise_iff_forall_sublist.mp h hsub).not_ge

theorem forall_run_eq_iff {l r : List α} (hl : l.Nodup) (hr : r.Perm l) :
    (∀ s : KeySort key, s.run l = r) ↔ r.Pairwise fun a b => key a < key b := by
  refine ⟨fun h => ?_, fun h s => s.run_eq_of_strict hr h⟩
  -- The two sorts that treat ties in opposite ways agree, so there are none.
  have hl' : l.reverse.Nodup := List.nodup_reverse.mpr hl
  have h₁ : r.Pairwise (KeyThenPosition key l) :=
    ((insertion_stable key).run_eq_iff hl hr).mp (h (insertion key))
  have h₂ : r.Pairwise (KeyThenPosition key l.reverse) :=
    ((insertion_stable key).run_eq_iff hl' (hr.trans l.reverse_perm.symm)).mp (h (reversing key))
  refine (h₁.and h₂).imp ?_
  rintro a b ⟨hab | ⟨-, hab⟩, hab' | ⟨-, hab'⟩⟩
  · exact hab
  · exact hab
  · exact hab'
  · have hba : [b, a].Sublist l := by simpa using hab'.reverse
    exact absurd hba (not_sublist_swap hl hab)

end KeySort

end Fleetboard

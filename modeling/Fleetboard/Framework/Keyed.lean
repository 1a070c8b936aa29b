import Mathlib.Data.List.Forall2
import Mathlib.Data.List.Perm.Basic
import Fleetboard.Framework.GoMap

/-!
# Objects with keys

A store is a list of objects with distinct names. `replaceNamed` and `removeNamed` act on the
object of a name, and a whole list of replacements or removals does what it should to the store
up to its order (`foldl_replaceNamed_perm`, `foldl_removeNamed_perm`).

`Placed key same all placed rest` is the account of a map `all` of objects by their keys that are
being placed somewhere else: each has been placed once, as an object with its key that is the
same, or is among the `rest`. Nothing is lost or placed twice when an object is placed
(`Placed.place`), and when nothing is left, `placed` is `all` up to the order and `same`
(`Placed.exists_forall₂`).
-/

namespace Fleetboard

variable {α κ : Type*}

/-- Objects whose keys are some keys in another order can be put into the order of these. -/
theorem exists_perm_map_eq {key : α → κ} {l : List α} {ks : List κ} (h : (l.map key).Perm ks) :
    ∃ l' : List α, l'.Perm l ∧ l'.map key = ks := by
  induction ks generalizing l with
  | nil =>
    refine ⟨[], ?_, rfl⟩
    rw [List.map_eq_nil_iff.mp h.eq_nil]
  | cons k ks ih =>
    obtain ⟨a, ha, rfl⟩ := List.mem_map.mp (h.mem_iff.mpr List.mem_cons_self)
    obtain ⟨s, t, rfl⟩ := List.append_of_mem ha
    have hst : ((s ++ t).map key).Perm ks := by
      have := (List.perm_middle.map key).symm.trans h
      exact this.cons_inv
    obtain ⟨l', hl', hks⟩ := ih hst
    refine ⟨a :: l', ?_, by rw [List.map_cons, hks]⟩
    exact (hl'.cons a).trans List.perm_middle.symm

/-- Three parts of each group, or three parts of all groups. -/
theorem flatMap_append₃_perm {β : Type*} (l : List β) (f g k : β → List α) :
    (l.flatMap f ++ l.flatMap g ++ l.flatMap k).Perm (l.flatMap fun b => f b ++ g b ++ k b) :=
  ((List.flatMap_append_perm l f g).append_right _).trans (List.flatMap_append_perm l _ k)

/-- The objects with one of some keys, group by group. -/
theorem flatMap_filter_key_perm [DecidableEq κ] (key : α → κ) {ks : List κ} (hks : ks.Nodup)
    (l : List α) :
    (ks.flatMap fun k => l.filter (key · = k)).Perm (l.filter (key · ∈ ks)) := by
  induction ks with
  | nil => simp
  | cons k ks ih =>
    obtain ⟨hk, hks⟩ := List.nodup_cons.mp hks
    rw [List.flatMap_cons]
    refine ((ih hks).append_left _).trans ?_
    refine List.Perm.trans ?_ (List.filter_append_perm (key · = k) (l.filter (key · ∈ k :: ks)))
    rw [List.filter_filter, List.filter_filter]
    refine .of_eq (congrArg₂ _ (List.filter_congr fun a _ => ?_) (List.filter_congr fun a _ => ?_))
    · by_cases ha : key a = k
      · simp [ha]
      · simp [ha]
    · by_cases ha : key a = k
      · simp [ha, hk]
      · simp [ha]

/-- The objects of one group among those of all groups. -/
theorem filter_flatMap_key [DecidableEq κ] {β : Type*} (key : α → κ) {tag : β → κ} {l : List β}
    (hl : (l.map tag).Nodup) {f : β → List α} (hf : ∀ b ∈ l, ∀ a ∈ f b, key a = tag b) {b : β}
    (hb : b ∈ l) : (l.flatMap f).filter (key · = tag b) = f b := by
  induction l with
  | nil => cases hb
  | cons b' l ih =>
    obtain ⟨hnot, hl⟩ := List.nodup_cons.mp hl
    obtain ⟨hfirst, hrest⟩ := List.forall_mem_cons.mp hf
    rw [List.flatMap_cons, List.filter_append]
    rcases List.mem_cons.mp hb with rfl | hb
    · have hall : (f b).filter (key · = tag b) = f b :=
        List.filter_eq_self.mpr fun a ha => decide_eq_true (hfirst a ha)
      have hnone : (l.flatMap f).filter (key · = tag b) = [] := by
        refine List.filter_eq_nil_iff.mpr fun a ha hkey => hnot ?_
        obtain ⟨b', hb', ha⟩ := List.mem_flatMap.mp ha
        exact List.mem_map.mpr ⟨b', hb', (hrest b' hb' a ha).symm.trans (of_decide_eq_true hkey)⟩
      rw [hall, hnone, List.append_nil]
    · have hnone : (f b').filter (key · = tag b) = [] := by
        refine List.filter_eq_nil_iff.mpr fun a ha hkey => hnot ?_
        exact List.mem_map.mpr ⟨b, hb, (of_decide_eq_true hkey).symm.trans (hfirst a ha)⟩
      rw [hnone, List.nil_append]
      exact ih hl hrest hb

/-- Objects of a list with distinct names are known by their names. -/
theorem eq_of_map_eq_map {name : α → κ} {l xs ys : List α} (hl : (l.map name).Nodup)
    (hxs : ∀ x ∈ xs, x ∈ l) (hys : ∀ y ∈ ys, y ∈ l) (h : xs.map name = ys.map name) : xs = ys := by
  induction xs generalizing ys with
  | nil =>
    rw [List.map_nil, eq_comm, List.map_eq_nil_iff] at h
    exact h.symm
  | cons x xs ih =>
    obtain ⟨y, ys, rfl, hname, h⟩ := List.map_eq_cons_iff.mp h.symm
    obtain ⟨hx, hxs⟩ := List.forall_mem_cons.mp hxs
    obtain ⟨hy, hys⟩ := List.forall_mem_cons.mp hys
    rw [List.inj_on_of_nodup_map hl hy hx hname, ih hxs hys h.symm]

section Named

variable [DecidableEq κ] (name : α → κ)

/-- The object of a name is replaced. -/
def replaceNamed (l : List α) (x : α) : List α := l.map fun y => if name y = name x then x else y

/-- The object of a name is removed. -/
def removeNamed (l : List α) (k : κ) : List α := l.filter fun y => name y ≠ k

variable {name} {l rest olds xs : List α}

theorem map_replaceNamed (l : List α) (x : α) : (replaceNamed name l x).map name = l.map name := by
  rw [replaceNamed, List.map_map]
  refine List.map_congr_left fun y _ => ?_
  show name (if name y = name x then x else y) = name y
  split_ifs with h
  · exact h.symm
  · rfl

theorem replaceNamed_perm {old x : α} (hl : l.Perm (old :: rest)) (hnodup : (l.map name).Nodup)
    (hname : name old = name x) : (replaceNamed name l x).Perm (x :: rest) := by
  have hne : name old ∉ rest.map name :=
    (List.nodup_cons.mp ((hl.map name).nodup_iff.mp hnodup)).1
  refine (hl.map _).trans ?_
  rw [List.map_cons, if_pos hname]
  refine .of_eq (congrArg (x :: ·) ?_)
  refine (List.map_congr_left fun y hy => ?_).trans (List.map_id rest)
  refine if_neg fun heq => hne ?_
  rw [hname, ← heq]
  exact List.mem_map_of_mem hy

theorem foldl_replaceNamed_perm (hl : l.Perm (olds ++ rest)) (hnodup : (l.map name).Nodup)
    (hnames : olds.map name = xs.map name) :
    (xs.foldl (replaceNamed name) l).Perm (xs ++ rest) := by
  induction xs generalizing l olds rest with
  | nil =>
    rw [List.map_nil, List.map_eq_nil_iff] at hnames
    subst hnames
    exact hl
  | cons x xs ih =>
    obtain ⟨old, olds, rfl, hname, hnames⟩ := List.map_eq_cons_iff.mp hnames
    have hreplaced := replaceNamed_perm hl hnodup hname
    have hnodup' : ((replaceNamed name l x).map name).Nodup := by rwa [map_replaceNamed]
    have hrest := ih (hreplaced.trans List.perm_middle.symm) hnodup' hnames
    exact hrest.trans List.perm_middle

theorem removeNamed_perm {old : α} (hl : l.Perm (old :: rest)) (hnodup : (l.map name).Nodup) :
    (removeNamed name l (name old)).Perm rest := by
  have hne : name old ∉ rest.map name :=
    (List.nodup_cons.mp ((hl.map name).nodup_iff.mp hnodup)).1
  refine (hl.filter _).trans (.of_eq ?_)
  rw [List.filter_cons_of_neg (by simp), List.filter_eq_self]
  intro y hy
  rw [decide_eq_true_eq]
  intro heq
  exact hne (heq ▸ List.mem_map_of_mem hy)

theorem foldl_removeNamed_perm (hl : l.Perm (olds ++ rest)) (hnodup : (l.map name).Nodup) :
    ((olds.map name).foldl (removeNamed name) l).Perm rest := by
  induction olds generalizing l with
  | nil => exact hl
  | cons old olds ih =>
    have hsub : ((removeNamed name l (name old)).map name).Sublist (l.map name) :=
      List.filter_sublist.map name
    exact ih (removeNamed_perm hl hnodup) (hsub.nodup hnodup)

end Named

/-! ## Placing objects -/

/-- Each object of `all` is placed once, as one that is the same, or is among the `rest`. -/
structure Placed [DecidableEq κ] (key : α → κ) (same : α → α → Prop) (all : GoMap κ α)
    (placed : List α) (rest : GoMap κ α) : Prop where
  perm : (placed.map key ++ rest.keys).Perm all.keys
  same : ∀ e ∈ placed, ∃ d, all.lookup (key e) = some d ∧ same d e
  rest : ∀ {k d}, rest.lookup k = some d → all.lookup k = some d

namespace Placed

variable [DecidableEq κ] {key : α → κ} {same : α → α → Prop} {all rest : GoMap κ α}
  {placed placed' : List α}

theorem start : Placed key same all [] all where
  perm := .refl _
  same := List.forall_mem_nil _
  rest h := h

/-- An object of the rest is placed. -/
theorem place (h : Placed key same all placed rest) {e d : α}
    (hd : rest.lookup (key e) = some d) (hsame : same d e) :
    Placed key same all (e :: placed) (rest.erase (key e)) where
  perm := by
    have hmem : key e ∈ rest.keys := AList.lookup_isSome.mp (by rw [hd]; rfl)
    rw [AList.keys_erase, List.map_cons, List.cons_append]
    refine List.Perm.trans ?_ h.perm
    refine List.perm_middle.symm.trans ?_
    exact (List.perm_cons_erase hmem).symm.append_left _
  same := List.forall_mem_cons.mpr ⟨⟨d, h.rest hd, hsame⟩, h.same⟩
  rest {k d'} hk := by
    rw [GoMap.lookup_erase_eq] at hk
    split_ifs at hk
    exact h.rest hk

theorem of_perm (h : Placed key same all placed rest) (hp : placed.Perm placed') :
    Placed key same all placed' rest where
  perm := (((hp.map key).symm).append_right _).trans h.perm
  same e he := h.same e (hp.mem_iff.mpr he)
  rest := h.rest

/-- A change of the placed objects that leaves them the same. -/
theorem map_iff {f : α → α} (hkey : ∀ e, key (f e) = key e) (hsame : ∀ d e, same d (f e) ↔ same d e) :
    Placed key same all (placed.map f) rest ↔ Placed key same all placed rest := by
  have hmap : (placed.map f).map key = placed.map key := by
    rw [List.map_map]
    exact List.map_congr_left fun e _ => hkey e
  constructor
  · intro h
    refine ⟨?_, fun e he => ?_, h.rest⟩
    · rw [← hmap]
      exact h.perm
    · obtain ⟨d, hd, hde⟩ := h.same (f e) (List.mem_map_of_mem he)
      rw [hkey] at hd
      exact ⟨d, hd, (hsame d e).mp hde⟩
  · intro h
    refine ⟨?_, fun e' he' => ?_, h.rest⟩
    · rw [hmap]
      exact h.perm
    · obtain ⟨e, he, rfl⟩ := List.mem_map.mp he'
      obtain ⟨d, hd, hde⟩ := h.same e he
      exact ⟨d, by rwa [hkey], (hsame d e).mpr hde⟩

/-- The first of the placed objects, and the account of the others. -/
theorem uncons {e : α} (h : Placed key same all (e :: placed) ∅) :
    ∃ d, all.lookup (key e) = some d ∧ same d e ∧
      Placed key same (all.erase (key e)) placed ∅ := by
  obtain ⟨d, hd, hsame⟩ := h.same e List.mem_cons_self
  have hkeys : (key e :: placed.map key).Perm all.keys := by
    have := h.perm
    rwa [AList.keys_empty, List.append_nil] at this
  have hnot : key e ∉ placed.map key :=
    (List.nodup_cons.mp (hkeys.nodup_iff.mpr all.keys_nodup)).1
  refine ⟨d, hd, hsame, ?_, fun e' he' => ?_, fun {k d'} hk => ?_⟩
  · rw [AList.keys_empty, List.append_nil, AList.keys_erase]
    have := hkeys.erase (key e)
    rwa [List.erase_cons_head] at this
  · obtain ⟨d', hd', hsame'⟩ := h.same e' (List.mem_cons_of_mem _ he')
    refine ⟨d', ?_, hsame'⟩
    rw [GoMap.lookup_erase_eq, if_neg, hd']
    intro heq
    exact hnot (heq ▸ List.mem_map_of_mem he')
  · cases hk

/-- When nothing is left, the placed objects are those of the map, up to their order. -/
theorem exists_forall₂ (h : Placed key same all placed ∅) {ds : List α}
    (hds : (ds.map key).Perm all.keys) :
    ∃ es, es.Perm placed ∧ List.Forall₂ (fun d e => key d = key e ∧
      ∃ d', all.lookup (key d) = some d' ∧ same d' e) ds es := by
  have hkeys : (placed.map key).Perm (ds.map key) := by
    have := h.perm
    rw [AList.keys_empty, List.append_nil] at this
    exact this.trans hds.symm
  obtain ⟨es, hes, hmap⟩ := exists_perm_map_eq hkeys
  refine ⟨es, hes, ?_⟩
  have hkey : List.Forall₂ (fun e d => key d = key e) es ds := by
    have heq : List.Forall₂ (fun k k' => k' = k) (es.map key) (ds.map key) := by
      rw [hmap]
      exact List.forall₂_same.mpr fun _ _ => rfl
    exact List.forall₂_map_left_iff.mp (List.forall₂_map_right_iff.mp heq)
  have hboth := (List.forall₂_and_left _ _).mpr
    ⟨fun e he => h.same e (hes.mem_iff.mp he), hkey⟩
  refine hboth.flip.imp ?_
  rintro d e ⟨hsame, hde⟩
  exact ⟨hde, hde ▸ hsame⟩

end Placed

end Fleetboard

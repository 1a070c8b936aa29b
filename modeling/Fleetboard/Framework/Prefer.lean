import Fleetboard.Framework.GoMap

/-!
# The first element, unless a later one is preferred

A loop over elements of which some are preferred keeps the first one and replaces it
by every preferred one: it ends with the last preferred element, or with the first
element when none is preferred (`pick`).

* `pick_append`, `pick_flatMap`: the loop over a list of lists is the loop over what
  it picks of each;
* `Agree.pick_eq_of_perm`: where the elements that can decide agree, the order does not
  matter;
* `forall_order_pick_iff`: in a `range` over a map, it does not matter only then.
-/

namespace Fleetboard.Prefer

variable {α β : Type*} (pref : α → Bool)

/-- One round of the loop. -/
def choose (acc : Option α) (a : α) : Option α := if acc.isNone ∨ pref a then some a else acc

def pick (l : List α) : Option α := l.foldl (choose pref) none

/-- What is picked of two lists one after the other. -/
def join (a : Option α) : Option α → Option α
  | none => a
  | some b => choose pref a b

/-! ## Lists one after the other -/

variable {pref}

theorem choose_none (a : α) : choose pref none a = some a := if_pos (.inl rfl)

theorem choose_pref (acc : Option α) {a : α} (h : pref a = true) : choose pref acc a = some a :=
  if_pos (.inr h)

theorem choose_some {a b : α} (h : pref b = false) : choose pref (some a) b = some a := by
  rw [choose, if_neg]
  simp [h]

theorem choose_ne_none (acc : Option α) (a : α) : choose pref acc a ≠ none := by
  unfold choose
  split
  · exact Option.some_ne_none a
  · rename_i h
    intro hnone
    exact h (.inl (by rw [hnone]; rfl))

/-- A list taken up after a choice. -/
theorem foldl_choose (acc : Option α) (l : List α) :
    l.foldl (choose pref) acc = join pref acc (pick pref l) := by
  induction l generalizing acc with
  | nil => rfl
  | cons a l ih =>
    have hcons : pick pref (a :: l) = join pref (some a) (pick pref l) := by
      rw [pick, List.foldl_cons, ih, choose_none]
    rw [List.foldl_cons, ih, hcons]
    cases pick pref l with
    | none => rfl
    | some b =>
      show choose pref (choose pref acc a) b = join pref acc (choose pref (some a) b)
      cases hb : pref b with
      | true =>
        rw [choose_pref _ hb, choose_pref _ hb]
        exact (choose_pref acc hb).symm
      | false =>
        have hne : choose pref acc a ≠ none := choose_ne_none acc a
        obtain ⟨c, hc⟩ := Option.ne_none_iff_exists'.mp hne
        rw [choose_some hb, hc, choose_some hb]
        exact hc.symm

theorem pick_append (l₁ l₂ : List α) :
    pick pref (l₁ ++ l₂) = join pref (pick pref l₁) (pick pref l₂) := by
  rw [pick, List.foldl_append, foldl_choose]
  rfl

theorem pick_cons (a : α) (l : List α) : pick pref (a :: l) = join pref (some a) (pick pref l) := by
  rw [pick, List.foldl_cons, foldl_choose, choose_none]

/-- The loop over a list of lists picks from what it picks of each. -/
theorem pick_flatMap (f : β → List α) (l : List β) :
    pick pref (l.flatMap f) = pick pref (l.filterMap fun b => pick pref (f b)) := by
  induction l with
  | nil => rfl
  | cons b l ih =>
    rw [List.flatMap_cons, pick_append, ih]
    cases hb : pick pref (f b) with
    | none =>
      have hcons : (b :: l).filterMap (fun b => pick pref (f b)) =
          l.filterMap fun b => pick pref (f b) := List.filterMap_cons_none hb
      rw [hcons]
      cases pick pref (l.filterMap fun b => pick pref (f b)) with
      | none => rfl
      | some c => exact choose_none c
    | some a =>
      have hcons : (b :: l).filterMap (fun b => pick pref (f b)) =
          a :: l.filterMap fun b => pick pref (f b) := List.filterMap_cons_some hb
      rw [hcons, pick_cons]

/-! ## What is picked -/

theorem pick_mem {l : List α} {a : α} (h : pick pref l = some a) : a ∈ l := by
  induction l generalizing a with
  | nil => cases h
  | cons b l ih =>
    rw [pick_cons] at h
    cases hl : pick pref l with
    | none =>
      rw [hl] at h
      cases h
      exact List.mem_cons_self
    | some c =>
      rw [hl, join] at h
      cases hc : pref c with
      | true =>
        rw [choose_pref _ hc] at h
        cases h
        exact List.mem_cons_of_mem _ (ih hl)
      | false =>
        rw [choose_some hc] at h
        cases h
        exact List.mem_cons_self

theorem pick_eq_none_iff {l : List α} : pick pref l = none ↔ l = [] := by
  cases l with
  | nil => exact ⟨fun _ => rfl, fun _ => rfl⟩
  | cons a l =>
    rw [pick_cons]
    refine ⟨fun h => ?_, fun h => by cases h⟩
    cases hl : pick pref l with
    | none => rw [hl] at h; cases h
    | some b => rw [hl] at h; exact absurd h (choose_ne_none _ _)

/-- A preferred element is picked if there is one. -/
theorem pref_of_pick {l : List α} {a b : α} (h : pick pref l = some a) (hb : b ∈ l)
    (hpref : pref b = true) : pref a = true := by
  induction l generalizing a with
  | nil => cases hb
  | cons c l ih =>
    rw [pick_cons] at h
    cases hl : pick pref l with
    | none =>
      obtain rfl := pick_eq_none_iff.mp hl
      rw [hl] at h
      cases h
      rwa [← List.mem_singleton.mp hb]
    | some d =>
      rw [hl, join] at h
      cases hd : pref d with
      | true =>
        rw [choose_pref _ hd] at h
        cases h
        exact hd
      | false =>
        rw [choose_some hd] at h
        cases h
        rcases List.mem_cons.mp hb with rfl | hb
        · exact hpref
        · rw [ih hl hb] at hd
          cases hd

/-- A list of one element only, perhaps several times. -/
theorem pick_of_forall_eq {l : List α} {a : α} (hne : l ≠ []) (h : ∀ b ∈ l, b = a) :
    pick pref l = some a := by
  obtain ⟨b, hb⟩ := Option.ne_none_iff_exists'.mp (mt pick_eq_none_iff.mp hne)
  rw [hb, h b (pick_mem hb)]

theorem pick_append_of_pref (l₁ : List α) {l₂ : List α} {a : α} (h : pick pref l₂ = some a)
    (hpref : pref a = true) : pick pref (l₁ ++ l₂) = some a := by
  rw [pick_append, h]
  exact choose_pref _ hpref

theorem pick_append_of_not_pref {l₁ l₂ : List α} {a : α} (h : pick pref l₁ = some a)
    (hno : ∀ b ∈ l₂, pref b = false) : pick pref (l₁ ++ l₂) = some a := by
  rw [pick_append, h]
  cases hl : pick pref l₂ with
  | none => rfl
  | some b => exact choose_some (hno b (pick_mem hl))

/-! ## Orders -/

/-- The elements that can decide are the same: the preferred ones, or all when none
is preferred. -/
structure Agree (pref : α → Bool) (l : List α) : Prop where
  preferred : ∀ a ∈ l, ∀ b ∈ l, pref a = true → pref b = true → a = b
  others : (∀ a ∈ l, pref a = false) → ∀ a ∈ l, ∀ b ∈ l, a = b

theorem Agree.pick_eq_of_perm {l l' : List α} (h : Agree pref l) (hperm : l.Perm l') :
    pick pref l = pick pref l' := by
  cases hl : pick pref l with
  | none =>
    obtain rfl := pick_eq_none_iff.mp hl
    rw [List.nil_perm.mp hperm]
    rfl
  | some a =>
    cases hl' : pick pref l' with
    | none =>
      obtain rfl := pick_eq_none_iff.mp hl'
      rw [List.perm_nil.mp hperm] at hl
      cases hl
    | some b =>
      have ha := pick_mem hl
      have hb := hperm.mem_iff.mpr (pick_mem hl')
      have heq : a = b := by
        by_cases hpref : ∃ c ∈ l, pref c = true
        · obtain ⟨c, hc, hpref⟩ := hpref
          exact h.preferred a ha b hb (pref_of_pick hl hc hpref)
            (pref_of_pick hl' (hperm.mem_iff.mp hc) hpref)
        · refine h.others (fun c hc => ?_) a ha b hb
          exact Bool.eq_false_iff.mpr fun hpref' => hpref ⟨c, hc, hpref'⟩
      rw [heq]

section

variable {es : List β} {f : β → Option α}

/-- What is picked when the elements behind `x` come last. -/
theorem pick_last {x : β} {a : α} [DecidableEq β] (hx : x ∈ es) (hf : f x = some a)
    (hpref : pref a = true) :
    pick pref (((RangeOrder.last fun y => decide (y = x)).visit es).filterMap f) = some a := by
  show pick pref ((es.filter _ ++ es.filter _).filterMap f) = some a
  rw [List.filterMap_append]
  refine pick_append_of_pref _ (pick_of_forall_eq ?_ fun b hb => ?_) hpref
  · refine List.ne_nil_of_mem (List.mem_filterMap.mpr ⟨x, ?_, hf⟩)
    exact List.mem_filter.mpr ⟨hx, decide_eq_true rfl⟩
  · obtain ⟨y, hy, hb⟩ := List.mem_filterMap.mp hb
    rw [of_decide_eq_true (List.mem_filter.mp hy).2, hf] at hb
    exact (Option.some.inj hb).symm

/-- What is picked when the elements behind `x` come first and none is preferred. -/
theorem pick_first {x : β} {a : α} [DecidableEq β] (hx : x ∈ es) (hf : f x = some a)
    (hno : ∀ b ∈ es.filterMap f, pref b = false) :
    pick pref (((RangeOrder.last fun y => decide (y ≠ x)).visit es).filterMap f) = some a := by
  show pick pref ((es.filter _ ++ es.filter _).filterMap f) = some a
  rw [List.filterMap_append]
  refine pick_append_of_not_pref (pick_of_forall_eq ?_ fun b hb => ?_) fun b hb => ?_
  · refine List.ne_nil_of_mem (List.mem_filterMap.mpr ⟨x, ?_, hf⟩)
    exact List.mem_filter.mpr ⟨hx, by simp⟩
  · obtain ⟨y, hy, hb⟩ := List.mem_filterMap.mp hb
    have hyx : y = x := by simpa using (List.mem_filter.mp hy).2
    rw [hyx, hf] at hb
    exact (Option.some.inj hb).symm
  · obtain ⟨y, hy, hb⟩ := List.mem_filterMap.mp hb
    exact hno b (List.mem_filterMap.mpr ⟨y, (List.mem_filter.mp hy).1, hb⟩)

/-- The order of a `range` does not matter exactly when the elements agree. -/
theorem forall_order_pick_iff [DecidableEq β] :
    (∀ order order' : RangeOrder β,
      pick pref ((order.visit es).filterMap f) = pick pref ((order'.visit es).filterMap f)) ↔
      Agree pref (es.filterMap f) := by
  constructor
  · intro h
    refine ⟨fun a ha b hb hpa hpb => ?_, fun hno a ha b hb => ?_⟩
    · obtain ⟨x, hx, hfx⟩ := List.mem_filterMap.mp ha
      obtain ⟨y, hy, hfy⟩ := List.mem_filterMap.mp hb
      have heq := h (RangeOrder.last fun z => decide (z = x)) (RangeOrder.last fun z => decide (z = y))
      rw [pick_last hx hfx hpa, pick_last hy hfy hpb] at heq
      exact Option.some.inj heq
    · obtain ⟨x, hx, hfx⟩ := List.mem_filterMap.mp ha
      obtain ⟨y, hy, hfy⟩ := List.mem_filterMap.mp hb
      have heq := h (RangeOrder.last fun z => decide (z ≠ x)) (RangeOrder.last fun z => decide (z ≠ y))
      rw [pick_first hx hfx hno, pick_first hy hfy hno] at heq
      exact Option.some.inj heq
  · intro h order order'
    have hperm : ∀ o : RangeOrder β, (es.filterMap f).Perm ((o.visit es).filterMap f) :=
      fun o => ((o.perm es).filterMap f).symm
    rw [← h.pick_eq_of_perm (hperm order), ← h.pick_eq_of_perm (hperm order')]

end

end Fleetboard.Prefer

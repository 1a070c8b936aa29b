import Mathlib

/-!
# Text in parts, with escapes

A text is divided into parts by a separator, and an escape makes the character after it
an ordinary one: an escaped separator does not divide.

* `split_intercalate`: parts in which every separator is escaped come back from the text
  that joins them;
* `plainFrom_map`, `map_intercalate`: a change of characters that leaves the separator and
  the escape alone leaves such a part one, and changes a text part by part.
-/

namespace Fleetboard.Escaped

theorem map_intercalate {α : Type*} {sep : α} {f : α → α} (hf : f sep = sep)
    (parts : List (List α)) :
    ([sep].intercalate parts).map f = [sep].intercalate (parts.map (List.map f)) := by
  induction parts with
  | nil => rfl
  | cons w parts ih =>
    cases parts with
    | nil => rw [List.intercalate_singleton, List.map_singleton, List.intercalate_singleton]
    | cons w' parts =>
      rw [List.intercalate_cons_cons, List.map_append, List.map_append, ih, List.map_singleton, hf]
      exact List.intercalate_cons_cons.symm

variable {α : Type*} [DecidableEq α] (sep esc : α)

/-- The parts of a text, with what is read of the first one in reverse; `escaped` says
that the next character stands behind an escape. -/
def splitFrom (escaped : Bool) (acc : List α) : List α → List (List α)
  | [] => [acc.reverse]
  | c :: l =>
    if escaped then splitFrom false (c :: acc) l
    else if c = sep then acc.reverse :: splitFrom false [] l
    else splitFrom (decide (c = esc)) (c :: acc) l

def split (l : List α) : List (List α) := splitFrom sep esc false [] l

/-- The text is one part: it has no separator that is not escaped, and its last escape
has a character behind it. -/
def plainFrom (escaped : Bool) : List α → Bool
  | [] => !escaped
  | c :: l =>
    if escaped then plainFrom false l
    else decide (c ≠ sep) && plainFrom (decide (c = esc)) l

variable {sep esc}

/-- A part is read to its end. -/
theorem splitFrom_append {w : List α} (rest : List α) : ∀ {escaped : Bool} {acc : List α},
    plainFrom sep esc escaped w = true →
      splitFrom sep esc escaped acc (w ++ rest) =
        splitFrom sep esc false (w.reverse ++ acc) rest := by
  induction w with
  | nil =>
    intro escaped acc h
    rw [(Bool.not_eq_true' escaped).mp h]
    rfl
  | cons c w ih =>
    intro escaped acc h
    rw [List.reverse_cons, List.append_assoc]
    cases escaped with
    | true => exact ih h
    | false =>
      obtain ⟨hc, hw⟩ := (Bool.and_eq_true _ _).mp h
      have hstep : splitFrom sep esc false acc (c :: (w ++ rest)) =
          splitFrom sep esc (decide (c = esc)) (c :: acc) (w ++ rest) :=
        if_neg (of_decide_eq_true hc)
      rw [List.cons_append, hstep]
      exact ih hw

theorem split_plain {w : List α} (h : plainFrom sep esc false w = true) :
    split sep esc w = [w] := by
  have hread : splitFrom sep esc false [] (w ++ []) =
      splitFrom sep esc false (w.reverse ++ []) [] := splitFrom_append [] h
  rw [List.append_nil, List.append_nil] at hread
  rw [split, hread]
  exact congrArg (fun part => [part]) w.reverse_reverse

theorem split_append_sep {w rest : List α} (h : plainFrom sep esc false w = true) :
    split sep esc (w ++ sep :: rest) = w :: split sep esc rest := by
  rw [split, splitFrom_append _ h, List.append_nil]
  have hstep : splitFrom sep esc false w.reverse (sep :: rest) =
      w.reverse.reverse :: splitFrom sep esc false [] rest := if_pos rfl
  rw [hstep, List.reverse_reverse, split]

/-- Splitting undoes joining. -/
theorem split_intercalate {parts : List (List α)} (hne : parts ≠ [])
    (h : ∀ w ∈ parts, plainFrom sep esc false w = true) :
    split sep esc ([sep].intercalate parts) = parts := by
  induction parts with
  | nil => exact absurd rfl hne
  | cons w parts ih =>
    have hw := h w List.mem_cons_self
    cases parts with
    | nil => rw [List.intercalate_singleton, split_plain hw]
    | cons w' parts =>
      rw [List.intercalate_cons_cons, List.append_assoc, List.singleton_append,
        split_append_sep hw,
        ih (List.cons_ne_nil _ _) fun v hv => h v (List.mem_cons_of_mem _ hv)]

theorem plainFrom_map {f : α → α} (hsep : ∀ c, f c = sep ↔ c = sep)
    (hesc : ∀ c, f c = esc ↔ c = esc) (w : List α) :
    ∀ escaped, plainFrom sep esc escaped (w.map f) = plainFrom sep esc escaped w := by
  induction w with
  | nil => exact fun _ => rfl
  | cons c w ih =>
    intro escaped
    simp only [List.map_cons, plainFrom, ih, ne_eq, hsep, hesc]

end Fleetboard.Escaped

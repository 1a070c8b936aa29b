import Mathlib

/-!
# Go functions that may panic

A Go function is a Lean function into `Go`: it returns, or it panics and takes
the process down. A result pair `(T, error)` is `Except Error T`, with the text
of the error; an `error` alone is `Option Error`.
-/

namespace Fleetboard

/-- The run-time panics of the modelled code. -/
inductive Panic
  | nilDereference
  | indexOutOfRange
  deriving DecidableEq, Repr

/-- The result of a Go call: a value, or a panic. -/
abbrev Go := Except Panic

/-- The text of an `error`. -/
abbrev Error := String

/-- What a handler of a work queue returns: the seconds after which to requeue
the item, and an error. -/
structure HandleResult where
  requeueAfter : Option Nat
  err : Option Error
  deriving DecidableEq, Repr

namespace HandleResult

/-- `return nil, nil`: the item is done. -/
def done : HandleResult := ⟨none, none⟩

/-- `return &failedPeriod, err`, after the two seconds of the tunnels. -/
def retry (err : Option Error) : HandleResult := ⟨some 2, err⟩

/-- `return &d, err`, after the one second of the services. -/
def retrySecond (err : Option Error) : HandleResult := ⟨some 1, err⟩

end HandleResult

namespace Go

/-- `*p`. -/
def deref {α : Type*} : Option α → Go α
  | some a => .ok a
  | none => .error .nilDereference

/-- `s[i]`. -/
def index {α : Type*} (s : List α) (i : Nat) : Go α :=
  match s[i]? with
  | some a => .ok a
  | none => .error .indexOutOfRange

/-- `s[lo:hi]`. -/
def slice {α : Type*} (s : List α) (lo hi : Int) : Go (List α) :=
  if 0 ≤ lo ∧ lo ≤ hi ∧ hi ≤ s.length then .ok ((s.take hi.toNat).drop lo.toNat)
  else .error .indexOutOfRange

theorem index_eq_ok {α : Type*} {s : List α} {i : Nat} {a : α} :
    index s i = .ok a ↔ s[i]? = some a := by
  unfold index
  cases s[i]? with
  | none => simp
  | some b => simp

theorem index_zero_eq_ok {α : Type*} {s : List α} {a : α} :
    index s 0 = .ok a ↔ ∃ rest, s = a :: rest := by
  rw [index_eq_ok, ← List.head?_eq_getElem?, List.head?_eq_some_iff]

theorem index_append {α : Type*} (front : List α) (a : α) (rest : List α) :
    index (front ++ a :: rest) front.length = .ok a := by
  rw [index_eq_ok, List.getElem?_append_right (le_refl _), Nat.sub_self]
  rfl

theorem bind_eq_ok {ε α β : Type} {x : Except ε α} {f : α → Except ε β} {b : β} :
    x >>= f = .ok b ↔ ∃ a, x = .ok a ∧ f a = .ok b := by
  cases x with
  | error p => simp [bind, Except.bind]
  | ok a => simp [bind, Except.bind]

theorem foldlM_cons_eq_ok {ε α σ : Type} {f : σ → α → Except ε σ} {a : α} {l : List α} {s s' : σ} :
    (a :: l).foldlM f s = Except.ok s' ↔ ∃ s₁, f s a = .ok s₁ ∧ l.foldlM f s₁ = .ok s' := by
  rw [List.foldlM_cons, bind_eq_ok]

/-- A loop whose rounds each add something to what the state has adds what its
rounds add. -/
theorem foldlM_accumulates {ε α σ ι : Type} {f : σ → α → Except ε σ} {I : σ → Prop}
    (Has : σ → ι → Prop) (Adds : α → ι → Prop) {l : List α} {s s' : σ}
    (h : l.foldlM f s = Except.ok s') (hs : I s)
    (hf : ∀ s a s', f s a = .ok s' → I s → I s' ∧ ∀ x, Has s' x ↔ Has s x ∨ Adds a x) :
    I s' ∧ ∀ x, Has s' x ↔ Has s x ∨ ∃ a ∈ l, Adds a x := by
  induction l generalizing s with
  | nil =>
    obtain rfl := Except.ok.inj h
    exact ⟨hs, fun x => by simp⟩
  | cons a l ih =>
    obtain ⟨s₁, h₁, h₂⟩ := foldlM_cons_eq_ok.mp h
    obtain ⟨hs₁, hx₁⟩ := hf s a s₁ h₁ hs
    obtain ⟨hs₂, hx₂⟩ := ih h₂ hs₁
    refine ⟨hs₂, fun x => ?_⟩
    rw [hx₂, hx₁, or_assoc]
    simp only [List.mem_cons, exists_eq_or_imp]

/-- A loop whose rounds act on a part of the state as `g` acts on it as `g` does. -/
theorem foldlM_part {ε α σ ρ : Type} {f : σ → α → Except ε σ} {r : σ → ρ} {g : ρ → α → ρ}
    (hf : ∀ s a s', f s a = .ok s' → r s' = g (r s) a) {l : List α} {s s' : σ}
    (h : l.foldlM f s = Except.ok s') : r s' = l.foldl g (r s) := by
  induction l generalizing s with
  | nil =>
    obtain rfl := Except.ok.inj h
    rfl
  | cons a l ih =>
    obtain ⟨s₁, h₁, h₂⟩ := foldlM_cons_eq_ok.mp h
    rw [ih h₂, hf s a s₁ h₁, List.foldl_cons]

/-- A loop whose rounds fail by their element alone, and with one error. -/
theorem foldlM_cases {ε α σ : Type} {f : σ → α → Except ε σ} {P : α → Prop} {e : ε}
    (hok : ∀ a, P a → ∀ s, ∃ s', f s a = .ok s') (herr : ∀ a, ¬ P a → ∀ s, f s a = .error e)
    (l : List α) (s : σ) :
    ((∀ a ∈ l, P a) → ∃ s', l.foldlM f s = Except.ok s') ∧
      ((∃ a ∈ l, ¬ P a) → l.foldlM f s = .error e) := by
  induction l generalizing s with
  | nil =>
    refine ⟨fun _ => ⟨s, rfl⟩, ?_⟩
    rintro ⟨a, ha, -⟩
    cases ha
  | cons a l ih =>
    by_cases ha : P a
    · obtain ⟨s₁, h₁⟩ := hok a ha s
      rw [List.foldlM_cons, h₁]
      refine ⟨fun h => (ih s₁).1 fun b hb => h b (List.mem_cons_of_mem _ hb), ?_⟩
      rintro ⟨b, hb, hno⟩
      rcases List.mem_cons.mp hb with rfl | hb
      · exact absurd ha hno
      · exact (ih s₁).2 ⟨b, hb, hno⟩
    · rw [List.foldlM_cons, herr a ha s]
      exact ⟨fun h => absurd (h a List.mem_cons_self) ha, fun _ => rfl⟩

/-- A loop whose rounds all return. -/
theorem mapM_eq_ok {ε α β : Type} {f : α → Except ε β} {g : α → β} {l : List α}
    (h : ∀ a ∈ l, f a = .ok (g a)) : l.mapM f = .ok (l.map g) := by
  induction l with
  | nil => rfl
  | cons a l ih =>
    rw [List.mapM_cons, h a List.mem_cons_self, ih fun b hb => h b (List.mem_cons_of_mem _ hb)]
    rfl

/-- The value of a call, or another one when it panics. -/
def getD {α : Type*} (x : Go α) (a : α) : α :=
  match x with
  | .ok b => b
  | .error _ => a

theorem eq_ok_getD {α : Type*} {x : Go α} (h : x.isOk = true) (a : α) : x = .ok (x.getD a) := by
  cases x with
  | error p => cases h
  | ok b => rfl

theorem eq_ok_getD_of_snd {α β : Type} {x : Go (α × β)} {b : β} (h : Prod.snd <$> x = .ok b)
    (a : α × β) : x = .ok ((x.getD a).1, b) := by
  cases x with
  | error p => cases h
  | ok c =>
    obtain rfl : c.2 = b := Except.ok.inj h
    rfl

end Go

end Fleetboard

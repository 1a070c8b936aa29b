import Mathlib.Data.List.Basic

/-!
# Runs of a step relation

A system is a step relation `step s e s'`: from `s` the event `e` may lead to
`s'`. `Runs step s es s'` chains the events `es` from `s` to `s'`.

* `Runs.append_iff`: a run of `es₁ ++ es₂` is a run of each, meeting in a
  state between;
* `Runs.invariant`: what one step keeps, every run keeps;
* `Runs.established`: what an event brings about and every step keeps;
* `Runs.simulates`: a run of a system whose steps another simulates is a run of that one;
* `Runs.mono`: a run of a narrower relation (the same steps under a guard) is
  a run;
* `Runs.reaching_iff_guarded`: when a guard decides at each step whether a
  property is kept, the runs that keep it throughout are the guarded ones.
-/

namespace Fleetboard

variable {S E : Type*}

/-- The runs of a step relation, event by event. -/
inductive Runs (step : S → E → S → Prop) : S → List E → S → Prop
  | nil (s : S) : Runs step s [] s
  | cons {s s₁ s₂ : S} {e : E} {es : List E} :
    step s e s₁ → Runs step s₁ es s₂ → Runs step s (e :: es) s₂

/-- The steps from a state and an event that meet a guard. -/
def Guarded (step : S → E → S → Prop) (G : S → E → Prop) (s : S) (e : E) (s' : S) : Prop :=
  step s e s' ∧ G s e

/-- The steps into a state with a property. -/
def Reaching (step : S → E → S → Prop) (I : S → Prop) (s : S) (_e : E) (s' : S) : Prop :=
  step s _e s' ∧ I s'

namespace Runs

variable {step : S → E → S → Prop}

theorem single {s s' : S} {e : E} (h : step s e s') : Runs step s [e] s' := cons h (nil s')

theorem append {s s₁ s₂ : S} {es₁ es₂ : List E} (h₁ : Runs step s es₁ s₁)
    (h₂ : Runs step s₁ es₂ s₂) : Runs step s (es₁ ++ es₂) s₂ := by
  induction h₁ with
  | nil _ => exact h₂
  | cons hs _ ih => exact cons hs (ih h₂)

theorem append_iff {s s₂ : S} {es₁ es₂ : List E} :
    Runs step s (es₁ ++ es₂) s₂ ↔ ∃ s₁, Runs step s es₁ s₁ ∧ Runs step s₁ es₂ s₂ := by
  refine ⟨fun h => ?_, fun ⟨_, h₁, h₂⟩ => h₁.append h₂⟩
  induction es₁ generalizing s with
  | nil => exact ⟨s, nil s, h⟩
  | cons e es ih =>
    cases h with
    | cons hs hr =>
      obtain ⟨s₁, h₁, h₂⟩ := ih hr
      exact ⟨s₁, cons hs h₁, h₂⟩

/-- A run of one event is a step. -/
theorem single_iff {s s' : S} {e : E} : Runs step s [e] s' ↔ step s e s' := by
  refine ⟨fun h => ?_, single⟩
  cases h with
  | cons hs hr => cases hr; exact hs

/-- A run with a last event ends in a step. -/
theorem concat_iff {s s₂ : S} {es : List E} {e : E} :
    Runs step s (es ++ [e]) s₂ ↔ ∃ s₁, Runs step s es s₁ ∧ step s₁ e s₂ := by
  simp only [append_iff, single_iff]

/-- What one step keeps, every run keeps. -/
theorem invariant {I : S → Prop} (hstep : ∀ {s e s'}, I s → step s e s' → I s')
    {s s' : S} {es : List E} (h : Runs step s es s') (hs : I s) : I s' := by
  induction h with
  | nil _ => exact hs
  | cons he _ ih => exact ih (hstep hs he)

/-- What one step keeps under a condition on its event, every run of such
events keeps. -/
theorem invariant_mem {I : S → Prop} {P : E → Prop}
    (hstep : ∀ {s e s'}, P e → I s → step s e s' → I s') {s s' : S} {es : List E}
    (hP : ∀ e ∈ es, P e) (h : Runs step s es s') (hs : I s) : I s' := by
  induction h with
  | nil _ => exact hs
  | cons he _ ih =>
    exact ih (fun e h => hP e (List.mem_cons_of_mem _ h)) (hstep (hP _ List.mem_cons_self) hs he)

/-- What an event brings about, from a state with an invariant, and every step keeps, holds at
the end of a run with that event. -/
theorem established {I J : S → Prop} {e : E} (hJ : ∀ {s e s'}, J s → step s e s' → J s')
    (he : ∀ {s s'}, J s → step s e s' → I s') (hI : ∀ {s e s'}, I s → step s e s' → I s')
    {s s' : S} {es : List E} (h : Runs step s es s') (hs : J s) (hmem : e ∈ es) : I s' := by
  obtain ⟨before, after, rfl⟩ := List.append_of_mem hmem
  obtain ⟨s₁, hbefore, hrest⟩ := append_iff.mp h
  cases hrest with
  | cons hstep hafter =>
    have hs₁ := invariant (I := J) hJ hbefore hs
    exact invariant (I := I) hI hafter (he hs₁ hstep)

/-- Where each step, from a state with an invariant, is a step of another system, each run is a
run of that system. -/
theorem simulates {S' E' : Type*} {step' : S' → E' → S' → Prop} {I : S → Prop} (f : S → S')
    (g : E → E') (hI : ∀ {s e s'}, I s → step s e s' → I s')
    (hstep : ∀ {s e s'}, I s → step s e s' → step' (f s) (g e) (f s')) {s s' : S} {es : List E}
    (h : Runs step s es s') (hs : I s) : Runs step' (f s) (es.map g) (f s') := by
  induction h with
  | nil s => exact nil (f s)
  | cons he _ ih => exact cons (hstep hs he) (ih (hI hs he))

theorem mono {step' : S → E → S → Prop} (hle : ∀ {s e s'}, step s e s' → step' s e s')
    {s s' : S} {es : List E} (h : Runs step s es s') : Runs step' s es s' := by
  induction h with
  | nil s => exact nil s
  | cons he _ ih => exact cons (hle he) ih

/-- Where a guard decides at each step whether `I` is kept, given an invariant
`J` of the steps with events in `P`, the runs all of whose states have `I` are
the runs all of whose steps meet the guard. -/
theorem reaching_iff_guarded {I J : S → Prop} {P : E → Prop} {G : S → E → Prop}
    (hJ : ∀ {s e s'}, P e → J s → step s e s' → J s')
    (hG : ∀ {s e s'}, P e → J s → I s → step s e s' → (I s' ↔ G s e))
    {s s' : S} {es : List E} (hP : ∀ e ∈ es, P e) (hs : J s) (hI : I s) :
    Runs (Reaching step I) s es s' ↔ Runs (Guarded step G) s es s' := by
  induction es generalizing s with
  | nil =>
    constructor <;> intro h <;> cases h <;> exact nil _
  | cons e es ih =>
    have he := hP e List.mem_cons_self
    have hP' : ∀ e ∈ es, P e := fun e h => hP e (List.mem_cons_of_mem _ h)
    constructor
    · intro h
      cases h with
      | cons h₁ h₂ =>
        exact cons ⟨h₁.1, (hG he hs hI h₁.1).mp h₁.2⟩ ((ih hP' (hJ he hs h₁.1) h₁.2).mp h₂)
    · intro h
      cases h with
      | cons h₁ h₂ =>
        have hI' := (hG he hs hI h₁.1).mpr h₁.2
        exact cons ⟨h₁.1, hI'⟩ ((ih hP' (hJ he hs h₁.1) hI').mpr h₂)

end Runs

end Fleetboard

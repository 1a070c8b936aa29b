import Fleetboard.Framework.Runs
import Mathlib.Data.Set.Insert
import Mathlib.Logic.Function.Basic

/-!
# Watching objects for items of work

Items of work have a configuration, and each is made of the states of all objects, of which only
what is `relevant` under its configuration counts. Changes are notified later and in order: the
notification of a changed configuration marks its item, that of a changed object marks at least
the items for which something relevant has changed, and an item may be marked at any time. A worker
takes a marked item, reads its
configuration and then the objects, at any time each, and records what it has read unless it
fails; an item whose work has failed is marked again or dropped. Under a configuration for which
nothing is relevant the objects need not be read.

* `Watch.Fresh`: what is known of an item that is not marked;
* `Watch.Sound.step`: every step keeps it;
* `Watch.settled`: when all is notified, an item that is neither marked nor being worked on nor
  dropped has on record what is relevant now.
-/

namespace Fleetboard.Watch

variable {K O X C V : Type*}

/-- An object has changed from one state to another. -/
structure Change (O X : Type*) where
  object : O
  old : X
  new : X

/-- What a worker has read so far: the configuration, and what is relevant of the objects. -/
inductive Reading (O C V : Type*)
  | started
  | configured (config : C)
  | read (config : C) (seen : O → V)

@[ext]
structure State (K O X C V : Type*) where
  object : O → X
  /-- The states of the objects that have been notified. -/
  notified : O → X
  changes : List (Change O X)
  config : K → C
  configured : List K
  marked : Set K
  reading : K → Option (Reading O C V)
  record : K → C × (O → V)
  dropped : Set K

section

variable [DecidableEq K] [DecidableEq O] (relevant : C → X → V)

inductive Step : State K O X C V → Unit → State K O X C V → Prop
  | change {s : State K O X C V} (o : O) (x : X) :
      Step s () { s with
        object := Function.update s.object o x
        changes := s.changes ++ [⟨o, s.object o, x⟩] }
  | configure {s : State K O X C V} (k : K) (c : C) :
      Step s () { s with
        config := Function.update s.config k c
        configured := s.configured ++ [k] }
  | notify {s : State K O X C V} {e : Change O X} {rest : List (Change O X)} {marks : Set K}
      (head : s.changes = e :: rest)
      (marks_of : ∀ k, relevant (s.config k) e.old ≠ relevant (s.config k) e.new → k ∈ marks) :
      Step s () { s with
        notified := Function.update s.notified e.object e.new
        changes := rest
        marked := s.marked ∪ marks }
  | notifyConfigured {s : State K O X C V} {k : K} {rest : List K}
      (head : s.configured = k :: rest) :
      Step s () { s with configured := rest, marked := insert k s.marked }
  | mark {s : State K O X C V} (k : K) : Step s () { s with marked := insert k s.marked }
  | start {s : State K O X C V} {k : K} {marked : Set K} (idle : s.reading k = none)
      (others : ∀ k' ∈ s.marked, k' ≠ k → k' ∈ marked) :
      Step s () { s with
        marked := marked
        reading := Function.update s.reading k (some .started) }
  | readConfig {s : State K O X C V} {k : K} (started : s.reading k = some .started) :
      Step s () { s with
        reading := Function.update s.reading k (some (.configured (s.config k))) }
  | readObjects {s : State K O X C V} {k : K} {c : C}
      (configured : s.reading k = some (.configured c)) :
      Step s () { s with
        reading := Function.update s.reading k
          (some (.read c fun o => relevant c (s.object o))) }
  | skip {s : State K O X C V} {k : K} {c : C} (configured : s.reading k = some (.configured c))
      (nothing : ∀ x x', relevant c x = relevant c x') :
      Step s () { s with
        reading := Function.update s.reading k none
        record := Function.update s.record k (c, fun o => relevant c (s.object o))
        dropped := s.dropped \ {k} }
  | succeed {s : State K O X C V} {k : K} {c : C} {seen : O → V}
      (read : s.reading k = some (.read c seen)) :
      Step s () { s with
        reading := Function.update s.reading k none
        record := Function.update s.record k (c, seen)
        dropped := s.dropped \ {k} }
  | retry {s : State K O X C V} {k : K} :
      Step s () { s with
        reading := Function.update s.reading k none
        marked := insert k s.marked }
  | drop {s : State K O X C V} {k : K} :
      Step s () { s with
        reading := Function.update s.reading k none
        dropped := insert k s.dropped }
  | idle {s : State K O X C V} : Step s () s

variable {relevant}

theorem Step.of_eq {s s' s'' : State K O X C V} (h : Step relevant s () s') (heq : s'' = s') :
    Step relevant s () s'' := by
  rw [heq]
  exact h

end

/-! ## Notifications -/

/-- The changes lead from the states that have been notified to those that the objects have. -/
def Leads [DecidableEq O] : (O → X) → List (Change O X) → (O → X) → Prop
  | notified, [], object => notified = object
  | notified, e :: changes, object =>
    notified e.object = e.old ∧ Leads (Function.update notified e.object e.new) changes object

/-- The states of an object from the one that has been notified on. -/
def States [DecidableEq O] (notified : O → X) (changes : List (Change O X)) (o : O) : Set X :=
  {x | x = notified o ∨ ∃ e ∈ changes, e.object = o ∧ x = e.new}

variable [DecidableEq O] {relevant : C → X → V}

theorem Leads.append {notified object : O → X} {changes : List (Change O X)}
    (h : Leads notified changes object) (o : O) (x : X) :
    Leads notified (changes ++ [⟨o, object o, x⟩]) (Function.update object o x) := by
  induction changes generalizing notified with
  | nil =>
    obtain rfl : notified = object := h
    exact ⟨rfl, rfl⟩
  | cons e changes ih => exact ⟨h.1, ih h.2⟩

theorem Leads.mem_states {notified object : O → X} {changes : List (Change O X)}
    (h : Leads notified changes object) (o : O) : object o ∈ States notified changes o := by
  induction changes generalizing notified with
  | nil =>
    obtain rfl : notified = object := h
    exact .inl rfl
  | cons e changes ih =>
    rcases ih h.2 with heq | ⟨e', he', ho, heq⟩
    · rw [Function.update_apply] at heq
      split at heq
      · rename_i ho
        exact .inr ⟨e, List.mem_cons_self, ho.symm, heq⟩
      · exact .inl heq
    · exact .inr ⟨e', List.mem_cons_of_mem _ he', ho, heq⟩

/-! ## Items that are not marked -/

/-- What has been seen of an object is relevant of one of its states since the last that has been
notified. -/
def Recent (relevant : C → X → V) (notified : O → X) (changes : List (Change O X)) (c : C)
    (seen : O → V) : Prop :=
  ∀ o, ∃ x ∈ States notified changes o, seen o = relevant c x

theorem Recent.append {notified : O → X} {changes : List (Change O X)} {c : C} {seen : O → V}
    (h : Recent relevant notified changes c seen) (e : Change O X) :
    Recent relevant notified (changes ++ [e]) c seen := by
  intro o
  obtain ⟨x, hx, hseen⟩ := h o
  refine ⟨x, hx.imp_right fun hnew => ?_, hseen⟩
  obtain ⟨e', he', ho⟩ := hnew
  exact ⟨e', List.mem_append_left _ he', ho⟩

/-- A change of which nothing is relevant is notified. -/
theorem Recent.notify {notified : O → X} {e : Change O X} {rest : List (Change O X)} {c : C}
    {seen : O → V} (h : Recent relevant notified (e :: rest) c seen)
    (old : notified e.object = e.old) (same : relevant c e.old = relevant c e.new) :
    Recent relevant (Function.update notified e.object e.new) rest c seen := by
  intro o
  obtain ⟨x, hx, hseen⟩ := h o
  rcases hx with rfl | ⟨e', he', rfl, rfl⟩
  · by_cases ho : o = e.object
    · subst ho
      refine ⟨e.new, .inl (by rw [Function.update_self]), ?_⟩
      rw [hseen, old, same]
    · exact ⟨_, .inl (Function.update_of_ne ho ..).symm, hseen⟩
  · rcases List.mem_cons.1 he' with rfl | he'
    · exact ⟨_, .inl (by rw [Function.update_self]), hseen⟩
    · exact ⟨_, .inr ⟨e', he', rfl, rfl⟩, hseen⟩

theorem Recent.of_leads {notified object : O → X} {changes : List (Change O X)}
    (h : Leads notified changes object) (c : C) :
    Recent relevant notified changes c fun o => relevant c (object o) :=
  fun o => ⟨object o, h.mem_states o, rfl⟩

/-- What has been read of an item, or is on record, is recent. -/
structure Fresh (relevant : C → X → V) (s : State K O X C V) (k : K) : Prop where
  record : s.reading k = none → k ∉ s.dropped →
    (s.record k).1 = s.config k ∧ Recent relevant s.notified s.changes (s.config k) (s.record k).2
  configured : ∀ c, s.reading k = some (.configured c) → c = s.config k
  read : ∀ c seen, s.reading k = some (.read c seen) →
    c = s.config k ∧ Recent relevant s.notified s.changes (s.config k) seen

/-- The changes lead to the present states, and the items that are not marked, nor about to be
because of their configuration, are fresh. -/
structure Sound (relevant : C → X → V) (s : State K O X C V) : Prop where
  leads : Leads s.notified s.changes s.object
  fresh : ∀ k, k ∉ s.marked → k ∉ s.configured → Fresh relevant s k

section

variable {s : State K O X C V} {k : K}

theorem Fresh.of_started (h : s.reading k = some .started) : Fresh relevant s k where
  record hnone := absurd (hnone.symm.trans h) (Option.some_ne_none _).symm
  configured c hc := by cases h.symm.trans hc
  read c seen hread := by cases h.symm.trans hread

theorem Fresh.of_configured (h : s.reading k = some (.configured (s.config k))) :
    Fresh relevant s k where
  record hnone := absurd (hnone.symm.trans h) (Option.some_ne_none _).symm
  configured c hc := by cases h.symm.trans hc; rfl
  read c seen hread := by cases h.symm.trans hread

theorem Fresh.of_read {seen : O → V} (h : s.reading k = some (.read (s.config k) seen))
    (hrecent : Recent relevant s.notified s.changes (s.config k) seen) : Fresh relevant s k where
  record hnone := absurd (hnone.symm.trans h) (Option.some_ne_none _).symm
  configured c hc := by cases h.symm.trans hc
  read c seen hread := by
    cases h.symm.trans hread
    exact ⟨rfl, hrecent⟩

theorem Fresh.of_none (h : s.reading k = none)
    (hrecord : k ∉ s.dropped → (s.record k).1 = s.config k ∧
      Recent relevant s.notified s.changes (s.config k) (s.record k).2) : Fresh relevant s k where
  record _ := hrecord
  configured c hc := by cases h.symm.trans hc
  read c seen hread := by cases h.symm.trans hread

end

variable [DecidableEq K]

/-- A worker's progress with one item does not matter to the others. -/
theorem Sound.work {s s' : State K O X C V} {k' : K} {reading : Option (Reading O C V)}
    (h : Sound relevant s) (hobject : s'.object = s.object) (hnotified : s'.notified = s.notified)
    (hchanges : s'.changes = s.changes) (hconfig : s'.config = s.config)
    (hconfigured : s'.configured = s.configured)
    (hreading : s'.reading = Function.update s.reading k' reading)
    (others : ∀ k, k ≠ k' → (k ∈ s.marked → k ∈ s'.marked) ∧ s'.record k = s.record k ∧
      (k ∈ s.dropped → k ∈ s'.dropped))
    (own : k' ∉ s'.marked → k' ∉ s.configured → Fresh relevant s' k') : Sound relevant s' := by
  refine ⟨by rw [hnotified, hchanges, hobject]; exact h.leads, fun k hk hk' => ?_⟩
  rw [hconfigured] at hk'
  by_cases heq : k = k'
  · subst heq
    exact own hk hk'
  obtain ⟨hmarked, hrecord, hdropped⟩ := others k heq
  have hfresh := h.fresh k (fun hmem => hk (hmarked hmem)) hk'
  have hsame : s'.reading k = s.reading k := by rw [hreading, Function.update_of_ne heq]
  refine ⟨fun hnone hnot => ?_, fun c hc => ?_, fun c seen hread => ?_⟩
  · rw [hrecord, hconfig, hnotified, hchanges]
    exact hfresh.record (hsame ▸ hnone) fun hmem => hnot (hdropped hmem)
  · rw [hconfig]
    exact hfresh.configured c (hsame ▸ hc)
  · rw [hconfig, hnotified, hchanges]
    exact hfresh.read c seen (hsame ▸ hread)

theorem Sound.step {s s' : State K O X C V} {e : Unit} (h : Sound relevant s)
    (hstep : Step relevant s e s') : Sound relevant s' := by
  cases hstep with
  | change o x =>
    refine ⟨h.leads.append o x, fun k hmarked hconfigured => ?_⟩
    have hk := h.fresh k hmarked hconfigured
    exact ⟨fun hnone hdropped => (hk.record hnone hdropped).imp_right fun hr => hr.append _,
      hk.configured, fun c seen hread => (hk.read c seen hread).imp_right fun hr => hr.append _⟩
  | configure k' c =>
    refine ⟨h.leads, fun k hmarked hconfigured => ?_⟩
    dsimp only at hconfigured
    rw [List.mem_append, not_or, List.mem_singleton] at hconfigured
    have hk := h.fresh k hmarked hconfigured.1
    have hconfig : Function.update s.config k' c k = s.config k :=
      Function.update_of_ne hconfigured.2 ..
    refine ⟨fun hnone hdropped => ?_, fun c hc => ?_, fun c seen hread => ?_⟩
    · dsimp only
      rw [hconfig]
      exact hk.record hnone hdropped
    · dsimp only
      rw [hconfig]
      exact hk.configured c hc
    · dsimp only
      rw [hconfig]
      exact hk.read c seen hread
  | @notify e rest marks head marks_of =>
    have hleads := h.leads
    rw [head] at hleads
    refine ⟨hleads.2, fun k hmarked hconfigured => ?_⟩
    have hk := h.fresh k (fun hmem => hmarked (.inl hmem)) hconfigured
    have hsame : relevant (s.config k) e.old = relevant (s.config k) e.new := by
      by_contra hne
      exact hmarked (.inr (marks_of k hne))
    refine ⟨fun hnone hdropped => ?_, hk.configured, fun c seen hread => ?_⟩
    · obtain ⟨hconfig, hrecent⟩ := hk.record hnone hdropped
      rw [head] at hrecent
      exact ⟨hconfig, hrecent.notify hleads.1 hsame⟩
    · obtain ⟨hconfig, hrecent⟩ := hk.read c seen hread
      rw [head] at hrecent
      exact ⟨hconfig, hrecent.notify hleads.1 hsame⟩
  | @notifyConfigured k' rest head =>
    refine ⟨h.leads, fun k hmarked hconfigured => ?_⟩
    have hne : k ≠ k' := fun heq => hmarked (.inl heq)
    have hk := h.fresh k (fun hmem => hmarked (.inr hmem))
      (by rw [head, List.mem_cons, not_or]; exact ⟨hne, hconfigured⟩)
    exact ⟨hk.record, hk.configured, hk.read⟩
  | mark k' =>
    refine ⟨h.leads, fun k hmarked hconfigured => ?_⟩
    have hk := h.fresh k (fun hmem => hmarked (.inr hmem)) hconfigured
    exact ⟨hk.record, hk.configured, hk.read⟩
  | @start k marked idle others =>
    exact h.work rfl rfl rfl rfl rfl rfl
      (fun k' hne => ⟨fun hmem => others k' hmem hne, rfl, id⟩)
      fun _ _ => .of_started (Function.update_self ..)
  | @readConfig k started =>
    exact h.work rfl rfl rfl rfl rfl rfl (fun _ _ => ⟨id, rfl, id⟩)
      fun _ _ => .of_configured (Function.update_self ..)
  | @readObjects k c configured =>
    refine h.work rfl rfl rfl rfl rfl rfl (fun _ _ => ⟨id, rfl, id⟩) fun hmarked hconfigured => ?_
    obtain rfl := (h.fresh k hmarked hconfigured).configured c configured
    exact .of_read (Function.update_self ..) (.of_leads h.leads _)
  | @skip k c configured nothing =>
    refine h.work rfl rfl rfl rfl rfl rfl
      (fun k' hne => ⟨id, Function.update_of_ne hne .., fun hmem => ⟨hmem, hne⟩⟩)
      fun hmarked hconfigured => .of_none (Function.update_self ..) fun _ => ?_
    obtain rfl := (h.fresh k hmarked hconfigured).configured c configured
    dsimp only
    rw [Function.update_self]
    exact ⟨rfl, .of_leads h.leads _⟩
  | @succeed k c seen read =>
    refine h.work rfl rfl rfl rfl rfl rfl
      (fun k' hne => ⟨id, Function.update_of_ne hne .., fun hmem => ⟨hmem, hne⟩⟩)
      fun hmarked hconfigured => .of_none (Function.update_self ..) fun _ => ?_
    dsimp only
    rw [Function.update_self]
    exact (h.fresh k hmarked hconfigured).read c seen read
  | @retry k =>
    exact h.work rfl rfl rfl rfl rfl rfl (fun _ _ => ⟨.inr, rfl, id⟩)
      fun hmarked _ => absurd (.inl rfl) hmarked
  | @drop k =>
    exact h.work rfl rfl rfl rfl rfl rfl (fun _ _ => ⟨id, rfl, .inr⟩) fun _ _ =>
      .of_none (Function.update_self ..) fun hdropped => absurd (.inl rfl) hdropped
  | idle => exact h

/-- When all is notified, an item that is neither marked nor being worked on nor dropped has on
record what is relevant now. -/
theorem settled {s s' : State K O X C V} {es : List Unit} (hs : Sound relevant s)
    (h : Runs (Step relevant) s es s') (changes : s'.changes = []) (configured : s'.configured = [])
    {k : K} (marked : k ∉ s'.marked) (reading : s'.reading k = none) (dropped : k ∉ s'.dropped) :
    s'.record k = (s'.config k, fun o => relevant (s'.config k) (s'.object o)) := by
  have hsound := h.invariant (I := Sound relevant) (fun hs h => hs.step h) hs
  have hleads := hsound.leads
  rw [changes] at hleads
  obtain ⟨hconfig, hrecent⟩ :=
    (hsound.fresh k marked (configured ▸ List.not_mem_nil)).record reading dropped
  refine Prod.ext hconfig (funext fun o => ?_)
  obtain ⟨x, hx, hseen⟩ := hrecent o
  rw [changes] at hx
  rcases hx with rfl | ⟨_, hmem, -⟩
  · rw [hseen, show s'.notified = s'.object from hleads]
  · cases hmem

end Fleetboard.Watch

import Mathlib

/-!
# Create or update, with retries

Clients share one object of a server (`Cell`): every write takes the next version,
and an update is refused unless it was made from the stored version. A client that
wants an object stored tries to create it, reads the object that is in the way and
updates it if it has to (`Helper.attempt`), again and again while an attempt asks for
that (`Helper.run`). Before each of its calls the other clients write what they like,
and each call may fail by itself.

`Helper.run_stores`: a run that returns no error leaves what its last attempt made
of the object that it found.
-/

namespace Fleetboard.Upsert

variable {α E : Type*}

/-- An object of a server, if it exists, with the version of the last write. -/
structure Cell (α : Type*) where
  object : Option α
  version : Nat

/-- The errors that clients tell apart. -/
structure Errors (E : Type*) where
  notFound : E
  alreadyExists : E
  conflict : E
  timeout : E

namespace Cell

def write (c : Cell α) (object : Option α) : Cell α := ⟨object, c.version + 1⟩

def writes (c : Cell α) (objects : List (Option α)) : Cell α := objects.foldl write c

variable (errs : Errors E)

def create (a : α) (c : Cell α) : Cell α × Option E :=
  match c.object with
  | some _ => (c, some errs.alreadyExists)
  | none => (c.write (some a), none)

/-- The update of an object that was read at a version. -/
def update (a : α) (version : Nat) (c : Cell α) : Cell α × Option E :=
  match c.object with
  | none => (c, some errs.notFound)
  | some _ => if version = c.version then (c.write (some a), none) else (c, some errs.conflict)

end Cell

/-- A call: what the other clients write before it, and the error by which it
fails without an effect. -/
structure Call (α E : Type*) where
  others : List (Option α)
  err : Option E

/-- A call that writes. -/
def Call.run (call : Call α E) (f : Cell α → Cell α × Option E) (c : Cell α) :
    Cell α × Option E :=
  match call.err with
  | some e => (c.writes call.others, some e)
  | none => f (c.writes call.others)

theorem create_object {errs : Errors E} {desired : α} {call : Call α E} {c c' : Cell α}
    (hdone : call.run (Cell.create errs desired) c = (c', none)) : c'.object = some desired := by
  unfold Call.run at hdone
  split at hdone
  · cases hdone
  · unfold Cell.create at hdone
    split at hdone
    · cases hdone
    · cases hdone
      rfl

theorem update_object {errs : Errors E} {call : Call α E} {a : α} {version : Nat}
    {c c' : Cell α}
    (hdone : call.run (Cell.update errs a version) c = (c', none)) : c'.object = some a := by
  unfold Call.run at hdone
  split at hdone
  · cases hdone
  · unfold Cell.update at hdone
    split at hdone
    · cases hdone
    · split at hdone
      · cases hdone
        rfl
      · cases hdone

/-- The calls of one attempt. -/
structure Attempt (α E : Type*) where
  create : Call α E
  get : Call α E
  update : Call α E

/-- How an attempt ends: `again` has the error that is returned when there is no other
attempt. -/
inductive Outcome (E : Type*)
  | done
  | again (last : E)
  | failed (e : E)

/-- What distinguishes one client from another: which objects it waits for to go,
when it updates, to what, and after which errors it tries again. -/
structure Helper (α E : Type*) where
  deleting : α → Bool
  needResync : α → α → Bool
  copy : α → α → α
  retriable : E → Bool

namespace Helper

/-- The end of an attempt with an error. -/
def fail (h : Helper α E) (e : E) : Outcome E := if h.retriable e then .again e else .failed e

theorem fail_ne_done {h : Helper α E} {e : E} : h.fail e ≠ .done := by
  unfold fail
  split
  · intro heq
    cases heq
  · intro heq
    cases heq

variable [DecidableEq E] (errs : Errors E) (h : Helper α E) (desired : α)

/-- The end of an attempt that has read `cur`. -/
def resync (cur : α) (call : Call α E) (c : Cell α) : Cell α × Outcome E :=
  if h.deleting cur then (c, .again errs.timeout)
  else if h.needResync cur desired then
    match call.run (Cell.update errs (h.copy cur desired) c.version) c with
    | (c, none) => (c, .done)
    | (c, some e) => (c, h.fail e)
  else (c, .done)

def attempt (env : Attempt α E) (c : Cell α) : Cell α × Outcome E :=
  match env.create.run (Cell.create errs desired) c with
  | (c, none) => (c, .done)
  | (c, some e) =>
    if e ≠ errs.alreadyExists then (c, h.fail e)
    else
      let c := c.writes env.get.others
      match env.get.err, c.object with
      | some e, _ => (c, h.fail e)
      | none, none => (c, h.fail errs.notFound)
      | none, some cur => h.resync errs desired cur env.update c

/-- The attempts that the backoff has steps for. -/
def run : List (Attempt α E) → Cell α → Cell α × Option E
  | [], c => (c, some errs.timeout)
  | env :: envs, c =>
    match h.attempt errs desired env c with
    | (c, .done) => (c, none)
    | (c, .failed e) => (c, some e)
    | (c, .again last) => if envs = [] then (c, some last) else run envs c

/-! ## What is stored -/

/-- What an attempt makes of the object that it found. -/
def result : Option α → α
  | none => desired
  | some cur => if h.needResync cur desired then h.copy cur desired else cur

/-- The object that an attempt finds in its way. -/
def found (env : Attempt α E) (c : Cell α) : Option α :=
  match env.create.run (Cell.create errs desired) c with
  | (_, none) => none
  | (c, some _) => (c.writes env.get.others).object

/-- The object that the last attempt of a run finds in its way. -/
def lastFound : List (Attempt α E) → Cell α → Option α
  | [], _ => none
  | env :: envs, c =>
    match h.attempt errs desired env c with
    | (c', .again _) => if envs = [] then found errs desired env c else lastFound envs c'
    | _ => found errs desired env c

variable {errs h desired}

omit [DecidableEq E] in
theorem resync_stores {cur : α} {call : Call α E} {c c' : Cell α} (hcur : c.object = some cur)
    (hdone : h.resync errs desired cur call c = (c', .done)) :
    c'.object = some (h.result desired (some cur)) := by
  unfold resync at hdone
  show c'.object = some (if h.needResync cur desired then h.copy cur desired else cur)
  split at hdone
  · cases hdone
  · split at hdone
    · rename_i hneed
      rw [if_pos hneed]
      split at hdone
      · rename_i hupdate
        cases hdone
        exact update_object hupdate
      · exact absurd (Prod.mk.inj hdone).2 fail_ne_done
    · rename_i hneed
      rw [if_neg hneed]
      cases hdone
      exact hcur

/-- One attempt. -/
theorem attempt_stores {env : Attempt α E} {c c' : Cell α}
    (hdone : h.attempt errs desired env c = (c', .done)) :
    c'.object = some (h.result desired (found errs desired env c)) := by
  unfold attempt at hdone
  unfold found
  split at hdone
  · rename_i hcreate
    cases hdone
    exact create_object hcreate
  · split at hdone
    · exact absurd (Prod.mk.inj hdone).2 fail_ne_done
    · dsimp only at hdone
      split at hdone
      · exact absurd (Prod.mk.inj hdone).2 fail_ne_done
      · exact absurd (Prod.mk.inj hdone).2 fail_ne_done
      · rename_i hobject
        rw [hobject]
        exact resync_stores hobject hdone

/-- A run: the attempts before the last one decide nothing. -/
theorem run_stores {envs : List (Attempt α E)} {c c' : Cell α}
    (hdone : h.run errs desired envs c = (c', none)) :
    c'.object = some (h.result desired (h.lastFound errs desired envs c)) := by
  induction envs generalizing c with
  | nil => cases hdone
  | cons env envs ih =>
    rw [run] at hdone
    rw [lastFound]
    cases hattempt : h.attempt errs desired env c with
    | mk c₁ outcome =>
      rw [hattempt] at hdone
      cases outcome with
      | done =>
        cases hdone
        exact attempt_stores hattempt
      | failed e => cases hdone
      | again last =>
        dsimp only at hdone ⊢
        split at hdone
        · cases hdone
        · rename_i hne
          rw [if_neg hne]
          exact ih hdone

end Helper

end Fleetboard.Upsert

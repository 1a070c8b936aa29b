import Mathlib.Tactic.DeriveCountable
import Fleetboard.Model.Reconciler

/-!
# Moving endpoints out of a set

The desired endpoints of a group of ports leave their set one by one for slices. None is lost and
none is placed twice (`EndpointSet.Placed`):

* `keepDesired_placed`: the desired endpoints among those of a slice, which stand for the slice's
  own when none has changed;
* `fillSlice_filled`: the endpoints that are added to a slice.

`keepDesired_of_placed` is the other direction: endpoints that are placed already are found.
-/

namespace Fleetboard.EndpointSlices

variable {h : Hasher}

/-! ## Hashes

Injective hashes exist, as there are only countably many objects to hash.
-/

instance countableChar : Countable Char :=
  Function.Injective.countable (f := Char.toNat) fun _ _ h => Char.ext (UInt32.toNat_inj.mp h)

instance countableString : Countable String :=
  Function.Injective.countable (f := String.toList) fun _ _ h => String.toList_inj.mp h

deriving instance Countable for Protocol, EndpointPort, EndpointHashObj, HashObject

theorem exists_perfect : ∃ h : Hasher, h.Perfect := by
  obtain ⟨f, hf⟩ := exists_injective_nat HashObject
  refine ⟨⟨fun obj => String.ofList (List.replicate (f obj) '0')⟩, ⟨fun a b h => hf ?_⟩⟩
  have hlength := congrArg List.length (String.ofList_injective h)
  rwa [List.length_replicate, List.length_replicate] at hlength

/-- Some injective hash. -/
noncomputable def someHasher : Hasher := exists_perfect.choose

instance perfect_someHasher : someHasher.Perfect := exists_perfect.choose_spec

/-! ## Comparisons -/

theorem ptrChanged_eq_false_iff {α : Type} [DecidableEq α] {ptr1 ptr2 : Option α} :
    ptrChanged ptr1 ptr2 = false ↔ ptr1 = ptr2 := by
  cases ptr1 <;> cases ptr2 <;> simp [ptrChanged]

theorem endpointsEqualBeyondHash_self (endpoint : Endpoint) :
    EndpointsEqualBeyondHash endpoint endpoint = true := by
  have hstr : ∀ ptr, stringPtrChanged ptr ptr = false := fun _ => ptrChanged_eq_false_iff.mpr rfl
  have hbool : ∀ ptr, boolPtrChanged ptr ptr = false := fun _ => ptrChanged_eq_false_iff.mpr rfl
  simp [EndpointsEqualBeyondHash, hstr, hbool, semanticIgnoreResourceVersion]

/-! ## Sets -/

namespace EndpointSet

variable {all s : EndpointSet h} {placed : List Endpoint} {endpoint got : Endpoint}

/-- The endpoints of `all` are among the placed ones, up to `EndpointsEqualBeyondHash`, or in the
rest. -/
abbrev Placed (all : EndpointSet h) (placed : List Endpoint) (rest : EndpointSet h) : Prop :=
  Fleetboard.Placed h.hashEndpoint (fun d e => EndpointsEqualBeyondHash d e = true) all.items
    placed rest.items

theorem Placed.place (hp : all.Placed placed s) (hget : s.Get endpoint = some got)
    {placedAs : Endpoint} (hhash : h.hashEndpoint placedAs = h.hashEndpoint endpoint)
    (hsame : EndpointsEqualBeyondHash got placedAs = true) :
    all.Placed (placedAs :: placed) (s.Delete endpoint) := by
  have hlookup : s.items.lookup (h.hashEndpoint placedAs) = some got := by
    rw [hhash]
    exact hget
  have hplaced := Fleetboard.Placed.place hp hlookup hsame
  rw [hhash] at hplaced
  exact hplaced

theorem hashEndpoint_of_get (hget : s.Get endpoint = some got) :
    h.hashEndpoint got = h.hashEndpoint endpoint :=
  s.hashed hget

theorem len_delete (hget : s.Get endpoint = some got) : (s.Delete endpoint).Len + 1 = s.Len := by
  have hmem : h.hashEndpoint endpoint ∈ s.items.keys :=
    AList.lookup_isSome.mp (Option.isSome_iff_exists.mpr ⟨got, hget⟩)
  have hlen : ∀ m : GoMap String Endpoint, m.entries.length = m.keys.length :=
    fun m => (List.length_map Sigma.fst).symm
  show (s.items.erase _).entries.length + 1 = s.items.entries.length
  rw [hlen, hlen, AList.keys_erase, List.length_erase_add_one hmem]

theorem len_eq_zero_iff : s.Len = 0 ↔ s.items = ∅ := by
  rw [Len, List.length_eq_zero_iff]
  exact ⟨fun hs => AList.ext hs, fun hs => by rw [hs]; rfl⟩

theorem popAny_eq_none {order : RangeOrder Endpoint} (hpop : s.PopAny order = none) :
    s.Len = 0 := by
  unfold PopAny at hpop
  split at hpop
  · rename_i hvisit
    have hnil : s.items.values = [] := by
      have := order.perm s.items.values
      rw [hvisit] at this
      exact this.symm.eq_nil
    rw [Len, ← List.length_map Sigma.snd]
    exact List.length_eq_zero_iff.mpr hnil
  · cases hpop

/-- An endpoint that is popped is taken from its own hash. -/
theorem popAny_eq_some {order : RangeOrder Endpoint} {rest : EndpointSet h}
    (hpop : s.PopAny order = some (endpoint, rest)) :
    s.Get endpoint = some endpoint ∧ rest = s.Delete endpoint := by
  unfold PopAny at hpop
  split at hpop
  · cases hpop
  · rename_i first more hvisit
    obtain ⟨rfl, rfl⟩ := Prod.mk.inj (Option.some_inj.mp hpop)
    have hmem : first ∈ s.items.values := by
      rw [← order.mem_visit, hvisit]
      exact List.mem_cons_self
    obtain ⟨k, hk⟩ := GoMap.mem_values_iff.mp hmem
    obtain rfl := s.hashed hk
    exact ⟨hk, rfl⟩

end EndpointSet

open EndpointSet

/-! ## Endpoints that are kept -/

theorem length_keepDesired_le (set : EndpointSet h) (endpoints : List Endpoint) :
    (keepDesired set endpoints).1.length ≤ endpoints.length := by
  induction endpoints generalizing set with
  | nil => exact le_rfl
  | cons endpoint endpoints ih =>
    unfold keepDesired
    split
    · exact Nat.le_succ_of_le (ih set)
    · exact Nat.succ_le_succ (ih _)

/-- The endpoints that are kept are placed. When all are and none has changed, those of the slice
may be taken for them. -/
theorem keepDesired_placed {all : EndpointSet h} (endpoints : List Endpoint) {placed : List Endpoint}
    {set : EndpointSet h} (hp : all.Placed placed set) :
    all.Placed ((keepDesired set endpoints).1 ++ placed) (keepDesired set endpoints).2.2 ∧
      ((keepDesired set endpoints).2.1 = false →
        (keepDesired set endpoints).1.length = endpoints.length →
        all.Placed (endpoints ++ placed) (keepDesired set endpoints).2.2) := by
  induction endpoints generalizing set placed with
  | nil => exact ⟨hp, fun _ _ => hp⟩
  | cons endpoint endpoints ih =>
    unfold keepDesired
    cases hget : set.Get endpoint with
    | none =>
      refine ⟨(ih hp).1, fun _ hlen => ?_⟩
      have := length_keepDesired_le set endpoints
      simp only [List.length_cons] at hlen
      omega
    | some got =>
      have hgot := hp.place hget (hashEndpoint_of_get hget) (endpointsEqualBeyondHash_self got)
      refine ⟨(ih hgot).1.of_perm List.perm_middle, fun hupdated hlen => ?_⟩
      simp only [Bool.or_eq_false_iff, Bool.not_eq_false'] at hupdated
      simp only [List.length_cons, Nat.add_right_cancel_iff] at hlen
      have hown := hp.place hget rfl hupdated.1
      exact ((ih hown).2 hupdated.2 hlen).of_perm List.perm_middle

/-- Endpoints that are placed already are all kept, as they are. -/
theorem keepDesired_of_placed {set : EndpointSet h} {endpoints more : List Endpoint}
    (hp : set.Placed (endpoints ++ more) ∅) :
    (keepDesired set endpoints).1.length = endpoints.length ∧
      (keepDesired set endpoints).2.1 = false ∧ (keepDesired set endpoints).2.2.Placed more ∅ := by
  induction endpoints generalizing set with
  | nil => exact ⟨rfl, rfl, hp⟩
  | cons endpoint endpoints ih =>
    obtain ⟨got, hget, hsame, hrest⟩ := Fleetboard.Placed.uncons hp
    have hplaced : (set.Delete endpoint).Placed (endpoints ++ more) ∅ := hrest
    obtain ⟨hlen, hupdated, hmore⟩ := ih hplaced
    have hgot : set.Get endpoint = some got := hget
    unfold keepDesired
    simp only [hgot, hsame, hlen, hupdated, List.length_cons]
    exact ⟨trivial, rfl, hmore⟩

/-! ## Endpoints that are added -/

/-- Endpoints move from a set to a slice that has some room: all of them, or as many as there is
room for. -/
structure Filled (room : Nat) (set rest : EndpointSet h) (slice slice' : EndpointSlice)
    (added : List Endpoint) : Prop where
  slice : slice' = { slice with endpoints := slice.endpoints ++ added }
  placed : ∀ {all : EndpointSet h} {placed}, all.Placed placed set → all.Placed (added ++ placed) rest
  len : rest.Len + added.length = set.Len
  le : added.length ≤ room
  full : added.length = room ∨ rest.Len = 0

theorem Filled.none (set : EndpointSet h) (slice : EndpointSlice) {room : Nat}
    (hfull : room = 0 ∨ set.Len = 0) : Filled room set set slice slice [] where
  slice := by rw [List.append_nil]
  placed hp := hp
  len := rfl
  le := Nat.zero_le room
  full := hfull.imp Eq.symm id

theorem Filled.cons {room : Nat} {set rest : EndpointSet h} {slice slice' : EndpointSlice}
    {endpoint : Endpoint} {added : List Endpoint} (hget : set.Get endpoint = some endpoint)
    (hf : Filled room (set.Delete endpoint) rest
      { slice with endpoints := slice.endpoints ++ [endpoint] } slice' added) :
    Filled (room + 1) set rest slice slice' (endpoint :: added) where
  slice := by
    rw [hf.slice, List.append_assoc]
    rfl
  placed hp := by
    have hone := hp.place hget rfl (endpointsEqualBeyondHash_self endpoint)
    exact (hf.placed hone).of_perm List.perm_middle
  len := by
    rw [List.length_cons, ← Nat.add_assoc, hf.len]
    exact len_delete hget
  le := Nat.succ_le_succ hf.le
  full := hf.full.imp (congrArg (· + 1)) id

/-- Something moves if there is room. -/
theorem Filled.len_lt {room : Nat} {set rest : EndpointSet h} {slice slice' : EndpointSlice}
    {added : List Endpoint} (hf : Filled room set rest slice slice' added) (hroom : 0 < room)
    (hlen : 0 < set.Len) : rest.Len < set.Len := by
  have := hf.len
  rcases hf.full with hfull | hempty
  · omega
  · omega

theorem fillSlice_loop_filled (order : RangeOrder Endpoint) (room : Nat) (set : EndpointSet h)
    (slice : EndpointSlice) :
    ∃ added, Filled room set (fillSlice.loop order room set slice).1 slice
      (fillSlice.loop order room set slice).2 added := by
  induction room generalizing set slice with
  | zero => exact ⟨[], .none set slice (.inl rfl)⟩
  | succ room ih =>
    unfold fillSlice.loop
    split
    · rename_i hpop
      exact ⟨[], .none set slice (.inr (popAny_eq_none hpop))⟩
    · rename_i endpoint rest hpop
      obtain ⟨hget, rfl⟩ := popAny_eq_some hpop
      obtain ⟨added, hf⟩ :=
        ih (set.Delete endpoint) { slice with endpoints := slice.endpoints ++ [endpoint] }
      exact ⟨endpoint :: added, hf.cons hget⟩

theorem fillSlice_filled (order : RangeOrder Endpoint) (maxEndpoints : Nat) (set : EndpointSet h)
    (slice : EndpointSlice) :
    ∃ added, Filled (maxEndpoints - slice.endpoints.length) set
      (fillSlice order maxEndpoints set slice).1 slice (fillSlice order maxEndpoints set slice).2
      added :=
  fillSlice_loop_filled order _ set slice

end Fleetboard.EndpointSlices

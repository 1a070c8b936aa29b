import Fleetboard.Proof.TopologyZones

/-!
# Allocations and overload

`getAllocations` and `serviceOverloaded` loop over maps and stop early or sum up in `float64`, but
their results do not depend on the order: allocations exist exactly if the minimums add up to at
most the number of endpoints (`getAllocations_exact`), and as long as there are at most `2 ^ 53`
hints, a service is overloaded exactly if a zone has fewer than the minimum that `getAllocations`
would give it (`serviceOverloaded_iff`).
-/

namespace Fleetboard.EndpointSlices.Topology

open Binary64 GoMap

/-! ## Allocations -/

/-- The sum of the minimums of zones. -/
def minimums (n : Int) (es : List ((_ : String) × ℚ)) : Int :=
  (es.map fun e => minimumFor e.2 n).sum

/-- What the loop of `getAllocations` allocates. -/
def allocationFor (n : Int) (ratio : ℚ) : Allocation :=
  ⟨minimumFor ratio n, 0, max (fl (ratio * fl n)) (fl (minimumFor ratio n))⟩

theorem minimums_nonneg {n : Int} {es : List ((_ : String) × ℚ)}
    (hes : ∀ e ∈ es, 0 ≤ minimumFor e.2 n) : 0 ≤ minimums n es := by
  refine List.sum_nonneg fun k hk => ?_
  obtain ⟨e, he, rfl⟩ := List.mem_map.1 hk
  exact hes e he

/-- The loop ends early exactly if the minimums are too large. -/
theorem allocate_eq {n : Int} {es : List ((_ : String) × ℚ)}
    (hes : ∀ e ∈ es, 0 ≤ minimumFor e.2 n) {remaining : Int} (hremaining : 0 ≤ remaining)
    (minTotal : Int) (m : GoMap String Allocation) :
    allocate n es remaining minTotal m =
      if minimums n es ≤ remaining then
        some (minTotal + minimums n es, es.foldl (fun m e => m.insert e.1 (allocationFor n e.2)) m)
      else none := by
  induction es generalizing remaining minTotal m with
  | nil => simp [allocate, minimums, hremaining]
  | cons e es ih =>
    obtain ⟨zone, ratio⟩ := e
    have hrest := fun e he => hes e (List.mem_cons_of_mem _ he)
    have hnonneg := minimums_nonneg hrest
    have hcons : minimums n (⟨zone, ratio⟩ :: es) = minimumFor ratio n + minimums n es := rfl
    rw [allocate, hcons]
    by_cases hneg : remaining - minimumFor ratio n < 0
    · rw [if_pos hneg, if_neg (by omega)]
    · rw [if_neg hneg, ih hrest (by omega), List.foldl_cons]
      by_cases hle : minimums n es ≤ remaining - minimumFor ratio n
      · rw [if_pos hle, if_pos (by omega), add_assoc]
        rfl
      · rw [if_neg hle, if_neg (by omega)]

/-- Allocations exist exactly if there are two zones, endpoints for each, and the minimums add up
to at most the endpoints; the maximum of a zone is what the minimums of the others leave. None of
it depends on the order of the loop. -/
theorem getAllocations_exact {t : TopologyCache} (ht : t.SoundRatios) {ratios : GoMap String ℚ}
    (hratios : t.cpuRatiosByZone = some ratios) (order : RangeOrder ((_ : String) × ℚ)) {n : Int}
    (hn : 0 ≤ n) :
    (∀ allocations, t.getAllocations order n = .ok allocations →
      minimums n ratios.entries ≤ n ∧ ∀ zone, allocations.lookup zone = (ratios.lookup zone).map
        fun ratio => { allocationFor n ratio with
          maximum := n - (minimums n ratios.entries - minimumFor ratio n) }) ∧
    ((∃ event, t.getAllocations order n = .error event) ↔
      ratios.entries.length < 2 ∨ n < ratios.entries.length ∨ n < minimums n ratios.entries) := by
  have hes : ∀ e ∈ order.visit ratios.entries, 0 ≤ minimumFor e.2 n := fun e he =>
    minimumFor_nonneg (ht ratios hratios e.1 e.2 (mem_entries_iff.1 (order.mem_visit.1 he))).1 hn
  have hperm : minimums n (order.visit ratios.entries) = minimums n ratios.entries :=
    ((order.perm ratios.entries).map _).sum_eq
  rw [TopologyCache.getAllocations, hratios]
  dsimp only
  rw [allocate_eq hes hn, hperm]
  by_cases htwo : ratios.entries.length < 2
  · rw [if_pos htwo]
    exact ⟨fun _ h => (by cases h), fun _ => .inl htwo, fun _ => ⟨_, rfl⟩⟩
  rw [if_neg htwo]
  by_cases hzones : (ratios.entries.length : Int) > n
  · rw [if_pos hzones]
    exact ⟨fun _ h => (by cases h), fun _ => .inr (.inl hzones), fun _ => ⟨_, rfl⟩⟩
  rw [if_neg hzones]
  by_cases hle : minimums n ratios.entries ≤ n
  · rw [if_pos hle]
    refine ⟨fun allocations h => ⟨hle, fun zone => ?_⟩, fun h => ?_, fun h => ?_⟩
    · cases h
      rw [lookup_mapVals, lookup_foldl_visit, Option.map_map]
      congr 1
      funext ratio
      simp only [Function.comp, allocationFor, zero_add]
      congr 1
      ring
    · obtain ⟨_, h⟩ := h
      cases h
    · exfalso
      omega
  · rw [if_neg hle]
    exact ⟨fun _ h => (by cases h), fun _ => .inr (.inr (not_le.1 hle)), fun _ => ⟨_, rfl⟩⟩

theorem zonesCache_soundRatios : zonesCache.SoundRatios :=
  SetNodes_soundRatios _ (webHintEvents_cpuNonneg _ List.mem_cons_self)

theorem getAllocations_exact_web : ∃ ratios, zonesCache.cpuRatiosByZone = some ratios ∧
    ((∃ event, zonesCache.getAllocations .stored 4 = .error event) ↔
      ratios.entries.length < 2 ∨ (4 : Int) < ratios.entries.length ∨
        4 < minimums 4 ratios.entries) := by
  obtain ⟨ratios, hratios⟩ := Option.isSome_iff_exists.1
    (show zonesCache.cpuRatiosByZone.isSome = true by decide +kernel)
  exact ⟨ratios, hratios,
    (getAllocations_exact zonesCache_soundRatios hratios .stored (by decide)).2⟩

/-! ## Overload -/

/-- Sums below `2 ^ 53` are exact in `float64`. -/
theorem foldl_fl_add {l : List Int} (hl : ∀ k ∈ l, 0 ≤ k) {k : Int} (hk : 0 ≤ k)
    (hsum : k + l.sum ≤ 2 ^ 53) :
    l.foldl (fun (total : ℚ) (k : Int) => fl (total + fl k)) k = (k + l.sum : Int) := by
  induction l generalizing k with
  | nil => simp
  | cons a l ih =>
    have ha := hl a List.mem_cons_self
    have hrest := fun k hk => hl k (List.mem_cons_of_mem _ hk)
    have hnonneg := List.sum_nonneg hrest
    rw [List.sum_cons] at hsum
    have hexact : fl ((k : ℚ) + fl (a : ℚ)) = (k + a : Int) := by
      rw [fl_intCast (by rw [abs_of_nonneg ha]; omega), ← Int.cast_add,
        fl_intCast (by rw [abs_of_nonneg (by omega)]; omega)]
    rw [List.foldl_cons, hexact, ih hrest (by omega) (by omega), List.sum_cons, add_assoc]

/-- A service is overloaded exactly if it has hints, and there are no ratios, or a zone with a
ratio has no hints or fewer than the minimum that `getAllocations` gives it. -/
theorem serviceOverloaded_iff (order : RangeOrder ((_ : String) × Int)) {ezi : EndpointZoneInfo}
    (hezi : ∀ zone, 0 ≤ num ezi zone) (hsmall : total id ezi ≤ 2 ^ 53) (ratios : GoMap String ℚ) :
    serviceOverloaded order ezi ratios = true ↔
      ezi.entries ≠ [] ∧ (ratios.entries = [] ∨ ∃ zone ratio, ratios.lookup zone = some ratio ∧
        (ezi.lookup zone = none ∨ num ezi zone < minimumFor ratio (total id ezi))) := by
  have hvisited : ((order.visit ezi.entries).map fun e => e.2).sum = total id ezi :=
    ((order.perm ezi.entries).map _).sum_eq
  have hnonneg := total_nonneg hezi
  have hsum : (order.visit ezi.entries).foldl (fun total e => fl (total + fl (e.2 : ℚ))) 0 =
      (total id ezi : Int) := by
    have hentries : ∀ k ∈ (order.visit ezi.entries).map fun e => e.2, 0 ≤ k := by
      intro k hk
      obtain ⟨e, he, rfl⟩ := List.mem_map.1 hk
      exact entry_nonneg hezi (order.mem_visit.1 he)
    have := foldl_fl_add hentries (k := 0) le_rfl (by rw [hvisited]; omega)
    simp only [List.foldl_map, hvisited, zero_add, Int.cast_zero] at this
    exact this
  have hzone : ∀ e, zoneOverloaded ezi (total id ezi : Int) e = true ↔
      ezi.lookup e.1 = none ∨ num ezi e.1 < minimumFor e.2 (total id ezi) := by
    intro e
    rw [zoneOverloaded, minimumFor, fl_intCast (by rw [abs_of_nonneg hnonneg]; exact hsmall),
      mul_comm (e.2)]
    cases hlookup : ezi.lookup e.1 with
    | none => simp
    | some k => simp [num_of_lookup hlookup]
  rw [serviceOverloaded]
  by_cases hempty : ezi.entries = []
  · rw [if_pos hempty]
    exact ⟨fun h => absurd h Bool.false_ne_true, fun h => absurd hempty h.1⟩
  rw [if_neg hempty]
  by_cases hratios : ratios.entries = []
  · rw [if_pos hratios]
    exact ⟨fun _ => ⟨hempty, .inl hratios⟩, fun _ => rfl⟩
  rw [if_neg hratios, hsum, List.any_eq_true]
  constructor
  · rintro ⟨e, he, h⟩
    exact ⟨hempty, .inr ⟨e.1, e.2, mem_entries_iff.1 he, (hzone e).1 h⟩⟩
  · rintro ⟨-, h⟩
    obtain ⟨zone, ratio, hratio, h⟩ := h.resolve_left hratios
    exact ⟨⟨zone, ratio⟩, mem_entries_iff.2 hratio, (hzone ⟨zone, ratio⟩).2 h⟩

/-- Three endpoints in one zone, one in another. -/
def skewed : EndpointZoneInfo := addTo (addTo ∅ "a" 3) "b" 1

theorem serviceOverloaded_iff_skewed :
    serviceOverloaded .stored skewed (zonesCache.cpuRatiosByZone.getD ∅) = true ↔
      skewed.entries ≠ [] ∧ ((zonesCache.cpuRatiosByZone.getD ∅).entries = [] ∨
        ∃ zone ratio, (zonesCache.cpuRatiosByZone.getD ∅).lookup zone = some ratio ∧
          (skewed.lookup zone = none ∨ num skewed zone < minimumFor ratio (total id skewed))) := by
  refine serviceOverloaded_iff .stored (fun zone => ?_) (by decide) _
  exact num_nonneg_addTo (num_nonneg_addTo (fun _ => le_rfl) (by decide)) (by decide) zone

end Fleetboard.EndpointSlices.Topology

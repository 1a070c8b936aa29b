import Fleetboard.Proof.TopologyHints

/-!
# Giving and receiving hints

What `AddHints` gives to each zone. Numbers of endpoints below `2 ^ 53` are exact in `float64`,
and so are the differences that the loop of `getGivingAndReceivingZones` counts down, one by one.

* `getAllocations_sound`: minimum and desired number of a zone;
* `Owed`: what is known of the zones that give (or receive) after some rounds;
* `run_returns`: the loop ends after as many rounds as there are endpoints to give;
* `run_owed`: no zone gives or receives more than the difference it began with;
* `sync_returns`, `zone_hints_bounds`: what this means for syncs.
-/

namespace Fleetboard.EndpointSlices.Topology

open Binary64 GoMap Reconciler

/-! ## Ratios -/

/-- The parts of the CPUs that zones have. -/
def TopologyCache.SoundRatios (t : TopologyCache) : Prop :=
  ∀ ratios, t.cpuRatiosByZone = some ratios → ∀ zone ratio, ratios.lookup zone = some ratio →
    0 ≤ ratio ∧ ratio ≤ 1

theorem sumCPU_spec {nodes : List NodeInfo} (hcpu : ∀ node ∈ nodes, 0 ≤ node.cpu)
    {m m' : GoMap String Int} {total total' : Int} (h : sumCPU nodes m total = (m', total', true))
    (hm : ∀ z, 0 ≤ num m z) (htotal : GoMap.total id m = total) :
    (∀ z, 0 ≤ num m' z) ∧ GoMap.total id m' = total' := by
  induction nodes generalizing m total with
  | nil =>
    cases h
    exact ⟨hm, htotal⟩
  | cons node nodes ih =>
    have hnode := hcpu node List.mem_cons_self
    have hrest := fun node hnode => hcpu node (List.mem_cons_of_mem _ hnode)
    rw [sumCPU] at h
    split at h
    · exact ih hrest h hm htotal
    · dsimp only at h
      split at h
      · cases h
      · refine ih hrest h (num_nonneg_addTo hm hnode) ?_
        rw [total_addTo, htotal]

theorem milliValue_mono {a b : Int} (h : a ≤ b) : milliValue a ≤ milliValue b :=
  Int.ceil_le_ceil (div_le_div_of_nonneg_right (Int.cast_le.2 h) (by norm_num))

theorem milliValue_nonneg {a : Int} (h : 0 ≤ a) : 0 ≤ milliValue a :=
  Int.ceil_nonneg (div_nonneg (Int.cast_nonneg h) (by norm_num))

theorem ratio_bounds {cpu total : Int} (hcpu : 0 ≤ cpu) (h : cpu ≤ total) :
    0 ≤ fl (fl (milliValue cpu) / fl (milliValue total)) ∧
      fl (fl (milliValue cpu) / fl (milliValue total)) ≤ 1 := by
  have hmilli : (0 : ℚ) ≤ milliValue cpu := Int.cast_nonneg (milliValue_nonneg hcpu)
  have hnum := fl_nonneg hmilli
  have hle := fl_mono hmilli (Int.cast_le.2 (milliValue_mono h))
  refine ⟨fl_nonneg (div_nonneg hnum (hnum.trans hle)), fl_le ?_ (div_le_one_of_le₀ hle (hnum.trans hle))⟩
  exact_mod_cast representable_intCast (n := 1) (by norm_num)

theorem SetNodes_soundRatios (t : TopologyCache) {nodes : List NodeInfo}
    (hcpu : ∀ node ∈ nodes, 0 ≤ node.cpu) : (t.SetNodes nodes).SoundRatios := by
  intro ratios hratios zone ratio hratio
  rw [TopologyCache.SetNodes] at hratios
  generalize hsum : sumCPU nodes ∅ 0 = sums at hratios
  obtain ⟨cpuByZone, total, sufficient⟩ := sums
  dsimp only at hratios
  split at hratios
  · cases hratios
  · rename_i hsufficient
    cases hratios
    obtain rfl : sufficient = true := by
      by_contra h
      exact hsufficient (.inr (.inl (Bool.not_eq_true _ ▸ h)))
    obtain ⟨hnonneg, htotal⟩ := sumCPU_spec hcpu hsum (fun _ => le_rfl) rfl
    rw [lookup_mapVals, Option.map_eq_some_iff] at hratio
    obtain ⟨cpu, hcpu, rfl⟩ := hratio
    rw [← num_of_lookup hcpu]
    exact ratio_bounds (hnonneg zone) (htotal ▸ num_le_total hnonneg zone)

/-! ## Allocations -/

/-- The minimum of a zone is not negative, is reached by the desired number, and this is at most
the number of endpoints. -/
structure Allocation.Sound (allocation : Allocation) (n : Int) : Prop where
  minimum_nonneg : 0 ≤ allocation.minimum
  minimum_le : (allocation.minimum : ℚ) ≤ allocation.desired
  desired_le : allocation.desired ≤ n

theorem overloadFactor_bounds : 0 ≤ overloadFactor ∧ overloadFactor ≤ 1 := by decide +kernel

theorem minimumFor_nonneg {n : Int} {ratio : ℚ} (hratio : 0 ≤ ratio) (hn : 0 ≤ n) :
    0 ≤ minimumFor ratio n := by
  have hdesired : 0 ≤ fl (ratio * fl n) := fl_nonneg (mul_nonneg hratio (fl_nonneg (Int.cast_nonneg hn)))
  exact Int.ceil_nonneg (fl_nonneg (mul_nonneg hdesired overloadFactor_bounds.1))

section Numbers

variable {n : Int} (hn : 0 ≤ n) (hsmall : n ≤ 2 ^ 53) {ratio : ℚ} (hratio : 0 ≤ ratio ∧ ratio ≤ 1)

include hn hsmall

theorem representable_count : Representable (n : ℚ) :=
  representable_intCast (by rwa [abs_of_nonneg hn])

include hratio

theorem desired_bounds : 0 ≤ fl (ratio * fl n) ∧ fl (ratio * fl n) ≤ n := by
  have hn' : (0 : ℚ) ≤ n := Int.cast_nonneg hn
  rw [fl_eq_self (representable_count hn hsmall)]
  exact ⟨fl_nonneg (mul_nonneg hratio.1 hn'),
    fl_le (representable_count hn hsmall) (mul_le_of_le_one_left hn' hratio.2)⟩

theorem minimumFor_bounds : 0 ≤ minimumFor ratio n ∧ minimumFor ratio n ≤ n := by
  obtain ⟨hlo, hhi⟩ := desired_bounds hn hsmall hratio
  refine ⟨minimumFor_nonneg hratio.1 hn, Int.ceil_le.2 (fl_le (representable_count hn hsmall) ?_)⟩
  exact (mul_le_of_le_one_right hlo overloadFactor_bounds.2).trans hhi

theorem allocation_sound (maximum : Int) :
    Allocation.Sound ⟨minimumFor ratio n, maximum,
      max (fl (ratio * fl n)) (fl (minimumFor ratio n))⟩ n := by
  obtain ⟨hlo, hhi⟩ := minimumFor_bounds hn hsmall hratio
  have hfl : fl (minimumFor ratio n) = minimumFor ratio n :=
    fl_intCast (by rw [abs_of_nonneg hlo]; exact hhi.trans hsmall)
  refine ⟨hlo, ?_, max_le (desired_bounds hn hsmall hratio).2 ?_⟩
  · dsimp only
    rw [hfl]
    exact le_max_right _ _
  · rw [hfl]
    exact Int.cast_le.2 hhi

end Numbers

theorem allocate_sound {n : Int} (hn : 0 ≤ n) (hsmall : n ≤ 2 ^ 53) {es : List ((_ : String) × ℚ)}
    (hes : ∀ e ∈ es, 0 ≤ e.2 ∧ e.2 ≤ 1) {remaining minTotal minTotal' : Int}
    {m m' : GoMap String Allocation} (h : allocate n es remaining minTotal m = some (minTotal', m'))
    (hm : ∀ z allocation, m.lookup z = some allocation → allocation.Sound n) :
    ∀ z allocation, m'.lookup z = some allocation → allocation.Sound n := by
  induction es generalizing remaining minTotal m with
  | nil =>
    cases h
    exact hm
  | cons e es ih =>
    obtain ⟨zone, ratio⟩ := e
    rw [allocate] at h
    split at h
    · cases h
    · refine ih (fun e he => hes e (List.mem_cons_of_mem _ he)) h fun z allocation hz => ?_
      rw [lookup_insert_eq] at hz
      split at hz
      · cases hz
        exact allocation_sound hn hsmall (hes _ List.mem_cons_self) 0
      · exact hm z allocation hz

theorem getAllocations_sound {t : TopologyCache} (ht : t.SoundRatios)
    {order : RangeOrder ((_ : String) × ℚ)} {n : Int} (hn : 0 ≤ n) (hsmall : n ≤ 2 ^ 53)
    {allocations : GoMap String Allocation} (h : t.getAllocations order n = .ok allocations) :
    ∀ z allocation, allocations.lookup z = some allocation → allocation.Sound n := by
  rw [TopologyCache.getAllocations] at h
  split at h
  · cases h
  · rename_i ratios hratios
    dsimp only at h
    split at h
    · cases h
    · split at h
      · cases h
      · split at h
        · cases h
        · rename_i minTotal m hm
          cases h
          intro z allocation hz
          rw [lookup_mapVals, Option.map_eq_some_iff] at hz
          obtain ⟨allocation, hz, rfl⟩ := hz
          have hes : ∀ e ∈ order.visit ratios.entries, 0 ≤ e.2 ∧ e.2 ≤ 1 := fun e he =>
            ht ratios hratios e.1 e.2 (mem_entries_iff.1 (order.mem_visit.1 he))
          have hsound := allocate_sound hn hsmall hes hm (fun _ _ h => absurd h (Option.some_ne_none _).symm)
            z allocation hz
          exact ⟨hsound.minimum_nonneg, hsound.minimum_le, hsound.desired_le⟩

/-! ## Rounds -/

theorem getMost_spec (order : RangeOrder ((_ : String) × ℚ)) (zones : GoMap String ℚ) :
    getMost order zones = ("", 0) ∨
      zones.lookup (getMost order zones).1 = some (getMost order zones).2 := by
  rw [getMost]
  refine List.foldlRecOn (motive := fun most => most = ("", 0) ∨ zones.lookup most.1 = some most.2)
    (order.visit zones.entries) _ (.inl rfl) fun most hmost e he => ?_
  by_cases hmore : e.2 > most.2
  · rw [if_pos hmore]
    exact .inr (mem_entries_iff.1 (order.mem_visit.1 he))
  · rw [if_neg hmore]
    exact hmost

/-- After some rounds: each difference has been counted down by the number of its rounds, and
only while it was at least a half. -/
structure Owed (start desired : GoMap String ℚ) (zones : EndpointZoneInfo) : Prop where
  lookup : ∀ z, desired.lookup z = (start.lookup z).map (· - ((num zones z : Int) : ℚ))
  representable : ∀ z d, desired.lookup z = some d → Representable d
  nonneg : ∀ z, 0 ≤ num zones z
  bound : ∀ z, num zones z ≠ 0 → ∃ d, start.lookup z = some d ∧ ((num zones z : Int) : ℚ) ≤ d + 1 / 2

/-- The differences that a loop begins with. -/
def Differences (start : GoMap String ℚ) : Prop :=
  ∀ z d, start.lookup z = some d → Representable d ∧ d < 2 ^ 53

theorem Owed.start {start : GoMap String ℚ} (h : Differences start) : Owed start start ∅ where
  lookup z := by
    cases start.lookup z with
    | none => rfl
    | some d => simp
  representable z d hd := (h z d hd).1
  nonneg _ := le_rfl
  bound _ hz := absurd rfl hz

/-- The rounds that are left: a difference of at least a half is good for another one. -/
def rounds (desired : GoMap String ℚ) : Nat := total (fun d => ⌊d + 1 / 2⌋₊) desired

section Step

variable {start desired : GoMap String ℚ} {zones : EndpointZoneInfo} (hstart : Differences start)
  (h : Owed start desired zones) {zone : String} {d : ℚ} (hd : desired.lookup zone = some d)
  (hhalf : 1 / 2 ≤ d)

include h hd

theorem Owed.lookup_start : ∃ d₀, start.lookup zone = some d₀ ∧ d₀ - (num zones zone : Int) = d := by
  have hlookup := h.lookup zone
  rw [hd, eq_comm, Option.map_eq_some_iff] at hlookup
  exact hlookup

include hstart hhalf

/-- One less is exact. -/
theorem Owed.sub_one : Representable (d - 1) := by
  obtain ⟨d₀, hd₀, hdiff⟩ := h.lookup_start hd
  have hnonneg : (0 : ℚ) ≤ (num zones zone : Int) := Int.cast_nonneg (h.nonneg zone)
  exact (h.representable zone d hd).sub_one hhalf (by linarith [(hstart zone d₀ hd₀).2])

theorem Owed.decrement_eq : decrement desired zone = desired.insert zone (d - 1) := by
  rw [decrement, num_of_lookup hd, fl_eq_self (h.sub_one hstart hd hhalf)]

theorem Owed.step : Owed start (decrement desired zone) (addTo zones zone 1) := by
  obtain ⟨d₀, hd₀, hdiff⟩ := h.lookup_start hd
  rw [h.decrement_eq hstart hd hhalf]
  refine ⟨fun z => ?_, fun z d' hd' => ?_, num_nonneg_addTo h.nonneg zero_le_one, fun z hz => ?_⟩
  · rw [lookup_insert_eq, num_addTo]
    split
    · rename_i hz
      rw [hz, hd₀, Option.map_some, ← hdiff]
      push_cast
      ring_nf
    · rw [h.lookup z, add_zero]
  · rw [lookup_insert_eq] at hd'
    split at hd'
    · cases hd'
      exact h.sub_one hstart hd hhalf
    · exact h.representable z d' hd'
  · rw [num_addTo] at hz ⊢
    by_cases hzone : z = zone
    · subst hzone
      refine ⟨d₀, hd₀, ?_⟩
      rw [if_pos rfl]
      push_cast
      linarith
    · rw [if_neg hzone, add_zero] at hz ⊢
      exact h.bound z hz

theorem Owed.rounds_decrement :
    rounds (decrement desired zone) + 1 = rounds desired := by
  have hfloor : ⌊d + 1 / 2⌋₊ = ⌊d - 1 + 1 / 2⌋₊ + 1 := by
    rw [← Nat.floor_add_one (by linarith)]
    congr 1
    ring
  rw [h.decrement_eq hstart hd hhalf, rounds, total_insert, rounds,
    total_eq_add_erase _ desired zone, hd, Option.map_some, Option.getD_some, hfloor]
  ring

end Step

/-- The numbers of the loop after some rounds. -/
structure Exchange.Owed (x₀ x : Exchange) : Prop where
  giving : Topology.Owed x₀.givingZonesDesired x.givingZonesDesired x.givingZones
  receiving : Topology.Owed x₀.receivingZonesDesired x.receivingZonesDesired x.receivingZones

theorem settled_eq_false {giving receiving : String × ℚ} (h : ¬ settled giving receiving = true) :
    1 / 2 ≤ giving.2 ∧ 1 / 2 ≤ receiving.2 := by
  rw [settled, decide_eq_true_eq] at h
  simp only [not_or, not_lt] at h
  exact ⟨h.2.2.2.1, h.2.2.2.2⟩

theorem lookup_getMost {order : RangeOrder ((_ : String) × ℚ)} {zones : GoMap String ℚ}
    (h : 1 / 2 ≤ (getMost order zones).2) :
    zones.lookup (getMost order zones).1 = some (getMost order zones).2 := by
  refine (getMost_spec order zones).resolve_left fun heq => ?_
  rw [heq] at h
  norm_num at h

section Run

variable {x₀ : Exchange} (hgiving : Differences x₀.givingZonesDesired)
  (hreceiving : Differences x₀.receivingZonesDesired)

include hgiving hreceiving

theorem Exchange.Owed.move {o : HintOrders} {x : Exchange} (h : Exchange.Owed x₀ x) {round : Nat}
    (hsettled : ¬ settled (getMost (o.giving round) x.givingZonesDesired)
      (getMost (o.receiving round) x.receivingZonesDesired) = true) :
    Exchange.Owed x₀ (x.move (getMost (o.giving round) x.givingZonesDesired).1
      (getMost (o.receiving round) x.receivingZonesDesired).1) := by
  obtain ⟨hgive, hreceive⟩ := settled_eq_false hsettled
  exact ⟨h.giving.step hgiving (lookup_getMost hgive) hgive,
    h.receiving.step hreceiving (lookup_getMost hreceive) hreceive⟩

/-- What holds after each round holds at the end. -/
theorem run_owed {o : HintOrders} {fuel round : Nat} {x x' : Exchange} (hx : Exchange.Owed x₀ x)
    (h : Exchange.run o fuel round x = some x') : Exchange.Owed x₀ x' := by
  induction fuel generalizing round x with
  | zero => cases h
  | succ fuel ih =>
    rw [Exchange.run] at h
    split at h
    · cases h
      exact hx
    · rename_i hsettled
      exact ih (hx.move hgiving hreceiving hsettled) h

/-- With as much fuel as there are rounds to come the loop ends, and more fuel changes nothing. -/
theorem run_returns (o : HintOrders) (round : Nat) {x : Exchange} (hx : Exchange.Owed x₀ x) {n : Nat}
    (hn : rounds x.givingZonesDesired ≤ n) :
    ∃ x', ∀ fuel, n < fuel → Exchange.run o fuel round x = some x' := by
  induction n generalizing round x with
  | zero =>
    refine ⟨x, fun fuel hfuel => ?_⟩
    obtain ⟨fuel, rfl⟩ := Nat.exists_eq_succ_of_ne_zero hfuel.ne'
    rw [Exchange.run, if_pos]
    by_contra hsettled
    have hgive := (settled_eq_false hsettled).1
    have := hx.giving.rounds_decrement hgiving (lookup_getMost hgive) hgive
    omega
  | succ n ih =>
    by_cases hsettled : settled (getMost (o.giving round) x.givingZonesDesired)
        (getMost (o.receiving round) x.receivingZonesDesired) = true
    · refine ⟨x, fun fuel hfuel => ?_⟩
      obtain ⟨fuel, rfl⟩ := Nat.exists_eq_succ_of_ne_zero (by omega : fuel ≠ 0)
      rw [Exchange.run, if_pos hsettled]
    · have hgive := (settled_eq_false hsettled).1
      have hless := hx.giving.rounds_decrement hgiving (lookup_getMost hgive) hgive
      have hrest := Nat.le_of_succ_le_succ (hless.trans_le hn)
      obtain ⟨x', hx'⟩ := ih (round + 1) (hx.move hgiving hreceiving hsettled) hrest
      refine ⟨x', fun fuel hfuel => ?_⟩
      obtain ⟨fuel, rfl⟩ := Nat.exists_eq_succ_of_ne_zero (by omega : fuel ≠ 0)
      rw [Exchange.run, if_neg hsettled]
      exact hx' fuel (by omega)

end Run

/-! ## What zones give and receive -/

/-- The differences are those of zones with an allocation. -/
theorem start_spec (allocations : GoMap String Allocation) (hints : EndpointZoneInfo) :
    (∀ z d, (Exchange.start allocations hints).givingZonesDesired.lookup z = some d →
      ∃ allocation, allocations.lookup z = some allocation ∧
        d = fl (fl (num hints z : Int) - allocation.desired)) ∧
    (∀ z d, (Exchange.start allocations hints).receivingZonesDesired.lookup z = some d →
      ∃ allocation, allocations.lookup z = some allocation ∧
        d = fl (allocation.desired - fl (num hints z : Int))) ∧
    (Exchange.start allocations hints).givingZones = ∅ ∧
    (Exchange.start allocations hints).receivingZones = ∅ := by
  rw [Exchange.start]
  refine List.foldlRecOn (motive := fun x : Exchange =>
    (∀ z d, x.givingZonesDesired.lookup z = some d → ∃ allocation,
      allocations.lookup z = some allocation ∧ d = fl (fl (num hints z : Int) - allocation.desired)) ∧
    (∀ z d, x.receivingZonesDesired.lookup z = some d → ∃ allocation,
      allocations.lookup z = some allocation ∧ d = fl (allocation.desired - fl (num hints z : Int))) ∧
    x.givingZones = ∅ ∧ x.receivingZones = ∅) allocations.entries _
    ⟨fun _ _ h => absurd h (Option.some_ne_none _).symm,
      fun _ _ h => absurd h (Option.some_ne_none _).symm, rfl, rfl⟩ fun x hx e he => ?_
  obtain ⟨hgive, hreceive, hempty⟩ := hx
  have hentry := mem_entries_iff.1 he
  dsimp only
  split
  · refine ⟨fun z d hd => ?_, hreceive, hempty⟩
    rw [lookup_insert_eq] at hd
    split at hd
    · rename_i hz
      cases hd
      exact ⟨e.2, hz ▸ hentry, by rw [hz]⟩
    · exact hgive z d hd
  · split
    · refine ⟨hgive, fun z d hd => ?_, hempty⟩
      rw [lookup_insert_eq] at hd
      split at hd
      · rename_i hz
        cases hd
        exact ⟨e.2, hz ▸ hentry, by rw [hz]⟩
      · exact hreceive z d hd
    · exact ⟨hgive, hreceive, hempty⟩

section Zones

variable {allocations : GoMap String Allocation} {hints : EndpointZoneInfo} {n : Int}
  (hsound : ∀ z allocation, allocations.lookup z = some allocation → allocation.Sound n)
  (hn : n < 2 ^ 53) (hhints : ∀ z, 0 ≤ num hints z ∧ num hints z < 2 ^ 53)

include hhints in
theorem fl_num_hints (z : String) : fl (num hints z : Int) = (num hints z : Int) := by
  obtain ⟨hlo, hhi⟩ := hhints z
  exact fl_intCast (by rw [abs_of_nonneg hlo]; exact hhi.le)

include hsound hn hhints

/-- What a zone has to give is at most what it has above its minimum. -/
theorem start_giving {z : String} {d : ℚ}
    (hd : (Exchange.start allocations hints).givingZonesDesired.lookup z = some d) :
    Representable d ∧ ∃ allocation, allocations.lookup z = some allocation ∧
      d ≤ (num hints z - allocation.minimum : Int) := by
  obtain ⟨allocation, hallocation, rfl⟩ := (start_spec allocations hints).1 z d hd
  have hs := hsound z allocation hallocation
  obtain ⟨hlo, hhi⟩ := hhints z
  have hminimum : allocation.minimum ≤ n := Int.cast_le.1 (hs.minimum_le.trans hs.desired_le)
  have hnonneg := hs.minimum_nonneg
  refine ⟨representable_fl _, allocation, hallocation, fl_le (representable_intCast ?_) ?_⟩
  · rw [abs_le]
    omega
  · rw [fl_num_hints hhints]
    push_cast
    linarith [hs.minimum_le]

/-- What a zone has to receive is at most what it lacks. -/
theorem start_receiving {z : String} {d : ℚ}
    (hd : (Exchange.start allocations hints).receivingZonesDesired.lookup z = some d) :
    Representable d ∧ ∃ allocation, allocations.lookup z = some allocation ∧
      d ≤ (⌈allocation.desired⌉ - num hints z : Int) := by
  obtain ⟨allocation, hallocation, rfl⟩ := (start_spec allocations hints).2.1 z d hd
  have hs := hsound z allocation hallocation
  obtain ⟨hlo, hhi⟩ := hhints z
  have hdesired : ⌈allocation.desired⌉ ≤ n := Int.ceil_le.2 hs.desired_le
  have hnonneg : 0 ≤ ⌈allocation.desired⌉ := Int.ceil_nonneg
    ((Int.cast_nonneg hs.minimum_nonneg).trans hs.minimum_le)
  refine ⟨representable_fl _, allocation, hallocation, fl_le (representable_intCast ?_) ?_⟩
  · rw [abs_le]
    omega
  · rw [fl_num_hints hhints]
    push_cast
    linarith [Int.le_ceil allocation.desired]

theorem start_differences : Differences (Exchange.start allocations hints).givingZonesDesired ∧
    Differences (Exchange.start allocations hints).receivingZonesDesired := by
  refine ⟨fun z d hd => ?_, fun z d hd => ?_⟩
  · obtain ⟨hrepresentable, allocation, hallocation, hle⟩ := start_giving hsound hn hhints hd
    have hlt : num hints z - allocation.minimum < 2 ^ 53 := by
      have := (hsound z allocation hallocation).minimum_nonneg
      have := (hhints z).2
      omega
    exact ⟨hrepresentable, hle.trans_lt (by exact_mod_cast hlt)⟩
  · obtain ⟨hrepresentable, allocation, hallocation, hle⟩ := start_receiving hsound hn hhints hd
    have hlt : ⌈allocation.desired⌉ - num hints z < 2 ^ 53 := by
      have : ⌈allocation.desired⌉ ≤ n := Int.ceil_le.2 (hsound z allocation hallocation).desired_le
      have := (hhints z).1
      omega
    exact ⟨hrepresentable, hle.trans_lt (by exact_mod_cast hlt)⟩

theorem start_owed : Exchange.Owed (Exchange.start allocations hints)
    (Exchange.start allocations hints) := by
  obtain ⟨hgiving, hreceiving⟩ := start_differences hsound hn hhints
  obtain ⟨-, -, hempty, hempty'⟩ := start_spec allocations hints
  exact ⟨hempty ▸ .start hgiving, hempty' ▸ .start hreceiving⟩

/-- The loop ends, and more fuel changes nothing. -/
theorem zones_return (o : HintOrders) : ∃ rounds zones, ∀ fuel, rounds < fuel →
    getGivingAndReceivingZones o fuel allocations hints = some zones := by
  obtain ⟨hgiving, hreceiving⟩ := start_differences hsound hn hhints
  obtain ⟨x, hx⟩ := run_returns hgiving hreceiving o 0 (start_owed hsound hn hhints) le_rfl
  refine ⟨rounds (Exchange.start allocations hints).givingZonesDesired,
    (x.givingZones, x.receivingZones), fun fuel hfuel => ?_⟩
  rw [getGivingAndReceivingZones, hx fuel hfuel, Option.map_some]

/-- No zone gives so much that less than its minimum is left, or receives more than it lacks. -/
theorem zones_bounds {o : HintOrders} {fuel : Nat} {givingZones receivingZones : EndpointZoneInfo}
    (h : getGivingAndReceivingZones o fuel allocations hints = some (givingZones, receivingZones))
    (z : String) :
    0 ≤ num givingZones z ∧ 0 ≤ num receivingZones z ∧
      (num givingZones z ≠ 0 → ∃ allocation, allocations.lookup z = some allocation ∧
        num givingZones z ≤ num hints z - allocation.minimum) ∧
      (num receivingZones z ≠ 0 → ∃ allocation, allocations.lookup z = some allocation ∧
        num receivingZones z ≤ ⌈allocation.desired⌉ - num hints z) := by
  obtain ⟨hgiving, hreceiving⟩ := start_differences hsound hn hhints
  obtain ⟨x, hx, heq⟩ := Option.map_eq_some_iff.1 h
  cases heq
  have howed := run_owed hgiving hreceiving (start_owed hsound hn hhints) hx
  -- Twice an integer is at most twice another one and one.
  have hround : ∀ {k m : Int} {d : ℚ}, (k : ℚ) ≤ d + 1 / 2 → d ≤ (m : Int) → k ≤ m := by
    intro k m d hk hd
    have : (k : ℚ) < (m + 1 : Int) := by
      push_cast
      linarith
    exact Int.lt_add_one_iff.1 (Int.cast_lt.1 this)
  refine ⟨howed.giving.nonneg z, howed.receiving.nonneg z, fun hne => ?_, fun hne => ?_⟩
  · obtain ⟨d, hd, hle⟩ := howed.giving.bound z hne
    obtain ⟨-, allocation, hallocation, hle'⟩ := start_giving hsound hn hhints hd
    exact ⟨allocation, hallocation, hround hle hle'⟩
  · obtain ⟨d, hd, hle⟩ := howed.receiving.bound z hne
    obtain ⟨-, allocation, hallocation, hle'⟩ := start_receiving hsound hn hhints hd
    exact ⟨allocation, hallocation, hround hle hle'⟩

end Zones

/-! ## What is redistributed -/

/-- What has been redistributed is what has been received, without what has been given. -/
structure Redistribution.Within (givingZones receivingZones : EndpointZoneInfo)
    (st : Redistribution) : Prop where
  giving : ∀ z, 0 ≤ num st.givingZones z ∧ num st.givingZones z ≤ num givingZones z
  receiving : ∀ z, 0 ≤ num st.receivingZones z ∧ num st.receivingZones z ≤ num receivingZones z
  redistributions : ∀ z, num st.redistributions z =
    (num receivingZones z - num st.receivingZones z) - (num givingZones z - num st.givingZones z)

theorem Redistribution.Within.step {givingZones receivingZones : EndpointZoneInfo} (o : HintOrders)
    (endpoint : Endpoint) {st : Redistribution} (h : st.Within givingZones receivingZones) :
    (redistributeEndpoint o st endpoint).1.Within givingZones receivingZones := by
  rcases redistributeEndpoint_cases o st endpoint with heq | ⟨zone, -, hgive, hreceive, heq⟩
  · rw [heq]
    exact ⟨h.giving, h.receiving, h.redistributions⟩
  · rw [heq]
    refine ⟨fun z => ?_, fun z => ?_, fun z => ?_⟩
    · have := h.giving z
      rw [num_takeOne]
      split
      · rename_i hz
        rw [← hz] at hgive
        omega
      · omega
    · have := h.receiving z
      rw [num_takeOne]
      split
      · rename_i hz
        rw [← hz] at hreceive
        omega
      · omega
    · rw [num_takeOne, num_takeOne, num_addTo, num_addTo, h.redistributions]
      split
      · split
        · omega
        · omega
      · split
        · omega
        · omega

theorem redistributions_bounds {o : HintOrders} {slices slices' : List EndpointSlice}
    {givingZones receivingZones redistributions : EndpointZoneInfo}
    (hgiving : ∀ z, 0 ≤ num givingZones z) (hreceiving : ∀ z, 0 ≤ num receivingZones z)
    (h : redistributeHints o slices givingZones receivingZones = (redistributions, slices'))
    (z : String) : -num givingZones z ≤ num redistributions z ∧
      num redistributions z ≤ num receivingZones z := by
  have hwithin := mapState_invariant (f := mapEndpoints (redistributeEndpoint o))
    (I := fun st => st.Within givingZones receivingZones) slices
    ⟨givingZones, receivingZones, ∅, 0⟩
    (fun st slice _ hst => mapState_invariant (f := redistributeEndpoint o)
      (I := fun st => st.Within givingZones receivingZones) slice.endpoints st
      (fun st endpoint _ hst => hst.step o endpoint) hst)
    ⟨fun z => ⟨hgiving z, le_rfl⟩, fun z => ⟨hreceiving z, le_rfl⟩, fun z => by simp⟩
  rw [redistributeHints] at h
  obtain ⟨hred, -⟩ := Prod.mk.inj h
  have heq := hwithin.redistributions z
  have hg := hwithin.giving z
  have hr := hwithin.receiving z
  rw [← hred]
  omega

/-! ## How many hints there can be -/

/-- An endpoint and its hints. -/
def Endpoint.weight (endpoint : Endpoint) : Int := 1 + (endpoint.hints.getD []).length

def EndpointSlice.weight (slice : EndpointSlice) : Int := (slice.endpoints.map Endpoint.weight).sum

/-- The number of endpoints and hints of slices. -/
def weight (slices : List EndpointSlice) : Int := (slices.map EndpointSlice.weight).sum

theorem weight_append (slices slices' : List EndpointSlice) :
    weight (slices ++ slices') = weight slices + weight slices' := by
  rw [weight, List.map_append, List.sum_append, weight, weight]

theorem Moved.weight_eq {si si' : SliceInfo} (h : Moved si si') :
    weight si'.slices = weight si.slices := by
  obtain ⟨moved, hmoved, hperm⟩ := h.toUpdate
  refine List.Perm.sum_eq (List.Perm.map _ ?_)
  rw [SliceInfo.slices, SliceInfo.slices, h.toCreate, hmoved]
  simp only [List.append_assoc]
  exact (hperm.append_left _).append_left _

theorem Endpoint.hintsFor_nonneg (z : String) (endpoint : Endpoint) :
    0 ≤ Endpoint.hintsFor z endpoint := by
  rw [Endpoint.hintsFor]
  split
  · exact Int.natCast_nonneg _
  · exact le_rfl

theorem hintsFor_nonneg (z : String) (slices : List EndpointSlice) : 0 ≤ hintsFor z slices := by
  refine List.sum_nonneg fun n hn => ?_
  obtain ⟨slice, -, rfl⟩ := List.mem_map.1 hn
  refine List.sum_nonneg fun n hn => ?_
  obtain ⟨endpoint, -, rfl⟩ := List.mem_map.1 hn
  exact Endpoint.hintsFor_nonneg z endpoint

theorem Endpoint.hintsFor_le (z : String) (endpoint : Endpoint) :
    Endpoint.hintsFor z endpoint ≤ Endpoint.weight endpoint := by
  have hcount := List.count_le_length (a := z) (l := endpoint.hints.getD [])
  rw [Endpoint.hintsFor, Endpoint.weight]
  split
  · omega
  · omega

theorem hintsFor_le_weight (z : String) (slices : List EndpointSlice) :
    hintsFor z slices ≤ weight slices :=
  List.sum_le_sum fun _ _ => List.sum_le_sum fun endpoint _ => Endpoint.hintsFor_le z endpoint

theorem SameZone.hintsFor_le {endpoint endpoint' : Endpoint} (h : SameZone endpoint endpoint')
    (z : String) : Endpoint.hintsFor z endpoint' ≤ Endpoint.weight endpoint := by
  have hready : EndpointReady endpoint' = EndpointReady endpoint := by rw [h]; rfl
  rw [Endpoint.hintsFor, hready, Endpoint.weight]
  split
  · rename_i hready'
    have hlength := List.count_le_length (a := z) (l := endpoint'.hints.getD [])
    rw [h] at hlength ⊢
    simp only [hready', if_true, Option.getD_some, List.length_singleton] at hlength ⊢
    omega
  · omega

theorem numReadyEndpoints_le (endpoints : List Endpoint) :
    (numReadyEndpoints endpoints : Int) ≤ (endpoints.map Endpoint.weight).sum := by
  induction endpoints with
  | nil => exact le_rfl
  | cons endpoint endpoints ih =>
    rw [numReadyEndpoints, List.countP_cons, ← numReadyEndpoints, List.map_cons, List.sum_cons,
      Endpoint.weight]
    push_cast
    split
    · omega
    · omega

theorem sum_numReadyEndpoints_le (slices : List EndpointSlice) :
    (((slices.map fun slice => numReadyEndpoints slice.endpoints).sum : Nat) : Int) ≤
      weight slices := by
  induction slices with
  | nil => exact le_rfl
  | cons slice slices ih =>
    rw [weight, List.map_cons, List.sum_cons, List.map_cons, List.sum_cons, ← weight,
      EndpointSlice.weight]
    push_cast at ih ⊢
    exact add_le_add (numReadyEndpoints_le slice.endpoints) ih

theorem getTotalReadyEndpoints_le (si : SliceInfo) :
    (si.getTotalReadyEndpoints : Int) ≤ weight si.slices := by
  rw [SliceInfo.getTotalReadyEndpoints, SliceInfo.slices, weight_append, weight_append,
    Nat.cast_add, Nat.cast_add]
  exact add_le_add (add_le_add (sum_numReadyEndpoints_le _) (sum_numReadyEndpoints_le _))
    (sum_numReadyEndpoints_le _)

/-- The hints for own zones are at most one for each endpoint, and those of unchanged slices. -/
theorem sameZone_bounds {si moved : SliceInfo} {allocations : GoMap String Allocation}
    {kept sameZone : EndpointZoneInfo} {slices : List EndpointSlice}
    (hmoved : si.getAllocatedHintsByZone allocations = (moved, kept))
    (hassign : mapState (mapEndpoints assignSameZone) (some kept) (moved.toCreate ++ moved.toUpdate) =
      (some sameZone, slices)) (z : String) :
    0 ≤ num sameZone z ∧ num sameZone z ≤ weight si.slices := by
  obtain ⟨hmoved, -, hkept⟩ := getAllocatedHintsByZone_spec hmoved
  obtain ⟨hchanged, hnum⟩ := assign_spec hassign
  have hle : hintsFor z slices ≤ weight (moved.toCreate ++ moved.toUpdate) :=
    sum_le_of_forall₂ (fun _ _ h => sum_le_of_forall₂ (fun _ _ h => h.hintsFor_le z) h.1) hchanged
  have hunchanged := hintsFor_le_weight z moved.unchanged
  have hnonneg := hintsFor_nonneg z moved.unchanged
  have hnonneg' := hintsFor_nonneg z slices
  rw [← hmoved.weight_eq, SliceInfo.slices, weight_append, hnum, hkept]
  omega

/-! ## Syncs -/

/-- `AddHints` returns, and more fuel changes nothing. -/
theorem AddHints_returns {t : TopologyCache} (ht : t.SoundRatios) {si : SliceInfo}
    (hsmall : weight si.slices < 2 ^ 53) (o : HintOrders) :
    ∃ rounds r, ∀ fuel, rounds < fuel → t.AddHints o fuel si = some r := by
  have hready := getTotalReadyEndpoints_le si
  unfold TopologyCache.AddHints
  cases hallocations : t.getAllocations o.ratios si.getTotalReadyEndpoints with
  | error event => exact ⟨0, _, fun _ _ => rfl⟩
  | ok allocations =>
    have hsound := getAllocations_sound ht (Int.natCast_nonneg _) (hready.trans hsmall.le) hallocations
    dsimp only
    split
    · exact ⟨0, _, fun _ _ => rfl⟩
    · rename_i sameZone slices hassign
      have hhints : ∀ z, 0 ≤ num sameZone z ∧ num sameZone z < 2 ^ 53 := fun z =>
        (sameZone_bounds rfl hassign z).imp_right hsmall.trans_le'
      obtain ⟨rounds, zones, hzones⟩ := zones_return hsound (hready.trans_lt hsmall) hhints o
      exact ⟨rounds, _, fun fuel hfuel => by rw [hzones fuel hfuel, Option.map_some]⟩

/-- The CPUs of the nodes of an event are not negative. -/
def HintEvent.CpuNonneg : HintEvent → Prop
  | .checkNodes nodes => ∀ node ∈ nodes, 0 ≤ node.cpu
  | _ => True

theorem soundRatios_runs {s : HintState} {es : List HintEvent}
    (h : Runs HintState.Step HintState.start es s) (hcpu : ∀ e ∈ es, e.CpuNonneg) :
    s.cache.SoundRatios := by
  refine Runs.invariant_mem (I := fun s : HintState => s.cache.SoundRatios) ?_ hcpu h ?_
  · intro s e s' he hs hstep
    cases hstep with
    | sync h =>
      rw [TopologyCache.SoundRatios, HintState.leave]
      dsimp only
      rw [reconcileHints_ratios h]
      exact hs
    | unsupported serviceKey addressType => exact hs
    | checkNodes nodes => exact SetNodes_soundRatios _ he
  · intro ratios hratios zone ratio hratio
    cases hratios
    exact absurd hratio (Option.some_ne_none _).symm

theorem reconcileHints_returns {t : TopologyCache} (ht : t.SoundRatios) {si : SliceInfo}
    (hsmall : weight si.slices < 2 ^ 53) (annotations : GoMap String String) (o : HintOrders) :
    ∃ rounds r, ∀ fuel, rounds < fuel → t.reconcileHints o fuel annotations si = some r := by
  unfold TopologyCache.reconcileHints
  split
  · exact AddHints_returns ht hsmall o
  · exact ⟨0, _, fun _ _ => rfl⟩

/-- Every sync returns: with enough fuel there is a next state, and it does not depend on the
fuel. -/
theorem sync_returns {s : HintState} {es : List HintEvent}
    (h : Runs HintState.Step HintState.start es s) (hcpu : ∀ e ∈ es, e.CpuNonneg) {si : SliceInfo}
    (hsmall : weight si.slices < 2 ^ 53) (annotations : GoMap String String) (o : HintOrders) :
    ∃ rounds s', ∀ fuel, rounds < fuel → HintState.Step s (.sync si annotations o fuel) s' := by
  obtain ⟨rounds, ⟨t, si', events⟩, hreturns⟩ :=
    reconcileHints_returns (soundRatios_runs h hcpu) hsmall annotations o
  exact ⟨rounds, _, fun fuel hfuel => .sync (hreturns fuel hfuel)⟩

theorem webHintEvents_cpuNonneg : ∀ e ∈ webHintEvents, e.CpuNonneg := by
  intro e he
  simp only [webHintEvents, List.mem_cons, List.not_mem_nil, or_false] at he
  rcases he with rfl | rfl
  · intro node hnode
    simp only [List.mem_cons, List.not_mem_nil, or_false] at hnode
    rcases hnode with rfl | rfl
    · exact by decide
    · exact by decide
  · trivial

theorem sync_returns_web : ∃ s, Runs HintState.Step HintState.start webHintEvents s ∧
    ∃ rounds s', ∀ fuel, rounds < fuel →
      HintState.Step s (.sync webInfo autoHints storedOrders fuel) s' := by
  obtain ⟨s, hs, -⟩ := webHintRun
  exact ⟨s, hs, sync_returns hs webHintEvents_cpuNonneg (by decide) autoHints storedOrders⟩

/-- A ready endpoint of a zone. -/
def Endpoint.readyIn (zone : String) (endpoint : Endpoint) : Int :=
  if EndpointReady endpoint ∧ endpoint.zone.getD "" = zone then 1 else 0

def EndpointSlice.readyIn (zone : String) (slice : EndpointSlice) : Int :=
  (slice.endpoints.map (Endpoint.readyIn zone)).sum

/-- The hints for a zone before any is changed: those that unchanged slices have, and those of the
zone's own endpoints. -/
def SliceInfo.ownHints (zone : String) (si : SliceInfo) : Int :=
  hintsFor zone si.unchanged + ((si.toCreate ++ si.toUpdate).map (EndpointSlice.readyIn zone)).sum

theorem OwnHint.hintsFor_eq {endpoint endpoint' : Endpoint} (hown : OwnHint endpoint)
    (h : OneHint endpoint endpoint') (z : String) :
    Endpoint.hintsFor z endpoint = Endpoint.readyIn z endpoint' := by
  obtain ⟨hints, rfl, -⟩ := h
  have hready : EndpointReady { endpoint with hints := hints } = EndpointReady endpoint := rfl
  rw [Endpoint.hintsFor, Endpoint.readyIn, hready]
  by_cases hready : EndpointReady endpoint = true
  · simp only [hready, hown hready, if_true, true_and, Option.getD_some, List.count_singleton,
      beq_iff_eq]
    split
    · rfl
    · rfl
  · rw [if_neg hready, if_neg (fun h => hready h.1)]

namespace Stages

variable {o : HintOrders} {fuel : Nat} {t : TopologyCache} {si : SliceInfo} (c : Stages o fuel t si)

theorem num_sameZone (z : String) : num c.sameZone z = c.result.ownHints z := by
  have hkept := c.moved_spec.2.2 z
  have hsame := c.sameZone_spec.2 z
  have hown : hintsFor z c.sameZoneSlices = (c.slices.map (EndpointSlice.readyIn z)).sum := by
    refine congrArg List.sum (map_eq_of_forall₂ (fun slice slice' h => ?_)
      ((List.forall₂_and_left _ _).2 ⟨c.ownHint, c.redistributions_spec.1⟩))
    exact congrArg List.sum (map_eq_of_forall₂ (fun _ _ h => h.1.hintsFor_eq h.2 z)
      ((List.forall₂_and_left _ _).2 ⟨h.1, h.2.1⟩))
  rw [hsame, hkept, hown, SliceInfo.ownHints, result, List.take_append_drop]

/-- A zone gives hints away only down to its minimum, and gets others only up to the number that
is desired for it. -/
theorem hints_bounds (ht : t.SoundRatios) (hsmall : weight si.slices < 2 ^ 53) (z : String) :
    (∀ allocation, c.allocations.lookup z = some allocation →
      min (c.result.ownHints z) allocation.minimum ≤ num c.hints z ∧
        num c.hints z ≤ max (c.result.ownHints z) ⌈allocation.desired⌉) ∧
    (c.allocations.lookup z = none → num c.hints z = c.result.ownHints z) := by
  have hready := getTotalReadyEndpoints_le si
  have hsound := getAllocations_sound ht (Int.natCast_nonneg _) (hready.trans hsmall.le)
    c.allocations_eq
  have hhints : ∀ z, 0 ≤ num c.sameZone z ∧ num c.sameZone z < 2 ^ 53 := fun z =>
    (sameZone_bounds c.moved_eq c.sameZone_eq z).imp_right hsmall.trans_le'
  have hzones := zones_bounds hsound (hready.trans_lt hsmall) hhints c.zones_eq
  have hred := redistributions_bounds (fun z => (hzones z).1) (fun z => (hzones z).2.1)
    c.redistributions_eq z
  obtain ⟨hgive, hreceive, hgiving, hreceiving⟩ := hzones z
  rw [hints, num_addAll, ← c.num_sameZone]
  refine ⟨fun allocation hallocation => ⟨?_, ?_⟩, fun hnone => ?_⟩
  · by_cases hzero : num c.givingZones z = 0
    · exact min_le_of_left_le (by omega)
    · obtain ⟨allocation', hallocation', hle⟩ := hgiving hzero
      cases hallocation.symm.trans hallocation'
      exact min_le_of_right_le (by omega)
  · by_cases hzero : num c.receivingZones z = 0
    · exact le_max_of_le_left (by omega)
    · obtain ⟨allocation', hallocation', hle⟩ := hreceiving hzero
      cases hallocation.symm.trans hallocation'
      exact le_max_of_le_right (by omega)
  · have hgive₀ : num c.givingZones z = 0 := by
      by_contra hne
      obtain ⟨allocation, hsome, -⟩ := hgiving hne
      exact absurd (hnone.symm.trans hsome) (Option.some_ne_none _).symm
    have hreceive₀ : num c.receivingZones z = 0 := by
      by_contra hne
      obtain ⟨allocation, hsome, -⟩ := hreceiving hne
      exact absurd (hnone.symm.trans hsome) (Option.some_ne_none _).symm
    omega

end Stages

theorem not_hasPopulatedHints_RemoveHints (t : TopologyCache) (serviceKey : String)
    (addrType : AddressType) :
    ¬ (t.RemoveHints serviceKey addrType).HasPopulatedHints serviceKey = true := by
  rw [TopologyCache.HasPopulatedHints, TopologyCache.RemoveHints, decide_eq_true_eq]
  exact Finset.notMem_erase serviceKey _

/-- After a sync that leaves hints, a zone has fewer hints than its own endpoints and those of
unchanged slices make up only down to its minimum, and more only up to the number desired. -/
theorem zone_hints_bounds {s : HintState} {es : List HintEvent}
    (h : Runs HintState.Step HintState.start es s) (hcpu : ∀ e ∈ es, e.CpuNonneg)
    {si si' : SliceInfo} (hsmall : weight si.slices < 2 ^ 53) {annotations : GoMap String String}
    {o : HintOrders} {fuel : Nat} {t : TopologyCache} {events : List EventBuilder}
    (hsync : s.cache.reconcileHints o fuel annotations si = some (t, si', events))
    (hpopulated : t.HasPopulatedHints si.serviceKey = true) :
    ∃ allocations, s.cache.getAllocations o.ratios si.getTotalReadyEndpoints = .ok allocations ∧
      ∀ zone,
        (∀ allocation, allocations.lookup zone = some allocation →
          min (si'.ownHints zone) allocation.minimum ≤
            t.cachedHints si.serviceKey si.addressType zone ∧
          t.cachedHints si.serviceKey si.addressType zone ≤
            max (si'.ownHints zone) ⌈allocation.desired⌉) ∧
        (allocations.lookup zone = none →
          t.cachedHints si.serviceKey si.addressType zone = si'.ownHints zone) := by
  rw [TopologyCache.reconcileHints] at hsync
  split at hsync
  · rcases AddHints_cases hsync with ⟨si₀, message, hmoved, heq⟩ | ⟨c, -, ht, hsi⟩
    · cases heq
      rw [← hmoved.serviceKey] at hpopulated
      exact absurd hpopulated (not_hasPopulatedHints_RemoveHints _ _ _)
    · dsimp only at ht hsi
      subst ht hsi
      refine ⟨c.allocations, c.allocations_eq, fun zone => ?_⟩
      rw [TopologyCache.cachedHints, cachedInfo_SetHints, if_pos ⟨rfl, rfl⟩]
      exact c.hints_bounds (soundRatios_runs h hcpu) hsmall zone
  · cases hsync
    exact absurd hpopulated (not_hasPopulatedHints_RemoveHints _ _ _)

theorem zone_hints_bounds_web : ∃ t si' events allocations,
    zonesCache.reconcileHints storedOrders 5 autoHints webInfo = some (t, si', events) ∧
      zonesCache.getAllocations storedOrders.ratios webInfo.getTotalReadyEndpoints =
        .ok allocations ∧
      ∀ allocation, allocations.lookup "a" = some allocation →
        min (si'.ownHints "a") allocation.minimum ≤ t.cachedHints "default/web" .ipv4 "a" := by
  have hsome : ((zonesCache.reconcileHints storedOrders 5 autoHints webInfo).map
      fun r => r.1.HasPopulatedHints "default/web") = some true := by decide +kernel
  obtain ⟨⟨t, si', events⟩, hsync, hpopulated⟩ := Option.map_eq_some_iff.1 hsome
  have hrun : Runs HintState.Step HintState.start [.checkNodes [zoneNode "a", zoneNode "b"]]
      { HintState.start with cache := zonesCache } := .single (.checkNodes _)
  obtain ⟨allocations, hallocations, hbounds⟩ := zone_hints_bounds hrun
    (fun e he => webHintEvents_cpuNonneg e (List.mem_cons.2 (.inl (List.mem_singleton.1 he))))
    (by decide) hsync hpopulated
  exact ⟨t, si', events, allocations, hsync, hallocations,
    fun allocation hallocation => ((hbounds "a").1 allocation hallocation).1⟩

end Fleetboard.EndpointSlices.Topology

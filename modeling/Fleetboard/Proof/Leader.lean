import Fleetboard.Proof.NodeCIDR

/-!
# The leader that a worker follows

A worker learns from the labels of the pods who the leader is, and keeps tunnels
to the leader only.

* `ShouldHandlerPod_spec`: what one event does to the leader that is kept, and
  when all tunnels are torn down;
* `worker_follows_iff`: a worker follows the label throughout a run exactly when
  no pod turns up with the label while another one is kept as the leader.
-/

namespace Fleetboard.Tunnel

/-! ## One event -/

section

variable {parseKey : String → Except Error Key} {podName : String}
  {c c' : InnerClusterTunnelController} {pod : Pod} {env : RecycleEnv}

/-- Tearing down the tunnels leaves the leader as it is. -/
theorem RecycleAllResources_leader (h : c.RecycleAllResources parseKey env = .ok c') :
    c'.GetCurrentLeader = c.GetCurrentLeader := by
  unfold InnerClusterTunnelController.RecycleAllResources at h
  generalize env.order.visit c.wireguard.innerConnections.entries = es at h
  induction es generalizing c with
  | nil =>
    cases h
    rfl
  | cons e es ih =>
    obtain ⟨c₁, h₁, h₂⟩ := Go.foldlM_cons_eq_ok.mp h
    refine (ih h₂).trans ?_
    split at h₁
    · cases h₁
      rfl
    · obtain ⟨r, hr, h₁⟩ := Go.bind_eq_ok.mp h₁
      cases h₁
      rw [(recycleResources_cases hr).1]
      rfl

theorem leaderAnswer_eq_true {leader : String}
    (h : InnerClusterTunnelController.leaderAnswer podName pod leader = true)
    (hne : podName ≠ leader) : pod.name = leader := by
  rw [InnerClusterTunnelController.leaderAnswer, if_neg hne] at h
  split_ifs at h
  exact of_decide_eq_true h

/-- What one event does: a pod with the label becomes the leader when none is
kept, and has all tunnels torn down, without becoming the leader, when another
one is kept. The answer for another pod is yes only if it has the label or is
kept as the leader. -/
theorem ShouldHandlerPod_spec {r : ShouldResult}
    (h : c.ShouldHandlerPod parseKey podName pod env = .ok r) :
    (r.ctl.GetCurrentLeader = if c.GetCurrentLeader = "" ∧ pod.carriesLeaderLabel then pod.name
      else c.GetCurrentLeader) ∧
    (r.recycled ↔ c.GetCurrentLeader ≠ "" ∧ pod.carriesLeaderLabel ∧
      c.GetCurrentLeader ≠ pod.name) ∧
    (r.answer → pod.name ≠ podName → pod.carriesLeaderLabel ∨
      c.GetCurrentLeader ≠ "" ∧ (podName = c.GetCurrentLeader ∨ pod.name = c.GetCurrentLeader)) := by
  rw [InnerClusterTunnelController.ShouldHandlerPod] at h
  by_cases hnone : c.GetCurrentLeader = ""
  · rw [if_pos hnone] at h
    by_cases hlabel : pod.carriesLeaderLabel
    · rw [if_pos hlabel] at h
      cases h
      refine ⟨?_, by simp [hnone], fun _ _ => .inl hlabel⟩
      rw [if_pos ⟨hnone, hlabel⟩]
      rfl
    · rw [if_neg hlabel] at h
      cases h
      exact ⟨by rw [if_neg (by simp [hlabel])], by simp [hnone], fun ha => by cases ha⟩
  · rw [if_neg hnone] at h
    by_cases hnew : pod.carriesLeaderLabel ∧ c.GetCurrentLeader ≠ pod.name
    · rw [if_pos hnew] at h
      obtain ⟨c₁, hc₁, h⟩ := Go.bind_eq_ok.mp h
      cases h
      refine ⟨?_, iff_of_true rfl ⟨hnone, hnew⟩, fun _ _ => .inl hnew.1⟩
      rw [if_neg fun h => hnone h.1]
      exact RecycleAllResources_leader hc₁
    · rw [if_neg hnew] at h
      cases h
      refine ⟨by rw [if_neg fun h => hnone h.1], iff_of_false (by simp) fun h => hnew h.2, ?_⟩
      intro ha _
      by_cases hself : podName = c.GetCurrentLeader
      · exact .inr ⟨hnone, .inl hself⟩
      · exact .inr ⟨hnone, .inr (leaderAnswer_eq_true ha hself)⟩

end

/-! ## Runs of a worker -/

/-- A worker with what there is to follow: the pod that carries the label, the
last pod that the worker has seen with it, how often that has changed, how often
the worker has torn down its tunnels, and its last answer. -/
structure Worker where
  ctl : InnerClusterTunnelController
  labelled : Option String
  leader : String
  changes : Nat
  recycles : Nat
  answer : Option (String × Bool)

/-- The label moves, or the worker gets an event of a pod. -/
inductive LabelEvent
  | move (carrier : Option String)
  | event (pod : Pod) (env : RecycleEnv)

section

variable (parseKey : String → Except Error Key) (podName : String)

/-- One step around the worker `podName`, which never carries the label. At
any time one pod carries it at most. -/
def workerStep (w : Worker) (e : LabelEvent) (w' : Worker) : Prop :=
  match e with
  | .move carrier => carrier ≠ some podName ∧ w' = { w with labelled := carrier }
  | .event pod env => (pod.carriesLeaderLabel ↔ w.labelled = some pod.name) ∧
    ∃ r, w.ctl.ShouldHandlerPod parseKey podName pod env = .ok r ∧ w' = { w with
      ctl := r.ctl
      leader := if pod.carriesLeaderLabel then pod.name else w.leader
      changes := if pod.carriesLeaderLabel ∧ w.leader ≠ "" ∧ w.leader ≠ pod.name then w.changes + 1
        else w.changes
      recycles := if r.recycled then w.recycles + 1 else w.recycles
      answer := some (pod.name, r.answer) }

/-- The worker keeps the leader that it has seen last, has torn down its tunnels
once for each change, and handles of the other pods the leader only. -/
structure Follows (w : Worker) : Prop where
  leader : w.ctl.GetCurrentLeader = w.leader
  recycles : w.recycles = w.changes
  answer : ∀ n, w.answer = some (n, true) → n ≠ podName → n = w.leader

/-- A pod turns up with the label only where it is kept as the leader, or none
is. -/
def LabelStays (w : Worker) : LabelEvent → Prop
  | .move _ => True
  | .event pod _ => pod.carriesLeaderLabel →
    w.ctl.GetCurrentLeader = "" ∨ w.ctl.GetCurrentLeader = pod.name

/-- The worker is no leader. -/
def NoLeader (w : Worker) : Prop :=
  w.labelled ≠ some podName ∧ (w.ctl.GetCurrentLeader ≠ "" → w.ctl.GetCurrentLeader ≠ podName)

variable {parseKey podName} {w w' : Worker}

theorem NoLeader.step (hw : NoLeader podName w) {e : LabelEvent}
    (h : workerStep parseKey podName w e w') : NoLeader podName w' := by
  cases e with
  | move carrier =>
    obtain ⟨hcarrier, rfl⟩ := h
    exact ⟨hcarrier, hw.2⟩
  | event pod env =>
    obtain ⟨hlabel, r, hr, rfl⟩ := h
    refine ⟨hw.1, ?_⟩
    show r.ctl.GetCurrentLeader ≠ "" → r.ctl.GetCurrentLeader ≠ podName
    rw [(ShouldHandlerPod_spec hr).1]
    split_ifs with hnew
    · intro _ hname
      exact hw.1 (hname ▸ hlabel.mp hnew.2)
    · exact hw.2

theorem Follows.step_iff (hw : NoLeader podName w) (hf : Follows podName w) {e : LabelEvent}
    (h : workerStep parseKey podName w e w') : Follows podName w' ↔ LabelStays w e := by
  cases e with
  | move carrier =>
    obtain ⟨-, rfl⟩ := h
    exact iff_of_true ⟨hf.leader, hf.recycles, hf.answer⟩ trivial
  | event pod env =>
    obtain ⟨hlabel, r, hr, rfl⟩ := h
    obtain ⟨hleader, hrec, hans⟩ := ShouldHandlerPod_spec hr
    constructor
    · intro hf' hlab
      have h := hf'.leader
      simp only [hleader, hlab, and_true, if_true] at h
      by_contra hne
      rw [not_or] at hne
      rw [if_neg hne.1] at h
      exact hne.2 h
    · intro hstays
      refine ⟨?_, ?_, ?_⟩
      · show r.ctl.GetCurrentLeader = if pod.carriesLeaderLabel then pod.name else w.leader
        rw [hleader, ← hf.leader]
        by_cases hlab : pod.carriesLeaderLabel
        · rw [if_pos hlab]
          split_ifs with hnone
          · rfl
          · exact (hstays hlab).resolve_left fun h => hnone ⟨h, hlab⟩
        · rw [if_neg hlab, if_neg fun h => hlab h.2]
      · show (if r.recycled then w.recycles + 1 else w.recycles) =
          if pod.carriesLeaderLabel ∧ w.leader ≠ "" ∧ w.leader ≠ pod.name then w.changes + 1
          else w.changes
        -- No change, and no tunnels torn down.
        have hno : ¬ (w.ctl.GetCurrentLeader ≠ "" ∧ pod.carriesLeaderLabel ∧
            w.ctl.GetCurrentLeader ≠ pod.name) := fun ⟨h₁, h₂, h₃⟩ => (hstays h₂).elim h₁ h₃
        rw [if_neg (fun hr => hno (hrec.mp hr)), if_neg, hf.recycles]
        rw [← hf.leader]
        exact fun ⟨h₁, h₂, h₃⟩ => hno ⟨h₂, h₁, h₃⟩
      · intro n hn hne
        obtain ⟨rfl, ha⟩ := Prod.mk.inj (Option.some_inj.mp hn)
        show pod.name = if pod.carriesLeaderLabel then pod.name else w.leader
        split_ifs with hlab
        · rfl
        · rcases (hans ha hne).resolve_left hlab with ⟨hsome, hself | hname⟩
          · exact absurd hself.symm (hw.2 hsome)
          · exact hname.trans hf.leader

/-- A worker that has not seen a leader yet follows the label in every state of
a run exactly when no pod turns up with the label while another one is kept as
the leader. -/
theorem worker_follows_iff (hnew : w.ctl.GetCurrentLeader = "" ∧ w.leader = "")
    (hcount : w.recycles = w.changes) (hanswer : w.answer = none)
    (hlabel : w.labelled ≠ some podName) {es : List LabelEvent} :
    Runs (Reaching (workerStep parseKey podName) (Follows podName)) w es w' ↔
      Runs (Guarded (workerStep parseKey podName) LabelStays) w es w' := by
  refine Runs.reaching_iff_guarded (P := fun _ => True) (J := NoLeader podName) ?_ ?_
    (fun _ _ => trivial) ⟨hlabel, fun h => absurd hnew.1 h⟩ ⟨hnew.1.trans hnew.2.symm, hcount, ?_⟩
  · exact fun _ hw h => hw.step h
  · exact fun _ hw hf h => hf.step_iff hw h
  · intro n hn
    rw [hanswer] at hn
    cases hn

end

/-! A worker, and two pods that carry the label one after the other. -/

/-- The worker `cnf-w` before it has seen a leader. -/
def newWorker : Worker := ⟨{ newInner with currentLeader := "" }, none, "", 0, 0, none⟩

def labelledPod (name node : String) : Pod :=
  { cnfPod name node "new" with
    labels := (∅ : GoMap String String).insert Known.LeaderCNFLabelKey "true" }

def recycleAll : RecycleEnv := ⟨.stored, fun _ => none, fun _ => allRoutes⟩

/-- An event with the label, and a resync of the same pod. -/
theorem worker_follows_first :
    ∃ w', Runs (Reaching (workerStep sampleKey "cnf-w") (Follows "cnf-w")) newWorker
      [.move (some "cnf-a"), .event (labelledPod "cnf-a" "node-1") recycleAll,
        .event (labelledPod "cnf-a" "node-1") recycleAll] w' ∧
      w'.ctl.GetCurrentLeader = "cnf-a" ∧ w'.recycles = 0 := by
  refine ⟨_, (worker_follows_iff ⟨rfl, rfl⟩ rfl rfl (by decide)).mpr
    (.cons ⟨⟨by decide, rfl⟩, trivial⟩ (.cons ⟨⟨by decide, _, rfl, rfl⟩, fun _ => .inl rfl⟩
      (.cons ⟨⟨by decide, _, rfl, rfl⟩, fun _ => .inr rfl⟩ (.nil _)))), rfl, rfl⟩

/-- The label moves once: the worker keeps the first leader, and tears down its
tunnels at each event of the second. -/
theorem worker_keeps_first_leader :
    newWorker.ctl.GetCurrentLeader = "" ∧ newWorker.labelled = none ∧
    ∃ w', Runs (workerStep sampleKey "cnf-w") newWorker
      [.move (some "cnf-a"), .event (labelledPod "cnf-a" "node-1") recycleAll,
        .move (some "cnf-b"), .event (labelledPod "cnf-b" "node-2") recycleAll,
        .event (labelledPod "cnf-b" "node-2") recycleAll] w' ∧
      w'.leader = "cnf-b" ∧ w'.ctl.GetCurrentLeader = "cnf-a" ∧ w'.changes = 1 ∧ w'.recycles = 2 ∧
      ¬ Follows "cnf-w" w' := by
  refine ⟨rfl, rfl, _, .cons ⟨by decide, rfl⟩ (.cons ⟨by decide, _, rfl, rfl⟩
    (.cons ⟨by decide, rfl⟩ (.cons ⟨by decide, _, rfl, rfl⟩ (.cons ⟨by decide, _, rfl, rfl⟩
      (.nil _))))), by decide, by decide, by decide, by decide, fun h => ?_⟩
  exact absurd h.recycles (by decide)

end Fleetboard.Tunnel

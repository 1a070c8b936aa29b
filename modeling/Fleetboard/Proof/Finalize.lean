import Fleetboard.Proof.Settled

/-!
# The calls of the API

`finalize` first turns creates into updates of slices that would be deleted, and then makes its
calls. When all of them succeed, the slices that were to be updated or created are in the store,
with other names and annotations, instead of those that were to be updated or deleted
(`finalize_ok`).
-/

namespace Fleetboard.EndpointSlices

variable {api : Api} {service : Service} {server : ApiServer} {changes : Changes}
  {triggerTime : Option String} {olds rest : List EndpointSlice}

/-! ## Creates that become updates -/

/-- A slice without its name and annotations, which are set by the calls. -/
def anonymous (s : EndpointSlice) : EndpointSlice := { s with name := "", annotations := ∅ }

theorem recycleSlices_anonymous (service : Service) (c u d : List EndpointSlice) :
    (((recycleSlices service c u d).toUpdate ++ (recycleSlices service c u d).toCreate).map
      anonymous).Perm ((u ++ c).map anonymous) := by
  induction d generalizing c u with
  | nil => exact .refl _
  | cons s d ih =>
    unfold recycleSlices
    cases hlast : c.getLast? with
    | none => exact .refl _
    | some slice =>
      simp only
      split_ifs
      · obtain ⟨c, rfl⟩ : ∃ c', c = c' ++ [slice] :=
          ⟨c.dropLast, (List.dropLast_append_getLast? slice hlast).symm⟩
        rw [List.dropLast_concat]
        refine (ih _ _).trans ?_
        rw [List.append_assoc, List.map_append, List.map_append, List.map_append]
        refine List.Perm.append_left _ ?_
        rw [List.map_append]
        exact List.perm_append_comm
      · exact ih c u

theorem recycleSlices_names (service : Service) (c u d : List EndpointSlice) :
    (((recycleSlices service c u d).toUpdate ++ (recycleSlices service c u d).toDelete).map
      (·.name)).Perm ((u ++ d).map (·.name)) := by
  induction d generalizing c u with
  | nil => exact .refl _
  | cons s d ih =>
    unfold recycleSlices
    cases c.getLast? with
    | none => exact .refl _
    | some slice =>
      simp only
      split_ifs
      · refine (ih _ _).trans (.of_eq ?_)
        simp only [List.map_append, List.map_cons, List.append_assoc]
        rfl
      · rw [List.map_append, List.map_cons]
        refine List.perm_middle.trans ?_
        rw [← List.map_append]
        refine ((ih c u).cons s.name).trans ?_
        rw [List.map_append, List.map_append]
        exact List.perm_middle.symm

/-! ## Calls -/

theorem callEach_of_ok {call : ApiServer → EndpointSlice → ApiServer × Option ApiError}
    (hcall : ∀ server slice, (call server slice).2 = none) (server : ApiServer)
    (slices : List EndpointSlice) :
    callEach call server slices =
      (slices.foldl (fun server slice => (call server slice).1) server, none) := by
  induction slices generalizing server with
  | nil => rfl
  | cons slice slices ih =>
    have hpair : call server slice = ((call server slice).1, none) :=
      Prod.ext rfl (hcall server slice)
    unfold callEach
    rw [hpair]
    exact ih _

/-- Without changes there is no call. -/
theorem finalize_nil : finalize api service ⟨[], [], []⟩ triggerTime server = (server, none) := by
  unfold finalize
  simp only [recycleSlices, ite_self, callEach]

section Ok

variable (hok : ∀ n, api.outcome n = none)

include hok

theorem call_of_ok (server : ApiServer) (c : ApiCall) (done : List ApiCall → ApiServer) :
    server.call api c done = (done (server.calls ++ [c]), none) := by
  unfold ApiServer.call
  rw [hok]

theorem foldl_create (triggerTime : Option String) (slices : List EndpointSlice)
    (server : ApiServer) :
    ∃ created, created.map anonymous = slices.map anonymous ∧
      (slices.foldl (fun server slice =>
        (server.create api <| addTriggerTimeAnnotation slice triggerTime).1) server).slices =
        server.slices ++ created ∧
      (slices.foldl (fun server slice =>
        (server.create api <| addTriggerTimeAnnotation slice triggerTime).1) server).calls =
        server.calls ++ slices.map fun slice =>
          ApiCall.create <| addTriggerTimeAnnotation slice triggerTime := by
  induction slices generalizing server with
  | nil => exact ⟨[], rfl, (List.append_nil _).symm, (List.append_nil _).symm⟩
  | cons slice slices ih =>
    obtain ⟨created, hcreated, hslices, hcalls⟩ :=
      ih (server.create api <| addTriggerTimeAnnotation slice triggerTime).1
    rw [List.foldl_cons, hslices, hcalls, ApiServer.create, call_of_ok hok]
    refine ⟨_ :: created, ?_, List.append_assoc _ _ _, List.append_assoc _ _ _⟩
    rw [List.map_cons, List.map_cons, hcreated]
    rfl

theorem foldl_update (triggerTime : Option String) (slices : List EndpointSlice)
    (server : ApiServer) :
    (slices.foldl (fun server slice =>
      (server.update api <| addTriggerTimeAnnotation slice triggerTime).1) server).slices =
      (slices.map (fun slice => addTriggerTimeAnnotation slice triggerTime)).foldl (replaceNamed (·.name))
        server.slices ∧
    (slices.foldl (fun server slice =>
      (server.update api <| addTriggerTimeAnnotation slice triggerTime).1) server).calls =
      server.calls ++ slices.map fun slice =>
        ApiCall.update <| addTriggerTimeAnnotation slice triggerTime := by
  induction slices generalizing server with
  | nil => exact ⟨rfl, (List.append_nil _).symm⟩
  | cons slice slices ih =>
    obtain ⟨hslices, hcalls⟩ := ih (server.update api <| addTriggerTimeAnnotation slice triggerTime).1
    rw [List.foldl_cons, hslices, hcalls, ApiServer.update, call_of_ok hok]
    exact ⟨rfl, List.append_assoc _ _ _⟩

theorem foldl_delete (slices : List EndpointSlice) (server : ApiServer) :
    (slices.foldl (fun server slice => (server.delete api slice.name).1) server).slices =
      (slices.map (·.name)).foldl (removeNamed (·.name)) server.slices ∧
    (slices.foldl (fun server slice => (server.delete api slice.name).1) server).calls =
      server.calls ++ slices.map fun slice => ApiCall.delete slice.name := by
  induction slices generalizing server with
  | nil => exact ⟨rfl, (List.append_nil _).symm⟩
  | cons slice slices ih =>
    obtain ⟨hslices, hcalls⟩ := ih (server.delete api slice.name).1
    rw [List.foldl_cons, hslices, hcalls, ApiServer.delete, call_of_ok hok]
    exact ⟨rfl, List.append_assoc _ _ _⟩

/-- What the calls are when all succeed. -/
theorem finalize_eq (hdeletion : service.deletionTimestamp = none) :
    finalize api service changes triggerTime server =
      ((recycleSlices service changes.toCreate changes.toUpdate changes.toDelete).toDelete.foldl
        (fun server slice => (server.delete api slice.name).1)
        ((recycleSlices service changes.toCreate changes.toUpdate changes.toDelete).toUpdate.foldl
          (fun server slice => (server.update api <| addTriggerTimeAnnotation slice triggerTime).1)
          ((recycleSlices service changes.toCreate changes.toUpdate changes.toDelete).toCreate.foldl
            (fun server slice =>
              (server.create api <| addTriggerTimeAnnotation slice triggerTime).1) server)),
        none) := by
  unfold finalize
  simp only [hdeletion, Option.isNone_none, if_true]
  rw [callEach_of_ok fun server slice => by rw [ApiServer.create, call_of_ok hok]]
  simp only
  rw [callEach_of_ok fun server slice => by rw [ApiServer.update, call_of_ok hok]]
  simp only
  rw [callEach_of_ok fun server slice => by rw [ApiServer.delete, call_of_ok hok]]

/-- The slices to update and to create replace those to update and to delete, and no slice is
both updated and deleted. -/
theorem finalize_ok (hdeletion : service.deletionTimestamp = none)
    (hstore : server.slices.Perm (olds ++ rest))
    (holds : (olds.map (·.name)).Perm ((changes.toUpdate ++ changes.toDelete).map (·.name))) :
    (finalize api service changes triggerTime server).2 = none ∧
      ∃ left made, (finalize api service changes triggerTime server).1.slices.Perm (left ++ rest) ∧
        (left.map anonymous).Perm ((changes.toUpdate ++ changes.toCreate).map anonymous) ∧
        (finalize api service changes triggerTime server).1.calls = server.calls ++ made ∧
        ∀ slice, .update slice ∈ made → .delete slice.name ∉ made := by
  rw [finalize_eq hok hdeletion]
  refine ⟨rfl, ?_⟩
  have hanonymous := recycleSlices_anonymous service changes.toCreate changes.toUpdate changes.toDelete
  have hnames := recycleSlices_names service changes.toCreate changes.toUpdate changes.toDelete
  generalize recycleSlices service changes.toCreate changes.toUpdate changes.toDelete = recycled
    at hanonymous hnames ⊢
  obtain ⟨c, u, d⟩ := recycled
  -- The old versions of the slices to update, and those to delete.
  obtain ⟨olds', hperm, hmap⟩ := exists_perm_map_eq (holds.trans hnames.symm)
  rw [List.map_append] at hmap
  obtain ⟨u₀, d₀, rfl, hu, hd⟩ := List.map_eq_append_iff.mp hmap
  have hnodup : ((u ++ d).map (·.name)).Nodup := by
    have hstored := (hstore.map (·.name)).nodup_iff.mp server.nodup
    rw [List.map_append] at hstored
    exact (holds.trans hnames.symm).nodup_iff.mp (List.nodup_append.mp hstored).1
  obtain ⟨created, hcreated, hslices₁, hcalls₁⟩ := foldl_create hok triggerTime c server
  generalize c.foldl _ server = server₁ at hslices₁ hcalls₁ ⊢
  obtain ⟨hslices₂, hcalls₂⟩ := foldl_update hok triggerTime u server₁
  generalize u.foldl _ server₁ = server₂ at hslices₂ hcalls₂ ⊢
  obtain ⟨hslices₃, hcalls₃⟩ := foldl_delete hok d server₂
  generalize d.foldl _ server₂ = server₃ at hslices₃ hcalls₃ ⊢
  have hstore₁ : server₁.slices.Perm (u₀ ++ (d₀ ++ (rest ++ created))) := by
    rw [hslices₁, ← List.append_assoc, ← List.append_assoc]
    exact (hstore.trans (hperm.symm.append_right rest)).append_right created
  have hstore₂ : server₂.slices.Perm (d₀ ++
      (u.map (fun slice => addTriggerTimeAnnotation slice triggerTime) ++ (rest ++ created))) := by
    rw [hslices₂]
    refine (foldl_replaceNamed_perm hstore₁ server₁.nodup ?_).trans
      (List.perm_append_comm_assoc _ _ _)
    rw [hu, List.map_map]
    rfl
  have hstore₃ := foldl_removeNamed_perm hstore₂ server₂.nodup
  rw [hd, ← hslices₃] at hstore₃
  refine ⟨u.map (fun slice => addTriggerTimeAnnotation slice triggerTime) ++ created,
    (c.map fun slice => .create <| addTriggerTimeAnnotation slice triggerTime) ++
      ((u.map fun slice => .update <| addTriggerTimeAnnotation slice triggerTime) ++
        d.map fun slice => .delete slice.name), ?_, ?_, ?_, ?_⟩
  · rw [List.append_assoc]
    exact hstore₃.trans (List.perm_append_comm.append_left _)
  · refine List.Perm.trans (.of_eq ?_) hanonymous
    rw [List.map_append, List.map_append, hcreated, List.map_map]
    rfl
  · rw [hcalls₃, hcalls₂, hcalls₁, List.append_assoc, List.append_assoc]
  · intro slice hupdate hdelete
    rw [List.map_append] at hnodup
    simp only [List.mem_append, List.mem_map, reduceCtorEq, and_false, exists_false, false_or,
      or_false, ApiCall.update.injEq, ApiCall.delete.injEq] at hupdate hdelete
    obtain ⟨s, hs, rfl⟩ := hupdate
    obtain ⟨t, ht, hname⟩ := hdelete
    exact (List.nodup_append.mp hnodup).2.2 _ (List.mem_map_of_mem hs) _ (List.mem_map_of_mem ht)
      hname.symm

end Ok

end Fleetboard.EndpointSlices

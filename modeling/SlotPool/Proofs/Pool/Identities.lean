import SlotPool.Proofs.Pool.Line
import SlotPool.Proofs.Pool.Opening
import SlotPool.Rehearsal.Fault
import SlotPool.World.Answer
/-!
The identities of a pool, place by place, in every state that it can reach.
-/

namespace SlotPool

variable {σ : Type}

/-- The identity in a request that handed it back while it was free is free still. -/
theorem Stage.Astray.mem_free {free : List Nat} {stage : Stage} (h : stage.Astray free) :
    ∀ id ∈ stage.ids, id.val ∈ free := by
  intro id hid
  cases stage with
  | resetting slot =>
    obtain rfl := by simpa [Stage.ids, Stage.slots, Stage.bare] using hid
    exact h.2
  | unreset other failure =>
    obtain rfl := by simpa [Stage.ids, Stage.slots, Stage.bare] using hid
    exact h
  | lost other =>
    obtain rfl := by simpa [Stage.ids, Stage.slots, Stage.bare] using hid
    exact h
  | _ => exact h.elim

namespace Service

/-- The identities in each place: in the new queue, in the reused queue, in the hand of the filling
    task, with the requests that are under way, with callers, and lost by callers. -/
def places (service : Service σ) : List (List SlotId) :=
  [service.pool.newQueue.map Slot.id, service.pool.reusedQueue.map Slot.id,
    service.pool.populate.slots.map Slot.id, service.ownTasks.flatMap (·.2.ids),
    service.held.map (·.2.id), service.lost.map (·.2.id)]

/-- The identities of a pool with room for `size` slots: each is free or in one place, and the
    allocator knows. -/
structure Partitioned (service : Service σ) (size : Nat) : Prop where
  /-- what is held is what is in some place, and it is there once -/
  held : service.pool.allocator.held.Perm (service.places.flatten.map Fin.val)
  once : service.places.flatten.Nodup
  /-- what is free is everything else -/
  free : ∀ identity,
    identity ∈ service.pool.allocator.free ↔ identity < size ∧ identity ∉ service.pool.allocator.held
  freeOnce : service.pool.allocator.free.Nodup
  /-- what is held or free has a slot -/
  slot : ∀ identity ∈ service.pool.allocator.held ++ service.pool.allocator.free,
    identity < size ∧ (Slot.ofNat? identity).isSome
  /-- what is in some place can be released -/
  release : ∀ id ∈ service.places.flatten,
    ∃ allocator, service.pool.allocator.release id.val = .ok allocator
  /-- what was handed back while it was free is still free -/
  strays : ∀ id ∈ service.strayIds, id.val ∈ service.pool.allocator.free

/-- The identities in tasks are those of the slots in them and those that are left over from slots that are
    gone. -/
theorem perm_ids (tasks : List (Client × Stage)) :
    (tasks.flatMap (·.2.ids)).Perm ((Pool.slotsWith tasks).map Slot.id ++ Pool.bareWith tasks) := by
  induction tasks with
  | nil => exact .refl _
  | cons task tasks ih =>
    refine (ih.append_left task.2.ids).trans (List.perm_iff_count.mpr fun id => ?_)
    simp only [Stage.ids, Pool.slotsWith_cons, Pool.bareWith_cons, List.map_append, List.count_append]
    omega

variable {service : Service σ} {size : Nat}

/-- The places together have what the ledger has. -/
theorem places_perm (hfinished : service.pool.finished = []) :
    service.places.flatten.Perm service.ledger.ids := by
  refine List.perm_iff_count.mpr fun id => ?_
  have htasks := List.perm_iff_count.mp (perm_ids service.ownTasks) id
  simp only [places, ledger, Ledger.ids, Ledger.add, Pool.ledgerWith, Pool.stock, callerSlots,
    hfinished, Pool.slotsAmong, List.filterMap_nil, List.map_nil, List.append_nil,
    List.flatten_cons, List.flatten_nil, List.map_append, List.map_map, List.count_append,
    Function.comp_def] at htasks ⊢
  omega

/-- What is known of a pool's ledger, told place by place. The ledger is balanced, so what the allocator holds
    is what stands in it, and everything else that it knows is free. -/
theorem Conserved.partitioned (h : service.Conserved size) (hfinished : service.pool.finished = []) :
    service.Partitioned size := by
  have hperm := places_perm hfinished
  have hheld : service.pool.allocator.held.Perm (service.places.flatten.map Fin.val) :=
    h.balanced.held.trans (hperm.symm.map _)
  have hcomplete : service.pool.allocator.Complete := h.balanced.complete
  have hnodup := List.nodup_append.mp hcomplete.nodup
  obtain ⟨hcapacity, hsize⟩ := h.plan
  refine ⟨hheld, ?_, fun identity => ?_, hnodup.2.1, fun identity hmem => ?_, fun id hmem => ?_,
    fun id hmem => ?_⟩
  · exact (List.Perm.nodup_iff hperm).mpr h.balanced.nodup
  · rw [← hcapacity]
    exact hcomplete.mem_free_iff
  · have hlt : identity < size := hcapacity ▸ hcomplete.mem_iff.mp (List.mem_append.mp hmem)
    exact ⟨hlt, Slot.ofNat?_isSome.mpr (Nat.lt_of_lt_of_le hlt hsize)⟩
  · have hmem' : id.val ∈ service.pool.allocator.held :=
      hheld.mem_iff.mpr (List.mem_map_of_mem hmem)
    exact ⟨_, Allocator.release_of_mem hmem'⟩
  · obtain ⟨⟨client, stage⟩, htask, hid⟩ := List.mem_flatMap.mp hmem
    obtain ⟨hrunning, hstray⟩ := List.mem_filter.mp htask
    exact (h.astray client stage hrunning (by simpa using hstray)).mem_free id hid

/-- Requests in line have nothing in every state that a pool can reach. -/
theorem Reaches.queued {machine : Machine σ} {start : Service σ} (hconserved : start.Conserved size)
    (hqueued : start.Queued) (hfinished : start.pool.finished = [])
    (hreaches : Reaches machine (SparesStrays machine) start service) : service.Queued := by
  induction hreaches with
  | start => exact hqueued
  | step hreaches hspares hstep ih =>
    exact ih.step (hreaches.conserved hconserved) (hreaches.finished hfinished) hstep

theorem opened_queued (config : Config) (egress : String) (cancelled : Bool) (state : σ) :
    (opened (Pool.opened config egress cancelled) state).Queued :=
  ⟨by simp [opened, Pool.opened], by simp [opened, Pool.opened]⟩

/-- Identities are never doubled and never lost, as long as the filling task leaves alone what callers hand back as
    free. In every state that an opened pool can reach so, what the allocator holds is what is in some place, once, and
    what is free is the rest. A request that is sent away has got nothing and has changed nothing. -/
theorem Reaches.identities {machine : Machine σ} {config : Config} {cancelled : Bool}
    {registry registry' : Registry} {state state' : σ} {pool : Pool} {service : Service σ}
    (hopen : Pool.openWith machine config cancelled registry state =
      (.ok (.ok pool), registry', state'))
    (hreaches : Reaches machine (SparesStrays machine) (opened pool state') service) :
    service.Partitioned config.maxSlots ∧
      ∀ event outcomes after client outcome, service.step machine event = some (outcomes, after) →
        (client, outcome) ∈ outcomes → outcome.SentAway →
        client ∉ after.served ∧ after.places = service.places ∧
          after.pool.allocator = service.pool.allocator := by
  obtain ⟨hvalid, egress, -, rfl⟩ := Pool.openWith_ok hopen
  have hstart : (opened (Pool.opened config egress cancelled) state').Conserved config.maxSlots :=
    opened_conserved (Config.maxSlots_le_of_validate hvalid)
  have hconserved := hreaches.conserved hstart
  have hfinished := hreaches.finished rfl
  have hqueued := hreaches.queued hstart (opened_queued ..) rfl
  refine ⟨hconserved.partitioned hfinished, ?_⟩
  intro event outcomes after client outcome hstep hmem hsent
  obtain ⟨hnothing, waiting, named, asked, rfl⟩ := hqueued.sentAway hconserved hfinished hstep hmem hsent
  exact ⟨hnothing, rfl, rfl⟩

/-- When the first request has got its slot, its caller is the only one who has one, and the identities are
    where they belong. -/
theorem identities_firstRequest : ∃ service,
    (opened (Pool.opened .small "eth0" false) (Rehearsal.start World.fresh)).run
      (Rehearsal.rehearsing World.machine) (firstRequest .blocked) = some service ∧
    service.held.map (·.1) = ["first"] ∧ service.Partitioned 2 := by
  obtain ⟨service, hrun, hheld⟩ := Option.map_eq_some_iff.mp
    (show ((opened (Pool.opened .small "eth0" false) (Rehearsal.start World.fresh)).run
      (Rehearsal.rehearsing World.machine) (firstRequest .blocked)).map (·.held.map (·.1)) =
        some ["first"] by decide +kernel)
  have hreaches : Reaches (Rehearsal.rehearsing World.machine) OwnSlots
      (opened (Pool.opened .small "eth0" false) (Rehearsal.start World.fresh)) service :=
    Reaches.start.run (by simp [firstRequest, OwnSlots]) hrun
  have hidentities := Reaches.identities (Pool.openWith_small _ _) (hreaches.sparesStrays rfl)
  exact ⟨service, hrun, hheld, hidentities.1⟩

/-- A pool with a single slot. -/
def soleService : Service World := opened (Pool.opened { Config.small with maxSlots := 1 } "eth0" false) .fresh

/-- The identity of that slot is handed back while it is free, and the filling task takes it before the worker has come
    to the slot. Since nothing can be reset, the identity is then released, though the filling task has it by now. That
    queues it, takes it again, and queues it again, and two requests get it. -/
def overtaken : List Event :=
  [.move (.populate 0), .move (.task "stray"), .move (.task "stray"), .move (.populate 0), .move (.populate 0),
    .get "first" .allowed false, .move (.waiter "first"), .move (.task "first"), .move (.task "first"),
    .move (.populate 0), .move (.populate 0), .move (.populate 0),
    .get "second" .allowed false, .move (.waiter "second"), .move (.task "second"), .move (.task "second")]

/-- What is handed back as free is in a request that is under way and yet not held, so that its release is refused.
    When the filling task takes it meanwhile, it is released from under the task, and in the end two callers have the
    same slot. -/
theorem handedOut_twice :
    (∃ handing, soleService.run World.machine [.putBackNumber "stray" 0] = some handing ∧
      ("stray", .resetting (.fresh 0)) ∈ handing.pool.tasks ∧ 0 ∉ handing.pool.allocator.held ∧
      handing.pool.allocator.release 0 = .error (.notHeld 0)) ∧
    ∃ service, soleService.run World.machine (.putBackNumber "stray" 0 :: overtaken) = some service ∧
      service.held.map (fun entry => (entry.1, entry.2.id)) = [("second", 0), ("first", 0)] ∧
      ¬ service.places.flatten.Nodup := by
  constructor
  · exact ⟨_, rfl, List.mem_cons_self .., List.not_mem_nil, Allocator.release_of_not_mem List.not_mem_nil⟩
  · obtain ⟨service, hrun, hheld⟩ := Option.map_eq_some_iff.mp
      (show (soleService.run World.machine (.putBackNumber "stray" 0 :: overtaken)).map (fun service =>
        service.held.map (fun entry => (entry.1, entry.2.id))) = some [("second", 0), ("first", 0)] by decide +kernel)
    refine ⟨service, hrun, hheld, fun honce => ?_⟩
    have hcallers : service.held.map (·.2.id) = [0, 0] := by
      simpa [List.map_map, Function.comp_def] using congrArg (List.map Prod.snd) hheld
    have hsub : [0, 0].Sublist service.places.flatten := by
      rw [← hcallers]
      exact List.sublist_flatten_of_mem (by simp [places])
    exact absurd (honce.sublist hsub) (by decide)

end Service
end SlotPool

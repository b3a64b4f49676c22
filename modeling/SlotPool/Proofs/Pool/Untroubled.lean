import SlotPool.Proofs.Pool.Accounted
import SlotPool.Proofs.Pool.Line
/-!
Requests that come to nothing without further trouble. While no guard fails and nothing fails that is undone,
the failure of a request tells its cause and nothing else, and the identity of its slot is free again.
-/

namespace SlotPool

variable {σ : Type} {machine : Machine σ} {view : σ → World} {egress : String}

/-- A failure that says nothing of a removal, a clearing up or a release that failed as well. -/
def PoolError.Unburdened : PoolError → Prop
  | .cancelled | .closed | .probe _ _ => True
  | .createNetwork _ _ cleanup release => cleanup = none ∧ release = none
  | .firewall _ _ undoing => undoing = none
  | _ => False

/-- The number of the slot that a request failed with. -/
def PoolError.slot? : PoolError → Option Nat
  | .createNetwork slot _ _ _ | .firewall slot _ _ | .probe slot _ | .teardown slot _ => some slot
  | _ => none

/-- How a request failed. -/
def Outcome.error? : Outcome → Option PoolError
  | .failed error => some error
  | _ => none

theorem Outcome.error?_eq_some {outcome : Outcome} {error : PoolError} :
    outcome.error? = some error ↔ outcome = .failed error := by
  cases outcome <;> simp [Outcome.error?]

/-- A request that failed did so without further trouble, and the identity of its slot is free. -/
def Outcome.Untroubled (free : List Nat) : Outcome → Prop
  | .failed error => error.Unburdened ∧ ∀ identity, error.slot? = some identity → identity ∈ free
  | _ => True

/-- Nothing but its cause is known of a failure. Slots that are to be reset have a firewall. -/
def Stage.Untroubled : Stage → Prop
  | .unprepared _ failure => failure.Clean
  | .resetting slot => slot.hasFirewall = true
  | .unreset _ failure => failure.teardown = none
  | .lost _ => False
  | .removing _ purpose => purpose.failures = []
  | .removed _ failures purpose => failures = [] ∧ purpose.failures = []
  | .draining _ failures | .drained _ _ failures => failures = []
  | _ => True

/-- A job comes to its end. If it fails, nothing fails that is undone, and a removal does not fail. -/
structure Job.Smooth (machine : Machine σ) (egress : String) (job : Job) (slot : Slot) (state : σ) : Prop where
  ends : ∀ {α : Type} {program : SlotProgram α} {state'}, job.Done egress program →
    (program.run slot).run machine state ≠ (none, state')
  prepare : ∀ {policy failure after state'}, job = .prepare policy →
    ((Slot.prepare egress policy).run.run slot).run machine state = (some (.error failure, after), state') →
    failure.Clean
  release : ∀ {failure after state'}, job = .release →
    ((Slot.release egress).run.run slot).run machine state = (some (.error failure, after), state') →
    failure.teardown = none
  remove : ∀ {result after state'}, job = .remove →
    ((Slot.remove egress).run.run slot).run machine state = (some (result, after), state') → result = .ok ()

/-- A job on a slot that is accounted for goes smoothly when no call fails that belongs to a guard or to undoing
    a network. It succeeds and the slot stands or is gone, or it fails with its cause alone and nothing of the
    slot is left. -/
theorem Accounted.smooth {slot : Slot} {rest : List Slot} {job : Job} {state : σ}
    (h : Accounted egress (slot :: rest) (view state)) (hids : ((slot :: rest).map Slot.id).Nodup)
    (hpermit : Permit.accountable machine view egress job slot state) : job.Smooth machine egress slot state where
  ends hdone hrun := by
    obtain ⟨value, s', hran, -⟩ := (hpermit.1 hdone).meets.run Program.ensures_true
    rw [hran] at hrun
    cases hrun
  prepare hjob hrun := by
    subst hjob
    obtain ⟨result, after, s', hran, hend⟩ := h.prepare hids Hazard.homing_returns (hpermit.1 (.prepare _))
    obtain ⟨⟨rfl, rfl⟩, rfl⟩ := by simpa using hran.symm.trans hrun
    exact hend.1
  release hjob hrun := by
    subst hjob
    obtain ⟨result, after, s', hran, hend⟩ := h.release hids Hazard.homing_returns (hpermit.2 rfl) (hpermit.1 .release)
    obtain ⟨⟨rfl, rfl⟩, rfl⟩ := by simpa using hran.symm.trans hrun
    exact hend.1
  remove hjob hrun := by
    subst hjob
    obtain ⟨result, after, s', hran, hend⟩ := h.remove hids (hpermit.1 .remove)
    obtain ⟨⟨rfl, rfl⟩, rfl⟩ := by simpa using hran.symm.trans hrun
    cases result with
    | ok value => rfl
    | error failure => exact hend.elim

namespace Pool

variable {pool pool' : Pool} {client : Client} {stage next : Stage} {state state' : σ}

/-- No request is in trouble. -/
structure Untroubled (pool : Pool) : Prop where
  tasks : ∀ task ∈ pool.tasks, task.2.Untroubled
  finished : ∀ ended ∈ pool.finished, ended.2.Untroubled pool.allocator.free

/-- When a request goes on without trouble and nobody else is in any, nobody is. -/
theorem Untroubled.follow (htasks : ∀ task ∈ pool.tasks, task.2.Untroubled)
    (hfinished : pool.finished = []) (hnext : next.Untroubled) : (pool.follow client next).Untroubled where
  tasks task hmem := by
    rcases List.mem_cons.mp hmem with rfl | hold
    · exact hnext
    · exact htasks task hold
  finished ended hmem := by
    have hmem' : ended ∈ pool.finished := hmem
    rw [hfinished] at hmem'
    cases hmem'

/-- When a request ends without trouble and nobody else is in any, nobody is. -/
theorem Untroubled.finish {outcome : Outcome} (htasks : ∀ task ∈ pool.tasks, task.2.Untroubled)
    (hfinished : pool.finished = []) (houtcome : outcome.Untroubled pool.allocator.free) :
    (pool.finish client outcome).Untroubled where
  tasks := htasks
  finished ended hmem := by
    rcases List.mem_cons.mp hmem with rfl | hold
    · exact houtcome
    · rw [hfinished] at hold
      cases hold

/-- An identity that is held is released. -/
theorem release_of_held {id : SlotId} (hheld : id.val ∈ pool.allocator.held) :
    (pool.release id).1 = none ∧ id.val ∈ (pool.release id).2.allocator.free := by
  simp [Pool.release, Allocator.release_of_mem hheld]

variable (htasks : ∀ task ∈ pool.tasks, task.2.Untroubled) (hfinished : pool.finished = [])
include htasks hfinished

/-- After a removal without failures, the request is over or goes on without failures. -/
theorem Untroubled.afterRemoval {purpose : Purpose} (hpurpose : purpose.failures = []) :
    (pool.afterRemoval client [] purpose).Untroubled := by
  cases purpose with
  | putBack => exact .finish htasks hfinished trivial
  | drain source earlier => exact .follow htasks hfinished hpurpose

/-- A task goes on without trouble, or its request is over and its outcome tells of none. There is a case for
    each step that a task can take; only those that do a job ask anything of the machine. -/
theorem Advance.untroubled (hadvance : Advance machine client pool state stage pool' state')
    (halive : pool.workerAlive = true) (hstage : stage.Untroubled)
    (hsmooth : ∀ job slot, stage.job? = some (job, slot) → job.Smooth machine pool.egress slot state)
    (hheld : ∀ id ∈ stage.bare, id.val ∈ pool.allocator.held) : pool'.Untroubled := by
  have hanswered {α : Type} {job : Job} {program : SlotProgram α} {slot : Slot} {pool' : Pool} {state' : σ}
      (hsmooth : job.Smooth machine pool.egress slot state) (hdone : job.Done pool.egress program)
      (hstops : Unanswered machine program slot pool state pool' state') : False := by
    cases hstops with
    | gone hdead => simp [halive] at hdead
    | dies halive hrun => exact hsmooth.ends hdone hrun
  have hreleased (id : SlotId) : (∀ task ∈ (pool.release id).2.tasks, task.2.Untroubled) ∧
      (pool.release id).2.finished = [] := by
    rw [release_snd]
    exact ⟨htasks, hfinished⟩
  cases hadvance with
  | receive => exact .follow (by rwa [tasks_lower]) (finished_lower.trans hfinished) trivial
  | prepare hrun => exact .finish htasks hfinished trivial
  | prepareFails hrun => exact .follow htasks hfinished ((hsmooth _ _ rfl).prepare rfl hrun)
  | prepareStops hstops => exact (hanswered (hsmooth _ _ rfl) (.prepare _) hstops).elim
  | @discard id failure =>
    obtain ⟨hnone, hfree⟩ := release_of_held (hheld id (List.mem_singleton_self _))
    refine .finish (hreleased id).1 (hreleased id).2 ?_
    rw [hnone]
    cases failure with
    | probe cause teardown => exact ⟨trivial, by rintro identity ⟨⟩; exact hfree⟩
    | create cause cleanup => exact ⟨⟨hstage, rfl⟩, by rintro identity ⟨⟩; exact hfree⟩
    | firewall cause teardown =>
      obtain rfl : teardown = none := hstage
      exact ⟨rfl, by rintro identity ⟨⟩; exact hfree⟩
  | @reset slot after state' hrun => exact .follow htasks hfinished trivial
  | resetFails hrun => exact .follow htasks hfinished ((hsmooth _ _ rfl).release rfl hrun)
  | resetStops hstops => exact (hanswered (hsmooth _ _ rfl) .release hstops).elim
  | @giveUp id failure =>
    obtain ⟨hnone, hfree⟩ := release_of_held (hheld id (List.mem_singleton_self _))
    refine .finish (hreleased id).1 (hreleased id).2 ?_
    rw [hnone]
    obtain ⟨cause, teardown⟩ := failure
    obtain rfl : teardown = none := hstage
    exact ⟨rfl, by rintro identity ⟨⟩; exact hfree⟩
  | announce => exact .follow (by rwa [tasks_raise]) (finished_raise.trans hfinished) trivial
  | enqueue hopen hroom => exact .finish htasks hfinished trivial
  | refuse hfull => exact .follow htasks hfinished trivial
  | overflow => exact .follow (by rwa [tasks_lower]) (finished_lower.trans hfinished) rfl
  | loseSlot => exact hstage.elim
  | remove hrun =>
    refine .follow htasks hfinished ⟨?_, hstage⟩
    rw [(hsmooth _ _ rfl).remove rfl hrun]
    rfl
  | removeStops hstops => exact (hanswered (hsmooth _ _ rfl) .remove hstops).elim
  | @settle id failures purpose =>
    obtain ⟨rfl, hpurpose⟩ := hstage
    rw [(release_of_held (hheld id (List.mem_singleton_self _))).1]
    exact .afterRemoval (hreleased id).1 (hreleased id).2 hpurpose
  | close => exact .follow htasks hfinished trivial
  | await hstopped => exact .follow htasks hfinished trivial
  | shut => exact .follow htasks hfinished rfl
  | @drain source failures slot rest hqueue =>
    exact .follow (by cases source <;> exact htasks) (by cases source <;> exact hfinished) hstage
  | turn hqueue => exact .follow htasks hfinished hstage
  | endClose hqueue =>
    obtain rfl := hstage
    exact .finish htasks hfinished trivial
  | takeOut => exact .follow (by rwa [tasks_lower]) (finished_lower.trans hfinished) hstage

theorem Waiting.untroubled (hwaiting : Waiting client pool pool') : pool'.Untroubled := by
  cases hwaiting with
  | giveUp hwaiter hclient => exact .finish htasks hfinished ⟨trivial, by simp [PoolError.slot?]⟩
  | sendAway hwaiter hclient => exact .finish htasks hfinished ⟨trivial, by simp [PoolError.slot?]⟩
  | @serve waiter source slot rest hwaiter hclient hqueue =>
    exact .follow (by cases source <;> exact htasks) (by cases source <;> exact hfinished) trivial

end Pool
end SlotPool

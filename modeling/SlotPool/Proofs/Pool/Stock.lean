import SlotPool.Proofs.Pool.Accounting
import SlotPool.Proofs.Pool.Identities
import SlotPool.Proofs.Pool.Trace
/-!
What is in stock when a pool is settled. The filling task takes identities as long as there are any, and it
puts them into the new queue as long as there is room. So a pool in which nobody can go on has a full queue and
one more identity in hand, or nothing left to take.
-/

namespace SlotPool

variable {σ : Type}

section

variable {allocator allocator' : Allocator} {identity choice : Nat}

/-- There are as many permits as free identities. -/
def Allocator.Matched (allocator : Allocator) : Prop := allocator.available = allocator.free.length

theorem Allocator.ofCapacity_matched (capacity : Nat) : (ofCapacity capacity).Matched :=
  List.length_range.symm

/-- An identity that is taken uses up its permit, so there are still as many permits as free identities. -/
theorem Allocator.Matched.acquire (h : allocator.Matched)
    (hacquire : allocator.acquire? choice = some (identity, allocator')) : allocator'.Matched := by
  have hpermits := (acquire?_open hacquire).2.2.2
  have hfree := (acquire?_spec hacquire).1.length_eq
  rw [List.length_cons] at hfree
  unfold Matched at h ⊢
  omega

/-- A release brings a permit with the identity that becomes free, and a release that is refused brings neither.
    -/
theorem Allocator.Matched.release (h : allocator.Matched) :
    ((allocator.release identity).toOption.getD allocator).Matched := by
  by_cases hheld : identity ∈ allocator.held
  · rw [release_of_mem hheld]
    exact congrArg (· + 1) h
  · rw [release_of_not_mem hheld]
    exact h

/-- An identity can be taken when the allocator is open and one is free. -/
theorem Allocator.Matched.acquires (h : allocator.Matched) (hopen : allocator.closed = false)
    (hfree : allocator.free ≠ []) (choice : Nat) : (allocator.acquire? choice).isSome := by
  have havailable : allocator.available ≠ 0 := by
    rw [h]
    exact (List.length_pos_iff.mpr hfree).ne'
  rw [Option.isSome_iff_ne_none, ne_eq, acquire?_eq_none_iff]
  simp [hopen, havailable, hfree]

/-- Every effect that a step can have on a ledger keeps as many permits as free identities. Nobody waits at the
    allocator but the filling task, so a permit and its identity are taken at once. -/
theorem Effect.matched {machine : Machine σ} {egress : String} {permit : Permit σ} {vacant : Prop}
    {before after : Ledger} {state state' : σ}
    (heffect : Effect machine egress permit vacant before state after state')
    (h : before.allocator.Matched) : after.allocator.Matched := by
  cases heffect with
  | keep hallocator hslots hbare =>
    rcases hallocator with hsame | hclosed
    · exact hsame ▸ h
    · exact hclosed ▸ h
  | acquire hacquire hslots hbare => exact h.acquire hacquire
  | change hfate hallocator hbefore hslots hbare => exact hallocator ▸ h
  | lose hfate hallocator hbefore hslots hbare => exact hallocator ▸ h
  | release hallocator hslots hbare => exact hallocator ▸ h.release
  | discard hallocator hslots hbare => exact hallocator ▸ h.release

end

/-- How many slots the filling task has counted in the gauge but not yet put into the queue. -/
def Populate.counting : Populate → Nat
  | .counted _ => 1
  | _ => 0

namespace Pool

variable {machine : Machine σ} {client : Client} {pool pool' : Pool} {state state' : σ} {stage : Stage}
  {config : Config} {event : Service.Event}

section

variable {source origin : Source} {outcome : Outcome}

theorem queue_follow : (pool.follow client stage).queue source = pool.queue source := by
  cases source <;> rfl

theorem queue_finish : (pool.finish client outcome).queue source = pool.queue source := by
  cases source <;> rfl

theorem queue_release (released : SlotId) : (pool.release released).2.queue source = pool.queue source := by
  rw [release_snd]
  cases source <;> rfl

theorem queue_lower : (pool.lower origin).queue source = pool.queue source := by
  cases pool
  cases source <;> rfl

theorem queue_raise : (pool.raise origin).queue source = pool.queue source := by
  cases pool
  cases source <;> rfl

theorem Unanswered.sameQueue {α : Type} {job : SlotProgram α} {slot : Slot}
    (hstops : Unanswered machine job slot pool state pool' state') : pool'.queue source = pool.queue source := by
  cases hstops <;> cases source <;> rfl

end

/-- A task puts a slot into a queue only where there is room for it, and then into the reused queue. The new
    queue is filled by the filling task alone. -/
theorem Advance.queueLength (hadvance : Advance machine client pool state stage pool' state') (source : Source) :
    (pool'.queue source).length ≤ (pool.queue source).length ∨ source = .reused ∧
      pool.reusedQueue.length < pool.reusedCapacity ∧ pool'.reusedQueue.length = pool.reusedQueue.length + 1 := by
  cases hadvance with
  | receive => exact .inl (by rw [queue_follow, queue_lower])
  | overflow => exact .inl (by rw [queue_follow, queue_lower])
  | takeOut => exact .inl (by rw [queue_follow, queue_lower])
  | announce => exact .inl (by rw [queue_follow, queue_raise])
  | prepareStops hstops => exact .inl (by rw [queue_follow, hstops.sameQueue])
  | resetStops hstops => exact .inl (by rw [queue_follow, hstops.sameQueue])
  | removeStops hstops => exact .inl (by rw [queue_follow, hstops.sameQueue])
  | discard => exact .inl (by rw [queue_finish, queue_release])
  | giveUp => exact .inl (by rw [queue_finish, queue_release])
  | loseSlot => exact .inl (by rw [queue_finish, queue_release])
  | @settle released failures purpose =>
    cases purpose with
    | putBack => exact .inl (Nat.le_of_eq (congrArg _ (queue_finish.trans (queue_release released))))
    | drain origin earlier =>
      simp only [Pool.afterRemoval]
      split <;> exact .inl (by rw [queue_follow, queue_release])
  | enqueue hopen hroom =>
    cases source with
    | new => exact .inl (Nat.le_refl _)
    | reused => exact .inr ⟨rfl, hroom, List.length_append⟩
  | @drain origin failures slot rest hqueue =>
    refine .inl ?_
    rw [queue_follow]
    cases origin <;> cases source <;> simp_all [Pool.queue, Pool.setQueue]
  | _ => exact .inl (by cases source <;> exact Nat.le_refl _)

/-- A task puts nothing into the new queue. -/
theorem Advance.newQueue (hadvance : Advance machine client pool state stage pool' state') :
    pool'.newQueue.length ≤ pool.newQueue.length :=
  (hadvance.queueLength .new).resolve_right fun hreused => Source.noConfusion hreused.1

/-- The new queue has the room that was configured, and what the filling task has counted fits into it. -/
structure Roomy (config : Config) (pool : Pool) : Prop where
  newCapacity : pool.newCapacity = config.newQueueCapacity
  fits : pool.newQueue.length + pool.populate.counting ≤ config.newQueueCapacity

theorem opened_roomy (config : Config) (egress : String) (cancelled : Bool) :
    (opened config egress cancelled).Roomy config :=
  ⟨rfl, by simp [opened, Populate.counting]⟩

theorem Roomy.mono (h : pool.Roomy config) (hcapacity : pool'.newCapacity = pool.newCapacity)
    (hpopulate : pool'.populate = pool.populate) (hqueue : pool'.newQueue.length ≤ pool.newQueue.length) :
    pool'.Roomy config :=
  ⟨hcapacity.trans h.newCapacity, Nat.le_trans (Nat.add_le_add_right hqueue _) (hpopulate ▸ h.fits)⟩

/-- The filling task puts a slot into the new queue only when there was room for it before it counted the slot.
    -/
theorem Stocking.roomy {choice : Nat} (hstocking : Stocking choice pool pool') (h : pool.Roomy config) :
    pool'.Roomy config := by
  have hfits := h.fits
  cases hstocking with
  | stop hpopulate hcancelled => exact ⟨h.newCapacity, by simp [Populate.counting]; omega⟩
  | acquire hpopulate hacquire hslot => exact ⟨h.newCapacity, by simp [Populate.counting]; omega⟩
  | outsidePlan hpopulate hacquire hslot => exact ⟨h.newCapacity, by simp [Populate.counting]; omega⟩
  | discard hpopulate hcancelled =>
    rw [release_snd]
    exact ⟨h.newCapacity, by simp [Populate.counting]; omega⟩
  | count hpopulate hgoing hroom =>
    rw [h.newCapacity] at hroom
    exact ⟨h.newCapacity, hroom⟩
  | enqueue hpopulate =>
    rw [hpopulate] at hfits
    exact ⟨h.newCapacity, by simpa [Populate.counting] using hfits⟩

/-- A request in line only makes room in the queues. -/
theorem Waiting.roomy (hwaiting : Waiting client pool pool') (h : pool.Roomy config) : pool'.Roomy config := by
  cases hwaiting with
  | giveUp hwaiter hclient => exact h.mono rfl rfl (Nat.le_refl _)
  | sendAway hwaiter hclient => exact h.mono rfl rfl (Nat.le_refl _)
  | @serve waiter source slot rest hwaiter hclient hqueue =>
    cases source with
    | new =>
      have hnew : pool.newQueue = slot :: rest := hqueue
      exact h.mono rfl rfl (by rw [hnew]; exact Nat.le_succ _)
    | reused => exact h.mono rfl rfl (Nat.le_refl _)

/-- Whatever happens, there is no more in the new queue than fits, nor with what the filling task has just
    counted. -/
theorem Turned.roomy (hturned : Turned machine pool state event pool' state') (h : pool.Roomy config) :
    pool'.Roomy config := by
  cases hturned with
  | move hstepping =>
    cases hstepping with
    | task hfind hadvance =>
      have hlike := hadvance.likewise
      exact h.mono hlike.newCapacity hlike.populate hadvance.newQueue
    | populate hstocking => exact hstocking.roomy h
    | waiter hwaiting => exact hwaiting.roomy h
  | get hasking => cases hasking <;> exact h.mono rfl rfl (Nat.le_refl _)
  | close hasking => cases hasking <;> exact h.mono rfl rfl (Nat.le_refl _)
  | _ => exact h.mono rfl rfl (Nat.le_refl _)

/-- Where a settled pool's filling task stands: it has nothing to take, or no room for what it has. Otherwise it
    could go on, and the pool would not have settled. -/
theorem Settled.populate (h : pool.Settled machine state) (hgoing : pool.cancelled = false)
    (hshutting : pool.Shutting) (hmatched : pool.allocator.Matched) :
    pool.populate = .acquiring ∧ pool.allocator.free = [] ∨
      ∃ slot, pool.populate = .holding slot ∧ pool.newCapacity ≤ pool.newQueue.length := by
  have hstuck := h (.populate 0)
  simp only [step, Option.map_eq_none_iff, stepPopulate] at hstuck
  cases hpopulate : pool.populate with
  | acquiring =>
    refine .inl ⟨rfl, ?_⟩
    have hopen : pool.allocator.closed = false := by
      by_contra hclosed
      simp [hshutting.closed (by simpa using hclosed)] at hgoing
    by_contra hfree
    have hacquires := hmatched.acquires hopen hfree 0
    simp only [hpopulate, hgoing, Bool.false_eq_true, if_false, Option.map_eq_none_iff] at hstuck
    simp [hstuck] at hacquires
  | holding slot =>
    refine .inr ⟨slot, rfl, Nat.le_of_not_lt fun hroom => ?_⟩
    simp [hpopulate, hgoing, hroom] at hstuck
  | counted slot => simp [hpopulate] at hstuck
  | stopped => simp [hshutting.populate hpopulate] at hgoing

theorem serve_none {waiter : Waiter} {source : Source} (h : pool.serve waiter source = none) :
    pool.queue source = [] := by
  unfold serve at h
  split at h
  · assumption
  · cases h

/-- In a settled pool nobody is in line while there is a slot in a queue, for the first in line could take it.
    -/
theorem Settled.queues (h : pool.Settled machine state) (hgoing : pool.cancelled = false)
    (hwaiting : pool.waiting ≠ []) : pool.newQueue = [] ∧ pool.reusedQueue = [] := by
  obtain ⟨waiter, behind, hline⟩ := List.exists_cons_of_ne_nil hwaiting
  have hstuck := h (.waiter waiter.client)
  have hfind : pool.waiting.find? (·.client = waiter.client) = some waiter := by
    rw [hline, List.find?_cons]
    simp
  have hfirst : pool.waiting.head? = some waiter := by rw [hline, List.head?_cons]
  simp only [step, Option.map_eq_none_iff, stepWaiter, hfind, hgoing, hfirst] at hstuck
  split at hstuck
  · cases hstuck
  · obtain ⟨hreused, hnew⟩ : _ ∧ _ := by simpa using hstuck
    exact ⟨serve_none hnew, serve_none hreused⟩

end Pool

namespace Service

variable {machine : Machine σ} {service after : Service σ} {event : Event} {config : Config} {size room : Nat}
  {outcomes : List (Client × Outcome)}

/-- How many slots are out of the new queue: they wait for reuse, or a caller has them or has lost them. -/
def away (service : Service σ) : Nat :=
  service.pool.reusedQueue.length + service.held.length + service.lost.length

/-- What is in stock in a settled pool of a given size and with a given room in the new queue. -/
structure Stocked (service : Service σ) (size room : Nat) : Prop where
  away : service.away ≤ size
  newQueue : service.pool.newQueue.length = min room (size - service.away)
  /-- one more identity is in hand exactly when the queue cannot take all -/
  hand : (room < size - service.away ∧ ∃ slot, service.pool.populate = .holding slot) ∨
    size - service.away ≤ room ∧ service.pool.populate = .acquiring
  free : service.pool.allocator.free.length = size - service.away - room - 1
  available : service.pool.allocator.available = size - service.away - room - 1
  /-- nobody waits beside a slot that could be taken: callers have all of them, or have lost them -/
  waiting : service.pool.waiting ≠ [] →
    service.pool.newQueue = [] ∧ service.pool.reusedQueue = [] ∧ service.held.length + service.lost.length = size ∧
      service.pool.allocator.held.Perm ((service.held ++ service.lost).map (·.2.id.val))

/-- Every identity of a pool in which no request is under way is free, in stock, or away, and is so once. The
    filling task may have one in its hand. -/
theorem Conserved.count (h : service.Conserved size) (hfinished : service.pool.finished = [])
    (htasks : service.pool.tasks = []) :
    service.pool.allocator.held.Perm ((service.pool.newQueue.map Slot.id ++ service.pool.reusedQueue.map Slot.id ++
        service.pool.populate.slots.map Slot.id ++ (service.held ++ service.lost).map (·.2.id)).map Fin.val) ∧
      service.pool.newQueue.length + service.pool.populate.slots.length + service.away +
        service.pool.allocator.free.length = size := by
  have hheld := (h.partitioned hfinished).held
  have hplaces : service.places.flatten = service.pool.newQueue.map Slot.id ++
      service.pool.reusedQueue.map Slot.id ++ service.pool.populate.slots.map Slot.id ++
        (service.held ++ service.lost).map (·.2.id) := by
    simp [places, ownTasks, htasks]
  rw [hplaces] at hheld
  refine ⟨hheld, ?_⟩
  have hcomplete := h.balanced.complete.length_eq
  have hlength := hheld.length_eq
  rw [List.length_append, List.length_range] at hcomplete
  simp only [List.length_map, List.length_append] at hlength
  have hcapacity : service.ledger.allocator.capacity = size := h.plan.1
  have hsame : service.ledger.allocator = service.pool.allocator := rfl
  rw [hsame] at hcomplete hcapacity
  simp only [Service.away]
  omega

/-- A settled pool whose lifetime is not over is stocked. By counting the identities the new queue has as many
    slots as there are, up to its capacity, and the reused queue what was handed back and found room. -/
theorem Conserved.stocked (h : service.Conserved size) (hfinished : service.pool.finished = [])
    (hsettled : service.pool.Settled machine service.machine) (hgoing : service.pool.cancelled = false)
    (hshutting : service.pool.Shutting) (hmatched : service.pool.allocator.Matched)
    (hroomy : service.pool.Roomy config) :
    service.Stocked size config.newQueueCapacity := by
  have htasks := hsettled.tasks hshutting
  obtain ⟨hheld, hcount⟩ := h.count hfinished htasks
  have hfits := hroomy.fits
  have hroom : 0 < config.newQueueCapacity := Nat.lt_of_lt_of_le Nat.zero_lt_one (Nat.le_max_right ..)
  have havailable : service.pool.allocator.available = service.pool.allocator.free.length := hmatched
  -- what is left to show of those who wait, once nothing is in hand when both queues are empty
  have hwaits (hhand : service.pool.newQueue = [] → service.pool.populate.slots = [] ∧
      service.pool.allocator.free = []) (hwaiting : service.pool.waiting ≠ []) :
      service.pool.newQueue = [] ∧ service.pool.reusedQueue = [] ∧
        service.held.length + service.lost.length = size ∧
        service.pool.allocator.held.Perm ((service.held ++ service.lost).map (·.2.id.val)) := by
    obtain ⟨hnew, hreused⟩ := hsettled.queues hgoing hwaiting
    obtain ⟨hslots, hfree⟩ := hhand hnew
    refine ⟨hnew, hreused, ?_, ?_⟩
    · simpa [hnew, hslots, hfree, Service.away, hreused] using hcount
    · simpa [hnew, hreused, hslots, Function.comp_def] using hheld
  rcases hsettled.populate hgoing hshutting hmatched with ⟨hpopulate, hfree⟩ | ⟨slot, hpopulate, hfull⟩
  · rw [hpopulate] at hcount hfits
    simp only [Populate.slots, Populate.counting, hfree, List.length_nil] at hcount hfits havailable
    refine ⟨by omega, by omega, .inr ⟨by omega, hpopulate⟩, by simp only [hfree, List.length_nil]; omega,
      by omega, hwaits fun _ => ⟨by rw [hpopulate]; rfl, hfree⟩⟩
  · rw [hroomy.newCapacity] at hfull
    rw [hpopulate] at hcount hfits
    simp only [Populate.slots, Populate.counting, List.length_singleton] at hcount hfits
    refine ⟨by omega, by omega, .inl ⟨by omega, slot, hpopulate⟩, by omega, by omega, hwaits fun hnew => ?_⟩
    rw [hnew, List.length_nil] at hfull
    omega

/-- There are as many permits as free identities, as long as callers hand back only what they were given. -/
theorem Reaches.matched {start : Service σ} (hconserved : start.Conserved size) (hstrays : start.strays = [])
    (hstart : start.pool.allocator.Matched) (hreaches : Reaches machine OwnSlots start service) :
    service.pool.allocator.Matched := by
  induction hreaches with
  | start => exact hstart
  | @step service after event outcomes hreaches hown hstep ih =>
    have hbefore := (hreaches.sparesStrays hstrays).conserved hconserved
    obtain ⟨heffect, -⟩ := hbefore.step_effect hown (hreaches.noStrays hstrays) hstep (permits_any event)
      (fun _ => trivial)
    exact heffect.matched ih

/-- In every state that can be reached there is no more in the new queue than fits. -/
theorem Reaches.roomy {allowed : Service σ → Event → Prop} {start : Service σ} (hstart : start.pool.Roomy config)
    (hreaches : Reaches machine allowed start service) : service.pool.Roomy config := by
  induction hreaches with
  | start => exact hstart
  | step hreaches hallowed hstep ih =>
    obtain ⟨pool, hturned, hafter, -⟩ := step_turned hstep
    have hroomy := hturned.roomy ih
    exact hafter ▸ ⟨hroomy.newCapacity, hroomy.fits⟩

end Service
end SlotPool

import Mathlib.Tactic.NormNum
import SlotPool.Proofs.Pool.Gauges
/-!
What the published gauges of a pool say of its queues. A gauge counts the slots in its queue and those that are
just being put in or taken out, and there are never so many that it would wrap around. So it is never below the
length of its queue, and it is that length when nothing is under way.
-/

namespace SlotPool

variable {σ : Type}

section

variable {host : String} {source : Source} {registry registry' : Registry} {gauges : Gauges} {value : Int64}

theorem Registry.family_publish : (registry.publish host gauges).family source =
    (registry.family source).map fun entry => if entry.1 = host then (host, gauges.reading source) else entry := by
  cases source <;> rfl

/-- A host that has registered finds the values that it publishes under its label, whatever other hosts publish.
    -/
theorem Registry.lookup_publish (h : (registry.family source).lookup host ≠ none) :
    ((registry.publish host gauges).family source).lookup host = some (gauges.reading source) := by
  rw [family_publish]
  revert h
  generalize registry.family source = entries
  intro h
  induction entries with
  | nil => exact (h rfl).elim
  | cons entry rest ih =>
    obtain ⟨label, value⟩ := entry
    by_cases hlabel : label = host
    · simp [hlabel]
    · have hother : (host == label) = false := beq_false_of_ne (Ne.symm hlabel)
      rw [List.lookup_cons, hother] at h
      simpa [hlabel, List.lookup_cons, hother] using ih h

/-- A label that is published stays so when another gauge is registered. -/
theorem Registry.registerOne_ok {other : Source} (h : registry.registerOne other host = .ok registry')
    (hpublished : source = other ∨ (registry.family source).lookup host ≠ none) :
    (registry'.family source).lookup host ≠ none := by
  unfold registerOne at h
  split at h
  · cases h
  · obtain rfl := by simpa using h
    by_cases hsame : source = other
    · subst hsame
      have hfamily : (registry.setFamily (registry.family source ++ [(host, 0)]) source).family source =
          registry.family source ++ [(host, 0)] := by cases source <;> rfl
      rw [hfamily, List.lookup_append]
      cases (registry.family source).lookup host <;> simp
    · have hfamily : (registry.setFamily (registry.family other ++ [(host, 0)]) other).family source =
          registry.family source := by cases source <;> cases other <;> simp_all [setFamily, family]
      rw [hfamily]
      exact hpublished.resolve_left hsame

/-- A host that was registered has a gauge in both families. A label that was taken already would have been
    refused. -/
theorem Registry.register_ok (h : registry.register host = (.ok (), registry')) :
    ∀ source, (registry'.family source).lookup host ≠ none := by
  unfold register at h
  split at h
  · simp at h
  · rename_i once hfirst
    split at h
    · simp at h
    · rename_i twice hsecond
      obtain rfl : twice = registry' := by simpa using h
      intro source
      cases source with
      | new => exact registerOne_ok hsecond (.inr (registerOne_ok hfirst (.inl rfl)))
      | reused => exact registerOne_ok hsecond (.inl rfl)

/-- Readers see a number that has at most 53 significant bits as it is. Larger ones would be rounded on their
    way to a reader. -/
theorem Registry.readValue_exact (hsmall : value.toInt.natAbs < 2 ^ 53) : readValue value = value.toInt := by
  have hshift : value.toInt.natAbs.log2 - 52 = 0 := by
    have hbits : value.toInt.natAbs.log2 < 53 ∨ value.toInt.natAbs = 0 := by
      by_cases hzero : value.toInt.natAbs = 0
      · exact .inr hzero
      · exact .inl ((Nat.log2_lt hzero).mpr hsmall)
    rcases hbits with hbits | hzero
    · omega
    · rw [hzero]
      rfl
  have hround : roundSignificant value.toInt = value.toInt := by
    simp only [roundSignificant, hshift, Nat.shiftLeft_zero, Nat.div_one, Nat.mod_one]
    simpa using Int.sign_mul_natAbs value.toInt
  rw [readValue, hround]
  exact min_eq_left (Int64.toInt_le value)

/-- What is gathered of a host is the value of its gauge, read as a number. -/
theorem Registry.lookup_gather : (registry.gather source).lookup host =
    ((registry.family source).lookup host).map readValue := by
  unfold gather
  induction registry.family source with
  | nil => rfl
  | cons entry rest ih =>
    obtain ⟨label, value⟩ := entry
    simp only [List.map_cons, List.lookup_cons]
    cases host == label with
    | true => rfl
    | false => exact ih

end

/-- The gauges of a pool that was opened are published, and its queues have no more room than can be given. Both
    are decided before the first slot is made. -/
theorem Pool.openWith_published {machine : Machine σ} {config : Config} {cancelled : Bool}
    {registry registry' : Registry} {state state' : σ} {pool : Pool}
    (h : openWith machine config cancelled registry state = (.ok (.ok pool), registry', state')) :
    (∀ source, (registry'.family source).lookup config.hostId ≠ none) ∧
      max config.newQueueCapacity config.reusedSlots ≤ largestQueue := by
  unfold openWith at h
  split at h
  · simp at h
  · split at h
    · simp at h
    · simp at h
    · split at h
      · simp at h
      · rename_i published hregister
        split at h
        · simp at h
        · rename_i hroom
          obtain ⟨-, rfl, -⟩ := by simpa using h
          exact ⟨Registry.register_ok hregister, Nat.le_of_not_lt hroom⟩

theorem Stage.shown_le_one (source : Source) (stage : Stage) : stage.shown source ≤ 1 := by
  unfold Stage.shown
  split <;> (try split) <;> omega

/-- Only a slot that a task has is shown for the task. -/
theorem Stage.shown_le_slots (source : Source) (stage : Stage) : stage.shown source ≤ stage.slots.length := by
  cases stage with
  | received | drained | offering | refused => exact shown_le_one ..
  | _ => exact Nat.zero_le _

theorem Populate.shown_le_slots (source : Source) (populate : Populate) :
    populate.shown source ≤ populate.slots.length := by
  unfold Populate.shown
  cases populate <;> split <;> simp [Populate.counting, Populate.slots]

namespace Pool

variable {machine : Machine σ} {client : Client} {pool pool' : Pool} {state state' : σ} {stage : Stage}
  {config : Config} {event : Service.Event}

/-- The reused queue has the room that was configured, and what is in it fits. -/
structure Shelved (config : Config) (pool : Pool) : Prop where
  reusedCapacity : pool.reusedCapacity = config.reusedSlots
  fits : pool.reusedQueue.length ≤ config.reusedSlots

theorem opened_shelved (config : Config) (egress : String) (cancelled : Bool) :
    (opened config egress cancelled).Shelved config := ⟨rfl, Nat.zero_le _⟩

theorem Shelved.mono (h : pool.Shelved config) (hcapacity : pool'.reusedCapacity = pool.reusedCapacity)
    (hqueue : pool'.reusedQueue.length ≤ pool.reusedQueue.length) : pool'.Shelved config :=
  ⟨hcapacity.trans h.reusedCapacity, Nat.le_trans hqueue h.fits⟩

/-- A step of a task keeps the queues within their capacity: a slot is put into the reused queue only when there
    is room, and none is put into the new queue. -/
theorem Advance.shelved (hadvance : Advance machine client pool state stage pool' state') (h : pool.Shelved config) :
    pool'.Shelved config := by
  have hcapacity := hadvance.likewise.reusedCapacity
  rcases hadvance.queueLength .reused with hfewer | ⟨-, hroom, hone⟩
  · exact h.mono hcapacity hfewer
  · refine ⟨hcapacity.trans h.reusedCapacity, ?_⟩
    rw [h.reusedCapacity] at hroom
    omega

/-- The filling task puts a slot into the new queue only when there was room for it, and nobody else puts one
    there meanwhile. -/
theorem Stocking.shelved {choice : Nat} (hstocking : Stocking choice pool pool') (h : pool.Shelved config) :
    pool'.Shelved config := by
  cases hstocking with
  | discard hpopulate hcancelled =>
    rw [release_snd]
    exact h.mono rfl (Nat.le_refl _)
  | count hpopulate hgoing hroom =>
    cases pool
    exact h.mono rfl (Nat.le_refl _)
  | _ => exact h.mono rfl (Nat.le_refl _)

/-- A request in line only takes slots out of the queues. -/
theorem Waiting.shelved (hwaiting : Waiting client pool pool') (h : pool.Shelved config) : pool'.Shelved config := by
  cases hwaiting with
  | giveUp hwaiter hclient => exact h.mono rfl (Nat.le_refl _)
  | sendAway hwaiter hclient => exact h.mono rfl (Nat.le_refl _)
  | @serve waiter source slot rest hwaiter hclient hqueue =>
    cases source with
    | new => exact h.mono rfl (Nat.le_refl _)
    | reused =>
      have hreused : pool.reusedQueue = slot :: rest := hqueue
      exact h.mono rfl (by rw [hreused]; exact Nat.le_succ _)

/-- Whatever happens, the queues keep within their capacity, which is that of the configuration. -/
theorem Turned.shelved (hturned : Turned machine pool state event pool' state') (h : pool.Shelved config) :
    pool'.Shelved config := by
  cases hturned with
  | move hstepping =>
    cases hstepping with
    | task hfind hadvance => exact hadvance.shelved ⟨h.reusedCapacity, h.fits⟩
    | populate hstocking => exact hstocking.shelved h
    | waiter hwaiting => exact hwaiting.shelved h
  | get hasking =>
    cases hasking with
    | take hqueue => exact h.mono rfl (by rw [hqueue]; exact Nat.le_succ _)
    | decline | join => exact h.mono rfl (Nat.le_refl _)
  | close hasking => cases hasking <;> exact h.mono rfl (Nat.le_refl _)
  | _ => exact h.mono rfl (Nat.le_refl _)

/-- Each task shows at most one slot of a queue, so all together show no more than there are tasks. -/
theorem sum_shown_le_length (source : Source) (tasks : List (Client × Stage)) :
    (tasks.map (·.2.shown source)).sum ≤ tasks.length := by
  induction tasks with
  | nil => exact Nat.le_refl _
  | cons task rest ih =>
    have hone := task.2.shown_le_one source
    simp only [List.map_cons, List.sum_cons, List.length_cons]
    omega

/-- Where some tasks are known to show nothing, the others have as many slots as are shown. A task shows one
    slot at most, and only one that it has. -/
theorem sum_shown_le_slots (source : Source) (own : Client × Stage → Bool) {tasks : List (Client × Stage)}
    (hothers : ∀ task ∈ tasks, own task = false → task.2.shown source = 0) :
    (tasks.map (·.2.shown source)).sum ≤ (slotsWith (tasks.filter own)).length := by
  induction tasks with
  | nil => exact Nat.le_refl _
  | cons task rest ih =>
    have hrest := ih fun other hmem => hothers other (List.mem_cons_of_mem _ hmem)
    rw [List.map_cons, List.sum_cons]
    cases hown : own task with
    | true =>
      have htask := task.2.shown_le_slots source
      rw [List.filter_cons_of_pos hown, slotsWith_cons, List.length_append]
      omega
    | false =>
      have htask := hothers task (List.mem_cons_self ..) hown
      rw [List.filter_cons_of_neg (by simp [hown])]
      omega

/-- A gauge that has not wrapped around shows at least the slots in its queue. -/
theorem Gauged.reads (h : pool.Gauged) (source : Source) (hsmall : pool.shown source < 2 ^ 63) :
    (pool.gauges.reading source).toInt = pool.shown source := by
  rw [h source, Int64.toInt_ofNat_of_lt hsmall]

theorem queue_le_shown (pool : Pool) (source : Source) : (pool.queue source).length ≤ pool.shown source := by
  rw [shown]
  omega

/-- Nothing is being put into a queue or taken out of one in a settled pool. -/
theorem Settled.shown (h : pool.Settled machine state) (hshutting : pool.Shutting) (source : Source) :
    pool.shown source = (pool.queue source).length := by
  have hcounting : pool.populate.counting = 0 := by
    have hstuck := h (.populate 0)
    cases hpopulate : pool.populate with
    | counted slot => simp [step, stepPopulate, hpopulate] at hstuck
    | _ => rfl
  rw [Pool.shown, Populate.shown, hcounting, h.tasks hshutting]
  simp

/-- A pool without a request is settled while it waits for room in the new queue. -/
theorem settled_of_full {slot : Slot} (htasks : pool.tasks = []) (hwaiting : pool.waiting = [])
    (hpopulate : pool.populate = .holding slot) (hgoing : pool.cancelled = false)
    (hfull : pool.newCapacity ≤ pool.newQueue.length) : pool.Settled machine state := by
  intro move
  cases move with
  | task client => simp [step, htasks]
  | populate choice => simp [step, stepPopulate, hpopulate, hgoing, hfull]
  | waiter client => simp [step, stepWaiter, hwaiting]

end Pool

namespace Service

variable {machine : Machine σ} {allowed : Service σ → Event → Prop} {service : Service σ} {size : Nat}

/-- A gauge shows slots of the pool, each once, and of these there are no more than identities. So it stays far
    from where the numbers wrap. -/
theorem Conserved.shown_le (h : service.Conserved size) (source : Source) : service.pool.shown source ≤ size := by
  have hheld : service.pool.allocator.held.length = service.ledger.ids.length := by
    rw [← List.length_map Fin.val]
    exact h.balanced.held.length_eq
  have hcomplete := h.balanced.complete.length_eq
  have hcapacity : service.ledger.allocator.capacity = size := h.plan.1
  have hsame : service.ledger.allocator = service.pool.allocator := rfl
  rw [List.length_append, List.length_range, hcapacity, hsame, hheld] at hcomplete
  have htasks : (service.pool.tasks.map (·.2.shown source)).sum ≤ (Pool.slotsWith service.ownTasks).length := by
    refine Pool.sum_shown_le_slots source _ fun task hmem hstray => ?_
    have hastray := h.astray task.1 task.2 hmem (by simpa using hstray)
    cases hstage : task.2 with
    | resetting | unreset | lost => rfl
    | _ => exact (hstage ▸ hastray).elim
  have hpopulate := service.pool.populate.shown_le_slots source
  have hqueue : (service.pool.queue source).length ≤
      service.pool.newQueue.length + service.pool.reusedQueue.length := by
    cases source <;> simp [Pool.queue]
  simp only [ledger, Ledger.ids, Ledger.add, Pool.ledgerWith, Pool.stock, List.length_append, List.length_map]
    at hcomplete
  rw [Pool.shown]
  omega

/-- In every state that can be reached the queues keep within their capacity, as every event does. -/
theorem Reaches.shelved {config : Config} {start : Service σ} (hstart : start.pool.Shelved config)
    (hreaches : Reaches machine allowed start service) : service.pool.Shelved config := by
  induction hreaches with
  | start => exact hstart
  | step hreaches hallowed hstep ih =>
    obtain ⟨pool, hturned, hafter, -⟩ := step_turned hstep
    have hshelved := hturned.shelved ih
    exact hafter ▸ ⟨hshelved.reusedCapacity, hshelved.fits⟩

/-- Full queues leave a gauge room for what is being put in and taken out. The filling task raises its gauge
    before it puts, and a request lowers it after it has taken. -/
theorem shown_le_room {config : Config} (hroomy : service.pool.Roomy config) (hshelved : service.pool.Shelved config)
    (source : Source) :
    (service.pool.queue source).length + service.pool.populate.shown source ≤
        max config.newQueueCapacity config.reusedSlots ∧
      service.pool.shown source ≤
        max config.newQueueCapacity config.reusedSlots + service.pool.tasks.length := by
  have htasks := Pool.sum_shown_le_length source service.pool.tasks
  have hqueue : (service.pool.queue source).length + service.pool.populate.shown source ≤
      max config.newQueueCapacity config.reusedSlots := by
    cases source with
    | new => exact Nat.le_trans hroomy.fits (Nat.le_max_left ..)
    | reused => exact Nat.le_trans hshelved.fits (Nat.le_max_right ..)
  refine ⟨hqueue, ?_⟩
  rw [Pool.shown]
  omega

/-- The gauges tell the truth. In a settled pool the published value of each queue is its length, and at any
    time, between any two steps, it is no less, as long as there are no more requests under way than a 64-bit
    word can count beside a full queue. Callers who never hand back a free identity cannot make so many, and
    whoever reads the gauges then reads exactly what is published. -/
theorem Reaches.truthful {config : Config} {cancelled : Bool} {registry registry' : Registry} {state state' : σ}
    {pool : Pool}
    (hopen : Pool.openWith machine config cancelled registry state = (.ok (.ok pool), registry', state'))
    (hreaches : Reaches machine allowed (opened pool state') service) (source : Source) :
    ∃ value, ((registry'.publish config.hostId service.pool.gauges).family source).lookup config.hostId =
        some value ∧
      (service.pool.Settled machine service.machine → value.toInt = (service.pool.queue source).length) ∧
      (service.pool.tasks.length < 2 ^ 62 → (service.pool.queue source).length ≤ value.toInt) ∧
      ((∀ service event, allowed service event → SparesStrays machine service event) →
        (service.pool.queue source).length ≤ value.toInt ∧
          ((registry'.publish config.hostId service.pool.gauges).gather source).lookup config.hostId =
            some value.toInt) := by
  obtain ⟨hpublished, hlargest⟩ := Pool.openWith_published hopen
  obtain ⟨hvalid, egress, -, rfl⟩ := Pool.openWith_ok hopen
  have hlookup : ((registry'.publish config.hostId service.pool.gauges).family source).lookup config.hostId =
      some (service.pool.gauges.reading source) := Registry.lookup_publish (hpublished source)
  have hgauged : service.pool.Gauged := hreaches.gauged (Pool.opened_gauged _ _ _)
  have hroom := shown_le_room (hreaches.roomy (Pool.opened_roomy ..)) (hreaches.shelved (Pool.opened_shelved ..))
    source
  have hmost : Pool.largestQueue < 2 ^ 61 := by decide
  have hqueue := service.pool.queue_le_shown source
  refine ⟨_, hlookup, fun hsettled => ?_, fun hfew => ?_, fun hspares => ?_⟩
  · have hshutting := hreaches.shutting (opened_conserved (Config.maxSlots_le_of_validate hvalid))
      (Pool.opened_shutting ..)
    have hshown := hsettled.shown hshutting source
    rw [hgauged.reads source (by omega), hshown]
  · rw [hgauged.reads source (by omega)]
    exact_mod_cast hqueue
  · have hconserved : service.Conserved config.maxSlots :=
      (hreaches.mono hspares).conserved (opened_conserved (Config.maxSlots_le_of_validate hvalid))
    have hshown := hconserved.shown_le source
    have hplan : config.maxSlots ≤ planSize := hconserved.plan.2
    have hsize : planSize < 2 ^ 53 := by decide
    have hreads := hgauged.reads source (by omega)
    refine ⟨?_, ?_⟩
    · rw [hreads]
      exact_mod_cast hqueue
    · rw [Registry.lookup_gather, hlookup, Option.map_some, Registry.readValue_exact (by omega)]

/-- The filling task has raised the gauge and is still to queue its slot, so the gauge is ahead of the queue.
    Two steps later it waits with the next slot, and readers see the one that is queued. -/
theorem truthful_stocking :
    ∃ counted stocked, (opened (Pool.opened .small "eth0" false) (Rehearsal.start World.fresh)).run
        (Rehearsal.rehearsing World.machine) [.move (.populate 0), .move (.populate 0)] = some counted ∧
      counted.run (Rehearsal.rehearsing World.machine) [.move (.populate 0), .move (.populate 0)] = some stocked ∧
      (∃ value, ((Registry.publish "host" counted.pool.gauges ⟨[("host", 0)], [("host", 0)]⟩).family .new).lookup
        "host" = some value ∧ (counted.pool.queue .new).length ≤ value.toInt) ∧
      ((Registry.publish "host" stocked.pool.gauges ⟨[("host", 0)], [("host", 0)]⟩).gather .new).lookup "host" =
        some 1 := by
  obtain ⟨counted, hcounted, hstands⟩ := Option.bind_eq_some_iff.mp
    (show ((opened (Pool.opened .small "eth0" false) (Rehearsal.start World.fresh)).run
      (Rehearsal.rehearsing World.machine) [.move (.populate 0), .move (.populate 0)]).bind (fun counted =>
        (counted.run (Rehearsal.rehearsing World.machine) [.move (.populate 0), .move (.populate 0)]).map
          fun stocked => ((stocked.pool.waiting, stocked.pool.tasks.isEmpty, stocked.pool.populate),
            (stocked.pool.cancelled, stocked.pool.newCapacity, stocked.pool.newQueue.length))) =
        some (([], true, .holding (.fresh 1)), (false, 1, 1)) by decide +kernel)
  obtain ⟨stocked, hstocked, hfacts⟩ := Option.map_eq_some_iff.mp hstands
  simp only [Prod.mk.injEq, List.isEmpty_iff] at hfacts
  obtain ⟨⟨hwaiting, htasks, hpopulate⟩, hgoing, hcapacity, hlength⟩ := hfacts
  have hfirst : Reaches (Rehearsal.rehearsing World.machine) OwnSlots
      (opened (Pool.opened .small "eth0" false) (Rehearsal.start World.fresh)) counted :=
    Reaches.start.run (by simp [OwnSlots]) hcounted
  have hboth : Reaches (Rehearsal.rehearsing World.machine) OwnSlots
      (opened (Pool.opened .small "eth0" false) (Rehearsal.start World.fresh)) stocked :=
    hfirst.run (by simp [OwnSlots]) hstocked
  have hsettled : stocked.pool.Settled (Rehearsal.rehearsing World.machine) stocked.machine :=
    Pool.settled_of_full htasks hwaiting hpopulate hgoing (by omega)
  obtain ⟨value, hpublished, -, -, hleast⟩ :=
    Reaches.truthful (Pool.openWith_small _ _) (hfirst.sparesStrays rfl) .new
  obtain ⟨number, -, hexact, -, hread⟩ :=
    Reaches.truthful (Pool.openWith_small _ _) (hboth.sparesStrays rfl) .new
  have hone : number.toInt = 1 := (hexact hsettled).trans (congrArg Nat.cast hlength)
  exact ⟨counted, stocked, hcounted, hstocked, ⟨value, hpublished, (hleast fun _ _ => id).1⟩,
    hone ▸ (hread fun _ _ => id).2⟩

end Service
end SlotPool

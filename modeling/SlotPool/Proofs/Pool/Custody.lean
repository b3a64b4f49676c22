import SlotPool.Proofs.Pool.Balance
/-!
Every identity is in one place. What the allocator holds are the identities of the slots that are in a
queue, in the hand of the filling task, with a request, or with a caller who has it or has lost it, and
each of them once. So no two slots ever share an identity, and a release is never refused.
-/

namespace SlotPool.Service

variable {σ : Type}

/-- The tasks that do not hand back a free identity. -/
def ownTasks (service : Service σ) : List (Client × Stage) :=
  service.pool.tasks.filter (·.1 ∉ service.strays)

/-- The slots that callers have or have lost. -/
def callerSlots (service : Service σ) : List Slot := (service.held ++ service.lost).map (·.2)

/-- The slots there are, wherever they are. -/
def ledger (service : Service σ) : Ledger :=
  (service.pool.ledgerWith service.ownTasks).add service.callerSlots []

/-- A turn begins a job, if it does, only where that is permitted. -/
def Permits (service : Service σ) (permit : Permit σ) (event : Event) : Prop :=
  ∀ client stage job slot, event = .move (.task client) → (client, stage) ∈ service.pool.tasks →
    stage.job? = some (job, slot) → service.pool.workerAlive = true →
    permit job slot service.machine

theorem permits_any {service : Service σ} (event : Event) : service.Permits .any event :=
  fun _ _ _ _ _ _ _ _ => trivial

/-- All identities of a pool of the given size are accounted for. -/
structure Conserved (service : Service σ) (size : Nat) : Prop where
  filed : service.Filed
  balanced : service.ledger.Balanced
  plan : service.pool.allocator.capacity = size ∧ size ≤ planSize
  astray : ∀ client stage, (client, stage) ∈ service.pool.tasks → client ∈ service.strays →
    stage.Astray service.pool.allocator.free
  running : ∀ task ∈ service.pool.tasks, task.1 ∈ service.named
  waiting : ∀ waiter ∈ service.pool.waiting,
    waiter.client ∈ service.named ∧ waiter.client ∉ service.strays
  strays : ∀ client ∈ service.strays, client ∈ service.named

variable {machine : Machine σ} {service applied after : Service σ} {event : Event} {size : Nat}

theorem Conserved.known_lt (h : service.Conserved size) :
    ∀ identity ∈ service.pool.allocator.known, identity < planSize := fun _ hknown =>
  Nat.lt_of_lt_of_le (h.plan.1 ▸ (h.balanced.complete.mem_iff).mp (List.mem_append.mp hknown)) h.plan.2

theorem Conserved.inPlan (h : service.Conserved size) :
    ∀ identity ∈ service.pool.allocator.free, identity < planSize := fun identity hfree =>
  h.known_lt identity (List.mem_append_right _ hfree)

/-- The ledger with some tasks named apart from the others. -/
theorem ledger_split {tasks rest : List (Client × Stage)}
    (hown : service.ownTasks.Perm (tasks ++ rest)) :
    service.ledger.Same ((service.pool.ledgerWith tasks).add
      (Pool.slotsWith rest ++ service.callerSlots) (Pool.bareWith rest ++ [])) :=
  (Pool.ledgerWith_perm hown _ _).trans (Pool.ledgerWith_append ..)

section

variable {permit : Permit σ} {vacant : Prop} {pool : Pool} {state : σ} {client : Client} {stage : Stage}

/-- A task of the service's own, as it goes on: what it does to the pool is an effect on the ledger. The task
    was taken off the list first, so its slots and identities are counted apart and come back with its next
    stage. -/
theorem advance_own (hfind : service.pool.tasks.find? (·.1 = client) = some (client, stage))
    (hadvance : Pool.Advance machine client
      { service.pool with tasks := service.pool.tasks.eraseP (·.1 = client) } service.machine stage
      pool state)
    (hown : client ∉ service.strays) (hpermits : service.Permits permit (.move (.task client)))
    (hvacant : service.pool.workerAlive = false → vacant) :
    Effect machine service.pool.egress permit vacant service.ledger service.machine
      { service with pool, machine := state }.ledger state := by
  have hmem : (client, stage) ∈ service.pool.tasks := List.mem_of_find?_eq_some hfind
  obtain ⟨moved, htasks, hmoved, heffect⟩ := hadvance.effect
    (fun halive job slot hjob => hpermits client stage job slot rfl hmem hjob halive) hvacant
  let rest := (service.pool.tasks.eraseP (·.1 = client)).filter (·.1 ∉ service.strays)
  have hbefore : service.ownTasks.Perm ([(client, stage)] ++ rest) := by
    refine ((Pool.tasks_perm hfind).filter _).trans ?_
    simp [hown, rest]
  have hafter : { service with pool, machine := state }.ownTasks = moved ++ rest := by
    simp only [ownTasks, htasks, List.filter_append]
    congr 1
    exact List.filter_eq_self.mpr fun task hmem => by simpa [hmoved task hmem] using hown
  exact (heffect.add _ _).perm (ledger_split hbefore) (ledger_split (hafter ▸ .refl _))

/-- A request that hands back a free identity does nothing to the ledger. The job is done for an identity that
    is on no account, and the release at its end is refused as the identity is not held. -/
theorem advance_stray (hfind : service.pool.tasks.find? (·.1 = client) = some (client, stage))
    (hadvance : Pool.Advance machine client
      { service.pool with tasks := service.pool.tasks.eraseP (·.1 = client) } service.machine stage
      pool state)
    (hstray : client ∈ service.strays) (h : service.Conserved size) :
    { service with pool, machine := state }.ledger.Same service.ledger ∧
      ∃ moved, pool.tasks = moved ++ service.pool.tasks.eraseP (·.1 = client) ∧
        ∀ task ∈ moved, task.1 = client ∧ task.2.Astray service.pool.allocator.free := by
  have hastray := h.astray client stage (List.mem_of_find?_eq_some hfind) hstray
  obtain ⟨hallocator, hstock, moved, htasks, hmoved⟩ := hadvance.astray hastray h.balanced.complete
  refine ⟨?_, moved, htasks, hmoved⟩
  have hbefore : service.ownTasks.Perm
      ((service.pool.tasks.eraseP (·.1 = client)).filter (·.1 ∉ service.strays)) := by
    refine ((Pool.tasks_perm hfind).filter _).trans ?_
    simp [hstray]
  have hafter : { service with pool, machine := state }.ownTasks =
      (service.pool.tasks.eraseP (·.1 = client)).filter (·.1 ∉ service.strays) := by
    simp only [ownTasks, htasks, List.filter_append]
    rw [List.filter_eq_nil_iff.mpr fun task hmem => by simpa [(hmoved task hmem).1] using hstray]
    rfl
  have hledger : { service with pool, machine := state }.ledger =
      (service.pool.ledgerWith { service with pool, machine := state }.ownTasks).add
        service.callerSlots [] := by
    simp only [ledger, Pool.ledgerWith, hallocator, hstock]
    rfl
  rw [hledger, hafter]
  exact Pool.ledgerWith_perm hbefore.symm _ _

/-- Every step of the pool does one of the effects, unless it is for a request that hands back a free
    identity. -/
theorem Conserved.stepping_effect {move : Pool.Move} (h : service.Conserved size)
    (hstepping : Pool.Stepping machine service.pool service.machine move pool state)
    (hown : ∀ client, move = .task client → client ∉ service.strays)
    (hpermits : service.Permits permit (.move move))
    (hvacant : service.pool.workerAlive = false → vacant) :
    Effect machine service.pool.egress permit vacant service.ledger service.machine
      { service with pool, machine := state }.ledger state := by
  cases hstepping with
  | @task client stage pool state hfind hadvance =>
    exact advance_own hfind hadvance (hown client rfl) hpermits hvacant
  | populate hstocking =>
    have hafter : { service with pool }.ownTasks = service.ownTasks := by
      simp only [ownTasks, hstocking.tasks]
    exact ((hstocking.effect h.filed.pool h.inPlan).add _ _).perm (ledger_split (.refl service.ownTasks))
      (ledger_split (hafter ▸ .refl _))
  | @waiter client pool hwaiting =>
    obtain ⟨moved, htasks, hmoved, heffect⟩ := hwaiting.effect
    obtain ⟨waiter, hwaits, rfl⟩ := hwaiting.waits
    have hafter : { service with pool }.ownTasks = moved ++ service.ownTasks := by
      simp only [ownTasks, htasks, List.filter_append]
      congr 1
      refine List.filter_eq_self.mpr fun task hmem => ?_
      simpa [hmoved task hmem] using (h.waiting waiter hwaits).2
    exact (heffect.add _ _).perm (ledger_split (.refl service.ownTasks))
      (ledger_split (hafter ▸ .refl _))

/-- A step of the pool keeps the ledger balanced, whether it is one of a task, of the filling task or of a
    request in line. A stray task has no part in the ledger, and the filling task is kept from its identity. -/
theorem Conserved.stepping_balanced {move : Pool.Move} (h : service.Conserved size)
    (hstepping : Pool.Stepping machine service.pool service.machine move pool state) :
    { service with pool, machine := state }.ledger.Balanced ∧
      pool.allocator.capacity = service.pool.allocator.capacity := by
  by_cases hown : ∃ client, move = .task client ∧ client ∈ service.strays
  · obtain ⟨client, rfl, hstray⟩ := hown
    cases hstepping with
    | task hfind hadvance =>
      obtain ⟨hsame, -⟩ := advance_stray hfind hadvance hstray h
      exact ⟨h.balanced.same hsame, congrArg Allocator.capacity hsame.allocator⟩
  · have hnotStray (client : Client) (hmove : move = .task client) : client ∉ service.strays :=
      fun hstray => hown ⟨client, hmove, hstray⟩
    have heffect := h.stepping_effect hstepping hnotStray (permits_any _) fun _ => trivial
    exact heffect.balanced h.balanced

/-- A step leaves every request that handed back a free identity outside of the ledger, provided that the
    filling task does not take that identity by it. Such a request fails, and its release is refused, so that
    the identity stays free. -/
theorem Conserved.stepping_astray {move : Pool.Move} (h : service.Conserved size)
    (hstepping : Pool.Stepping machine service.pool service.machine move pool state)
    (hspared : ∀ slot, pool.populate = .holding slot → slot.id ∉ service.strayIds) :
    ∀ other next, (other, next) ∈ pool.tasks → other ∈ service.strays →
      next.Astray pool.allocator.free := by
  intro other next hmem hstray
  cases hstepping with
  | @task client stage pool state hfind hadvance =>
    have hrest (hold : (other, next) ∈ service.pool.tasks.eraseP (·.1 = client)) :
        next.Astray pool.allocator.free :=
      (h.astray other next (List.mem_of_mem_eraseP hold) hstray).mono
        fun _ _ hfree => hadvance.free hfree
    by_cases hclient : client ∈ service.strays
    · obtain ⟨hsame, moved, htasks, hmoved⟩ := advance_stray hfind hadvance hclient h
      have hallocator : pool.allocator = service.pool.allocator := hsame.allocator
      rcases List.mem_append.mp (htasks ▸ hmem) with hnew | hold
      · exact hallocator ▸ (hmoved _ hnew).2
      · exact hrest hold
    · obtain ⟨moved, htasks, hmoved⟩ := hadvance.moved
      rcases List.mem_append.mp (htasks ▸ hmem) with hnew | hold
      · exact (hclient (hmoved _ hnew ▸ hstray)).elim
      · exact hrest hold
  | populate hstocking =>
    have hold : (other, next) ∈ service.pool.tasks := hstocking.tasks ▸ hmem
    refine (h.astray other next hold hstray).mono fun id hid hfree => ?_
    refine (hstocking.free h.inPlan hfree).resolve_right ?_
    rintro ⟨slot, hholding, hslot⟩
    refine hspared slot hholding (List.mem_flatMap.mpr ⟨(other, next), ?_, ?_⟩)
    · exact List.mem_filter.mpr ⟨hold, by simpa using hstray⟩
    · exact Fin.ext hslot ▸ hid
  | @waiter client pool hwaiting =>
    rcases hwaiting.tasks _ hmem with hold | hnew
    · exact hwaiting.allocator ▸ h.astray other next hold hstray
    · obtain ⟨waiter, hwaits, rfl⟩ := hwaiting.waits
      obtain rfl : other = waiter.client := hnew
      exact ((h.waiting waiter hwaits).2 hstray).elim

/-- A step of the pool keeps everything accounted for, as long as it does not take an identity that
    was handed back while free. -/
theorem Conserved.stepping {move : Pool.Move} (h : service.Conserved size)
    (hstepping : Pool.Stepping machine service.pool service.machine move pool state)
    (hspared : ∀ slot, pool.populate = .holding slot → slot.id ∉ service.strayIds) :
    { service with pool, machine := state }.Conserved size := by
  obtain ⟨hbalanced, hcapacity⟩ := h.stepping_balanced hstepping
  have hfiled : { service with pool, machine := state }.Filed :=
    ⟨hstepping.filed h.filed.pool, h.filed.callers, h.filed.named, h.filed.asked⟩
  refine ⟨hfiled, hbalanced, hcapacity ▸ h.plan, ?_, fun task hmem => ?_, fun waiter hmem => ?_,
    h.strays⟩
  · exact h.stepping_astray hstepping hspared
  · rcases hstepping.mover task hmem with ⟨old, hold, heq⟩ | ⟨waiter, hwaits, heq⟩
    · exact heq ▸ h.running old hold
    · exact heq ▸ (h.waiting waiter hwaits).1
  · exact h.waiting waiter (hstepping.waiting waiter hmem)

end

section

variable {client : Client} {stage : Stage} {pool : Pool}

/-- A new request that hands back no free identity. -/
theorem ledger_follow (hown : client ∉ service.strays) :
    (service.withPool (pool.follow client stage)).ledger.Same
      ((service.withPool pool).ledger.add stage.slots stage.bare) := by
  have hfilter : (service.withPool (pool.follow client stage)).ownTasks =
      (client, stage) :: (service.withPool pool).ownTasks :=
    List.filter_cons_of_pos (decide_eq_true hown)
  refine ⟨rfl, ?_, ?_⟩
  · simp only [ledger, hfilter, Pool.ledgerWith, Ledger.add, Pool.slotsWith_cons, List.append_assoc]
    exact List.perm_append_comm.trans (by simp only [List.append_assoc]; exact .refl _)
  · simp only [ledger, hfilter, Pool.ledgerWith, Ledger.add, Pool.bareWith_cons, List.append_nil]
    exact List.perm_append_comm

/-- Where pool and callers have the same slots together, the ledgers are the same. -/
theorem ledger_same {service' : Service σ} (htasks : service'.ownTasks = service.ownTasks)
    (hallocator : service'.pool.allocator = service.pool.allocator)
    (hslots : (service'.pool.stock ++ service'.callerSlots).Perm
      (service.pool.stock ++ service.callerSlots)) : service'.ledger.Same service.ledger := by
  refine ⟨hallocator, ?_, ?_⟩
  · simp only [ledger, Pool.ledgerWith, Ledger.add, htasks, List.append_assoc]
    exact hslots.append_left _
  · simp only [ledger, Pool.ledgerWith, Ledger.add, htasks]
    exact .refl _

/-- A slot is taken from the pool or from the callers, and a new request is given one with the same identity.
    The ledger has one for the other. -/
theorem ledger_swap {mid : Service σ} {taken given : Slot} (hstage : stage.slots = [given])
    (hbare : stage.bare = []) (hown : client ∉ mid.strays)
    (htasks : mid.ownTasks = service.ownTasks)
    (hallocator : mid.pool.allocator = service.pool.allocator)
    (hslots : (service.pool.stock ++ service.callerSlots).Perm
      (taken :: (mid.pool.stock ++ mid.callerSlots))) :
    service.ledger.Swap (mid.withPool (mid.pool.follow client stage)).ledger taken given := by
  have hfollow : (mid.withPool (mid.pool.follow client stage)).ledger.Same
      (mid.ledger.add stage.slots stage.bare) := ledger_follow hown
  refine ⟨hallocator, ⟨mid.ledger.slots, ?_, ?_⟩, ?_⟩
  · simp only [ledger, Pool.ledgerWith, Ledger.add, htasks, List.append_assoc]
    exact (hslots.append_left _).trans List.perm_middle
  · refine hfollow.slots.trans ?_
    rw [hstage]
    exact List.perm_append_comm
  · refine hfollow.bare.trans ?_
    simp only [hbare, Ledger.add, List.append_nil]
    simp only [ledger, Pool.ledgerWith, Ledger.add, htasks]
    exact .refl _

/-- A request for a slot takes one from a queue or moves none. In either case the ledger has the same slots, in
    another place. -/
theorem asking_same {policy : Internet} {cancelled : Bool} {pool : Pool}
    (hasking : Pool.Asking client policy cancelled service.pool pool) (hown : client ∉ service.strays) :
    (service.withPool pool).ledger.Same service.ledger := by
  cases hasking with
  | @take slot rest hqueue =>
    have hreused : service.pool.queue .reused = slot :: rest := hqueue
    let mid := service.withPool { service.pool with reusedQueue := rest }
    have hswap : service.ledger.Swap
        (mid.withPool (mid.pool.follow client (.received slot .reused policy))).ledger slot slot :=
      ledger_swap rfl rfl hown rfl rfl ((Pool.stock_setQueue hreused).append_right _)
    exact hswap.same
  | decline => exact ledger_same rfl rfl (.refl _)
  | join => exact .refl _

/-- A caller hands back a slot that it has, or one that it makes from the number of one that it has or has lost.
    What the callers had is replaced by what the new request has in hand. -/
theorem putBack_swap {entry : Client × Slot} {given : Slot} {held lost : List (Client × Slot)}
    (hown : client ∉ service.strays)
    (hcallers : (service.held ++ service.lost).Perm (entry :: (held ++ lost))) :
    service.ledger.Swap
      { service.withPool (service.pool.putBack client given) with held, lost }.ledger entry.2
      given := by
  let mid := { service with held, lost }
  have hslots : (service.pool.stock ++ service.callerSlots).Perm
      (entry.2 :: (mid.pool.stock ++ mid.callerSlots)) :=
    ((hcallers.map _).append_left _).trans List.perm_middle
  have hswap : service.ledger.Swap (mid.withPool (mid.pool.follow client (.resetting given))).ledger
      entry.2 given := ledger_swap rfl rfl hown rfl rfl hslots
  exact hswap

/-- A request to close the pool neither takes nor brings a slot. -/
theorem askingToClose_same {pool : Pool} (hasking : Pool.AskingToClose client service.pool pool)
    (hown : client ∉ service.strays) : (service.withPool pool).ledger.Same service.ledger := by
  cases hasking with
  | first =>
    have hfollow : (service.withPool ({ service.pool with closeAsked := true }.follow client
        .closing)).ledger.Same (service.ledger.add [] []) := ledger_follow hown
    exact hfollow.trans ⟨rfl, by simp [Ledger.add], by simp [Ledger.add]⟩
  | again => exact ledger_same rfl rfl (.refl _)

/-- A slot that is lost stays in the ledger. -/
theorem lose_same {entry : Client × Slot} (hheld : entry ∈ service.held) :
    { service with held := service.held.erase entry, lost := entry :: service.lost }.ledger.Same
      service.ledger := by
  refine ledger_same rfl rfl (.append_left _ (.map _ ?_))
  exact List.perm_middle.trans ((List.perm_cons_erase hheld).symm.append_right _)

/-- Slots that are handed over to callers stay in the ledger. -/
theorem deliver_same : service.deliver.2.ledger.Same service.ledger := by
  refine ledger_same rfl rfl (List.perm_iff_count.mpr fun slot => ?_)
  simp only [Pool.stock, callerSlots, deliver, List.map_append, List.count_append,
    Pool.slotsAmong, List.filterMap_nil, List.map_nil, List.count_nil]
  omega

end

/-- A name that no request has had. -/
structure Unused (client : Client) (service : Service σ) : Prop where
  running : ∀ task ∈ service.pool.tasks, task.1 ≠ client
  waiting : ∀ waiter ∈ service.pool.waiting, waiter.client ≠ client
  strays : client ∉ service.strays

theorem Conserved.unused {client : Client} (h : service.Conserved size) (hnew : client ∉ service.named) :
    service.Unused client where
  running task hmem heq := hnew (heq ▸ h.running task hmem)
  waiting waiter hmem heq := hnew (heq ▸ (h.waiting waiter hmem).1)
  strays hmem := hnew (h.strays client hmem)

/-- Noting the name of a request changes nothing of what the pool and its callers have. -/
theorem Conserved.note (h : service.Conserved size) : (service.note event).Conserved size where
  filed := h.filed.note
  balanced := h.balanced
  plan := h.plan
  astray := h.astray
  running task hmem := List.mem_append_right _ (h.running task hmem)
  waiting waiter hmem := ⟨List.mem_append_right _ (h.waiting waiter hmem).1, (h.waiting waiter hmem).2⟩
  strays client hmem := List.mem_append_right _ (h.strays client hmem)

theorem Conserved.deliver (h : service.Conserved size) : service.deliver.2.Conserved size :=
  ⟨h.filed.deliver, h.balanced.same deliver_same, h.plan, h.astray, h.running, h.waiting, h.strays⟩

/-- A new task keeps everything accounted for if the ledger stays balanced. Its name is new, so it is not
    mistaken for one of the earlier requests. -/
theorem Conserved.follow {client : Client} {stage : Stage} {pool : Pool}
    {asked : List (Client × Internet)} {held lost : List (Client × Slot)} (h : service.Conserved size)
    (hunused : service.Unused client) (hnamed : client ∈ service.named)
    (htasks : pool.tasks = service.pool.tasks)
    (hwaiting : pool.waiting = service.pool.waiting)
    (hallocator : pool.allocator = service.pool.allocator)
    (hfiled : { service.withPool (pool.follow client stage) with asked, held, lost }.Filed)
    (hbalanced :
      { service.withPool (pool.follow client stage) with asked, held, lost }.ledger.Balanced) :
    { service.withPool (pool.follow client stage) with asked, held, lost }.Conserved size := by
  refine ⟨hfiled, hbalanced, hallocator ▸ h.plan, fun other next hmem hstray => ?_,
    fun task hmem => ?_, fun waiter hmem => h.waiting waiter (hwaiting ▸ hmem), h.strays⟩
  · rcases List.mem_cons.mp hmem with hnew | hold
    · obtain ⟨rfl, rfl⟩ : other = client ∧ next = stage := by simpa using hnew
      exact (hunused.strays hstray).elim
    · have hfree := h.astray other next (htasks ▸ hold) hstray
      exact hallocator ▸ hfree
  · rcases List.mem_cons.mp hmem with rfl | hold
    · exact hnamed
    · exact h.running task (htasks ▸ hold)

/-- A caller who hands back a free identity starts a request outside of the ledger. -/
theorem stray_ledger {client : Client} {slot : Slot} (hunused : service.Unused client) :
    { service.withPool (service.pool.putBack client slot) with
      strays := client :: service.strays }.ledger = service.ledger := by
  have hsame : (service.pool.putBack client slot).tasks.filter (·.1 ∉ client :: service.strays) =
      service.ownTasks := by
    rw [Pool.putBack, Pool.tasks_follow, List.filter_cons_of_neg (by simp)]
    refine List.filter_congr fun task hmem => ?_
    simp [hunused.running task hmem]
  simp only [ledger, ownTasks, withPool, hsame]
  rfl

/-- A free identity may be handed back. It is on no account, so the request is noted as a stray and is kept out
    of the ledger from then on. -/
theorem Conserved.stray {client : Client} {id : SlotId} (h : service.Conserved size)
    (hunused : service.Unused client) (hnamed : client ∈ service.named)
    (hfree : id.val ∈ service.pool.allocator.free)
    (hfiled : { service.withPool (service.pool.putBack client (.fresh id)) with
      strays := client :: service.strays }.Filed) :
    { service.withPool (service.pool.putBack client (.fresh id)) with
      strays := client :: service.strays }.Conserved size where
  filed := hfiled
  balanced := stray_ledger hunused ▸ h.balanced
  plan := h.plan
  astray other next hmem hstray := by
    rcases List.mem_cons.mp hmem with hnew | hold
    · obtain ⟨rfl, rfl⟩ : other = client ∧ next = .resetting (.fresh id) := by simpa using hnew
      exact ⟨rfl, hfree⟩
    · have hother : other ≠ client := hunused.running _ hold
      exact h.astray other next hold (List.mem_of_ne_of_mem hother hstray)
  running task hmem := by
    rcases List.mem_cons.mp hmem with rfl | hold
    · exact hnamed
    · exact h.running task hold
  waiting waiter hmem := by
    obtain ⟨hwaits, hown⟩ := h.waiting waiter hmem
    exact ⟨hwaits, fun hstray => hown (List.mem_of_ne_of_mem (hunused.waiting waiter hmem) hstray)⟩
  strays other hmem := by
    rcases List.mem_cons.mp hmem with rfl | hold
    · exact hnamed
    · exact h.strays other hold

/-- Whatever happens, everything stays accounted for. What an event does to the ledger is known beforehand, and
    what is on record after it is in order, so that it remains to look at the new task, if there is one. The
    condition says that the filling task takes no identity that is being handed back as a free one. -/
theorem Conserved.apply (h : service.Conserved size)
    (hunused : ∀ client ∈ event.request?, service.Unused client)
    (hnamed : ∀ client ∈ event.request?, client ∈ service.named)
    (hspared : ∀ slot, applied.pool.populate = .holding slot → slot.id ∉ service.strayIds)
    (hfiled : applied.Filed) (happlied : Applied machine service event applied) :
    applied.Conserved size := by
  cases happlied with
  | move hstepping => exact h.stepping hstepping hspared
  | @get client policy cancelled pool hasking =>
    have hunused := hunused client rfl
    have hbalanced := h.balanced.same (asking_same hasking hunused.strays)
    cases hasking with
    | take => exact h.follow hunused (hnamed client rfl) rfl rfl rfl hfiled hbalanced
    | decline => exact ⟨hfiled, hbalanced, h.plan, h.astray, h.running, h.waiting, h.strays⟩
    | join =>
      refine ⟨hfiled, hbalanced, h.plan, h.astray, h.running, fun waiter hmem => ?_, h.strays⟩
      rcases List.mem_append.mp hmem with hold | hnew
      · exact h.waiting waiter hold
      · obtain rfl := List.mem_singleton.mp hnew
        exact ⟨hnamed client rfl, hunused.strays⟩
  | cancel =>
    refine ⟨hfiled, h.balanced, h.plan, h.astray, h.running, fun waiter hmem => ?_, h.strays⟩
    obtain ⟨old, hold, rfl⟩ := List.mem_map.mp hmem
    have hwaits := h.waiting old hold
    split <;> exact hwaits
  | handBack hgives hcallers =>
    have hclient := hunused _ hgives.request?
    exact h.follow hclient (hnamed _ hgives.request?) rfl rfl rfl hfiled
      ((putBack_swap hclient.strays hcallers).balanced hgives.id h.balanced)
  | @stray client id hnobody hfree => exact h.stray (hunused client rfl) (hnamed client rfl) hfree hfiled
  | lose hheld =>
    exact ⟨hfiled, h.balanced.same (lose_same hheld), h.plan, h.astray, h.running, h.waiting, h.strays⟩
  | @close client pool hasking =>
    have hunused := hunused client rfl
    have hbalanced := h.balanced.same (askingToClose_same hasking hunused.strays)
    cases hasking with
    | first => exact h.follow hunused (hnamed client rfl) rfl rfl rfl hfiled hbalanced
    | again => exact ⟨hfiled, hbalanced, h.plan, h.astray, h.running, h.waiting, h.strays⟩
  | cancelLifetime => exact ⟨hfiled, h.balanced, h.plan, h.astray, h.running, h.waiting, h.strays⟩

/-- A turn keeps everything accounted for: the name of its request is noted first, and its outcomes are handed over
    last. -/
theorem Conserved.step {outcomes : List (Client × Outcome)} (h : service.Conserved size)
    (hspares : service.SparesStrays machine event)
    (hstep : service.step machine event = some (outcomes, after)) : after.Conserved size := by
  obtain ⟨hfresh, applied, happlied, -, rfl⟩ := step_cases hstep
  have hunused (client : Client) (hclient : client ∈ event.request?) :
      (service.note event).Unused client := by
    have hunused := h.unused (hfresh client hclient)
    exact ⟨hunused.running, hunused.waiting, hunused.strays⟩
  have hnamed (client : Client) (hclient : client ∈ event.request?) :
      client ∈ (service.note event).named :=
    List.mem_append_left _ (by simpa using hclient)
  have hfiled : applied.Filed := h.filed.note.apply (fun client policy hasked hrequest =>
    hfresh client hrequest (h.filed.named client policy hasked)) hnamed happlied
  have hspared (slot : Slot) (hholding : applied.pool.populate = .holding slot) :
      slot.id ∉ (service.note event).strayIds := hspares _ _ slot hstep hholding
  exact (h.note.apply hunused hnamed hspared hfiled happlied).deliver

/-- Whatever has happened, everything is accounted for. -/
theorem Reaches.conserved {start : Service σ} (hstart : start.Conserved size)
    (hreaches : Reaches machine (SparesStrays machine) start service) : service.Conserved size := by
  induction hreaches with
  | start => exact hstart
  | step hreaches hspares hstep ih => exact ih.step hspares hstep

end SlotPool.Service

import SlotPool.Proofs.Allocator.Complete
import SlotPool.Proofs.Pool.Filed
/-!
The slots and identities of a pool as a ledger: which slots there are, which identities are left over
from slots that are gone, and what the allocator says of them. A step moves slots from place to place,
or it does one of a few things to the ledger, and `Effect` lists these.
-/

namespace SlotPool

variable {σ : Type}

/-- The jobs that a pool gives to its worker. -/
inductive Job
  | prepare (policy : Internet)
  | release
  | remove
  deriving DecidableEq

/-- How a job is done. -/
inductive Job.Done (egress : String) : Job → {α : Type} → SlotProgram α → Prop
  | prepare (policy : Internet) : Done egress (.prepare policy) (Slot.prepare egress policy).run
  | release : Done egress .release (Slot.release egress).run
  | remove : Done egress .remove (Slot.remove egress).run

/-- On which slots and in which states jobs may be begun. -/
abbrev Permit (σ : Type) := Job → Slot → σ → Prop

/-- Every job may be begun at any time. -/
def Permit.any : Permit σ := fun _ _ _ => True

/-- The job that is begun at a stage, and the slot it is done on. -/
def Stage.job? : Stage → Option (Job × Slot)
  | .preparing slot policy => some (.prepare policy, slot)
  | .resetting slot => some (.release, slot)
  | .removing slot _ => some (.remove, slot)
  | _ => none

/-- What a job of the worker makes of a slot: the slot as it is afterwards, or nothing. `vacant` is what it
    takes for a job to find no worker. -/
inductive Fate (machine : Machine σ) (egress : String) (permit : Permit σ) (vacant : Prop) (slot : Slot)
    (state : σ) : Option Slot → σ → Prop
  | prepared {policy after state'} (hpermit : permit (.prepare policy) slot state)
      (hrun : ((Slot.prepare egress policy).run.run slot).run machine state =
        (some (.ok (), after), state')) : Fate machine egress permit vacant slot state (some after) state'
  | unprepared {policy failure after state'} (hpermit : permit (.prepare policy) slot state)
      (hrun : ((Slot.prepare egress policy).run.run slot).run machine state =
        (some (.error failure, after), state')) : Fate machine egress permit vacant slot state none state'
  | released {after state'} (hpermit : permit .release slot state)
      (hrun : ((Slot.release egress).run.run slot).run machine state =
        (some (.ok (), after), state')) : Fate machine egress permit vacant slot state (some after) state'
  | unreleased {failure after state'} (hpermit : permit .release slot state)
      (hrun : ((Slot.release egress).run.run slot).run machine state =
        (some (.error failure, after), state')) : Fate machine egress permit vacant slot state none state'
  | removed {result after state'} (hpermit : permit .remove slot state)
      (hrun : ((Slot.remove egress).run.run slot).run machine state =
        (some (result, after), state')) : Fate machine egress permit vacant slot state none state'
  /-- the worker dies of the job -/
  | killed {α : Type} {job : Job} {program : SlotProgram α} {state'}
      (hpermit : permit job slot state) (hdone : job.Done egress program)
      (hrun : (program.run slot).run machine state = (none, state')) :
      Fate machine egress permit vacant slot state none state'
  /-- there is no worker any more -/
  | dropped (hvacant : vacant) : Fate machine egress permit vacant slot state none state

theorem Fate.id_eq {machine : Machine σ} {egress : String} {permit : Permit σ} {vacant : Prop}
    {slot after : Slot} {state state' : σ} (h : Fate machine egress permit vacant slot state (some after) state') :
    after.id = slot.id := by
  cases h with
  | prepared hpermit hrun => exact (Slot.prepare_run_ok hrun).1
  | released hpermit hrun => exact (Slot.release_run_ok hrun).2.1

/-- A job that comes to nothing loses its slot, and with it the worker: it had died before, and nothing was done
    to the machine, or it dies by the job. -/
theorem Pool.Unanswered.fate {α : Type} {machine : Machine σ} {permit : Permit σ} {vacant : Prop}
    {job : Job} {program : SlotProgram α} {slot : Slot} {pool pool' : Pool} {state state' : σ}
    (hpermit : pool.workerAlive = true → permit job slot state)
    (hvacant : pool.workerAlive = false → vacant)
    (hdone : job.Done pool.egress program)
    (h : Unanswered machine program slot pool state pool' state') :
    Fate machine pool.egress permit vacant slot state none state' := by
  cases h with
  | gone hdead => exact .dropped (hvacant hdead)
  | dies halive hrun => exact .killed (hpermit halive) hdone hrun

/-- The slots there are, and the identities without a slot that are still to be released. -/
structure Ledger where
  allocator : Allocator
  slots : List Slot
  bare : List SlotId

namespace Ledger

/-- Every identity in the ledger. -/
def ids (ledger : Ledger) : List SlotId := ledger.slots.map Slot.id ++ ledger.bare

/-- Adds slots and bare identities that are elsewhere. -/
def add (ledger : Ledger) (slots : List Slot) (bare : List SlotId) : Ledger :=
  { ledger with slots := ledger.slots ++ slots, bare := ledger.bare ++ bare }

/-- Two ledgers with the same entries, perhaps in another order. -/
structure Same (ledger ledger' : Ledger) : Prop where
  allocator : ledger.allocator = ledger'.allocator
  slots : ledger.slots.Perm ledger'.slots
  bare : ledger.bare.Perm ledger'.bare

theorem Same.refl (ledger : Ledger) : ledger.Same ledger := ⟨rfl, .refl _, .refl _⟩

theorem Same.trans {first second third : Ledger} (h : first.Same second) (h' : second.Same third) :
    first.Same third :=
  ⟨h.allocator.trans h'.allocator, h.slots.trans h'.slots, h.bare.trans h'.bare⟩

end Ledger

/-- What a step does to a ledger. -/
inductive Effect (machine : Machine σ) (egress : String) (permit : Permit σ) (vacant : Prop)
    (before : Ledger) (state : σ) : Ledger → σ → Prop
  /-- slots change their places only -/
  | keep {after}
      (hallocator : after.allocator = before.allocator ∨ after.allocator = before.allocator.close)
      (hslots : after.slots.Perm before.slots) (hbare : after.bare.Perm before.bare) :
      Effect machine egress permit vacant before state after state
  /-- a free identity is taken -/
  | acquire {choice id after}
      (hacquire : before.allocator.acquire? choice = some (id.val, after.allocator))
      (hslots : after.slots.Perm (.fresh id :: before.slots)) (hbare : after.bare.Perm before.bare) :
      Effect machine egress permit vacant before state after state
  /-- the worker has changed a slot -/
  | change {slot slot' rest after state'} (hfate : Fate machine egress permit vacant slot state (some slot') state')
      (hallocator : after.allocator = before.allocator)
      (hbefore : before.slots.Perm (slot :: rest)) (hslots : after.slots.Perm (slot' :: rest))
      (hbare : after.bare.Perm before.bare) : Effect machine egress permit vacant before state after state'
  /-- nothing is left of a slot but its identity -/
  | lose {slot rest after state'} (hfate : Fate machine egress permit vacant slot state none state')
      (hallocator : after.allocator = before.allocator)
      (hbefore : before.slots.Perm (slot :: rest)) (hslots : after.slots.Perm rest)
      (hbare : after.bare.Perm (slot.id :: before.bare)) :
      Effect machine egress permit vacant before state after state'
  /-- an identity without a slot is released -/
  | release {id after}
      (hallocator : after.allocator =
        (before.allocator.release id.val).toOption.getD before.allocator)
      (hslots : after.slots.Perm before.slots) (hbare : before.bare.Perm (id :: after.bare)) :
      Effect machine egress permit vacant before state after state
  /-- a fresh slot is dropped and its identity released -/
  | discard {id after}
      (hallocator : after.allocator =
        (before.allocator.release id.val).toOption.getD before.allocator)
      (hslots : before.slots.Perm (.fresh id :: after.slots)) (hbare : after.bare.Perm before.bare) :
      Effect machine egress permit vacant before state after state

namespace Effect

variable {machine : Machine σ} {egress : String} {permit : Permit σ} {vacant : Prop}
  {before after : Ledger} {state state' : σ}

theorem refl : Effect machine egress permit vacant before state before state :=
  .keep (.inl rfl) (.refl _) (.refl _)

theorem of_same (h : after.Same before) : Effect machine egress permit vacant before state after state :=
  .keep (.inl h.allocator) h.slots h.bare

/-- What is elsewhere is not touched. So an effect may be looked at on the entry that it changes alone. -/
theorem add (h : Effect machine egress permit vacant before state after state') (slots : List Slot)
    (bare : List SlotId) :
    Effect machine egress permit vacant (before.add slots bare) state (after.add slots bare) state' := by
  cases h with
  | keep hallocator hslots hbare =>
    exact .keep hallocator (hslots.append_right _) (hbare.append_right _)
  | acquire hacquire hslots hbare =>
    exact .acquire hacquire (hslots.append_right _) (hbare.append_right _)
  | @change slot slot' rest after state' hfate hallocator hbefore hslots hbare =>
    exact .change hfate hallocator (hbefore.append_right slots) (hslots.append_right slots)
      (hbare.append_right _)
  | lose hfate hallocator hbefore hslots hbare =>
    exact .lose hfate hallocator (hbefore.append_right slots) (hslots.append_right _)
      (hbare.append_right _)
  | release hallocator hslots hbare =>
    exact .release hallocator (hslots.append_right _) (hbare.append_right bare)
  | discard hallocator hslots hbare =>
    exact .discard hallocator (hslots.append_right slots) (hbare.append_right _)

/-- The order of the entries does not matter, before or after an effect. -/
theorem perm {before' after' : Ledger} (h : Effect machine egress permit vacant before state after state')
    (hbefore : before'.Same before) (hafter : after'.Same after) :
    Effect machine egress permit vacant before' state after' state' := by
  obtain ⟨hallocator, hslots, hbare⟩ := hbefore
  obtain ⟨hallocator', hslots', hbare'⟩ := hafter
  cases h with
  | keep halloc hs hb =>
    refine .keep ?_ (hslots'.trans (hs.trans hslots.symm)) (hbare'.trans (hb.trans hbare.symm))
    rwa [hallocator, hallocator']
  | @acquire choice id after hacquire hs hb =>
    have hacquire' : before'.allocator.acquire? choice = some (id.val, after'.allocator) := by
      rw [hallocator, hallocator', hacquire]
    exact .acquire hacquire' (hslots'.trans (hs.trans (hslots.symm.cons _)))
      (hbare'.trans (hb.trans hbare.symm))
  | change hfate halloc hb hs hbb =>
    exact .change hfate (by rw [hallocator, hallocator', halloc]) (hslots.trans hb)
      (hslots'.trans hs) (hbare'.trans (hbb.trans hbare.symm))
  | lose hfate halloc hb hs hbb =>
    exact .lose hfate (by rw [hallocator, hallocator', halloc]) (hslots.trans hb) (hslots'.trans hs)
      (hbare'.trans (hbb.trans (hbare.symm.cons _)))
  | release halloc hs hb =>
    exact .release (by rw [hallocator, hallocator', halloc]) (hslots'.trans (hs.trans hslots.symm))
      (hbare.trans (hb.trans (hbare'.symm.cons _)))
  | discard halloc hs hb =>
    exact .discard (by rw [hallocator, hallocator', halloc])
      (hslots.trans (hs.trans (hslots'.symm.cons _))) (hbare'.trans (hb.trans hbare.symm))

end Effect

namespace Pool

variable {pool : Pool} {client : Client}

/-- The slots in stock apart from the one in the hand of the filling task. -/
def shelved (pool : Pool) : List Slot :=
  pool.newQueue ++ pool.reusedQueue ++ (slotsAmong pool.finished).map (·.2)

theorem stock_perm : pool.stock.Perm (pool.populate.slots ++ pool.shelved) := by
  unfold stock shelved
  rw [← List.append_assoc]
  exact List.perm_append_comm.append_right _

theorem stock_finish_slot (slot : Slot) :
    (pool.finish client (.slot slot)).stock.Perm (slot :: pool.stock) :=
  List.perm_middle

theorem stock_finish_ofExcept (result : Except PoolError Unit) :
    (pool.finish client (.ofExcept result)).stock = pool.stock := by
  cases result <;> rfl

theorem stock_enqueue {slot : Slot} :
    ({ pool with reusedQueue := pool.reusedQueue ++ [slot] }.finish client .done).stock.Perm
      ([slot] ++ pool.stock) := by
  simp only [stock, finish, slotsAmong, List.filterMap_cons, List.append_assoc, List.singleton_append]
  exact (List.Perm.append_left _ List.perm_middle).trans List.perm_middle

/-- The first slot of a queue and what is in stock without it are what is in stock. -/
theorem stock_setQueue {source : Source} {slot : Slot} {rest : List Slot}
    (hqueue : pool.queue source = slot :: rest) :
    pool.stock.Perm (slot :: (pool.setQueue rest source).stock) := by
  cases source with
  | new =>
    have hnew : pool.newQueue = slot :: rest := hqueue
    simp [stock, setQueue, hnew]
  | reused =>
    have hreused : pool.reusedQueue = slot :: rest := hqueue
    simp only [stock, setQueue, hreused, List.append_assoc]
    exact List.perm_middle

/-- The part of a ledger that is not with other tasks. -/
def ledgerWith (tasks : List (Client × Stage)) (pool : Pool) : Ledger :=
  ⟨pool.allocator, slotsWith tasks ++ pool.stock, bareWith tasks⟩

variable {machine : Machine σ} {permit : Permit σ} {vacant : Prop} {pool' : Pool} {state state' : σ}
  {stage : Stage}

/-- The entries of some tasks can be counted with what is elsewhere. -/
theorem ledgerWith_append (tasks rest : List (Client × Stage)) (slots : List Slot)
    (bare : List SlotId) :
    ((pool.ledgerWith (tasks ++ rest)).add slots bare).Same
      ((pool.ledgerWith tasks).add (slotsWith rest ++ slots) (bareWith rest ++ bare)) := by
  refine ⟨rfl, ?_, by simp [ledgerWith, Ledger.add]⟩
  simp only [ledgerWith, Ledger.add, slotsWith_append, List.append_assoc]
  refine .append_left _ ?_
  rw [← List.append_assoc, ← List.append_assoc]
  exact List.perm_append_comm.append_right _

theorem ledgerWith_perm {tasks tasks' : List (Client × Stage)} (h : tasks.Perm tasks')
    (slots : List Slot) (bare : List SlotId) :
    ((pool.ledgerWith tasks).add slots bare).Same ((pool.ledgerWith tasks').add slots bare) :=
  ⟨rfl, ((h.flatMap_right _).append_right _).append_right _, (h.flatMap_right _).append_right _⟩

theorem ledgerWith_lower {source : Source} {tasks : List (Client × Stage)} :
    (pool.lower source).ledgerWith tasks = pool.ledgerWith tasks := by
  cases pool
  rfl

theorem ledgerWith_raise {source : Source} {tasks : List (Client × Stage)} :
    (pool.raise source).ledgerWith tasks = pool.ledgerWith tasks := by
  cases pool
  rfl

/-- An identity is released, and the request that owed this is over. -/
theorem release_effect {id : SlotId} {tasks : List (Client × Stage)} {ended : Pool}
    (hslots : slotsWith tasks = []) (hbare : bareWith tasks = [id])
    (hallocator : ended.allocator = (pool.release id).2.allocator)
    (hstock : ended.stock = pool.stock) :
    Effect machine pool.egress permit vacant (pool.ledgerWith tasks) state (ended.ledgerWith []) state := by
  rw [release_snd] at hallocator
  refine .release hallocator ?_ ?_
  · simp [ledgerWith, hslots, hstock]
  · simp [ledgerWith, hbare]

theorem stock_release (id : SlotId) : (pool.release id).2.stock = pool.stock := by
  rw [release_snd]
  rfl

theorem tasks_release (id : SlotId) : (pool.release id).2.tasks = pool.tasks := by
  rw [release_snd]

/-- A task goes on to another stage. -/
theorem moved_follow {before : Ledger} {next : Stage} (htasks : pool'.tasks = pool.tasks)
    (heffect : Effect machine pool.egress permit vacant before state (pool'.ledgerWith [(client, next)]) state') :
    ∃ moved, (pool'.follow client next).tasks = moved ++ pool.tasks ∧
      (∀ task ∈ moved, task.1 = client) ∧
      Effect machine pool.egress permit vacant before state ((pool'.follow client next).ledgerWith moved) state' :=
  ⟨[(client, next)], by simp [follow, htasks], by simp, heffect⟩

/-- A task is over. -/
theorem moved_finish {before : Ledger} {outcome : Outcome} (htasks : pool'.tasks = pool.tasks)
    (heffect : Effect machine pool.egress permit vacant before state
      ((pool'.finish client outcome).ledgerWith []) state') :
    ∃ moved, (pool'.finish client outcome).tasks = moved ++ pool.tasks ∧
      (∀ task ∈ moved, task.1 = client) ∧
      Effect machine pool.egress permit vacant before state ((pool'.finish client outcome).ledgerWith moved)
        state' :=
  ⟨[], by simp [finish, htasks], by simp, heffect⟩

/-- A slot is removed and its identity released, and the request goes on to the next slot of the queue or is
    over, as its purpose says. -/
theorem moved_afterRemoval {before : Ledger} {failures : List PoolError} {purpose : Purpose}
    (htasks : pool'.tasks = pool.tasks)
    (heffect : Effect machine pool.egress permit vacant before state (pool'.ledgerWith []) state') :
    ∃ moved, (pool'.afterRemoval client failures purpose).tasks = moved ++ pool.tasks ∧
      (∀ task ∈ moved, task.1 = client) ∧
      Effect machine pool.egress permit vacant before state
        ((pool'.afterRemoval client failures purpose).ledgerWith moved) state' := by
  cases purpose with
  | putBack =>
    refine moved_finish htasks ?_
    have hsame (result : Except PoolError Unit) :
        (pool'.finish client (.ofExcept result)).ledgerWith [] = pool'.ledgerWith [] := by
      simp only [ledgerWith, stock_finish_ofExcept]
      rfl
    rw [hsame]
    exact heffect
  | drain source earlier =>
    simp only [afterRemoval]
    split
    · exact moved_follow htasks heffect
    · exact moved_follow htasks heffect

theorem Unanswered.unchanged {α : Type} {program : SlotProgram α} {slot : Slot}
    (h : Unanswered machine program slot pool state pool' state') :
    pool'.tasks = pool.tasks ∧ pool'.stock = pool.stock ∧ pool'.allocator = pool.allocator := by
  cases h <;> exact ⟨rfl, rfl, rfl⟩

/-- The worker does not answer, and the slot is gone with it. Only its identity is left in hand, and if the
    worker has died of the job, the machine is as the job left it. -/
theorem Unanswered.effect {α : Type} {job : Job} {program : SlotProgram α} {slot : Slot}
    {next : Stage} (hpermit : pool.workerAlive = true → permit job slot state)
    (hvacant : pool.workerAlive = false → vacant)
    (hdone : job.Done pool.egress program)
    (h : Unanswered machine program slot pool state pool' state')
    (hslots : stage.slots = [slot]) (hbare : stage.bare = []) (hnext : next.slots = [])
    (hnextBare : next.bare = [slot.id]) :
    Effect machine pool.egress permit vacant (pool.ledgerWith [(client, stage)]) state
      (pool'.ledgerWith [(client, next)]) state' := by
  obtain ⟨-, hstock, hallocator⟩ := h.unchanged
  have hbefore : (pool.ledgerWith [(client, stage)]).slots.Perm (slot :: pool.stock) := by
    simp [ledgerWith, hslots]
  have hafter : (pool'.ledgerWith [(client, next)]).slots.Perm pool.stock := by
    simp [ledgerWith, hnext, hstock]
  refine .lose (h.fate hpermit hvacant hdone) hallocator hbefore hafter ?_
  simp [ledgerWith, hbare, hnextBare]

/-- A step of a task leaves other tasks alone, and what it does to the task's own slot or identity is
    one of the effects. -/
theorem Advance.effect (hadvance : Advance machine client pool state stage pool' state')
    (hpermit : pool.workerAlive = true →
      ∀ job slot, stage.job? = some (job, slot) → permit job slot state)
    (hvacant : pool.workerAlive = false → vacant) :
    ∃ moved, pool'.tasks = moved ++ pool.tasks ∧ (∀ task ∈ moved, task.1 = client) ∧
      Effect machine pool.egress permit vacant (pool.ledgerWith [(client, stage)]) state (pool'.ledgerWith moved)
        state' := by
  cases hadvance with
  | receive => exact moved_follow rfl .refl
  | prepare hrun halive =>
    have hpermitted := hpermit halive _ _ rfl
    exact moved_finish rfl (.change (.prepared hpermitted hrun) rfl (.refl _) (stock_finish_slot _) (.refl _))
  | prepareFails hrun halive =>
    have hpermitted := hpermit halive _ _ rfl
    exact moved_follow rfl (.lose (.unprepared hpermitted hrun) rfl (.refl _) (.refl _) (.refl _))
  | prepareStops hstops =>
    exact moved_follow hstops.unchanged.1 (hstops.effect (hpermit · _ _ rfl) hvacant (.prepare _) rfl rfl rfl rfl)
  | discard =>
    exact moved_finish (tasks_release _) (release_effect rfl rfl rfl (stock_release _))
  | reset hrun halive =>
    have hpermitted := hpermit halive _ _ rfl
    exact moved_follow rfl (.change (.released hpermitted hrun) rfl (.refl _) (.refl _) (.refl _))
  | resetFails hrun halive =>
    have hpermitted := hpermit halive _ _ rfl
    exact moved_follow rfl (.lose (.unreleased hpermitted hrun) rfl (.refl _) (.refl _) (.refl _))
  | resetStops hstops =>
    exact moved_follow hstops.unchanged.1 (hstops.effect (hpermit · _ _ rfl) hvacant .release rfl rfl rfl rfl)
  | giveUp =>
    exact moved_finish (tasks_release _) (release_effect rfl rfl rfl (stock_release _))
  | announce =>
    refine moved_follow tasks_raise ?_
    rw [ledgerWith_raise]
    exact .refl
  | @enqueue slot hopen hroom =>
    refine moved_finish rfl (.keep (.inl rfl) ?_ (.refl _))
    simp only [ledgerWith, slotsWith_cons, slotsWith_nil, List.append_nil, List.nil_append,
      Stage.slots]
    exact stock_enqueue
  | refuse hfull => exact moved_follow rfl .refl
  | overflow =>
    refine moved_follow tasks_lower ?_
    rw [ledgerWith_lower]
    exact .refl
  | loseSlot =>
    exact moved_finish (tasks_release _) (release_effect rfl rfl rfl (stock_release _))
  | remove hrun halive =>
    have hpermitted := hpermit halive _ _ rfl
    exact moved_follow rfl (.lose (.removed hpermitted hrun) rfl (.refl _) (.refl _) (.refl _))
  | removeStops hstops =>
    exact moved_follow hstops.unchanged.1 (hstops.effect (hpermit · _ _ rfl) hvacant .remove rfl rfl rfl rfl)
  | settle => exact moved_afterRemoval (tasks_release _) (release_effect rfl rfl rfl (stock_release _))
  | close => exact moved_follow rfl .refl
  | await hstopped => exact moved_follow rfl .refl
  | shut => exact moved_follow rfl (.keep (.inr rfl) (.refl _) (.refl _))
  | @drain source failures slot rest hqueue =>
    refine moved_follow (by cases source <;> rfl) (.keep (.inl (by cases source <;> rfl)) ?_ (.refl _))
    exact (stock_setQueue hqueue).symm
  | turn hqueue => exact moved_follow rfl .refl
  | endClose hqueue =>
    refine moved_finish rfl (.keep (.inl rfl) ?_ (.refl _))
    simp [ledgerWith, stock_finish_ofExcept, Stage.slots]
  | takeOut => exact moved_follow rfl .refl

/-- A step of a task leaves the other tasks where they are. -/
theorem Advance.moved (hadvance : Advance machine client pool state stage pool' state') :
    ∃ moved, pool'.tasks = moved ++ pool.tasks ∧ ∀ task ∈ moved, task.1 = client := by
  have hany : pool.workerAlive = true → ∀ job slot, stage.job? = some (job, slot) →
      Permit.any job slot state := fun _ _ _ _ => trivial
  obtain ⟨moved, htasks, hmoved, -⟩ := hadvance.effect hany fun _ => trivial
  exact ⟨moved, htasks, hmoved⟩

/-- An allocator within the plan has no identity that is no slot's. -/
theorem not_outsidePlan {allocator allocator' : Allocator} {choice identity : Nat}
    (hplan : ∀ identity ∈ allocator.free, identity < planSize)
    (hacquire : allocator.acquire? choice = some (identity, allocator'))
    (hslot : Slot.ofNat? identity = none) : False := by
  obtain ⟨hfree, -, -⟩ := Allocator.acquire?_spec hacquire
  have hlt := hplan identity (hfree.mem_iff.mpr (List.mem_cons_self ..))
  rw [← Slot.ofNat?_isSome, hslot] at hlt
  cases hlt

theorem Stocking.tasks {choice : Nat} (hstocking : Stocking choice pool pool') :
    pool'.tasks = pool.tasks := by
  cases hstocking with
  | discard hpopulate hcancelled => rw [release_snd]
  | _ => rfl

/-- The filling task takes a free identity, passes it on to the new queue, or drops it when the lifetime is
    over. That the identity is in the plan makes a slot of it. -/
theorem Stocking.effect {choice : Nat} {asked : List (Client × Internet)}
    (hstocking : Stocking choice pool pool') (hfiled : pool.Filed asked)
    (hplan : ∀ identity ∈ pool.allocator.free, identity < planSize) :
    Effect machine pool.egress permit vacant (pool.ledgerWith []) state (pool'.ledgerWith []) state := by
  cases hstocking with
  | stop hpopulate hcancelled =>
    refine .keep (.inl rfl) ?_ (.refl _)
    simp [ledgerWith, stock, hpopulate, Populate.slots]
  | @acquire identity allocator slot hpopulate hacquire hslot =>
    obtain ⟨hfresh, rfl⟩ := Slot.eq_fresh_of_ofNat? hslot
    refine .acquire hacquire ?_ (.refl _)
    have hbefore : pool.stock.Perm pool.shelved := by
      simpa [hpopulate, Populate.slots] using pool.stock_perm
    rw [← hfresh]
    exact stock_perm.trans (hbefore.symm.cons slot)
  | outsidePlan hpopulate hacquire hslot => exact (not_outsidePlan hplan hacquire hslot).elim
  | @discard slot hpopulate hcancelled =>
    rw [release_snd]
    have hfresh := hfiled.hand slot (by simp [hpopulate, Populate.slots])
    have hbefore : pool.stock.Perm (.fresh slot.id :: pool.shelved) := by
      rw [← hfresh]
      simpa [hpopulate, Populate.slots] using pool.stock_perm
    refine .discard rfl (hbefore.trans ?_) (.refl _)
    simp [ledgerWith, stock, shelved, Populate.slots]
  | count hpopulate =>
    refine .keep (.inl rfl) ?_ (.refl _)
    simp [ledgerWith, stock, hpopulate, Populate.slots, raise]
  | @enqueue slot hpopulate =>
    refine .keep (.inl rfl) ?_ (.refl _)
    have hbefore : pool.stock.Perm (slot :: pool.shelved) := by
      simpa [hpopulate, Populate.slots] using pool.stock_perm
    refine .trans ?_ hbefore.symm
    simp only [ledgerWith, stock, shelved, Populate.slots, slotsWith_nil, List.nil_append,
      List.append_assoc]
    exact List.perm_middle

/-- A request in line begins no task but its own. -/
theorem Waiting.tasks (hwaiting : Waiting client pool pool') :
    ∀ task ∈ pool'.tasks, task ∈ pool.tasks ∨ task.1 = client := by
  cases hwaiting with
  | giveUp hwaiter hclient => exact fun task hmem => .inl hmem
  | sendAway hwaiter hclient => exact fun task hmem => .inl hmem
  | @serve waiter source slot rest hwaiter hclient hqueue =>
    intro task hmem
    rcases List.mem_cons.mp hmem with rfl | hold
    · exact .inr rfl
    · exact .inl (by cases source <;> exact hold)

/-- A request in line leaves it, with a slot or without. -/
theorem Waiting.effect (hwaiting : Waiting client pool pool') :
    ∃ moved, pool'.tasks = moved ++ pool.tasks ∧ (∀ task ∈ moved, task.1 = client) ∧
      Effect machine pool.egress permit vacant (pool.ledgerWith []) state (pool'.ledgerWith moved) state := by
  cases hwaiting with
  | giveUp hwaiter hclient => exact moved_finish rfl .refl
  | sendAway hwaiter hclient => exact moved_finish rfl .refl
  | @serve waiter source slot rest hwaiter hclient hqueue =>
    have hleft : { pool with waiting := pool.waiting.erase waiter }.queue source = slot :: rest := by
      cases source <;> exact hqueue
    refine moved_follow (by cases source <;> rfl) (.keep (.inl (by cases source <;> rfl)) ?_ (.refl _))
    exact (stock_setQueue hleft).symm

end Pool
end SlotPool

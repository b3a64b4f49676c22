import Mathlib.Data.List.Nodup
import SlotPool.Proofs.Pool.Ledger
/-!
A balanced ledger, in which the allocator holds just the identities that are in it. Every effect keeps
the balance. A request that hands back a free identity is outside of it: such a request is bound to
fail, and it leaves the ledger alone.
-/

namespace SlotPool

variable {σ : Type}

namespace Ledger

/-- The allocator holds exactly the identities in the ledger. -/
structure Balanced (ledger : Ledger) : Prop where
  complete : ledger.allocator.Complete
  held : ledger.allocator.held.Perm (ledger.ids.map Fin.val)

theorem Balanced.nodup {ledger : Ledger} (h : ledger.Balanced) : ledger.ids.Nodup :=
  ((List.Perm.nodup_iff h.held).mp (List.nodup_append.mp h.complete.nodup).1).of_map _

theorem ids_perm {ledger ledger' : Ledger} (hslots : ledger.slots.Perm ledger'.slots)
    (hbare : ledger.bare.Perm ledger'.bare) : ledger.ids.Perm ledger'.ids :=
  (hslots.map _).append hbare

/-- Balance does not depend on the order in which slots, bare identities and the identities of the allocator are
    listed. -/
theorem Balanced.same {ledger ledger' : Ledger} (h : ledger.Balanced) (hsame : ledger'.Same ledger) :
    ledger'.Balanced := by
  constructor
  · rw [hsame.allocator]
    exact h.complete
  · rw [hsame.allocator]
    exact h.held.trans ((ids_perm hsame.slots hsame.bare).symm.map _)

/-- One slot is taken out of a ledger and another put in. -/
structure Swap (before after : Ledger) (taken given : Slot) : Prop where
  allocator : after.allocator = before.allocator
  slots : ∃ rest, before.slots.Perm (taken :: rest) ∧ after.slots.Perm (given :: rest)
  bare : after.bare.Perm before.bare

theorem Swap.same {before after : Ledger} {slot : Slot} (h : Swap before after slot slot) :
    after.Same before := by
  obtain ⟨rest, hbefore, hafter⟩ := h.slots
  exact ⟨h.allocator, hafter.trans hbefore.symm, h.bare⟩

/-- Putting one slot in the place of another keeps the balance when both have the same identity. The allocator
    is not asked. -/
theorem Swap.balanced {before after : Ledger} {taken given : Slot} (h : Swap before after taken given)
    (hid : given.id = taken.id) (hbalanced : before.Balanced) : after.Balanced := by
  obtain ⟨rest, hbefore, hafter⟩ := h.slots
  have hids : after.ids.Perm before.ids := by
    refine .append ?_ h.bare
    exact ((hafter.map Slot.id).trans (by simp [hid])).trans (hbefore.symm.map Slot.id)
  constructor
  · rw [h.allocator]
    exact hbalanced.complete
  · rw [h.allocator]
    exact hbalanced.held.trans (hids.symm.map _)

/-- Releasing an identity in the ledger takes it out of the ledger. -/
theorem Balanced.release {before after : Ledger} {id : SlotId} (h : before.Balanced)
    (hallocator : after.allocator =
      (before.allocator.release id.val).toOption.getD before.allocator)
    (hids : before.ids.Perm (id :: after.ids)) : after.Balanced := by
  have hmap : before.allocator.held.Perm (id.val :: after.ids.map Fin.val) :=
    h.held.trans (hids.map Fin.val)
  have hheld : id.val ∈ before.allocator.held := hmap.mem_iff.mpr (List.mem_cons_self ..)
  constructor
  · rw [hallocator]
    exact h.complete.release hheld
  · rw [hallocator, Allocator.release_of_mem hheld]
    exact (List.perm_cons id.val).mp ((List.perm_cons_erase hheld).symm.trans hmap)

end Ledger

/-- Every effect that a step can have on a ledger keeps the balance, and the allocator keeps its size. An
    identity enters the ledger just when the allocator hands it out, and leaves it just when it is released. -/
theorem Effect.balanced {machine : Machine σ} {egress : String} {permit : Permit σ} {vacant : Prop}
    {before after : Ledger} {state state' : σ}
    (heffect : Effect machine egress permit vacant before state after state')
    (h : before.Balanced) :
    after.Balanced ∧ after.allocator.capacity = before.allocator.capacity := by
  cases heffect with
  | keep hallocator hslots hbare =>
    have hids := Ledger.ids_perm hslots hbare
    rcases hallocator with hsame | hclosed
    · rw [hsame]
      exact ⟨⟨hsame ▸ h.complete, hsame ▸ h.held.trans (hids.symm.map _)⟩, rfl⟩
    · rw [hclosed]
      exact ⟨⟨hclosed ▸ h.complete, hclosed ▸ h.held.trans (hids.symm.map _)⟩, rfl⟩
  | @acquire choice id after hacquire hslots hbare =>
    obtain ⟨hfree, hheld, hcapacity⟩ := Allocator.acquire?_spec hacquire
    refine ⟨⟨h.complete.acquire hacquire, ?_⟩, hcapacity⟩
    have hids : after.ids.Perm (id :: before.ids) := (hslots.map Slot.id).append hbare
    rw [hheld]
    exact (h.held.cons id.val).trans (hids.symm.map Fin.val)
  | @change slot slot' rest after state' hfate hallocator hbefore hslots hbare =>
    have hswap : before.Swap after slot slot' := ⟨hallocator, ⟨rest, hbefore, hslots⟩, hbare⟩
    exact ⟨hswap.balanced hfate.id_eq h, congrArg Allocator.capacity hallocator⟩
  | @lose slot rest after state' hfate hallocator hbefore hslots hbare =>
    have hids : after.ids.Perm before.ids := by
      refine ((hslots.map Slot.id).append hbare).trans (List.perm_middle.trans ?_)
      exact (hbefore.symm.map Slot.id).append_right before.bare
    rw [hallocator]
    exact ⟨⟨hallocator ▸ h.complete, hallocator ▸ h.held.trans (hids.symm.map _)⟩, rfl⟩
  | @release id after hallocator hslots hbare =>
    have hids : before.ids.Perm (id :: after.ids) :=
      ((hslots.symm.map Slot.id).append hbare).trans List.perm_middle
    have hheld : id.val ∈ before.allocator.held :=
      h.held.mem_iff.mpr (List.mem_map_of_mem (hids.mem_iff.mpr (List.mem_cons_self ..)))
    exact ⟨h.release hallocator hids, by rw [hallocator, Allocator.release_of_mem hheld]; rfl⟩
  | @discard id after hallocator hslots hbare =>
    have hids : before.ids.Perm (id :: after.ids) := (hslots.map Slot.id).append hbare.symm
    have hheld : id.val ∈ before.allocator.held :=
      h.held.mem_iff.mpr (List.mem_map_of_mem (hids.mem_iff.mpr (List.mem_cons_self ..)))
    exact ⟨h.release hallocator hids, by rw [hallocator, Allocator.release_of_mem hheld]; rfl⟩

/-- The stages of a request that hands back a free identity. -/
def Stage.Astray (free : List Nat) : Stage → Prop
  | .resetting slot => slot.firewall = none ∧ slot.id.val ∈ free
  | .unreset id _ | .lost id => id.val ∈ free
  | _ => False

/-- A request that handed back a free identity stays outside of the ledger as long as its identity stays free.
    What else is free does not matter to it. -/
theorem Stage.Astray.mono {free free' : List Nat} {stage : Stage} (h : stage.Astray free)
    (hsub : ∀ id ∈ stage.ids, id.val ∈ free → id.val ∈ free') : stage.Astray free' := by
  cases stage with
  | resetting slot => exact ⟨h.1, hsub slot.id (by simp [Stage.ids, Stage.slots, Stage.bare]) h.2⟩
  | unreset id failure => exact hsub id (by simp [Stage.ids, Stage.slots, Stage.bare]) h
  | lost id => exact hsub id (by simp [Stage.ids, Stage.slots, Stage.bare]) h
  | _ => exact h.elim

namespace Pool

variable {machine : Machine σ} {client : Client} {pool pool' : Pool} {state state' : σ}
  {stage : Stage}

theorem release_not_held {id : SlotId} (h : id.val ∉ pool.allocator.held) :
    (pool.release id).2 = pool := by
  rw [release_snd, Allocator.release_of_not_mem h]
  rfl

/-- A request that hands back a free identity only has the slot's remains removed: it is refused by
    the allocator, and the pool is as before. -/
theorem Advance.astray (hadvance : Advance machine client pool state stage pool' state')
    (hastray : stage.Astray pool.allocator.free) (hcomplete : pool.allocator.Complete) :
    pool'.allocator = pool.allocator ∧ pool'.stock = pool.stock ∧
      ∃ moved, pool'.tasks = moved ++ pool.tasks ∧
        ∀ task ∈ moved, task.1 = client ∧ task.2.Astray pool.allocator.free := by
  have hended {id : SlotId} {failure : PoolError} (hfree : id.val ∈ pool.allocator.free) :
      ((pool.release id).2.finish client (.failed failure)).allocator = pool.allocator ∧
        ((pool.release id).2.finish client (.failed failure)).stock = pool.stock ∧
        ∃ moved, ((pool.release id).2.finish client (.failed failure)).tasks = moved ++ pool.tasks ∧
          ∀ task ∈ moved, task.1 = client ∧ task.2.Astray pool.allocator.free := by
    rw [release_not_held (hcomplete.mem_free_iff.mp hfree).2]
    exact ⟨rfl, rfl, [], rfl, by simp⟩
  cases hadvance with
  | reset hrun =>
    have hfirewall := (Slot.release_run_ok hrun).1
    simp [Slot.hasFirewall, hastray.1] at hfirewall
  | @resetFails slot failure after state' hrun =>
    exact ⟨rfl, rfl, [(client, .unreset slot.id failure)], rfl,
      by simpa [Stage.Astray] using hastray.2⟩
  | @resetStops slot pool' state' hstops =>
    obtain ⟨htasks, hstock, hallocator⟩ := hstops.unchanged
    exact ⟨hallocator, hstock, [(client, .lost slot.id)], by simp [follow, htasks],
      by simpa [Stage.Astray] using hastray.2⟩
  | giveUp => exact hended hastray
  | loseSlot => exact hended hastray
  | _ => exact hastray.elim

theorem waiting_release (id : SlotId) : (pool.release id).2.waiting = pool.waiting := by
  rw [release_snd]

/-- A step of a task leaves the line alone: whoever has a task has left the line before, and nobody joins it by
    a task. -/
theorem Advance.waiting (hadvance : Advance machine client pool state stage pool' state') :
    pool'.waiting = pool.waiting := by
  cases hadvance with
  | receive => rw [waiting_follow, waiting_lower]
  | prepareStops hstops => cases hstops <;> rfl
  | discard => exact waiting_release _
  | resetStops hstops => cases hstops <;> rfl
  | giveUp => exact waiting_release _
  | announce => rw [waiting_follow, waiting_raise]
  | overflow => rw [waiting_follow, waiting_lower]
  | loseSlot => exact waiting_release _
  | removeStops hstops => cases hstops <;> rfl
  | @settle id failures purpose =>
    cases purpose with
    | putBack => exact waiting_release id
    | drain source earlier =>
      simp only [afterRemoval]
      split <;> exact waiting_release id
  | @drain source failures slot rest hqueue => cases source <;> rfl
  | takeOut => rw [waiting_follow, waiting_lower]
  | _ => rfl

/-- A task takes no identity from the allocator. It may release some, but what was free before stays free. -/
theorem Advance.free (hadvance : Advance machine client pool state stage pool' state') {identity : Nat}
    (hfree : identity ∈ pool.allocator.free) : identity ∈ pool'.allocator.free := by
  have hrelease {id : SlotId} : identity ∈ (pool.release id).2.allocator.free := by
    rw [release_snd]
    exact Allocator.mem_free_of_release hfree
  cases hadvance with
  | receive => rwa [allocator_follow, allocator_lower]
  | announce => rwa [allocator_follow, allocator_raise]
  | overflow => rwa [allocator_follow, allocator_lower]
  | takeOut => rwa [allocator_follow, allocator_lower]
  | prepareStops hstops => cases hstops <;> exact hfree
  | resetStops hstops => cases hstops <;> exact hfree
  | removeStops hstops => cases hstops <;> exact hfree
  | discard => exact hrelease
  | giveUp => exact hrelease
  | loseSlot => exact hrelease
  | @settle id failures purpose =>
    cases purpose with
    | putBack => exact hrelease
    | drain source earlier =>
      simp only [afterRemoval]
      split <;> exact hrelease
  | @drain source failures slot rest hqueue => cases source <;> exact hfree
  | _ => exact hfree

/-- The filling task takes only the identity that is then in its hand. All others that were free are free still.
    -/
theorem Stocking.free {choice : Nat} (hstocking : Stocking choice pool pool') {identity : Nat}
    (hplan : ∀ identity ∈ pool.allocator.free, identity < planSize)
    (hfree : identity ∈ pool.allocator.free) :
    identity ∈ pool'.allocator.free ∨
      ∃ slot, pool'.populate = .holding slot ∧ slot.id.val = identity := by
  cases hstocking with
  | stop hpopulate hcancelled => exact .inl hfree
  | @acquire taken allocator slot hpopulate hacquire hslot =>
    have htaken := (Allocator.acquire?_spec hacquire).1.mem_iff.mp hfree
    rcases List.mem_cons.mp htaken with rfl | hrest
    · exact .inr ⟨slot, rfl, (Slot.eq_fresh_of_ofNat? hslot).2⟩
    · exact .inl hrest
  | outsidePlan hpopulate hacquire hslot => exact (not_outsidePlan hplan hacquire hslot).elim
  | discard hpopulate hcancelled =>
    rw [release_snd]
    exact .inl (Allocator.mem_free_of_release hfree)
  | count hpopulate => exact .inl hfree
  | enqueue hpopulate => exact .inl hfree

theorem Stocking.waiting {choice : Nat} (hstocking : Stocking choice pool pool') :
    pool'.waiting = pool.waiting := by
  cases hstocking with
  | discard hpopulate hcancelled => rw [release_snd]
  | count hpopulate => rfl
  | _ => rfl

theorem Waiting.waits (hwaiting : Waiting client pool pool') :
    ∃ waiter ∈ pool.waiting, waiter.client = client := by
  cases hwaiting with
  | giveUp hwaiter hclient => exact ⟨_, hwaiter, hclient⟩
  | sendAway hwaiter hclient => exact ⟨_, hwaiter, hclient⟩
  | serve hwaiter hclient hqueue => exact ⟨_, hwaiter, hclient⟩

/-- A step of a request in line lets nobody else into the line. -/
theorem Waiting.waiting (hwaiting : Waiting client pool pool') :
    ∀ waiter ∈ pool'.waiting, waiter ∈ pool.waiting := by
  cases hwaiting with
  | giveUp hwaiter hclient => exact fun waiter hmem => List.mem_of_mem_erase hmem
  | sendAway hwaiter hclient => exact fun waiter hmem => List.mem_of_mem_erase hmem
  | @serve waiter source slot rest hwaiter hclient hqueue =>
    cases source <;> exact fun waiter hmem => List.mem_of_mem_erase hmem

theorem Waiting.allocator (hwaiting : Waiting client pool pool') :
    pool'.allocator = pool.allocator := by
  cases hwaiting with
  | giveUp hwaiter hclient => rfl
  | sendAway hwaiter hclient => rfl
  | @serve waiter source slot rest hwaiter hclient hqueue => cases source <;> rfl

/-- Whoever has a task after a step had one before or was in line. So a step gives no task to a request that had
    ended, and to none that was never made. -/
theorem Stepping.mover {move : Move} (hstepping : Stepping machine pool state move pool' state') :
    ∀ task ∈ pool'.tasks, (∃ old ∈ pool.tasks, old.1 = task.1) ∨
      ∃ waiter ∈ pool.waiting, waiter.client = task.1 := by
  intro task hmem
  cases hstepping with
  | @task client stage pool' state' hfind hadvance =>
    obtain ⟨moved, htasks, hmoved⟩ := hadvance.moved
    rcases List.mem_append.mp (htasks ▸ hmem) with hnew | hold
    · exact .inl ⟨_, List.mem_of_find?_eq_some hfind, (hmoved task hnew).symm⟩
    · exact .inl ⟨task, List.mem_of_mem_eraseP hold, rfl⟩
  | populate hstocking => exact .inl ⟨task, hstocking.tasks ▸ hmem, rfl⟩
  | waiter hwaiting =>
    rcases hwaiting.tasks task hmem with hold | hnew
    · exact .inl ⟨task, hold, rfl⟩
    · obtain ⟨waiter, hwaits, hclient⟩ := hwaiting.waits
      exact .inr ⟨waiter, hwaits, hclient.trans hnew.symm⟩

theorem Stepping.waiting {move : Move} (hstepping : Stepping machine pool state move pool' state') :
    ∀ waiter ∈ pool'.waiting, waiter ∈ pool.waiting := by
  cases hstepping with
  | task hfind hadvance => exact fun waiter hmem => hadvance.waiting ▸ hmem
  | populate hstocking => exact fun waiter hmem => hstocking.waiting ▸ hmem
  | waiter hwaiting => exact hwaiting.waiting

end Pool

end SlotPool

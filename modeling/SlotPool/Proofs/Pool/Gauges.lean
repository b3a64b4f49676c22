import Mathlib.Algebra.GroupWithZero.Nat
import SlotPool.Proofs.Pool.Stock
/-!
What the gauges show. A gauge is raised before a slot is put into its queue and lowered after the slot was
taken out, so it shows the slots in the queue and those that are between the two.
-/

namespace SlotPool

variable {σ : Type}

namespace Gauges

variable {gauges : Gauges} {count count' : Source → Nat}

/-- The value of one gauge. -/
def reading (gauges : Gauges) : Source → Int64
  | .new => gauges.new
  | .reused => gauges.reused

/-- The gauges show the given numbers, as 64-bit words. -/
def Shows (gauges : Gauges) (count : Source → Nat) : Prop :=
  ∀ source, gauges.reading source = Int64.ofNat (count source)

theorem Shows.congr (h : gauges.Shows count) (hcount : ∀ source, count' source = count source) :
    gauges.Shows count' := fun source => hcount source ▸ h source

theorem reading_add (source other : Source) (delta : Int64) :
    (gauges.add source delta).reading other = gauges.reading other + if other = source then delta else 0 := by
  cases source <;> cases other <;> simp [reading, add]

/-- Raising the gauge of a queue lets it show one more of that queue, and leaves the other gauge alone. -/
theorem Shows.raise {source : Source} (h : gauges.Shows count) :
    (gauges.raise source).Shows fun other => count other + if other = source then 1 else 0 := by
  intro other
  rw [Gauges.raise, reading_add, h other]
  by_cases hsame : other = source
  · simp [hsame, Int64.ofNat_add]
  · simp [hsame]

/-- Lowering a gauge that shows one more than there is lets it show what there is. No condition on the size is
    needed, since the gauge wraps around in both directions alike. -/
theorem Shows.lower {source : Source}
    (h : gauges.Shows fun other => count other + if other = source then 1 else 0) :
    (gauges.lower source).Shows count := by
  intro other
  rw [Gauges.lower, reading_add, h other]
  by_cases hsame : other = source
  · simp [hsame, Int64.ofNat_add, Int64.add_assoc]
  · simp [hsame]

end Gauges

/-- Whether the slot that a task has is still shown by the gauge of a queue, or shown already. -/
def Stage.shown (source : Source) : Stage → Nat
  | .received _ origin _ | .drained _ origin _ => if source = origin then 1 else 0
  | .offering _ | .refused _ => if source = .reused then 1 else 0
  | _ => 0

/-- Whether the slot in the hand of the filling task is shown already. -/
def Populate.shown (source : Source) (populate : Populate) : Nat :=
  if source = .new then populate.counting else 0

namespace Pool

/-- How many slots the gauge of a queue ought to show. -/
def shown (pool : Pool) (source : Source) : Nat :=
  (pool.queue source).length + pool.populate.shown source + (pool.tasks.map (·.2.shown source)).sum

/-- The gauges show what they ought to. -/
def Gauged (pool : Pool) : Prop := pool.gauges.Shows pool.shown

theorem opened_gauged (config : Config) (egress : String) (cancelled : Bool) :
    (opened config egress cancelled).Gauged := by
  intro source
  cases source <;> simp [opened, Gauges.reading, Gauges.zero, shown, queue, Populate.shown, Populate.counting]

section

variable {pool pool' : Pool} {client : Client} {stage : Stage} {source origin : Source}

theorem shown_follow : (pool.follow client stage).shown source = pool.shown source + stage.shown source := by
  cases source <;> simp only [shown, follow, queue, List.map_cons, List.sum_cons] <;> omega

-- The pool is taken apart below, so that nothing ever compares the gauges.

theorem shown_lower : (pool.lower origin).shown source = pool.shown source := by
  cases pool
  cases source <;> rfl

theorem shown_raise : (pool.raise origin).shown source = pool.shown source := by
  cases pool
  cases source <;> rfl

theorem shown_setQueue {slot : Slot} {rest : List Slot} (hqueue : pool.queue origin = slot :: rest) :
    pool.shown source = (pool.setQueue rest origin).shown source + if source = origin then 1 else 0 := by
  cases origin <;> cases source <;> simp_all [shown, queue, setQueue] <;> omega

/-- What a pool shows of a queue is what its other tasks show and what the task shows that takes the step. -/
theorem shown_erase (hfind : pool.tasks.find? (·.1 = client) = some (client, stage)) :
    pool.shown source =
      { pool with tasks := pool.tasks.eraseP (·.1 = client) }.shown source + stage.shown source := by
  have hsum : (pool.tasks.map (·.2.shown source)).sum =
      stage.shown source + ((pool.tasks.eraseP (·.1 = client)).map (·.2.shown source)).sum :=
    ((tasks_perm hfind).map _).sum_nat
  have hqueue : { pool with tasks := pool.tasks.eraseP (·.1 = client) }.queue source = pool.queue source := by
    cases source <;> rfl
  simp only [shown, hqueue]
  omega

/-- Where neither the gauges nor what they ought to show have changed. -/
theorem Gauged.same (h : pool.Gauged) (hgauges : pool'.gauges = pool.gauges)
    (hshown : ∀ source, pool'.shown source = pool.shown source) : pool'.Gauged := by
  rw [Gauged, hgauges]
  exact h.congr hshown

end

section

variable {machine : Machine σ} {client : Client} {pool pool' : Pool} {state state' : σ} {stage : Stage}
  {event : Service.Event}

theorem release_shown (released : SlotId) :
    (pool.release released).2.gauges = pool.gauges ∧
      ∀ source, (pool.release released).2.shown source = pool.shown source := by
  rw [release_snd]
  exact ⟨rfl, fun source => by cases source <;> rfl⟩

theorem Unanswered.shown {α : Type} {job : SlotProgram α} {slot : Slot}
    (h : Unanswered machine job slot pool state pool' state') :
    pool'.gauges = pool.gauges ∧ ∀ source, pool'.shown source = pool.shown source := by
  cases h with
  | gone hdead => exact ⟨rfl, fun _ => rfl⟩
  | dies halive hrun => exact ⟨rfl, fun source => by cases source <;> rfl⟩

/-- A task keeps the gauges true. The task has been taken from the list, and its slot is counted apart: between
    the queue and the gauge a slot may be on its way, and the stage tells how it is to be counted. -/
theorem Advance.gauged (hadvance : Advance machine client pool state stage pool' state')
    (h : pool.gauges.Shows fun source => pool.shown source + stage.shown source) : pool'.Gauged := by
  -- a task that goes on, or ends, with the gauges as they were
  have hfollow {kept : Pool} {next : Stage} (hgauges : kept.gauges = pool.gauges)
      (hshown : ∀ source, kept.shown source + next.shown source = pool.shown source + stage.shown source) :
      (kept.follow client next).Gauged := by
    have hkept : (kept.follow client next).gauges = pool.gauges := hgauges
    rw [Gauged, hkept]
    exact h.congr fun source => shown_follow.trans (hshown source)
  have hfinish {kept : Pool} {outcome : Outcome} (hgauges : kept.gauges = pool.gauges)
      (hshown : ∀ source, kept.shown source = pool.shown source + stage.shown source) :
      (kept.finish client outcome).Gauged := by
    have hkept : (kept.finish client outcome).gauges = pool.gauges := hgauges
    rw [Gauged, hkept]
    exact h.congr fun source => (by cases source <;> rfl : _ = kept.shown source).trans (hshown source)
  -- a task that lowers a gauge which shows its slot
  have hlower {origin : Source} {next : Stage} (hnext : ∀ source, next.shown source = 0)
      (hstage : ∀ source, stage.shown source = if source = origin then 1 else 0) :
      ((pool.lower origin).follow client next).Gauged := by
    refine Gauges.Shows.congr (Gauges.Shows.lower (h.congr fun source => ?_)) fun source => shown_follow
    rw [hnext, shown_lower, hstage, Nat.add_zero]
  cases hadvance with
  | receive => exact hlower (fun _ => rfl) fun _ => rfl
  | prepare hrun halive => exact hfinish rfl fun _ => rfl
  | prepareFails hrun halive => exact hfollow rfl fun _ => rfl
  | prepareStops hstops => exact hfollow hstops.shown.1 fun source => congrArg (· + 0) (hstops.shown.2 source)
  | discard => exact hfinish (release_shown _).1 (release_shown _).2
  | reset hrun halive => exact hfollow rfl fun _ => rfl
  | resetFails hrun halive => exact hfollow rfl fun _ => rfl
  | resetStops hstops => exact hfollow hstops.shown.1 fun source => congrArg (· + 0) (hstops.shown.2 source)
  | giveUp => exact hfinish (release_shown _).1 (release_shown _).2
  | @announce slot =>
    refine Gauges.Shows.congr (Gauges.Shows.raise h) fun source => ?_
    rw [shown_follow, shown_raise]
    rfl
  | @enqueue slot hopen hroom =>
    refine hfinish rfl fun source => ?_
    cases source with
    | new => simp [shown, queue, Stage.shown]
    | reused =>
      simp only [shown, queue, Stage.shown, List.length_append, List.length_singleton, if_true]
      omega
  | refuse hfull => exact hfollow rfl fun _ => rfl
  | overflow => exact hlower (fun _ => rfl) fun _ => rfl
  | loseSlot => exact hfinish (release_shown _).1 (release_shown _).2
  | remove hrun halive => exact hfollow rfl fun _ => rfl
  | removeStops hstops => exact hfollow hstops.shown.1 fun source => congrArg (· + 0) (hstops.shown.2 source)
  | @settle released failures purpose =>
    obtain ⟨hgauges, hshown⟩ : (pool.release released).2.gauges = pool.gauges ∧
        ∀ source, (pool.release released).2.shown source = pool.shown source := release_shown released
    cases purpose with
    | putBack => exact hfinish hgauges hshown
    | drain source earlier =>
      simp only [Pool.afterRemoval]
      split <;> exact hfollow hgauges hshown
  | close => exact hfollow rfl fun source => by cases source <;> rfl
  | await hstopped => exact hfollow rfl fun _ => rfl
  | shut => exact hfollow rfl fun source => by cases source <;> rfl
  | @drain origin failures slot rest hqueue =>
    refine hfollow (by cases origin <;> rfl) fun source => ?_
    rw [shown_setQueue hqueue]
    rfl
  | turn hqueue => exact hfollow rfl fun source => by cases source <;> rfl
  | endClose hqueue => exact hfinish rfl fun _ => rfl
  | takeOut => exact hlower (fun _ => rfl) fun _ => rfl

/-- The filling task raises the gauge before it puts its slot into the queue. In between the slot in its hand is
    counted, so the gauge shows it at any time. -/
theorem Stocking.gauged {choice : Nat} (hstocking : Stocking choice pool pool') (h : pool.Gauged) :
    pool'.Gauged := by
  cases hstocking with
  | stop hpopulate hcancelled =>
    exact h.same rfl fun source => by
      cases source <;> simp [shown, queue, Populate.shown, Populate.counting, hpopulate]
  | acquire hpopulate hacquire hslot =>
    exact h.same rfl fun source => by
      cases source <;> simp [shown, queue, Populate.shown, Populate.counting, hpopulate]
  | outsidePlan hpopulate hacquire hslot =>
    exact h.same rfl fun source => by
      cases source <;> simp [shown, queue, Populate.shown, Populate.counting, hpopulate]
  | @discard slot hpopulate hcancelled =>
    rw [release_snd]
    exact h.same rfl fun source => by
      cases source <;> simp [shown, queue, Populate.shown, Populate.counting, hpopulate]
  | @count slot hpopulate hgoing hroom =>
    refine Gauges.Shows.congr (Gauges.Shows.raise h) fun source => ?_
    cases pool
    cases source with
    | new =>
      simp_all only [shown, queue, Populate.shown, Populate.counting, Pool.raise, if_true]
      omega
    | reused => simp_all [shown, queue, Populate.shown, Pool.raise]
  | enqueue hpopulate =>
    exact h.same rfl fun source => by
      cases source <;> simp [shown, queue, Populate.shown, Populate.counting, hpopulate]

/-- A slot is taken from a queue, and the task that has it is still to lower the gauge. -/
theorem Gauged.taken {slot : Slot} {rest : List Slot} {origin : Source} (h : pool.Gauged)
    (hqueue : pool.queue origin = slot :: rest)
    (hstage : ∀ source, stage.shown source = if source = origin then 1 else 0) :
    ((pool.setQueue rest origin).follow client stage).Gauged := by
  refine h.same (by cases origin <;> rfl) fun source => ?_
  rw [shown_follow, hstage, shown_setQueue hqueue]

/-- Whatever happens, the gauges show the slots in the queues and those that are on their way in or out, as
    numbers that may wrap. Nothing about capacities or about what callers do is needed for it. -/
theorem Turned.gauged (hturned : Turned machine pool state event pool' state') (h : pool.Gauged) :
    pool'.Gauged := by
  cases hturned with
  | move hstepping =>
    cases hstepping with
    | task hfind hadvance => exact hadvance.gauged (h.congr fun source => (shown_erase hfind).symm)
    | populate hstocking => exact hstocking.gauged h
    | waiter hwaiting =>
      cases hwaiting with
      | giveUp hwaiter hclient => exact h.same rfl fun source => by cases source <;> rfl
      | sendAway hwaiter hclient => exact h.same rfl fun source => by cases source <;> rfl
      | @serve waiter source slot rest hwaiter hclient hqueue =>
        have hleft : ({ pool with waiting := pool.waiting.erase waiter } : Pool).Gauged :=
          h.same rfl fun source => by cases source <;> rfl
        exact hleft.taken (by cases source <;> exact hqueue) fun _ => rfl
  | get hasking =>
    cases hasking with
    | @take slot rest hqueue =>
      have hreused : pool.queue .reused = slot :: rest := hqueue
      exact h.taken hreused fun _ => rfl
    | decline | join => exact h.same rfl fun source => by cases source <;> rfl
  | close hasking =>
    cases hasking with
    | first => exact h.same rfl fun source => shown_follow.trans (by cases source <;> rfl)
    | again => exact h.same rfl fun source => by cases source <;> rfl
  | putBack | putBackNumber => exact h.same rfl fun source => shown_follow
  | _ => exact h.same rfl fun source => by cases source <;> rfl

end

end Pool

namespace Service

variable {machine : Machine σ} {allowed : Service σ → Event → Prop} {start service : Service σ}

/-- Whatever has happened, the gauges show what they ought to. -/
theorem Reaches.gauged (hstart : start.pool.Gauged) (hreaches : Reaches machine allowed start service) :
    service.pool.Gauged := by
  induction hreaches with
  | start => exact hstart
  | step hreaches hallowed hstep ih =>
    obtain ⟨pool, hturned, hafter, -⟩ := step_turned hstep
    exact hafter ▸ (hturned.gauged ih).same rfl fun source => by cases source <;> rfl

end Service
end SlotPool

import SlotPool.Proofs.Pool.Closed
/-!
A closing beside which nothing else is under way in the pool: no other request has a task when it is asked for, and
none gets one before it is over. So it is whenever a settled pool is closed and then left to itself.
-/

namespace SlotPool

variable {σ : Type}

namespace Pool

variable {machine : Machine σ} {pool pool' after : Pool} {state state' : σ} {move : Move} {client : Client}

/-- When the pool's lifetime is over, no move begins a task: nobody in line takes a slot any more, and the other
    moves go on with what is there. -/
theorem Stepping.names (hstepping : Stepping machine pool state move pool' state')
    (hgoesOn : pool.cancelled = true ∨ ∃ client, move = .task client) :
    ∀ name ∈ pool'.tasks.map Prod.fst, name ∈ pool.tasks.map Prod.fst := by
  cases hstepping with
  | @task mover stage pool' state' hfind hadvance =>
    have hothers : ∀ name ∈ (pool.tasks.eraseP (·.1 = mover)).map Prod.fst, name ∈ pool.tasks.map Prod.fst :=
      (List.eraseP_sublist.map _).subset
    have hmover : mover ∈ pool.tasks.map Prod.fst :=
      List.mem_map_of_mem (f := Prod.fst) (List.mem_of_find?_eq_some hfind)
    rcases hadvance.goesOn with ⟨next, htasks, -⟩ | ⟨htasks, -, -⟩
    · rw [htasks]
      exact List.forall_mem_cons.mpr ⟨hmover, hothers⟩
    · exact htasks ▸ hothers
  | populate hstocking => exact hstocking.tasks ▸ fun name hname => hname
  | waiter hwaiting =>
    cases hwaiting with
    | giveUp | sendAway => exact fun name hname => hname
    | serve hwaiter hclient hqueue hwanted hgoing =>
      rcases hgoesOn with hover | ⟨client, hmove⟩
      · simp [hgoing] at hover
      · cases hmove

/-- In a settled pool no request in line is cancelled, since it could leave the line. -/
theorem Settled.wanted (h : pool.Settled machine state) (honce : (pool.waiting.map (·.client)).Nodup) :
    ∀ waiter ∈ pool.waiting, waiter.cancelled = false := by
  intro waiter hmem
  by_contra hcancelled
  obtain ⟨ahead, behind, hline⟩ := List.append_of_mem hmem
  have hleaves := stepWaiter_over hline honce fun hwanted => (hcancelled hwanted).elim
  have hstuck := h (.waiter waiter.client)
  simp [step, hleaves] at hstuck

/-- The filling task does not move in a settled pool, nor in any other with the same identities, the same room, and
    the same lifetime. -/
theorem Settled.stocking {choice : Nat} (h : pool.Settled machine state) (hstocking : Stocking choice pool' after)
    (hpopulate : pool'.populate = pool.populate) (hcancelled : pool'.cancelled = pool.cancelled)
    (hallocator : pool'.allocator = pool.allocator) (hnewQueue : pool'.newQueue = pool.newQueue)
    (hcapacity : pool'.newCapacity = pool.newCapacity) : False := by
  have hstuck := h (.populate choice)
  simp only [step, Option.map_eq_none_iff, stepPopulate, ← hpopulate, ← hcancelled, ← hallocator, ← hnewQueue,
    ← hcapacity] at hstuck
  cases hstocking with
  | stop hstands hover | discard hstands hover => simp [hstands, hover] at hstuck
  | acquire hstands hacquire hslot hgoing | outsidePlan hstands hacquire hslot hgoing =>
    simp [hstands, hgoing, hacquire] at hstuck
  | count hstands hgoing hroom => simp [hstands, hgoing, hroom] at hstuck
  | enqueue hstands => simp [hstands] at hstuck

/-- When a settled pool is asked to close, only the closing can go on: what the filling task and the line wait for
    has not changed. -/
theorem Settled.asked (h : pool.Settled machine state) (hidle : pool.tasks = [])
    (honce : (pool.waiting.map (·.client)).Nodup) {now : σ}
    (hstepping : Stepping machine ({ pool with closeAsked := true }.follow client .closing) now move after state') :
    move = .task client := by
  cases hstepping with
  | @task mover stage after state' hfind hadvance =>
    have hmem := List.mem_of_find?_eq_some hfind
    rw [tasks_follow, hidle, List.mem_singleton] at hmem
    rw [(Prod.mk.inj hmem).1]
  | populate hstocking => exact (h.stocking hstocking rfl rfl rfl rfl rfl).elim
  | waiter hwaiting =>
    cases hwaiting with
    | @giveUp waiter hwaits hclient hcancelled => simp [h.wanted honce waiter hwaits] at hcancelled
    | sendAway hwaits hclient hwanted hover => exact absurd (h.waiting hover) (List.ne_nil_of_mem hwaits)
    | @serve waiter source slot rest hwaits hclient hqueue hwanted hgoing =>
      obtain ⟨hnew, hreused⟩ := h.queues hgoing (List.ne_nil_of_mem hwaits)
      have hqueue' : pool.queue source = slot :: rest := by cases source <;> exact hqueue
      cases source with
      | new => simp [queue, hnew] at hqueue'
      | reused => simp [queue, hreused] at hqueue'

end Pool

namespace Service

variable {machine : Machine σ} {allowed : Service σ → Event → Prop} {start service : Service σ}
  {client : Client} {closing : List (Turn σ)} {asking : Turn σ} {size : Nat}

/-- The requests that begin a task in a turn. -/
def Turn.begins (turn : Turn σ) : List Client :=
  (turn.after.pool.tasks.map Prod.fst).filter (· ∉ turn.before.pool.tasks.map Prod.fst)

theorem Turn.begins_eq_nil {turn : Turn σ} : turn.begins = [] ↔
    ∀ name ∈ turn.after.pool.tasks.map Prod.fst, name ∈ turn.before.pool.tasks.map Prod.fst := by
  rw [Turn.begins, List.filter_eq_nil_iff]
  simp only [decide_eq_true_eq, not_not]

/-- A closing that is asked for while no request has a task, and in whose turns none gets one. -/
structure Undisturbed (asking : Turn σ) (closing : List (Turn σ)) : Prop where
  idle : asking.before.pool.tasks = []
  alone : ∀ turn ∈ closing, turn.begins = []

/-- A closing that is asked for in a settled pool, which goes on by itself then. -/
structure LeftAlone (machine : Machine σ) (asking : Turn σ) (closing : List (Turn σ)) : Prop where
  settled : asking.before.pool.Settled machine asking.before.machine
  moves : ∀ turn ∈ closing, ∃ move, turn.event = .move move

/-- Where no turn begins a task, all that have one had one at the start. -/
theorem Traced.names (htraced : Traced machine allowed start closing service)
    (halone : ∀ turn ∈ closing, turn.begins = []) :
    ∀ name ∈ service.pool.tasks.map Prod.fst, name ∈ start.pool.tasks.map Prod.fst := by
  induction htraced with
  | start => exact fun name hname => hname
  | @step trace service after event outcomes htraced hallowed hstep ih =>
    have hlast := Turn.begins_eq_nil.mp (halone ⟨service, event, outcomes, after⟩ (by simp))
    exact fun name hname => ih (fun turn hmem => halone turn (List.mem_append_left _ hmem)) name (hlast name hname)

/-- The moves of a pool whose lifetime is over begin no task. -/
theorem Traced.begins_nothing (htraced : Traced machine allowed start closing service)
    (hover : start.pool.cancelled = true) (hmoves : ∀ turn ∈ closing, ∃ move, turn.event = .move move) :
    ∀ turn ∈ closing, turn.begins = [] := by
  intro turn hmem
  obtain ⟨hreaches, -, hstep⟩ := htraced.turn turn hmem
  obtain ⟨move, hmove⟩ := hmoves turn hmem
  obtain ⟨pool, hturned, hafter, -⟩ := step_turned hstep
  rw [hmove] at hturned
  cases hturned with
  | move hstepping =>
    rw [Turn.begins_eq_nil, hafter]
    exact hstepping.names (.inl (hreaches.later.cancelled hover))

/-- By moves alone nobody comes into line. Whoever is in line after some of them was there before, cancelled or
    not as before. -/
theorem Traced.waiting (htraced : Traced machine allowed start closing service)
    (hmoves : ∀ turn ∈ closing, ∃ move, turn.event = .move move) :
    ∀ waiter ∈ service.pool.waiting, waiter ∈ start.pool.waiting := by
  induction htraced with
  | start => exact fun waiter hwaits => hwaits
  | @step trace service after event outcomes htraced hallowed hstep ih =>
    obtain ⟨move, hmove⟩ := hmoves ⟨service, event, outcomes, after⟩ (by simp)
    obtain rfl : event = .move move := hmove
    obtain ⟨pool, hturned, hafter, -⟩ := step_turned hstep
    cases hturned with
    | move hstepping =>
      intro waiter hwaits
      rw [hafter] at hwaits
      exact ih (fun turn hmem => hmoves turn (List.mem_append_left _ hmem)) waiter (hstepping.waiting waiter hwaits)

section

variable (hasked : asking.after.pool = { asking.before.pool with closeAsked := true }.follow client .closing)
include hasked

/-- In an undisturbed closing nobody has a task but the closing itself. -/
theorem Undisturbed.sole (h : Undisturbed asking closing) (hunderway : asking.after.Underway client Stage.Closes)
    (htraced : Traced machine allowed asking.after closing service) :
    ∀ task ∈ service.pool.tasks, task.2.Closes := by
  rintro ⟨name, stage⟩ hmem
  have hname := htraced.names h.alone name (List.mem_map_of_mem hmem)
  have hsole : name = client := by simpa [hasked, Pool.follow, h.idle] using hname
  exact (hunderway.later (fun _ _ hcloses hleads => hleads.closes hcloses) htraced.reaches).stages stage (hsole ▸ hmem)

/-- In an undisturbed closing nobody takes a slot. To take one is to begin a task, and the only task is that of
    the closing. -/
theorem Undisturbed.unserved (h : Undisturbed asking closing)
    (hunderway : asking.after.Underway client Stage.Closes)
    (htraced : Traced machine allowed asking.after closing service) :
    ∀ turn ∈ closing, ∀ name, ¬ turn.Serves name := by
  rintro turn hmem name ⟨-, htaken⟩
  obtain ⟨before, behind, rfl⟩ := List.append_of_mem hmem
  obtain ⟨hbefore, hallowed, hstep, -⟩ := htraced.cut
  have hwhole : before ++ turn :: behind = (before ++ [turn]) ++ behind := by simp
  have hpart : Undisturbed asking (before ++ [turn]) :=
    ⟨h.idle, fun other hother => h.alone other (hwhole ▸ List.mem_append_left _ hother)⟩
  obtain ⟨⟨taker, source⟩, hentry, rfl⟩ := List.mem_map.mp htaken
  obtain ⟨task, htask, htakes⟩ := List.mem_filterMap.mp (List.mem_filter.mp hentry).1
  have hcloses := hpart.sole hasked hunderway (hbefore.step hallowed hstep) task htask
  generalize task.2 = stage at hcloses htakes
  cases stage with
  | received => cases hcloses
  | _ => cases htakes

/-- When an undisturbed closing is over, everybody who stood in line when it was asked for has been sent away. -/
theorem Undisturbed.sentAway (h : Undisturbed asking closing)
    (hunderway : asking.after.Underway client Stage.Closes)
    (htraced : Traced machine allowed asking.after closing service) (hlines : ∀ turn ∈ closing, turn.Lines)
    (hempty : service.pool.waiting = []) :
    ∀ name ∈ asking.before.pool.line, ∃ turn ∈ closing, turn.SendsAway name := by
  intro name hname
  have hstood : name ∈ asking.after.pool.line := by rw [hasked]; exact hname
  rcases htraced.leaves hlines hstood with hstill | ⟨turn, hmem, hsent | hserves⟩
  · simp [Pool.line, hempty] at hstill
  · exact ⟨turn, hmem, hsent⟩
  · exact (h.unserved hasked hunderway htraced turn hmem name hserves).elim

/-- A settled pool that is closed and then left to itself is closed undisturbed. The closing moves first, since
    nobody else can, and it ends the pool's lifetime by that, so that nobody takes a slot afterwards. -/
theorem LeftAlone.undisturbed (h : LeftAlone machine asking closing) (horderly : asking.before.Orderly size)
    (htraced : Traced machine allowed asking.after closing service) : Undisturbed asking closing := by
  have hidle : asking.before.pool.tasks = [] := h.settled.tasks horderly.shutting
  refine ⟨hidle, ?_⟩
  cases closing with
  | nil => simp
  | cons first rest =>
    have hcut : Traced machine allowed asking.after ([] ++ first :: rest) service := htraced
    obtain ⟨hbegin, -, hfirst, hrest⟩ := hcut.cut
    obtain ⟨move, hmove⟩ := h.moves first (List.mem_cons_self ..)
    obtain ⟨pool, hturned, hafter, -⟩ := step_turned hfirst
    have hbefore : first.before.pool = { asking.before.pool with closeAsked := true }.follow client .closing := by
      have hsame : asking.after = first.before := Option.some.inj hbegin.run
      exact hsame ▸ hasked
    rw [hmove, hbefore] at hturned
    obtain ⟨hnames, hover⟩ : (∀ name ∈ pool.tasks.map Prod.fst, name ∈ first.before.pool.tasks.map Prod.fst) ∧
        pool.cancelled = true := by
      generalize first.after.machine = state at hturned
      cases hturned with
      | move hstepping =>
        obtain rfl := h.settled.asked hidle horderly.queued.once hstepping
        refine ⟨hbefore ▸ hstepping.names (.inr ⟨client, rfl⟩), ?_⟩
        cases hstepping with
        | task hfind hadvance =>
          have hsole := List.mem_of_find?_eq_some hfind
          rw [Pool.tasks_follow, hidle, List.mem_singleton] at hsole
          obtain rfl := (Prod.mk.inj hsole).2
          cases hadvance
          rfl
    have hmoves : ∀ turn ∈ rest, ∃ move, turn.event = .move move := fun turn hmem =>
      h.moves turn (List.mem_cons_of_mem _ hmem)
    refine List.forall_mem_cons.mpr ⟨Turn.begins_eq_nil.mpr (hafter ▸ hnames), ?_⟩
    exact hrest.begins_nothing (by rw [hafter]; exact hover) hmoves

/-- When a settled pool was closed and left to itself until that was over, everybody who stood in line has ended with
    the refusal of a closed pool. -/
theorem LeftAlone.refused (h : LeftAlone machine asking closing) (horderly : asking.before.Orderly size)
    (hunderway : asking.after.Underway client Stage.Closes)
    (htraced : Traced machine allowed asking.after closing service) (hlines : ∀ turn ∈ closing, turn.Lines)
    (hempty : service.pool.waiting = []) :
    ∀ name ∈ asking.before.pool.line, ∃ turn ∈ closing, turn.outcomes = [(name, .failed .closed)] := by
  intro name hname
  obtain ⟨turn, hmem, waiter, hwaits, -, houtcomes⟩ :=
    (h.undisturbed hasked horderly htraced).sentAway hasked hunderway htraced hlines hempty name hname
  -- only requests that stood in line before are in line, and none of them is cancelled
  have hstood : waiter ∈ asking.before.pool.waiting := by
    obtain ⟨before, behind, rfl⟩ := List.append_of_mem hmem
    have hkept := htraced.cut.1.waiting fun other hother => h.moves other (List.mem_append_left _ hother)
    have hwaits' := hkept waiter hwaits
    rwa [hasked] at hwaits'
  rw [h.settled.wanted horderly.queued.once waiter hstood] at houtcomes
  exact ⟨turn, hmem, houtcomes⟩

end

end Service
end SlotPool

import SlotPool.Proofs.Pool.Served
/-!
A request that is under way has a task until it is over. What a turn makes of its task is a step of the task
alone, so what all steps of a task keep holds of it to its end.
-/

namespace SlotPool

variable {σ : Type}

namespace Pool

variable {machine : Machine σ} {pool pool' : Pool} {state state' : σ} {event : Service.Event} {client : Client}
  {stage : Stage} {id : SlotId}

/-- A request that has a task keeps it until it is over. No other request's turn ends it or takes its task away.
    -/
theorem Turned.keeps (hturned : Turned machine pool state event pool' state')
    (hmem : (client, stage) ∈ pool.tasks) :
    (∃ next, (client, next) ∈ pool'.tasks) ∨ ∃ outcome, (client, outcome) ∈ pool'.finished := by
  cases hturned with
  | move hstepping =>
    cases hstepping with
    | @task mover found pool' state' hfind hadvance =>
      by_cases hmover : mover = client
      · subst hmover
        rcases hadvance.goesOn with ⟨next, htasks, -⟩ | ⟨-, -, hended⟩
        · exact .inl ⟨next, htasks ▸ List.mem_cons_self ..⟩
        · exact .inr hended
      · have hkept : (client, stage) ∈ pool.tasks.eraseP (·.1 = mover) :=
          (List.mem_eraseP_of_neg (by simpa using Ne.symm hmover)).mpr hmem
        rcases hadvance.goesOn with ⟨next, htasks, -⟩ | ⟨htasks, -, -⟩
        · exact .inl ⟨stage, htasks ▸ List.mem_cons_of_mem _ hkept⟩
        · exact .inl ⟨stage, htasks ▸ hkept⟩
    | populate hstocking => exact .inl ⟨stage, hstocking.tasks ▸ hmem⟩
    | waiter hwaiting =>
      cases hwaiting with
      | giveUp hwaiter hclient => exact .inl ⟨stage, hmem⟩
      | sendAway hwaiter hclient => exact .inl ⟨stage, hmem⟩
      | @serve waiter source slot rest hwaiter hclient hqueue =>
        cases source <;> exact .inl ⟨stage, List.mem_cons_of_mem _ hmem⟩
  | get hasking =>
    cases hasking with
    | take => exact .inl ⟨stage, List.mem_cons_of_mem _ hmem⟩
    | decline | join => exact .inl ⟨stage, hmem⟩
  | close hasking =>
    cases hasking with
    | first => exact .inl ⟨stage, List.mem_cons_of_mem _ hmem⟩
    | again => exact .inl ⟨stage, hmem⟩
  | putBack | putBackNumber => exact .inl ⟨stage, List.mem_cons_of_mem _ hmem⟩
  | cancel | lose | cancelLifetime => exact .inl ⟨stage, hmem⟩

/-- What a turn makes of the task of a request that was made before it and is not in line: nothing, a step of
    its own, or its end. -/
theorem Turned.own (hturned : Turned machine pool state event pool' state')
    (hnew : ∀ name ∈ event.request?, name ≠ client) (haway : client ∉ pool.line) {next : Stage}
    (hmem : (client, next) ∈ pool'.tasks) :
    (client, next) ∈ pool.tasks ∨ ∃ stage, event = .move (.task client) ∧ (client, stage) ∈ pool.tasks ∧
      stage.Leads next := by
  cases hturned with
  | move hstepping =>
    cases hstepping with
    | @task mover found pool' state' hfind hadvance =>
      rcases hadvance.goesOn with ⟨other, htasks, hleads⟩ | ⟨htasks, -, -⟩
      · rcases List.mem_cons.mp (htasks ▸ hmem) with heq | hold
        · obtain ⟨rfl, rfl⟩ := Prod.mk.inj heq
          exact .inr ⟨found, rfl, List.mem_of_find?_eq_some hfind, hleads⟩
        · exact .inl (List.mem_of_mem_eraseP hold)
      · exact .inl (List.mem_of_mem_eraseP (htasks ▸ hmem))
    | populate hstocking => exact .inl (hstocking.tasks ▸ hmem)
    | waiter hwaiting =>
      rcases hwaiting.tasks _ hmem with hold | heq
      · exact .inl hold
      · obtain ⟨waiter, hwaits, hclient⟩ := hwaiting.waits
        exact absurd (List.mem_map.mpr ⟨waiter, hwaits, hclient.trans heq.symm⟩) haway
  | @get name policy cancelled pool' hasking =>
    have hother : name ≠ client := hnew name rfl
    cases hasking with
    | take =>
      exact .inl ((List.mem_cons.mp hmem).resolve_left fun hsame => hother (Prod.mk.inj hsame).1.symm)
    | decline | join => exact .inl hmem
  | @close name pool' hasking =>
    have hother : name ≠ client := hnew name rfl
    cases hasking with
    | first =>
      exact .inl ((List.mem_cons.mp hmem).resolve_left fun hsame => hother (Prod.mk.inj hsame).1.symm)
    | again => exact .inl hmem
  | @putBack name entry =>
    have hother : name ≠ client := hnew name rfl
    exact .inl ((List.mem_cons.mp hmem).resolve_left fun hsame => hother (Prod.mk.inj hsame).1.symm)
  | @putBackNumber name id =>
    have hother : name ≠ client := hnew name rfl
    exact .inl ((List.mem_cons.mp hmem).resolve_left fun hsame => hother (Prod.mk.inj hsame).1.symm)
  | cancel | lose | cancelLifetime => exact .inl hmem

/-- What comes of a request that was made before a turn and is not in line comes of its task, and the turn is a
    step of this task. -/
theorem Turned.ending (hturned : Turned machine pool state event pool' state') (hfinished : pool.finished = [])
    (hnew : ∀ name ∈ event.request?, name ≠ client) (haway : client ∉ pool.line) {outcome : Outcome}
    (hmem : (client, outcome) ∈ pool'.finished) :
    ∃ stage, event = .move (.task client) ∧ pool.tasks.find? (·.1 = client) = some (client, stage) ∧
      Ending machine { pool with tasks := pool.tasks.eraseP (·.1 = client) } state stage outcome state' ∧
      Advance machine client { pool with tasks := pool.tasks.eraseP (·.1 = client) } state stage pool' state' := by
  have hnone : (client, outcome) ∉ pool.finished := by simp [hfinished]
  cases hturned with
  | move hstepping =>
    cases hstepping with
    | @task mover stage pool' state' hfind hadvance =>
      rcases hadvance.ending with hsame | ⟨ended, hending, hsame⟩
      · exact (hnone (hsame ▸ hmem)).elim
      · obtain ⟨rfl, rfl⟩ : client = mover ∧ outcome = ended := by simpa [hsame, hfinished] using hmem
        exact ⟨stage, rfl, hfind, hending, hadvance⟩
    | populate hstocking => exact (hnone (hstocking.finished ▸ hmem)).elim
    | @waiter mover pool' hwaiting =>
      rcases hwaiting.sentAway with hsame | ⟨waiter, failure, rfl⟩
      · exact (hnone (hsame ▸ hmem)).elim
      · obtain ⟨rfl, -⟩ : client = mover ∧ outcome = .failed failure := by simpa [finish, hfinished] using hmem
        obtain ⟨other, hwaits, hclient⟩ := hwaiting.waits
        exact absurd (List.mem_map.mpr ⟨other, hwaits, hclient⟩) haway
  | @get name policy cancelled pool' hasking =>
    have hother : name ≠ client := hnew name rfl
    cases hasking with
    | decline => exact (hother ((List.mem_cons.mp hmem).elim (fun hsame => (Prod.mk.inj hsame).1.symm)
        fun hold => (hnone hold).elim)).elim
    | take | join => exact (hnone hmem).elim
  | @close name pool' hasking =>
    have hother : name ≠ client := hnew name rfl
    cases hasking with
    | first => exact (hnone hmem).elim
    | again => exact (hother ((List.mem_cons.mp hmem).elim (fun hsame => (Prod.mk.inj hsame).1.symm)
        fun hold => (hnone hold).elim)).elim
  | putBack | putBackNumber | cancel | lose | cancelLifetime => exact (hnone hmem).elim

/-- Only a request for a slot joins the line, and it does so in the turn in which it is made. -/
theorem Turned.line (hturned : Turned machine pool state event pool' state') :
    ∀ name ∈ pool'.line, name ∈ pool.line ∨ name ∈ event.request? := by
  intro name hname
  cases hturned with
  | move hstepping =>
    obtain ⟨waiter, hwaits, rfl⟩ := List.mem_map.mp hname
    exact .inl (List.mem_map_of_mem (hstepping.waiting waiter hwaits))
  | get hasking =>
    cases hasking with
    | take | decline => exact .inl hname
    | join =>
      rw [Pool.line, List.map_append] at hname
      rcases List.mem_append.mp hname with hold | hnew
      · exact .inl hold
      · exact .inr (by simpa [Service.Event.request?, eq_comm] using hnew)
  | @cancel client =>
    have hsame : (pool.cancel client).line = pool.line := by
      simp only [Pool.line, Pool.cancel, List.map_map]
      exact List.map_congr_left fun waiter _ => by simp only [Function.comp]; split <;> rfl
    exact .inl (hsame ▸ hname)
  | close hasking => cases hasking <;> exact .inl hname
  | putBack | putBackNumber | lose | cancelLifetime => exact .inl hname

end Pool

namespace Service

variable {machine : Machine σ} {allowed : Service σ → Event → Prop} {service after start : Service σ}
  {event : Event} {outcomes : List (Client × Outcome)} {client : Client} {kind : Stage → Prop}
  {trace : List (Turn σ)} {outcome : Outcome} {size : Nat}

/-- A request that was made, is not in line, and whose task is of a kind. -/
structure Underway (client : Client) (kind : Stage → Prop) (service : Service σ) : Prop where
  named : client ∈ service.named
  away : client ∉ service.pool.line
  stages : ∀ stage, (client, stage) ∈ service.pool.tasks → kind stage

/-- What a turn makes of a request that is under way: it does not join the line again, and its task has taken no
    step but, perhaps, in a turn of its own. -/
theorem Underway.turn (h : service.Underway client kind)
    (hstep : service.step machine event = some (outcomes, after)) :
    client ∈ after.named ∧ client ∉ after.pool.line ∧ ∀ next, (client, next) ∈ after.pool.tasks →
      (client, next) ∈ service.pool.tasks ∨ ∃ stage, event = .move (.task client) ∧
        (client, stage) ∈ service.pool.tasks ∧ stage.Leads next := by
  obtain ⟨hfresh, -⟩ := step_cases hstep
  obtain ⟨pool, hturned, hafter, -⟩ := step_turned hstep
  have hnew : ∀ name ∈ event.request?, name ≠ client := fun name hname heq => hfresh name hname (heq ▸ h.named)
  refine ⟨?_, fun hline => ?_, fun next hmem => ?_⟩
  · rw [(step_records hstep).1]
    exact List.mem_append_right _ h.named
  · rw [hafter] at hline
    exact (hturned.line client hline).elim h.away fun hname => hnew client hname rfl
  · rw [hafter] at hmem
    exact hturned.own hnew h.away hmem

/-- A request that is under way stays so, if its kind is kept by every step of a task. -/
theorem Underway.step (h : service.Underway client kind)
    (hkind : ∀ stage next, kind stage → stage.Leads next → kind next)
    (hstep : service.step machine event = some (outcomes, after)) : after.Underway client kind := by
  obtain ⟨hnamed, haway, htasks⟩ := h.turn hstep
  refine ⟨hnamed, haway, fun next hmem => ?_⟩
  rcases htasks next hmem with hold | ⟨stage, -, hmem, hleads⟩
  · exact h.stages next hold
  · exact hkind stage next (h.stages stage hmem) hleads

theorem Underway.later (h : start.Underway client kind)
    (hkind : ∀ stage next, kind stage → stage.Leads next → kind next)
    (hreaches : Reaches machine allowed start service) : service.Underway client kind := by
  induction hreaches with
  | start => exact h
  | step hreaches hallowed hstep ih => exact ih.step hkind hstep

/-- A request is answered in one of the turns. -/
def Answered (client : Client) (trace : List (Turn σ)) : Prop :=
  ∃ turn ∈ trace, ∃ outcome, (client, outcome) ∈ turn.outcomes

/-- A request that has a task keeps it until it is answered, however many turns this takes. -/
theorem Traced.keeps {stage : Stage} (htraced : Traced machine allowed start trace service)
    (hmem : (client, stage) ∈ start.pool.tasks) :
    (∃ stage, (client, stage) ∈ service.pool.tasks) ∨ Answered client trace := by
  induction htraced with
  | start => exact .inl ⟨stage, hmem⟩
  | step htraced hallowed hstep ih =>
    rcases ih with ⟨stage, hmem⟩ | ⟨turn, hturn, hended⟩
    · obtain ⟨pool, hturned, hafter, rfl⟩ := step_turned hstep
      rcases hturned.keeps hmem with ⟨next, hnext⟩ | ⟨outcome, hended⟩
      · rw [hafter]
        exact .inl ⟨next, hnext⟩
      · exact .inr ⟨_, List.mem_append_right _ (List.mem_singleton_self _), outcome, List.mem_reverse.mpr hended⟩
    · exact .inr ⟨turn, List.mem_append_left _ hturn, hended⟩

/-- What a request comes to when its task ends: the turn is a step of the task, and the outcome is that of the
    stage it was at. -/
theorem Underway.returns (h : service.Underway client kind) (hfinished : service.pool.finished = [])
    (hstep : service.step machine event = some (outcomes, after)) (hmem : (client, outcome) ∈ outcomes) :
    ∃ stage pool, kind stage ∧ event = .move (.task client) ∧
      service.pool.tasks.find? (·.1 = client) = some (client, stage) ∧
      Pool.Ending machine { service.pool with tasks := service.pool.tasks.eraseP (·.1 = client) }
        service.machine stage outcome after.machine ∧
      Pool.Advance machine client { service.pool with tasks := service.pool.tasks.eraseP (·.1 = client) }
        service.machine stage pool after.machine ∧
      (client, outcome) ∈ pool.finished ∧ after.pool = { pool with finished := [] } := by
  obtain ⟨hfresh, -⟩ := step_cases hstep
  obtain ⟨pool, hturned, hafter, rfl⟩ := step_turned hstep
  have hended : (client, outcome) ∈ pool.finished := List.mem_reverse.mp hmem
  obtain ⟨stage, hevent, hfind, hending, hadvance⟩ := hturned.ending hfinished
    (fun name hname heq => hfresh name hname (heq ▸ h.named)) h.away hended
  exact ⟨stage, pool, h.stages stage (List.mem_of_find?_eq_some hfind), hevent, hfind, hending, hadvance, hended,
    hafter⟩

end Service
end SlotPool

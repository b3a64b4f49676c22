import SlotPool.Proofs.Pool.Opening
/-!
Requests in line. They have nothing of the pool's until they leave the line, and when one is sent away
nothing else changes.
-/

namespace SlotPool

variable {σ : Type}

/-- A request that was sent away from the line. -/
def Outcome.SentAway : Outcome → Prop
  | .failed .cancelled | .failed .closed => True
  | _ => False

theorem PoolError.Substantial.not_sentAway {failure : PoolError} (h : failure.Substantial) :
    ¬ (Outcome.failed failure).SentAway := by
  cases failure <;> simp_all [Substantial, Outcome.SentAway]

theorem Outcome.ofExcept_not_sentAway {failures : List PoolError}
    (h : ∀ failure ∈ failures, failure.Substantial) :
    ¬ (Outcome.ofExcept (PoolError.ofMany failures)).SentAway := by
  cases hmany : PoolError.ofMany failures with
  | ok value => exact fun hsent => hsent
  | error failure => exact (PoolError.ofMany_substantial h hmany).not_sentAway

theorem PrepareFailure.toPoolError_substantial (id : SlotId) (release : Option AllocatorError)
    (failure : PrepareFailure) : (failure.toPoolError id release).Substantial := by
  cases failure <;> trivial

namespace Pool

variable {machine : Machine σ} {client : Client} {pool pool' : Pool} {state state' : σ}
  {stage : Stage} {asked : List (Client × Internet)}

theorem finished_release (id : SlotId) : (pool.release id).2.finished = pool.finished := by
  rw [release_snd]

theorem finished_follow : (pool.follow client stage).finished = pool.finished := rfl

theorem finished_lower {source : Source} : (pool.lower source).finished = pool.finished := by
  cases pool
  rfl

theorem finished_raise {source : Source} : (pool.raise source).finished = pool.finished := by
  cases pool
  rfl

/-- What came of a request whose task is over, by the stage at which it ended. -/
inductive Ending (machine : Machine σ) (pool : Pool) (state : σ) : Stage → Outcome → σ → Prop
  | prepare {slot policy after state'}
      (hrun : ((Slot.prepare pool.egress policy).run.run slot).run machine state =
        (some (.ok (), after), state'))
      (halive : pool.workerAlive = true) :
      Ending machine pool state (.preparing slot policy) (.slot after) state'
  | discard {id failure} : Ending machine pool state (.unprepared id failure)
      (.failed (failure.toPoolError id (pool.release id).1)) state
  | giveUp {id failure} : Ending machine pool state (.unreset id failure)
      (.failed (failure.toPoolError id (pool.release id).1)) state
  | enqueue {slot} : Ending machine pool state (.offering slot) .done state
  | loseSlot {id} : Ending machine pool state (.lost id) (.failed workerGone) state
  | settle {id failures} : Ending machine pool state (.removed id failures .putBack)
      (.ofExcept (PoolError.ofMany (failures ++ ((pool.release id).1.map .acquire).toList))) state
  | endClose {failures} : Ending machine pool state (.draining .reused failures)
      (.ofExcept (PoolError.ofMany failures)) state

/-- A step of a task ends no other request than its own. What it ends with is told apart by how it came to its
    end. -/
theorem Advance.ending (hadvance : Advance machine client pool state stage pool' state') :
    pool'.finished = pool.finished ∨ ∃ outcome, Ending machine pool state stage outcome state' ∧
      pool'.finished = (client, outcome) :: pool.finished := by
  have hended {ended : Pool} {outcome : Outcome}
      (hending : Ending machine pool state stage outcome state') (hsame : ended.finished = pool.finished) :
      (ended.finish client outcome).finished = pool.finished ∨
        ∃ outcome', Ending machine pool state stage outcome' state' ∧
          (ended.finish client outcome).finished = (client, outcome') :: pool.finished :=
    .inr ⟨outcome, hending, congrArg ((client, outcome) :: ·) hsame⟩
  cases hadvance with
  | receive => exact .inl (by rw [finished_follow, finished_lower])
  | prepare hrun halive => exact hended (.prepare hrun halive) rfl
  | prepareStops hstops => cases hstops <;> exact .inl rfl
  | discard => exact hended .discard (finished_release _)
  | resetStops hstops => cases hstops <;> exact .inl rfl
  | giveUp => exact hended .giveUp (finished_release _)
  | announce => exact .inl (by rw [finished_follow, finished_raise])
  | enqueue hopen hroom => exact hended .enqueue rfl
  | overflow => exact .inl (by rw [finished_follow, finished_lower])
  | loseSlot => exact hended .loseSlot (finished_release _)
  | removeStops hstops => cases hstops <;> exact .inl rfl
  | @settle id failures purpose =>
    cases purpose with
    | putBack => exact hended .settle (finished_release id)
    | drain source earlier =>
      simp only [afterRemoval]
      split <;> exact .inl (finished_release id)
  | endClose hqueue => exact hended .endClose rfl
  | @drain source failures slot rest hqueue => cases source <;> exact .inl rfl
  | takeOut => exact .inl (by rw [finished_follow, finished_lower])
  | prepareFails | reset | resetFails | refuse | remove | close | await | shut | turn => exact .inl rfl

/-- A request that has come as far as a task is not sent away: whatever it comes to is something else. -/
theorem Ending.not_sentAway {outcome : Outcome}
    (hending : Ending machine pool state stage outcome state')
    (hstage : stage.Filed asked client) : ¬ outcome.SentAway := by
  cases hending with
  | discard => exact (PrepareFailure.toPoolError_substantial ..).not_sentAway
  | @settle id failures =>
    refine Outcome.ofExcept_not_sentAway fun failure hmem => ?_
    rcases List.mem_append.mp hmem with hearlier | hrefused
    · exact hstage failure (List.mem_append_left _ hearlier)
    · simp only [Option.mem_toList, Option.map_eq_some_iff] at hrefused
      obtain ⟨refusal, -, rfl⟩ := hrefused
      trivial
  | endClose => exact Outcome.ofExcept_not_sentAway hstage
  | _ => exact fun hsent => hsent

theorem Stocking.finished {choice : Nat} (hstocking : Stocking choice pool pool') :
    pool'.finished = pool.finished := by
  cases hstocking with
  | discard hpopulate hcancelled => exact finished_release _
  | @count slot hpopulate => exact (finished_raise : (pool.raise .new).finished = _)
  | _ => rfl

/-- A request leaves the line for good, and nobody else does. -/
theorem Waiting.leaves (hwaiting : Waiting client pool pool') :
    ∃ waiter ∈ pool.waiting, waiter.client = client ∧ pool'.waiting = pool.waiting.erase waiter := by
  cases hwaiting with
  | giveUp hwaiter hclient => exact ⟨_, hwaiter, hclient, rfl⟩
  | sendAway hwaiter hclient => exact ⟨_, hwaiter, hclient, rfl⟩
  | @serve waiter source slot rest hwaiter hclient hqueue =>
    exact ⟨waiter, hwaiter, hclient, by cases source <;> rfl⟩

/-- A request that leaves the line goes on as a task, or it is sent away and nothing else changes. -/
theorem Waiting.sentAway (hwaiting : Waiting client pool pool') :
    pool'.finished = pool.finished ∨
      ∃ waiter failure, pool' = { pool with waiting := pool.waiting.erase waiter }.finish client
        (.failed failure) := by
  cases hwaiting with
  | giveUp hwaiter hclient => exact .inr ⟨_, _, rfl⟩
  | sendAway hwaiter hclient => exact .inr ⟨_, _, rfl⟩
  | @serve waiter source slot rest hwaiter hclient hqueue =>
    exact .inl (by cases source <;> rfl)

/-- The requests that have left the line: they have a task, or a slot is on its way to them. -/
def served (pool : Pool) : List Client := pool.tasks.map (·.1) ++ (slotsAmong pool.finished).map (·.1)

/-- A step serves nobody but requests that leave the line by it. In all other steps those who are served are
    among those who were, and the line is as it was. -/
theorem Stepping.served {move : Move} (hstepping : Stepping machine pool state move pool' state')
    (hfiled : pool.Filed asked) :
    (pool'.waiting = pool.waiting ∧ ∀ name ∈ pool'.served, name ∈ pool.served) ∨
      ∃ waiter ∈ pool.waiting, pool'.waiting = pool.waiting.erase waiter ∧
        ∀ name ∈ pool'.served, name ∈ pool.served ∨ name = waiter.client := by
  cases hstepping with
  | @task client stage pool' state' hfind hadvance =>
    refine .inl ⟨hadvance.waiting, fun name hname => ?_⟩
    have hserved : client ∈ pool.served :=
      List.mem_append_left _ (List.mem_map_of_mem (List.mem_of_find?_eq_some hfind))
    have hstage := hfiled.tasks client stage (List.mem_of_find?_eq_some hfind)
    obtain ⟨moved, htasks, hmoved⟩ := hadvance.moved
    rcases List.mem_append.mp hname with hrunning | hended
    · obtain ⟨task, hmem, rfl⟩ := List.mem_map.mp hrunning
      rcases List.mem_append.mp (htasks ▸ hmem) with hnew | hold
      · exact hmoved task hnew ▸ hserved
      · exact List.mem_append_left _ (List.mem_map_of_mem (List.mem_of_mem_eraseP hold))
    · obtain ⟨⟨other, slot⟩, hmem, rfl⟩ := List.mem_map.mp hended
      rcases hadvance.ending with hsame | ⟨outcome, -, hsame⟩
      · exact List.mem_append_right _ (List.mem_map_of_mem (hsame ▸ hmem))
      · have hended : (other, .slot slot) ∈ (client, outcome) :: pool.finished :=
          hsame ▸ mem_slotsAmong.mp hmem
        rcases List.mem_cons.mp hended with hnew | hold
        · exact congrArg Prod.fst hnew ▸ hserved
        · exact List.mem_append_right _ (List.mem_map_of_mem (mem_slotsAmong.mpr hold))
  | populate hstocking =>
    refine .inl ⟨hstocking.waiting, fun name hname => ?_⟩
    rwa [Pool.served, hstocking.tasks, hstocking.finished] at hname
  | waiter hwaiting =>
    obtain ⟨waiter, hwaits, rfl, hleft⟩ := hwaiting.leaves
    refine .inr ⟨waiter, hwaits, hleft, fun name hname => ?_⟩
    have hsame : slotsAmong pool'.finished = slotsAmong pool.finished := by
      rcases hwaiting.sentAway with hfinished | ⟨gone, failure, rfl⟩
      · rw [hfinished]
      · rfl
    rw [Pool.served, hsame] at hname
    rcases List.mem_append.mp hname with hrunning | hended
    · obtain ⟨task, hmem, rfl⟩ := List.mem_map.mp hrunning
      rcases hwaiting.tasks task hmem with hold | hnew
      · exact .inl (List.mem_append_left _ (List.mem_map_of_mem hold))
      · exact .inr hnew
    · exact .inl (List.mem_append_right _ hended)

end Pool

namespace Service

variable {machine : Machine σ} {service applied after : Service σ} {event : Event} {size : Nat}
  {outcomes : List (Client × Outcome)}

/-- The requests that have left the line and have, or had, something of the pool's. -/
def served (service : Service σ) : List Client :=
  service.pool.served ++ (service.held ++ service.lost).map (·.1)

/-- A request in line stands there once, and it has nothing of the pool's. -/
structure Queued (service : Service σ) : Prop where
  once : (service.pool.waiting.map (·.client)).Nodup
  apart : ∀ waiter ∈ service.pool.waiting, waiter.client ∉ service.served

/-- The order in the line is kept by whatever leaves the names in it as they are and serves nobody who stands
    there. -/
theorem Queued.mono (h : service.Queued)
    (hwaiting : after.pool.waiting.map (·.client) = service.pool.waiting.map (·.client))
    (hserved : ∀ name ∈ after.served,
      name ∈ service.served ∨ name ∉ service.pool.waiting.map (·.client)) : after.Queued := by
  refine ⟨hwaiting ▸ h.once, fun waiter hmem hname => ?_⟩
  have hclient : waiter.client ∈ service.pool.waiting.map (·.client) :=
    hwaiting ▸ List.mem_map_of_mem hmem
  rcases hserved _ hname with hold | hnew
  · obtain ⟨old, hold', heq⟩ := List.mem_map.mp hclient
    exact h.apart old hold' (heq ▸ hold)
  · exact hnew hclient

/-- A step of the pool keeps the order in the line. Whoever is served by it leaves the line with it, and nobody
    else in line has anything. -/
theorem Queued.stepping {move : Pool.Move} {pool : Pool} {state : σ} (h : service.Queued)
    (hfiled : service.Filed)
    (hstepping : Pool.Stepping machine service.pool service.machine move pool state) :
    { service with pool, machine := state }.Queued := by
  rcases hstepping.served hfiled.pool with ⟨hwaiting, hserved⟩ | ⟨waiter, hwaits, hleft, hserved⟩
  · refine h.mono (congrArg _ hwaiting) fun name hname => .inl ?_
    exact (List.mem_append.mp hname).elim (fun hpool => List.mem_append_left _ (hserved name hpool))
      (List.mem_append_right _)
  · have hsplit := (List.perm_cons_erase hwaits).map (·.client)
    have honce := List.nodup_cons.mp ((List.Perm.nodup_iff hsplit).mp h.once)
    refine ⟨hleft ▸ honce.2, fun other hmem hname => ?_⟩
    have hother : other ∈ service.pool.waiting.erase waiter := hleft ▸ hmem
    have hapart := h.apart other (List.mem_of_mem_erase hother)
    rcases List.mem_append.mp hname with hpool | hcallers
    · rcases hserved _ hpool with hold | heq
      · exact hapart (List.mem_append_left _ hold)
      · exact honce.1 (List.mem_map.mpr ⟨other, hother, heq⟩)
    · exact hapart (List.mem_append_right _ hcallers)

/-- A request that begins with a task of its own is served by that. It was not in line, so the order there is
    kept, whatever else changes hands as long as callers get nothing new. -/
theorem Queued.begins {client : Client} {stage : Stage} {pool : Pool} {held lost : List (Client × Slot)}
    {asked : List (Client × Internet)} {strays : List Client} (h : service.Queued)
    (haway : client ∉ service.pool.waiting.map (·.client))
    (hpool : pool.tasks = service.pool.tasks ∧ pool.finished = service.pool.finished ∧
      pool.waiting = service.pool.waiting)
    (hheld : ∀ entry ∈ held, entry ∈ service.held) (hlost : ∀ entry ∈ lost, entry ∈ service.lost) :
    { service.withPool (pool.follow client stage) with asked, held, lost, strays }.Queued := by
  obtain ⟨htasks, hfinished, hwaiting⟩ := hpool
  refine h.mono (congrArg _ hwaiting) fun name hname => ?_
  have hsame : pool.served = service.pool.served := by rw [Pool.served, htasks, hfinished]; rfl
  rcases List.mem_append.mp hname with hpool | hcallers
  · rcases List.mem_cons.mp hpool with rfl | hold
    · exact .inr haway
    · exact .inl (List.mem_append_left _ (hsame ▸ hold))
  · obtain ⟨entry, hentry, rfl⟩ := List.mem_map.mp hcallers
    refine .inl (List.mem_append_right _ (List.mem_map_of_mem ?_))
    exact List.mem_append.mpr ((List.mem_append.mp hentry).imp (hheld _) (hlost _))

/-- A request that joins the line stands behind the others. It has nothing yet, and it was not in line before. -/
theorem Queued.joins {waiter : Waiter} {asked : List (Client × Internet)} (h : service.Queued)
    (hserved : waiter.client ∉ service.served) (haway : waiter.client ∉ service.pool.waiting.map (·.client)) :
    { service.withPool { service.pool with waiting := service.pool.waiting ++ [waiter] } with asked }.Queued := by
  have hwaiting : (service.pool.waiting ++ [waiter]).map (·.client) =
      service.pool.waiting.map (·.client) ++ [waiter.client] := List.map_append
  refine ⟨hwaiting.symm ▸ List.nodup_append.mpr ⟨h.once, by simp, ?_⟩, fun other hmem => ?_⟩
  · rintro name hname other hother rfl
    exact haway (List.mem_singleton.mp hother ▸ hname)
  · rcases List.mem_append.mp hmem with hold | hnew
    · exact h.apart other hold
    · obtain rfl := List.mem_singleton.mp hnew
      exact hserved

/-- Whatever happens, whoever is in line stands there once and has nothing. An event that begins a task serves the
    request that it makes, and that one was not in line; whoever joins the line was not served before. -/
theorem Queued.apply (h : service.Queued) (hfiled : service.Filed)
    (hunused : ∀ client ∈ event.request?,
      client ∉ service.served ∧ client ∉ service.pool.waiting.map (·.client))
    (happlied : Applied machine service event applied) : applied.Queued := by
  cases happlied with
  | move hstepping => exact h.stepping hfiled hstepping
  | @get client policy cancelled pool hasking =>
    obtain ⟨hserved, haway⟩ := hunused client rfl
    cases hasking with
    | take => exact h.begins haway ⟨rfl, rfl, rfl⟩ (fun _ hmem => hmem) fun _ hmem => hmem
    | decline => exact h.mono rfl fun name hname => .inl hname
    | join => exact h.joins hserved haway
  | cancel =>
    refine h.mono ?_ fun name hname => .inl hname
    simp only [withPool, Pool.cancel, List.map_map]
    exact List.map_congr_left fun waiter _ => by simp only [Function.comp]; split <;> rfl
  | handBack hgives hcallers hheld hlost =>
    exact h.begins (hunused _ hgives.request?).2 ⟨rfl, rfl, rfl⟩ (fun _ hmem => hheld.subset hmem)
      fun _ hmem => hlost.subset hmem
  | stray => exact h.begins (hunused _ rfl).2 ⟨rfl, rfl, rfl⟩ (fun _ hmem => hmem) fun _ hmem => hmem
  | @lose entry hheld =>
    have hperm : (service.held.erase entry ++ entry :: service.lost).Perm
        (service.held ++ service.lost) :=
      List.perm_middle.trans ((List.perm_cons_erase hheld).symm.append_right _)
    refine h.mono rfl fun name hname => .inl ?_
    exact (List.Perm.append_left _ (hperm.map _)).mem_iff.mp hname
  | close hasking =>
    cases hasking with
    | first => exact h.begins (hunused _ rfl).2 ⟨rfl, rfl, rfl⟩ (fun _ hmem => hmem) fun _ hmem => hmem
    | again => exact h.mono rfl fun name hname => .inl hname
  | cancelLifetime => exact h.mono rfl fun name hname => .inl hname

/-- A request whose name is new has nothing of the pool's yet: all that have something were noted when they were
    made. -/
theorem Conserved.not_served {client : Client} (h : service.Conserved size)
    (hfinished : service.pool.finished = []) (hnew : client ∉ service.named) :
    client ∉ service.served := by
  intro hmem
  rcases List.mem_append.mp hmem with hpool | hcallers
  · rw [Pool.served, hfinished] at hpool
    simp only [Pool.slotsAmong, List.filterMap_nil, List.map_nil, List.append_nil] at hpool
    obtain ⟨task, htask, rfl⟩ := List.mem_map.mp hpool
    exact hnew (h.running task htask)
  · obtain ⟨⟨other, slot⟩, hentry, rfl⟩ := List.mem_map.mp hcallers
    obtain ⟨policy, hasked, -⟩ := h.filed.callers other slot (List.mem_append.mp hentry)
    exact hnew (h.filed.named other policy hasked)

theorem Queued.deliver (h : service.Queued) : service.deliver.2.Queued := by
  refine h.mono rfl fun name hname => .inl ?_
  simp only [served, Pool.served, Service.deliver, Pool.slotsAmong, List.filterMap_nil, List.map_nil,
    List.append_nil, List.map_append, List.mem_append] at hname ⊢
  tauto

/-- Whatever happens, the requests in line stand there once and have nothing of the pool's. -/
theorem Queued.step (h : service.Queued) (hconserved : service.Conserved size)
    (hfinished : service.pool.finished = [])
    (hstep : service.step machine event = some (outcomes, after)) : after.Queued := by
  obtain ⟨hfresh, applied, happlied, -, rfl⟩ := step_cases hstep
  have hnote : (service.note event).Queued := ⟨h.once, h.apart⟩
  refine (hnote.apply hconserved.note.filed (fun client hclient => ⟨?_, fun hmem => ?_⟩) happlied).deliver
  · exact hconserved.not_served hfinished (hfresh client hclient)
  · obtain ⟨waiter, hwaits, rfl⟩ := List.mem_map.mp hmem
    exact hfresh _ hclient (hconserved.waiting waiter hwaits).1

/-- What ends a request: a step of its task, or it is sent away from the line or before it joins it, or it asks to
    close a pool that is being closed already. -/
inductive Ended (machine : Machine σ) (service : Service σ) : Event → Client → Outcome → Service σ → Prop
  | task {client stage outcome applied} (hmem : (client, stage) ∈ service.pool.tasks)
      (hending : Pool.Ending machine
        { service.pool with tasks := service.pool.tasks.eraseP (·.1 = client) } service.machine stage
        outcome applied.machine) : Ended machine service (.move (.task client)) client outcome applied
  | sent {waiter : Waiter} {outcome} (hwaits : waiter ∈ service.pool.waiting) (hsent : outcome.SentAway) :
      Ended machine service (.move (.waiter waiter.client)) waiter.client outcome
        (service.withPool ({ service.pool with
          waiting := service.pool.waiting.erase waiter }.finish waiter.client outcome))
  | declined {client policy cancelled} {outcome} (hsent : outcome.SentAway) :
      Ended machine service (.get client policy cancelled) client outcome
        { service.withPool (service.pool.finish client outcome) with asked := (client, policy) :: service.asked }
  | closed {client applied} : Ended machine service (.close client) client .done applied

/-- Every outcome is of one of these kinds. Only a step of a task, a request that is sent away and a request to
    close a pool again have outcomes at all, and each has one. -/
theorem Applied.ended {client : Client} {outcome : Outcome} (happlied : Applied machine service event applied)
    (hfinished : service.pool.finished = []) (hmem : (client, outcome) ∈ applied.pool.finished) :
    Ended machine service event client outcome applied := by
  have hnone : (client, outcome) ∉ service.pool.finished := by simp [hfinished]
  cases happlied with
  | move hstepping =>
    cases hstepping with
    | @task mover stage pool state hfind hadvance =>
      rcases hadvance.ending with hsame | ⟨ended, hending, hsame⟩
      · exact (hnone (hsame ▸ hmem)).elim
      · obtain ⟨rfl, rfl⟩ : client = mover ∧ outcome = ended := by
          simpa [hsame, hfinished] using hmem
        exact .task (List.mem_of_find?_eq_some hfind) hending
    | populate hstocking => exact (hnone (hstocking.finished ▸ hmem)).elim
    | @waiter mover pool hwaiting =>
      cases hwaiting with
      | giveUp hwaiter hmover | sendAway hwaiter hmover =>
        obtain ⟨rfl, rfl⟩ := by simpa [Pool.finish, hfinished] using hmem
        exact hmover ▸ .sent hwaiter trivial
      | @serve waiter source slot rest hwaiter hmover hqueue =>
        cases source <;> exact (hnone hmem).elim
  | @get asker policy cancelled pool hasking =>
    cases hasking with
    | decline =>
      obtain ⟨rfl, rfl⟩ := by simpa [withPool, Pool.finish, hfinished] using hmem
      exact .declined (by cases cancelled <;> trivial)
    | take | join => exact (hnone hmem).elim
  | @close asker pool hasking =>
    cases hasking with
    | first => exact (hnone hmem).elim
    | again =>
      obtain ⟨rfl, rfl⟩ := by simpa [withPool, Pool.finish, hfinished] using hmem
      exact .closed
  | handBack | stray | lose | cancel | cancelLifetime => exact (hnone hmem).elim

/-- Handing over the outcome of a request that was sent away gives nothing to anybody. -/
theorem deliver_sentAway (service : Service σ) (client : Client) {outcome : Outcome}
    (hfinished : service.pool.finished = []) (hsent : outcome.SentAway) :
    (service.withPool (service.pool.finish client outcome)).deliver.2 = service := by
  have hsame : { service.pool with finished := [] } = service.pool := by rw [← hfinished]
  cases outcome with
  | failed failure => simp [Service.deliver, withPool, Pool.finish, Pool.slotsAmong, hfinished, hsame]
  | slot given => exact hsent.elim
  | done => exact hsent.elim

/-- When a request is sent away, nothing changes but the line and what is noted of the request, and the request has
    got nothing. -/
theorem Queued.sentAway {client : Client} {outcome : Outcome} (h : service.Queued)
    (hconserved : service.Conserved size) (hfinished : service.pool.finished = [])
    (hstep : service.step machine event = some (outcomes, after))
    (hmem : (client, outcome) ∈ outcomes) (hsent : outcome.SentAway) :
    client ∉ after.served ∧ ∃ waiting named asked,
      after = { service with pool := { service.pool with waiting }, named, asked } := by
  obtain ⟨hfresh, applied, happlied, rfl, rfl⟩ := step_cases hstep
  cases happlied.ended hfinished (List.mem_reverse.mp hmem) with
  | task hmem hending =>
    exact (hending.not_sentAway (hconserved.filed.pool.tasks _ _ hmem) hsent).elim
  | @sent waiter outcome hwaits =>
    have hleft := deliver_sentAway ((service.note (.move (.waiter waiter.client))).withPool
      { service.pool with waiting := service.pool.waiting.erase waiter }) waiter.client hfinished hsent
    refine ⟨?_, _, _, _, hleft⟩
    exact hleft.symm ▸ h.apart waiter hwaits
  | @declined client policy cancelled outcome =>
    have hnew : client ∉ service.named := hfresh client rfl
    have hdeclined := deliver_sentAway { service.note (.get client policy cancelled) with
      asked := (client, policy) :: service.asked } client hfinished hsent
    refine ⟨?_, _, _, _, hdeclined⟩
    exact hdeclined.symm ▸ hconserved.not_served hfinished hnew
  | closed => exact hsent.elim

end Service

end SlotPool

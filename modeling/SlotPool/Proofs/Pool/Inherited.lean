import SlotPool.Proofs.Pool.Untroubled
import SlotPool.Proofs.Slot.Adopted
/-!
A pool on a machine on which networks were left. While no call fails, a job changes the network of its own
slot and no other, whoever has made that network, and no request fails that was given a slot.
-/

namespace SlotPool

open Sequence

variable {σ : Type} {machine : Machine σ} {view : σ → World} {egress : String}

/-- A job is done without any failure. -/
def Permit.flawless (machine : Machine σ) (view : σ → World) (egress : String) : Permit σ :=
  fun job slot state => ∀ {α : Type} {program : SlotProgram α}, job.Done egress program →
    (program.run slot).Spared .none machine view egress state

/-- A flawless job for a slot with a firewall, if it is to be reset. -/
def Permit.sound (machine : Machine σ) (view : σ → World) (egress : String) : Permit σ :=
  fun job slot state => Permit.flawless machine view egress job slot state ∧
    (job = .release → slot.hasFirewall = true)

/-- On the machine are the networks of some slots, and nothing else. What is known of slots is so, and there is
    no network where nothing but an identity is left. -/
structure Inherited (egress : String) (ledger : Ledger) (entries : List (SlotId × Internet)) (world : World) :
    Prop where
  nodup : (entries.map Prod.fst).Nodup
  world_eq : world = World.laid egress entries
  known : ∀ slot ∈ ledger.slots, slot.Known entries
  gone : ∀ id ∈ ledger.bare, id ∉ entries.map Prod.fst

section

variable {slot : Slot} {left : Option Slot} {state state' : σ} {entries : List (SlotId × Internet)} {job : Job}

theorem Slot.Known.keeps (h : slot.Known entries) (hfirewall : slot.hasFirewall = true) :
    ∃ policy, (slot.id, policy) ∈ entries ∧ slot.Keeps policy :=
  h.resolve_left fun hfresh => by
    rw [hfresh] at hfirewall
    cases hfirewall

/-- A flawless job comes to its end, and to the end that it should. -/
structure Job.Succeeds (machine : Machine σ) (egress : String) (job : Job) (slot : Slot) (state : σ) : Prop where
  ends : ∀ {α : Type} {program : SlotProgram α} {state'}, job.Done egress program →
    (program.run slot).run machine state ≠ (none, state')
  prepare : ∀ {policy failure after state'}, job = .prepare policy →
    ((Slot.prepare egress policy).run.run slot).run machine state ≠ (some (.error failure, after), state')
  release : ∀ {failure after state'}, job = .release →
    ((Slot.release egress).run.run slot).run machine state ≠ (some (.error failure, after), state')
  remove : ∀ {result after state'}, job = .remove →
    ((Slot.remove egress).run.run slot).run machine state = (some (result, after), state') → result = .ok ()

variable (hnodup : (entries.map Prod.fst).Nodup) (hview : view state = World.laid egress entries)
  (hknown : slot.Known entries)
include hnodup hview hknown

/-- A job on a slot of which the machine has a network or nothing at all succeeds when no call of it fails. What
    was left behind is taken over or taken away as if it had just been made. -/
theorem Slot.Known.succeeds (hpermit : Permit.sound machine view egress job slot state) :
    job.Succeeds machine egress slot state where
  ends hdone hrun := by
    obtain ⟨value, s', hran, -⟩ := (hpermit.1 hdone).meets.run Program.ensures_true
    rw [hran] at hrun
    cases hrun
  prepare hjob hrun := by
    subst hjob
    obtain ⟨value, after, s', hran, -⟩ := (prepare_settles hnodup hview hknown).succeeds (hpermit.1 (.prepare _))
    cases hran.symm.trans hrun
  release hjob hrun := by
    subst hjob
    obtain ⟨policy, hentry, hkeeps⟩ := hknown.keeps (hpermit.2 rfl)
    obtain ⟨value, after, s', hran, -⟩ := (release_settles hnodup hview hentry hkeeps).succeeds (hpermit.1 .release)
    cases hran.symm.trans hrun
  remove hjob hrun := by
    subst hjob
    obtain ⟨value, after, s', hran, -⟩ := (remove_settles hnodup hview hknown).succeeds (hpermit.1 .remove)
    cases hran.symm.trans hrun
    rfl

/-- Whatever becomes of a slot, its network is what is known of it, and the others are as they were. A slot may
    have inherited a network that it does not know of, which is why the entry is not read off its memory. -/
theorem Fate.resettles (hfate : Fate machine egress (.sound machine view egress) False slot state left state') :
    ∃ entries', Resettled slot.id (left.bind Slot.firewall) entries entries' ∧
      view state' = World.laid egress entries' ∧
        ∀ after ∈ left, after.id = slot.id ∧ ∃ policy, after.Keeps policy := by
  cases hfate with
  | @prepared policy after state' hpermit hrun =>
    have hopened : slot.id.Opens
        (if slot.id.namespaceName ∈ (view state).namespaces then slot.handle else some slot.id.handle) := by
      split
      · exact hknown.opened
      · exact slot.id.opens_some
    obtain ⟨value, made, s', hran, rfl, entries', hresettled, hworld⟩ :=
      (prepare_settles hnodup hview hknown).succeeds (hpermit.1 (.prepare _))
    obtain ⟨⟨-, rfl⟩, rfl⟩ := by simpa using hran.symm.trans hrun
    refine ⟨entries', hresettled, hworld, ?_⟩
    rintro after ⟨⟩
    exact ⟨rfl, policy, Slot.outfitted_keeps hopened⟩
  | unprepared hpermit hrun => exact ((hknown.succeeds hnodup hview hpermit).prepare rfl hrun).elim
  | @released after state' hpermit hrun =>
    obtain ⟨policy, hentry, hkeeps⟩ := hknown.keeps (hpermit.2 rfl)
    obtain ⟨value, made, s', hran, rfl, entries', hresettled, hworld⟩ :=
      (release_settles hnodup hview hentry hkeeps).succeeds (hpermit.1 .release)
    obtain ⟨⟨-, rfl⟩, rfl⟩ := by simpa using hran.symm.trans hrun
    refine ⟨entries', hresettled, hworld, ?_⟩
    rintro after ⟨⟩
    exact ⟨rfl, .allowed, Slot.outfitted_keeps hkeeps.opened⟩
  | unreleased hpermit hrun => exact ((hknown.succeeds hnodup hview hpermit).release rfl hrun).elim
  | removed hpermit hrun =>
    obtain ⟨value, made, s', hran, entries', hresettled, hworld⟩ :=
      (remove_settles hnodup hview hknown).succeeds (hpermit.1 .remove)
    obtain ⟨⟨-, -⟩, rfl⟩ := by simpa using hran.symm.trans hrun
    exact ⟨entries', hresettled, hworld, by simp⟩
  | killed hpermit hdone hrun => exact ((hknown.succeeds hnodup hview hpermit).ends hdone hrun).elim
  | dropped hvacant => exact hvacant.elim

end

namespace Inherited

variable {before after : Ledger} {entries entries' : List (SlotId × Internet)} {world world' : World}
  {slot : Slot} {rest : List Slot} {left : Option Slot} {settled : Option Internet}

/-- Another order, fewer slots, or slots of which nothing is known. -/
theorem congr (h : Inherited egress before entries world)
    (hslots : ∀ slot ∈ after.slots, slot ∈ before.slots ∨ slot = .fresh slot.id)
    (hbare : ∀ id ∈ after.bare, id ∈ before.bare) : Inherited egress after entries world where
  nodup := h.nodup
  world_eq := h.world_eq
  known slot hmem := (hslots slot hmem).elim (h.known slot) .inl
  gone id hmem := h.gone id (hbare id hmem)

/-- The network of one slot is another than before, and everything else that is known stays known. -/
theorem change (h : Inherited egress before entries world) (hids : before.ids.Nodup)
    (hresettled : Resettled slot.id settled entries entries') (hbefore : before.slots.Perm (slot :: rest))
    (hslots : ∀ other ∈ after.slots, other ∈ rest ∨ other.Known entries')
    (hbare : ∀ id ∈ after.bare, id ∈ before.bare ∨ settled = none ∧ id = slot.id) :
    Inherited egress after entries' (World.laid egress entries') := by
  obtain ⟨hslotIds, -, hapart⟩ := List.nodup_append.mp hids
  have hfirst := List.nodup_cons.mp ((hbefore.map Slot.id).nodup_iff.mp hslotIds)
  refine ⟨hresettled.nodup, rfl, fun other hmem => ?_, fun id hmem => ?_⟩
  · rcases hslots other hmem with hrest | hknown
    · have hother : other.id ≠ slot.id := fun heq => hfirst.1 (heq ▸ List.mem_map_of_mem hrest)
      exact hresettled.known hother (h.known other (hbefore.mem_iff.mpr (List.mem_cons_of_mem _ hrest)))
    · exact hknown
  · rcases hbare id hmem with hold | ⟨rfl, rfl⟩
    · have hother : id ≠ slot.id := fun heq => hapart slot.id
        (List.mem_map_of_mem (hbefore.mem_iff.mpr (List.mem_cons_self ..))) id hold heq.symm
      exact hresettled.absent_other hother (h.gone id hold)
    · exact hresettled.absent

end Inherited

/-- Every effect leaves the networks of the slots, and nothing else. A slot that has done nothing yet may have a
    network that was left behind, so that entries and slots need not agree in number. -/
theorem Effect.inherited {before after : Ledger} {state state' : σ} {entries : List (SlotId × Internet)}
    (heffect : Effect machine egress (.sound machine view egress) False before state after state')
    (hids : before.ids.Nodup) (h : Inherited egress before entries (view state)) :
    ∃ entries', Inherited egress after entries' (view state') := by
  cases heffect with
  | keep hallocator hslots hbare =>
    exact ⟨entries, h.congr (fun slot hmem => .inl (hslots.mem_iff.mp hmem)) fun id => hbare.mem_iff.mp⟩
  | @acquire choice id after hacquire hslots hbare =>
    refine ⟨entries, h.congr (fun slot hmem => ?_) fun id => hbare.mem_iff.mp⟩
    rcases List.mem_cons.mp (hslots.mem_iff.mp hmem) with rfl | hold
    · exact .inr rfl
    · exact .inl hold
  | @change slot slot' rest after state' hfate hallocator hbefore hslots hbare =>
    have hknown := h.known slot (hbefore.mem_iff.mpr (List.mem_cons_self ..))
    obtain ⟨entries', hresettled, hworld, hleft⟩ := hfate.resettles h.nodup h.world_eq hknown
    obtain ⟨hid, policy, hkeeps⟩ := hleft slot' rfl
    have hentry : (slot'.id, policy) ∈ entries' := hid ▸ (hresettled.own policy).mpr hkeeps.firewall
    refine ⟨entries', hworld ▸ h.change hids hresettled hbefore (fun other hmem => ?_)
      fun id hmem => .inl (hbare.mem_iff.mp hmem)⟩
    rcases List.mem_cons.mp (hslots.mem_iff.mp hmem) with rfl | hrest
    · exact .inr (.inr ⟨policy, hentry, hkeeps⟩)
    · exact .inl hrest
  | @lose slot rest after state' hfate hallocator hbefore hslots hbare =>
    have hknown := h.known slot (hbefore.mem_iff.mpr (List.mem_cons_self ..))
    obtain ⟨entries', hresettled, hworld, -⟩ := hfate.resettles h.nodup h.world_eq hknown
    refine ⟨entries', hworld ▸ h.change hids hresettled hbefore
      (fun other hmem => .inl (hslots.mem_iff.mp hmem)) fun id hmem => ?_⟩
    rcases List.mem_cons.mp (hbare.mem_iff.mp hmem) with rfl | hold
    · exact .inr ⟨rfl, rfl⟩
    · exact .inl hold
  | release hallocator hslots hbare =>
    exact ⟨entries, h.congr (fun slot hmem => .inl (hslots.mem_iff.mp hmem))
      fun other hmem => hbare.mem_iff.mpr (List.mem_cons_of_mem _ hmem)⟩
  | discard hallocator hslots hbare =>
    exact ⟨entries, h.congr (fun slot hmem => .inl (hslots.mem_iff.mpr (List.mem_cons_of_mem _ hmem)))
      fun id => hbare.mem_iff.mp⟩

/-- Nothing has failed until this stage. -/
def Stage.Sound : Stage → Prop
  | .unprepared _ _ | .unreset _ _ => False
  | stage => stage.Untroubled

namespace Pool

variable {pool pool' : Pool} {client : Client} {stage : Stage} {state state' : σ}

/-- Where jobs succeed, a task goes on soundly, or its request is over and has not failed. A slot is never
    removed for a failure then, only because there is no room for it or the pool is closed. -/
theorem Advance.sound (hadvance : Advance machine client pool state stage pool' state')
    (halive : pool.workerAlive = true) (hstage : stage.Sound)
    (hsucceeds : ∀ job slot, stage.job? = some (job, slot) → job.Succeeds machine pool.egress slot state)
    (hheld : ∀ id ∈ stage.bare, id.val ∈ pool.allocator.held) :
    (∃ next, pool'.tasks = (client, next) :: pool.tasks ∧ next.Sound ∧ pool'.finished = pool.finished) ∨
      ∃ outcome, pool'.tasks = pool.tasks ∧ pool'.finished = (client, outcome) :: pool.finished ∧
        outcome.error? = none := by
  have hanswered {α : Type} {job : Job} {program : SlotProgram α} {slot : Slot} {pool' : Pool} {state' : σ}
      (hsucceeds : job.Succeeds machine pool.egress slot state) (hdone : job.Done pool.egress program)
      (hstops : Unanswered machine program slot pool state pool' state') : False := by
    cases hstops with
    | gone hdead => simp [halive] at hdead
    | dies halive hrun => exact hsucceeds.ends hdone hrun
  -- a task goes on to a sound stage, and a request is over
  have hfollow {moved : Pool} {next : Stage} (htasks : moved.tasks = pool.tasks)
      (hfinished : moved.finished = pool.finished) (hnext : next.Sound) :
      (∃ next', (moved.follow client next).tasks = (client, next') :: pool.tasks ∧ next'.Sound ∧
        (moved.follow client next).finished = pool.finished) ∨
      ∃ outcome, (moved.follow client next).tasks = pool.tasks ∧
        (moved.follow client next).finished = (client, outcome) :: pool.finished ∧ outcome.error? = none :=
    .inl ⟨next, by rw [tasks_follow, htasks], hnext, hfinished⟩
  have hfinish {ended : Pool} {outcome : Outcome} (htasks : ended.tasks = pool.tasks)
      (hfinished : ended.finished = pool.finished) (herror : outcome.error? = none) :
      (∃ next, (ended.finish client outcome).tasks = (client, next) :: pool.tasks ∧ next.Sound ∧
        (ended.finish client outcome).finished = pool.finished) ∨
      ∃ outcome', (ended.finish client outcome).tasks = pool.tasks ∧
        (ended.finish client outcome).finished = (client, outcome') :: pool.finished ∧ outcome'.error? = none :=
    .inr ⟨outcome, htasks, congrArg _ hfinished, herror⟩
  cases hadvance with
  | receive => exact hfollow tasks_lower finished_lower trivial
  | prepare hrun => exact hfinish rfl rfl rfl
  | prepareFails hrun => exact ((hsucceeds _ _ rfl).prepare rfl hrun).elim
  | prepareStops hstops => exact (hanswered (hsucceeds _ _ rfl) (.prepare _) hstops).elim
  | discard => exact hstage.elim
  | reset hrun => exact hfollow rfl rfl trivial
  | resetFails hrun => exact ((hsucceeds _ _ rfl).release rfl hrun).elim
  | resetStops hstops => exact (hanswered (hsucceeds _ _ rfl) .release hstops).elim
  | giveUp => exact hstage.elim
  | announce => exact hfollow tasks_raise finished_raise trivial
  | enqueue hopen hroom => exact hfinish rfl rfl rfl
  | refuse hfull => exact hfollow rfl rfl trivial
  | overflow => exact hfollow tasks_lower finished_lower rfl
  | loseSlot => exact hstage.elim
  | remove hrun =>
    obtain rfl := (hsucceeds _ _ rfl).remove rfl hrun
    exact hfollow rfl rfl ⟨rfl, hstage⟩
  | removeStops hstops => exact (hanswered (hsucceeds _ _ rfl) .remove hstops).elim
  | @settle id failures purpose =>
    obtain ⟨rfl, hpurpose⟩ := hstage
    rw [(release_of_held (hheld id (List.mem_singleton_self _))).1]
    cases purpose with
    | putBack => exact hfinish (tasks_release _) (finished_release _) rfl
    | drain source earlier => exact hfollow (tasks_release _) (finished_release _) hpurpose
  | close => exact hfollow rfl rfl trivial
  | await hstopped => exact hfollow rfl rfl trivial
  | shut => exact hfollow rfl rfl rfl
  | @drain source failures slot rest hqueue =>
    exact hfollow (by cases source <;> rfl) (by cases source <;> rfl) hstage
  | turn hqueue => exact hfollow rfl rfl hstage
  | endClose hqueue =>
    obtain rfl := hstage
    exact hfinish rfl rfl rfl
  | takeOut => exact hfollow tasks_lower finished_lower hstage

end Pool
end SlotPool

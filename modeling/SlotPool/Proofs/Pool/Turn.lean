import SlotPool.Proofs.Pool.Opening
/-!
The turns of a service whose callers hand back only what they were given: each does one of the effects
to the ledger, and the interface that leads outside stays what it was.
-/

namespace SlotPool

variable {σ : Type} {machine : Machine σ}

namespace Pool

variable {client : Client} {pool pool' : Pool} {state state' : σ} {stage : Stage}

theorem egress_release (id : SlotId) : (pool.release id).2.egress = pool.egress := by
  rw [release_snd]

theorem egress_follow : (pool.follow client stage).egress = pool.egress := rfl

/-- No task changes the interface by which the pool leads outside. It is decided when the pool is opened. -/
theorem Advance.egress (hadvance : Advance machine client pool state stage pool' state') :
    pool'.egress = pool.egress := by
  have hlower (source : Source) : (pool.lower source).egress = pool.egress := by
    cases pool
    rfl
  have hraise (source : Source) : (pool.raise source).egress = pool.egress := by
    cases pool
    rfl
  cases hadvance with
  | receive => rw [egress_follow, hlower]
  | announce => rw [egress_follow, hraise]
  | overflow => rw [egress_follow, hlower]
  | takeOut => rw [egress_follow, hlower]
  | prepareStops hstops => cases hstops <;> rfl
  | resetStops hstops => cases hstops <;> rfl
  | removeStops hstops => cases hstops <;> rfl
  | discard => exact egress_release _
  | giveUp => exact egress_release _
  | loseSlot => exact egress_release _
  | @settle id failures purpose =>
    cases purpose with
    | putBack => exact egress_release id
    | drain source earlier =>
      simp only [afterRemoval]
      split <;> exact egress_release id
  | @drain source failures slot rest hqueue => cases source <;> rfl
  | _ => rfl

/-- No step changes the interface by which the pool leads outside, so all networks are made for the same one. -/
theorem Stepping.egress {move : Move} (hstepping : Stepping machine pool state move pool' state') :
    pool'.egress = pool.egress := by
  cases hstepping with
  | task hfind hadvance => exact hadvance.egress
  | populate hstocking =>
    cases hstocking with
    | discard hpopulate hcancelled => exact egress_release _
    | count hpopulate =>
      cases pool
      rfl
    | _ => rfl
  | waiter hwaiting =>
    cases hwaiting with
    | @serve waiter source slot rest hwaiter hclient hqueue => cases source <;> rfl
    | _ => rfl

/-- Nothing that happens to a pool changes the interface by which it leads outside, which was settled when it
    was opened. -/
theorem Turned.egress {event : Service.Event} (hturned : Turned machine pool state event pool' state') :
    pool'.egress = pool.egress := by
  cases hturned with
  | move hstepping => exact hstepping.egress
  | get hasking => cases hasking <;> rfl
  | close hasking => cases hasking <;> rfl
  | cancel | putBack | putBackNumber | lose | cancelLifetime => rfl

end Pool

namespace Service

variable {service applied after : Service σ} {event : Event} {size : Nat}
  {outcomes : List (Client × Outcome)}

/-- What callers do moves slots from place to place only, and leaves the machine alone. The work is done by the
    worker, in later steps. -/
theorem Applied.same (happlied : Applied machine service event applied) (hown : OwnSlots service event)
    (hmove : ∀ move, event ≠ .move move) (hunused : ∀ client ∈ event.request?, client ∉ service.strays) :
    applied.ledger.Same service.ledger ∧ applied.machine = service.machine := by
  cases happlied with
  | @move move => exact (hmove move rfl).elim
  | @stray client id => exact (hown client id rfl).elim
  | get hasking => exact ⟨asking_same hasking (hunused _ rfl), rfl⟩
  | handBack hgives hcallers =>
    obtain rfl := hgives.own hown
    exact ⟨(putBack_swap (hunused _ hgives.request?) hcallers).same, rfl⟩
  | lose hheld => exact ⟨lose_same hheld, rfl⟩
  | close hasking => exact ⟨askingToClose_same hasking (hunused _ rfl), rfl⟩
  | cancel | cancelLifetime => exact ⟨.refl _, rfl⟩

/-- Every turn does one of the effects. What callers do moves slots around only; what the pool does by itself is an
    effect of the step that it takes. -/
theorem Conserved.step_effect {permit : Permit σ} {vacant : Prop} (h : service.Conserved size)
    (hown : OwnSlots service event) (hnone : service.strays = [])
    (hstep : service.step machine event = some (outcomes, after))
    (hpermits : service.Permits permit event) (hvacant : service.pool.workerAlive = false → vacant) :
    Effect machine service.pool.egress permit vacant service.ledger service.machine after.ledger
        after.machine ∧
      after.pool.egress = service.pool.egress := by
  obtain ⟨-, applied, happlied, -, rfl⟩ := step_cases hstep
  refine ⟨?_, happlied.turned.egress⟩
  have hdelivered {state : σ}
      (heffect : Effect machine service.pool.egress permit vacant service.ledger service.machine
        applied.ledger state) :
      Effect machine service.pool.egress permit vacant service.ledger service.machine
        applied.deliver.2.ledger state :=
    heffect.perm (.refl _) deliver_same
  by_cases hmove : ∃ move, event = .move move
  · obtain ⟨move, rfl⟩ := hmove
    cases happlied with
    | move hstepping =>
      exact hdelivered (h.stepping_effect hstepping (fun client _ hmem => by simp [hnone] at hmem)
        hpermits hvacant)
    | handBack hgives => cases hgives
  · have hnoStrays (client : Client) (_ : client ∈ event.request?) :
        client ∉ (service.note event).strays := by
      rw [show (service.note event).strays = [] from hnone]
      simp
    have hnoted : OwnSlots (service.note event) event := hown
    obtain ⟨hsame, hmachine⟩ := happlied.same hnoted (fun move heq => hmove ⟨move, heq⟩) hnoStrays
    exact hdelivered (hmachine ▸ Effect.of_same hsame)

end Service
end SlotPool

import SlotPool.Proofs.Pool.Custody
/-!
A pool that was opened: its configuration was accepted, and nothing is in it.
-/

namespace SlotPool

variable {σ : Type}

/-- A configuration that was accepted asks for no more slots than the plan has. -/
theorem Config.maxSlots_le_of_validate {config : Config} (h : config.validate = .ok ()) :
    config.maxSlots ≤ planSize := by
  unfold validate at h
  split at h
  · cases h
  · split at h
    · cases h
    · split at h
      · cases h
      · omega

/-- What was decided when a pool was opened: the configuration is valid, the interface that leads outside was
    found, and the pool begins empty with as many identities as were asked for. -/
theorem Pool.openWith_ok {machine : Machine σ} {config : Config} {cancelled : Bool}
    {registry registry' : Registry} {state state' : σ} {pool : Pool}
    (h : openWith machine config cancelled registry state = (.ok (.ok pool), registry', state')) :
    config.validate = .ok () ∧ ∃ egress, egressFor machine config state = (some (.ok egress), state') ∧
      pool = opened config egress cancelled := by
  unfold openWith at h
  split at h
  · simp at h
  · rename_i hvalid
    refine ⟨hvalid, ?_⟩
    split at h
    · simp at h
    · simp at h
    · rename_i egress after hegress
      split at h
      · simp at h
      · split at h
        · simp at h
        · obtain ⟨rfl, -, rfl⟩ := by simpa using h
          exact ⟨egress, hegress, rfl⟩

/-- A configuration with room for two slots, one of either kind in stock. -/
def Config.small : Config where
  newSlots := 1
  reusedSlots := 1
  maxSlots := 2
  hostId := "host"
  netnsDir := "/var/run/netns"
  egressInterface := some "eth0"
  backoffMs := 100

theorem Pool.openWith_small (machine : Machine σ) (state : σ) :
    openWith machine .small false .empty state =
      (.ok (.ok (opened .small "eth0" false)), ⟨[("host", 0)], [("host", 0)]⟩, state) := rfl

namespace Service

/-- In a pool that was just opened every identity is free, and there is no slot anywhere. -/
theorem opened_conserved {config : Config} {egress : String} {cancelled : Bool} {state : σ}
    (hsize : config.maxSlots ≤ planSize) :
    (opened (Pool.opened config egress cancelled) state).Conserved config.maxSlots where
  filed := ⟨Pool.opened_filed config egress cancelled, by simp [opened], by simp [opened],
    by simp [opened]⟩
  balanced := ⟨Allocator.ofCapacity_complete _, .refl _⟩
  plan := ⟨rfl, hsize⟩
  astray := by simp [opened, Pool.opened]
  running := by simp [opened, Pool.opened]
  waiting := by simp [opened, Pool.opened]
  strays := by simp [opened]

theorem opened_slots {config : Config} {egress : String} {cancelled : Bool} {state : σ} :
    (opened (Pool.opened config egress cancelled) state).ledger.slots = [] := rfl

/-- Nothing is left in a pool of what came of requests, since callers are given it at once. -/
theorem Reaches.finished {machine : Machine σ} {allowed : Service σ → Event → Prop}
    {start service : Service σ} (hstart : start.pool.finished = [])
    (hreaches : Reaches machine allowed start service) : service.pool.finished = [] := by
  cases hreaches with
  | start => exact hstart
  | step hreaches hallowed hstep =>
    obtain ⟨-, applied, -, -, rfl⟩ := step_cases hstep
    rfl

/-- Where callers hand back only what they were given, no free identity is ever handed back. -/
theorem Reaches.noStrays {machine : Machine σ} {start service : Service σ} (hstart : start.strays = [])
    (hreaches : Reaches machine OwnSlots start service) : service.strays = [] := by
  induction hreaches with
  | start => exact hstart
  | @step service after event outcomes hreaches hallowed hstep ih =>
    obtain ⟨-, applied, happlied, -, rfl⟩ := step_cases hstep
    exact (happlied.strays fun client id => hallowed client id).trans ih

/-- Where callers hand back only what they were given, no request ever hands back a free identity, so the
    filling task cannot take one from under it. -/
theorem Reaches.sparesStrays {machine : Machine σ} {start service : Service σ}
    (hstart : start.strays = []) (hreaches : Reaches machine OwnSlots start service) :
    Reaches machine (SparesStrays machine) start service := by
  induction hreaches with
  | start => exact .start
  | step hreaches hallowed hstep ih =>
    refine ih.step (fun outcomes after slot _ _ => ?_) hstep
    simp [strayIds, hreaches.noStrays hstart]

/-- The events by which a first request gets a slot. -/
def firstRequest (policy : Internet) : List Event :=
  [.move (.populate 0), .move (.populate 0), .move (.populate 0), .get "first" policy false,
    .move (.waiter "first"), .move (.task "first"), .move (.task "first")]

end Service
end SlotPool

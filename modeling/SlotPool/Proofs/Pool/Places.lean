import SlotPool.Pool.Run
/-!
Where the slots of a pool are: in a queue, in the hand of the filling task, with a task, or on their
way to a caller. A task can also have a bare identity, when the slot is gone and the identity is still
to be released.
-/

namespace SlotPool

namespace Stage

/-- The slot that a task has. -/
def slots : Stage → List Slot
  | .received slot _ _ | .preparing slot _ | .resetting slot | .returning slot | .offering slot
  | .refused slot | .removing slot _ | .drained slot _ _ => [slot]
  | _ => []

/-- The identity that a task has without a slot. -/
def bare : Stage → List SlotId
  | .unprepared id _ | .unreset id _ | .lost id | .removed id _ _ => [id]
  | _ => []

/-- The identity that a task has, with or without a slot. -/
def ids (stage : Stage) : List SlotId := stage.slots.map Slot.id ++ stage.bare

end Stage

/-- The slot in the hand of the filling task. -/
def Populate.slots : Populate → List Slot
  | .holding slot | .counted slot => [slot]
  | _ => []

namespace Pool

/-- The slots among some outcomes, with the requests that brought them. -/
def slotsAmong (outcomes : List (Client × Outcome)) : List (Client × Slot) :=
  outcomes.filterMap fun entry =>
    match entry.2 with
    | .slot slot => some (entry.1, slot)
    | _ => none

/-- A slot is among the outcomes of a client just when the client's outcome is that slot. -/
theorem mem_slotsAmong {outcomes : List (Client × Outcome)} {client : Client} {slot : Slot} :
    (client, slot) ∈ slotsAmong outcomes ↔ (client, .slot slot) ∈ outcomes := by
  unfold slotsAmong
  rw [List.mem_filterMap]
  constructor
  · rintro ⟨⟨other, outcome⟩, hmem, heq⟩
    cases outcome with
    | slot given =>
      obtain ⟨rfl, rfl⟩ : other = client ∧ given = slot := by simpa using heq
      exact hmem
    | _ => cases heq
  · exact fun hmem => ⟨_, hmem, rfl⟩

/-- The slots that are in the pool but not with a task. -/
def stock (pool : Pool) : List Slot :=
  pool.newQueue ++ pool.reusedQueue ++ pool.populate.slots
    ++ (slotsAmong pool.finished).map (·.2)

/-- The slots that tasks have. -/
def slotsWith (tasks : List (Client × Stage)) : List Slot := tasks.flatMap (·.2.slots)

/-- The identities that tasks have without a slot. -/
def bareWith (tasks : List (Client × Stage)) : List SlotId := tasks.flatMap (·.2.bare)

section

variable {task : Client × Stage} {tasks tasks' : List (Client × Stage)}

@[simp]
theorem slotsWith_nil : slotsWith [] = [] := rfl

@[simp]
theorem slotsWith_cons : slotsWith (task :: tasks) = task.2.slots ++ slotsWith tasks := rfl

@[simp]
theorem slotsWith_append : slotsWith (tasks ++ tasks') = slotsWith tasks ++ slotsWith tasks' :=
  List.flatMap_append

@[simp]
theorem bareWith_nil : bareWith [] = [] := rfl

@[simp]
theorem bareWith_cons : bareWith (task :: tasks) = task.2.bare ++ bareWith tasks := rfl

@[simp]
theorem bareWith_append : bareWith (tasks ++ tasks') = bareWith tasks ++ bareWith tasks' :=
  List.flatMap_append

end

end Pool
end SlotPool

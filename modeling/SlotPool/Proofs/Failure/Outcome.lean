/-!
Operations in a row, of which each can fail. They succeed together exactly if each of them does.
-/

namespace SlotPool

variable {ε α β : Type} {value : β}

theorem bind_eq_ok_iff {first : Except ε α} {next : α → Except ε β} :
    first >>= next = .ok value ↔ ∃ between, first = .ok between ∧ next between = .ok value := by
  cases first with
  | error cause => simp [bind, Except.bind]
  | ok between => simp [bind, Except.bind]

theorem seq_eq_ok_iff {first : Except ε Unit} {next : Except ε β} :
    (do first; next) = .ok value ↔ first = .ok () ∧ next = .ok value := by
  rw [bind_eq_ok_iff]
  exact ⟨fun ⟨_, h⟩ => h, fun h => ⟨(), h⟩⟩

end SlotPool

import Mathlib.Data.List.Perm.Basic
import SlotPool.Allocator.Basic
/-!
An allocator in order: every identity below its capacity is either held or free, and is so once. Taking
and releasing identities keeps this.
-/

namespace SlotPool.Allocator

variable {allocator allocator' : Allocator} {identity choice : Nat}

/-- The identities that an allocator knows. -/
def known (allocator : Allocator) : List Nat := allocator.held ++ allocator.free

/-- Every identity below the capacity is held or free, and nothing else is. -/
def Complete (allocator : Allocator) : Prop :=
  (allocator.held ++ allocator.free).Perm (List.range allocator.capacity)

theorem ofCapacity_complete (capacity : Nat) : (ofCapacity capacity).Complete := .refl _

theorem Complete.nodup (h : allocator.Complete) : (allocator.held ++ allocator.free).Nodup :=
  (List.Perm.nodup_iff h).mpr List.nodup_range

theorem Complete.mem_iff (h : allocator.Complete) :
    identity ∈ allocator.held ∨ identity ∈ allocator.free ↔ identity < allocator.capacity := by
  rw [← List.mem_append, List.Perm.mem_iff h, List.mem_range]

/-- The free identities are those that are not held. -/
theorem Complete.mem_free_iff (h : allocator.Complete) :
    identity ∈ allocator.free ↔ identity < allocator.capacity ∧ identity ∉ allocator.held := by
  rw [← h.mem_iff]
  have hdisjoint := (List.nodup_append.mp h.nodup).2.2
  constructor
  · exact fun hfree => ⟨.inr hfree, fun hheld => hdisjoint _ hheld _ hfree rfl⟩
  · exact fun hboth => hboth.1.resolve_left hboth.2

/-- A permit is taken only if there is one, and nothing but the number of permits changes. -/
theorem takePermit?_eq_some_iff : allocator.takePermit? = some allocator' ↔
    0 < allocator.available ∧ { allocator with available := allocator.available - 1 } = allocator' := by
  unfold takePermit?
  split <;> simp_all

theorem takePermit?_eq_none_iff : allocator.takePermit? = none ↔ allocator.available = 0 := by
  unfold takePermit?
  split <;> simp <;> omega

/-- Taking an identity moves it from the free ones to the held ones. -/
theorem acquire?_spec (h : allocator.acquire? choice = some (identity, allocator')) :
    allocator.free.Perm (identity :: allocator'.free) ∧
      allocator'.held = identity :: allocator.held ∧ allocator'.capacity = allocator.capacity := by
  unfold acquire? at h
  split at h
  · cases h
  · obtain ⟨permitted, hpermit, hpick⟩ := Option.bind_eq_some_iff.mp h
    obtain ⟨-, rfl⟩ := takePermit?_eq_some_iff.mp hpermit
    simp only [pick] at hpick
    split at hpick
    · cases hpick
    · rename_i found hfound
      obtain ⟨hlt, rfl⟩ := List.getElem?_eq_some_iff.mp hfound
      obtain ⟨rfl, rfl⟩ := by simpa [Except.toOption] using hpick
      exact ⟨(List.getElem_cons_eraseIdx_perm hlt).symm, rfl, rfl⟩

theorem known_acquire (h : allocator.acquire? choice = some (identity, allocator')) :
    allocator'.known.Perm allocator.known := by
  obtain ⟨hfree, hheld, -⟩ := acquire?_spec h
  rw [known, hheld]
  exact List.perm_middle.symm.trans (hfree.symm.append_left _)

theorem free_acquire (h : allocator.acquire? choice = some (identity, allocator')) :
    allocator.free.length = allocator'.free.length + 1 :=
  (acquire?_spec h).1.length_eq

theorem Complete.acquire (h : allocator.Complete)
    (hacquire : allocator.acquire? choice = some (identity, allocator')) : allocator'.Complete := by
  unfold Complete
  rw [(acquire?_spec hacquire).2.2]
  exact (known_acquire hacquire).trans h

/-- Whether an identity can be taken does not depend on the choice. -/
theorem acquire?_eq_none_iff : allocator.acquire? choice = none ↔
    allocator.closed = true ∨ allocator.available = 0 ∨ allocator.free = [] := by
  by_cases hclosed : allocator.closed = true
  · simp [acquire?, hclosed]
  · by_cases havailable : allocator.available = 0
    · simp [acquire?, hclosed, havailable, takePermit?]
    · by_cases hfree : allocator.free = []
      · simp [acquire?, takePermit?, pick, hfree, Except.toOption]
      · have hposition : choice % allocator.free.length < allocator.free.length :=
          Nat.mod_lt _ (List.length_pos_iff.mpr hfree)
        simp [acquire?, hclosed, takePermit?, Nat.pos_of_ne_zero havailable, havailable, pick, hfree,
          List.getElem?_eq_getElem hposition, Except.toOption]

/-- An identity that is held is taken off the held ones and put in front of the free ones, and a permit comes
    with it. -/
theorem release_of_mem (h : identity ∈ allocator.held) :
    allocator.release identity = .ok
      { allocator with
        free := identity :: allocator.free
        held := allocator.held.erase identity
        available := allocator.available + 1 } := by
  simp [release, giveBack, h, Except.map, addPermit]

theorem release_of_not_mem (h : identity ∉ allocator.held) :
    allocator.release identity = .error (.notHeld identity) := by
  simp [release, giveBack, h, Except.map]

/-- A release takes no identity off the free ones, whatever comes of it. -/
theorem mem_free_of_release {other : Nat} (h : other ∈ allocator.free) :
    other ∈ ((allocator.release identity).toOption.getD allocator).free := by
  by_cases hheld : identity ∈ allocator.held
  · rw [release_of_mem hheld]
    exact List.mem_cons_of_mem _ h
  · rw [release_of_not_mem hheld]
    exact h

/-- A release invents no identity and loses none: one that is not held is refused, and then nothing changes. -/
theorem known_release :
    ((allocator.release identity).toOption.getD allocator).known.Perm allocator.known := by
  by_cases hheld : identity ∈ allocator.held
  · rw [release_of_mem hheld]
    exact List.perm_middle.trans ((List.perm_cons_erase hheld).symm.append_right _)
  · rw [release_of_not_mem hheld]
    exact .refl _

/-- At most one identity becomes free by a release. -/
theorem free_release :
    ((allocator.release identity).toOption.getD allocator).free.length ≤ allocator.free.length + 1 := by
  by_cases hheld : identity ∈ allocator.held
  · rw [release_of_mem hheld]
    exact Nat.le_refl _
  · rw [release_of_not_mem hheld]
    exact Nat.le_succ _

theorem Complete.release (h : allocator.Complete) (hheld : identity ∈ allocator.held) :
    ((allocator.release identity).toOption.getD allocator).Complete := by
  have hknown : ((allocator.release identity).toOption.getD allocator).known.Perm allocator.known := known_release
  rw [release_of_mem hheld] at hknown ⊢
  exact hknown.trans h

end SlotPool.Allocator

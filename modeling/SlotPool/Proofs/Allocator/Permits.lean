import SlotPool.Allocator.Line
import SlotPool.Proofs.Allocator.Complete
import SlotPool.Proofs.Slot.Record
/-!
The permits of an allocator with clients in line. Permits and identities are changed at different
moments, but whoever has a permit finds a free identity: the permits that nobody has taken, those that
were granted and those that are about to be used are together as many as the free identities.
-/

namespace SlotPool

/-- An identity that can be picked is free, and becomes held. -/
theorem Allocator.pick_spec {allocator allocator' : Allocator} {identity choice : Nat}
    (h : allocator.pick choice = .ok (identity, allocator')) :
    allocator.free.Perm (identity :: allocator'.free) ∧
      allocator' = { allocator with
        free := allocator'.free
        held := identity :: allocator.held } := by
  simp only [pick] at h
  split at h
  · cases h
  · rename_i found hfound
    obtain ⟨hlt, rfl⟩ := List.getElem?_eq_some_iff.mp hfound
    obtain ⟨rfl, rfl⟩ := by simpa using h
    exact ⟨(List.getElem_cons_eraseIdx_perm hlt).symm, rfl⟩

/-- Where something is free, it can be picked. -/
theorem Allocator.pick_of_free {allocator : Allocator} (choice : Nat) (h : allocator.free ≠ []) :
    ∃ picked, allocator.pick choice = .ok picked := by
  have hlt : choice % allocator.free.length < allocator.free.length :=
    Nat.mod_lt _ (List.length_pos_iff.mpr h)
  simp only [pick, List.getElem?_eq_getElem hlt]
  exact ⟨_, rfl⟩

namespace Line

/-- An allocator of the given capacity whose identities are complete, with a permit for each free one. -/
structure Permitted (line : Line) (capacity : Nat) : Prop where
  complete : line.allocator.Complete
  capacity_eq : line.allocator.capacity = capacity
  permits : line.allocator.available + line.granted.length + line.picking.length =
    line.allocator.free.length

variable {line : Line} {capacity identity choice : Nat} {client : Client}

theorem ofCapacity_permitted (capacity : Nat) : (ofCapacity capacity).Permitted capacity where
  complete := Allocator.ofCapacity_complete capacity
  capacity_eq := rfl
  permits := by simp [ofCapacity, Allocator.ofCapacity]

theorem Permitted.finish {result : Except AllocatorError Nat} (h : line.Permitted capacity) :
    (line.finish client result).Permitted capacity :=
  ⟨h.complete, h.capacity_eq, h.permits⟩

/-- A permit that is given back goes to the first in line or to the allocator. -/
theorem passPermit_permitted (hcomplete : line.allocator.Complete)
    (hcapacity : line.allocator.capacity = capacity)
    (hpermits : line.allocator.available + line.granted.length + line.picking.length + 1 =
      line.allocator.free.length) : line.passPermit.Permitted capacity := by
  unfold passPermit
  split
  · refine ⟨hcomplete, hcapacity, ?_⟩
    simp only [Allocator.addPermit]
    omega
  · refine ⟨hcomplete, hcapacity, ?_⟩
    simp only [List.length_append, List.length_singleton]
    omega

/-- A client takes a permit or joins the line. In either case the number of permits, taken or not, stays the
    same. -/
theorem Permitted.start {cancelled : Bool} (h : line.Permitted capacity) :
    (line.start client cancelled).Permitted capacity := by
  unfold Line.start
  split
  · exact h.finish
  · split
    · exact h.finish
    · split
      · rename_i allocator hpermit
        obtain ⟨hsome, rfl⟩ := Allocator.takePermit?_eq_some_iff.mp hpermit
        have hpermits := h.permits
        refine ⟨h.complete, h.capacity_eq, ?_⟩
        simp only [List.length_append, List.length_singleton]
        omega
      · exact ⟨h.complete, h.capacity_eq, h.permits⟩

/-- A client that wakes up goes from those with a permit to those about to pick. -/
theorem Permitted.wake (h : line.Permitted capacity) : (line.wake client).Permitted capacity := by
  unfold Line.wake
  split
  · rename_i hmem
    have hpermits := h.permits
    have hlength := List.length_erase_of_mem hmem
    have hpositive := List.length_pos_of_mem hmem
    dsimp only
    split
    · refine passPermit_permitted h.complete h.capacity_eq ?_
      simp only [Line.finish]
      omega
    · refine ⟨h.complete, h.capacity_eq, ?_⟩
      simp only [List.length_append, List.length_singleton]
      omega
  · exact h

/-- Whoever is about to pick finds a free identity. -/
theorem Permitted.free_ne_nil (h : line.Permitted capacity) (hmem : client ∈ line.picking) :
    line.allocator.free ≠ [] := by
  have hpermits := h.permits
  have hpositive := List.length_pos_of_mem hmem
  intro hnil
  rw [hnil, List.length_nil] at hpermits
  omega

/-- A client with a permit gets an identity that was free, and nothing else changes. -/
theorem Permitted.pick_ok (h : line.Permitted capacity) (choice : Nat)
    (hmem : client ∈ line.picking) : ∃ identity allocator',
      line.allocator.pick choice = .ok (identity, allocator') ∧
      line.pick client choice = { line with
        picking := line.picking.erase client
        allocator := allocator'
        finished := (client, .ok identity) :: line.finished } := by
  obtain ⟨⟨identity, allocator'⟩, hpick⟩ := Allocator.pick_of_free choice (h.free_ne_nil hmem)
  refine ⟨identity, allocator', hpick, ?_⟩
  simp only [Line.pick, if_pos hmem, hpick]
  rfl

/-- With one permit used and one identity taken, permits and free identities still match. That there is an
    identity to take is what matching permits are for. -/
theorem Permitted.pick (h : line.Permitted capacity) :
    (line.pick client choice).Permitted capacity := by
  by_cases hmem : client ∈ line.picking
  · obtain ⟨identity, allocator', hpick, hline⟩ := h.pick_ok choice hmem
    obtain ⟨hfree, hsame⟩ := Allocator.pick_spec hpick
    have hpermits := h.permits
    have hlength := List.length_erase_of_mem hmem
    have hpositive := List.length_pos_of_mem hmem
    have hfreeLength := hfree.length_eq
    rw [hline]
    refine ⟨?_, ?_, ?_⟩
    · have hmoved : (identity :: line.allocator.held ++ allocator'.free).Perm
          (line.allocator.held ++ line.allocator.free) :=
        List.perm_middle.symm.trans (hfree.symm.append_left _)
      rw [hsame]
      exact hmoved.trans h.complete
    · rw [hsame]
      exact h.capacity_eq
    · rw [hsame]
      simp only [List.length_cons] at hfreeLength ⊢
      omega
  · simpa only [Line.pick, if_neg hmem] using h

/-- A permit that was granted to a client who is cancelled is not lost: it goes to the next in line or back to
    the allocator. -/
theorem Permitted.cancel (h : line.Permitted capacity) :
    (line.cancel client).Permitted capacity := by
  unfold Line.cancel
  split
  · exact ⟨h.complete, h.capacity_eq, h.permits⟩
  · split
    · rename_i hmem
      have hpermits := h.permits
      have hlength := List.length_erase_of_mem hmem
      have hpositive := List.length_pos_of_mem hmem
      refine passPermit_permitted h.complete h.capacity_eq ?_
      simp only [Line.finish]
      omega
    · exact h

/-- An identity comes back, and with it one permit. -/
theorem Permitted.release {after : Line} (h : line.Permitted capacity)
    (hrelease : line.release identity = .ok after) : after.Permitted capacity := by
  unfold Line.release Allocator.giveBack at hrelease
  split at hrelease
  · rename_i hheld
    obtain rfl := by simpa [Except.map] using hrelease
    have hpermits := h.permits
    have hmove : (line.allocator.held.erase identity ++ identity :: line.allocator.free).Perm
        (line.allocator.held ++ line.allocator.free) :=
      List.perm_middle.trans ((List.perm_cons_erase hheld).symm.append_right _)
    refine passPermit_permitted (hmove.trans h.complete) h.capacity_eq ?_
    simp only [List.length_cons]
    omega
  · simp [Except.map] at hrelease

/-- Sending clients away takes no permit. -/
theorem finishAll_permitted {clients : List Client} (h : line.Permitted capacity) :
    (clients.foldl (fun line client => line.finish client (.error .closed)) line).Permitted
      capacity := by
  induction clients generalizing line with
  | nil => exact h
  | cons client clients ih => exact ih h.finish

theorem Permitted.close (h : line.Permitted capacity) : line.close.Permitted capacity :=
  finishAll_permitted ⟨h.complete, h.capacity_eq, h.permits⟩

/-- Every event keeps the balance of permits and free identities. -/
theorem Permitted.apply (h : line.Permitted capacity) (event : Event) :
    (line.apply event).Permitted capacity := by
  cases event with
  | start client cancelled => exact h.start
  | wake client => exact h.wake
  | pick client choice => exact h.pick
  | cancel client => exact h.cancel
  | release identity =>
    cases hrelease : line.release identity with
    | ok after =>
      rw [Line.apply, hrelease]
      exact h.release hrelease
    | error refusal =>
      rw [Line.apply, hrelease]
      exact h
  | close => exact h.close

theorem Permitted.run (h : line.Permitted capacity) (events : List Event) :
    (events.foldl Line.apply line).Permitted capacity := by
  induction events generalizing line with
  | nil => exact h
  | cons event events ih => exact ih (h.apply event)

/-- A release is refused exactly when nobody holds the identity, and changes nothing then. -/
theorem release_eq_error_iff :
    line.release identity = .error (.notHeld identity) ↔ identity ∉ line.allocator.held := by
  unfold Line.release Allocator.giveBack
  split <;> simp_all [Except.map]

theorem passPermit_finished : line.passPermit.finished = line.finished := by
  unfold passPermit
  split <;> rfl

/-- Clients that are sent away have all ended, each with the news that the allocator is closed. -/
theorem finishAll_finished {clients : List Client} :
    (clients.foldl (fun line client => line.finish client (.error .closed)) line).finished =
      (clients.map fun client => (client, .error .closed)).reverse ++ line.finished := by
  induction clients generalizing line with
  | nil => rfl
  | cons client clients ih =>
    rw [List.foldl_cons, ih]
    simp [Line.finish]

/-- An event adds outcomes in front of the earlier ones. Only a pick gives an identity to a client. -/
theorem Permitted.apply_finished (h : line.Permitted capacity) (event : Event) :
    ∃ ended, (line.apply event).finished = ended ++ line.finished ∧
      ∀ client identity, (client, .ok identity) ∈ ended → ∃ choice allocator',
        line.allocator.pick choice = .ok (identity, allocator') ∧
        (line.apply event).allocator = allocator' := by
  have hnobody {ended : List (Client × Except AllocatorError Nat)} {after : Line}
      (hended : ∀ entry ∈ ended, ∃ refusal, entry.2 = .error refusal) :
      ∀ client identity, (client, .ok identity) ∈ ended → ∃ choice allocator',
        line.allocator.pick choice = .ok (identity, allocator') ∧ after.allocator = allocator' := by
    intro client identity hmem
    obtain ⟨refusal, hrefusal⟩ := hended _ hmem
    cases hrefusal
  cases event with
  | start client cancelled =>
    simp only [Line.apply, Line.start]
    split
    · exact ⟨[(client, .error .cancelled)], rfl, hnobody (by simp)⟩
    · split
      · exact ⟨[(client, .error .closed)], rfl, hnobody (by simp)⟩
      · split <;> exact ⟨[], rfl, hnobody (by simp)⟩
  | wake client =>
    simp only [Line.apply, Line.wake]
    split
    · split
      · refine ⟨[(client, .error .closed)], ?_, hnobody (by simp)⟩
        rw [passPermit_finished]
        rfl
      · exact ⟨[], rfl, hnobody (by simp)⟩
    · exact ⟨[], rfl, hnobody (by simp)⟩
  | pick client choice =>
    by_cases hmem : client ∈ line.picking
    · obtain ⟨identity, allocator', hpick, hline⟩ := h.pick_ok choice hmem
      refine ⟨[(client, .ok identity)], by rw [Line.apply, hline]; rfl, ?_⟩
      intro other found hfound
      obtain ⟨rfl, rfl⟩ : other = client ∧ found = identity := by simpa using hfound
      exact ⟨choice, allocator', hpick, by rw [Line.apply, hline]⟩
    · exact ⟨[], by rw [Line.apply, Line.pick, if_neg hmem]; rfl, hnobody (by simp)⟩
  | cancel client =>
    simp only [Line.apply, Line.cancel]
    split
    · exact ⟨[(client, .error .cancelled)], rfl, hnobody (by simp)⟩
    · split
      · refine ⟨[(client, .error .cancelled)], ?_, hnobody (by simp)⟩
        rw [passPermit_finished]
        rfl
      · exact ⟨[], rfl, hnobody (by simp)⟩
  | release identity =>
    refine ⟨[], ?_, hnobody (by simp)⟩
    rw [Line.apply, Line.release]
    cases line.allocator.giveBack identity with
    | ok allocator => exact passPermit_finished
    | error refusal => rfl
  | close =>
    refine ⟨_, finishAll_finished, hnobody ?_⟩
    simp

end Line
end SlotPool

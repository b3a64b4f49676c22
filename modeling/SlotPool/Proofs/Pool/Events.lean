import SlotPool.Proofs.Pool.Service
import SlotPool.Proofs.Pool.Steps
/-!
What an event can lead to: for the pool alone, and for the pool together with what its callers have. All that
holds of a service whatever happens is proved by going through these cases.
-/

namespace SlotPool

variable {σ : Type}

namespace Pool

/-- What an event makes of a pool, before the outcomes of requests are handed over. -/
inductive Turned (machine : Machine σ) (pool : Pool) (state : σ) : Service.Event → Pool → σ → Prop
  | move {move pool' state'} (hstepping : Stepping machine pool state move pool' state') :
      Turned machine pool state (.move move) pool' state'
  | get {client policy cancelled pool'} (hasking : Asking client policy cancelled pool pool') :
      Turned machine pool state (.get client policy cancelled) pool' state
  | cancel {client} : Turned machine pool state (.cancel client) (pool.cancel client) state
  | putBack {client entry} :
      Turned machine pool state (.putBack client entry) (pool.putBack client entry.2) state
  | putBackNumber {client id} :
      Turned machine pool state (.putBackNumber client id) (pool.putBack client (.fresh id)) state
  | lose {entry} : Turned machine pool state (.lose entry) pool state
  | close {client pool'} (hasking : AskingToClose client pool pool') :
      Turned machine pool state (.close client) pool' state
  | cancelLifetime : Turned machine pool state .cancelLifetime pool.cancelLifetime state

end Pool

namespace Service

variable {machine : Machine σ} {service applied after : Service σ} {event : Event}
  {outcomes : List (Client × Outcome)}

/-- The ways to hand back the slot of an entry: the slot itself, or one made from its number alone. -/
inductive Event.HandsBack (client : Client) (entry : Client × Slot) : Event → Slot → Prop
  | slot : HandsBack client entry (.putBack client entry) entry.2
  | number : HandsBack client entry (.putBackNumber client entry.2.id) (.fresh entry.2.id)

theorem Event.HandsBack.id {client : Client} {entry : Client × Slot} {given : Slot}
    (h : event.HandsBack client entry given) : given.id = entry.2.id := by
  cases h <;> rfl

theorem Event.HandsBack.request? {client : Client} {entry : Client × Slot} {given : Slot}
    (h : event.HandsBack client entry given) : event.request? = some client := by
  cases h <;> rfl

/-- Who hands back only what it was given hands back the slot itself. -/
theorem Event.HandsBack.own {client : Client} {entry : Client × Slot} {given : Slot}
    (h : event.HandsBack client entry given) (hown : OwnSlots service event) : given = entry.2 := by
  cases h with
  | slot => rfl
  | number => exact (hown client entry.2.id rfl).elim

/-- What an event makes of a service, before the outcomes of requests are handed over. A slot that is handed back
    is no longer among those that callers have or have lost; one made from a number that nobody has is noted. -/
inductive Applied (machine : Machine σ) (service : Service σ) : Event → Service σ → Prop
  | move {move pool state} (hstepping : Pool.Stepping machine service.pool service.machine move pool state) :
      Applied machine service (.move move) { service with pool, machine := state }
  | get {client policy cancelled pool} (hasking : Pool.Asking client policy cancelled service.pool pool) :
      Applied machine service (.get client policy cancelled)
        { service.withPool pool with asked := (client, policy) :: service.asked }
  | cancel {client} : Applied machine service (.cancel client) (service.withPool (service.pool.cancel client))
  | handBack {event client entry given held lost} (hgives : event.HandsBack client entry given)
      (hcallers : (service.held ++ service.lost).Perm (entry :: (held ++ lost)))
      (hheld : held.Sublist service.held) (hlost : lost.Sublist service.lost) :
      Applied machine service event
        { service.withPool (service.pool.putBack client given) with held, lost }
  | stray {client id} (hnobody : ∀ entry ∈ service.held ++ service.lost, entry.2.id ≠ id)
      (hfree : id.val ∈ service.pool.allocator.free) :
      Applied machine service (.putBackNumber client id)
        { service.withPool (service.pool.putBack client (.fresh id)) with strays := client :: service.strays }
  | lose {entry} (hheld : entry ∈ service.held) :
      Applied machine service (.lose entry)
        { service with held := service.held.erase entry, lost := entry :: service.lost }
  | close {client pool} (hasking : Pool.AskingToClose client service.pool pool) :
      Applied machine service (.close client) (service.withPool pool)
  | cancelLifetime :
      Applied machine service .cancelLifetime (service.withPool service.pool.cancelLifetime)

/-- Taking the first entry with a given identity out of a list. -/
theorem perm_eraseP_id {entries : List (Client × Slot)} {id : SlotId} (hid : id ∈ entries.map (·.2.id)) :
    ∃ found : Client × Slot, found.2.id = id ∧ entries.Perm (found :: entries.eraseP (·.2.id = id)) := by
  obtain ⟨entry, hentry, rfl⟩ := List.mem_map.mp hid
  obtain ⟨found, before, behind, -, hfound, hentries, herase⟩ :=
    List.exists_of_eraseP (p := (·.2.id = entry.2.id)) hentry (by simp)
  rw [herase, hentries]
  exact ⟨found, by simpa using hfound, List.perm_middle⟩

/-- Every event that can happen leads to one of these. The cases of `Service.apply` are gone through here once,
    and whatever an event may bring about is read off the relation from then on. -/
theorem apply_cases (h : service.apply machine event = some applied) : Applied machine service event applied := by
  cases event with
  | move move =>
    obtain ⟨⟨pool, state⟩, hstep, rfl⟩ := Option.map_eq_some_iff.mp h
    exact .move (Pool.step_cases hstep)
  | get client policy cancelled =>
    obtain rfl := by simpa [Service.apply] using h
    exact .get (Pool.get_cases client policy cancelled service.pool)
  | cancel client =>
    obtain rfl := by simpa [Service.apply] using h
    exact .cancel
  | putBack client entry =>
    obtain ⟨hheld, rfl⟩ := by simpa [Service.apply] using h
    exact .handBack .slot ((List.perm_cons_erase hheld).append_right _) List.erase_sublist (.refl _)
  | lose entry =>
    obtain ⟨hheld, rfl⟩ := by simpa [Service.apply] using h
    exact .lose hheld
  | putBackNumber client id =>
    simp only [Service.apply] at h
    split at h
    · rename_i hhas
      obtain rfl := by simpa using h
      obtain ⟨found, rfl, hperm⟩ := perm_eraseP_id hhas
      exact .handBack .number (hperm.append_right _) List.eraseP_sublist (.refl _)
    · rename_i hhasNot
      split at h
      · rename_i hlost
        obtain rfl := by simpa using h
        obtain ⟨found, rfl, hperm⟩ := perm_eraseP_id hlost
        exact .handBack .number ((hperm.append_left service.held).trans List.perm_middle) (.refl _)
          List.eraseP_sublist
      · rename_i hlostNot
        split at h
        · rename_i hfree
          obtain rfl := by simpa using h
          refine .stray (fun entry hentry hid => ?_) hfree
          rcases List.mem_append.mp hentry with hheld | hlost
          · exact hhasNot (List.mem_map.mpr ⟨entry, hheld, hid⟩)
          · exact hlostNot (List.mem_map.mpr ⟨entry, hlost, hid⟩)
        · cases h
  | close client =>
    obtain rfl := by simpa [Service.apply] using h
    exact .close (Pool.close_cases client service.pool)
  | cancelLifetime =>
    obtain rfl := by simpa [Service.apply] using h
    exact .cancelLifetime

/-- What an event makes of the pool of a service depends on the pool and the machine alone. What callers have,
    and what they may hand back, is a matter of the service. -/
theorem Applied.turned (h : Applied machine service event applied) :
    Pool.Turned machine service.pool service.machine event applied.pool applied.machine := by
  cases h with
  | move hstepping => exact .move hstepping
  | get hasking => exact .get hasking
  | cancel => exact .cancel
  | handBack hgives =>
    cases hgives with
    | slot => exact .putBack
    | number => exact .putBackNumber
  | stray => exact .putBackNumber
  | lose => exact .lose
  | close hasking => exact .close hasking
  | cancelLifetime => exact .cancelLifetime

/-- No event changes the names that are taken. -/
theorem Applied.named (h : Applied machine service event applied) : applied.named = service.named := by
  cases h <;> rfl

/-- Only a caller who makes up a slot can hand back an identity that is free. -/
theorem Applied.strays (h : Applied machine service event applied) (hown : OwnSlots service event) :
    applied.strays = service.strays := by
  cases h with
  | @stray client id => exact (hown client id rfl).elim
  | _ => rfl

/-- A step notes the name of a request, changes the service, and hands over what is finished. -/
theorem step_cases (h : service.step machine event = some (outcomes, after)) :
    (∀ client ∈ event.request?, client ∉ service.named) ∧
      ∃ applied, Applied machine (service.note event) event applied ∧
        outcomes = applied.pool.finished.reverse ∧ after = applied.deliver.2 := by
  unfold step at h
  split at h
  · cases h
  · rename_i hfresh
    obtain ⟨applied, happly, hdeliver⟩ := Option.map_eq_some_iff.mp h
    refine ⟨fun client hclient hnamed => hfresh ⟨client, hclient, hnamed⟩, applied, apply_cases happly, ?_⟩
    exact ⟨congrArg Prod.fst hdeliver.symm, congrArg Prod.snd hdeliver.symm⟩

/-- What a turn makes of the pool. The outcomes are then taken out of it. -/
theorem step_turned (hstep : service.step machine event = some (outcomes, after)) :
    ∃ pool, Pool.Turned machine service.pool service.machine event pool after.machine ∧
      after.pool = { pool with finished := [] } ∧ outcomes = pool.finished.reverse := by
  obtain ⟨-, applied, happlied, houtcomes, rfl⟩ := step_cases hstep
  exact ⟨applied.pool, happlied.turned, rfl, houtcomes⟩

end Service
end SlotPool

import SlotPool.Proofs.Pool.Turn
import SlotPool.Proofs.Slot.Laid
/-!
What the slots of a pool come to on the machine. While no guard fails and nothing fails that is undone, the
machine has the complete networks of the slots that the pool knows to stand, and nothing else.
-/

namespace SlotPool

open Sequence

variable {σ : Type} {machine : Machine σ} {view : σ → World} {egress : String}

/-- A job is done without a failure while the thread is taken back or the network of its slot is undone, and
    without the death of the worker. A firewall is only reset where there is one. -/
def Permit.spared (machine : Machine σ) (view : σ → World) (egress : String) : Permit σ :=
  fun job slot state => ∀ {α : Type} {program : SlotProgram α}, job.Done egress program →
    (program.run slot).Spared .homing machine view egress state

/-- What a slot comes to on the machine: nothing, or its network under a policy. -/
def Slot.entry? (slot : Slot) : Option (SlotId × Internet) := slot.firewall.map (slot.id, ·)

theorem filterMap_entry?_fresh {slots : List Slot} (h : ∀ slot ∈ slots, slot = .fresh slot.id) :
    slots.filterMap Slot.entry? = [] :=
  List.filterMap_eq_nil_iff.mpr fun slot hmem => by rw [h slot hmem]; rfl

/-- Where every slot remembers a policy, the entries list all of them: each identity stands there with the
    policy that its slot remembers, in the same order. -/
theorem map_filterMap_entry? {slots : List Slot} (h : ∀ slot ∈ slots, slot.firewall ≠ none) :
    ((slots.filterMap Slot.entry?).map fun entry => (entry.1, some entry.2)) =
      slots.map fun slot => (slot.id, slot.firewall) := by
  rw [List.map_filterMap, ← List.filterMap_eq_map]
  refine List.filterMap_congr fun slot hmem => ?_
  obtain ⟨policy, hpolicy⟩ := Option.ne_none_iff_exists'.mp (h slot hmem)
  simp [Slot.entry?, hpolicy]

/-- The machine has the networks of the slots that stand, made in some order, and nothing else. The other
    slots are fresh. -/
structure Accounted (egress : String) (slots : List Slot) (world : World) : Prop where
  known : ∀ slot ∈ slots, slot = .fresh slot.id ∨ ∃ policy, slot = .standing slot.id policy
  laid : ∃ entries, entries.Perm (slots.filterMap Slot.entry?) ∧ world = World.laid egress entries

namespace Accounted

variable {slots slots' rest : List Slot} {slot : Slot} {id : SlotId} {policy : Internet} {world : World}

/-- The identities of the entries are those of some of the slots, in the same order. So they are distinct when
    the slots are. -/
theorem fst_entries_sublist : ((slots.filterMap Slot.entry?).map Prod.fst).Sublist (slots.map Slot.id) := by
  induction slots with
  | nil => exact .refl _
  | cons slot slots ih =>
    cases hentry : slot.entry? with
    | none =>
      rw [List.filterMap_cons_none hentry]
      exact ih.cons _
    | some entry =>
      obtain ⟨policy, -, rfl⟩ := Option.map_eq_some_iff.mp hentry
      rw [List.filterMap_cons_some hentry]
      exact ih.cons_cons _

theorem nodup_entries {entries : List (SlotId × Internet)} (hids : (slots.map Slot.id).Nodup)
    (hperm : entries.Perm (slots.filterMap Slot.entry?)) : (entries.map Prod.fst).Nodup :=
  (hperm.map Prod.fst).nodup_iff.mpr (fst_entries_sublist.nodup hids)

theorem perm (h : Accounted egress slots world) (hperm : slots'.Perm slots) :
    Accounted egress slots' world where
  known slot hmem := h.known slot (hperm.mem_iff.mp hmem)
  laid := by
    obtain ⟨entries, hentries, hworld⟩ := h.laid
    exact ⟨entries, hentries.trans (hperm.symm.filterMap _), hworld⟩

/-- Fresh slots come to nothing. -/
theorem cons_fresh : Accounted egress (.fresh id :: slots) world ↔ Accounted egress slots world := by
  constructor
  · exact fun h => ⟨fun slot hmem => h.known slot (List.mem_cons_of_mem _ hmem), h.laid⟩
  · refine fun h => ⟨fun slot hmem => ?_, h.laid⟩
    rcases List.mem_cons.mp hmem with rfl | hold
    · exact .inl rfl
    · exact h.known slot hold

/-- A slot that stands is accounted for by the one entry that is laid for it, beside the entries of the other
    slots. -/
theorem cons_standing {entries : List (SlotId × Internet)}
    (hrest : ∀ slot ∈ rest, slot = .fresh slot.id ∨ ∃ policy, slot = .standing slot.id policy)
    (hentries : entries.Perm ((id, policy) :: rest.filterMap Slot.entry?)) :
    Accounted egress (.standing id policy :: rest) (World.laid egress entries) where
  known slot hmem := by
    rcases List.mem_cons.mp hmem with rfl | hold
    · exact .inr ⟨policy, rfl⟩
    · exact hrest slot hold
  laid := ⟨entries, hentries, rfl⟩

/-- The network of a slot that stands is one of those on the machine. -/
theorem split (h : Accounted egress (.standing id policy :: rest) world)
    (hids : ((Slot.standing id policy :: rest).map Slot.id).Nodup) :
    ∃ before after, world = World.laid egress (before ++ (id, policy) :: after) ∧
      ((before ++ (id, policy) :: after).map Prod.fst).Nodup ∧
      (before ++ after).Perm (rest.filterMap Slot.entry?) := by
  obtain ⟨entries, hentries, rfl⟩ := h.laid
  have hnodup := nodup_entries hids hentries
  have hentries' : entries.Perm ((id, policy) :: rest.filterMap Slot.entry?) := hentries
  obtain ⟨before, after, rfl⟩ := List.append_of_mem (hentries'.mem_iff.mpr (List.mem_cons_self ..))
  exact ⟨before, after, rfl, hnodup, (List.perm_cons _).mp (List.perm_middle.symm.trans hentries')⟩

/-- A fresh slot is none of those on the machine. -/
theorem apart (h : Accounted egress (.fresh id :: rest) world)
    (hids : ((Slot.fresh id :: rest).map Slot.id).Nodup) :
    ∃ entries, world = World.laid egress entries ∧ (entries.map Prod.fst).Nodup ∧
      id ∉ entries.map Prod.fst ∧ entries.Perm (rest.filterMap Slot.entry?) := by
  obtain ⟨entries, hentries, rfl⟩ := h.laid
  have hentries' : entries.Perm (rest.filterMap Slot.entry?) := hentries
  obtain ⟨hid, hrest⟩ := List.nodup_cons.mp hids
  refine ⟨entries, rfl, nodup_entries hrest hentries', fun hmem => hid ?_, hentries'⟩
  exact fst_entries_sublist.subset ((hentries'.map Prod.fst).mem_iff.mp hmem)

section

variable {hazard : Hazard} {s : σ} (h : Accounted egress (slot :: rest) (view s))
  (hids : ((slot :: rest).map Slot.id).Nodup) (hreturns : hazard.Returns)
include h hids

/-- A slot that is removed is gone: its network is taken off the machine, and the networks of the rest stand as
    they did. Nothing can fail here, since no call fails by which a network is undone. -/
theorem remove : Attains hazard machine view egress (Slot.remove egress)
    (fun _ _ => Accounted egress rest) (fun _ _ _ => False) slot s := by
  have hrest := fun other hmem => h.known other (List.mem_cons_of_mem _ hmem)
  rcases h.known slot (List.mem_cons_self ..) with hfresh | ⟨applied, hstanding⟩
  · rw [hfresh] at h hids ⊢
    obtain ⟨entries, hworld, hnodup, hid, hentries⟩ := h.apart hids
    refine (remove_fresh hnodup hid hworld).mono ?_ fun _ _ _ => False.elim
    rintro - made world rfl
    exact ⟨hrest, entries, hentries, rfl⟩
  · rw [hstanding] at h hids ⊢
    obtain ⟨before, after, hworld, hnodup, hentries⟩ := h.split hids
    have hgone : Attains hazard machine view egress (Slot.remove egress) _ _ (.standing slot.id applied) s :=
      remove_laid hnodup hworld rfl slot.id.opens_some
    refine hgone.mono ?_ fun _ _ _ => False.elim
    rintro - made world rfl
    exact ⟨hrest, _, hentries, rfl⟩

include hreturns

/-- A slot that is made ready stands on the machine under the policy that was asked for. One that could not be
    made ready is gone, and what was undone for it was undone without failure. -/
theorem prepare : Attains hazard machine view egress (Slot.prepare egress policy)
    (fun _ made => Accounted egress (made :: rest))
    (fun failure _ world => failure.Clean ∧ hazard.Strikes ∧ Accounted egress rest world) slot s := by
  have hrest := fun other hmem => h.known other (List.mem_cons_of_mem _ hmem)
  rcases h.known slot (List.mem_cons_self ..) with hfresh | ⟨applied, hstanding⟩
  · rw [hfresh] at h hids ⊢
    obtain ⟨entries, hworld, hnodup, hid, hentries⟩ := h.apart hids
    refine (prepare_fresh hreturns hnodup hid hworld).mono ?_ ?_
    · rintro - made world ⟨rfl, rfl⟩
      exact cons_standing hrest (List.perm_append_comm.trans (hentries.cons _))
    · rintro failure made world ⟨hclean, hstruck, rfl⟩
      exact ⟨hclean, hstruck, hrest, entries, hentries, rfl⟩
  · rw [hstanding] at h hids ⊢
    obtain ⟨before, after, hworld, hnodup, hentries⟩ := h.split hids
    refine (prepare_outfitted hnodup hworld slot.id.opens_some hreturns).mono ?_ ?_
    · rintro - made world ⟨rfl, rfl⟩
      exact cons_standing hrest (List.perm_middle.trans (hentries.cons _))
    · rintro failure made world ⟨hclean, hstruck, rfl⟩
      exact ⟨hclean, hstruck, hrest, _, hentries, rfl⟩

/-- A slot that is reset stands open on the machine, and one that could not be reset is gone. A failure of the
    reset is told alone: the removal that follows it goes through. -/
theorem release (hfirewall : slot.hasFirewall = true) : Attains hazard machine view egress (Slot.release egress)
    (fun _ made => Accounted egress (made :: rest))
    (fun failure _ world => failure.teardown = none ∧ Accounted egress rest world) slot s := by
  have hrest := fun other hmem => h.known other (List.mem_cons_of_mem _ hmem)
  rcases h.known slot (List.mem_cons_self ..) with hfresh | ⟨applied, hstanding⟩
  · rw [hfresh] at hfirewall
    cases hfirewall
  · rw [hstanding] at h hids ⊢
    obtain ⟨before, after, hworld, hnodup, hentries⟩ := h.split hids
    refine (release_outfitted hnodup hworld slot.id.opens_some hreturns).mono ?_ ?_
    · rintro - made world ⟨rfl, rfl⟩
      exact cons_standing hrest (List.perm_middle.trans (hentries.cons _))
    · rintro failure made world ⟨hclean, rfl⟩
      exact ⟨hclean, hrest, _, hentries, rfl⟩

end

/-- Where no call fails, a slot is made ready. The run is taken apart only as far as it takes to see that its
    last part succeeds, since all before it is known from what the machine has. -/
theorem completes (h : Accounted egress (slot :: rest) world) (hids : ((slot :: rest).map Slot.id).Nodup) :
    ∃ made after, ((Slot.prepare egress policy).run.run slot).run World.machine world =
      (some (.ok (), made), after) := by
  have hanswers : ∀ c guards world, True → ∃ result world', World.machine.answer c world =
      (.returned result, world') ∧ World.replies .none c guards world result world' ∧ True :=
    fun c _ world _ => ⟨_, _, rfl, .inl rfl, trivial⟩
  have hspared : ((Slot.prepare egress policy).run.run slot).Spared .none World.machine
      (fun world => world) egress world :=
    Program.mild_of_strict hanswers (fun _ _ _ _ _ h => h) trivial
  have hprepare : Attains .none World.machine (fun world => world) egress (Slot.prepare egress policy) _ _
      slot world := h.prepare hids Hazard.none_returns
  obtain ⟨result, made, after, hrun, hend⟩ := hprepare hspared
  cases result with
  | ok value => exact ⟨made, after, hrun⟩
  | error failure => exact (Hazard.none_strikes hend.2.1).elim

end Accounted

/-- A spared job for a slot with a firewall, if it is to be reset. -/
def Permit.accountable (machine : Machine σ) (view : σ → World) (egress : String) : Permit σ :=
  fun job slot state => Permit.spared machine view egress job slot state ∧
    (job = .release → slot.hasFirewall = true)

section

variable {slots rest : List Slot} {slot : Slot} {left : Option Slot} {state state' : σ}

/-- Whatever becomes of a slot, the machine has what is left. A slot that stands is among those that are left,
    and one that could not be kept has left nothing on the machine. -/
theorem Fate.accounted
    (hfate : Fate machine egress (.accountable machine view egress) False slot state left state')
    (h : Accounted egress (slot :: rest) (view state)) (hids : ((slot :: rest).map Slot.id).Nodup) :
    Accounted egress (left.toList ++ rest) (view state') := by
  cases hfate with
  | prepared hpermit hrun =>
    obtain ⟨result, after, s', hran, hend⟩ := h.prepare hids Hazard.homing_returns (hpermit.1 (.prepare _))
    obtain ⟨⟨rfl, rfl⟩, rfl⟩ := by simpa using hran.symm.trans hrun
    exact hend
  | unprepared hpermit hrun =>
    obtain ⟨result, after, s', hran, hend⟩ := h.prepare hids Hazard.homing_returns (hpermit.1 (.prepare _))
    obtain ⟨⟨rfl, rfl⟩, rfl⟩ := by simpa using hran.symm.trans hrun
    exact hend.2.2
  | released hpermit hrun =>
    obtain ⟨result, after, s', hran, hend⟩ := h.release hids Hazard.homing_returns (hpermit.2 rfl) (hpermit.1 .release)
    obtain ⟨⟨rfl, rfl⟩, rfl⟩ := by simpa using hran.symm.trans hrun
    exact hend
  | unreleased hpermit hrun =>
    obtain ⟨result, after, s', hran, hend⟩ := h.release hids Hazard.homing_returns (hpermit.2 rfl) (hpermit.1 .release)
    obtain ⟨⟨rfl, rfl⟩, rfl⟩ := by simpa using hran.symm.trans hrun
    exact hend.2
  | removed hpermit hrun =>
    obtain ⟨result, after, s', hran, hend⟩ := h.remove hids (hpermit.1 .remove)
    obtain ⟨⟨rfl, rfl⟩, rfl⟩ := by simpa using hran.symm.trans hrun
    cases result with
    | ok value => exact hend
    | error failure => exact hend.elim
  | killed hpermit hdone hrun =>
    obtain ⟨value, s', hran, -⟩ := (hpermit.1 hdone).meets.run Program.ensures_true
    rw [hran] at hrun
    cases hrun
  | dropped hvacant => exact hvacant.elim

/-- Every effect keeps the account: the machine has the networks of the slots of the ledger and nothing else,
    before a step and after it. Bare identities have nothing on the machine. -/
theorem Effect.accounted {before after : Ledger}
    (heffect : Effect machine egress (.accountable machine view egress) False before state after state')
    (hids : before.ids.Nodup) (h : Accounted egress before.slots (view state)) :
    Accounted egress after.slots (view state') := by
  have hnodup : (before.slots.map Slot.id).Nodup := (List.nodup_append.mp hids).1
  cases heffect with
  | keep hallocator hslots hbare => exact h.perm hslots
  | acquire hacquire hslots hbare => exact (Accounted.cons_fresh.mpr h).perm hslots
  | change hfate hallocator hbefore hslots hbare =>
    have hnodup' := ((hbefore.map Slot.id).nodup_iff).mp hnodup
    exact (hfate.accounted (h.perm hbefore.symm) hnodup').perm hslots
  | lose hfate hallocator hbefore hslots hbare =>
    have hnodup' := ((hbefore.map Slot.id).nodup_iff).mp hnodup
    exact (hfate.accounted (h.perm hbefore.symm) hnodup').perm hslots
  | release hallocator hslots hbare => exact h.perm hslots
  | discard hallocator hslots hbare => exact Accounted.cons_fresh.mp (h.perm hslots.symm)

end
end SlotPool

import Mathlib.Data.List.Infix
import SlotPool.Proofs.Pool.Policy
import SlotPool.Proofs.Slot.Apart
import SlotPool.Proofs.Slot.Linked
/-!
The connections of all slots of a pool. Where no network is made while the thread is astray, every slot
that has its namespace open is connected, whatever calls fail.
-/

namespace SlotPool

variable {σ : Type} {machine : Machine σ} {view : σ → World} {hazard : Hazard} {egress : String}
  {vacant : Prop}

/-- A slot that does not have its namespace open is made ready from the host only. -/
def Permit.fromHost (view : σ → World) : Permit σ := fun job slot state =>
  ∀ policy, job = .prepare policy → slot.handle = none → (view state).current = hostNamespace

namespace Apart

variable {id : SlotId} {surroundings : Surroundings} {world world' : World}

theorem kept_enter {origin : Handle} {result : Except NetworkError Unit}
    (hreply : World.replies hazard (.enterNamespace origin) [] world result world')
    (h : Kept id egress surroundings world) : Kept id egress surroundings world' :=
  World.replies_keeps hreply h fun _ hanswer => by
    obtain ⟨-, rfl⟩ := World.enter_ok hanswer
    exact ⟨h.1.congr (fun _ _ => Iff.rfl) rfl, h.2⟩

end Apart

/-- Whatever becomes of a slot, only what belongs to it changes, and what is left of it is connected if
    it has its namespace open. -/
theorem Fate.linked {slot : Slot} {left : Option Slot} {state state' : σ}
    (hfate : Fate machine egress (.fromHost view) vacant slot state left state')
    (hmachine : machine.Within view (World.replies hazard))
    (h : Linked False slot.id egress slot (view state)) (htidy : (view state).Tidy slot.id)
    (hhost : hostNamespace ∈ (view state).namespaces) :
    Apart.Kept slot.id egress ((view state).without slot.id egress) (view state') ∧
      ∀ after, left = some after → Linked False slot.id egress after (view state') := by
  let surroundings := (view state).without slot.id egress
  have hapart : Apart slot.id egress surroundings slot (view state) := ⟨rfl, h.home, htidy, rfl⟩
  have hready {policy : Internet} (hpermit : Permit.fromHost view (.prepare policy) slot state) :
      Apart.Ready slot.id egress surroundings slot (view state) ∧
        Linked.Ready False slot.id egress slot (view state) :=
    ⟨⟨hapart, hpermit policy rfl, fun hsome => (h.connected hsome).mem⟩,
      h, fun hnone => ⟨hpermit policy rfl hnone, hhost⟩, False.elim⟩
  cases hfate with
  | @prepared policy after state' hpermit hrun =>
    have hdone : Apart slot.id egress surroundings after (view state') :=
      (Apart.prepare _ egress _ hazard policy).run hmachine (hready hpermit).1 hrun
    refine ⟨hdone.kept, ?_⟩
    rintro other ⟨⟩
    exact (Linked.prepare False _ egress hazard policy).run hmachine (hready hpermit).2 hrun
  | @unprepared policy failure after state' hpermit hrun =>
    have hfailed : Apart slot.id egress surroundings after (view state') :=
      (Apart.prepare _ egress _ hazard policy).run hmachine (hready hpermit).1 hrun
    exact ⟨hfailed.kept, fun _ hnone => nomatch hnone⟩
  | @released after state' hpermit hrun =>
    have hdone : Apart slot.id egress surroundings after (view state') :=
      (Apart.release _ egress _ hazard).run hmachine hapart hrun
    refine ⟨hdone.kept, ?_⟩
    rintro other ⟨⟩
    exact (Linked.release False _ egress hazard).run hmachine h hrun
  | @unreleased failure after state' hpermit hrun =>
    have hfailed : Apart slot.id egress surroundings after (view state') :=
      (Apart.release _ egress _ hazard).run hmachine hapart hrun
    exact ⟨hfailed.kept, fun _ hnone => nomatch hnone⟩
  | @removed result after state' hpermit hrun =>
    have hremoved : Apart slot.id egress surroundings after (view state') := by
      have hresult := (Apart.remove _ egress surroundings hazard).run hmachine hapart hrun
      cases result <;> exact hresult
    exact ⟨hremoved.kept, fun _ hnone => nomatch hnone⟩
  | @killed α job program state' hpermit hdone hrun =>
    refine ⟨?_, fun _ hnone => nomatch hnone⟩
    have hinv (origin : Handle) (world : World) (result : Except NetworkError Unit) (world' : World)
        (hreply : World.replies hazard (.enterNamespace origin) [] world result world') :
        Apart.Kept slot.id egress surroundings world → Apart.Kept slot.id egress surroundings world' :=
      Apart.kept_enter hreply
    cases hdone with
    | prepare policy =>
      exact (Apart.prepare _ egress _ hazard policy).crash hmachine hinv (hready hpermit).1 hrun
    | release => exact (Apart.release _ egress _ hazard).crash hmachine hinv hapart hrun
    | remove => exact (Apart.remove _ egress _ hazard).crash hmachine hinv hapart hrun
  | dropped hvacant => exact ⟨hapart.kept, fun _ hnone => nomatch hnone⟩

namespace Ledger

/-- Every slot that has its namespace open is connected, and all devices are where they belong. -/
structure Connected (ledger : Ledger) (egress : String) (world : World) : Prop where
  linked : ∀ slot ∈ ledger.slots, Linked False slot.id egress slot world
  orderly : world.Orderly
  host : hostNamespace ∈ world.namespaces

variable {before after : Ledger} {world world' : World} {slot : Slot}

theorem Connected.mono (h : before.Connected egress world)
    (hslots : ∀ slot ∈ after.slots, slot ∈ before.slots) : after.Connected egress world :=
  ⟨fun slot hmem => h.linked slot (hslots slot hmem), h.orderly, h.host⟩

/-- A job for one slot leaves the others connected, since nothing that belongs to them has changed. It takes
    distinct identities to know that they are others. -/
theorem Connected.rest {rest : List Slot} (h : before.Connected egress world)
    (hbefore : before.slots.Perm (slot :: rest)) (hids : before.ids.Nodup)
    (hkept : Apart.Kept slot.id egress (world.without slot.id egress) world') :
    Connected ⟨after.allocator, rest, after.bare⟩ egress world' where
  linked other hmem := by
    have hnodup : (slot.id :: rest.map Slot.id).Nodup :=
      (List.Perm.nodup_iff (hbefore.map Slot.id)).mp (List.nodup_append.mp hids).1
    have hother : other.id ≠ slot.id := fun heq =>
      (List.nodup_cons.mp hnodup).1 (heq ▸ List.mem_map_of_mem hmem)
    have hlinked := h.linked other (hbefore.mem_iff.mpr (List.mem_cons_of_mem _ hmem))
    exact ⟨rfl, hlinked.home, False.elim, fun hsome => (hlinked.connected hsome).of_without hother hkept.2⟩
  orderly := h.orderly.change hkept.1 hkept.2
  host := World.mem_of_without hkept.2 SlotId.namespaceName_ne_host.symm h.host

end Ledger

/-- Every effect keeps the connections of all slots that are in the ledger before and after it. A slot that
    comes out of a job is connected by what the job ensures, and the others were left alone by it. -/
theorem Effect.connected {before after : Ledger} {state state' : σ}
    (heffect : Effect machine egress (.fromHost view) vacant before state after state')
    (hmachine : machine.Within view (World.replies hazard)) (hids : before.ids.Nodup)
    (h : before.Connected egress (view state)) : after.Connected egress (view state') := by
  have hfates {slot : Slot} {left : Option Slot} {rest : List Slot} {state' : σ}
      (hbefore : before.slots.Perm (slot :: rest))
      (hfate : Fate machine egress (.fromHost view) vacant slot state left state') :=
    hfate.linked hmachine (h.linked slot (hbefore.mem_iff.mpr (List.mem_cons_self ..)))
      (h.orderly slot.id) h.host
  cases heffect with
  | keep hallocator hslots hbare => exact h.mono fun slot hmem => hslots.mem_iff.mp hmem
  | @acquire choice id after hacquire hslots hbare =>
    refine ⟨fun slot hmem => ?_, h.orderly, h.host⟩
    rcases List.mem_cons.mp (hslots.mem_iff.mp hmem) with rfl | hold
    · exact ⟨rfl, fun _ hnone => (nomatch hnone), False.elim, fun hsome => (hsome rfl).elim⟩
    · exact h.linked slot hold
  | @change slot slot' rest after state' hfate hallocator hbefore hslots hbare =>
    obtain ⟨hkept, hleft⟩ := hfates hbefore hfate
    have hrest : Ledger.Connected ⟨after.allocator, rest, after.bare⟩ egress (view state') :=
      h.rest hbefore hids hkept
    refine ⟨fun other hmem => ?_, hrest.orderly, hrest.host⟩
    rcases List.mem_cons.mp (hslots.mem_iff.mp hmem) with rfl | hold
    · exact hfate.id_eq ▸ hleft other rfl
    · exact hrest.linked other hold
  | @lose slot rest after state' hfate hallocator hbefore hslots hbare =>
    have hrest : Ledger.Connected ⟨after.allocator, rest, after.bare⟩ egress (view state') :=
      h.rest hbefore hids (hfates hbefore hfate).1
    exact hrest.mono fun slot hmem => hslots.mem_iff.mp hmem
  | release hallocator hslots hbare => exact h.mono fun slot hmem => hslots.mem_iff.mp hmem
  | discard hallocator hslots hbare =>
    exact h.mono fun slot hmem => hslots.mem_iff.mpr (List.mem_cons_of_mem _ hmem)

namespace Service

variable {config : Config} {cancelled : Bool} {registry registry' : Registry} {state state' : σ}
  {pool : Pool} {service : Service σ}

/-- Callers hand back only what they were given, and no network is made while the thread is astray. -/
def OnCourse (view : σ → World) (service : Service σ) (event : Event) : Prop :=
  OwnSlots service event ∧ service.Permits (.fromHost view) event

/-- In every state that a pool can reach without making a network astray, every slot that has its
    namespace open is connected. -/
theorem Reaches.linked {start : Service σ} {size : Nat}
    (hmachine : machine.Within view (World.replies hazard)) (hconserved : start.Conserved size)
    (hstrays : start.strays = []) (hegress : start.pool.egress = egress)
    (hstart : start.ledger.Connected egress (view start.machine))
    (hreaches : Reaches machine (OnCourse view) start service) :
    service.pool.egress = egress ∧ service.ledger.Connected egress (view service.machine) := by
  induction hreaches with
  | start => exact ⟨hegress, hstart⟩
  | step hreaches hcourse hstep ih =>
    obtain ⟨hsame, hconnected⟩ := ih
    have hown := hreaches.mono fun _ _ h => h.1
    have hbefore := (hown.sparesStrays hstrays).conserved hconserved
    obtain ⟨heffect, hkept⟩ := hbefore.step_effect hcourse.1 (hown.noStrays hstrays) hstep hcourse.2
      fun _ => trivial
    exact ⟨hkept.trans hsame,
      (hsame ▸ heffect).connected hmachine hbefore.balanced.nodup hconnected⟩

/-- A slot that is handed out is connected. Whatever calls fail, every slot that a caller has, and whose
    namespace was made for it or is open from an earlier request, has its complete network, if no
    network was made while the thread was astray. -/
theorem Reaches.handedOut_connected (hmachine : machine.Within view (World.replies .any))
    (hfresh : view state = .fresh)
    (hopen : Pool.openWith machine config cancelled registry state =
      (.ok (.ok pool), registry', state'))
    (hreaches : Reaches machine (OnCourse view) (opened pool state') service) :
    ∀ client slot, (client, slot) ∈ service.held → slot.handle ≠ none →
      (view service.machine).Connected slot.id service.pool.egress := by
  have hview : view state' = .fresh := (Pool.openWith_view hmachine hopen).trans hfresh
  obtain ⟨hvalid, egress, -, rfl⟩ := Pool.openWith_ok hopen
  have hconserved : (opened (Pool.opened config egress cancelled) state').Conserved config.maxSlots :=
    opened_conserved (Config.maxSlots_le_of_validate hvalid)
  have hstart : (opened (Pool.opened config egress cancelled) state').ledger.Connected egress
      (view state') := by
    refine ⟨by simp [opened_slots], hview ▸ World.fresh_orderly, ?_⟩
    rw [hview]
    simp [World.fresh]
  intro client slot hheld hhandle
  obtain ⟨hegress, hconnected⟩ := hreaches.linked hmachine hconserved rfl rfl hstart
  have hmem : slot ∈ service.ledger.slots := List.mem_append_right _
    (List.mem_map_of_mem (f := (·.2)) (List.mem_append_left _ hheld))
  rw [hegress]
  exact (hconnected.linked slot hmem).connected hhandle

/-- Every turn that finds the thread on the host is on course. -/
theorem onCourse_of_host {view : σ → World} {service : Service σ} {event : Event}
    (hown : OwnSlots service event) (hhost : (view service.machine).current = hostNamespace) :
    OnCourse view service event :=
  ⟨hown, fun _ _ _ _ _ _ _ _ _ _ _ => hhost⟩

/-- The events by which a request gets a slot after the first request has failed. -/
def secondRequest : List Event :=
  firstRequest .allowed ++ [.move (.task "first"), .move (.populate 0), .move (.populate 0),
    .move (.populate 0), .get "second" .allowed false, .move (.waiter "second"),
    .move (.task "second"), .move (.task "second")]

/-- A rehearsal in which a network cannot be completed, and then cannot be cleared away. -/
def leftoverRehearsal : Rehearsal World :=
  ((Rehearsal.start World.fresh).order ⟨"add_tap", 0, 1, some (.command "ip" "failed")⟩).order
    ⟨"delete_namespace", 0, 1, some (.command "umount" "failed")⟩

/-- The events by which two requests get slots one after the other. -/
def twoRequests : List Event :=
  firstRequest .allowed ++ [.move (.populate 0), .move (.populate 0), .move (.populate 0),
    .get "second" .allowed false, .move (.waiter "second"), .move (.task "second"),
    .move (.task "second")]

/-- A slot that is given out need not be connected. In the first run the tap cannot be added, and when the
    network is undone the namespace cannot be deleted; it is then on record, so that the next request takes it
    for a standing network and is given it as it is. In the second run a guard fails to take the thread back,
    and the next network is made from inside another slot's namespace. -/
theorem handedOut_notConnected :
    (∃ service, (opened (Pool.opened { Config.small with maxSlots := 1 } "eth0" false)
        leftoverRehearsal).run (Rehearsal.rehearsing World.machine) secondRequest = some service ∧
      ∃ slot, ("second", slot) ∈ service.held ∧
        ¬ service.machine.machine.Connected slot.id service.pool.egress) ∧
    ∃ service, (opened (Pool.opened .small "eth0" false) strandedRehearsal).run
        (Rehearsal.rehearsing World.machine) twoRequests = some service ∧
      ∃ slot, ("second", slot) ∈ service.held ∧ slot.handle ≠ none ∧
        ¬ service.machine.machine.Connected slot.id service.pool.egress := by
  constructor
  · obtain ⟨service, hrun, hheld⟩ := Option.map_eq_some_iff.mp
      (show ((opened (Pool.opened { Config.small with maxSlots := 1 } "eth0" false)
        leftoverRehearsal).run (Rehearsal.rehearsing World.machine) secondRequest).map (fun service =>
          (service.held, service.machine.machine.namespaces["ns-0"]?.map (·.links["tap-0"]?))) =
          some ([("second", ⟨0, .firewallReady none .allowed⟩)], some none) by decide +kernel)
    obtain ⟨hheld, hlink⟩ := Prod.mk.inj hheld
    refine ⟨service, hrun, _, hheld ▸ List.mem_singleton_self _, ?_⟩
    rintro ⟨⟨ns, hns, hfurnished⟩, -⟩
    have hname : SlotId.namespaceName 0 = "ns-0" := by decide
    have htap : SlotId.tapName 0 = "tap-0" := by decide
    rw [hname] at hns
    rw [hns, Option.map_some] at hlink
    have htap' := hfurnished.tap
    rw [htap, Option.some.inj hlink] at htap'
    cases htap'
  · obtain ⟨service, hrun, hheld⟩ := Option.map_eq_some_iff.mp
      (show ((opened (Pool.opened .small "eth0" false) strandedRehearsal).run
        (Rehearsal.rehearsing World.machine) twoRequests).map (fun service =>
          (service.held.head?, service.machine.machine.namespaces[hostNamespace]?.map (·.links["veth-1"]?))) =
          some (some ("second", ⟨1, .firewallReady (some ⟨"ns-1", true⟩) .allowed⟩), some none) by decide +kernel)
    obtain ⟨hheld, hlink⟩ := Prod.mk.inj hheld
    refine ⟨service, hrun, _, List.mem_of_mem_head? hheld, by simp [Slot.handle], ?_⟩
    rintro ⟨-, host, hhost, hreaches⟩
    have hveth : SlotId.vethName 1 = "veth-1" := by decide
    rw [hhost, Option.map_some] at hlink
    have hveth' := hreaches.veth
    rw [hveth, Option.some.inj hlink] at hveth'
    cases hveth'

/-- Where nothing fails, the first request is given a slot with a namespace handle that is connected. The
    network was made on the way, from nothing. -/
theorem connected_firstRequest : ∃ service,
    (opened (Pool.opened .small "eth0" false) (Rehearsal.start World.fresh)).run
      (Rehearsal.rehearsing World.machine) (firstRequest .blocked) = some service ∧
    ∃ slot, ("first", slot) ∈ service.held ∧ slot.handle ≠ none ∧
      service.machine.machine.Connected slot.id service.pool.egress := by
  obtain ⟨service, hrun, hheld⟩ := Option.map_eq_some_iff.mp
    (show ((opened (Pool.opened .small "eth0" false) (Rehearsal.start World.fresh)).run
      (Rehearsal.rehearsing World.machine) (firstRequest .blocked)).map (·.held) =
        some [("first", ⟨0, .firewallReady (some ⟨"ns-0", true⟩) .blocked⟩)] by decide +kernel)
  have hcourse : ((firstRequest .blocked).inits.map fun passed =>
      ((opened (Pool.opened .small "eth0" false) (Rehearsal.start World.fresh)).run
        (Rehearsal.rehearsing World.machine) passed).map (·.machine.machine.current)) =
      (firstRequest .blocked).inits.map fun _ => some hostNamespace := by decide +kernel
  have hreaches : Reaches (Rehearsal.rehearsing World.machine) (OnCourse (·.machine))
      (opened (Pool.opened .small "eth0" false) (Rehearsal.start World.fresh)) service := by
    refine Reaches.start.run_each (fun passed event hpassed between hbetween => ?_) hrun
    refine onCourse_of_host ?_ ?_
    · have hmem := hpassed.subset (List.mem_append_right passed (List.mem_singleton_self event))
      intro client id heq
      subst heq
      simp [firstRequest] at hmem
    · have hinits : passed ∈ (firstRequest .blocked).inits :=
        (List.mem_inits _ _).mpr ((List.prefix_append passed [event]).trans hpassed)
      have hcurrent := List.map_inj_left.mp hcourse passed hinits
      rw [hbetween] at hcurrent
      exact Option.some.inj hcurrent
  have hmem : ("first", ⟨0, .firewallReady (some ⟨"ns-0", true⟩) .blocked⟩) ∈ service.held :=
    hheld ▸ List.mem_singleton_self _
  have hhandle : (Slot.mk 0 (.firewallReady (some ⟨"ns-0", true⟩) .blocked)).handle ≠ none := by
    simp [Slot.handle]
  exact ⟨service, hrun, _, hmem, hhandle, Reaches.handedOut_connected Rehearsal.rehearsing_within rfl
    (Pool.openWith_small _ _) hreaches "first" _ hmem hhandle⟩

end Service
end SlotPool

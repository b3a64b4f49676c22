import SlotPool.Proofs.Slot.Confined
/-!
What can be done with slots, and the machines that this leads to. Each operation begins on the host, and
whatever fails in it, it leaves alone what belongs to other slots.
-/

namespace SlotPool

open Sequence

/-- What can be done with a slot. -/
inductive Operation
  | create
  | remove
  | reap
  | prepare (policy : Internet)
  | release

namespace Operation

/-- How an operation fails. -/
abbrev Failure : Operation → Type
  | .create | .remove | .reap => NetworkError
  | .prepare _ => PrepareFailure
  | .release => ResetFailure

/-- The calls of an operation. -/
def steps (egress : String) : (operation : Operation) → SequenceOf operation.Failure Unit
  | .create => Slot.create egress
  | .remove => Slot.remove egress
  | .reap => Slot.reap egress
  | .prepare policy => Slot.prepare egress policy
  | .release => Slot.release egress

/-- An operation on a slot. It is over with a result and the slot as it is then. -/
def program (operation : Operation) (egress : String) (slot : Slot) :
    Program (Except operation.Failure Unit × Slot) :=
  (operation.steps egress).run.run slot

/-- What a frame says of single calls carries over to every operation. An operation begins where
    `start` holds and ends where its visits to the slot's namespace do. -/
theorem steps_around {τ : Type} {replies : Replies τ} {inv : τ → Prop} {id : SlotId} {egress : String}
    {back goal home origins : Handle → Prop} {outside inside made start rest : Assertion τ}
    (operation : Operation) (hframe : Frame replies inv id egress back goal home outside inside made)
    (hstart : Around replies inv origins outside start rest)
    (hrest : Around replies inv origins outside rest rest)
    (honStart : Clearing replies inv id egress start) (hclearing : Clearing replies inv id egress rest)
    (hgoal : ∀ {guards slot t origin t'}, start slot t →
      replies .currentNamespace guards t (.ok origin) t' → goal origin) :
    Triple replies inv start (operation.steps egress) rest rest := by
  have hconfigure {begin : Assertion τ} (policy : Internet)
      (haround : Around replies inv origins outside begin rest) :
      Triple replies inv begin (inNamespace (Firewall.configure policy)) rest rest :=
    hframe.inNamespace haround fun origin => (hframe.under origin).configure policy
  cases operation with
  | create => exact hframe.create hstart hgoal
  | remove => exact (hframe.remove hstart hclearing).of_bare
  | reap =>
    exact honStart.reap.of_bare.mono (fun _ _ h => h) (fun _ _ h => hstart.stays h)
      fun _ _ h => hstart.stays h
  | prepare policy =>
    exact .bind (hframe.provide hstart hrest
      (fun h hreply => hstart.stays (honStart.unmakes .onRecord h hreply))
      (fun h hreply => honStart.unmakes .onRecord h hreply) hstart.out honStart hclearing hgoal)
      fun _ => hframe.applyPolicy hrest hclearing (hconfigure policy hrest)
  | release => exact hframe.applyPolicy hrest hclearing (hconfigure .allowed hstart)

variable {hazard : Hazard} {id : SlotId} {egress : String} {base : World}

/-- From the host, the cable leads to the host. -/
theorem origin_onHost {guards : List Handle} {slot : Slot} {origin : Handle} {world world' : World}
    (h : Confined.OnHost id egress base slot world)
    (hreply : World.replies hazard .currentNamespace guards world (.ok origin) world') :
    origin.label = hostNamespace :=
  (World.replies_captured hreply).2 origin rfl ▸ h.2

/-- Each operation that begins on the host stays between the host and the slot's namespace. -/
theorem confined (operation : Operation) :
    Triple (World.replies hazard) (Confined.Kept id egress base) (Confined.OnHost id egress base)
      (operation.steps egress) (Confined id egress base) (Confined id egress base) :=
  have hframe := Confined.frame hazard id egress base
  operation.steps_around hframe (Confined.around hazard id egress base) hframe.around
    (World.clearing_staying hframe.clearing hostNamespace) hframe.clearing origin_onHost

/-- Where guards always take the thread back, each operation that begins on the host ends there. -/
theorem lands (operation : Operation) (hreturns : hazard.Returns)
    (hhost : hostNamespace ∈ base.namespaces) :
    Triple (World.replies hazard) (Confined.Kept id egress base) (Confined.OnHost id egress base)
      (operation.steps egress) (Confined.OnHost id egress base) (Confined.OnHost id egress base) :=
  have hframe := Confined.frame hazard id egress base
  have hlanding := Confined.landing id egress base hreturns hhost
  have hclearing := World.clearing_staying hframe.clearing hostNamespace
  operation.steps_around hframe hlanding hlanding hclearing hclearing origin_onHost

section

variable {σ : Type} {machine : Machine σ} {view : σ → World} {slot : Slot} {state state' : σ}
  {operation : Operation}

/-- What an operation that is over leaves of the machine and of the slot. -/
theorem run_confined {result : Except operation.Failure Unit} {after : Slot}
    (hmachine : machine.Within view (World.replies .any)) (hhome : slot.Homed)
    (htidy : (view state).Tidy slot.id) (hhost : (view state).current = hostNamespace)
    (hrun : (operation.program egress slot).run machine state = (some (result, after), state')) :
    Confined slot.id egress (view state) after (view state') := by
  have hresult := operation.confined.run hmachine (Confined.start egress hhome htidy hhost) hrun
  cases result <;> exact hresult

/-- What an operation leaves of the machine, also when the thread dies in it. -/
theorem run_kept {outcome : Option (Except operation.Failure Unit × Slot)}
    (hmachine : machine.Within view (World.replies .any)) (hhome : slot.Homed)
    (htidy : (view state).Tidy slot.id) (hhost : (view state).current = hostNamespace)
    (hrun : (operation.program egress slot).run machine state = (outcome, state')) :
    Confined.Kept slot.id egress (view state) (view state') := by
  cases outcome with
  | some ended => exact (run_confined hmachine hhome htidy hhost hrun).kept
  | none =>
    exact operation.confined.crash hmachine (fun _ _ _ _ => Confined.kept_returns)
      (Confined.start egress hhome htidy hhost) hrun

/-- The machines that operations on slots lead to from one on which no slot has ever been made, with the
    slots as they were at any time. Each operation begins on the host. -/
inductive Reached (machine : Machine σ) (view : σ → World) (egress : String) : List Slot → σ → Prop
  | fresh {state : σ} (hfresh : view state = .fresh) : Reached machine view egress [] state
  | issue {slots : List Slot} {state : σ} (id : SlotId)
      (hreached : Reached machine view egress slots state) :
      Reached machine view egress (.fresh id :: slots) state
  | ended {slots : List Slot} {slot after : Slot} {state state' : σ} {operation : Operation}
      {result : Except operation.Failure Unit} (hreached : Reached machine view egress slots state)
      (hslot : slot ∈ slots) (hhost : (view state).current = hostNamespace)
      (hrun : (operation.program egress slot).run machine state = (some (result, after), state')) :
      Reached machine view egress (after :: slots) state'
  | died {slots : List Slot} {slot : Slot} {state state' : σ} {operation : Operation}
      (hreached : Reached machine view egress slots state) (hslot : slot ∈ slots)
      (hhost : (view state).current = hostNamespace)
      (hrun : (operation.program egress slot).run machine state = (none, state')) :
      Reached machine view egress slots state'
  /-- a new thread starts on the host, and other calls may fail from now on -/
  | restart {slots : List Slot} {state state' : σ} (hreached : Reached machine view egress slots state)
      (hview : view state' = { view state with current := hostNamespace }) :
      Reached machine view egress slots state'

/-- On machines that operations lead to, every slot has its devices where they belong. -/
structure Sound (slots : List Slot) (world : World) : Prop where
  orderly : world.Orderly
  host : hostNamespace ∈ world.namespaces
  homed : ∀ slot ∈ slots, slot.Homed

/-- On every machine that operations have led to, each slot leads to its own namespace by the handle that it
    remembers, and the devices of all slots are where they belong. This holds whatever failed, since a job for
    one slot leaves alone what belongs to the others. -/
theorem Reached.sound {slots : List Slot} (hmachine : machine.Within view (World.replies .any))
    (hreached : Reached machine view egress slots state) : Sound slots (view state) := by
  induction hreached with
  | fresh hfresh =>
    rw [hfresh]
    exact ⟨World.fresh_orderly, Std.ExtTreeMap.mem_insert_self, fun _ => nofun⟩
  | issue id hreached ih =>
    exact ⟨ih.orderly, ih.host, List.forall_mem_cons.mpr ⟨fun _ => nofun, ih.homed⟩⟩
  | ended hreached hslot hhost hrun ih =>
    have hconfined := run_confined hmachine (ih.homed _ hslot) (ih.orderly _) hhost hrun
    exact ⟨ih.orderly.change hconfined.tidy hconfined.surroundings,
      World.mem_of_without hconfined.surroundings (by simp) ih.host,
      List.forall_mem_cons.mpr ⟨hconfined.homed, ih.homed⟩⟩
  | died hreached hslot hhost hrun ih =>
    have hkept := run_kept hmachine (ih.homed _ hslot) (ih.orderly _) hhost hrun
    exact ⟨ih.orderly.change hkept.tidy hkept.surroundings,
      World.mem_of_without hkept.surroundings (by simp) ih.host, ih.homed⟩
  | restart hreached hview ih =>
    rw [hview]
    exact ⟨fun id => (ih.orderly id).congr (fun _ _ => Iff.rfl) rfl, ih.host, ih.homed⟩

/-- Whatever fails in an operation on one slot, everything that belongs to another is as it was. -/
theorem Reached.isolated {slots : List Slot} {other : SlotId}
    {outcome : Option (Except operation.Failure Unit × Slot)}
    (hmachine : machine.Within view (World.replies .any))
    (hreached : Reached machine view egress slots state) (hslot : slot ∈ slots)
    (hhost : (view state).current = hostNamespace) (hother : other ≠ slot.id)
    (hrun : (operation.program egress slot).run machine state = (outcome, state')) :
    (view state').holdings other egress = (view state).holdings other egress := by
  have hsound := hreached.sound hmachine
  have hkept := run_kept hmachine (hsound.homed slot hslot) (hsound.orderly _) hhost hrun
  exact World.holdings_of_without hother hkept.surroundings hkept.elsewhere

end

/-- How the network of a first slot is made. -/
def neighbourMade : Option (Except NetworkError Unit × Slot) × Rehearsal World :=
  (Operation.create.program "eth0" (.fresh 0)).run (Rehearsal.rehearsing World.machine) (.start .fresh)

/-- The first slot when its network stands. -/
def neighbour : Slot := ⟨0, .firewallReady (some ⟨"ns-0", true⟩) .allowed⟩

theorem neighbourMade_onHost : neighbourMade.2.machine.current = hostNamespace := by decide +kernel

/-- The network of slot 0 is made on a fresh machine. -/
theorem neighbourMade_run : ∃ result,
    (Operation.create.program "eth0" (.fresh 0)).run (Rehearsal.rehearsing World.machine)
      (.start .fresh) = (some (result, neighbour), neighbourMade.2) := by
  obtain ⟨⟨result, slot⟩, hended, hslot⟩ := Option.map_eq_some_iff.mp
    (show neighbourMade.1.map (·.2) = some neighbour by decide +kernel)
  obtain rfl : slot = neighbour := hslot
  exact ⟨result, Prod.ext hended rfl⟩

theorem neighbourMade_reached : Reached (Rehearsal.rehearsing World.machine) (·.machine) "eth0"
    [.fresh 1, neighbour, .fresh 0] neighbourMade.2 := by
  have hfirst : Reached (Rehearsal.rehearsing World.machine) (·.machine) "eth0" [.fresh 0]
      (.start .fresh) := .issue 0 (.fresh rfl)
  obtain ⟨result, hrun⟩ := neighbourMade_run
  exact .issue 1 (.ended hfirst (List.mem_singleton_self _) rfl hrun)

/-- The sixth move between namespaces fails. -/
def strandingFault : Fault := ⟨"enter_namespace", 5, 1, some (.command "setns" "failed")⟩

/-- Besides the network of the first slot, another is made ready, and the thread does not come back. -/
def neighbourStranded : Option (Except PrepareFailure Unit × Slot) × Rehearsal World :=
  ((Operation.prepare .blocked).program "eth0" (.fresh 1)).run (Rehearsal.rehearsing World.machine)
    (neighbourMade.2.order strandingFault)

/-- Slot 1 is cut off in the middle, with the thread in its namespace. What belongs to slot 0 is as it was. -/
theorem isolated_neighbourStranded :
    (neighbourMade.2.machine.holdings 0 "eth0").namespaces.size = 2 ∧
      neighbourStranded.2.machine.current = "ns-1" ∧
      neighbourStranded.2.machine.holdings 0 "eth0" = neighbourMade.2.machine.holdings 0 "eth0" := by
  have hrestart (made : Rehearsal World) (fault : Fault) (hhost : made.machine.current = hostNamespace) :
      (made.order fault).machine = { made.machine with current := hostNamespace } := by
    rw [← hhost]
    rfl
  have hreached := neighbourMade_reached.restart (hrestart _ strandingFault neighbourMade_onHost)
  have hother : (0 : SlotId) ≠ (Slot.fresh 1).id := by decide
  have hrun : ((Operation.prepare .blocked).program "eth0" (.fresh 1)).run
      (Rehearsal.rehearsing World.machine) (neighbourMade.2.order strandingFault) =
      (neighbourStranded.1, neighbourStranded.2) := (Prod.eta _).symm
  have hsame := hreached.isolated Rehearsal.rehearsing_within (List.mem_cons_self ..)
    neighbourMade_onHost hother hrun
  exact ⟨by decide +kernel, by decide +kernel, hsame⟩

end Operation
end SlotPool

import SlotPool.Operator.Run
import SlotPool.Proofs.Operator.Arguments
import SlotPool.Proofs.Primitive.Panics
import SlotPool.Proofs.Slot.Clearance
/-!
Clearing up after a range of slots. Once it is known which interface leads outside, the slots of the range are visited
one after the other in ascending order, whatever comes of each, and those that could not be cleared up are counted. Only
a call that kills the worker ends this early, and then it does not end well.
-/

namespace SlotPool

/-- No call on the machine kills the thread that makes it. -/
def Machine.Answers {σ : Type} (machine : Machine σ) : Prop :=
  ∀ call state, ∃ result after, machine.answer call state = (.returned result, after)

/-- The call of a look. -/
def Probe.call : Probe → Call
  | .link name => .linkExists name
  | .named name => .namespaceExists name

/-- The calls to which a duty may lead. -/
def Duty.calls : Duty → List Call
  | .always chore => [chore.call]
  | .ifFound _ probe chore => [probe.call, chore.call]

/-- The calls that may be made to clear up after a slot. -/
def SlotId.clearing (id : SlotId) (egress : String) : List Call := (id.reaping egress).flatMap Duty.calls

variable {σ : Type} {machine : Machine σ} {egress : String} {call : Call}

/-- Where every call is answered, no call kills the worker. -/
theorem Machine.Answers.not_panics {α : Type} {program : Program α} {guards : List Handle} {state between : σ}
    (hanswers : machine.Answers) : ¬ program.Panics machine state call guards between := by
  intro hpanics
  induction hpanics with
  | @here call guards next state between hcrash =>
    obtain ⟨result, after, hanswer⟩ := hanswers call state
    rw [hcrash] at hanswer
    cases hanswer
  | later _ _ ih => exact ih

theorem Linux.machine_answers : Linux.machine.Answers := fun _ _ => ⟨_, _, rfl⟩

/-! ### Calls of one slot and of another -/

theorem Probe.record_call {probe : Probe} {answer : Except NetworkError Bool} :
    (probe.record answer).call = probe.call := by
  cases probe with
  | link name => rfl
  | named name => rfl

/-- All calls that are made in trying some duties are calls of these duties. -/
theorem Trying.call_mem {duties : List Duty} {records : List Record} {failures : List NetworkError} {record : Record}
    (h : Trying duties records failures) (hmem : record ∈ records) : record.call ∈ duties.flatMap Duty.calls := by
  have hlook {step : String} {probe : Probe} {chore : Chore} {duties : List Duty} {answer : Except NetworkError Bool} :
      (probe.record answer).call ∈ (Duty.ifFound step probe chore :: duties).flatMap Duty.calls := by
    rw [Probe.record_call]
    exact List.mem_append_left _ (List.mem_cons_self ..)
  induction h with
  | done => cases hmem
  | tried hrest ih =>
    rcases List.mem_cons.mp hmem with rfl | hmem
    · exact List.mem_append_left _ (List.mem_singleton_self _)
    · exact List.mem_append_right _ (ih hmem)
  | found hrest ih =>
    rcases List.mem_cons.mp hmem with rfl | hmem
    · exact hlook
    · exact List.mem_cons_of_mem _ (ih hmem)
  | missing hrest ih | unseen hrest ih =>
    rcases List.mem_cons.mp hmem with rfl | hmem
    · exact hlook
    · exact List.mem_append_right _ (ih hmem)

theorem SlotId.mem_clearing {id : SlotId} : call ∈ id.clearing egress ↔
    call = .linkExists id.vethName ∨ call = .deleteLink id.vethName ∨
    (∃ rule ∈ id.hostRules egress, call = .deleteRule rule) ∨ call = .deleteRoute id.hostRoute ∨
    call = .namespaceExists id.namespaceName ∨ call = .deleteNamespace id.namespaceName := by
  simp [clearing, reaping, Duty.calls, Probe.call, Chore.lenient, List.mem_flatMap]

/-- No call clears up after two slots. -/
theorem SlotId.clearing_apart {i j : SlotId} (hi : call ∈ i.clearing egress) (hj : call ∈ j.clearing egress) :
    i = j := by
  rw [mem_clearing] at hi hj
  rcases hi with rfl | rfl | ⟨rule, hrule, rfl⟩ | rfl | rfl | rfl
  case inr.inr.inl =>
    have hmem : rule ∈ j.hostRules egress := by simpa using hj
    exact hostRules_apart hrule hmem
  all_goals simpa using hj

namespace Operator

/-- How the interface is found that leads outside: it is configured, or the machine is asked for it. -/
inductive Finds (machine : Machine σ) (config : Config) (state : σ) : Except Causes String → σ → Prop
  | configured {interface : String} (hsome : config.egressInterface = some interface) :
    Finds machine config state (.ok interface) state
  | detected {interface : String} {after : σ} (hnone : config.egressInterface = none)
    (hanswer : machine.answer .egressInterface state = (.returned (.ok interface), after)) :
    Finds machine config state (.ok interface) after
  | undetected {cause : NetworkError} {after : σ} (hnone : config.egressInterface = none)
    (hanswer : machine.answer .egressInterface state = (.returned (.error cause), after)) :
    Finds machine config state (.error ("failed to detect egress interface" :: networkCauses cause)) after
  | died {after : σ} (hnone : config.egressInterface = none)
    (hanswer : machine.answer .egressInterface state = (.crashed, after)) :
    Finds machine config state (.error (networkCauses .workerGone)) after

/-- Clearing up after one slot: what came of it, and the calls on record. -/
structure Visit where
  id : SlotId
  result : Except NetworkError Unit
  records : List Record

/-- Slots are cleared up after, one after the other and each from where the one before has left the machine. A call that
    kills the thread leaves the slot at which it is made and those behind it unvisited. -/
inductive Visiting (machine : Machine σ) (egress : String) : List Visit → List SlotId → σ → σ → Prop
  | done {state : σ} : Visiting machine egress [] [] state state
  | visit {id : SlotId} {result : Except NetworkError Unit} {slot : Slot} {visits : List Visit}
    {unvisited : List SlotId} {state between after : σ}
    (hrun : (Operation.reap.program egress (.fresh id)).run machine state = (some (result, slot), between))
    (hrest : Visiting machine egress visits unvisited between after) :
    Visiting machine egress
      (⟨id, result, ((Operation.reap.program egress (.fresh id)).trace machine state).map (·.toRecord)⟩ :: visits)
      unvisited state after
  | died {id : SlotId} {unvisited : List SlotId} {call : Call} {guards : List Handle} {state between : σ}
    (hpanics : (Operation.reap.program egress (.fresh id)).Panics machine state call guards between) :
    Visiting machine egress [] (id :: unvisited) state (Program.restore machine guards between)

/-- How many slots could not be cleared up. -/
def failed (visits : List Visit) : Nat := visits.countP (!·.result.isOk)

/-- How it ends, after these visits and with these slots left unvisited. -/
structure Verdict (visits : List Visit) (unvisited : List SlotId) (ending : Ending) : Prop where
  succeeds : ending = .success "" ↔ unvisited = [] ∧ ∀ visit ∈ visits, visit.result = .ok ()
  counted : unvisited = [] → (∃ visit ∈ visits, visit.result ≠ .ok ()) →
    ending = .failure "" [s!"{failed visits} slot(s) could not be fully reaped"]
  died : unvisited ≠ [] → ending = .failure "" (networkCauses .workerGone)

/-- What there is to be said of a range that has been gone through. -/
structure Course (machine : Machine σ) (egress : String) (first last : Nat) (state : σ) (visits : List Visit)
    (unvisited : List SlotId) (ending : Ending) (after : σ) : Prop where
  visiting : Visiting machine egress visits unvisited state after
  /-- each slot of the range once, in ascending order -/
  numbers : (visits.map (·.id) ++ unvisited).map (·.val) = List.range' first (last - first)
  tried : ∀ visit ∈ visits, ∃ failures, Trying (visit.id.reaping egress) visit.records failures ∧
    Told failures visit.result
  /-- no visit touches another slot -/
  own : ∀ visit ∈ visits, ∀ record ∈ visit.records, ∀ other : SlotId,
    record.call ∈ other.clearing egress ↔ other = visit.id
  verdict : Verdict visits unvisited ending
  answered : machine.Answers → unvisited = []

variable {config : Config} {first last count : Nat} {state after : σ} {visits : List Visit}
  {unvisited ids : List SlotId}

theorem failed_ok {id : SlotId} {value : Unit} {records : List Record} :
    failed (⟨id, .ok value, records⟩ :: visits) = failed visits :=
  List.countP_cons_of_neg Bool.false_ne_true

theorem failed_error {id : SlotId} {failure : NetworkError} {records : List Record} :
    failed (⟨id, .error failure, records⟩ :: visits) = failed visits + 1 :=
  List.countP_cons_of_pos rfl

/-- The count of failures is zero just when every visit succeeded. -/
theorem failed_eq_zero_iff : failed visits = 0 ↔ ∀ visit ∈ visits, visit.result = .ok () := by
  have hok {result : Except NetworkError Unit} : (!result.isOk) = true ↔ result ≠ .ok () := by
    cases result with
    | ok value => simp [Except.isOk, Except.toBool]
    | error failure => simp [Except.isOk, Except.toBool]
  simp only [failed, List.countP_eq_zero, hok, not_not]

/-- The interface that leads outside is the configured one, or else the one that the machine names for its
    default route. If neither is to be had, that is the failure. -/
theorem egressOf_finds (machine : Machine σ) (config : Config) (state : σ) :
    Finds machine config state (egressOf machine config state).1 (egressOf machine config state).2 := by
  unfold egressOf
  split
  case h_1 interface hsome => exact .configured hsome
  case h_2 hnone =>
    cases hanswer : machine.answer .egressInterface state with
    | mk answer after =>
      match answer with
      | .crashed =>
        simp only [Program.perform, Program.run, hanswer]
        exact .died hnone hanswer
      | .returned (.error cause) =>
        simp only [Program.perform, Program.run, hanswer]
        exact .undetected hnone hanswer
      | .returned (.ok interface) =>
        simp only [Program.perform, Program.run, hanswer]
        exact .detected hnone hanswer

/-- The slots are visited in the order of the list, and the failures are added to those counted before. -/
theorem reapAll_visiting (machine : Machine σ) (egress : String) (ids : List SlotId) (count : Nat) (state : σ) :
    ∃ visits unvisited after,
    Visiting machine egress visits unvisited state after ∧ visits.map (·.id) ++ unvisited = ids ∧
    reapAll machine egress ids count state =
      (if unvisited = [] then .ok (count + failed visits) else .error (networkCauses .workerGone), after) := by
  induction ids generalizing count state with
  | nil => exact ⟨[], [], state, .done, rfl, rfl⟩
  | cons id ids ih =>
    cases hrun : (Operation.reap.program egress (.fresh id)).run machine state with
    | mk ended between =>
      have hstep : ((Slot.reap egress).run (.fresh id)).run machine state = (ended, between) := hrun
      match ended with
      | none =>
        obtain ⟨call, guards, left, hpanics, rfl⟩ := Program.exists_panics hrun
        refine ⟨[], id :: ids, _, .died hpanics, rfl, ?_⟩
        simp only [reapAll, hstep, if_neg (List.cons_ne_nil id ids)]
      | some (.ok value, slot) =>
        obtain ⟨visits, unvisited, after, hvisiting, hids, hrest⟩ := ih count between
        refine ⟨_, unvisited, after, .visit hrun hvisiting, congrArg (id :: ·) hids, ?_⟩
        simp only [reapAll, hstep, hrest, failed_ok]
      | some (.error failure, slot) =>
        obtain ⟨visits, unvisited, after, hvisiting, hids, hrest⟩ := ih (count + 1) between
        refine ⟨_, unvisited, after, .visit hrun hvisiting, congrArg (id :: ·) hids, ?_⟩
        simp only [reapAll, hstep, hrest, failed_error, Nat.add_assoc, Nat.add_comm 1]

/-- Where every call is answered, no slot of the range is left out. -/
theorem Visiting.unvisited_eq_nil (h : Visiting machine egress visits unvisited state after)
    (hanswers : machine.Answers) : unvisited = [] := by
  induction h with
  | done => rfl
  | visit hrun hrest ih => exact ih
  | died hpanics => exact (hanswers.not_panics hpanics).elim

/-- Each visit tries all duties of its slot and tells of every failure among them. -/
theorem Visiting.tried (h : Visiting machine egress visits unvisited state after) : ∀ visit ∈ visits,
    ∃ failures, Trying (visit.id.reaping egress) visit.records failures ∧ Told failures visit.result := by
  induction h with
  | done => exact fun _ hvisit => nomatch hvisit
  | visit hrun hrest ih =>
    obtain ⟨result, slot, after, hrun', -, failures, htrying, htold⟩ :=
      (Slot.reap_recorded _ egress).recorded (Program.returns_of_run hrun)
    have hsame := hrun.symm.trans hrun'
    simp only [Prod.mk.injEq, Option.some.injEq] at hsame
    obtain ⟨⟨rfl, -⟩, -⟩ := hsame
    exact List.forall_mem_cons.mpr ⟨⟨failures, htrying, htold⟩, ih⟩
  | died hpanics => exact fun _ hvisit => nomatch hvisit

/-- What is on record of a visit belongs to its slot and to no other. -/
theorem Visiting.own (h : Visiting machine egress visits unvisited state after) : ∀ visit ∈ visits,
    ∀ record ∈ visit.records, ∀ other : SlotId, record.call ∈ other.clearing egress ↔ other = visit.id := by
  intro visit hvisit record hrecord other
  obtain ⟨failures, htrying, -⟩ := h.tried visit hvisit
  have hclearing : record.call ∈ visit.id.clearing egress := htrying.call_mem hrecord
  exact ⟨fun hother => SlotId.clearing_apart hother hclearing, fun h => h ▸ hclearing⟩

/-- A range inside the plan has each of its numbers once, in ascending order. -/
theorem slotRange_numbers (hlast : last ≤ planSize) :
    (slotRange first last).map (·.val) = List.range' first (last - first) := by
  have hfound : ∀ n ∈ List.range' first (last - first), (SlotId.ofNat? n).map (·.val) = some n := by
    intro n hn
    have hinside := List.mem_range'_1.mp hn
    rw [SlotId.ofNat?_of_lt (by omega)]
    rfl
  rw [slotRange, List.map_filterMap, List.filterMap_congr hfound, List.filterMap_some]

theorem success_ne_failure {stdout stdout' : String} {causes : Causes} :
    Ending.success stdout ≠ .failure stdout' causes := by
  intro h
  cases congrArg Ending.status h

/-- What is told in the end is what came of the visits. -/
theorem reap_verdict {between : σ} (hfound : egressOf machine config state = (.ok egress, between))
    (hreapAll : reapAll machine egress (slotRange first last) 0 between =
      (if unvisited = [] then .ok (0 + failed visits) else .error (networkCauses .workerGone), after)) :
    ∃ ending, reap machine config first last state = (ending, after) ∧ Verdict visits unvisited ending := by
  rw [Nat.zero_add] at hreapAll
  by_cases hcomplete : unvisited = []
  case neg =>
    rw [if_neg hcomplete] at hreapAll
    refine ⟨.failure "" (networkCauses .workerGone), by simp only [reap, hfound, hreapAll], ?_, ?_, fun _ => rfl⟩
    · exact iff_of_false success_ne_failure.symm fun h => hcomplete h.1
    · exact fun h => absurd h hcomplete
  rw [if_pos hcomplete] at hreapAll
  cases hcount : failed visits with
  | zero =>
    rw [hcount] at hreapAll
    have hall := failed_eq_zero_iff.mp hcount
    refine ⟨.success "", by simp only [reap, hfound, hreapAll], iff_of_true rfl ⟨hcomplete, hall⟩, ?_, ?_⟩
    · rintro - ⟨visit, hmem, hfailed⟩
      exact absurd (hall visit hmem) hfailed
    · exact fun h => absurd hcomplete h
  | succ n =>
    rw [hcount] at hreapAll
    have hsome : ¬ ∀ visit ∈ visits, visit.result = .ok () := fun hall => by
      rw [failed_eq_zero_iff.mpr hall] at hcount
      cases hcount
    refine ⟨.failure "" [s!"{n + 1} slot(s) could not be fully reaped"], by simp only [reap, hfound, hreapAll], ?_,
      fun _ _ => by rw [hcount], ?_⟩
    · exact iff_of_false success_ne_failure.symm fun h => hsome h.2
    · exact fun h => absurd hcomplete h

/-- Clearing up after a range covers the range. Without an interface that leads outside it ends before any slot is
    touched. With one, every slot of the range is visited once and in ascending order, whatever comes of the others, and
    nothing else is touched. It ends well exactly if all visits did, and tells otherwise how many did not. -/
theorem reap_covers (first last : Nat) (hlast : last ≤ planSize) (machine : Machine σ) (config : Config) (state : σ) :
    ∃ found between, Finds machine config state found between ∧
      match found with
      | .error causes => reap machine config first last state = (.failure "" causes, between)
      | .ok egress => ∃ visits unvisited ending after,
        reap machine config first last state = (ending, after) ∧
        Course machine egress first last between visits unvisited ending after := by
  refine ⟨_, _, egressOf_finds machine config state, ?_⟩
  cases hfound : egressOf machine config state with
  | mk found between =>
    cases found with
    | error causes => simp only [reap, hfound]
    | ok egress =>
      obtain ⟨visits, unvisited, after, hvisiting, hids, hreapAll⟩ :=
        reapAll_visiting machine egress (slotRange first last) 0 between
      obtain ⟨ending, hreap, hverdict⟩ := reap_verdict hfound hreapAll
      have hnumbers : (visits.map (·.id) ++ unvisited).map (·.val) = List.range' first (last - first) :=
        hids ▸ slotRange_numbers hlast
      exact ⟨visits, unvisited, ending, after, hreap, hvisiting, hnumbers, hvisiting.tried, hvisiting.own, hverdict,
        hvisiting.unvisited_eq_nil⟩

/-- A configuration that names the interface. -/
def cabledConfig : Config :=
  Config.ofEnvironment "" fun name => if name = "NETPOOL_EGRESS_INTERFACE" then some "eth0" else none

/-- A Linux machine on which nothing is installed. -/
def emptyHost : Linux.Host := ⟨.unprivileged, .usual, [], "", ⟨false, []⟩, none, hostNamespace, []⟩

/-- On a Linux machine all of the plan is covered. Elsewhere, a route that cannot be deleted keeps nothing from being
    tried, and it is counted. -/
theorem reap_covers_withRoute :
    let machine := Rehearsal.rehearsing World.machine
    let rehearsal : Rehearsal World := .order (.start .fresh) Operation.routeFault
    let oneFailed : Ending := .failure "" ["1 slot(s) could not be fully reaped"]
    (∃ visits ending after, reap Linux.machine cabledConfig 0 planSize emptyHost = (ending, after) ∧
      Course Linux.machine "eth0" 0 planSize emptyHost visits [] ending after) ∧
    (∃ visits after, reap machine cabledConfig 3 5 rehearsal = (oneFailed, after) ∧
      Course machine "eth0" 3 5 rehearsal visits [] oneFailed after) := by
  have hcovers {σ : Type} (first last : Nat) (hlast : last ≤ planSize) (machine : Machine σ) (state : σ) :
      ∃ visits unvisited ending after, reap machine cabledConfig first last state = (ending, after) ∧
        Course machine "eth0" first last state visits unvisited ending after := by
    obtain ⟨found, between, hfinds, hfound⟩ := reap_covers first last hlast machine cabledConfig state
    cases hfinds with
    | configured hsome => exact Option.some.inj hsome ▸ hfound
    | detected hnone | undetected hnone | died hnone => cases hnone
  constructor
  · obtain ⟨visits, unvisited, ending, after, hreap, hcourse⟩ := hcovers 0 _ (Nat.le_refl _) Linux.machine emptyHost
    have hcomplete : unvisited = [] := hcourse.answered Linux.machine_answers
    exact ⟨visits, ending, after, hreap, hcomplete ▸ hcourse⟩
  · have hending : (reap (Rehearsal.rehearsing World.machine) cabledConfig 3 5
        (.order (.start .fresh) Operation.routeFault)).1 =
          .failure "" ["1 slot(s) could not be fully reaped"] := by
      decide +kernel
    have halive : Ending.failure "" ["1 slot(s) could not be fully reaped"] ≠
        .failure "" (networkCauses .workerGone) := by
      decide
    obtain ⟨visits, unvisited, ending, after, hreap, hcourse⟩ := hcovers 3 5 (by decide)
      (Rehearsal.rehearsing World.machine) (.order (.start .fresh) Operation.routeFault)
    rw [hreap] at hending
    subst hending
    have hcomplete : unvisited = [] := by
      by_contra hne
      exact halive (hcourse.verdict.died hne)
    exact ⟨visits, after, hreap, hcomplete ▸ hcourse⟩

end Operator
end SlotPool

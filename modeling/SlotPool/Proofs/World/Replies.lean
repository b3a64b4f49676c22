import SlotPool.Proofs.Primitive.Ensures
import SlotPool.Rehearsal.Fault
import SlotPool.World.Answer
/-!
The replies of the machine in memory when calls may fail. A call is answered as the machine answers
it, or it fails and changes nothing.
-/

namespace SlotPool

/-- Which calls may fail, under which guards, and how. -/
abbrev Hazard := Call → List Handle → NetworkError → Prop

/-- The hazard of calls that are made under one guard more. -/
def Hazard.under (hazard : Hazard) (origin : Handle) : Hazard :=
  fun call guards => hazard call (guards ++ [origin])

/-- Every call may fail in every way. -/
def Hazard.any : Hazard := fun _ _ _ => True

/-- No call fails besides those that the machine itself refuses. -/
def Hazard.none : Hazard := fun _ _ _ => False

/-- The thread is always taken back when a guard ends. -/
def Hazard.Returns (hazard : Hazard) : Prop :=
  ∀ origin failure, ¬ hazard (.enterNamespace origin) [] failure

theorem Hazard.none_returns : Hazard.none.Returns := fun _ _ hstruck => hstruck

namespace World

/-- The answers of the machine in memory, and the failures that may come instead. -/
def replies (hazard : Hazard) : Replies World :=
  fun call guards world result after =>
    world.answer call = (result, after) ∨
      ∃ failure, hazard call guards failure ∧ result = .error failure ∧ after = world

variable {hazard : Hazard} {call : Call} {guards : List Handle} {world after : World}
  {result : Except NetworkError call.Reply}

/-- A call that fails changes nothing. -/
theorem answer_error {failure : NetworkError} (h : world.answer call = (.error failure, after)) :
    after = world := by
  have hedit {change : Namespace → Except NetworkError Namespace}
      (h : world.edit change = (.error failure, after)) : after = world := by
    unfold edit at h
    split at h
    · simpa using (congrArg Prod.snd h).symm
    · split at h
      · simpa using (congrArg Prod.snd h).symm
      · cases h
  cases call with
  | openNamespace name | createNamespace name | deleteNamespace name | addVethPair name peer
  | moveLink link target | deleteLink name | linkExists name | enterNamespace target =>
    simp only [answer, openNamed, createNamed, deleteNamed, layCable, moveLink, deleteLink, enter] at h
    repeat' split at h
    all_goals first
      | cases h; rfl
      | cases h
  | currentNamespace | namespaceExists name | egressInterface => cases h
  | _ => exact hedit h

theorem replies_error {failure : NetworkError}
    (hreply : replies hazard call guards world (.error failure) after) : after = world := by
  rcases hreply with hanswered | ⟨-, -, -, rfl⟩
  · exact answer_error hanswered
  · rfl

theorem replies_none (hreply : replies .none call guards world result after) :
    world.answer call = (result, after) := by
  rcases hreply with hanswered | ⟨failure, hstruck, -⟩
  · exact hanswered
  · exact hstruck.elim

/-- The machine in memory brings every program to its end. -/
theorem run_of_ensures {α : Type} {inv : World → Prop} {post : α → World → Prop} {p : Program α}
    (hp : p.Ensures (replies .none) inv post world) :
    ∃ value after, p.run machine world = (some value, after) ∧ post value after := by
  induction p generalizing world with
  | done value => exact ⟨value, world, rfl, hp⟩
  | call c guards next ih => exact ih _ (hp.2 _ _ (.inl rfl))

/-- A call that succeeds was answered. -/
theorem replies_ok {value : call.Reply} (hreply : replies hazard call guards world (.ok value) after) :
    world.answer call = (.ok value, after) := by
  rcases hreply with hanswered | ⟨failure, -, hresult, -⟩
  · exact hanswered
  · cases hresult

/-- What holds before a call and after its success holds after every reply. -/
theorem replies_keeps {condition : World → Prop}
    (hreply : replies hazard call guards world result after) (hbefore : condition world)
    (hafter : ∀ value, world.answer call = (.ok value, after) → condition after) :
    condition after := by
  cases result with
  | ok value => exact hafter value (replies_ok hreply)
  | error failure =>
    rw [replies_error hreply]
    exact hbefore

/-- An edit that succeeds replaces the current namespace. -/
theorem edit_ok {change : Namespace → Except NetworkError Namespace}
    (h : world.edit change = (.ok (), after)) :
    ∃ ns ns', world.namespaces[world.current]? = some ns ∧ change ns = .ok ns' ∧
      after = world.setNamespace world.current ns' := by
  unfold edit at h
  split at h
  · cases h
  · rename_i ns hns
    split at h
    · cases h
    · rename_i ns' hchange
      obtain rfl := by simpa using h
      exact ⟨ns, ns', hns, hchange, rfl⟩

/-- A namespace that could be entered is on record, and the thread is there now. Nothing else has changed. -/
theorem enter_ok {target : Handle} (h : world.enter target = (.ok (), after)) :
    target.label ∈ world.namespaces ∧ after = { world with current := target.label } := by
  unfold enter at h
  split at h
  · rename_i hmem
    obtain rfl := by simpa using h
    exact ⟨hmem, rfl⟩
  · cases h

/-- A namespace that is there can be entered. -/
theorem enter_mem {target : Handle} {result : Except NetworkError Unit} (hmem : target.label ∈ world.namespaces)
    (h : world.enter target = (result, after)) :
    result = .ok () ∧ after = { world with current := target.label } := by
  rw [enter, if_pos hmem] at h
  exact ⟨(congrArg Prod.fst h).symm, (congrArg Prod.snd h).symm⟩

/-- What is opened by name is on record, and its handle owns what it leads to. -/
theorem openNamed_ok {name : String} {handle : Handle}
    (h : world.openNamed name = (.ok handle, after)) :
    name ∈ world.namespaces ∧ handle = ⟨name, true⟩ ∧ after = world := by
  unfold openNamed at h
  split at h
  · rename_i hmem
    obtain ⟨rfl, rfl⟩ := by simpa using h
    exact ⟨hmem, rfl, rfl⟩
  · cases h

/-- Capturing changes nothing, and the handle leads to where the thread is. -/
theorem replies_captured {result : Except NetworkError Handle}
    (hreply : replies hazard .currentNamespace guards world result after) :
    after = world ∧ ∀ origin, result = .ok origin → origin = ⟨world.current, true⟩ := by
  cases result with
  | error failure => exact ⟨replies_error hreply, by simp⟩
  | ok origin =>
    obtain ⟨rfl, rfl⟩ := by simpa [answer] using replies_ok hreply
    exact ⟨rfl, fun _ hresult => (Except.ok.inj hresult).symm⟩

/-- Opening changes nothing, and the handle leads to the namespace of this name. -/
theorem replies_opened {name : String} {result : Except NetworkError Handle}
    (hreply : replies hazard (.openNamespace name) guards world result after) :
    after = world ∧ ∀ handle, result = .ok handle → handle.label = name := by
  cases result with
  | error failure => exact ⟨replies_error hreply, by simp⟩
  | ok handle =>
    obtain ⟨-, rfl, rfl⟩ := openNamed_ok (replies_ok hreply)
    exact ⟨rfl, fun handle hresult => by rw [← Except.ok.inj hresult]⟩

theorem replies_entered {target : Handle}
    (hreply : replies hazard (.enterNamespace target) guards world (.ok ()) after) :
    after.current = target.label :=
  congrArg current (enter_ok (replies_ok hreply)).2

/-- A namespace that could be made was not there. -/
theorem createNamed_ok {name : String} {handle : Handle}
    (h : world.createNamed name = (.ok handle, after)) :
    name ∉ world.namespaces ∧ handle = ⟨name, true⟩ ∧
      after = { world.setNamespace name .bare with current := name } := by
  unfold createNamed at h
  split at h
  · cases h
  · rename_i hmem
    obtain ⟨rfl, rfl⟩ := by simpa using h
    exact ⟨hmem, rfl, rfl⟩

/-- A device that could be deleted was there, and it has taken the other end of its cable with it. -/
theorem deleteLink_ok {name : String} (h : world.deleteLink name = (.ok (), after)) :
    ∃ ns, world.namespaces[world.current]? = some ns ∧ name ∈ ns.links ∧
      after = (world.setNamespace world.current (ns.dropLink name)).dropPeer name := by
  unfold deleteLink at h
  split at h
  · cases h
  · rename_i ns hns
    split at h
    · cases h
    · rename_i hmem
      obtain rfl := by simpa using h
      exact ⟨ns, hns, by simpa using hmem, rfl⟩

/-- A device is not deleted only if it is absent. -/
theorem deleteLink_error {name : String} {failure : NetworkError}
    (h : world.deleteLink name = (.error failure, after)) :
    failure.isNotFound = true ∧
      ∀ ns, world.namespaces[world.current]? = some ns → name ∉ ns.links := by
  unfold deleteLink at h
  split at h
  · rename_i hns
    cases h
    exact ⟨rfl, by simp [hns]⟩
  · rename_i ns hns
    split at h
    · rename_i habsent
      cases h
      refine ⟨rfl, fun found hfound => ?_⟩
      exact Option.some.inj (hns.symm.trans hfound) ▸ habsent
    · cases h

/-- A new cable has both its ends where the thread is, and each is on record as the peer of the other. -/
theorem layCable_ok {name peer : String} (h : world.layCable name peer = (.ok (), after)) :
    ∃ ns, world.namespaces[world.current]? = some ns ∧
      after = { world.setNamespace world.current
        { ns with links := (ns.links.insert name .plain).insert peer .plain } with
        peers := (world.peers.insert name peer).insert peer name } := by
  unfold layCable at h
  split at h
  · cases h
  · rename_i ns hns
    split at h
    · cases h
    · obtain rfl := by simpa using h
      exact ⟨ns, hns, rfl⟩

/-- A device that is moved is gone here and is there in the target, as it was when it was made: down and without
    an address. -/
theorem moveLink_ok {name : String} {target : Handle}
    (h : world.moveLink name target = (.ok (), after)) :
    target.label ∈ world.namespaces ∧ ∃ ns, world.namespaces[world.current]? = some ns ∧
      name ∈ ns.links ∧ after = { world with
        namespaces := (world.namespaces.insert world.current (ns.dropLink name)).modify target.label
          fun ns => { ns with links := ns.links.insert name .plain } } := by
  unfold moveLink at h
  split at h
  · cases h
  · rename_i htarget
    split at h
    · cases h
    · rename_i ns hns
      split at h
      · cases h
      · rename_i hmem
        obtain rfl := by simpa using h
        exact ⟨by simpa using htarget, ns, hns, by simpa using hmem, rfl⟩

/-- A namespace that could be deleted takes all its devices with it, and these take the other ends of their
    cables. The host is never deleted. -/
theorem deleteNamed_ok {name : String} (h : world.deleteNamed name = (.ok (), after)) :
    name ≠ hostNamespace ∧ ∃ ns, world.namespaces[name]? = some ns ∧
      after = ns.links.keys.foldl dropPeer { world with namespaces := world.namespaces.erase name } := by
  unfold deleteNamed at h
  split at h
  · cases h
  · rename_i hhost
    split at h
    · cases h
    · rename_i ns hns
      obtain rfl := by simpa using h
      exact ⟨hhost, ns, hns, rfl⟩

/-- A namespace other than the host is not deleted only if it is not on record. -/
theorem deleteNamed_error {name : String} {failure : NetworkError}
    (h : world.deleteNamed name = (.error failure, after)) :
    failure.isNotFound = true ∧ (name ≠ hostNamespace → name ∉ world.namespaces) := by
  unfold deleteNamed at h
  split at h
  · rename_i hname
    cases h
    exact ⟨rfl, fun hhost => (hhost hname).elim⟩
  · split at h
    · rename_i hns
      cases h
      exact ⟨rfl, fun _ => by simp [Std.ExtTreeMap.mem_iff_isSome_getElem?, hns]⟩
    · cases h

/-- A route that could be added was not there, and now it is the last one. -/
theorem addRoute_ok {route : Route} {ns ns' : Namespace} (h : addRoute route ns = .ok ns') :
    route ∉ ns.routes ∧ ns' = { ns with routes := ns.routes ++ [route] } := by
  unfold addRoute at h
  split at h
  · cases h
  · rename_i hroute
    exact ⟨hroute, by simpa using h.symm⟩

/-- A route that could be deleted was there, and one copy of it has gone. -/
theorem deleteRoute_ok {route : Route} {ns ns' : Namespace} (h : deleteRoute route ns = .ok ns') :
    route ∈ ns.routes ∧ ns' = { ns with routes := ns.routes.erase route } := by
  unfold deleteRoute at h
  split at h
  · rename_i hroute
    exact ⟨hroute, by simpa using h.symm⟩
  · cases h

theorem appendRule_ok {rule : Rule} {ns ns' : Namespace} (h : appendRule rule ns = .ok ns') :
    ns' = { ns with rules := ns.rules ++ [rule] } := by
  unfold appendRule at h
  split at h
  · simpa using h.symm
  · cases h

/-- A rule that could be deleted was there, and one copy of it has gone. There may be others, since rules are
    added without a look. -/
theorem deleteRule_ok {rule : Rule} {ns ns' : Namespace} (h : deleteRule rule ns = .ok ns') :
    rule ∈ ns.rules ∧ ns' = { ns with rules := ns.rules.erase rule } := by
  unfold deleteRule at h
  split at h
  · rename_i hrule
    exact ⟨hrule, by simpa using h.symm⟩
  · cases h

theorem linkExists_ok {link : String} {found : Bool}
    (h : world.answer (.linkExists link) = (.ok found, after)) : after = world := by
  simp only [answer] at h
  split at h
  · cases h
  · exact (congrArg Prod.snd h).symm

end World

/-- A rehearsal on the machine in memory has the answers of the machine, or a call fails or kills the
    thread without effect on the machine. -/
theorem Rehearsal.rehearsing_within :
    (rehearsing World.machine).Within (·.machine) (World.replies .any) := by
  intro call guards rehearsal
  have hrefusing (rehearsal : Rehearsal World) :
      ∃ result after, answerRefusing World.machine call rehearsal = (.returned result, after) ∧
        World.replies .any call guards rehearsal.machine result after.machine := by
    unfold answerRefusing
    split
    · exact ⟨_, _, rfl, .inr ⟨_, trivial, rfl, rfl⟩⟩
    · exact ⟨_, _, rfl, .inr ⟨_, trivial, rfl, rfl⟩⟩
    · exact ⟨_, _, rfl, .inl rfl⟩
  simp only [rehearsing, answerStruck]
  cases Fault.strike call.name rehearsal.faults with
  | mk struck faults =>
    match struck with
    | some (some failure) => exact .inr ⟨failure, trivial, rfl, rfl⟩
    | some none => rfl
    | none =>
      obtain ⟨result, after, hanswer, hreply⟩ := hrefusing { rehearsal with faults }
      simp only [hanswer]
      exact hreply

/-- What strikes is the failure of a fault that has not been spent. -/
theorem Fault.exists_of_strike {operation : String} {faults : List Fault} {struck : Option NetworkError}
    (h : (Fault.strike operation faults).1 = some struck) :
    ∃ fault ∈ faults, 0 < fault.times ∧ fault.operation = operation ∧ fault.failure = struck := by
  induction faults with
  | nil => cases h
  | cons fault rest ih =>
    have hrest (hlater : (Fault.strike operation rest).1 = some struck) :
        ∃ other ∈ fault :: rest, 0 < other.times ∧ other.operation = operation ∧ other.failure = struck := by
      obtain ⟨other, hmem, hother⟩ := ih hlater
      exact ⟨other, List.mem_cons_of_mem _ hmem, hother⟩
    simp only [Fault.strike] at h
    split at h
    · exact hrest h
    · rename_i hoperation
      split at h
      · exact hrest h
      · split at h
        · rename_i htimes
          exact ⟨fault, List.mem_cons_self .., htimes, Decidable.of_not_not hoperation, Option.some.inj h⟩
        · exact hrest h

/-- A call uses faults up and does not make them. -/
theorem Fault.strike_forall {kind : Fault → Prop} (operation : String) {faults : List Fault}
    (huse : ∀ fault skip times, kind fault → times ≤ fault.times → kind { fault with skip, times })
    (h : ∀ fault ∈ faults, kind fault) : ∀ fault ∈ (Fault.strike operation faults).2, kind fault := by
  induction faults with
  | nil => exact h
  | cons fault rest ih =>
    obtain ⟨hfirst, hrest⟩ := List.forall_mem_cons.mp h
    simp only [Fault.strike]
    split
    · exact List.forall_mem_cons.mpr ⟨hfirst, ih hrest⟩
    · split
      · exact List.forall_mem_cons.mpr ⟨huse fault _ _ hfirst (Nat.le_refl _), ih hrest⟩
      · split
        · exact List.forall_mem_cons.mpr ⟨huse fault _ _ hfirst (Nat.sub_le ..), hrest⟩
        · exact List.forall_mem_cons.mpr ⟨hfirst, ih hrest⟩

/-- A call that no fault strikes, and that is not refused, is answered by the machine. -/
theorem Rehearsal.answer_unstruck {call : Call} {guards : List Handle} {hazard : Hazard} {rehearsal : Rehearsal World}
    (hrefused : rehearsal.refused = []) (hnone : (Fault.strike call.name rehearsal.faults).1 = none) :
    ∃ result after, (rehearsing World.machine).answer call rehearsal = (.returned result, after) ∧
      World.replies hazard call guards rehearsal.machine result after.machine ∧ after.refused = [] ∧
      after.faults = (Fault.strike call.name rehearsal.faults).2 := by
  have hanswer : answerStruck World.machine call rehearsal = (.returned (rehearsal.machine.answer call).1,
      { rehearsal with
        machine := (rehearsal.machine.answer call).2
        faults := (Fault.strike call.name rehearsal.faults).2 }) := by
    simp only [answerStruck, hnone, answerRefusing, hrefused, List.lookup_nil]
    rfl
  simp only [rehearsing, hanswer]
  exact ⟨_, _, rfl, .inl rfl, hrefused, rfl⟩

/-- No fault strikes any more, and nothing is refused. -/
def Rehearsal.Honest {σ : Type} (rehearsal : Rehearsal σ) : Prop :=
  rehearsal.refused = [] ∧ ∀ fault ∈ rehearsal.faults, fault.times = 0

instance {σ : Type} {rehearsal : Rehearsal σ} : Decidable rehearsal.Honest :=
  inferInstanceAs (Decidable (_ ∧ _))

/-- From then on the machine answers, and so it goes on. -/
theorem Rehearsal.Honest.answer (call : Call) (guards : List Handle) (rehearsal : Rehearsal World)
    (h : rehearsal.Honest) : ∃ result after,
      (rehearsing World.machine).answer call rehearsal = (.returned result, after) ∧
        World.replies .none call guards rehearsal.machine result after.machine ∧ after.Honest := by
  have hnone : (Fault.strike call.name rehearsal.faults).1 = none := by
    refine Option.eq_none_iff_forall_ne_some.mpr fun struck hstruck => ?_
    obtain ⟨fault, hmem, htimes, -⟩ := Fault.exists_of_strike hstruck
    have hspent := h.2 fault hmem
    omega
  obtain ⟨result, after, hanswer, hreply, hrefused, hfaults⟩ := answer_unstruck h.1 hnone
  refine ⟨result, after, hanswer, hreply, hrefused, hfaults ▸ Fault.strike_forall _ ?_ h.2⟩
  intro fault skip times hspent hle
  exact Nat.le_zero.mp (hspent ▸ hle)

/-- Where all faults are of a kind that does no more than `hazard` says, a call does no more. -/
theorem Rehearsal.answer_faulty {kind : Fault → Prop} {hazard : Hazard} {call : Call} {guards : List Handle}
    {rehearsal : Rehearsal World}
    (huse : ∀ fault skip times, kind fault → times ≤ fault.times → kind { fault with skip, times })
    (hstrikes : ∀ fault, kind fault → fault.operation = call.name → ∃ failure, fault.failure = some failure ∧
      hazard call guards failure)
    (hrefused : rehearsal.refused = []) (hfaults : ∀ fault ∈ rehearsal.faults, kind fault) : ∃ result after,
      (rehearsing World.machine).answer call rehearsal = (.returned result, after) ∧
        World.replies hazard call guards rehearsal.machine result after.machine ∧ after.refused = [] ∧
        ∀ fault ∈ after.faults, kind fault := by
  have hkept : ∀ fault ∈ (Fault.strike call.name rehearsal.faults).2, kind fault :=
    Fault.strike_forall call.name huse hfaults
  cases hstruck : (Fault.strike call.name rehearsal.faults).1 with
  | none =>
    obtain ⟨result, after, hanswer, hreply, hrefused, hleft⟩ := answer_unstruck hrefused hstruck
    exact ⟨result, after, hanswer, hreply, hrefused, hleft ▸ hkept⟩
  | some struck =>
    obtain ⟨fault, hmem, -, hoperation, rfl⟩ := Fault.exists_of_strike hstruck
    obtain ⟨failure, hfailure, hhazard⟩ := hstrikes fault (hfaults fault hmem) hoperation
    have hanswer : answerStruck World.machine call rehearsal = (.returned (.error failure),
        { rehearsal with faults := (Fault.strike call.name rehearsal.faults).2 }) := by
      simp only [answerStruck, hstruck, hfailure]
    simp only [rehearsing, hanswer]
    exact ⟨_, _, rfl, .inr ⟨failure, hhazard, rfl, rfl⟩, hrefused, hkept⟩

/-- Calls may fail, but all in one way. -/
def Rehearsal.Failing (failure : NetworkError) (rehearsal : Rehearsal World) : Prop :=
  rehearsal.refused = [] ∧ ∀ fault ∈ rehearsal.faults, fault.failure = some failure

theorem Rehearsal.Failing.answer {failure : NetworkError} (call : Call) (guards : List Handle)
    (rehearsal : Rehearsal World) (h : rehearsal.Failing failure) : ∃ result after,
      (rehearsing World.machine).answer call rehearsal = (.returned result, after) ∧
        World.replies (fun _ _ struck => struck = failure) call guards rehearsal.machine result after.machine ∧
        after.Failing failure :=
  answer_faulty (fun _ _ _ hfailure _ => hfailure) (fun _ hfailure _ => ⟨failure, hfailure, rfl⟩) h.1 h.2

/-- The next look for a namespace fails, and nothing else. -/
def Rehearsal.Blinded {σ : Type} (rehearsal : Rehearsal σ) : Prop :=
  rehearsal.refused = [] ∧
    (rehearsal.faults.map fun fault => (fault.operation, fault.skip, fault.times, fault.failure.isSome)) =
      [("namespace_exists", 0, 1, true)]

instance {σ : Type} {rehearsal : Rehearsal σ} : Decidable rehearsal.Blinded :=
  inferInstanceAs (Decidable (_ ∧ _))

/-- The next look for a namespace fails, and after it the machine is an honest one. -/
theorem Rehearsal.Blinded.answer {name : String} {rehearsal : Rehearsal World} (h : rehearsal.Blinded) :
    ∃ failure after,
      (rehearsing World.machine).answer (.namespaceExists name) rehearsal = (.returned (.error failure), after) ∧
        after.machine = rehearsal.machine ∧ after.Honest := by
  obtain ⟨hrefused, hfaults⟩ := h
  obtain ⟨failure, hfaults⟩ :
      ∃ failure, rehearsal.faults = [⟨"namespace_exists", 0, 1, some failure⟩] := by
    obtain ⟨⟨operation, skip, times, failure?⟩, hone, hfault⟩ := List.map_eq_singleton_iff.mp hfaults
    simp only [Prod.mk.injEq, Option.isSome_iff_exists] at hfault
    obtain ⟨rfl, rfl, rfl, failure, rfl⟩ := hfault
    exact ⟨failure, hone⟩
  have hstrike : Fault.strike "namespace_exists" rehearsal.faults =
      (some (some failure), [⟨"namespace_exists", 0, 0, some failure⟩]) := by simp [hfaults, Fault.strike]
  have hanswer : answerStruck World.machine (.namespaceExists name) rehearsal =
      (.returned (.error failure),
        { rehearsal with faults := [⟨"namespace_exists", 0, 0, some failure⟩] }) := by
    simp only [answerStruck, Call.name, hstrike]
  simp only [rehearsing, hanswer]
  exact ⟨failure, _, rfl, rfl, hrefused, fun fault hmem => List.mem_singleton.mp hmem ▸ rfl⟩

end SlotPool

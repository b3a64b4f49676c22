import Mathlib.Data.List.Nodup
import SlotPool.Proofs.Allocator.Permits
/-!
Clients in line are served in order. A client waits only while there is no permit, nobody is granted one
before those who asked earlier, and a permit that is granted to a client who is cancelled goes on to the
next. So an identity that is given back reaches the first client who still wants it.
-/

namespace SlotPool.Line

/-- The client whom an event starts. -/
def Event.started? : Event → Option Client
  | .start client _ => some client
  | _ => none

/-- The clients whom a series of events starts, in order. -/
def started (events : List Event) : List Client := events.filterMap Event.started?

/-- An event that neither frees an identity nor closes the allocator. -/
def Event.Between : Event → Prop
  | .release _ | .close => False
  | _ => True

/-- The identities that clients got. -/
def gains (ended : List (Client × Except AllocatorError Nat)) : List Nat :=
  ended.filterMap (·.2.toOption)

/-- The clients in every place: in line, with a permit, and at the end. -/
def clients (line : Line) : List Client :=
  line.waiting ++ line.granted ++ line.picking ++ line.finished.map (·.1)

section

variable {events : List Event} {event : Event}

theorem gains_cons_ok (client : Client) (identity : Nat)
    (ended : List (Client × Except AllocatorError Nat)) :
    gains ((client, .ok identity) :: ended) = identity :: gains ended := rfl

theorem gains_cons_error (client : Client) (refusal : AllocatorError)
    (ended : List (Client × Except AllocatorError Nat)) :
    gains ((client, .error refusal) :: ended) = gains ended := rfl

/-- The identities gained are those that clients who have ended have got. -/
theorem mem_gains {ended : List (Client × Except AllocatorError Nat)} {identity : Nat} :
    identity ∈ gains ended ↔ ∃ client, (client, .ok identity) ∈ ended := by
  rw [gains, List.mem_filterMap]
  constructor
  · rintro ⟨⟨client, result⟩, hmem, hresult⟩
    cases result with
    | ok found =>
      obtain rfl : found = identity := by simpa [Except.toOption] using hresult
      exact ⟨client, hmem⟩
    | error refusal => cases hresult
  · rintro ⟨client, hmem⟩
    exact ⟨_, hmem, rfl⟩

/-- Where one identity was got, one client has got it. -/
theorem eq_of_gains_singleton {ended : List (Client × Except AllocatorError Nat)} {one other : Client}
    {identity got got' : Nat} (h : gains ended = [identity]) (hone : (one, .ok got) ∈ ended)
    (hother : (other, .ok got') ∈ ended) : one = other := by
  induction ended with
  | nil => cases hone
  | cons entry ended ih =>
    obtain ⟨client, _ | found⟩ := entry
    · rw [gains_cons_error] at h
      exact ih h (by simpa using hone) (by simpa using hother)
    · rw [gains_cons_ok, List.cons.injEq] at h
      have hnobody (client : Client) (got : Nat) : (client, .ok got) ∉ ended := fun hmem => by
        have hgot := mem_gains.mpr ⟨client, hmem⟩
        rw [h.2] at hgot
        cases hgot
      have hfirst {name : Client} {got : Nat} (hmem : (name, .ok got) ∈ (client, .ok found) :: ended) :
          name = client := by
        rcases List.mem_cons.mp hmem with hsame | hrest
        · exact congrArg Prod.fst hsame
        · exact (hnobody name got hrest).elim
      exact (hfirst hone).trans (hfirst hother).symm

/-- Of two clients started once each, only one was started first. -/
theorem not_each_first {names : List Client} {one other : Client} (hnames : names.Nodup)
    (hone : [one, other].Sublist names) (hother : [other, one].Sublist names) : False := by
  induction names with
  | nil => cases hone
  | cons name names ih =>
    obtain ⟨hname, hrest⟩ := List.nodup_cons.mp hnames
    cases hone with
    | cons _ hone =>
      cases hother with
      | cons _ hother => exact ih hrest hone hother
      | cons_cons _ hother => exact hname (hone.subset (by simp))
    | cons_cons _ hone =>
      cases hother with
      | cons _ hother => exact hname (hother.subset (by simp))
      | cons_cons _ hother => exact hname (hone.subset (by simp))

/-- Whoever is started last comes after all others. -/
theorem pair_sublist_append {names : List Client} {client earlier later : Client}
    (h : [earlier, later].Sublist (names ++ [client])) :
    [earlier, later].Sublist names ∨ (earlier ∈ names ∧ later = client) := by
  obtain ⟨front, back, heq, hfront, hback⟩ := List.sublist_append_iff.mp h
  match front, heq with
  | [], heq =>
    obtain rfl : [earlier, later] = back := heq
    simpa using hback.length_le
  | [first], heq =>
    obtain ⟨rfl, rfl⟩ : earlier = first ∧ [later] = back := by simpa using heq
    exact .inr ⟨hfront.subset (by simp), by simpa using hback.subset (List.mem_singleton_self later)⟩
  | [first, second], heq =>
    obtain ⟨rfl, rfl, -⟩ : earlier = first ∧ later = second ∧ [] = back := by simpa using heq
    exact .inl hfront
  | first :: second :: third :: rest, heq => simp at heq

end

/-- Clients in the order in which they were started. -/
structure InOrder (line : Line) (names : List Client) : Prop where
  /-- every client is in one place -/
  places : line.clients.Perm names
  order : (line.granted ++ line.waiting).Sublist names
  /-- a client waits only for want of a permit -/
  waits : line.waiting ≠ [] → line.allocator.closed = false ∧ line.allocator.available = 0
  /-- nobody is served before a client who was started earlier and still waits -/
  unpassed : ∀ earlier later, [earlier, later].Sublist names → earlier ∈ line.waiting →
    later ∈ line.waiting ∨ (later, .error .cancelled) ∈ line.finished

variable {line : Line} {names : List Client} {client : Client} {capacity identity choice : Nat}

theorem ofCapacity_inOrder (capacity : Nat) : (ofCapacity capacity).InOrder [] where
  places := .refl _
  order := .refl _
  waits := fun h => (h rfl).elim
  unpassed := fun _ _ _ hmem => by cases hmem

/-- Nothing in the order depends on which identities are free. -/
theorem InOrder.setAllocator {allocator : Allocator} (h : line.InOrder names)
    (hclosed : allocator.closed = line.allocator.closed)
    (havailable : allocator.available = line.allocator.available) :
    { line with allocator }.InOrder names where
  places := h.places
  order := h.order
  waits := fun hwaiting => hclosed ▸ havailable ▸ h.waits hwaiting
  unpassed := h.unpassed

/-- A client leaves a place where it does not wait, for another such place or for its end. -/
theorem InOrder.served {granted picking : List Client}
    {finished : List (Client × Except AllocatorError Nat)} (h : line.InOrder names)
    (hplaces : (granted ++ picking ++ finished.map (·.1)).Perm
      (line.granted ++ line.picking ++ line.finished.map (·.1)))
    (horder : granted.Sublist line.granted) (hfinished : line.finished ⊆ finished) :
    { line with granted, picking, finished }.InOrder names where
  places := by
    refine .trans ?_ h.places
    simpa only [clients, List.append_assoc] using hplaces.append_left line.waiting
  order := (horder.append_right _).trans h.order
  waits := h.waits
  unpassed earlier later hpair hmem := (h.unpassed earlier later hpair hmem).imp_right (hfinished ·)

/-- A permit goes to the first client in line. Whoever was started earlier has been granted one before, so
    nobody is passed over; where nobody is in line, the permit stays and nobody waits for it. -/
theorem InOrder.passPermit (h : line.InOrder names) (hnames : names.Nodup) :
    line.passPermit.InOrder names := by
  unfold Line.passPermit
  split
  · rename_i hwaiting
    exact ⟨h.places, h.order, fun hne => (hne hwaiting).elim, h.unpassed⟩
  · rename_i first rest hwaiting
    have horder := h.order
    have hunpassed := h.unpassed
    rw [hwaiting] at horder hunpassed
    refine ⟨?_, by simpa using horder, fun _ => h.waits (by simp [hwaiting]), ?_⟩
    · refine .trans (List.perm_iff_count.mpr fun name => ?_) h.places
      simp only [clients, hwaiting, List.count_append, List.count_cons, List.count_nil]
      omega
    · intro earlier later hpair hmem
      rcases hunpassed earlier later hpair (List.mem_cons_of_mem _ hmem) with hlater | hlater
      · rcases List.mem_cons.mp hlater with rfl | hrest
        · have hfirst : [later, earlier].Sublist (later :: rest) :=
            (List.singleton_sublist.mpr hmem).cons_cons later
          have hbefore := hfirst.trans ((List.sublist_append_right _ _).trans horder)
          exact (not_each_first hnames hpair hbefore).elim
        · exact .inl hrest
      · exact .inr hlater

/-- A client that is turned away never stands in line. While others wait this happens only to one that is
    cancelled, so nobody is passed over. -/
theorem InOrder.turnedAway {refusal : AllocatorError} (h : line.InOrder names)
    (hrefusal : line.waiting ≠ [] → refusal = .cancelled) :
    (line.finish client (.error refusal)).InOrder (names ++ [client]) where
  places := by
    refine .trans (List.perm_iff_count.mpr fun name => ?_) (h.places.append_right [client])
    simp only [clients, Line.finish, List.map_cons, List.count_append, List.count_cons, List.count_nil]
    omega
  order := h.order.trans (List.sublist_append_left _ _)
  waits := h.waits
  unpassed earlier later hpair hmem := by
    rcases pair_sublist_append hpair with hold | ⟨-, rfl⟩
    · exact (h.unpassed earlier later hold hmem).imp_right (List.mem_cons_of_mem _)
    · obtain rfl := hrefusal (List.ne_nil_of_mem hmem)
      exact .inr (List.mem_cons_self ..)

/-- A client that finds a permit takes it past nobody: whoever waits has found none. -/
theorem InOrder.admitted {allocator : Allocator} (h : line.InOrder names)
    (havailable : 0 < line.allocator.available) :
    { line with allocator, picking := line.picking ++ [client] }.InOrder (names ++ [client]) := by
  have hnobody : line.waiting = [] := by
    by_contra hwaiting
    have hnone := (h.waits hwaiting).2
    omega
  refine ⟨?_, h.order.trans (List.sublist_append_left _ _), fun hne => (hne hnobody).elim, ?_⟩
  · refine .trans (List.perm_iff_count.mpr fun name => ?_) (h.places.append_right [client])
    simp only [clients, List.count_append, List.count_cons, List.count_nil]
    omega
  · intro earlier later hpair hmem
    rw [hnobody] at hmem
    cases hmem

/-- A client that finds no permit stands behind all who wait already. -/
theorem InOrder.joins (h : line.InOrder names) (hnew : client ∉ names)
    (hopen : line.allocator.closed = false) (hnone : line.allocator.available = 0) :
    { line with waiting := line.waiting ++ [client] }.InOrder (names ++ [client]) where
  places := by
    refine .trans (List.perm_iff_count.mpr fun name => ?_) (h.places.append_right [client])
    simp only [clients, List.count_append, List.count_cons, List.count_nil]
    omega
  order := by
    rw [← List.append_assoc]
    exact h.order.append_right [client]
  waits := fun _ => ⟨hopen, hnone⟩
  unpassed earlier later hpair hmem := by
    rcases List.mem_append.mp hmem with hold | hlast
    · rcases pair_sublist_append hpair with hbefore | ⟨-, rfl⟩
      · exact (h.unpassed earlier later hbefore hold).imp_left (List.mem_append_left _)
      · exact .inl (by simp)
    · obtain rfl := List.mem_singleton.mp hlast
      rcases pair_sublist_append hpair with hbefore | ⟨hold, -⟩
      · exact (hnew (hbefore.subset (by simp))).elim
      · exact (hnew hold).elim

/-- A new client waits only if the allocator is open and has no permit left, and then stands behind all who wait
    already. With a permit at hand nobody else is in line. -/
theorem InOrder.start {cancelled : Bool} (h : line.InOrder names) (hnew : client ∉ names) :
    (line.start client cancelled).InOrder (names ++ [client]) := by
  unfold Line.start
  split
  · exact h.turnedAway fun _ => rfl
  · split
    · rename_i hclosed
      exact h.turnedAway fun hwaiting => by simp [(h.waits hwaiting).1] at hclosed
    · rename_i hopen
      split
      · rename_i allocator hpermit
        exact h.admitted (Allocator.takePermit?_eq_some_iff.mp hpermit).1
      · rename_i hpermit
        exact h.joins hnew (by simpa using hopen) (Allocator.takePermit?_eq_none_iff.mp hpermit)

/-- A client that was granted a permit and wakes up leaves the line for good. The order of those who are left
    does not change. -/
theorem InOrder.wake (h : line.InOrder names) (hnames : names.Nodup) :
    (line.wake client).InOrder names := by
  unfold Line.wake
  split
  · rename_i hmem
    have hgranted := List.perm_iff_count.mp (List.perm_cons_erase hmem)
    dsimp only
    split
    · refine InOrder.passPermit (h.served ?_ (List.erase_sublist ..) ?_) hnames
      · refine List.perm_iff_count.mpr fun name => ?_
        have hname := hgranted name
        simp only [List.map_cons, List.count_append, List.count_cons] at hname ⊢
        omega
      · exact List.subset_cons_self ..
    · refine h.served ?_ (List.erase_sublist ..) (List.Subset.refl _)
      refine List.perm_iff_count.mpr fun name => ?_
      have hname := hgranted name
      simp only [List.count_append, List.count_cons, List.count_nil] at hname ⊢
      omega
  · exact h

/-- A client that is about to pick finds a free identity, since the permits match, and is served. It left the
    line before, so the order of the line is not touched. -/
theorem InOrder.pick (h : line.InOrder names) (hpermitted : line.Permitted capacity) :
    (line.pick client choice).InOrder names := by
  by_cases hmem : client ∈ line.picking
  · obtain ⟨identity, allocator', hpick, hline⟩ := hpermitted.pick_ok choice hmem
    have hpicking := List.perm_iff_count.mp (List.perm_cons_erase hmem)
    have hsame := (Allocator.pick_spec hpick).2
    have hclosed : allocator'.closed = line.allocator.closed := by rw [hsame]
    have havailable : allocator'.available = line.allocator.available := by rw [hsame]
    rw [hline]
    refine (h.served ?_ (.refl _) (List.subset_cons_self (client, .ok identity) _)).setAllocator
      hclosed havailable
    refine List.perm_iff_count.mpr fun name => ?_
    have hname := hpicking name
    simp only [List.map_cons, List.count_append, List.count_cons] at hname ⊢
    omega
  · simpa only [Line.pick, if_neg hmem] using h

/-- A client that is cancelled in line simply goes. One that was granted a permit hands it on to the first in
    line, and one that was served already is not affected. -/
theorem InOrder.cancel (h : line.InOrder names) (hnames : names.Nodup) :
    (line.cancel client).InOrder names := by
  unfold Line.cancel
  split
  · rename_i hmem
    have hwaiting := List.perm_iff_count.mp (List.perm_cons_erase hmem)
    refine ⟨?_, ?_, fun hne => h.waits (List.ne_nil_of_mem hmem), fun earlier later hpair hstill => ?_⟩
    · refine .trans (List.perm_iff_count.mpr fun name => ?_) h.places
      have hname := hwaiting name
      simp only [clients, Line.finish, List.map_cons, List.count_append, List.count_cons] at hname ⊢
      omega
    · exact ((List.erase_sublist ..).append_left _).trans h.order
    · rcases h.unpassed earlier later hpair (List.mem_of_mem_erase hstill) with hlater | hlater
      · by_cases hsame : later = client
        · exact .inr (hsame ▸ List.mem_cons_self ..)
        · exact .inl ((List.mem_erase_of_ne hsame).mpr hlater)
      · exact .inr (List.mem_cons_of_mem _ hlater)
  · split
    · rename_i hmem
      have hgranted := List.perm_iff_count.mp (List.perm_cons_erase hmem)
      refine InOrder.passPermit (h.served ?_ (List.erase_sublist ..) ?_) hnames
      · refine List.perm_iff_count.mpr fun name => ?_
        have hname := hgranted name
        simp only [List.map_cons, List.count_append, List.count_cons] at hname ⊢
        omega
      · exact List.subset_cons_self ..
    · exact h

/-- An identity is given back by those who hold it. -/
theorem release_of_held (h : identity ∈ line.allocator.held) :
    line.apply (.release identity) = { line with allocator := { line.allocator with
      free := identity :: line.allocator.free
      held := line.allocator.held.erase identity } }.passPermit := by
  simp [Line.apply, Line.release, Allocator.giveBack, h, Except.map, Except.toOption]

/-- An identity that is given back makes a permit, which goes to the first in line. -/
theorem InOrder.release (h : line.InOrder names) (hnames : names.Nodup) :
    (line.apply (.release identity)).InOrder names := by
  by_cases hheld : identity ∈ line.allocator.held
  · have hfreed : { line with allocator := { line.allocator with
        free := identity :: line.allocator.free
        held := line.allocator.held.erase identity } }.InOrder names := h.setAllocator rfl rfl
    rw [release_of_held hheld]
    exact hfreed.passPermit hnames
  · rw [Line.apply, release_eq_error_iff.mpr hheld]
    exact h

/-- Closing sends all who wait away, and nobody else. -/
theorem close_eq : line.close = { line with
    allocator := line.allocator.close
    waiting := []
    finished := (line.waiting.map fun client => (client, .error .closed)).reverse ++ line.finished } := by
  have hfold (clients : List Client) (line : Line) :
      clients.foldl (fun line client => line.finish client (.error .closed)) line = { line with
        finished := (clients.map fun client => (client, .error .closed)).reverse ++ line.finished } := by
    induction clients generalizing line with
    | nil => rfl
    | cons client clients ih =>
      rw [List.foldl_cons, ih]
      simp [Line.finish]
  exact hfold ..

/-- When the allocator is closed, all who wait are sent away at once, so nobody waits any more. -/
theorem InOrder.close (h : line.InOrder names) : line.close.InOrder names := by
  rw [close_eq]
  refine ⟨?_, ?_, fun hne => (hne rfl).elim, fun earlier later hpair hmem => by cases hmem⟩
  · refine .trans (List.perm_iff_count.mpr fun name => ?_) h.places
    simp only [clients, List.map_append, List.map_reverse, List.map_map, Function.comp_def, List.map_id',
      List.count_append, List.count_reverse, List.count_nil]
    omega
  · exact (List.Sublist.append_left (List.nil_sublist _) _).trans h.order

/-- Every event keeps the order of those who were started before. -/
theorem InOrder.apply {event : Event} (h : line.InOrder names) (hpermitted : line.Permitted capacity)
    (hnames : names.Nodup) (hevent : event.started? = none) : (line.apply event).InOrder names := by
  cases event with
  | start client cancelled => cases hevent
  | wake client => exact h.wake hnames
  | pick client choice => exact h.pick hpermitted
  | cancel client => exact h.cancel hnames
  | release identity => exact h.release hnames
  | close => exact h.close

/-- Whatever happens, in any order, clients are served in the order in which they were started. The induction is
    on the events, and the permits have to be followed along, since a client that picks must find an identity.
    -/
theorem InOrder.run {events : List Event} (h : line.InOrder names) (hpermitted : line.Permitted capacity)
    (hnames : (names ++ started events).Nodup) :
    (events.foldl Line.apply line).InOrder (names ++ started events) := by
  induction events generalizing line names with
  | nil => simpa [started] using h
  | cons event events ih =>
    have hbefore : names.Nodup := (List.nodup_append.mp hnames).1
    rcases hstarted : event.started? with _ | client
    · rw [started, List.filterMap_cons_none hstarted] at hnames ⊢
      exact ih (h.apply hpermitted hbefore hstarted) (hpermitted.apply event) hnames
    · obtain ⟨cancelled, rfl⟩ : ∃ cancelled, event = .start client cancelled := by
        cases event <;> simp_all [Event.started?]
      rw [started, List.filterMap_cons_some hstarted, List.append_cons] at hnames ⊢
      have hnew : client ∉ names := fun hmem =>
        (List.nodup_append.mp (List.nodup_append.mp hnames).1).2.2 client hmem client (by simp) rfl
      exact ih (h.start hnew) (hpermitted.apply _) hnames

/-- Every client ends at most once. -/
theorem InOrder.finished_nodup (h : line.InOrder names) (hnames : names.Nodup) :
    (line.finished.map (·.1)).Nodup :=
  (List.nodup_append.mp ((List.Perm.nodup_iff h.places).mpr hnames)).2.1

/-- What came of a client stands in the record for good. -/
theorem Permitted.finished_suffix (h : line.Permitted capacity) (events : List Event) :
    line.finished <:+ (events.foldl Line.apply line).finished := by
  induction events generalizing line with
  | nil => exact List.suffix_refl _
  | cons event events ih =>
    obtain ⟨ended, hended, -⟩ := h.apply_finished event
    exact (List.suffix_append ended line.finished).trans (hended ▸ ih (h.apply event))

/-- A client that was cancelled does not get an identity later. -/
theorem InOrder.not_ok_of_cancelled (h : line.InOrder names) (hnames : names.Nodup)
    (hcancelled : (client, .error .cancelled) ∈ line.finished) :
    (client, .ok identity) ∉ line.finished := fun hok => by
  have hsame := List.inj_on_of_nodup_map (h.finished_nodup hnames) hcancelled hok rfl
  simp at hsame

section

theorem passPermit_free : line.passPermit.allocator.free = line.allocator.free := by
  unfold passPermit
  split <;> rfl

theorem passPermit_closed : line.passPermit.allocator.closed = line.allocator.closed := by
  unfold passPermit
  split <;> rfl

end

/-- An identity that was given back is free still, or one client has got it; the others that have ended were
    cancelled. -/
structure Handing (identity : Nat) (ended : List (Client × Except AllocatorError Nat)) (line : Line) :
    Prop where
  gains : (gains ended ++ line.allocator.free).Perm [identity]
  ended : ∀ entry ∈ ended, entry.2 = .error .cancelled ∨ ∃ got, entry.2 = .ok got
  notClosed : line.allocator.closed = false

variable {ended : List (Client × Except AllocatorError Nat)}

/-- That another client is cancelled changes nothing of where the identity is. -/
theorem Handing.cancelled {after : Line} (h : Handing identity ended line)
    (hfree : after.allocator.free = line.allocator.free)
    (hclosed : after.allocator.closed = line.allocator.closed) (client : Client) :
    Handing identity ((client, .error .cancelled) :: ended) after where
  gains := by
    rw [gains_cons_error, hfree]
    exact h.gains
  ended := List.forall_mem_cons.mpr ⟨.inl rfl, h.ended⟩
  notClosed := hclosed.trans h.notClosed

/-- No event but a release or the closing changes what has become of the identity. -/
theorem Handing.apply {event : Event} (h : Handing identity ended line) (hpermitted : line.Permitted capacity)
    (hbetween : event.Between) : ∃ added, (line.apply event).finished = added ++ line.finished ∧
      Handing identity (added ++ ended) (line.apply event) := by
  cases event with
  | release identity => exact hbetween.elim
  | close => exact hbetween.elim
  | start client cancelled =>
    simp only [Line.apply, Line.start, h.notClosed, Bool.false_eq_true, if_false]
    split
    · refine ⟨[(client, .error .cancelled)], rfl, h.cancelled ?_ ?_ client⟩ <;> rfl
    · split
      · rename_i allocator hpermit
        obtain ⟨-, rfl⟩ := Allocator.takePermit?_eq_some_iff.mp hpermit
        exact ⟨[], rfl, h.gains, h.ended, h.notClosed⟩
      · exact ⟨[], rfl, h.gains, h.ended, h.notClosed⟩
  | wake client =>
    simp only [Line.apply, Line.wake, h.notClosed, Bool.false_eq_true, if_false]
    split <;> exact ⟨[], rfl, h.gains, h.ended, h.notClosed⟩
  | pick client choice =>
    by_cases hmem : client ∈ line.picking
    · obtain ⟨found, allocator', hpick, hline⟩ := hpermitted.pick_ok choice hmem
      obtain ⟨hfree, hsame⟩ := Allocator.pick_spec hpick
      rw [Line.apply, hline]
      refine ⟨[(client, .ok found)], rfl, ?_, List.forall_mem_cons.mpr ⟨.inr ⟨found, rfl⟩, h.ended⟩, ?_⟩
      · exact (List.perm_middle.symm.trans (hfree.symm.append_left _)).trans h.gains
      · rw [hsame]
        exact h.notClosed
    · rw [Line.apply, Line.pick, if_neg hmem]
      exact ⟨[], rfl, h.gains, h.ended, h.notClosed⟩
  | cancel client =>
    simp only [Line.apply, Line.cancel]
    split
    · refine ⟨[(client, .error .cancelled)], rfl, h.cancelled ?_ ?_ client⟩ <;> rfl
    · split
      · refine ⟨[(client, .error .cancelled)], ?_, h.cancelled ?_ ?_ client⟩
        · rw [passPermit_finished]
          rfl
        · rw [passPermit_free]
          rfl
        · rw [passPermit_closed]
          rfl
      · exact ⟨[], rfl, h.gains, h.ended, h.notClosed⟩

/-- As long as nothing else is given back and nothing is closed, an identity that was given back is free or has
    been got by one client, and everyone else who has ended in the meantime was cancelled. -/
theorem Handing.run {events : List Event} (h : Handing identity ended line)
    (hpermitted : line.Permitted capacity) (hbetween : ∀ event ∈ events, event.Between) :
    ∃ added, (events.foldl Line.apply line).finished = added ++ line.finished ∧
      Handing identity (added ++ ended) (events.foldl Line.apply line) := by
  induction events generalizing line ended with
  | nil => exact ⟨[], rfl, h⟩
  | cons event events ih =>
    obtain ⟨hfirst, hrest⟩ := List.forall_mem_cons.mp hbetween
    obtain ⟨added, hadded, hhanding⟩ := h.apply hpermitted hfirst
    obtain ⟨more, hmore, hhanding'⟩ := ih hhanding (hpermitted.apply event) hrest
    exact ⟨more ++ added, by rw [List.foldl_cons, hmore, hadded, List.append_assoc],
      by rwa [List.append_assoc]⟩

/-- What has become of an identity that was given back while clients waited. -/
inductive HandedOver (identity : Nat) (clients : List Client)
    (ended : List (Client × Except AllocatorError Nat)) (line : Line) : Prop
  /-- one client got it; all who were started before were cancelled, and the others wait or were
      cancelled -/
  | got {ahead behind : List Client} {first : Client} (hclients : clients = ahead ++ first :: behind)
      (hgot : (first, .ok identity) ∈ ended) (honce : gains ended = [identity])
      (hahead : ∀ client ∈ ahead, (client, .error .cancelled) ∈ ended)
      (hbehind : ∀ client ∈ behind, client ∈ line.waiting ∨ (client, .error .cancelled) ∈ ended)
  /-- all were cancelled, and it is free -/
  | free (hclients : ∀ client ∈ clients, (client, .error .cancelled) ∈ ended) (hnobody : gains ended = [])
      (hfree : identity ∈ line.allocator.free)

/-- Everybody is where somebody was started, once. -/
theorem InOrder.mem_clients (h : line.InOrder names) (hsettled : line.Settled) :
    client ∈ names ↔ client ∈ line.waiting ∨ client ∈ line.finished.map (·.1) := by
  rw [← h.places.mem_iff]
  simp [clients, hsettled.1, hsettled.2]

/-- A client who waits has not ended, since every client is in one place. -/
theorem InOrder.apart (h : line.InOrder names) (hnames : names.Nodup) (hwaiting : client ∈ line.waiting) :
    client ∉ line.finished.map (·.1) := fun hfinished => by
  have hplaces := (List.Perm.nodup_iff h.places).mpr hnames
  rw [clients, List.append_assoc, List.append_assoc] at hplaces
  refine (List.nodup_append.mp hplaces).2.2 client hwaiting client ?_ rfl
  exact List.mem_append_right _ (List.mem_append_right _ hfinished)

section

variable {follow : List Event} {after : Line} (h : line.InOrder names) (hsettled : line.Settled)
  (hnames : (names ++ started follow).Nodup) (horder : after.InOrder (names ++ started follow))
  (hafter : after.Settled) (hended : after.finished = ended ++ line.finished)
include h hsettled hnames horder hafter hended

/-- Whoever was in line or has come since is in line still or has ended meanwhile. -/
theorem InOrder.still_or_ended :
    ∀ client ∈ line.waiting ++ started follow, client ∈ after.waiting ∨ ∃ result, (client, result) ∈ ended := by
  intro client hmem
  have hbefore : names.Nodup := (List.nodup_append.mp hnames).1
  have hstarted : client ∈ names ++ started follow :=
    List.mem_append.mpr ((List.mem_append.mp hmem).imp_left fun hmem => (h.mem_clients hsettled).mpr (.inl hmem))
  refine ((horder.mem_clients hafter).mp hstarted).imp_right fun hfinished => ?_
  rw [hended, List.map_append, List.mem_append] at hfinished
  obtain ⟨⟨_, result⟩, hresult, rfl⟩ := List.mem_map.mp (hfinished.resolve_right fun hearlier => by
    rcases List.mem_append.mp hmem with hold | hnew
    · exact h.apart hbefore hold hearlier
    · exact (List.nodup_append.mp hnames).2.2 client ((h.mem_clients hsettled).mpr (.inr hearlier))
        client hnew rfl)
  exact ⟨result, hresult⟩

/-- Whoever has ended meanwhile was in line or has come since. -/
theorem InOrder.came_of_ended {result : Except AllocatorError Nat} (hmem : (client, result) ∈ ended) :
    client ∈ line.waiting ++ started follow := by
  have hfinished : (client, result) ∈ after.finished := hended ▸ List.mem_append_left _ hmem
  have hstarted := (horder.mem_clients hafter).mpr (.inr (List.mem_map_of_mem hfinished))
  refine List.mem_append.mpr ((List.mem_append.mp hstarted).imp_left fun hold => ?_)
  refine ((h.mem_clients hsettled).mp hold).resolve_right fun hearlier => ?_
  have hnodup := horder.finished_nodup hnames
  rw [hended, List.map_append] at hnodup
  exact (List.nodup_append.mp hnodup).2.2 client (List.mem_map_of_mem hmem) client hearlier rfl

/-- If somebody has got an identity that was given back, all who were started before were cancelled. -/
theorem InOrder.gotFirst (hhanding : Handing identity ended after) (hone : gains ended = [identity]) :
    HandedOver identity (line.waiting ++ started follow) ended after := by
  have hall := h.still_or_ended hsettled hnames horder hafter hended
  obtain ⟨first, hgot⟩ := mem_gains.mp (hone ▸ List.mem_singleton_self identity)
  have hfinished : (first, .ok identity) ∈ after.finished := hended ▸ List.mem_append_left _ hgot
  obtain ⟨ahead, behind, hclients⟩ :=
    List.append_of_mem (h.came_of_ended hsettled hnames horder hafter hended hgot)
  have hsublist : (ahead ++ first :: behind).Sublist (names ++ started follow) :=
    hclients ▸ (((List.sublist_append_right _ _).trans h.order).append_right _)
  have hothers := List.nodup_middle.mp (hnames.sublist hsublist)
  have hended' : ∀ client result, client ∈ ahead ++ behind → (client, result) ∈ ended →
      (client, .error .cancelled) ∈ ended := by
    intro client result hmem hresult
    obtain rfl | ⟨got, rfl⟩ := hhanding.ended _ hresult
    · exact hresult
    · obtain rfl := eq_of_gains_singleton hone hresult hgot
      exact ((List.nodup_cons.mp hothers).1 hmem).elim
  refine .got hclients hgot hone (fun client hmem => ?_) fun client hmem => ?_
  · rcases hall client (hclients ▸ List.mem_append_left _ hmem) with hstill | ⟨result, hresult⟩
    · have hpair : [client, first].Sublist (ahead ++ first :: behind) :=
        (List.singleton_sublist.mpr hmem).append (List.singleton_sublist.mpr (List.mem_cons_self ..))
      rcases horder.unpassed client first (hpair.trans hsublist) hstill with hwaits | hsent
      · exact (horder.apart hnames hwaits (List.mem_map_of_mem hfinished)).elim
      · exact (horder.not_ok_of_cancelled hnames hsent hfinished).elim
    · exact hended' client result (List.mem_append_left _ hmem) hresult
  · refine (hall client (hclients ▸ List.mem_append_right _ (List.mem_cons_of_mem _ hmem))).imp_right ?_
    exact fun ⟨result, hresult⟩ => hended' client result (List.mem_append_right _ hmem) hresult

/-- If nobody has got an identity that was given back, all were cancelled. -/
theorem InOrder.leftFree (hhanding : Handing identity ended after) (hpermits : after.Permitted capacity)
    (hnobody : gains ended = []) (hfree : after.allocator.free = [identity]) :
    HandedOver identity (line.waiting ++ started follow) ended after := by
  have hline : after.waiting = [] := by
    by_contra hstill
    have hcount := hpermits.permits
    simp [hafter.1, hafter.2, hfree, (horder.waits hstill).2] at hcount
  refine .free (fun client hmem => ?_) hnobody (by simp [hfree])
  obtain ⟨result, hresult⟩ :=
    (h.still_or_ended hsettled hnames horder hafter hended client hmem).resolve_left (by simp [hline])
  obtain rfl | ⟨got, rfl⟩ := hhanding.ended _ hresult
  · exact hresult
  · have hgot := mem_gains.mpr ⟨client, hresult⟩
    rw [hnobody] at hgot
    cases hgot

end

/-- An identity that is given back while clients wait reaches the first of them who is not cancelled before,
    whatever else happens in between. -/
theorem InOrder.handsOver {follow : List Event} (h : line.InOrder names) (hpermitted : line.Permitted capacity)
    (hsettled : line.Settled) (hwaiting : line.waiting ≠ []) (hheld : identity ∈ line.allocator.held)
    (hbetween : ∀ event ∈ follow, event.Between) (hnames : (names ++ started follow).Nodup)
    (hafter : (follow.foldl Line.apply (line.apply (.release identity))).Settled) :
    ∃ ended, (follow.foldl Line.apply (line.apply (.release identity))).finished = ended ++ line.finished ∧
      HandedOver identity (line.waiting ++ started follow) ended
        (follow.foldl Line.apply (line.apply (.release identity))) := by
  obtain ⟨hopen, hnone⟩ := h.waits hwaiting
  have hpermits := hpermitted.permits
  rw [hnone, hsettled.1, hsettled.2] at hpermits
  have hnofree : line.allocator.free = [] := List.eq_nil_of_length_eq_zero hpermits.symm
  have hreleased : (line.apply (.release identity)).finished = line.finished := by
    rw [release_of_held hheld, passPermit_finished]
  have hhanding : Handing identity [] (line.apply (.release identity)) := by
    rw [release_of_held hheld]
    refine ⟨?_, by simp, by rwa [passPermit_closed]⟩
    rw [passPermit_free, hnofree]
    exact .refl _
  have hpermitted' := hpermitted.apply (.release identity)
  obtain ⟨ended, hended, hhanding'⟩ := hhanding.run hpermitted' hbetween
  rw [List.append_nil] at hhanding'
  have horder := InOrder.run (h.release (List.nodup_append.mp hnames).1) hpermitted' hnames
  have hpermitted'' := hpermitted'.run follow
  generalize follow.foldl Line.apply (line.apply (.release identity)) = after at *
  rw [hreleased] at hended
  refine ⟨ended, hended, ?_⟩
  rcases List.append_eq_singleton_iff.mp (List.perm_singleton.mp hhanding'.gains) with
    ⟨hnobody, hfree⟩ | ⟨hone, -⟩
  · exact h.leftFree hsettled hnames horder hafter hended hhanding' hpermitted'' hnobody hfree
  · exact h.gotFirst hsettled hnames horder hafter hended hhanding' hone

/-- All who were granted a permit notice it, and have picked when the line settles. -/
theorem InOrder.settles (h : line.InOrder names) (choice : Nat) : (line.settle choice).Settled := by
  have hwakes (clients : List Client) (line : Line) (hgranted : line.granted = clients)
      (hclosed : line.allocator.closed = true → line.waiting = []) :
      (clients.foldl Line.wake line).granted = [] := by
    induction clients generalizing line with
    | nil => exact hgranted
    | cons client clients ih =>
      simp only [List.foldl_cons, Line.wake, hgranted, List.mem_cons_self, if_true, List.erase_cons_head]
      split
      · rename_i hshut
        have hnobody := hclosed hshut
        simp only [Line.passPermit, Line.finish, hnobody]
        exact ih _ rfl fun _ => rfl
      · exact ih _ rfl hclosed
  have hpicks (clients : List Client) (line : Line) (hpicking : line.picking = clients)
      (hgranted : line.granted = []) :
      (clients.foldl (fun line client => line.pick client choice) line).Settled := by
    induction clients generalizing line with
    | nil => exact ⟨hgranted, hpicking⟩
    | cons client clients ih =>
      simp only [List.foldl_cons, Line.pick, hpicking, List.mem_cons_self, if_true, List.erase_cons_head]
      split <;> exact ih _ rfl hgranted
  refine hpicks _ _ rfl (hwakes _ _ rfl fun hclosed => ?_)
  by_contra hwaiting
  simp [(h.waits hwaiting).1] at hclosed

/-- When an identity is given back and nobody is cancelled, the first in line gets it. -/
theorem InOrder.settle_release {first : Client} {rest : List Client} (h : line.InOrder names)
    (hpermitted : line.Permitted capacity) (hsettled : line.Settled) (hwaiting : line.waiting = first :: rest)
    (hheld : identity ∈ line.allocator.held) (choice : Nat) :
    (line.apply (.release identity)).settle choice = { line with
      allocator := { line.allocator with held := identity :: line.allocator.held.erase identity }
      waiting := rest
      finished := (first, .ok identity) :: line.finished } := by
  obtain ⟨hopen, hnone⟩ := h.waits (by simp [hwaiting])
  obtain ⟨hgranted, hpicking⟩ := hsettled
  have hpermits := hpermitted.permits
  rw [hnone, hgranted, hpicking] at hpermits
  have hfree : line.allocator.free = [] := List.eq_nil_of_length_eq_zero hpermits.symm
  rw [release_of_held hheld]
  simp [Line.passPermit, hwaiting, Line.settle, Line.wake, Line.pick, Allocator.pick, Line.finish, hgranted,
    hpicking, hopen, hfree, Nat.mod_one]

/-- A line that was closed: nobody waits, and only those who had a permit and were about to pick still get
    an identity. -/
structure Shut (before line : Line) : Prop where
  closed : line.allocator.closed = true
  nobody : line.waiting = []
  picking : line.picking ⊆ before.picking
  got : ∀ client identity, (client, .ok identity) ∈ line.finished →
    (client, .ok identity) ∈ before.finished ∨ client ∈ before.picking

theorem close_shut (line : Line) : line.Shut line.close := by
  rw [close_eq]
  refine ⟨rfl, rfl, List.Subset.refl _, fun client identity hmem => .inl ?_⟩
  simpa using hmem

variable {before : Line}

/-- A step that keeps the allocator closed, lets nobody wait and lets nobody pick anew serves only those who
    were about to pick when it was closed. -/
theorem Shut.goOn {after : Line} (h : before.Shut line)
    (hclosed : after.allocator.closed = line.allocator.closed) (hnobody : after.waiting = [])
    (hpicking : after.picking ⊆ line.picking)
    (hgot : ∀ client identity, (client, .ok identity) ∈ after.finished →
      (client, .ok identity) ∈ line.finished ∨ client ∈ line.picking) : before.Shut after where
  closed := hclosed.trans h.closed
  nobody := hnobody
  picking := List.Subset.trans hpicking h.picking
  got client identity hmem :=
    (hgot client identity hmem).elim (h.got client identity) fun hpicks => .inr (h.picking hpicks)

/-- A client that ends with an error has got nothing. -/
theorem Shut.finish {refusal : AllocatorError} (h : before.Shut line) (client : Client) :
    before.Shut (line.finish client (.error refusal)) :=
  h.goOn rfl h.nobody (List.Subset.refl _) fun other identity hmem => .inl (by simpa [Line.finish] using hmem)

theorem Shut.passPermit (h : before.Shut line) : before.Shut line.passPermit := by
  rw [Line.passPermit, h.nobody]
  exact ⟨h.closed, rfl, h.picking, h.got⟩

/-- A closed line stays closed, and nobody joins it. -/
theorem Shut.apply (h : before.Shut line) (event : Event) : before.Shut (line.apply event) := by
  cases event with
  | start client cancelled =>
    simp only [Line.apply, Line.start, h.closed, if_true]
    split <;> exact h.finish client
  | wake client =>
    simp only [Line.apply, Line.wake, h.closed, if_true]
    have hnoticed : before.Shut { line with granted := line.granted.erase client } :=
      ⟨h.closed, h.nobody, h.picking, h.got⟩
    split
    · exact (hnoticed.finish client).passPermit
    · exact h
  | pick client choice =>
    simp only [Line.apply, Line.pick]
    split
    · rename_i hmem
      have hpicking : line.picking.erase client ⊆ line.picking := List.erase_subset
      split
      · rename_i identity allocator hpick
        refine h.goOn ?_ h.nobody hpicking fun other found hfound => ?_
        · rw [(Allocator.pick_spec hpick).2]
          rfl
        · rcases List.mem_cons.mp hfound with hsame | hold
          · obtain rfl : other = client := congrArg Prod.fst hsame
            exact .inr hmem
          · exact .inl hold
      · refine Shut.finish ?_ client
        exact h.goOn rfl h.nobody hpicking fun _ _ hfound => .inl hfound
    · exact h
  | cancel client =>
    have hgone : before.Shut { line with granted := line.granted.erase client } :=
      ⟨h.closed, h.nobody, h.picking, h.got⟩
    have hnotWaiting : client ∉ line.waiting := by simp [h.nobody]
    rw [Line.apply, Line.cancel, if_neg hnotWaiting]
    split
    · exact (hgone.finish client).passPermit
    · exact h
  | release identity =>
    by_cases hheld : identity ∈ line.allocator.held
    · rw [release_of_held hheld]
      exact Shut.passPermit ⟨h.closed, h.nobody, h.picking, h.got⟩
    · rw [Line.apply, release_eq_error_iff.mpr hheld]
      exact h
  | close =>
    rw [Line.apply, close_eq, h.nobody]
    exact ⟨rfl, rfl, h.picking, h.got⟩

theorem Shut.run (h : before.Shut line) (events : List Event) :
    before.Shut (events.foldl Line.apply line) := by
  induction events generalizing line with
  | nil => exact h
  | cons event events ih => exact ih (h.apply event)

/-- A line that is fair to its clients, who were started in the order given. -/
structure Fair (line : Line) (names : List Client) : Prop where
  /-- clients wait in the order in which they were started -/
  order : line.waiting.Sublist names
  /-- a client waits only while the allocator is open and there is no permit -/
  waits : line.waiting ≠ [] → line.allocator.closed = false ∧ line.allocator.available = 0
  /-- nobody sleeps beside a free identity -/
  awake : line.Settled → line.waiting ≠ [] → line.allocator.free = []
  /-- all who can go on come to their end -/
  settles : ∀ choice, (line.settle choice).Settled
  /-- an identity that is given back while clients wait reaches, whatever else happens until the line has
      settled again, exactly one client: the first who is not cancelled -/
  handsOver : line.Settled → line.waiting ≠ [] → ∀ identity ∈ line.allocator.held, ∀ follow,
    (∀ event ∈ follow, event.Between) → (names ++ started follow).Nodup →
    (follow.foldl apply (line.apply (.release identity))).Settled →
    ∃ ended, (follow.foldl apply (line.apply (.release identity))).finished = ended ++ line.finished ∧
      HandedOver identity (line.waiting ++ started follow) ended
        (follow.foldl apply (line.apply (.release identity)))
  /-- where nothing else happens, that is the first in line, and only he leaves it -/
  first : line.Settled → ∀ first rest, line.waiting = first :: rest →
    ∀ identity ∈ line.allocator.held, ∀ choice,
    (line.apply (.release identity)).settle choice = { line with
      allocator := { line.allocator with held := identity :: line.allocator.held.erase identity }
      waiting := rest
      finished := (first, .ok identity) :: line.finished }
  /-- a client that is cancelled leaves the line from wherever it stands; the allocator and the others are
      as before -/
  leaves : ∀ ahead client behind, line.waiting = ahead ++ client :: behind →
    line.apply (.cancel client) = { line with
      waiting := ahead ++ behind
      finished := (client, .error .cancelled) :: line.finished }
  /-- a client that is cancelled before it starts takes nothing, not even when an identity is free -/
  turnedAway : ∀ client, line.apply (.start client true) = { line with
    finished := (client, .error .cancelled) :: line.finished }
  /-- a client that was cancelled before it took its permit never gets an identity -/
  nothing : ∀ client event follow, (event = .start client true ∨
      event = .cancel client ∧ client ∈ line.granted ++ line.waiting) →
    (names ++ started (event :: follow)).Nodup →
    (client, .error .cancelled) ∈ (follow.foldl apply (line.apply event)).finished ∧
      ∀ identity, (client, .ok identity) ∉ (follow.foldl apply (line.apply event)).finished
  /-- closing sends away all who wait -/
  closes : line.apply .close = { line with
    allocator := line.allocator.close
    waiting := []
    finished := (line.waiting.map fun client => (client, .error .closed)).reverse ++ line.finished }
  /-- once closed, everybody who is not cancelled is sent away, and nobody gets an identity but those who
      had a permit and were about to pick -/
  shut : ∀ (follow : List Event) client,
    (follow.foldl apply (line.apply .close)).apply (.start client false) =
      (follow.foldl apply (line.apply .close)).finish client (.error .closed) ∧
    ∀ identity, (client, .ok identity) ∈ (follow.foldl apply (line.apply .close)).finished →
      (client, .ok identity) ∈ line.finished ∨ client ∈ line.picking

/-- Clients in line are served fairly, after any events in any order. -/
theorem served_in_order {capacity : Nat} (events : List Event) (hnames : (started events).Nodup) :
    (events.foldl apply (ofCapacity capacity)).Fair (started events) := by
  have hpermitted := (ofCapacity_permitted capacity).run events
  have h := (ofCapacity_inOrder capacity).run (ofCapacity_permitted capacity) hnames
  rw [List.nil_append] at h
  generalize events.foldl apply (ofCapacity capacity) = line at hpermitted h ⊢
  refine ⟨(List.sublist_append_right _ _).trans h.order, h.waits, fun hsettled hwaiting => ?_, h.settles,
    fun hsettled hwaiting identity hheld follow hbetween hlater hafter =>
      h.handsOver hpermitted hsettled hwaiting hheld hbetween hlater hafter,
    fun hsettled first rest hwaiting identity hheld choice =>
      h.settle_release hpermitted hsettled hwaiting hheld choice,
    fun ahead client behind hwaiting => ?_, fun client => rfl, fun client event follow hevent hlater => ?_,
    close_eq, fun follow client => ?_⟩
  · have hpermits := hpermitted.permits
    rw [(h.waits hwaiting).2, hsettled.1, hsettled.2] at hpermits
    exact List.eq_nil_of_length_eq_zero hpermits.symm
  · have hbefore : client ∉ ahead := by
      have hwaits := hnames.sublist ((List.sublist_append_right _ _).trans h.order)
      rw [hwaiting] at hwaits
      exact fun hmem => (List.nodup_append.mp hwaits).2.2 client hmem client (List.mem_cons_self ..) rfl
    simp [Line.apply, Line.cancel, hwaiting, Line.finish, List.erase_append_right, hbefore]
  · have hcancelled : (client, .error .cancelled) ∈ (line.apply event).finished := by
      rcases hevent with rfl | ⟨rfl, hmem⟩
      · exact List.mem_cons_self ..
      · simp only [Line.apply, Line.cancel]
        split
        · exact List.mem_cons_self ..
        · rename_i hnotWaiting
          rw [if_pos ((List.mem_append.mp hmem).resolve_right hnotWaiting), passPermit_finished]
          exact List.mem_cons_self ..
    have hstill := ((hpermitted.apply event).finished_suffix follow).subset hcancelled
    exact ⟨hstill, fun identity => (h.run hpermitted hlater).not_ok_of_cancelled hlater hstill⟩
  · have hshut : line.Shut (follow.foldl apply (line.apply .close)) := (close_shut line).run follow
    refine ⟨?_, fun identity => hshut.got client identity⟩
    rw [Line.apply, Line.start, hshut.closed]
    rfl

/-- Three clients wait for the only identity. -/
def threeWaiting : List Event :=
  [.start "a" false, .pick "a" 0, .start "b" false, .start "c" false, .start "d" false]

/-- The identity is given back, and the first in line is cancelled before it notices. -/
theorem served_in_order_threeWaiting :
    (started threeWaiting).Nodup ∧
      let line := threeWaiting.foldl apply (ofCapacity 1)
      line.Settled ∧ line.waiting = ["b", "c", "d"] ∧
        HandedOver 0 ["b", "c", "d"] [("c", .ok 0), ("b", .error .cancelled)]
          ([.cancel "b", .wake "c", .pick "c" 0].foldl apply (line.apply (.release 0))) := by
  have hnames : (started threeWaiting).Nodup := by decide
  have hfair : (threeWaiting.foldl apply (ofCapacity 1)).Fair (started threeWaiting) :=
    served_in_order threeWaiting hnames
  obtain ⟨ended, hended, hover⟩ := hfair.handsOver ⟨rfl, rfl⟩ (by decide) 0 (by decide)
    [.cancel "b", .wake "c", .pick "c" 0] (by simp [Event.Between]) (by decide) ⟨rfl, rfl⟩
  obtain rfl : ended = [("c", .ok 0), ("b", .error .cancelled)] :=
    List.append_cancel_right (hended.symm.trans rfl)
  exact ⟨hnames, ⟨rfl, rfl⟩, rfl, hover⟩

end SlotPool.Line

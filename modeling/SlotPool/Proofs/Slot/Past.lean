import Mathlib.Data.List.Basic
import Mathlib.Data.List.Induction
import SlotPool.Proofs.Slot.Record
/-!
What a slot remembers of its past. A handle is kept from when its namespace is attached until another one is or the
network is cleared. A firewall is kept from when it is installed until a namespace is attached, the firewall is taken or
the network is cleared. Until then no other one takes its place, and only its policy changes.
-/

namespace SlotPool.Slot

/-- What may be done to the memory of a slot. A policy is set for the firewall that the slot has, if it has one. -/
inductive Update
  | attach (handle : Handle)
  | install (policy : Internet)
  | setInternet (policy : Internet)
  | takeFirewall
  | clear

namespace Update

/-- The slot after an update. -/
def apply : Update → Slot → Slot
  | .attach handle, slot => slot.attachNamespace handle
  | .install policy, slot => (slot.installFirewall policy).2
  | .setInternet policy, slot => slot.setInternet policy
  | .takeFirewall, slot => slot.takeFirewall.2
  | .clear, slot => slot.clearNetwork.2

/-- The update installs a firewall. -/
def Installs (update : Update) : Prop := ∃ policy, update = .install policy

/-- The update neither attaches a namespace nor clears the network. -/
def KeepsHandle : Update → Prop
  | .attach _ | .clear => False
  | _ => True

/-- The update neither attaches a namespace nor takes the firewall nor clears the network. -/
def KeepsFirewall : Update → Prop
  | .attach _ | .takeFirewall | .clear => False
  | _ => True

/-- The policy that the update sets. -/
def chosen? : Update → Option Internet
  | .setInternet policy => some policy
  | _ => none

end Update

/-- The slot after a list of updates, the earliest first. -/
def updated (slot : Slot) (past : List Update) : Slot := past.foldl (fun slot update => update.apply slot) slot

/-- The past has an update that `marks`, and each one after it `keeps`. -/
def Since (keeps marks : Update → Prop) (past : List Update) : Prop :=
  ∃ before mark later, past = before ++ mark :: later ∧ marks mark ∧ ∀ update ∈ later, keeps update

/-- The handle is the last that was attached, and the network was not cleared since. -/
def Attached (past : List Update) (handle : Handle) : Prop := Since Update.KeepsHandle (· = .attach handle) past

/-- A firewall was installed, and since then no namespace was attached, no firewall taken and no network cleared. -/
def Firewalled (past : List Update) : Prop := Since Update.KeepsFirewall Update.Installs past

/-- The policy is that of the first firewall installed since a namespace was last attached, a firewall taken or the
network cleared, or the last of the policies that were set after this. -/
def Governed (past : List Update) (policy : Internet) : Prop :=
  ∃ before first later, past = before ++ .install first :: later ∧ ¬ Firewalled before ∧
    (∀ update ∈ later, update.KeepsFirewall) ∧ (later.filterMap Update.chosen?).getLastD first = policy

/-- What a slot of this number remembers of its past. -/
structure Recalls (slot : Slot) (id : SlotId) (past : List Update) : Prop where
  id_eq : slot.id = id
  /-- a network without a firewall is not ready unless there is a handle -/
  ready_open : slot.state ≠ .networkReady none
  handle_iff : ∀ handle, slot.handle = some handle ↔ Attached past handle
  hasFirewall_iff : slot.hasFirewall = true ↔ Firewalled past
  firewall_iff : ∀ policy, slot.firewall = some policy ↔ Governed past policy
  install_first : ¬ Firewalled past → ∀ policy, (slot.installFirewall policy).1 = true
  install_later : Firewalled past → ∀ policy, slot.installFirewall policy = (false, slot)
  /-- taking the firewall leaves the handle, and no network exactly if there is none -/
  take_handle : slot.takeFirewall.2.handle = slot.handle
  take_iff : slot.takeFirewall.2.state = .noNetwork ↔ slot.handle = none

variable {slot : Slot} {id : SlotId} {update last : Update} {past before later : List Update}
  {keeps marks : Update → Prop} {handle : Handle} {policy first : Internet}

/-! ### The past -/

theorem not_since_nil : ¬ Since keeps marks [] := by
  rintro ⟨before, mark, later, hpast, -⟩
  exact List.append_ne_nil_of_right_ne_nil before (List.cons_ne_nil mark later) hpast.symm

/-- What has held since some mark, after one more change: either the change is such a mark, or it kept what held
    before. -/
theorem since_concat : Since keeps marks (past ++ [last]) ↔ marks last ∨ keeps last ∧ Since keeps marks past := by
  constructor
  · rintro ⟨before, mark, later, hpast, hmark, hlater⟩
    -- the update that marks is the last one, or it stands before the last one
    rcases List.eq_nil_or_concat later with rfl | ⟨later, final, rfl⟩
    · obtain ⟨-, hlast⟩ := List.append_inj' hpast rfl
      obtain rfl : last = mark := List.singleton_inj.mp hlast
      exact .inl hmark
    · rw [List.concat_eq_append] at hpast hlater
      rw [← List.cons_append, ← List.append_assoc] at hpast
      obtain ⟨rfl, hlast⟩ := List.append_inj' hpast rfl
      obtain rfl : last = final := List.singleton_inj.mp hlast
      obtain ⟨hlater, hkeeps⟩ := List.forall_mem_append.mp hlater
      exact .inr ⟨hkeeps last (List.mem_singleton_self last), before, mark, later, rfl, hmark, hlater⟩
  · rintro (hmark | ⟨hkeeps, before, mark, later, rfl, hmark, hlater⟩)
    · exact ⟨past, last, [], rfl, hmark, nofun⟩
    · refine ⟨before, mark, later ++ [last], List.append_assoc .., hmark, ?_⟩
      exact List.forall_mem_append.mpr ⟨hlater, List.forall_mem_singleton.mpr hkeeps⟩

/-- Of several updates that mark, each with only such after it as keep, there is a first. The induction is on
    the past from its end, since a mark holds on from earlier to later. -/
theorem Since.exists_first (hkeeps : ∀ update, marks update → keeps update) (h : Since keeps marks past) :
    ∃ before mark later, past = before ++ mark :: later ∧ marks mark ∧ ¬ Since keeps marks before ∧
      ∀ update ∈ later, keeps update := by
  induction past using List.reverseRecOn with
  | nil => exact absurd h not_since_nil
  | append_singleton past last ih =>
    -- the last update is the first to mark unless one before it still counts
    by_cases hpast : Since keeps marks past
    · have hlast : keeps last := (since_concat.mp h).elim (hkeeps last) And.left
      obtain ⟨before, mark, later, rfl, hmark, hbefore, hlater⟩ := ih hpast
      refine ⟨before, mark, later ++ [last], List.append_assoc .., hmark, hbefore, ?_⟩
      exact List.forall_mem_append.mpr ⟨hlater, List.forall_mem_singleton.mpr hlast⟩
    · have hmark : marks last := (since_concat.mp h).resolve_right fun hold => hpast hold.2
      exact ⟨past, last, [], rfl, hmark, hpast, nofun⟩

theorem updated_append : slot.updated (before ++ later) = (slot.updated before).updated later := List.foldl_append

theorem updated_cons : slot.updated (update :: later) = (update.apply slot).updated later := rfl

theorem updated_concat : slot.updated (past ++ [last]) = last.apply (slot.updated past) := List.foldl_concat ..

/-- What a slot lacks at first, what updates that mark bring about and only those that keep leave as it was, holds
exactly if the past has an update that marks and each one after it keeps. -/
theorem updated_iff_since (holds : Slot → Prop) (hslot : ¬ holds slot)
    (hstep : ∀ slot update, holds (update.apply slot) ↔ marks update ∨ keeps update ∧ holds slot) :
    holds (slot.updated past) ↔ Since keeps marks past := by
  induction past using List.reverseRecOn with
  | nil => exact iff_of_false hslot not_since_nil
  | append_singleton past last ih => rw [updated_concat, hstep, since_concat, ih]

/-! ### One update -/

namespace Update

theorem apply_id : (update.apply slot).id = slot.id := by
  cases update <;> simp [apply]

theorem apply_handle_iff (slot : Slot) (update : Update) :
    (update.apply slot).handle = some handle ↔
      update = .attach handle ∨ update.KeepsHandle ∧ slot.handle = some handle := by
  cases update <;> simp [apply, KeepsHandle]

theorem apply_hasFirewall_iff (slot : Slot) (update : Update) :
    (update.apply slot).hasFirewall = true ↔
      update.Installs ∨ update.KeepsFirewall ∧ slot.hasFirewall = true := by
  cases update <;> simp [apply, Installs, KeepsFirewall, installFirewall_hasFirewall]

/-- A firewall that is kept has the policy that is set for it. -/
theorem apply_firewall (hkeeps : update.KeepsFirewall) (hfirewall : slot.firewall = some policy) :
    (update.apply slot).firewall = some (update.chosen?.getD policy) := by
  have hhas : slot.hasFirewall = true := by rw [hasFirewall, hfirewall, Option.isSome_some]
  cases update with
  | install other =>
    rw [apply, installFirewall_present hhas]
    exact hfirewall
  | setInternet other => exact setInternet_firewall hhas
  | attach | takeFirewall | clear => exact hkeeps.elim

theorem Installs.keepsFirewall (h : update.Installs) : update.KeepsFirewall := by
  obtain ⟨policy, rfl⟩ := h
  trivial

/-- A network that is ready without a firewall stays open. -/
theorem apply_ready_open (h : slot.state ≠ .networkReady none) :
    (update.apply slot).state ≠ .networkReady none := by
  obtain ⟨id, state⟩ := slot
  cases update with
  | attach | clear => exact nofun
  | install => cases state <;> exact nofun
  | setInternet =>
    cases state with
    | networkReady => exact h
    | noNetwork | firewallReady => exact nofun
  | takeFirewall =>
    cases state with
    | noNetwork => exact nofun
    | networkReady => exact h
    | firewallReady handle => cases handle <;> exact nofun

end Update

/-! ### All updates -/

theorem updated_id : (slot.updated past).id = slot.id := by
  induction past using List.reverseRecOn with
  | nil => rfl
  | append_singleton past last ih => rw [updated_concat, Update.apply_id, ih]

theorem updated_ready_open : ((fresh id).updated past).state ≠ .networkReady none := by
  induction past using List.reverseRecOn with
  | nil => exact nofun
  | append_singleton past last ih =>
    rw [updated_concat]
    exact Update.apply_ready_open ih

theorem updated_handle_iff : ((fresh id).updated past).handle = some handle ↔ Attached past handle :=
  updated_iff_since (·.handle = some handle) nofun Update.apply_handle_iff

theorem updated_hasFirewall_iff : ((fresh id).updated past).hasFirewall = true ↔ Firewalled past :=
  updated_iff_since (·.hasFirewall = true) nofun Update.apply_hasFirewall_iff

/-- A firewall that is kept has the policy that was set last, or else the one it had. Installing another one
    does not count, as the first stays. -/
theorem updated_firewall (hkeeps : ∀ update ∈ later, update.KeepsFirewall)
    (hfirewall : slot.firewall = some policy) :
    (slot.updated later).firewall = some ((later.filterMap Update.chosen?).getLastD policy) := by
  induction later generalizing slot policy with
  | nil => exact hfirewall
  | cons update later ih =>
    obtain ⟨hupdate, hlater⟩ := List.forall_mem_cons.mp hkeeps
    have hrest : ((update.apply slot).updated later).firewall =
        some ((later.filterMap Update.chosen?).getLastD (update.chosen?.getD policy)) :=
      ih hlater (Update.apply_firewall hupdate hfirewall)
    rw [updated_cons, hrest]
    cases hchosen : update.chosen? with
    | none => rw [List.filterMap_cons_none hchosen, Option.getD_none]
    | some chosen => rw [List.filterMap_cons_some hchosen, Option.getD_some, List.getLastD_cons]

/-- The slot has the first of the firewalls installed, and those after it are refused. -/
theorem updated_firewall_first (hbefore : ¬ Firewalled before) (hlater : ∀ update ∈ later, update.KeepsFirewall) :
    ((fresh id).updated (before ++ .install first :: later)).firewall =
      some ((later.filterMap Update.chosen?).getLastD first) := by
  have habsent : ((fresh id).updated before).hasFirewall ≠ true := mt updated_hasFirewall_iff.mp hbefore
  have hnone : ((fresh id).updated before).firewall = none := by
    rwa [hasFirewall, Ne, Option.not_isSome_iff_eq_none] at habsent
  rw [updated_append, updated_cons]
  exact updated_firewall hlater (installFirewall_firewall hnone)

/-- A slot remembers just the policy under which its past says it is governed. -/
theorem updated_firewall_iff : ((fresh id).updated past).firewall = some policy ↔ Governed past policy := by
  constructor
  · intro hfirewall
    have hpresent : ((fresh id).updated past).hasFirewall = true := by
      rw [hasFirewall, hfirewall, Option.isSome_some]
    have hpast : Firewalled past := updated_hasFirewall_iff.mp hpresent
    obtain ⟨before, _, later, rfl, ⟨first, rfl⟩, hbefore, hlater⟩ :=
      hpast.exists_first fun _ => Update.Installs.keepsFirewall
    rw [updated_firewall_first hbefore hlater] at hfirewall
    exact ⟨before, first, later, rfl, hbefore, hlater, Option.some.inj hfirewall⟩
  · rintro ⟨before, first, later, rfl, hbefore, hlater, rfl⟩
    exact updated_firewall_first hbefore hlater

/-- A slot from which the firewall is taken has no network left exactly if it has no handle. In between it may
    have one without a firewall, if a handle was attached. -/
theorem takeFirewall_state_iff (h : slot.state ≠ .networkReady none) :
    slot.takeFirewall.2.state = .noNetwork ↔ slot.handle = none := by
  obtain ⟨id, state⟩ := slot
  cases state with
  | noNetwork => exact iff_of_true rfl rfl
  | networkReady handle =>
    cases handle with
    | none => exact absurd rfl h
    | some handle => exact iff_of_false nofun nofun
  | firewallReady handle policy =>
    cases handle with
    | none => exact iff_of_true rfl rfl
    | some handle => exact iff_of_false nofun nofun

/-- The memory of a slot tells its past, whatever was done to it since it was fresh. It has the handle that was attached
last, unless the network was cleared since, and it is never ready with neither a handle nor a firewall. It has a
firewall exactly if one was installed since the last one was lost, with the policy of the first of these as it was last
set; any other is refused and changes nothing. Taking the firewall leaves the handle, and its number never changes. -/
theorem memory_exact (id : SlotId) (past : List Update) : ((fresh id).updated past).Recalls id past where
  id_eq := updated_id
  ready_open := updated_ready_open
  handle_iff _ := updated_handle_iff
  hasFirewall_iff := updated_hasFirewall_iff
  firewall_iff _ := updated_firewall_iff
  install_first hpast _ := installFirewall_absent (eq_false_of_ne_true (mt updated_hasFirewall_iff.mp hpast))
  install_later hpast _ := installFirewall_present (updated_hasFirewall_iff.mpr hpast)
  take_handle := takeFirewall_handle
  take_iff := takeFirewall_state_iff updated_ready_open

example (id : SlotId) (handle : Handle) :
    ((fresh id).updated [.install .blocked, .attach handle, .install .allowed, .setInternet .blocked,
      .install .allowed]).state = .firewallReady (some handle) .blocked := rfl

end SlotPool.Slot

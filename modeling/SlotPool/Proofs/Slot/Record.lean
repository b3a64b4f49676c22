import SlotPool.Slot.Basic
/-!
What each change of a slot's memory does to its number, its handle and its firewall.
-/

namespace SlotPool.Slot

variable {slot : Slot} {handle : Handle} {policy : Internet}

@[simp]
theorem fresh_id (id : SlotId) : (fresh id).id = id := rfl

@[simp]
theorem fresh_handle (id : SlotId) : (fresh id).handle = none := rfl

@[simp]
theorem fresh_firewall (id : SlotId) : (fresh id).firewall = none := rfl

@[simp]
theorem attachNamespace_id : (slot.attachNamespace handle).id = slot.id := rfl

@[simp]
theorem attachNamespace_handle : (slot.attachNamespace handle).handle = some handle := rfl

@[simp]
theorem attachNamespace_firewall : (slot.attachNamespace handle).firewall = none := rfl

@[simp]
theorem clearNetwork_id : slot.clearNetwork.2.id = slot.id := rfl

@[simp]
theorem clearNetwork_handle : slot.clearNetwork.2.handle = none := rfl

@[simp]
theorem clearNetwork_firewall : slot.clearNetwork.2.firewall = none := rfl

@[simp]
theorem installFirewall_id : (slot.installFirewall policy).2.id = slot.id := by
  unfold installFirewall
  split <;> rfl

@[simp]
theorem installFirewall_handle : (slot.installFirewall policy).2.handle = slot.handle := by
  obtain ⟨id, state⟩ := slot
  cases state <;> rfl

theorem installFirewall_firewall (h : slot.firewall = none) :
    (slot.installFirewall policy).2.firewall = some policy := by
  obtain ⟨id, state⟩ := slot
  cases state with
  | firewallReady handle old => cases h
  | _ => rfl

@[simp]
theorem setInternet_id : (slot.setInternet policy).id = slot.id := by
  unfold setInternet
  split <;> rfl

@[simp]
theorem setInternet_handle : (slot.setInternet policy).handle = slot.handle := by
  obtain ⟨id, state⟩ := slot
  cases state <;> rfl

theorem setInternet_firewall (h : slot.hasFirewall = true) :
    (slot.setInternet policy).firewall = some policy := by
  obtain ⟨id, state⟩ := slot
  cases state with
  | firewallReady handle old => rfl
  | _ => cases h

@[simp]
theorem takeFirewall_id : slot.takeFirewall.2.id = slot.id := by
  unfold takeFirewall
  split <;> rfl

@[simp]
theorem takeFirewall_handle : slot.takeFirewall.2.handle = slot.handle := by
  obtain ⟨id, state⟩ := slot
  cases state with
  | firewallReady handle policy => cases handle <;> rfl
  | _ => rfl

@[simp]
theorem takeFirewall_firewall : slot.takeFirewall.2.firewall = none := by
  obtain ⟨id, state⟩ := slot
  cases state with
  | firewallReady handle policy => cases handle <;> rfl
  | _ => rfl

@[simp]
theorem takeFirewall_policy : slot.takeFirewall.1 = slot.firewall := by
  obtain ⟨id, state⟩ := slot
  cases state with
  | firewallReady handle policy => cases handle <;> rfl
  | _ => rfl

@[simp]
theorem fresh_hasFirewall (id : SlotId) : (fresh id).hasFirewall = false := rfl

@[simp]
theorem attachNamespace_hasFirewall : (slot.attachNamespace handle).hasFirewall = false := rfl

@[simp]
theorem clearNetwork_hasFirewall : slot.clearNetwork.2.hasFirewall = false := rfl

theorem installFirewall_hasFirewall : (slot.installFirewall policy).2.hasFirewall = true := by
  obtain ⟨id, state⟩ := slot
  cases state <;> rfl

theorem installFirewall_absent (h : slot.hasFirewall = false) : (slot.installFirewall policy).1 = true := by
  obtain ⟨id, state⟩ := slot
  cases state with
  | firewallReady handle old => cases h
  | _ => rfl

theorem installFirewall_present (h : slot.hasFirewall = true) : slot.installFirewall policy = (false, slot) := by
  obtain ⟨id, state⟩ := slot
  cases state with
  | firewallReady handle old => rfl
  | _ => cases h

@[simp]
theorem setInternet_hasFirewall : (slot.setInternet policy).hasFirewall = slot.hasFirewall := by
  obtain ⟨id, state⟩ := slot
  cases state <;> rfl

@[simp]
theorem takeFirewall_hasFirewall : slot.takeFirewall.2.hasFirewall = false := by
  simp [hasFirewall]

/-- A slot made of a number is a fresh slot of that number. -/
theorem eq_fresh_of_ofNat? {n : Nat} (h : ofNat? n = some slot) :
    slot = fresh slot.id ∧ slot.id.val = n := by
  unfold ofNat? SlotId.ofNat? at h
  split at h
  · obtain rfl : fresh _ = slot := by simpa using h
    exact ⟨rfl, rfl⟩
  · cases h

theorem ofNat?_isSome {n : Nat} : (ofNat? n).isSome = true ↔ n < planSize := by
  unfold ofNat? SlotId.ofNat?
  split <;> simp_all

end SlotPool.Slot

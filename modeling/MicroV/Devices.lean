import MicroV.Donation

/-!
# The guests' PCI devices

`setup_domU` hands every device of `pci_passthru_list` to each guest that is not a Xen
guest and has a pass-through device, when `pci_passthru` is set; no other operation
assigns or removes a device, or changes the pass-through configuration.

* `Reachable.devicesInv`: in every reachable state each live guest has exactly the
  devices `setup_domU` gave it (`passthroughDevs`);
* **`pciDevs_shared_iff`**: two live guests share a device, and their `map_guest_dma`
  calls share an `(iommu, bus, devfn)` triple, exactly when both took the
  pass-through list and the list is not empty;
* `pciDevs_shared_two_guests`: two such guests, both holding the one device of the
  list.
-/

namespace MicroV

/-- The guests `setup_domU` hands `pci_passthru_list` to. -/
def takesPassthru (s : System) (info : SodInfo) : Bool :=
  !info.isXenDom && info.hasPassthroughDev && s.pciPassthru

/-- The devices `setup_domU` assigns a guest with flags `info`, in the order of
`m_pci_devs`. -/
def passthroughDevs (s : System) (info : SodInfo) : List PciDev :=
  if takesPassthru s info then s.pciPassthruList.reverse else []

/-- `s'` has the pass-through configuration of `s`, and each guest live in `s'` is live
in `s` with the same flags and devices. -/
structure KeepsDevices (s s' : System) : Prop where
  passthru : s'.pciPassthru = s.pciPassthru
  list : s'.pciPassthruList = s.pciPassthruList
  guests : ∀ g d', s'.guests g = some d' →
    ∃ d, s.guests g = some d ∧ d'.sodInfo = d.sodInfo ∧ d'.pciDevs = d.pciDevs

/-- Each live guest has the devices `setup_domU` gave it. -/
def DevicesInv (s : System) : Prop :=
  ∀ g d, s.guests g = some d → d.pciDevs = passthroughDevs s d.sodInfo

/-! ### What the operations keep -/

section Keeps

variable {s s' s'' : System}

theorem KeepsDevices.refl (s : System) : KeepsDevices s s := ⟨rfl, rfl, fun _ d h => ⟨d, h, rfl, rfl⟩⟩

theorem KeepsDevices.trans (h : KeepsDevices s s') (h' : KeepsDevices s' s'') :
    KeepsDevices s s'' := by
  refine ⟨h'.passthru.trans h.passthru, h'.list.trans h.list, fun g d'' hd => ?_⟩
  obtain ⟨d', hd', hi', hp'⟩ := h'.guests g d'' hd
  obtain ⟨d, hd, hi, hp⟩ := h.guests g d' hd'
  exact ⟨d, hd, hi'.trans hi, hp'.trans hp⟩

/-- A change of the root and the shootdown alone. -/
theorem keepsDevices_root (r : Domain) (sd : Shootdown) :
    KeepsDevices s { s with root := r, shootdown := sd } :=
  ⟨rfl, rfl, fun _ d h => ⟨d, h, rfl, rfl⟩⟩

theorem keepsDevices_setGuest {g : Nat} {d d' : Domain} (hd : s.guests g = some d)
    (hi : d'.sodInfo = d.sodInfo) (hp : d'.pciDevs = d.pciDevs) : KeepsDevices s (s.setGuest g d') := by
  refine ⟨rfl, rfl, fun g' d'' h => ?_⟩
  by_cases hg : g' = g
  · subst hg
    simp only [System.setGuest_guests, Function.update_same, Option.some.injEq] at h
    exact ⟨d, hd, h ▸ hi, h ▸ hp⟩
  · rw [System.setGuest_guests, Function.update_noteq hg] at h
    exact ⟨d'', h, rfl, rfl⟩

theorem keepsDevices_destroyDomain (g : Nat) : KeepsDevices s (s.destroyDomain g) := by
  refine ⟨rfl, rfl, fun g' d' h => ⟨d', ?_, rfl, rfl⟩⟩
  by_cases hg : g' = g
  · rw [hg, System.destroyDomain_guests, Function.update_same] at h; cases h
  · rwa [System.destroyDomain_guests, Function.update_noteq hg] at h

theorem keepsDevices_donateTry (r : Raises) (rootGpa p : BitVec 64) (g : Nat) :
    KeepsDevices s (donateTry r s rootGpa p g).2 := by
  unfold donateTry
  cases (if r.gpaToHpa then none else s.root.ept.gpaToHpa p.toNat) with
  | none => exact KeepsDevices.refl s
  | some v =>
    dsimp only
    by_cases h1 : v.1 ≠ p.toNat
    · rw [if_pos h1]; exact KeepsDevices.refl s
    rw [if_neg h1]
    by_cases h2 : s.shootdown.inFlight
    · rw [if_pos h2]; exact KeepsDevices.refl s
    rw [if_neg h2]
    split_ifs <;> exact keepsDevices_root _ _

theorem keepsDevices_installRootPage (g guestGpa : Nat) (p : BitVec 64) (perm mtype : Nat) :
    KeepsDevices s (installRootPage s g guestGpa p perm mtype).2 := by
  unfold installRootPage
  split
  · exact KeepsDevices.refl s
  · next d hd =>
    split_ifs
    · exact keepsDevices_setGuest hd rfl rfl
    · split
      · exact KeepsDevices.refl s
      · exact keepsDevices_setGuest hd rfl rfl

theorem keepsDevices_donateRootPage (r : Raises) (rootGpa : BitVec 64) (g guestGpa perm mtype : Nat) :
    KeepsDevices s (donateRootPage r s rootGpa g guestGpa perm mtype).2 := by
  have ht : KeepsDevices s (if pageAlreadyDonatedTo s.root.donated g (Bfn.upper rootGpa ptFrom)
      then ((.success, s) : Status × System)
      else donateTry r s rootGpa (Bfn.upper rootGpa ptFrom) g).2 := by
    split
    · exact KeepsDevices.refl s
    · exact keepsDevices_donateTry r rootGpa _ g
  dsimp only [donateRootPage]
  generalize (if pageAlreadyDonatedTo s.root.donated g (Bfn.upper rootGpa ptFrom)
      then ((.success, s) : Status × System)
      else donateTry r s rootGpa (Bfn.upper rootGpa ptFrom) g) = t at ht ⊢
  split_ifs
  · exact KeepsDevices.refl s
  · exact ht.trans (keepsDevices_installRootPage g guestGpa _ perm mtype)
  · exact ht

theorem keepsDevices_reclaimRootPage (g : Nat) (rootGpa : BitVec 64) :
    KeepsDevices s (reclaimRootPage s g rootGpa).2 := by
  dsimp only [reclaimRootPage]
  split_ifs
  · exact KeepsDevices.refl s
  · exact KeepsDevices.refl s
  · exact KeepsDevices.refl s
  · split <;> exact keepsDevices_root _ _

theorem keepsDevices_reclaimRootPages {g : Nat} {st : Status} (h : reclaimRootPages s g = some (st, s')) :
    KeepsDevices s s' := by
  unfold reclaimRootPages at h
  split_ifs at h
  · cases h; exact KeepsDevices.refl s
  · cases h; exact KeepsDevices.refl s
  split at h
  · cases h; exact KeepsDevices.refl s
  · obtain ⟨res, -, hres⟩ := Option.map_eq_some'.mp h
    split at hres <;> (cases hres; exact keepsDevices_root _ _)

end Keeps

/-! ### The invariant -/

section Invariant

variable {s s' : System}

theorem DevicesInv.keeps (h : DevicesInv s) (hk : KeepsDevices s s') : DevicesInv s' := by
  intro g d' hd'
  obtain ⟨d, hd, hi, hp⟩ := hk.guests g d' hd'
  rw [hp, hi, h g d hd, passthroughDevs, passthroughDevs, takesPassthru, takesPassthru, hk.passthru,
    hk.list]

theorem DevicesInv.create (h : DevicesInv s) (g : Nat) (info : SodInfo) :
    DevicesInv (s.createDomain g info) := by
  intro g' d hd
  by_cases hg : g' = g
  · subst hg
    simp only [System.createDomain, System.setGuest_guests, Function.update_same,
      Option.some.injEq] at hd
    rw [← hd, setupDomU_eq]
    exact List.append_nil _
  · rw [System.createDomain, System.setGuest_guests, Function.update_noteq hg] at hd
    exact h g' d hd

theorem DevicesInv.step (h : DevicesInv s) (hs : Step s s') : DevicesInv s' := by
  cases hs with
  | donate r rootGpa guestGpa perm mtype _ => exact h.keeps (keepsDevices_donateRootPage r rootGpa _ _ _ _)
  | reclaim g rootGpa => exact h.keeps (keepsDevices_reclaimRootPage g rootGpa)
  | reclaimAll g hr => exact h.keeps (keepsDevices_reclaimRootPages hr)
  | create info _ _ => exact h.create _ info
  | destroy g => exact h.keeps (keepsDevices_destroyDomain g)

theorem Reachable.devicesInv (hs : Reachable s) : DevicesInv s := by
  induction hs with
  | init => intro g d hd; cases hd
  | step _ hst ih => exact ih.step hst

end Invariant

/-- Two lists that are each `l` or empty share a member exactly when both are `l` and
`l` is not empty. -/
theorem exists_mem_ite_iff {α : Type} (l : List α) (b₁ b₂ : Bool) :
    (∃ x, x ∈ (if b₁ then l else []) ∧ x ∈ (if b₂ then l else [])) ↔ b₁ ∧ b₂ ∧ l ≠ [] := by
  cases b₁ <;> cases b₂ <;>
    simp only [Bool.false_eq_true, if_false, if_true, List.not_mem_nil, and_false, false_and,
      exists_false, and_self, true_and]
  exact ⟨fun ⟨x, hx⟩ h => (by rw [h] at hx; cases hx), List.exists_mem_of_ne_nil l⟩

/-- **Two live guests share a device exactly when both took the pass-through list.**
In every reachable state, two live guests have a device in common, and their
`map_guest_dma` calls map a common `(iommu, bus, devfn)`, exactly when both are
guests `setup_domU` handed `pci_passthru_list` to and the list is not empty. -/
theorem pciDevs_shared_iff {s : System} (hs : Reachable s) {g₁ g₂ : Nat} {d₁ d₂ : Domain}
    (h₁ : s.guests g₁ = some d₁) (h₂ : s.guests g₂ = some d₂) :
    ((∃ dev, dev ∈ d₁.pciDevs ∧ dev ∈ d₂.pciDevs) ↔
      takesPassthru s d₁.sodInfo ∧ takesPassthru s d₂.sodInfo ∧ s.pciPassthruList ≠ []) ∧
    ((∃ t, t ∈ d₁.mapGuestDma ∧ t ∈ d₂.mapGuestDma) ↔
      takesPassthru s d₁.sodInfo ∧ takesPassthru s d₂.sodInfo ∧ s.pciPassthruList ≠ []) := by
  have hi := hs.devicesInv
  rw [Domain.mapGuestDma, Domain.mapGuestDma, hi g₁ d₁ h₁, hi g₂ d₂ h₂, passthroughDevs,
    passthroughDevs]
  refine ⟨(exists_mem_ite_iff _ _ _).trans (by simp), ?_⟩
  rw [apply_ite (List.map _), apply_ite (List.map _), List.map_nil]
  exact (exists_mem_ite_iff _ _ _).trans (by simp)

/-- A device of `pci_passthru_list`: bus `3`, device-function `0`, behind IOMMU `1`. -/
def passthruDev : PciDev := ⟨3, 0, 1⟩

/-- `pci_passthru` set with one device on the list, and two guests created with a
pass-through device. -/
def twoPassthroughGuests : System :=
  ((System.init (2 ^ 30) true [passthruDev] ⟨false, false⟩).createDomain 1 ⟨false, true⟩).createDomain 2
    ⟨false, true⟩

theorem reachable_twoPassthroughGuests : Reachable twoPassthroughGuests :=
  .step (.step (.init (by decide) true [passthruDev] ⟨false, false⟩)
    (.create ⟨false, true⟩ (by decide) rfl)) (.create ⟨false, true⟩ (by decide) rfl)

/-- Both guests hold the device, and both `map_guest_dma` calls map `(1, 3, 0)`. -/
theorem pciDevs_shared_two_guests :
    Reachable twoPassthroughGuests ∧
    (twoPassthroughGuests.guests 1).map Domain.pciDevs = some [passthruDev] ∧
    (twoPassthroughGuests.guests 2).map Domain.pciDevs = some [passthruDev] ∧
    (twoPassthroughGuests.guests 1).map Domain.mapGuestDma = some [(1, 3, 0)] ∧
    (twoPassthroughGuests.guests 2).map Domain.mapGuestDma = some [(1, 3, 0)] :=
  ⟨reachable_twoPassthroughGuests, by decide⟩

/-- The two guests of `twoPassthroughGuests` share a device, as both took the list. -/
theorem pciDevs_shared_iff_two_guests :
    twoPassthroughGuests.guests 1 = some ((Domain.new 1 ⟨false, true⟩).setupDomU true [passthruDev]) ∧
    twoPassthroughGuests.guests 2 = some ((Domain.new 2 ⟨false, true⟩).setupDomU true [passthruDev]) ∧
    ∃ dev, dev ∈ ((Domain.new 1 ⟨false, true⟩).setupDomU true [passthruDev]).pciDevs ∧
      dev ∈ ((Domain.new 2 ⟨false, true⟩).setupDomU true [passthruDev]).pciDevs :=
  have h₁ : twoPassthroughGuests.guests 1 =
      some ((Domain.new 1 ⟨false, true⟩).setupDomU true [passthruDev]) := rfl
  have h₂ : twoPassthroughGuests.guests 2 =
      some ((Domain.new 2 ⟨false, true⟩).setupDomU true [passthruDev]) := rfl
  ⟨h₁, h₂, (pciDevs_shared_iff reachable_twoPassthroughGuests h₁ h₂).1.mpr
    ⟨rfl, rfl, List.cons_ne_nil _ _⟩⟩

end MicroV

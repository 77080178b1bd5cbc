import MicroV.Tracker
import MicroV.Ept

/-!
# Domains and the system they form

A `Domain` keeps what `domain.cpp` reads and writes of a `domain` object: its id,
the `domain_info` flags `setup_domU` tests, its EPT, the pages handed to its Xen
domain by `add_root_page`, its assigned PCI devices, and the root's
`m_donated_page_map`.  A `System` is the root domain, the registry `get_domain`
looks guests up in, the TLB-shootdown state of the root's vCPUs, and the PCI
pass-through configuration (`microv::pci_passthru`, `pci_passthru_list`).

* `setupDom0`, `setupDomU`, `assignPciDevice`: what the constructor `domain::domain`
  does for the root and for a guest;
* `mapGuestDma`: the bus/device-function triples `map_guest_dma` maps;
* `mapWrapper`: the `map_*` wrappers, one definition for the family;
* `System.init`, `System.createDomain`, `System.destroyDomain`.

Each field update of a `System` has its simp lemmas beside it, so that later proofs
never unfold an update.
-/

namespace MicroV

/-- The flags of `domain_info` that `setup_domU` reads (`is_xen_dom()`,
`has_passthrough_dev()`). -/
structure SodInfo where
  isXenDom : Bool
  hasPassthroughDev : Bool
  deriving DecidableEq, Repr

/-- A `pci_dev`: the bus and device-function `pci_cfg_bus` and `pci_cfg_devfn` read
from its `m_cf8`, and the IOMMU its `m_iommu` points to. -/
structure PciDev where
  bus : Nat
  devfn : Nat
  iommu : Nat
  deriving DecidableEq, Repr

/-- The state of a `domain` that `domain.cpp` reads and writes. -/
structure Domain where
  id : Nat
  sodInfo : SodInfo
  /-- `m_ept_map`. -/
  ept : Ept
  /-- Modelled from the spec: the pages `xen_domain::add_root_page(gpa, hpa, perm, mtype)`
  has handed to the domain's Xen domain, by guest-physical address. -/
  rootPages : Nat → Option Mapping
  /-- `m_pci_devs`. -/
  pciDevs : List PciDev
  /-- `m_donated_page_map`; only the root's is ever used. -/
  donated : DonatedPageMap

/-- The state of the root vCPUs' TLB shootdown: whether one is in flight, and how
many `begin_shootdown` has started. -/
structure Shootdown where
  inFlight : Bool
  begun : Nat
  deriving DecidableEq, Repr

/-- The root domain, the domain registry, the shootdown state and the PCI
pass-through configuration. -/
structure System where
  root : Domain
  /-- `get_domain(id)`: the live guest domains. -/
  guests : Nat → Option Domain
  shootdown : Shootdown
  /-- `microv::pci_passthru`. -/
  pciPassthru : Bool
  /-- `pci_passthru_list`. -/
  pciPassthruList : List PciDev

/-! ### Setting up a domain -/

/-- A domain as its constructor starts it, before `setup_dom0` or `setup_domU`. -/
def Domain.new (id : Nat) (info : SodInfo) : Domain :=
  ⟨id, info, Ept.empty, fun _ => none, [], ∅⟩

/-- `domain::assign_pci_device`: `m_pci_devs.push_front(pdev)`. -/
def Domain.assignPciDevice (d : Domain) (pdev : PciDev) : Domain :=
  { d with pciDevs := pdev :: d.pciDevs }

/-- `domain::setup_dom0`: identity-map the EPT up to `MAX_PHYS_ADDR` (the Xen
platform setup under `g_enable_winpv` is not modelled). -/
def Domain.setupDom0 (d : Domain) (maxPhysAddr : Nat) : Domain :=
  { d with ept := identityMap maxPhysAddr }

/-- `domain::setup_domU`: a Xen guest gets its Xen domain (not modelled); a guest
with a pass-through device gets every device of `pci_passthru_list` when
`pci_passthru` is set. -/
def Domain.setupDomU (d : Domain) (pciPassthru : Bool) (pciPassthruList : List PciDev) :
    Domain :=
  if d.sodInfo.isXenDom then d
  else if d.sodInfo.hasPassthroughDev && pciPassthru then
    pciPassthruList.foldl Domain.assignPciDevice d
  else d

/-- `domain::map_guest_dma`: the `(iommu, bus, devfn)` of each `map_bdf` call, in order
(enabling DMA remapping on the IOMMUs is not modelled). -/
def Domain.mapGuestDma (d : Domain) : List (Nat × Nat × Nat) :=
  d.pciDevs.map fun pdev => (pdev.iommu, pdev.bus, pdev.devfn)

/-! ### The mapping wrappers -/

/-- `ept::mmap::attr_type::read_only`. -/
def readOnly : Nat := 1

/-- `ept::mmap::attr_type::read_write`. -/
def readWrite : Nat := 3

/-- `ept::mmap::memory_type::write_combining`. -/
def writeCombining : Nat := 1

/-- `ept::mmap::memory_type::uncacheable`. -/
def uncacheable : Nat := 0

/-- The page size of a `map_*` wrapper. -/
inductive PageSize
  | size4k
  | size2m
  | size1g
  deriving DecidableEq, Repr

/-- The shift of a page size. -/
def PageSize.shift : PageSize → Nat
  | .size4k => ptFrom
  | .size2m => pdFrom
  | .size1g => pdptFrom

/-- The `map_*` wrappers of `domain`: `m_ept_map.map_4k`, `map_2m` or `map_1g` with the
wrapper's permission and memory type; `write_back` is `mmap`'s default.  `map_4k_rwe`,
which `reclaim_root_page` calls, is `map4kRwe`. -/
def mapWrapper (size : PageSize) (attr mtype : Nat) (e : Ept) (gpa hpa : BitVec 64) : Option Ept :=
  match size with
  | .size4k => e.map4k gpa.toNat hpa.toNat attr mtype
  | .size2m => e.map2m gpa.toNat hpa.toNat attr mtype
  | .size1g => e.map1g gpa.toNat hpa.toNat attr mtype

/-- `domain::map_1g_r`. -/
def map1gR : Ept → BitVec 64 → BitVec 64 → Option Ept := mapWrapper .size1g readOnly writeBack
/-- `domain::map_2m_r`. -/
def map2mR : Ept → BitVec 64 → BitVec 64 → Option Ept := mapWrapper .size2m readOnly writeBack
/-- `domain::map_4k_r`. -/
def map4kR : Ept → BitVec 64 → BitVec 64 → Option Ept := mapWrapper .size4k readOnly writeBack
/-- `domain::map_1g_rw`. -/
def map1gRw : Ept → BitVec 64 → BitVec 64 → Option Ept := mapWrapper .size1g readWrite writeBack
/-- `domain::map_2m_rw`. -/
def map2mRw : Ept → BitVec 64 → BitVec 64 → Option Ept := mapWrapper .size2m readWrite writeBack
/-- `domain::map_4k_rw`. -/
def map4kRw : Ept → BitVec 64 → BitVec 64 → Option Ept := mapWrapper .size4k readWrite writeBack
/-- `domain::map_4k_rw_wc`. -/
def map4kRwWc : Ept → BitVec 64 → BitVec 64 → Option Ept :=
  mapWrapper .size4k readWrite writeCombining
/-- `domain::map_4k_rw_uc`. -/
def map4kRwUc : Ept → BitVec 64 → BitVec 64 → Option Ept := mapWrapper .size4k readWrite uncacheable
/-- `domain::map_1g_rwe`. -/
def map1gRwe : Ept → BitVec 64 → BitVec 64 → Option Ept :=
  mapWrapper .size1g readWriteExecute writeBack
/-- `domain::map_2m_rwe`. -/
def map2mRwe : Ept → BitVec 64 → BitVec 64 → Option Ept :=
  mapWrapper .size2m readWriteExecute writeBack

/-- **Every wrapper maps exactly its page**, to the host page at `hpa`, with the
wrapper's permission and memory type, and leaves every other translation as it was. -/
theorem translate_mapWrapper {size : PageSize} {attr mtype : Nat} {e e' : Ept} {gpa hpa : BitVec 64}
    (h : mapWrapper size attr mtype e gpa hpa = some e') (a : Nat) :
    e'.translate a = if a / 2 ^ size.shift = gpa.toNat / 2 ^ size.shift
      then some ⟨hpa.toNat + a % 2 ^ size.shift, attr, mtype⟩ else e.translate a := by
  cases size
  exacts [Ept.translate_map4k h a, Ept.translate_map2m h a, Ept.translate_map1g h a]

/-- Assigning the devices of a list one by one puts them in front, last one first. -/
theorem foldl_assignPciDevice (l : List PciDev) (d : Domain) :
    l.foldl Domain.assignPciDevice d = { d with pciDevs := l.reverse ++ d.pciDevs } := by
  induction l generalizing d with
  | nil => rfl
  | cons x xs ih => simp [ih, Domain.assignPciDevice]

/-- **What `setup_domU` does**: it puts `pci_passthru_list`, reversed, in front of the
device list of a guest that is not a Xen guest, has a pass-through device and runs
with `pci_passthru` set, and changes nothing else. -/
theorem setupDomU_eq (d : Domain) (pciPassthru : Bool) (l : List PciDev) :
    d.setupDomU pciPassthru l = { d with pciDevs :=
      (if !d.sodInfo.isXenDom && d.sodInfo.hasPassthroughDev && pciPassthru then l.reverse else [])
        ++ d.pciDevs } := by
  unfold Domain.setupDomU
  cases d.sodInfo.isXenDom <;> cases d.sodInfo.hasPassthroughDev <;> cases pciPassthru <;>
    simp [foldl_assignPciDevice]

namespace System

/-- The root domain after `setup_dom0`, no guests, no shootdown in flight. -/
def init (maxPhysAddr : Nat) (pciPassthru : Bool) (pciPassthruList : List PciDev)
    (info : SodInfo) : System :=
  ⟨(Domain.new 0 info).setupDom0 maxPhysAddr, fun _ => none, ⟨false, 0⟩, pciPassthru,
    pciPassthruList⟩

/-- Destroy guest `g`: the registry forgets it. -/
def destroyDomain (s : System) (g : Nat) : System :=
  { s with guests := Function.update s.guests g none }

/-! ### Field updates -/

def setRootEpt (s : System) (e : Ept) : System := { s with root := { s.root with ept := e } }

def setDonated (s : System) (m : DonatedPageMap) : System :=
  { s with root := { s.root with donated := m } }

def setGuest (s : System) (g : Nat) (d : Domain) : System :=
  { s with guests := Function.update s.guests g (some d) }

/-- Construct guest `g` and register it. -/
def createDomain (s : System) (g : Nat) (info : SodInfo) : System :=
  s.setGuest g ((Domain.new g info).setupDomU s.pciPassthru s.pciPassthruList)

/-- `begin_shootdown` when none is in flight. -/
def beginShootdown (s : System) : System :=
  { s with shootdown := ⟨true, s.shootdown.begun + 1⟩ }

/-- `end_shootdown`. -/
def endShootdown (s : System) : System :=
  { s with shootdown := { s.shootdown with inFlight := false } }

variable (s : System)

@[simp] theorem setRootEpt_root_ept (e : Ept) : (s.setRootEpt e).root.ept = e := rfl
@[simp] theorem setRootEpt_root_id (e : Ept) : (s.setRootEpt e).root.id = s.root.id := rfl
@[simp] theorem setRootEpt_root_donated (e : Ept) :
    (s.setRootEpt e).root.donated = s.root.donated := rfl
@[simp] theorem setRootEpt_guests (e : Ept) : (s.setRootEpt e).guests = s.guests := rfl
@[simp] theorem setRootEpt_shootdown (e : Ept) : (s.setRootEpt e).shootdown = s.shootdown := rfl

@[simp] theorem setDonated_root_ept (m : DonatedPageMap) : (s.setDonated m).root.ept = s.root.ept :=
  rfl
@[simp] theorem setDonated_root_id (m : DonatedPageMap) : (s.setDonated m).root.id = s.root.id :=
  rfl
@[simp] theorem setDonated_root_donated (m : DonatedPageMap) : (s.setDonated m).root.donated = m :=
  rfl
@[simp] theorem setDonated_guests (m : DonatedPageMap) : (s.setDonated m).guests = s.guests := rfl
@[simp] theorem setDonated_shootdown (m : DonatedPageMap) :
    (s.setDonated m).shootdown = s.shootdown := rfl

@[simp] theorem setGuest_root (g : Nat) (d : Domain) : (s.setGuest g d).root = s.root := rfl
@[simp] theorem setGuest_guests (g : Nat) (d : Domain) :
    (s.setGuest g d).guests = Function.update s.guests g (some d) := rfl
@[simp] theorem setGuest_shootdown (g : Nat) (d : Domain) :
    (s.setGuest g d).shootdown = s.shootdown := rfl
@[simp] theorem setGuest_pciPassthru (g : Nat) (d : Domain) :
    (s.setGuest g d).pciPassthru = s.pciPassthru := rfl
@[simp] theorem setGuest_pciPassthruList (g : Nat) (d : Domain) :
    (s.setGuest g d).pciPassthruList = s.pciPassthruList := rfl

@[simp] theorem beginShootdown_root : s.beginShootdown.root = s.root := rfl
@[simp] theorem beginShootdown_guests : s.beginShootdown.guests = s.guests := rfl
@[simp] theorem beginShootdown_shootdown :
    s.beginShootdown.shootdown = ⟨true, s.shootdown.begun + 1⟩ := rfl

@[simp] theorem endShootdown_root : s.endShootdown.root = s.root := rfl
@[simp] theorem endShootdown_guests : s.endShootdown.guests = s.guests := rfl
@[simp] theorem endShootdown_shootdown :
    s.endShootdown.shootdown = { s.shootdown with inFlight := false } := rfl

@[simp] theorem destroyDomain_root (g : Nat) : (s.destroyDomain g).root = s.root := rfl
@[simp] theorem destroyDomain_guests (g : Nat) :
    (s.destroyDomain g).guests = Function.update s.guests g none := rfl


end System

end MicroV

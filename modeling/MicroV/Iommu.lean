import MicroV.Domain

/-!
# IOMMUs and the root's DMA mappings

What a domain does with the IOMMUs behind its devices once device assignment is done.
IOMMUs and PCI enumeration live outside `domain.cpp`: an IOMMU is known by its pointer
(a `Nat`), what `domain.cpp` asks of it is `IommuCaps`, and the calls it makes on IOMMUs
are recorded as a list of `DmaCall`s.

* `IommuSet`: `m_iommu_set`, a `std::set` of IOMMU pointers, as a strictly increasing
  list; `IommuSet.addIommu` keeps it so and adds exactly the one IOMMU;
* **`prepareIommus_capabilities`**: `prepare_iommus` records on the EPT map the
  conjunction of the page-walk coherence, and of the snoop control, of the IOMMUs of
  the domain's devices, adds those IOMMUs to the set once each, and flushes the EPT
  tables once exactly when one of them lacks page-walk coherence;
* **`mapRootDma_isolates_passthru`**: when `pci_bus_has_passthru_dev` tells exactly the
  buses holding a pass-through device and the root holds none, `map_root_dma` maps
  every other bus/device-function of the topology to the root through the catch-all
  IOMMU, and no pass-through one through any IOMMU; it runs to its end exactly when the
  set has a catch-all IOMMU (`mapRootDma_isSome_iff`);
* `mapRootDma_enables`: it switches DMA remapping on once for each IOMMU of the set
  that had it off, and for no other.
-/

namespace MicroV

/-! ### The IOMMU set -/

/-- `m_iommu_set`, a `std::set<iommu *>`: the IOMMUs in increasing pointer order. -/
structure IommuSet where
  ids : List Nat
  sorted : ids.Sorted (· < ·)

namespace IommuSet

def empty : IommuSet := ⟨[], List.sorted_nil⟩

theorem sorted_orderedInsert {l : List Nat} (h : l.Sorted (· < ·)) {i : Nat} (hi : i ∉ l) :
    (l.orderedInsert (· ≤ ·) i).Sorted (· < ·) :=
  (h.le_of_lt.orderedInsert i).lt_of_le
    ((List.perm_orderedInsert _ i l).nodup_iff.mpr (List.nodup_cons.mpr ⟨hi, h.nodup⟩))

def insert (s : IommuSet) (i : Nat) : IommuSet :=
  if hi : i ∈ s.ids then s else ⟨s.ids.orderedInsert (· ≤ ·) i, sorted_orderedInsert s.sorted hi⟩

/-- `domain::add_iommu`: `m_iommu_set.count(iommu)`, then `m_iommu_set.insert(iommu)`. -/
def addIommu (s : IommuSet) (iommu : Nat) : IommuSet :=
  if 0 < s.ids.count iommu then s else s.insert iommu

variable {s : IommuSet} {i j : Nat}

theorem nodup (s : IommuSet) : s.ids.Nodup := s.sorted.nodup

theorem mem_insert : j ∈ (s.insert i).ids ↔ j = i ∨ j ∈ s.ids := by
  by_cases hi : i ∈ s.ids
  · rw [insert, dif_pos hi]
    exact ⟨Or.inr, fun h => h.elim (· ▸ hi) id⟩
  · rw [insert, dif_neg hi]
    exact (List.perm_orderedInsert _ i s.ids).mem_iff.trans List.mem_cons

/-- **`add_iommu` adds exactly the IOMMU.** -/
theorem mem_addIommu : j ∈ (s.addIommu i).ids ↔ j = i ∨ j ∈ s.ids := by
  unfold addIommu
  split
  · exact ⟨Or.inr, fun h => h.elim (· ▸ List.count_pos_iff.mp ‹_›) id⟩
  · exact mem_insert

end IommuSet

/-! ### `prepare_iommus` -/

/-- Modelled from the spec: what `domain.cpp` asks of the IOMMU at each pointer,
`coherent_page_walk()`, `snoop_ctl()`, `has_catchall_scope()` and
`dma_remapping_enabled()`. -/
structure IommuCaps where
  coherentPageWalk : Nat → Bool
  snoopCtl : Nat → Bool
  hasCatchallScope : Nat → Bool
  dmaRemappingEnabled : Nat → Bool

/-- What DMA setup reads and writes of a `domain` beside its devices: `m_iommu_set`,
what `m_ept_map.set_iommu_coherence` and `set_iommu_snoop_ctl` recorded, the calls of
`m_ept_map.flush_tables()` so far (modelled from the spec), and `m_dma_map_ready`. -/
structure DmaState where
  iommuSet : IommuSet
  iommuCoherence : Bool
  iommuSnoopCtl : Bool
  flushes : Nat
  dmaMapReady : Bool

/-- The locals of the loop of `prepare_iommus`: `coherent`, `snoop_ctl`, and the set
`add_iommu` fills. -/
structure PrepareAcc where
  coherent : Bool
  snoopCtl : Bool
  iommuSet : IommuSet

/-- One pass of the loop of `prepare_iommus`, for device `pdev`. -/
def prepareStep (caps : IommuCaps) (acc : PrepareAcc) (pdev : PciDev) : PrepareAcc :=
  ⟨caps.coherentPageWalk pdev.iommu && acc.coherent, caps.snoopCtl pdev.iommu && acc.snoopCtl,
    acc.iommuSet.addIommu pdev.iommu⟩

/-- `domain::prepare_iommus`. -/
def Domain.prepareIommus (d : Domain) (caps : IommuCaps) (st : DmaState) : DmaState :=
  let acc := d.pciDevs.foldl (prepareStep caps) ⟨true, true, st.iommuSet⟩
  { iommuSet := acc.iommuSet
    iommuCoherence := acc.coherent
    iommuSnoopCtl := acc.snoopCtl
    flushes := if !acc.coherent then st.flushes + 1 else st.flushes
    dmaMapReady := true }

theorem foldl_prepareStep (caps : IommuCaps) (devs : List PciDev) (acc : PrepareAcc) :
    (devs.foldl (prepareStep caps) acc).coherent =
      ((devs.all fun p => caps.coherentPageWalk p.iommu) && acc.coherent) ∧
    (devs.foldl (prepareStep caps) acc).snoopCtl =
      ((devs.all fun p => caps.snoopCtl p.iommu) && acc.snoopCtl) ∧
    ∀ i, i ∈ (devs.foldl (prepareStep caps) acc).iommuSet.ids ↔
      i ∈ acc.iommuSet.ids ∨ ∃ p ∈ devs, p.iommu = i := by
  induction devs generalizing acc with
  | nil => simp
  | cons p devs ih =>
    obtain ⟨hc, hs, hm⟩ := ih (prepareStep caps acc p)
    refine ⟨?_, ?_, fun i => ?_⟩
    · rw [List.foldl_cons, hc, List.all_cons]
      exact (Bool.and_left_comm _ _ _).trans (Bool.and_assoc _ _ _).symm
    · rw [List.foldl_cons, hs, List.all_cons]
      exact (Bool.and_left_comm _ _ _).trans (Bool.and_assoc _ _ _).symm
    · rw [List.foldl_cons, hm, prepareStep, IommuSet.mem_addIommu, @eq_comm _ i]
      simp only [List.mem_cons, or_and_right, exists_or, exists_eq_left]
      exact or_assoc.trans or_left_comm

/-- **What `prepare_iommus` records.**  For any devices, in any order and sharing
IOMMUs in any way: the EPT map records as IOMMU coherence the conjunction of
`coherent_page_walk()` over the devices' IOMMUs, and as snoop control the conjunction of
`snoop_ctl()`; the IOMMU set is the one before with those IOMMUs added, each once; and
`flush_tables` runs once when one of those IOMMUs lacks page-walk coherence, and
otherwise not at all. -/
theorem prepareIommus_capabilities (d : Domain) (caps : IommuCaps) (st : DmaState) :
    (d.prepareIommus caps st).iommuCoherence =
      d.pciDevs.all (fun p => caps.coherentPageWalk p.iommu) ∧
    (d.prepareIommus caps st).iommuSnoopCtl = d.pciDevs.all (fun p => caps.snoopCtl p.iommu) ∧
    (∀ i, i ∈ (d.prepareIommus caps st).iommuSet.ids ↔
      i ∈ st.iommuSet.ids ∨ ∃ p ∈ d.pciDevs, p.iommu = i) ∧
    (d.prepareIommus caps st).iommuSet.ids.Nodup ∧
    (d.prepareIommus caps st).flushes =
      st.flushes + if ∃ p ∈ d.pciDevs, caps.coherentPageWalk p.iommu = false then 1 else 0 := by
  obtain ⟨hc, hs, hm⟩ := foldl_prepareStep caps d.pciDevs ⟨true, true, st.iommuSet⟩
  refine ⟨hc.trans (Bool.and_true _), hs.trans (Bool.and_true _), hm, IommuSet.nodup _, ?_⟩
  simp [Domain.prepareIommus, hc, List.all_eq_false, apply_ite]

/-- The spec's two cases: IOMMUs `1` and `2`, with `2` not coherent, give coherence
`false` and one flush; both coherent, no flush. -/
example :
    ({ Domain.new 1 ⟨false, true⟩ with pciDevs := [⟨0, 8, 1⟩, ⟨0, 16, 2⟩] }.prepareIommus
      ⟨fun i => i == 1, fun _ => true, fun _ => false, fun _ => false⟩
      ⟨.empty, true, true, 0, false⟩).iommuCoherence = false ∧
    ({ Domain.new 1 ⟨false, true⟩ with pciDevs := [⟨0, 8, 1⟩, ⟨0, 16, 2⟩] }.prepareIommus
      ⟨fun i => i == 1, fun _ => true, fun _ => false, fun _ => false⟩
      ⟨.empty, true, true, 0, false⟩).flushes = 1 ∧
    ({ Domain.new 1 ⟨false, true⟩ with pciDevs := [⟨0, 8, 1⟩, ⟨0, 16, 2⟩] }.prepareIommus
      ⟨fun _ => true, fun _ => true, fun _ => false, fun _ => false⟩
      ⟨.empty, true, true, 0, false⟩).flushes = 0 := by
  decide

/-! ### `map_root_dma` -/

/-- Modelled from the spec: PCI enumeration as `map_root_dma` reads it, `pci_nr_bus`,
`pci_nr_devfn`, `pci_bus_has_passthru_dev(bus)`, and the pass-through devices
`find_passthru_dev` looks up. -/
structure PciTopology where
  nrBus : Nat
  nrDevfn : Nat
  busHasPassthruDev : Nat → Bool
  passthru : List PciDev

/-- Modelled from the spec: `find_passthru_dev(pci_cfg_bdf_to_addr(bus, devfn))`, the
pass-through device at the bus and device-function. -/
def findPassthruDev (passthru : List PciDev) (bus devfn : Nat) : Option PciDev :=
  passthru.find? fun p => p.bus == bus && p.devfn == devfn

/-- A call `domain.cpp` makes on an IOMMU: `map_bus(bus, dom)`,
`map_bdf(bus, devfn, dom)` or `enable_dma_remapping()`. -/
inductive DmaCall
  | mapBus (iommu bus : Nat)
  | mapBdf (iommu bus devfn : Nat)
  | enableDmaRemapping (iommu : Nat)
  deriving DecidableEq, Repr

/-- Modelled from the spec: whether the call makes `iommu` map `bus`/`devfn` to the
domain; `map_bus` maps every device-function of its bus. -/
def DmaCall.maps : DmaCall → Nat → Nat → Nat → Bool
  | .mapBus i b, iommu, bus, _ => i == iommu && b == bus
  | .mapBdf i b f, iommu, bus, devfn => i == iommu && b == bus && f == devfn
  | .enableDmaRemapping _, _, _, _ => false

def MapsBdf (calls : List DmaCall) (iommu bus devfn : Nat) : Prop :=
  ∃ c ∈ calls, c.maps iommu bus devfn = true

/-- `domain::find_catchall_iommu`: the first IOMMU of the set with catch-all scope. -/
def findCatchallIommu (caps : IommuCaps) (s : IommuSet) : Option Nat :=
  s.ids.find? caps.hasCatchallScope

/-- One pass of the bus loop of `map_root_dma`: the whole bus through the catch-all
IOMMU when `pci_bus_has_passthru_dev` says no, else each device-function that
`find_passthru_dev` does not find. -/
def mapRootBus (t : PciTopology) (catchall bus : Nat) : List DmaCall :=
  if !t.busHasPassthruDev bus then [.mapBus catchall bus]
  else (List.range t.nrDevfn).filterMap fun devfn =>
    if (findPassthruDev t.passthru bus devfn).isSome then none
    else some (.mapBdf catchall bus devfn)

def mapRootDevs (caps : IommuCaps) (devs : List PciDev) : List DmaCall :=
  devs.filterMap fun pdev =>
    if !caps.hasCatchallScope pdev.iommu then some (.mapBdf pdev.iommu pdev.bus pdev.devfn)
    else none

def enableRemapping (caps : IommuCaps) (s : IommuSet) : List DmaCall :=
  s.ids.filterMap fun iommu =>
    if caps.dmaRemappingEnabled iommu then none else some (.enableDmaRemapping iommu)

/-- `domain::map_root_dma`: the calls it makes on IOMMUs, in order; `none` when its
`expects` finds no catch-all IOMMU. -/
def Domain.mapRootDma (d : Domain) (caps : IommuCaps) (t : PciTopology) (st : DmaState) :
    Option (List DmaCall) :=
  (findCatchallIommu caps st.iommuSet).map fun catchall =>
    (List.range t.nrBus).flatMap (mapRootBus t catchall) ++ mapRootDevs caps d.pciDevs ++
      enableRemapping caps st.iommuSet

theorem mem_mapRootBus {t : PciTopology} {catchall bus : Nat} {c : DmaCall} :
    c ∈ mapRootBus t catchall bus ↔
      (t.busHasPassthruDev bus = false ∧ c = .mapBus catchall bus) ∨
      (t.busHasPassthruDev bus = true ∧ ∃ devfn < t.nrDevfn,
        findPassthruDev t.passthru bus devfn = none ∧ c = .mapBdf catchall bus devfn) := by
  unfold mapRootBus
  cases t.busHasPassthruDev bus <;> simp [List.mem_filterMap, eq_comm (a := c)]

theorem mem_mapRootDevs {caps : IommuCaps} {devs : List PciDev} {c : DmaCall} :
    c ∈ mapRootDevs caps devs ↔ ∃ p ∈ devs, caps.hasCatchallScope p.iommu = false ∧
      c = .mapBdf p.iommu p.bus p.devfn := by
  simp [mapRootDevs, List.mem_filterMap, eq_comm (a := c)]

theorem mem_enableRemapping {caps : IommuCaps} {s : IommuSet} {c : DmaCall} :
    c ∈ enableRemapping caps s ↔ ∃ i ∈ s.ids, caps.dmaRemappingEnabled i = false ∧
      c = .enableDmaRemapping i := by
  simp [enableRemapping, List.mem_filterMap, eq_comm (a := c)]

section Passthru

variable {d : Domain} {caps : IommuCaps} {t : PciTopology} {st : DmaState} {catchall : Nat}

theorem busHasPassthruDev_of_find
    (hbus : ∀ bus, t.busHasPassthruDev bus = true ↔ ∃ p ∈ t.passthru, p.bus = bus)
    {bus devfn : Nat} (hf : (findPassthruDev t.passthru bus devfn).isSome) :
    t.busHasPassthruDev bus = true := by
  obtain ⟨p, hp⟩ := Option.isSome_iff_exists.mp hf
  have := List.find?_some hp
  simp only [Bool.and_eq_true, beq_iff_eq] at this
  exact (hbus bus).mpr ⟨p, List.mem_of_find?_eq_some hp, this.1⟩

/-- **The root maps every other device-function through the catch-all IOMMU, and no
pass-through one.**  Let `pci_bus_has_passthru_dev(bus)` hold exactly when a
pass-through device sits on `bus`, and let none of the root's devices be a pass-through
device.  When the set has a catch-all IOMMU, `map_root_dma` runs to its end, and
afterwards every bus/device-function of the topology that `find_passthru_dev` does not
find is mapped to the root through the catch-all IOMMU, while a pass-through
bus/device-function is mapped through no IOMMU, for any set of pass-through devices. -/
theorem mapRootDma_isolates_passthru
    (hbus : ∀ bus, t.busHasPassthruDev bus = true ↔ ∃ p ∈ t.passthru, p.bus = bus)
    (hroot : ∀ p ∈ d.pciDevs, findPassthruDev t.passthru p.bus p.devfn = none)
    (hc : findCatchallIommu caps st.iommuSet = some catchall) :
    ∃ calls, d.mapRootDma caps t st = some calls ∧
      (∀ bus < t.nrBus, ∀ devfn < t.nrDevfn, findPassthruDev t.passthru bus devfn = none →
        MapsBdf calls catchall bus devfn) ∧
      (∀ iommu bus devfn, (findPassthruDev t.passthru bus devfn).isSome →
        ¬ MapsBdf calls iommu bus devfn) := by
  refine ⟨_, by rw [Domain.mapRootDma, hc]; rfl, fun bus hb devfn hd hf => ?_, ?_⟩
  · have hmem : ∀ c ∈ mapRootBus t catchall bus, c ∈ (List.range t.nrBus).flatMap
        (mapRootBus t catchall) ++ mapRootDevs caps d.pciDevs ++ enableRemapping caps st.iommuSet :=
      fun c hc => List.mem_append_left _ (List.mem_append_left _
        (List.mem_flatMap.mpr ⟨bus, List.mem_range.mpr hb, hc⟩))
    cases hp : t.busHasPassthruDev bus
    · exact ⟨_, hmem _ (mem_mapRootBus.mpr (.inl ⟨hp, rfl⟩)), by simp [DmaCall.maps]⟩
    · exact ⟨_, hmem _ (mem_mapRootBus.mpr (.inr ⟨hp, devfn, hd, hf, rfl⟩)), by simp [DmaCall.maps]⟩
  · rintro iommu bus devfn hf ⟨c, hc, hm⟩
    simp only [List.mem_append, List.mem_flatMap, List.mem_range, mem_mapRootBus, mem_mapRootDevs,
      mem_enableRemapping] at hc
    rcases hc with (⟨b, -, ⟨hp, rfl⟩ | ⟨-, f, -, hn, rfl⟩⟩ | ⟨p, hp, -, rfl⟩) | ⟨i, -, -, rfl⟩
    · obtain ⟨-, rfl⟩ : catchall = iommu ∧ b = bus := by simpa [DmaCall.maps] using hm
      rw [busHasPassthruDev_of_find hbus hf] at hp
      cases hp
    · obtain ⟨⟨-, rfl⟩, rfl⟩ : (catchall = iommu ∧ b = bus) ∧ f = devfn := by
        simpa [DmaCall.maps] using hm
      rw [hn] at hf
      cases hf
    · obtain ⟨⟨-, rfl⟩, rfl⟩ : (p.iommu = iommu ∧ p.bus = bus) ∧ p.devfn = devfn := by
        simpa [DmaCall.maps] using hm
      rw [hroot p hp] at hf
      cases hf
    · cases hm

/-- Two buses of four device-functions with a pass-through device at `1:2` behind IOMMU
`7`, a root device at `0:1` behind IOMMU `5`, and IOMMU `3` with catch-all scope. -/
theorem mapRootDma_isolates_passthru_two_buses :
    ∃ calls, Domain.mapRootDma { Domain.new 0 ⟨false, false⟩ with pciDevs := [⟨0, 1, 5⟩] }
        ⟨fun _ => true, fun _ => true, fun i => i == 3, fun _ => false⟩
        ⟨2, 4, fun b => b == 1, [⟨1, 2, 7⟩]⟩ ⟨⟨[3, 5], by decide⟩, true, true, 0, true⟩ =
          some calls ∧
      MapsBdf calls 3 1 3 ∧ ¬ MapsBdf calls 7 1 2 := by
  obtain ⟨calls, h, hmap, hpass⟩ := @mapRootDma_isolates_passthru
    { Domain.new 0 ⟨false, false⟩ with pciDevs := [⟨0, 1, 5⟩] }
    ⟨fun _ => true, fun _ => true, fun i => i == 3, fun _ => false⟩
    ⟨2, 4, fun b => b == 1, [⟨1, 2, 7⟩]⟩ ⟨⟨[3, 5], by decide⟩, true, true, 0, true⟩ 3
    (fun bus => by simp [eq_comm (a := bus)]) (by decide) rfl
  exact ⟨calls, h, hmap 1 (by decide) 3 (by decide) (by decide), hpass 7 1 2 (by decide)⟩

end Passthru

/-! ### Completion, and DMA remapping -/

section Enable

variable {d : Domain} {caps : IommuCaps} {t : PciTopology} {st : DmaState}

/-- `map_root_dma` runs to its end exactly when the set holds an IOMMU with catch-all
scope. -/
theorem mapRootDma_isSome_iff :
    (d.mapRootDma caps t st).isSome ↔ ∃ i ∈ st.iommuSet.ids, caps.hasCatchallScope i = true := by
  simp [Domain.mapRootDma, findCatchallIommu, List.find?_isSome]

theorem count_enableRemapping (caps : IommuCaps) (s : IommuSet) (i : Nat) :
    (enableRemapping caps s).count (.enableDmaRemapping i) =
      if i ∈ s.ids ∧ caps.dmaRemappingEnabled i = false then 1 else 0 := by
  have hnd : (enableRemapping caps s).Nodup :=
    s.nodup.filterMap fun a a' b ha ha' => by
      simp only [Option.mem_def, Option.ite_none_left_eq_some] at ha ha'
      exact DmaCall.enableDmaRemapping.inj (Option.some.inj (ha.2.trans ha'.2.symm))
  split_ifs with hi
  · exact List.count_eq_one_of_mem hnd (mem_enableRemapping.mpr ⟨i, hi.1, hi.2, rfl⟩)
  · exact List.count_eq_zero.mpr fun hm => hi (by
      obtain ⟨j, hj, he, hij⟩ := mem_enableRemapping.mp hm
      rw [DmaCall.enableDmaRemapping.inj hij]
      exact ⟨hj, he⟩)

/-- **DMA remapping is switched on once per IOMMU.**  `map_root_dma` calls
`enable_dma_remapping` once on each IOMMU of the set that has remapping off, and never on
another. -/
theorem mapRootDma_enables {calls : List DmaCall} (h : d.mapRootDma caps t st = some calls)
    (i : Nat) :
    calls.count (.enableDmaRemapping i) =
      if i ∈ st.iommuSet.ids ∧ caps.dmaRemappingEnabled i = false then 1 else 0 := by
  obtain ⟨catchall, -, rfl⟩ := Option.map_eq_some'.mp h
  have hA : .enableDmaRemapping i ∉ (List.range t.nrBus).flatMap (mapRootBus t catchall) := by
    simp [List.mem_flatMap, mem_mapRootBus]
  have hB : .enableDmaRemapping i ∉ mapRootDevs caps d.pciDevs := by simp [mem_mapRootDevs]
  rw [List.count_append, List.count_append, List.count_eq_zero.mpr hA,
    List.count_eq_zero.mpr hB, Nat.zero_add, count_enableRemapping]

end Enable

end MicroV

import MicroV.Iommu
import MicroV.Devices

/-!
# A domain's DMA: the set, the mappings, the flushes

The rest of the IOMMU side of `domain.cpp`, and how it composes with `prepare_iommus`.

* `IommuSet.removeIommu`: `remove_iommu`.  A set is determined by its members
  (`IommuSet.ext_mem`), so `add_iommu` and `remove_iommu` undo each other
  (`addIommu_removeIommu`), and what `prepare_iommus` leaves depends only on which
  IOMMUs stand behind the devices (`prepareIommus_congr`);
* `Domain.mapGuestDmaCalls`, `Domain.mapDma`: `map_guest_dma` with both its loops, and
  `map_dma`, whose `expects` needs `prepare_iommus` to have run;
* `mapDma_prepared_isSome_iff`, `mapDma_prepared_enables`: after `prepare_iommus`,
  when `map_dma` runs to its end, and which IOMMUs it switches DMA remapping on;
* **`mapDma_guest_passthru`**: in every reachable state, `map_dma` on a live guest maps
  through an IOMMU exactly the devices of `pci_passthru_list` behind it, and only when
  the guest took the list;
* `countP_flushIotlbPage`, `covers_flushIotlbPage`: the loop of `flush_iotlb_page_4k`
  and `flush_iotlb_page_2m` flushes each IOMMU of the set once, on the whole domain or
  on a range holding the page.
-/

namespace MicroV

/-! ### `remove_iommu` -/

namespace IommuSet

variable {s t : IommuSet} {i j : Nat}

theorem ext_mem (h : ∀ j, j ∈ s.ids ↔ j ∈ t.ids) : s = t := by
  obtain ⟨l, hl⟩ := s
  obtain ⟨l', hl'⟩ := t
  obtain rfl : l = l' := List.eq_of_perm_of_sorted
    ((List.perm_ext_iff_of_nodup hl.nodup hl'.nodup).mpr h) hl.le_of_lt hl'.le_of_lt
  rfl

/-- `domain::remove_iommu`: `m_iommu_set.erase(iommu)`. -/
def removeIommu (s : IommuSet) (iommu : Nat) : IommuSet :=
  ⟨s.ids.erase iommu, s.sorted.sublist (List.erase_sublist _ _)⟩

theorem mem_removeIommu : j ∈ (s.removeIommu i).ids ↔ j ≠ i ∧ j ∈ s.ids :=
  s.nodup.mem_erase_iff

/-- **`add_iommu` and `remove_iommu` undo each other.**  Removing an IOMMU right after
adding it leaves the set `remove_iommu` alone leaves, and adding it right after removing
it leaves the set `add_iommu` alone leaves. -/
theorem addIommu_removeIommu (s : IommuSet) (i : Nat) :
    (s.addIommu i).removeIommu i = s.removeIommu i ∧
    (s.removeIommu i).addIommu i = s.addIommu i := by
  refine ⟨ext_mem fun j => ?_, ext_mem fun j => ?_⟩
  · simp only [mem_removeIommu, mem_addIommu]
    exact and_congr_right fun hj => or_iff_right hj
  · simp only [mem_removeIommu, mem_addIommu]
    by_cases hj : j = i <;> simp [hj]

end IommuSet

/-- **`prepare_iommus` depends only on the IOMMUs behind the devices.**  Two domains
whose devices stand behind the same IOMMUs, in any order and with any repetition, leave
the same IOMMU set, the same coherence and snoop-control flags, and the same number of
table flushes. -/
theorem prepareIommus_congr {d d' : Domain}
    (h : ∀ i, (∃ p ∈ d.pciDevs, p.iommu = i) ↔ ∃ p ∈ d'.pciDevs, p.iommu = i)
    (caps : IommuCaps) (st : DmaState) : d.prepareIommus caps st = d'.prepareIommus caps st := by
  have hall : ∀ f : Nat → Bool,
      (d.pciDevs.all fun p => f p.iommu) = d'.pciDevs.all fun p => f p.iommu := fun f => by
    rw [Bool.eq_iff_iff]
    simp only [List.all_eq_true]
    exact ⟨fun ha p hp => by obtain ⟨q, hq, he⟩ := (h _).mpr ⟨p, hp, rfl⟩; rw [← he]; exact ha q hq,
      fun ha p hp => by obtain ⟨q, hq, he⟩ := (h _).mp ⟨p, hp, rfl⟩; rw [← he]; exact ha q hq⟩
  obtain ⟨hc, hs, hm⟩ := foldl_prepareStep caps d.pciDevs ⟨true, true, st.iommuSet⟩
  obtain ⟨hc', hs', hm'⟩ := foldl_prepareStep caps d'.pciDevs ⟨true, true, st.iommuSet⟩
  have hset := IommuSet.ext_mem fun i => (hm i).trans ((or_congr_right (h i)).trans (hm' i).symm)
  simp only [Domain.prepareIommus, hc, hs, hc', hs', hset, hall]

/-- Domains `1` and `2`: devices behind IOMMUs `1` and `2`, the second listing them the
other way round and `1` twice. -/
theorem prepareIommus_congr_reordered :
    (∀ i, (∃ p ∈ [PciDev.mk 0 8 1, ⟨0, 16, 2⟩], p.iommu = i) ↔
      ∃ p ∈ [PciDev.mk 0 16 2, ⟨0, 8, 1⟩, ⟨1, 0, 1⟩], p.iommu = i) ∧
    ({ Domain.new 1 ⟨false, true⟩ with pciDevs := [⟨0, 8, 1⟩, ⟨0, 16, 2⟩] }.prepareIommus
        ⟨fun i => i == 1, fun _ => true, fun _ => false, fun _ => false⟩ ⟨.empty, true, true, 0, false⟩ =
      { Domain.new 2 ⟨false, true⟩ with pciDevs := [⟨0, 16, 2⟩, ⟨0, 8, 1⟩, ⟨1, 0, 1⟩] }.prepareIommus
        ⟨fun i => i == 1, fun _ => true, fun _ => false, fun _ => false⟩ ⟨.empty, true, true, 0, false⟩) :=
  have h : ∀ i, (∃ p ∈ [PciDev.mk 0 8 1, ⟨0, 16, 2⟩], p.iommu = i) ↔
      ∃ p ∈ [PciDev.mk 0 16 2, ⟨0, 8, 1⟩, ⟨1, 0, 1⟩], p.iommu = i := fun i => by
    simp only [List.mem_cons, List.mem_singleton, List.not_mem_nil, or_false, exists_eq_or_imp,
      exists_eq_left]
    rw [or_self, or_comm]
  ⟨h, prepareIommus_congr h _ _⟩

/-! ### `map_guest_dma` and `map_dma` -/

/-- `domain::map_guest_dma` with both its loops, as the calls it makes on IOMMUs: each
device mapped through its own IOMMU (`mapGuestDma`), then DMA remapping switched on for
each IOMMU of the set that has it off. -/
def Domain.mapGuestDmaCalls (d : Domain) (caps : IommuCaps) (st : DmaState) : List DmaCall :=
  d.mapGuestDma.map (fun m => .mapBdf m.1 m.2.1 m.2.2) ++ enableRemapping caps st.iommuSet

/-- `domain::map_dma`: `none` when its `expects` finds `m_dma_map_ready` clear, or when
`map_root_dma` raises. -/
def Domain.mapDma (d : Domain) (caps : IommuCaps) (t : PciTopology) (st : DmaState) :
    Option (List DmaCall) :=
  if !st.dmaMapReady then none
  else if d.id = 0 then d.mapRootDma caps t st
  else some (d.mapGuestDmaCalls caps st)

section Map

variable {d : Domain} {caps : IommuCaps} {t : PciTopology} {st : DmaState}

theorem mapDma_prepared (d : Domain) (caps : IommuCaps) (t : PciTopology) (st : DmaState) :
    d.mapDma caps t (d.prepareIommus caps st) =
      if d.id = 0 then d.mapRootDma caps t (d.prepareIommus caps st)
      else some (d.mapGuestDmaCalls caps (d.prepareIommus caps st)) := rfl

theorem mem_prepareIommus (d : Domain) (caps : IommuCaps) (st : DmaState) (i : Nat) :
    i ∈ (d.prepareIommus caps st).iommuSet.ids ↔ i ∈ st.iommuSet.ids ∨ ∃ p ∈ d.pciDevs, p.iommu = i :=
  (foldl_prepareStep caps d.pciDevs ⟨true, true, st.iommuSet⟩).2.2 i

/-- `map_guest_dma` maps exactly the domain's devices, each through its own IOMMU. -/
theorem mapsBdf_mapGuestDmaCalls {iommu bus devfn : Nat} :
    MapsBdf (d.mapGuestDmaCalls caps st) iommu bus devfn ↔ ⟨bus, devfn, iommu⟩ ∈ d.pciDevs := by
  simp only [MapsBdf, Domain.mapGuestDmaCalls, Domain.mapGuestDma, List.map_map, List.mem_append,
    List.mem_map, Function.comp, mem_enableRemapping]
  constructor
  · rintro ⟨c, ⟨p, hp, rfl⟩ | ⟨i, -, -, rfl⟩, hm⟩
    · obtain ⟨⟨rfl, rfl⟩, rfl⟩ : (p.iommu = iommu ∧ p.bus = bus) ∧ p.devfn = devfn := by
        simpa [DmaCall.maps] using hm
      exact hp
    · cases hm
  · exact fun h => ⟨_, .inl ⟨_, h, rfl⟩, by simp [DmaCall.maps]⟩

/-- **When `map_dma` runs to its end after `prepare_iommus`**: always on a guest, and on
the root exactly when an IOMMU of the set, or one behind a device of the root, has
catch-all scope. -/
theorem mapDma_prepared_isSome_iff :
    (d.mapDma caps t (d.prepareIommus caps st)).isSome ↔
      d.id ≠ 0 ∨ ∃ i, (i ∈ st.iommuSet.ids ∨ ∃ p ∈ d.pciDevs, p.iommu = i) ∧
        caps.hasCatchallScope i = true := by
  rw [mapDma_prepared]
  split_ifs with h0
  · simp only [mapRootDma_isSome_iff, mem_prepareIommus, h0, ne_eq, not_true_eq_false, false_or]
  · exact iff_of_true rfl (.inl h0)

/-- **DMA remapping is switched on once on every IOMMU the domain uses.**  After
`prepare_iommus`, a `map_dma` that runs to its end, on the root or on a guest, calls
`enable_dma_remapping` once on each IOMMU that was in the set or stands behind a device
of the domain and has remapping off, and never on another. -/
theorem mapDma_prepared_enables {calls : List DmaCall}
    (h : d.mapDma caps t (d.prepareIommus caps st) = some calls) (i : Nat) :
    calls.count (.enableDmaRemapping i) =
      if (i ∈ st.iommuSet.ids ∨ ∃ p ∈ d.pciDevs, p.iommu = i) ∧ caps.dmaRemappingEnabled i = false
      then 1 else 0 := by
  rw [mapDma_prepared] at h
  simp only [← mem_prepareIommus d caps st i]
  split_ifs at h
  · exact mapRootDma_enables h i
  · cases h
    have hA : .enableDmaRemapping i ∉ d.mapGuestDma.map fun m => DmaCall.mapBdf m.1 m.2.1 m.2.2 := by
      simp
    rw [Domain.mapGuestDmaCalls, List.count_append, List.count_eq_zero.mpr hA, Nat.zero_add,
      count_enableRemapping]

end Map

/-- A guest behind IOMMUs `1` and `2`, of which `2` has remapping on: `map_dma` switches
remapping on for `1` alone. -/
theorem mapDma_prepared_enables_two_iommus :
    { Domain.new 1 ⟨false, true⟩ with pciDevs := [⟨0, 8, 1⟩, ⟨0, 16, 2⟩] }.mapDma
        ⟨fun _ => true, fun _ => true, fun _ => false, fun i => i == 2⟩ ⟨0, 0, fun _ => false, []⟩
        ({ Domain.new 1 ⟨false, true⟩ with pciDevs := [⟨0, 8, 1⟩, ⟨0, 16, 2⟩] }.prepareIommus
          ⟨fun _ => true, fun _ => true, fun _ => false, fun i => i == 2⟩ ⟨.empty, true, true, 0, false⟩) =
      some [.mapBdf 1 0 8, .mapBdf 2 0 16, .enableDmaRemapping 1] ∧
    [DmaCall.mapBdf 1 0 8, .mapBdf 2 0 16, .enableDmaRemapping 1].count (.enableDmaRemapping 1) =
      if (1 ∈ IommuSet.empty.ids ∨ ∃ p ∈ [PciDev.mk 0 8 1, ⟨0, 16, 2⟩], p.iommu = 1) ∧
        (fun i => i == 2) 1 = false then 1 else 0 :=
  have h : { Domain.new 1 ⟨false, true⟩ with pciDevs := [⟨0, 8, 1⟩, ⟨0, 16, 2⟩] }.mapDma
        ⟨fun _ => true, fun _ => true, fun _ => false, fun i => i == 2⟩ ⟨0, 0, fun _ => false, []⟩
        ({ Domain.new 1 ⟨false, true⟩ with pciDevs := [⟨0, 8, 1⟩, ⟨0, 16, 2⟩] }.prepareIommus
          ⟨fun _ => true, fun _ => true, fun _ => false, fun i => i == 2⟩ ⟨.empty, true, true, 0, false⟩) =
      some [.mapBdf 1 0 8, .mapBdf 2 0 16, .enableDmaRemapping 1] := by decide
  ⟨h, mapDma_prepared_enables h 1⟩

/-- **A guest's DMA reaches exactly the pass-through devices it took.**  In every
reachable state, after `prepare_iommus`, `map_dma` on a live guest runs to its end, and
it maps a bus/device-function through an IOMMU exactly when the device there, behind
that IOMMU, is on `pci_passthru_list` and `setup_domU` handed the list to the guest. -/
theorem mapDma_guest_passthru {s : System} (hs : Reachable s) {g : Nat} {d : Domain}
    (hg : s.guests g = some d) (hid : d.id ≠ 0) (caps : IommuCaps) (t : PciTopology)
    (st : DmaState) :
    ∃ calls, d.mapDma caps t (d.prepareIommus caps st) = some calls ∧
      ∀ iommu bus devfn, MapsBdf calls iommu bus devfn ↔
        takesPassthru s d.sodInfo = true ∧ ⟨bus, devfn, iommu⟩ ∈ s.pciPassthruList := by
  refine ⟨_, by rw [mapDma_prepared, if_neg hid], fun iommu bus devfn => ?_⟩
  rw [mapsBdf_mapGuestDmaCalls, hs.devicesInv g d hg, passthroughDevs]
  split_ifs with ht
  · simp [ht]
  · simp [ht]

/-- Guest `1` of `twoPassthroughGuests` maps the device of the list, at `3:0` behind
IOMMU `1`. -/
theorem mapDma_guest_passthru_two_guests :
    Reachable twoPassthroughGuests ∧
    twoPassthroughGuests.guests 1 = some ((Domain.new 1 ⟨false, true⟩).setupDomU true [passthruDev]) ∧
    ((Domain.new 1 ⟨false, true⟩).setupDomU true [passthruDev]).id ≠ 0 ∧
    ∃ calls, ((Domain.new 1 ⟨false, true⟩).setupDomU true [passthruDev]).mapDma
        ⟨fun _ => true, fun _ => true, fun _ => false, fun _ => false⟩ ⟨0, 0, fun _ => false, []⟩
        (((Domain.new 1 ⟨false, true⟩).setupDomU true [passthruDev]).prepareIommus
          ⟨fun _ => true, fun _ => true, fun _ => false, fun _ => false⟩ ⟨.empty, true, true, 0, false⟩) =
        some calls ∧
      ∀ iommu bus devfn, MapsBdf calls iommu bus devfn ↔
        takesPassthru twoPassthroughGuests ((Domain.new 1 ⟨false, true⟩).setupDomU true
          [passthruDev]).sodInfo = true ∧ ⟨bus, devfn, iommu⟩ ∈ twoPassthroughGuests.pciPassthruList :=
  have hg : twoPassthroughGuests.guests 1 =
      some ((Domain.new 1 ⟨false, true⟩).setupDomU true [passthruDev]) := rfl
  have hid : ((Domain.new 1 ⟨false, true⟩).setupDomU true [passthruDev]).id ≠ 0 := by decide
  ⟨reachable_twoPassthroughGuests, hg, hid, mapDma_guest_passthru reachable_twoPassthroughGuests hg hid _ _ _⟩

/-! ### The I/O-TLB flushes -/

/-- Modelled from the spec: a flush `domain.cpp` asks of an IOMMU,
`flush_iotlb_domain(dom)` or `flush_iotlb_page_range(dom, gpa, size)`. -/
inductive FlushCall
  | domain (iommu : Nat)
  | pageRange (iommu : Nat) (gpa size : BitVec 64)
  deriving DecidableEq, Repr

def FlushCall.iommu : FlushCall → Nat
  | .domain i | .pageRange i _ _ => i

/-- Modelled from the spec: whether the flush drops what its IOMMU caches for the
guest-physical address: a domain flush drops everything, a page-range flush its range. -/
def FlushCall.covers : FlushCall → Nat → Bool
  | .domain _, _ => true
  | .pageRange _ gpa size, a => gpa.toNat ≤ a && a < gpa.toNat + size.toNat

def flushIotlb (s : IommuSet) : List FlushCall := s.ids.map .domain

/-- The loop of `flush_iotlb_page_4k` and `flush_iotlb_page_2m` for a page of `size`
bytes: a domain flush on each IOMMU without page-selective invalidation, a page-range
flush on the others. -/
def flushIotlbPage (psiSupported : Nat → Bool) (s : IommuSet) (pageGpa size : BitVec 64) :
    List FlushCall :=
  s.ids.map fun iommu =>
    if !psiSupported iommu then .domain iommu else .pageRange iommu pageGpa size

def flushIotlbPage4k (psiSupported : Nat → Bool) (s : IommuSet) (pageGpa : BitVec 64) :
    List FlushCall :=
  flushIotlbPage psiSupported s pageGpa uvPageSize

def flushIotlbPage2m (psiSupported : Nat → Bool) (s : IommuSet) (pageGpa : BitVec 64) :
    List FlushCall :=
  flushIotlbPage psiSupported s pageGpa (uvPageSize * 512)

section Flush

variable (psiSupported : Nat → Bool) (s : IommuSet) (pageGpa size : BitVec 64)

/-- Each IOMMU of the set is flushed once, and no other. -/
theorem countP_flushIotlbPage (i : Nat) :
    (flushIotlbPage psiSupported s pageGpa size).countP (·.iommu == i) = if i ∈ s.ids then 1 else 0 := by
  have hi : ∀ iommu, (if !psiSupported iommu then FlushCall.domain iommu
      else .pageRange iommu pageGpa size).iommu = iommu := fun iommu => by
    split <;> rfl
  rw [flushIotlbPage, List.countP_map]
  simp only [Function.comp_def, hi]
  split_ifs with hm
  · exact (List.count_eq_one_of_mem s.nodup hm).symm.trans (List.count_eq_countP _ _) |>.symm
  · exact List.countP_eq_zero.mpr fun j hj h => hm (by rwa [beq_iff_eq.mp h] at hj)

/-- Every flush covers every address of the page. -/
theorem covers_flushIotlbPage {c : FlushCall} (hc : c ∈ flushIotlbPage psiSupported s pageGpa size)
    {a : Nat} (ha : pageGpa.toNat ≤ a) (ha' : a < pageGpa.toNat + size.toNat) : c.covers a := by
  obtain ⟨iommu, -, rfl⟩ := List.mem_map.mp hc
  split
  · rfl
  · simp [FlushCall.covers, ha, ha']

end Flush

end MicroV

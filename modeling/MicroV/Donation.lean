import MicroV.Domain

/-!
# Donating and reclaiming root pages

The root lends a 4K page of its own memory to a guest with `donate_root_page` and
takes it back with `reclaim_root_page`, or takes back all the pages lent to a
borrower with `reclaim_root_pages`.  Each is translated as the code computes it, on
a `System`:

* `donateRootPage`: the `expects`, the `page_already_donated` test, the `try`
  block (`donateTry`) and the installation of the page in the guest
  (`installRootPage`).  The collaborators that can raise a `std::exception` are
  named in a `Raises` record; a raise happens before the collaborator has an effect;
* `donateInvepts`: whether a call runs `invept` to its end;
* `reclaimRootPage`;
* `shareRootPage`: a page the root keeps, mapped into a guest as well; it is outside
  the donation protocol, and no `Step` runs it;
* `reclaimRootPages`, whose nested loop is `mapRanges` over `mapPages`.  Each
  `for (gpa = start; gpa < limit; gpa += UV_PAGE_SIZE)` loop is given
  `pageLoopFuel` iterations, and `none` means it would run on.

`Step` is one call of these operations, or a guest domain created or destroyed, and
`Reachable` the states a run of steps reaches from `System.init`.
-/

namespace MicroV

/-- `domain::map_4k_rwe(gpa, hpa)`: `m_ept_map.map_4k(gpa, hpa, read_write_execute)`,
with `map_4k`'s default memory type, write-back (the type `reclaim_root_page`'s
comment says every donated page had). -/
def map4kRwe (e : Ept) (gpa hpa : BitVec 64) : Option Ept :=
  e.map4k gpa.toNat hpa.toNat readWriteExecute writeBack

/-- The collaborators of `donate_root_page` that raise a `std::exception` in one call:
`gpa_to_hpa`, `identity_map_convert_2m_to_4k`, `unmap`, `end_shootdown`, `invept`,
and the allocation inside `add_page_to_donated_range`. -/
structure Raises where
  gpaToHpa : Bool
  convert : Bool
  unmap : Bool
  endShootdown : Bool
  invept : Bool
  alloc : Bool
  deriving DecidableEq, Repr

def Raises.never : Raises := ⟨false, false, false, false, false, false⟩

/-! ### `donate_root_page` -/

/-- The root's EPT after `identity_map_convert_2m_to_4k(this->ept(), root_gpa_2m)`,
which runs when `gpa_to_hpa` reported a 2M page. -/
def convertedEpt (e : Ept) (rootGpa : BitVec 64) (shift : Nat) : Ept :=
  if shift = pdFrom then identityMapConvert2mTo4k e (Bfn.upper rootGpa pdFrom).toNat else e

/-- The `try` block of `donate_root_page` for the page `p = root_gpa_4k`: the status
it leaves with (`failure` from the `catch`, `again` from `begin_shootdown`, `success`
when it runs to its end) and the state then. -/
def donateTry (r : Raises) (s : System) (rootGpa p : BitVec 64) (g : Nat) : Status × System :=
  match (if r.gpaToHpa then none else s.root.ept.gpaToHpa p.toNat) with
  | none => (.failure, s)
  | some (hpa, shift) =>
    if hpa ≠ p.toNat then (.failure, s) else
    if s.shootdown.inFlight then (.again, s) else
    let s₁ := s.beginShootdown
    if shift = pdFrom ∧ r.convert then (.failure, s₁) else
    let s₂ := s₁.setRootEpt (convertedEpt s.root.ept rootGpa shift)
    if r.unmap then (.failure, s₂) else
    let s₃ := s₂.setRootEpt (s₂.root.ept.unmap p.toNat)
    if r.endShootdown then (.failure, s₃) else
    let s₄ := s₃.endShootdown
    if r.invept then (.failure, s₄) else
    if r.alloc ∧ addAllocates s.root.donated g p then (.failure, s₄) else
    (.success, s₄.setDonated (addPageToDonatedRange s.root.donated g p))

/-- The end of `donate_root_page`: `add_root_page` for a Xen guest, `map_4k` in the
guest's EPT otherwise; `raised` when `map_4k` raises.  The guest is the live domain
`g` of the registry (`none` stands for a `guest_dom` that is not live, which no
caller passes). -/
def installRootPage (s : System) (g guestGpa : Nat) (p : BitVec 64) (perm mtype : Nat) :
    Status × System :=
  match s.guests g with
  | none => (.raised, s)
  | some d =>
    if d.sodInfo.isXenDom then
      (.success, s.setGuest g
        { d with rootPages := Function.update d.rootPages guestGpa (some ⟨p.toNat, perm, mtype⟩) })
    else
      match d.ept.map4k guestGpa p.toNat perm mtype with
      | none => (.raised, s)
      | some e => (.success, s.setGuest g { d with ept := e })

/-- `domain::share_root_page(root, perm, mtype)` called on guest `g`, with `this_gpa` and
`root_gpa` read from the root vCPU's `rdx` and `rcx`: the host page `gpa_to_hpa` finds
for `root_gpa` in the root's EPT, which the root keeps, handed to the guest's Xen domain
or mapped 4K in the guest's EPT.  `none` when `gpa_to_hpa` or `map_4k` raises, or for a
guest that is not live. -/
def shareRootPage (s : System) (g thisGpa rootGpa perm mtype : Nat) : Option System :=
  match s.guests g, s.root.ept.gpaToHpa rootGpa with
  | some d, some (hpa, _) =>
    if d.sodInfo.isXenDom then
      some (s.setGuest g
        { d with rootPages := Function.update d.rootPages thisGpa (some ⟨hpa, perm, mtype⟩) })
    else (d.ept.map4k thisGpa hpa perm mtype).map fun e => s.setGuest g { d with ept := e }
  | _, _ => none

/-- `domain::donate_root_page(root, root_gpa, guest_dom, guest_gpa, perm, mtype)`, called
on the root for the guest `g`; `raised` is the failed `expects(this->id() == 0)`. -/
def donateRootPage (r : Raises) (s : System) (rootGpa : BitVec 64) (g guestGpa perm mtype : Nat) :
    Status × System :=
  if s.root.id ≠ 0 then (.raised, s) else
  let p := Bfn.upper rootGpa ptFrom
  let t := if pageAlreadyDonatedTo s.root.donated g p then (.success, s) else donateTry r s rootGpa p g
  if t.1 = .success then installRootPage t.2 g guestGpa p perm mtype else t

/-- Whether the `try` block for the page `p` runs `root->invept()` to its end:
`gpa_to_hpa` and its `expects`, `begin_shootdown`, the conversion, `unmap`,
`end_shootdown` and `invept` all pass. -/
def donateTryInvepts (r : Raises) (s : System) (p : BitVec 64) : Bool :=
  match (if r.gpaToHpa then none else s.root.ept.gpaToHpa p.toNat) with
  | none => false
  | some (hpa, shift) =>
    hpa == p.toNat && !s.shootdown.inFlight && !(shift == pdFrom && r.convert) && !r.unmap &&
      !r.endShootdown && !r.invept

def donateInvepts (r : Raises) (s : System) (rootGpa : BitVec 64) (g : Nat) : Bool :=
  s.root.id == 0 && !pageAlreadyDonatedTo s.root.donated g (Bfn.upper rootGpa ptFrom) &&
    donateTryInvepts r s (Bfn.upper rootGpa ptFrom)

/-! ### Reclaiming -/

/-- `domain::reclaim_root_page(guest_domid, root_gpa)`; `raised` when `map_4k_rwe`
raises. -/
def reclaimRootPage (s : System) (g : Nat) (rootGpa : BitVec 64) : Status × System :=
  if s.root.id ≠ 0 then (.failure, s) else
  if (s.guests g).isSome then (.failure, s) else
  let p := Bfn.upper rootGpa ptFrom
  if !pageAlreadyDonatedTo s.root.donated g p then (.failure, s) else
  let s' := s.setDonated (removePageFromDonatedRange s.root.donated g p)
  match map4kRwe s'.root.ept p p with
  | none => (.raised, s')
  | some e => (.success, s'.setRootEpt e)

/-- `for (auto gpa = start; gpa < limit; gpa += UV_PAGE_SIZE) this->map_4k_rwe(gpa, gpa);`
with `fuel` iterations: `some (.ok e)` when it ends, `some (.error e)` when `map_4k_rwe`
raises at EPT `e`, `none` when the fuel runs out. -/
def mapPages : Nat → BitVec 64 → BitVec 64 → Ept → Option (Except Ept Ept)
  | 0, _, _, _ => none
  | fuel + 1, gpa, limit, e =>
    if gpa < limit then
      match map4kRwe e gpa gpa with
      | none => some (.error e)
      | some e' => mapPages fuel (gpa + uvPageSize) limit e'
    else some (.ok e)

/-- `for (const auto &range : *itr->second.get())`, the outer loop of
`reclaim_root_pages`. -/
def mapRanges (fuel : Nat) : PageRangeSet → Ept → Option (Except Ept Ept)
  | [], e => some (.ok e)
  | r :: rs, e =>
    match mapPages fuel r.start r.limit e with
    | some (.ok e') => mapRanges fuel rs e'
    | res => res

/-- The iterations each inner loop is given: a range of 4K pages in a 64-bit space
has fewer than `2 ^ 52` of them. -/
def pageLoopFuel : Nat := 2 ^ 52

/-- `domain::reclaim_root_pages(guest_domid)`; `none` when a loop runs on. -/
def reclaimRootPages (s : System) (g : Nat) : Option (Status × System) :=
  if s.root.id ≠ 0 then some (.failure, s) else
  if (s.guests g).isSome then some (.failure, s) else
  match s.root.donated.lookup g with
  | none => some (.failure, s)
  | some set =>
    (mapRanges pageLoopFuel set s.root.ept).map fun
      | .ok e => (.success, (s.setRootEpt e).setDonated (s.root.donated.erase g))
      | .error e => (.raised, s.setRootEpt e)

/-! ### Runs -/

/-- One call of a donation operation by the root, or a guest created or destroyed. -/
inductive Step : System → System → Prop
  | donate {s : System} (r : Raises) (rootGpa : BitVec 64) {g : Nat} (guestGpa perm mtype : Nat)
      (hg : (s.guests g).isSome) : Step s (donateRootPage r s rootGpa g guestGpa perm mtype).2
  | reclaim {s : System} (g : Nat) (rootGpa : BitVec 64) : Step s (reclaimRootPage s g rootGpa).2
  | reclaimAll {s s' : System} {st : Status} (g : Nat) (h : reclaimRootPages s g = some (st, s')) :
      Step s s'
  | create {s : System} {g : Nat} (info : SodInfo) (h0 : g ≠ 0) (hg : s.guests g = none) :
      Step s (s.createDomain g info)
  | destroy {s : System} (g : Nat) : Step s (s.destroyDomain g)

/-- The states reached from setup by a run of steps.  `MAX_PHYS_ADDR` is at most
`2 ^ 52`, the largest physical address width of x86-64. -/
inductive Reachable : System → Prop
  | init {maxPhysAddr : Nat} (hmax : maxPhysAddr ≤ 2 ^ 52) (pciPassthru : Bool)
      (pciPassthruList : List PciDev) (info : SodInfo) :
      Reachable (System.init maxPhysAddr pciPassthru pciPassthruList info)
  | step {s s' : System} : Reachable s → Step s s' → Reachable s'

end MicroV

import MicroV.Donation.Race
import MicroV.Donation.Invariant

/-!
# Root vCPUs donating different pages at once

`donate_root_page` takes the tracker's lock only inside `page_already_donated` and
`add_page_to_donated_range`: between the two a vCPU relies on no other vCPU touching
its page.  When the root vCPUs donate pairwise different pages nothing more is needed,
even with reclaims of other pages and guests created and destroyed in between
(`RaceRun`).  In every such run the donation invariant holds, and a call that returned
`SUCCESS` has its page recorded for its borrower.

What the next step of a vCPU needs of the root is read off its program point
(`PcInv`).  Past `gpa_to_hpa` its page is recorded for no one (`Free`), and the walk for
it ends at a 4K leaf or at the 2M leaf `gpa_to_hpa` found (`WalkReady`).  Past the split
the walk ends at a 4K leaf; past `unmap` the root translates no address of the page
(`Unmapped`); before the installation the page is recorded for the borrower.

* `donateStep_inv`: the step of a vCPU keeps the invariant and gives what its next
  program point needs;
* `donateStep_cases`: what a step can do to the root and the guests;
* `PcInv.other`, `PcInv.reclaim`: a step of another vCPU, or a reclaim, on another page
  keeps what a vCPU needs; both go through `PcInv.frame`;
* **`race_distinct_pages`**: the invariant over every run;
* **`race_touches_own_pages`**: the calls change nothing but their own pages and
  borrowers (`Touches`).
-/

namespace MicroV

open Ept PageRangeSet

/-- The page is below `2 ^ 52` and recorded for no one. -/
def Free (d : Domain) (p : BitVec 64) : Prop :=
  p.toNat < 2 ^ 52 ∧ ∀ g, ¬ Recorded d.donated g p.toNat

/-- The walk for `q` ends at a 4K leaf, or at a 2M leaf when `gpa_to_hpa` reported a
2M page. -/
def WalkReady (e : Ept) (q shift : Nat) : Prop :=
  ∃ l, e.walk q = some (ptFrom, l) ∨ (shift = pdFrom ∧ e.walk q = some (pdFrom, l))

/-- The root translates no address of the page. -/
def Unmapped (e : Ept) (p : BitVec 64) : Prop := ∀ a, InPage p a → e.translate a = none

/-- What the root must satisfy for the next step of a vCPU of call `c` at `pc`. -/
def PcInv (c : DonateCall) : Pc → Domain → Prop
  | .begin shift, d | .convert shift, d => Free d c.page ∧ WalkReady d.ept c.page.toNat shift
  | .unmap, d => Free d c.page ∧ ∃ l, d.ept.walk c.page.toNat = some (ptFrom, l)
  | .endShootdown, d | .add, d => Free d c.page ∧ Unmapped d.ept c.page
  | .install, d => Recorded d.donated c.g c.page.toNat
  | .done st, d => st = .success → Recorded d.donated c.g c.page.toNat
  | _, _ => True

/-- Every walk for `q` ends in `e'` where it ended in `e`, or at a 4K leaf. -/
def WalkKept (e e' : Ept) (q : Nat) : Prop :=
  ∀ s l, e.walk q = some (s, l) → e'.walk q = some (s, l) ∨ ∃ l', e'.walk q = some (ptFrom, l')

theorem WalkKept.of_eq {e e' : Ept} {q : Nat} (h : e'.walk q = e.walk q) : WalkKept e e' q :=
  fun _ _ hw => .inl (h.trans hw)

theorem walkKept_convertedEpt (e : Ept) (rootGpa : BitVec 64) (shift q : Nat) :
    WalkKept e (convertedEpt e rootGpa shift) q := fun _ _ hw => by
  unfold convertedEpt identityMapConvert2mTo4k
  split_ifs
  exacts [walk_demote2m hw _, .inl hw]

section Frame

variable {c : DonateCall} {pc : Pc} {d d' : Domain}

/-- **What a vCPU needs reads only its own page**: whether the page is free, the walk
for it, its translations, and whether it is recorded for the borrower. -/
theorem PcInv.frame (hi : PcInv c pc d) (hf : Free d c.page → Free d' c.page)
    (hw : WalkKept d.ept d'.ept c.page.toNat)
    (hu : Unmapped d.ept c.page → Unmapped d'.ept c.page)
    (hr : Recorded d.donated c.g c.page.toNat → Recorded d'.donated c.g c.page.toNat) :
    PcInv c pc d' := by
  have hready : ∀ shift, WalkReady d.ept c.page.toNat shift → WalkReady d'.ept c.page.toNat shift := by
    rintro shift ⟨l, hl | ⟨rfl, hl⟩⟩
    · rcases hw _ _ hl with hl' | ⟨l', hl'⟩
      exacts [⟨l, .inl hl'⟩, ⟨l', .inl hl'⟩]
    · rcases hw _ _ hl with hl' | ⟨l', hl'⟩
      exacts [⟨l, .inr ⟨rfl, hl'⟩⟩, ⟨l', .inl hl'⟩]
  cases pc with
  | begin shift | convert shift => exact ⟨hf hi.1, hready _ hi.2⟩
  | unmap =>
    obtain ⟨hfree, l, hl⟩ := hi
    exact ⟨hf hfree, (hw _ _ hl).elim (⟨l, ·⟩) id⟩
  | endShootdown | add => exact ⟨hf hi.1, hu hi.2⟩
  | install => exact hr hi
  | done st => exact fun hs => hr (hi hs)
  | check | translate => trivial

end Frame

section Self

variable {c : DonateCall} {pc : Pc} {s : System}

/-- A page that `gpa_to_hpa` finds is free, and its walk is ready for the split. -/
theorem Inv.ready (h : Inv s) {p : BitVec 64} {hpa shift : Nat}
    (hg : s.root.ept.gpaToHpa p.toNat = some (hpa, shift)) :
    Free s.root p ∧ WalkReady s.root.ept p.toNat shift := by
  obtain ⟨m, hm, -⟩ := translate_of_gpaToHpa hg
  obtain ⟨l, hw, -, -⟩ := gpaToHpa_eq_some.mp hg
  refine ⟨⟨(h.identity _ _ hm).1, h.not_recorded_of_translate hm⟩, l, ?_⟩
  rcases Entry.walk_eq_some.mp hw with ⟨-, rfl⟩ | ⟨-, -, rfl⟩ | ⟨-, -, -, rfl⟩
  · exact absurd rfl (h.shift_ne hg)
  · exact .inr ⟨rfl, hw⟩
  · exact .inl hw

theorem inPage_iff_div {p : BitVec 64} (hal : p.toNat % 4096 = 0) {a : Nat} :
    InPage p a ↔ a / 2 ^ ptFrom = p.toNat / 2 ^ ptFrom := by
  simp only [InPage, ptFrom]
  omega

/-- Two aligned pages that hold one address are one page. -/
theorem inPage_eq {p q : BitVec 64} {a : Nat} (hp : p.toNat % 4096 = 0) (hq : q.toNat % 4096 = 0)
    (ha : InPage p a) (hb : InPage q a) : p = q := by
  simp only [InPage] at ha hb
  exact BitVec.eq_of_toNat_eq (by omega)

theorem inPage_page (c : DonateCall) : InPage c.page c.page.toNat := ⟨le_refl _, by omega⟩

/-- The installation of the call's page in its guest. -/
def DonateCall.install (c : DonateCall) (s : System) : Status × System :=
  installRootPage s c.g c.guestGpa c.page c.perm c.mtype

/-- **The step of a vCPU keeps the invariant** and gives what its next program point
needs of the root. -/
theorem donateStep_inv (h : Inv s) (hp : PcInv c pc s.root) :
    Inv (donateStep c pc s).2 ∧ PcInv c (donateStep c pc s).1 (donateStep c pc s).2.root := by
  have hal : c.page.toNat % 4096 = 0 := upper_ptFrom_aligned c.rootGpa
  cases pc with
  | check =>
    simp only [donateStep]
    split_ifs with h0 hd
    · exact ⟨h, fun hs => by cases hs⟩
    · exact ⟨h, (pageAlreadyDonatedTo_iff h.wf).mp hd⟩
    · exact ⟨h, trivial⟩
  | translate =>
    simp only [donateStep]
    split
    · exact ⟨h, nofun⟩
    · next hpa shift hg =>
      have hg : s.root.ept.gpaToHpa c.page.toNat = some (hpa, shift) := by split_ifs at hg; exact hg
      split_ifs
      · exact ⟨h, nofun⟩
      · exact ⟨h, h.ready hg⟩
  | begin shift =>
    simp only [donateStep]
    split_ifs
    · exact ⟨h, fun hs => by cases hs⟩
    · exact ⟨h.congr rfl rfl, hp⟩
  | convert shift =>
    simp only [donateStep]
    split_ifs
    · exact ⟨h, nofun⟩
    obtain ⟨hfree, l, hw | ⟨rfl, hw⟩⟩ := hp
    all_goals refine ⟨h.setRootEpt (fun a m hm => by rwa [translate_convertedEpt] at hm)
      (by rw [convertedEpt_pdpt]; exact h.no1g), hfree, ?_⟩
    · exact (walkKept_convertedEpt _ _ _ _ _ _ hw).elim (⟨l, ·⟩) id
    · exact walk_convertedEpt hw (by decide)
  | unmap =>
    simp only [donateStep]
    split_ifs
    · exact ⟨h, nofun⟩
    obtain ⟨hfree, l, hw⟩ := hp
    refine ⟨h.setRootEpt (fun a m hm => ?_) (by rw [unmap_pdpt_of_walk hw]; exact h.no1g), hfree,
      fun a ha => ?_⟩
    · rw [translate_unmap hw] at hm
      split_ifs at hm
      exact hm
    · show (s.root.ept.unmap c.page.toNat).translate a = none
      rw [translate_unmap hw, if_pos ((inPage_iff_div hal).mp ha)]
  | endShootdown =>
    simp only [donateStep]
    split_ifs
    · exact ⟨h, nofun⟩
    · exact ⟨h.congr rfl rfl, nofun⟩
    · exact ⟨h.congr rfl rfl, hp⟩
  | add =>
    simp only [donateStep]
    split_ifs
    · exact ⟨h, nofun⟩
    obtain ⟨⟨hlt, hfree⟩, hun⟩ := hp
    refine ⟨h.add hal hlt hfree hun, ?_⟩
    exact ((addPageToDonatedRange_spec h.wf hal (by omega) (hfree c.g)).2 _ _).mpr
      (.inr ⟨rfl, le_refl _, by omega⟩)
  | install =>
    obtain ⟨hroot, -⟩ := installRootPage_guests s c.g c.guestGpa c.perm c.mtype hal
    exact ⟨h.install hal hp, fun _ => by simp only [donateStep, hroot]; exact hp⟩
  | done st => exact ⟨h, hp⟩

end Self

theorem installRootPage_guests_ne (s : System) {g g' : Nat} (guestGpa : Nat) (p : BitVec 64)
    (perm mtype : Nat) (hg : g' ≠ g) :
    (installRootPage s g guestGpa p perm mtype).2.guests g' = s.guests g' := by
  unfold installRootPage
  split
  · rfl
  · split_ifs
    · exact Function.update_noteq hg _ _
    · split
      · rfl
      · exact Function.update_noteq hg _ _

/-- **What a step can do**: to the guests, nothing but to the borrower; to the root,
nothing, or split the 2M entry of the call's page, unmap the page, or record the page
for the borrower. -/
theorem donateStep_cases (c : DonateCall) (pc : Pc) (s : System) :
    (∀ g, g ≠ c.g → (donateStep c pc s).2.guests g = s.guests g) ∧
    ((donateStep c pc s).2.root = s.root ∨
    (∃ shift, pc = .convert shift ∧
      (donateStep c pc s).2.root = { s.root with ept := convertedEpt s.root.ept c.rootGpa shift }) ∨
    (pc = .unmap ∧ (donateStep c pc s).2.root = { s.root with ept := s.root.ept.unmap c.page.toNat }) ∨
    (pc = .add ∧ (donateStep c pc s).2.root =
      { s.root with donated := addPageToDonatedRange s.root.donated c.g c.page })) := by
  cases pc with
  | check => simp only [donateStep]; split_ifs <;> exact ⟨fun _ _ => rfl, .inl rfl⟩
  | translate =>
    simp only [donateStep]
    split
    · exact ⟨fun _ _ => rfl, .inl rfl⟩
    · split_ifs <;> exact ⟨fun _ _ => rfl, .inl rfl⟩
  | begin shift => simp only [donateStep]; split_ifs <;> exact ⟨fun _ _ => rfl, .inl rfl⟩
  | convert shift =>
    simp only [donateStep]
    split_ifs
    · exact ⟨fun _ _ => rfl, .inl rfl⟩
    · exact ⟨fun _ _ => rfl, .inr (.inl ⟨shift, rfl, rfl⟩)⟩
  | unmap =>
    simp only [donateStep]
    split_ifs
    · exact ⟨fun _ _ => rfl, .inl rfl⟩
    · exact ⟨fun _ _ => rfl, .inr (.inr (.inl ⟨trivial, rfl⟩))⟩
  | endShootdown => simp only [donateStep]; split_ifs <;> exact ⟨fun _ _ => rfl, .inl rfl⟩
  | done _ => exact ⟨fun _ _ => rfl, .inl rfl⟩
  | add =>
    simp only [donateStep]
    split_ifs
    · exact ⟨fun _ _ => rfl, .inl rfl⟩
    · exact ⟨fun _ _ => rfl, .inr (.inr (.inr ⟨trivial, rfl⟩))⟩
  | install =>
    exact ⟨fun _ hg => installRootPage_guests_ne s _ _ _ _ hg,
      .inl (installRootPage_guests s c.g c.guestGpa c.perm c.mtype (upper_ptFrom_aligned _)).1⟩

/-- **A step of another vCPU on another page keeps what a vCPU needs.** -/
theorem PcInv.other {ci cj : DonateCall} {pci pcj : Pc} {s : System} (hi : PcInv ci pci s.root)
    (h : Inv s) (hj : PcInv cj pcj s.root) (hne : ci.page ≠ cj.page) :
    PcInv ci pci (donateStep cj pcj s).2.root := by
  have hali : ci.page.toNat % 4096 = 0 := upper_ptFrom_aligned ci.rootGpa
  have halj : cj.page.toNat % 4096 = 0 := upper_ptFrom_aligned cj.rootGpa
  have hdiv : ci.page.toNat / 4096 ≠ cj.page.toNat / 4096 := fun hd =>
    hne (BitVec.eq_of_toNat_eq (by omega))
  have hpage : ∀ a, InPage ci.page a → a / 2 ^ ptFrom ≠ cj.page.toNat / 2 ^ ptFrom := fun a ha => by
    rw [(inPage_iff_div hali).mp ha]; simpa only [ptFrom] using hdiv
  rcases (donateStep_cases cj pcj s).2 with hr | ⟨shift, rfl, hr⟩ | ⟨rfl, hr⟩ | ⟨rfl, hr⟩ <;> rw [hr]
  · exact hi
  · -- the other vCPU splits the 2M entry of its page
    refine hi.frame id (walkKept_convertedEpt _ _ _ _) (fun hu a ha => ?_) id
    rw [translate_convertedEpt]
    exact hu a ha
  · -- the other vCPU unmaps its page
    obtain ⟨-, l, hw⟩ := hj
    refine hi.frame id (.of_eq (walk_unmap_of_ne hw ?_)) (fun hu a ha => ?_) id
    · exact hpage _ ⟨le_refl _, by omega⟩
    · rw [translate_unmap hw, if_neg (hpage a ha)]
      exact hu a ha
  · -- the other vCPU records its page
    obtain ⟨⟨hlt, hfree⟩, -⟩ := hj
    have hrec := (addPageToDonatedRange_spec h.wf halj (by omega) (hfree cj.g)).2
    refine hi.frame (fun ⟨hlt', hf⟩ => ⟨hlt', fun g hg => ?_⟩) (.of_eq rfl) id
      (fun hr => (hrec _ _).mpr (.inl hr))
    rcases (hrec _ _).mp hg with hg | ⟨-, ha⟩
    · exact hf g hg
    · simp only [InPage] at ha
      omega

/-- The donation invariant, and what the next step of each vCPU needs of the root. -/
structure RaceInv {n : Nat} (calls : Fin n → DonateCall) (r : Race n) : Prop where
  inv : Inv r.sys
  pc : ∀ i, PcInv (calls i) (r.pc i) r.sys.root

section Run

variable {n : Nat} {calls : Fin n → DonateCall} {r : Race n}

theorem RaceInv.start {s : System} (h : Inv s) : RaceInv calls (Race.start s) :=
  ⟨h, fun _ => trivial⟩

theorem RaceInv.step (hd : ∀ i j, i ≠ j → (calls i).page ≠ (calls j).page) (h : RaceInv calls r)
    (i : Fin n) : RaceInv calls (r.step calls i) := by
  obtain ⟨hinv, hself⟩ := donateStep_inv h.inv (h.pc i)
  refine ⟨hinv, fun j => ?_⟩
  by_cases hj : j = i
  · subst hj
    rw [Race.step_pc_self]
    exact hself
  · rw [r.step_pc_of_ne calls hj]
    exact (h.pc j).other h.inv (h.pc i) (hd j i hj)

end Run

/-! ### Beside the rest of the system -/

/-- What may run beside the donations: a `reclaim_root_page` of a page none of the calls
donates, or a guest created or destroyed. -/
inductive EnvStep {n : Nat} (calls : Fin n → DonateCall) : System → System → Prop
  | reclaim {s : System} (g : Nat) (rootGpa : BitVec 64)
      (hp : ∀ i, (calls i).page ≠ Bfn.upper rootGpa ptFrom) :
      EnvStep calls s (reclaimRootPage s g rootGpa).2
  | create {s : System} {g : Nat} (info : SodInfo) (h0 : g ≠ 0) (hg : s.guests g = none) :
      EnvStep calls s (s.createDomain g info)
  | destroy {s : System} (g : Nat) : EnvStep calls s (s.destroyDomain g)

/-- The runs from `r` to `r'`: steps of the calls in any order, interleaved with steps of
the rest of the system. -/
inductive RaceRun {n : Nat} (calls : Fin n → DonateCall) : Race n → Race n → Prop
  | refl (r : Race n) : RaceRun calls r r
  | vcpu {r r' : Race n} (i : Fin n) : RaceRun calls (r.step calls i) r' → RaceRun calls r r'
  | env {r r' : Race n} {s : System} : EnvStep calls r.sys s → RaceRun calls ⟨s, r.pc⟩ r' →
      RaceRun calls r r'

/-- A schedule of the calls alone is a run. -/
theorem RaceRun.of_run {n : Nat} {calls : Fin n → DonateCall} (r : Race n) (sched : List (Fin n)) :
    RaceRun calls r (r.run calls sched) := by
  induction sched generalizing r with
  | nil => exact .refl r
  | cons i sched ih => exact .vcpu i (ih _)

theorem walkKept_map4k {e e' : Ept} {q hpa attr mtype a : Nat}
    (hm : e.map4k q hpa attr mtype = some e') (hno : ∀ i l, e.pdpt i ≠ .leaf l)
    (hq : a / 2 ^ 12 ≠ q / 2 ^ 12) : WalkKept e e' a :=
  fun _ _ hw => walk_map4k_of_ne hm hno hw hq

/-- Forgetting a page of another borrower, or another page, keeps what a vCPU needs. -/
theorem PcInv.removeOther {c : DonateCall} {pc : Pc} {d : Domain} (hi : PcInv c pc d)
    (hwf : TrackerWf d.donated) {g : Nat} {q : BitVec 64} (hq : q.toNat % 4096 = 0)
    (hne : c.g ≠ g ∨ c.page ≠ q) :
    PcInv c pc { d with donated := removePageFromDonatedRange d.donated g q } := by
  have hal : c.page.toNat % 4096 = 0 := upper_ptFrom_aligned c.rootGpa
  obtain ⟨-, hrec⟩ := removePageFromDonatedRange_spec hwf hq (g := g)
  refine hi.frame (fun ⟨hlt, hf⟩ => ⟨hlt, fun g' hr => hf g' ((hrec _ _).mp hr).1⟩) (.of_eq rfl) id
    (fun hr => (hrec _ _).mpr ⟨hr, fun ⟨hg, ha⟩ => hne.elim (· hg) fun hp => hp ?_⟩)
  simp only [InPage] at ha
  exact BitVec.eq_of_toNat_eq (by omega)

/-- Mapping another page back in the root keeps what a vCPU needs. -/
theorem PcInv.mapOther {c : DonateCall} {pc : Pc} {d : Domain} (hi : PcInv c pc d)
    (hno : ∀ i l, d.ept.pdpt i ≠ .leaf l) {q : BitVec 64} {e : Ept} (hq : q.toNat % 4096 = 0)
    (hne : c.page ≠ q) (hm : map4kRwe d.ept q q = some e) : PcInv c pc { d with ept := e } := by
  have hal : c.page.toNat % 4096 = 0 := upper_ptFrom_aligned c.rootGpa
  have hdiv : c.page.toNat / 4096 ≠ q.toNat / 4096 := fun hd => hne (BitVec.eq_of_toNat_eq (by omega))
  refine hi.frame id (walkKept_map4k hm hno (by omega)) (fun hu a ha => ?_) id
  have : a / 2 ^ 12 ≠ q.toNat / 2 ^ 12 := by simp only [InPage] at ha; omega
  rw [map4kRwe] at hm
  show e.translate a = none
  rw [translate_map4k hm, if_neg this]
  exact hu a ha

/-- **A `reclaim_root_page` of another page keeps what a vCPU needs**: the tracker
forgets the other page, and the root maps it back. -/
theorem PcInv.reclaim {c : DonateCall} {pc : Pc} {s : System} (hi : PcInv c pc s.root) (h : Inv s)
    {g : Nat} {rootGpa : BitVec 64} (hne : c.page ≠ Bfn.upper rootGpa ptFrom) :
    PcInv c pc (reclaimRootPage s g rootGpa).2.root := by
  have halq := upper_ptFrom_aligned rootGpa
  rcases reclaimRootPage_eq s g rootGpa with heq | ⟨-, -, -, hres⟩
  · rw [heq]; exact hi
  have hd := hi.removeOther h.wf halq (g := g) (.inr hne)
  rcases hres with ⟨e, hm, heq⟩ | ⟨-, heq⟩ <;> rw [heq]
  · exact hd.mapOther h.no1g halq hne hm
  · exact hd

section Run

variable {n : Nat} {calls : Fin n → DonateCall} {r r' : Race n}

theorem RaceInv.env (h : RaceInv calls r) {s : System} (he : EnvStep calls r.sys s) :
    RaceInv calls ⟨s, r.pc⟩ := by
  cases he with
  | reclaim g rootGpa hp => exact ⟨h.inv.reclaim g rootGpa, fun i => (h.pc i).reclaim h.inv (hp i)⟩
  | create info => exact ⟨h.inv.create _ info, h.pc⟩
  | destroy g => exact ⟨h.inv.destroy g, h.pc⟩

theorem RaceRun.inv (hd : ∀ i j, i ≠ j → (calls i).page ≠ (calls j).page)
    (hr : RaceRun calls r r') : RaceInv calls r → RaceInv calls r' := by
  induction hr with
  | refl => exact id
  | vcpu i _ ih => exact fun h => ih (h.step hd i)
  | env he _ ih => exact fun h => ih (h.env he)

end Run

/-- **Donations of different pages race safely.**  From a reachable system, in every
interleaving of `donate_root_page` calls on root vCPUs that donate pairwise different
pages, with reclaims of other pages and guests created and destroyed in between, the
donation invariant holds: no page is recorded for two borrowers, a recorded page is
unmapped from the root, and whatever a guest maps leads into a page recorded for it.  A
call that has returned `SUCCESS` has its page recorded for its borrower. -/
theorem race_distinct_pages {n : Nat} {s : System} (hs : Reachable s) (calls : Fin n → DonateCall)
    (hd : ∀ i j, i ≠ j → (calls i).page ≠ (calls j).page) {r : Race n}
    (hr : RaceRun calls (Race.start s) r) :
    Inv r.sys ∧
    ∀ i, r.pc i = .done .success → Recorded r.sys.root.donated (calls i).g (calls i).page.toNat := by
  have h := hr.inv hd (RaceInv.start hs.inv)
  refine ⟨h.inv, fun i hi => ?_⟩
  have hpc := h.pc i
  rw [hi] at hpc
  exact hpc rfl

/-- vCPU `0` donates page `0x1000` to guest `1` at `0x5000`, vCPU `1` page `0x2000` to
guest `2` at `0x7000`. -/
def twoPageCalls : Fin 2 → DonateCall
  | 0 => ⟨0x1000, 1, 0x5000, readWriteExecute, writeBack, Raises.never⟩
  | 1 => ⟨0x2000, 2, 0x7000, readWriteExecute, writeBack, Raises.never⟩

theorem race_distinct_pages_two_guests :
    Reachable twoGuests ∧ (∀ i j, i ≠ j → (twoPageCalls i).page ≠ (twoPageCalls j).page) ∧
    RaceRun twoPageCalls (Race.start twoGuests)
      ((Race.start twoGuests).run twoPageCalls [0, 1, 0, 1, 0, 1, 0, 1]) ∧
    Inv ((Race.start twoGuests).run twoPageCalls [0, 1, 0, 1, 0, 1, 0, 1]).sys :=
  have hs : Reachable twoGuests := .step reachable_oneGuest (.create ⟨false, false⟩ (by decide) rfl)
  have hd : ∀ i j, i ≠ j → (twoPageCalls i).page ≠ (twoPageCalls j).page := by decide
  have hr : RaceRun twoPageCalls (Race.start twoGuests)
      ((Race.start twoGuests).run twoPageCalls [0, 1, 0, 1, 0, 1, 0, 1]) := .of_run _ _
  ⟨hs, hd, hr, (race_distinct_pages hs twoPageCalls hd hr).1⟩

/-! ### What the calls touch -/

/-- What the calls may have changed from `s` to `t`: a translation of the root only by
removing it from a call's page, the tracker only by recording a call's page for the
call's borrower, and among the guests only the calls' borrowers. -/
structure Touches {n : Nat} (calls : Fin n → DonateCall) (s t : System) : Prop where
  translate : ∀ a, t.root.ept.translate a = s.root.ept.translate a ∨
    (t.root.ept.translate a = none ∧ ∃ i, InPage (calls i).page a)
  keeps : ∀ g a, Recorded s.root.donated g a → Recorded t.root.donated g a
  records : ∀ g a, Recorded t.root.donated g a →
    Recorded s.root.donated g a ∨ ∃ i, (calls i).g = g ∧ InPage (calls i).page a
  guests : ∀ g, (∀ i, (calls i).g ≠ g) → t.guests g = s.guests g

section Touches

variable {n : Nat} {calls : Fin n → DonateCall} {s t t' : System}

theorem Touches.refl (s : System) : Touches calls s s :=
  ⟨fun _ => .inl rfl, fun _ _ => id, fun _ _ => .inl, fun _ _ => rfl⟩

/-- A change from `t` to `t'` of the kind `Touches` allows adds to what `s` to `t` did. -/
theorem Touches.of_step (ht : Touches calls s t)
    (htr : ∀ a, t'.root.ept.translate a = t.root.ept.translate a ∨
      (t'.root.ept.translate a = none ∧ ∃ i, InPage (calls i).page a))
    (hkeep : ∀ g a, Recorded t.root.donated g a → Recorded t'.root.donated g a)
    (hrec : ∀ g a, Recorded t'.root.donated g a →
      Recorded t.root.donated g a ∨ ∃ i, (calls i).g = g ∧ InPage (calls i).page a)
    (hg : ∀ g, (∀ i, (calls i).g ≠ g) → t'.guests g = t.guests g) : Touches calls s t' where
  translate a := (htr a).elim (fun h => by rw [h]; exact ht.translate a) .inr
  keeps g a hs := hkeep g a (ht.keeps g a hs)
  records g a hr := (hrec g a hr).elim (ht.records g a) .inr
  guests g hn := (hg g hn).trans (ht.guests g hn)

/-- A step of a call touches only the call's page and borrower. -/
theorem Touches.step (ht : Touches calls s t) (h : Inv t) {j : Fin n} {pc : Pc}
    (hp : PcInv (calls j) pc t.root) : Touches calls s (donateStep (calls j) pc t).2 := by
  have hal : (calls j).page.toNat % 4096 = 0 := upper_ptFrom_aligned (calls j).rootGpa
  obtain ⟨hg, hroot⟩ := donateStep_cases (calls j) pc t
  have hguests : ∀ g, (∀ i, (calls i).g ≠ g) →
      (donateStep (calls j) pc t).2.guests g = t.guests g := fun g hn => hg g (Ne.symm (hn j))
  rcases hroot with hr | ⟨shift, rfl, hr⟩ | ⟨rfl, hr⟩ | ⟨rfl, hr⟩
  · exact ht.of_step (fun _ => .inl (by rw [hr])) (fun _ _ h => by rw [hr]; exact h)
      (fun _ _ h => .inl (by rw [hr] at h; exact h)) hguests
  · exact ht.of_step (fun a => .inl (by rw [hr]; exact translate_convertedEpt _ _ _ a))
      (fun _ _ h => by rw [hr]; exact h) (fun _ _ h => .inl (by rw [hr] at h; exact h)) hguests
  · -- the call unmaps its page
    obtain ⟨-, l, hw⟩ := hp
    refine ht.of_step (fun a => ?_) (fun _ _ h => by rw [hr]; exact h)
      (fun _ _ h => .inl (by rw [hr] at h; exact h)) hguests
    rw [hr]
    show (t.root.ept.unmap (calls j).page.toNat).translate a = _ ∨ _
    rw [translate_unmap hw]
    split_ifs with ha
    · exact .inr ⟨rfl, j, (inPage_iff_div hal).mpr ha⟩
    · exact .inl rfl
  · -- the call records its page
    obtain ⟨⟨hlt, hfree⟩, -⟩ := hp
    have hrec := (addPageToDonatedRange_spec h.wf hal (by omega) (hfree (calls j).g)).2
    refine ht.of_step (fun _ => .inl (by rw [hr])) (fun g a hr' => ?_) (fun g a hr' => ?_) hguests
    · rw [hr]
      exact (hrec g a).mpr (.inl hr')
    · rw [hr] at hr'
      exact ((hrec g a).mp hr').imp id fun ⟨hgj, ha⟩ => ⟨j, hgj.symm, ha⟩

theorem touches_run (hd : ∀ i j, i ≠ j → (calls i).page ≠ (calls j).page) {r : Race n}
    (h : RaceInv calls r) (ht : Touches calls s r.sys) (sched : List (Fin n)) :
    Touches calls s (r.run calls sched).sys := by
  induction sched generalizing r with
  | nil => exact ht
  | cons i sched ih => exact ih (h.step hd i) (ht.step h.inv (h.pc i))

end Touches

/-- **Donations touch only their own pages and borrowers.**  From a reachable system, in
every interleaving of `donate_root_page` calls on root vCPUs that donate pairwise
different pages: a translation of the root changes only by disappearing from a call's
page; no page stops being recorded, and a page becomes recorded only for the borrower of
a call that donates it; a guest that is no call's borrower is left as it was. -/
theorem race_touches_own_pages {n : Nat} {s : System} (hs : Reachable s)
    (calls : Fin n → DonateCall) (hd : ∀ i j, i ≠ j → (calls i).page ≠ (calls j).page)
    (sched : List (Fin n)) : Touches calls s ((Race.start s).run calls sched).sys :=
  touches_run hd (RaceInv.start hs.inv) (.refl s) sched

theorem race_touches_own_pages_two_guests :
    Reachable twoGuests ∧ (∀ i j, i ≠ j → (twoPageCalls i).page ≠ (twoPageCalls j).page) ∧
    Touches twoPageCalls twoGuests
      ((Race.start twoGuests).run twoPageCalls [0, 1, 0, 1, 0, 1, 0, 1]).sys :=
  have hs : Reachable twoGuests := .step reachable_oneGuest (.create ⟨false, false⟩ (by decide) rfl)
  have hd : ∀ i j, i ≠ j → (twoPageCalls i).page ≠ (twoPageCalls j).page := by decide
  ⟨hs, hd, race_touches_own_pages hs twoPageCalls hd _⟩

end MicroV

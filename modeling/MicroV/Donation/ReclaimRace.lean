import MicroV.Donation.DistinctPages
import MicroV.Donation.Caches

/-!
# Reclaims racing with donations

`reclaim_root_page` takes the tracker's lock in `page_already_donated` and again in
`remove_page_from_donated_range`, and maps the page back in the root after both.  Here
each of these is one atomic step of a root vCPU (`reclaimStep`, at the program point
`RPc`), and root vCPUs in `donate_root_page` and in `reclaim_root_page` run in any
interleaving of their steps (`Mixed.run`).

A donation and a reclaim of one page need nothing more.  A reclaim past its check has
its page unmapped from the root until it maps it back, so a donation of that page that
has not passed `gpa_to_hpa` yet fails there, and one that has cannot be between
`gpa_to_hpa` and `add_page_to_donated_range` (`MixedInv.window`): its page would be
free and recorded at once.  Two reclaims of one page do need more: both pass their
check, the first maps the page back, a donation lends it to a live guest, and the
second maps it in the root again.

* `runReclaim_eq_reclaimRootPage`: alone, a vCPU computes `reclaimRootPage`;
* `reclaimStep_inv`: the step of a vCPU keeps the invariant and gives what its next
  program point needs;
* `RPcInv.donate`, `RPcInv.other`, `PcInv.reclaimStep`: a step of another vCPU keeps
  what a vCPU needs;
* **`reclaim_race_inv`**: the invariant over every interleaving of donations of pairwise
  different pages and reclaims of pairwise different pages;
* `twoReclaims`: two reclaims of one page break it.
-/

namespace MicroV

open Ept PageRangeSet

/-- The arguments of one `reclaim_root_page` call on the root. -/
structure ReclaimCall where
  g : Nat
  rootGpa : BitVec 64
  deriving DecidableEq, Repr

/-- `root_gpa_4k`. -/
def ReclaimCall.page (c : ReclaimCall) : BitVec 64 := Bfn.upper c.rootGpa ptFrom

theorem ReclaimCall.inPage_page (c : ReclaimCall) : InPage c.page c.page.toNat := ⟨le_refl _, by omega⟩

/-- Where a root vCPU is in `reclaim_root_page`: the step it runs next, or the status it
returned. -/
inductive RPc
  | check
  | remove
  | map
  | done (st : Status)
  deriving DecidableEq, Repr

/-- One atomic step of a root vCPU in `reclaim_root_page` for the call `c`: the checks
that the caller is the root and the guest is gone, with `page_already_donated`; then
`remove_page_from_donated_range`; then `map_4k_rwe`.  No step of the donations and
reclaims beside it changes the root's id or which guests are live, so the three checks
are read in one step. -/
def reclaimStep (c : ReclaimCall) : RPc → System → RPc × System
  | .check, s =>
    if s.root.id ≠ 0 then (.done .failure, s)
    else if (s.guests c.g).isSome then (.done .failure, s)
    else if !pageAlreadyDonatedTo s.root.donated c.g c.page then (.done .failure, s)
    else (.remove, s)
  | .remove, s => (.map, s.setDonated (removePageFromDonatedRange s.root.donated c.g c.page))
  | .map, s =>
    match map4kRwe s.root.ept c.page c.page with
    | none => (.done .raised, s)
    | some e => (.done .success, s.setRootEpt e)
  | .done st, s => (.done st, s)

/-- `n` steps of one vCPU in `reclaim_root_page` with no other running. -/
def runReclaim (c : ReclaimCall) : Nat → RPc → System → RPc × System
  | 0, pc, s => (pc, s)
  | n + 1, pc, s => runReclaim c n (reclaimStep c pc s).1 (reclaimStep c pc s).2

theorem runReclaim_done (c : ReclaimCall) (n : Nat) (st : Status) (s : System) :
    runReclaim c n (.done st) s = (.done st, s) := by
  induction n with
  | zero => rfl
  | succ n ih => exact ih

/-- **Alone, a vCPU computes `reclaim_root_page`**: its three steps from the start of a
call return what `reclaimRootPage` returns, in the state it leaves. -/
theorem runReclaim_eq_reclaimRootPage (c : ReclaimCall) (s : System) :
    runReclaim c 3 .check s = (.done (reclaimRootPage s c.g c.rootGpa).1, (reclaimRootPage s c.g c.rootGpa).2) := by
  have hpg : Bfn.upper c.rootGpa ptFrom = c.page := rfl
  dsimp only [reclaimRootPage]
  rw [hpg]
  by_cases h0 : s.root.id ≠ 0
  · simp [runReclaim, reclaimStep, h0, runReclaim_done]
  by_cases hg : (s.guests c.g).isSome
  · simp [runReclaim, reclaimStep, h0, hg, runReclaim_done]
  cases hd : pageAlreadyDonatedTo s.root.donated c.g c.page
  · simp [runReclaim, reclaimStep, h0, hg, hd, runReclaim_done]
  · cases hm : map4kRwe s.root.ept c.page c.page <;>
      simp [runReclaim, reclaimStep, h0, hg, hd, hm, runReclaim_done]

/-! ### The vCPUs at once -/

/-- Root vCPUs `Fin n` in `donate_root_page` calls and `Fin m` in `reclaim_root_page`
calls, on one system. -/
structure Mixed (n m : Nat) where
  sys : System
  dpc : Fin n → Pc
  rpc : Fin m → RPc

namespace Mixed

variable {n m : Nat}

/-- Every vCPU at the start of its call. -/
def start (s : System) : Mixed n m := ⟨s, fun _ => .check, fun _ => .check⟩

/-- A vCPU runs one step of its call: `.inl i` the donating vCPU `i`, `.inr k` the
reclaiming vCPU `k`. -/
def step (dcalls : Fin n → DonateCall) (rcalls : Fin m → ReclaimCall) (r : Mixed n m) :
    Fin n ⊕ Fin m → Mixed n m
  | .inl i => ⟨(donateStep (dcalls i) (r.dpc i) r.sys).2,
      Function.update r.dpc i (donateStep (dcalls i) (r.dpc i) r.sys).1, r.rpc⟩
  | .inr k => ⟨(reclaimStep (rcalls k) (r.rpc k) r.sys).2, r.dpc,
      Function.update r.rpc k (reclaimStep (rcalls k) (r.rpc k) r.sys).1⟩

/-- The vCPUs run one step each in the order of the schedule. -/
def run (dcalls : Fin n → DonateCall) (rcalls : Fin m → ReclaimCall) (r : Mixed n m)
    (sched : List (Fin n ⊕ Fin m)) : Mixed n m :=
  sched.foldl (step dcalls rcalls) r

end Mixed

/-- What the system must satisfy for the next step of a vCPU of reclaim call `c` at
`pc`: past the check the guest is gone and the page is recorded for it; past the removal
the page is recorded for no one and the root translates none of it; a call that returned
`SUCCESS` left its page unrecorded for the guest. -/
def RPcInv (c : ReclaimCall) : RPc → System → Prop
  | .remove, s => s.guests c.g = none ∧ Recorded s.root.donated c.g c.page.toNat
  | .map, s => s.guests c.g = none ∧ Free s.root c.page ∧ Unmapped s.root.ept c.page
  | .done .success, s => s.guests c.g = none ∧ ¬ Recorded s.root.donated c.g c.page.toNat
  | _, _ => True

/-- Between `gpa_to_hpa` and `add_page_to_donated_range`. -/
def Pc.inWindow : Pc → Bool
  | .begin _ | .convert _ | .unmap | .endShootdown | .add => true
  | _ => false

/-- What a run of donations and reclaims keeps: the donation invariant, what each vCPU
needs, the donations' borrowers live, and no donation of a page between `gpa_to_hpa`
and `add_page_to_donated_range` while a reclaim of it is about to map it back. -/
structure MixedInv {n m : Nat} (dcalls : Fin n → DonateCall) (rcalls : Fin m → ReclaimCall)
    (r : Mixed n m) : Prop where
  inv : Inv r.sys
  dpc : ∀ i, PcInv (dcalls i) (r.dpc i) r.sys.root
  rpc : ∀ k, RPcInv (rcalls k) (r.rpc k) r.sys
  live : ∀ i, (r.sys.guests (dcalls i).g).isSome
  window : ∀ i k, r.rpc k = .map → (dcalls i).page = (rcalls k).page → (r.dpc i).inWindow = false

/-! ### What a donation's step does beside a reclaim -/

section Donation

variable {c : DonateCall} {pc : Pc} {s : System}

theorem donateStep_guests_of_ne (hpc : pc ≠ .install) : (donateStep c pc s).2.guests = s.guests := by
  cases pc with
  | check => simp only [donateStep]; split_ifs <;> rfl
  | translate =>
    simp only [donateStep]
    split
    · rfl
    · split_ifs <;> rfl
  | install => exact absurd rfl hpc
  | done _ => rfl
  | _ => simp only [donateStep]; split_ifs <;> rfl

/-- A step of a donation keeps every guest live, and every gone guest gone. -/
theorem donateStep_guests_isSome (c : DonateCall) (pc : Pc) (s : System) (g : Nat) :
    ((donateStep c pc s).2.guests g).isSome = (s.guests g).isSome := by
  by_cases hpc : pc = .install
  · subst hpc
    show ((c.install s).2.guests g).isSome = _
    by_cases hs : (c.install s).1 = .success
    · obtain ⟨d, d', hd, heq, -⟩ := installRootPage_success (Prod.ext hs rfl)
      rw [show (c.install s).2 = s.setGuest c.g d' from heq, System.setGuest_guests, Function.update_apply]
      split_ifs with hgc
      · rw [hgc, hd]; rfl
      · rfl
    · rw [show c.install s = (.raised, s) from installRootPage_of_ne hs]
  · rw [donateStep_guests_of_ne hpc]

theorem donateStep_guests_none {g : Nat} (hg : s.guests g = none) : (donateStep c pc s).2.guests g = none :=
  Option.not_isSome_iff_eq_none.mp (by simp [donateStep_guests_isSome, hg])

/-- **A step of a donation keeps every record**, and records only its own page for its
borrower, at `add_page_to_donated_range`. -/
theorem donateStep_recorded (h : Inv s) (hp : PcInv c pc s.root) (g a : Nat) :
    (Recorded s.root.donated g a → Recorded (donateStep c pc s).2.root.donated g a) ∧
    (Recorded (donateStep c pc s).2.root.donated g a →
      Recorded s.root.donated g a ∨ (pc = .add ∧ g = c.g ∧ InPage c.page a)) := by
  rcases (donateStep_cases c pc s).2 with hr | ⟨shift, -, hr⟩ | ⟨-, hr⟩ | ⟨rfl, hr⟩ <;> rw [hr]
  · exact ⟨id, .inl⟩
  · exact ⟨id, .inl⟩
  · exact ⟨id, .inl⟩
  · obtain ⟨⟨hlt, hfree⟩, -⟩ := hp
    have hrec := (addPageToDonatedRange_spec h.wf (show c.page.toNat % 4096 = 0 from
      upper_ptFrom_aligned _) (by omega) (hfree c.g)).2 g a
    exact ⟨fun hr => hrec.mpr (.inl hr), fun hr => (hrec.mp hr).imp_right fun ⟨hg, ha⟩ => ⟨rfl, hg, ha⟩⟩

/-- A step of a donation adds no translation to the root. -/
theorem donateStep_translate_none (hp : PcInv c pc s.root) {a : Nat} (ha : s.root.ept.translate a = none) :
    (donateStep c pc s).2.root.ept.translate a = none := by
  rcases (donateStep_cases c pc s).2 with hr | ⟨shift, -, hr⟩ | ⟨rfl, hr⟩ | ⟨-, hr⟩ <;> rw [hr]
  · exact ha
  · exact (translate_convertedEpt _ _ _ _).trans ha
  · obtain ⟨-, l, hw⟩ := hp
    show (s.root.ept.unmap c.page.toNat).translate a = none
    rw [translate_unmap hw]
    split_ifs
    · rfl
    · exact ha
  · exact ha

/-- A donation enters the window only at `gpa_to_hpa`, for a page the root translates. -/
theorem donateStep_inWindow (hw : (donateStep c pc s).1.inWindow = true) :
    pc.inWindow = true ∨ (s.root.ept.translate c.page.toNat).isSome := by
  cases pc with
  | check => simp only [donateStep] at hw; split_ifs at hw <;> cases hw
  | translate =>
    simp only [donateStep] at hw
    split at hw
    · cases hw
    · next hpa shift hg =>
      split_ifs at hg
      exact .inr (by rw [← gpaToHpa_isSome, hg]; rfl)
  | install | done _ => cases hw
  | _ => exact .inl rfl

/-- Between `gpa_to_hpa` and `add_page_to_donated_range` the page is free. -/
theorem PcInv.free_of_inWindow {d : Domain} (hi : PcInv c pc d) (hw : pc.inWindow = true) :
    Free d c.page := by
  cases pc with
  | begin _ | convert _ | unmap | endShootdown | add => exact hi.1
  | _ => cases hw

/-- Outside the window what a vCPU needs is its page's record for its borrower. -/
theorem PcInv.of_not_inWindow {d d' : Domain} (hi : PcInv c pc d) (hw : pc.inWindow = false)
    (hr : Recorded d.donated c.g c.page.toNat → Recorded d'.donated c.g c.page.toNat) : PcInv c pc d' := by
  cases pc with
  | check | translate => trivial
  | install => exact hr hi
  | done st => exact fun hs => hr (hi hs)
  | _ => cases hw

end Donation

/-! ### What a reclaim's step does -/

section Reclaim

variable {b c : ReclaimCall} {bpc pc : RPc} {s : System}

/-- **What a step of a reclaim can do**: nothing; or forget its page for its guest; or
map its page back in the root. -/
theorem reclaimStep_cases (c : ReclaimCall) (pc : RPc) (s : System) :
    (reclaimStep c pc s).2 = s ∨
    (pc = .remove ∧
      (reclaimStep c pc s).2 = s.setDonated (removePageFromDonatedRange s.root.donated c.g c.page)) ∨
    (pc = .map ∧ ∃ e, map4kRwe s.root.ept c.page c.page = some e ∧ (reclaimStep c pc s).2 = s.setRootEpt e) := by
  cases pc with
  | check => left; simp only [reclaimStep]; split_ifs <;> rfl
  | remove => exact .inr (.inl ⟨rfl, rfl⟩)
  | map =>
    cases he : map4kRwe s.root.ept c.page c.page with
    | none => exact .inl (by simp only [reclaimStep, he])
    | some e => exact .inr (.inr ⟨rfl, e, rfl, by simp only [reclaimStep, he]⟩)
  | done st => exact .inl rfl

theorem reclaimStep_guests (c : ReclaimCall) (pc : RPc) (s : System) :
    (reclaimStep c pc s).2.guests = s.guests := by
  rcases reclaimStep_cases c pc s with h | ⟨-, h⟩ | ⟨-, e, -, h⟩ <;> rw [h] <;> rfl

/-- A reclaim reaches `map_4k_rwe` only from `remove_page_from_donated_range`. -/
theorem reclaimStep_map (h : (reclaimStep c pc s).1 = .map) : pc = .remove := by
  cases pc with
  | check => simp only [reclaimStep] at h; split_ifs at h
  | remove => rfl
  | map => simp only [reclaimStep] at h; split at h <;> cases h
  | done st => cases h

/-- **The step of a reclaim keeps the invariant** and gives what its next program point
needs. -/
theorem reclaimStep_inv (h : Inv s) (hb : RPcInv c pc s) :
    Inv (reclaimStep c pc s).2 ∧ RPcInv c (reclaimStep c pc s).1 (reclaimStep c pc s).2 := by
  have hal : c.page.toNat % 4096 = 0 := upper_ptFrom_aligned c.rootGpa
  cases pc with
  | check =>
    simp only [reclaimStep]
    split_ifs with h0 hg hd
    · exact ⟨h, trivial⟩
    · exact ⟨h, trivial⟩
    · exact ⟨h, trivial⟩
    · exact ⟨h, Option.not_isSome_iff_eq_none.mp hg, (pageAlreadyDonatedTo_iff h.wf).mp (by simpa using hd)⟩
  | remove =>
    obtain ⟨hg, hr⟩ := hb
    obtain ⟨hwf, hrec⟩ := removePageFromDonatedRange_spec h.wf hal (g := c.g)
    have hpage : ∀ a, InPage c.page a → Recorded s.root.donated c.g a := fun a ha =>
      (recorded_page h.wf).mpr (by rwa [show a / 4096 * 4096 = c.page.toNat by simp only [InPage] at ha; omega])
    refine ⟨h.shrink hwf (fun g a hr' => ((hrec g a).mp hr').1) (fun g d a hd hr' => (hrec g a).mpr ⟨hr', ?_⟩),
      hg, ⟨h.recorded_lt _ _ hr, fun g hr' => ?_⟩, fun a ha => h.unmapped _ a (hpage a ha)⟩
    · rintro ⟨rfl, -⟩
      rw [hg] at hd
      cases hd
    · obtain ⟨hr', hn⟩ := (hrec g _).mp hr'
      exact hn ⟨h.exclusive _ _ _ hr' hr, c.inPage_page⟩
  | map =>
    obtain ⟨hg, ⟨hlt, hfree⟩, -⟩ := hb
    simp only [reclaimStep]
    split
    · exact ⟨h, trivial⟩
    · next e he => exact ⟨h.mapPage hal hlt hfree he, hg, hfree c.g⟩
  | done st => exact ⟨h, hb⟩

/-- **A step of a reclaim of another page keeps what a reclaim needs.** -/
theorem RPcInv.other (hb : RPcInv b bpc s) (h : Inv s) (hne : b.page ≠ c.page) :
    RPcInv b bpc (reclaimStep c pc s).2 := by
  have hdiff : ∀ a, InPage b.page a → ¬ InPage c.page a := fun a ha hc =>
    hne (inPage_eq (upper_ptFrom_aligned _) (upper_ptFrom_aligned _) ha hc)
  rcases reclaimStep_cases c pc s with heq | ⟨-, heq⟩ | ⟨-, e, he, heq⟩ <;> rw [heq]
  · exact hb
  · -- the other reclaim forgets its page
    obtain ⟨-, hrec⟩ := removePageFromDonatedRange_spec h.wf (upper_ptFrom_aligned c.rootGpa) (g := c.g)
    cases bpc with
    | remove => exact ⟨hb.1, (hrec _ _).mpr ⟨hb.2, fun ⟨_, ha⟩ => hdiff _ b.inPage_page ha⟩⟩
    | map => exact ⟨hb.1, ⟨hb.2.1.1, fun g hr => hb.2.1.2 g ((hrec _ _).mp hr).1⟩, hb.2.2⟩
    | done st =>
      cases st with
      | success => exact ⟨hb.1, fun hr => hb.2 ((hrec _ _).mp hr).1⟩
      | _ => trivial
    | check => trivial
  · -- the other reclaim maps its page back
    cases bpc with
    | map =>
      refine ⟨hb.1, hb.2.1, fun a ha => ?_⟩
      have hpage : a / 2 ^ 12 ≠ c.page.toNat / 2 ^ 12 := fun hd =>
        hdiff a ha ((inPage_iff_div (upper_ptFrom_aligned _)).mpr hd)
      rw [map4kRwe] at he
      show e.translate a = none
      rw [translate_map4k he, if_neg hpage]
      exact hb.2.2 a ha
    | done st => cases st <;> exact hb
    | _ => exact hb

/-- **A step of a donation keeps what a reclaim needs**, when the donation's borrower is
live and the donation is not between `gpa_to_hpa` and `add_page_to_donated_range` for
the page the reclaim is about to map back. -/
theorem RPcInv.donate {c : DonateCall} {pc : Pc} (hb : RPcInv b bpc s) (h : Inv s)
    (hp : PcInv c pc s.root) (hl : (s.guests c.g).isSome)
    (hw : bpc = .map → c.page = b.page → pc.inWindow = false) : RPcInv b bpc (donateStep c pc s).2 := by
  have hne : s.guests b.g = none → c.g ≠ b.g := fun hg hgb => by rw [hgb, hg] at hl; cases hl
  have hrec := donateStep_recorded h hp
  cases bpc with
  | check => trivial
  | remove => exact ⟨donateStep_guests_none hb.1, (hrec _ _).1 hb.2⟩
  | map =>
    obtain ⟨hg, ⟨hlt, hf⟩, hu⟩ := hb
    refine ⟨donateStep_guests_none hg, ⟨hlt, fun g hr => ?_⟩, fun a ha => donateStep_translate_none hp (hu a ha)⟩
    rcases (hrec _ _).2 hr with hr | ⟨rfl, -, ha⟩
    · exact hf g hr
    · exact nomatch hw rfl (inPage_eq (upper_ptFrom_aligned _) (upper_ptFrom_aligned _) ha b.inPage_page)
  | done st =>
    cases st with
    | success =>
      obtain ⟨hg, hn⟩ := hb
      exact ⟨donateStep_guests_none hg, fun hr => ((hrec _ _).2 hr).elim hn fun ⟨_, hgb, _⟩ => hne hg hgb.symm⟩
    | _ => trivial

/-- **A step of a reclaim keeps what a donation needs**, when the donation's borrower is
live and the donation is not between `gpa_to_hpa` and `add_page_to_donated_range` for
the page the reclaim is about to map back. -/
theorem PcInv.reclaimVcpu {c : DonateCall} {pc : Pc} (hi : PcInv c pc s.root) (h : Inv s)
    (hb : RPcInv b bpc s) (hl : (s.guests c.g).isSome)
    (hw : bpc = .map → c.page = b.page → pc.inWindow = false) :
    PcInv c pc (reclaimStep b bpc s).2.root := by
  rcases reclaimStep_cases b bpc s with heq | ⟨rfl, heq⟩ | ⟨rfl, e, he, heq⟩ <;> rw [heq]
  · exact hi
  · refine hi.removeOther h.wf (upper_ptFrom_aligned b.rootGpa) (.inl fun hg => ?_)
    rw [hg, hb.1] at hl
    cases hl
  · by_cases hpg : c.page = b.page
    · exact hi.of_not_inWindow (hw rfl hpg) id
    · exact hi.mapOther h.no1g (upper_ptFrom_aligned b.rootGpa) hpg he

end Reclaim

/-! ### Every interleaving -/

section Run

variable {n m : Nat} {dcalls : Fin n → DonateCall} {rcalls : Fin m → ReclaimCall} {r : Mixed n m}

theorem MixedInv.start {s : System} (hs : Inv s) (hl : ∀ i, (s.guests (dcalls i).g).isSome) :
    MixedInv dcalls rcalls (Mixed.start s) :=
  ⟨hs, fun _ => trivial, fun _ => trivial, hl, fun _ _ hk => by cases hk⟩

theorem MixedInv.step (hd : ∀ i j, i ≠ j → (dcalls i).page ≠ (dcalls j).page)
    (hr : ∀ k l, k ≠ l → (rcalls k).page ≠ (rcalls l).page) (h : MixedInv dcalls rcalls r) :
    ∀ x, MixedInv dcalls rcalls (r.step dcalls rcalls x)
  | .inl i => by
    obtain ⟨hinv, hself⟩ := donateStep_inv h.inv (h.dpc i)
    have hother : ∀ j, j ≠ i → (r.step dcalls rcalls (.inl i)).dpc j = r.dpc j := fun j hj =>
      Function.update_noteq hj _ _
    refine ⟨hinv, fun j => ?_, fun k => (h.rpc k).donate h.inv (h.dpc i) (h.live i) (h.window i k),
      fun j => (donateStep_guests_isSome _ _ _ _).trans (h.live j), fun j k hk hpg => ?_⟩
    · by_cases hj : j = i
      · subst hj
        rw [show (r.step dcalls rcalls (.inl j)).dpc j = _ from Function.update_same _ _ _]
        exact hself
      · rw [hother j hj]
        exact (h.dpc j).other h.inv (h.dpc i) (hd j i hj)
    · by_cases hj : j = i
      · -- the donation may enter the window only for a page the root translates
        subst hj
        rw [show (r.step dcalls rcalls (.inl j)).dpc j = _ from Function.update_same _ _ _]
        have hb := h.rpc k
        rw [show r.rpc k = .map from hk] at hb
        refine Bool.eq_false_iff.mpr fun hwin => ?_
        rcases donateStep_inWindow hwin with hwin | hsome
        · exact nomatch hwin.symm.trans (h.window j k hk hpg)
        · rw [hb.2.2 _ (by rw [hpg]; exact (rcalls k).inPage_page)] at hsome
          cases hsome
      · rw [hother j hj]
        exact h.window j k hk hpg
  | .inr k => by
    obtain ⟨hinv, hself⟩ := reclaimStep_inv h.inv (h.rpc k)
    have hother : ∀ l, l ≠ k → (r.step dcalls rcalls (.inr k)).rpc l = r.rpc l := fun l hl =>
      Function.update_noteq hl _ _
    refine ⟨hinv, fun i => (h.dpc i).reclaimVcpu h.inv (h.rpc k) (h.live i) (h.window i k), fun l => ?_,
      fun i => by rw [show (r.step dcalls rcalls (.inr k)).sys.guests = r.sys.guests from
        reclaimStep_guests _ _ _]; exact h.live i, fun i l hl hpg => ?_⟩
    · by_cases hlk : l = k
      · subst hlk
        rw [show (r.step dcalls rcalls (.inr l)).rpc l = _ from Function.update_same _ _ _]
        exact hself
      · rw [hother l hlk]
        exact (h.rpc l).other h.inv (hr l k hlk)
    · by_cases hlk : l = k
      · -- the reclaim reaches the map back from the removal, with its page recorded
        subst hlk
        rw [show (r.step dcalls rcalls (.inr l)).rpc l = _ from Function.update_same _ _ _] at hl
        have hb := h.rpc l
        rw [reclaimStep_map hl] at hb
        refine Bool.eq_false_iff.mpr fun hwin => ((h.dpc i).free_of_inWindow hwin).2 (rcalls l).g ?_
        rw [hpg]
        exact hb.2
      · rw [hother l hlk] at hl
        exact h.window i l hl hpg

theorem MixedInv.run (hd : ∀ i j, i ≠ j → (dcalls i).page ≠ (dcalls j).page)
    (hr : ∀ k l, k ≠ l → (rcalls k).page ≠ (rcalls l).page) :
    ∀ (sched : List (Fin n ⊕ Fin m)) {r : Mixed n m}, MixedInv dcalls rcalls r →
      MixedInv dcalls rcalls (r.run dcalls rcalls sched)
  | [], _, h => h
  | x :: sched, _, h => MixedInv.run hd hr sched (h.step hd hr x)

end Run

/-- **Reclaims race safely with donations.**  From a reachable system, root vCPUs run
`donate_root_page` calls to live guests on pairwise different pages and
`reclaim_root_page` calls on pairwise different pages, a donation and a reclaim possibly
of the same page, their steps interleaved in any order.  The donation invariant holds
after every step; a donation that returned `SUCCESS` has its page recorded for its
borrower, and a reclaim that returned `SUCCESS` has its page recorded no more for its
guest. -/
theorem reclaim_race_inv {n m : Nat} {s : System} (hs : Reachable s) (dcalls : Fin n → DonateCall)
    (rcalls : Fin m → ReclaimCall) (hd : ∀ i j, i ≠ j → (dcalls i).page ≠ (dcalls j).page)
    (hr : ∀ k l, k ≠ l → (rcalls k).page ≠ (rcalls l).page) (hl : ∀ i, (s.guests (dcalls i).g).isSome)
    (sched : List (Fin n ⊕ Fin m)) :
    Inv ((Mixed.start s).run dcalls rcalls sched).sys ∧
    (∀ i, ((Mixed.start s).run dcalls rcalls sched).dpc i = .done .success →
      Recorded ((Mixed.start s).run dcalls rcalls sched).sys.root.donated (dcalls i).g (dcalls i).page.toNat) ∧
    (∀ k, ((Mixed.start s).run dcalls rcalls sched).rpc k = .done .success →
      ¬ Recorded ((Mixed.start s).run dcalls rcalls sched).sys.root.donated (rcalls k).g (rcalls k).page.toNat) := by
  have h : MixedInv dcalls rcalls ((Mixed.start s).run dcalls rcalls sched) :=
    MixedInv.run hd hr sched (MixedInv.start hs.inv hl)
  refine ⟨h.inv, fun i hi => ?_, fun k hk => ?_⟩
  · have := h.dpc i
    rw [hi] at this
    exact this rfl
  · have := h.rpc k
    rw [hk] at this
    exact this.2

/-- Guest `2` was lent page `0x1000` and is gone; guest `1` is live. -/
def lentToGone : System :=
  (donateRootPage Raises.never twoGuests 0x1000 2 0x7000 readWriteExecute writeBack).2.destroyDomain 2

theorem reachable_lentToGone : Reachable lentToGone :=
  have h₁ : Reachable twoGuests := .step reachable_oneGuest (.create ⟨false, false⟩ (by decide) rfl)
  .step (.step h₁ (.donate Raises.never 0x1000 0x7000 readWriteExecute writeBack (by decide))) (.destroy 2)

/-- vCPU `0` donates page `0x1000` to guest `1` at `0x5000`. -/
def lendCall (_ : Fin 1) : DonateCall := ⟨0x1000, 1, 0x5000, readWriteExecute, writeBack, Raises.never⟩

/-- A reclaim of page `0x1000` from guest `2`. -/
def reclaimCall {m : Nat} (_ : Fin m) : ReclaimCall := ⟨2, 0x1000⟩

/-- The donation checks the tracker while the page is still recorded for the gone guest;
then the reclaim forgets the page and maps it back; then the donation runs to its end. -/
def reclaimThenLend : List (Fin 1 ⊕ Fin 1) :=
  [.inr 0, .inl 0, .inr 0, .inr 0, .inl 0, .inl 0, .inl 0, .inl 0, .inl 0, .inl 0, .inl 0]

theorem reclaim_race_inv_reclaim_and_donate :
    Reachable lentToGone ∧ (∀ i j : Fin 1, i ≠ j → (lendCall i).page ≠ (lendCall j).page) ∧
    (∀ k l : Fin 1, k ≠ l → (reclaimCall k).page ≠ (reclaimCall l).page) ∧
    (∀ i, (lentToGone.guests (lendCall i).g).isSome) ∧
    (Inv ((Mixed.start lentToGone).run lendCall reclaimCall reclaimThenLend).sys ∧
    (∀ i, ((Mixed.start lentToGone).run lendCall reclaimCall reclaimThenLend).dpc i = .done .success →
      Recorded ((Mixed.start lentToGone).run lendCall reclaimCall reclaimThenLend).sys.root.donated
        (lendCall i).g (lendCall i).page.toNat) ∧
    (∀ k, ((Mixed.start lentToGone).run lendCall reclaimCall reclaimThenLend).rpc k = .done .success →
      ¬ Recorded ((Mixed.start lentToGone).run lendCall reclaimCall reclaimThenLend).sys.root.donated
        (reclaimCall k).g (reclaimCall k).page.toNat)) :=
  ⟨reachable_lentToGone, by decide, by decide, by decide,
    reclaim_race_inv reachable_lentToGone lendCall reclaimCall (by decide) (by decide) (by decide) _⟩

/-- Two reclaims of page `0x1000` from the gone guest both pass their check; the first
forgets the page and maps it back; the donation lends it to guest `1`; the second
forgets nothing and maps the page back again. -/
def twoReclaims : Mixed 1 2 :=
  (Mixed.start lentToGone).run lendCall reclaimCall
    [.inr 0, .inr 1, .inr 0, .inr 0, .inl 0, .inl 0, .inl 0, .inl 0, .inl 0, .inl 0, .inl 0, .inl 0,
      .inr 1, .inr 1]

/-- **Two reclaims of one page break the invariant**: after `twoReclaims` the root
translates page `0x1000`, which is recorded for guest `1` and which guest `1` maps at
`0x5000`. -/
example :
    (twoReclaims.sys.root.ept.translate 0x1000).isSome ∧
    ((twoReclaims.sys.guests 1).bind fun d => d.ept.translate 0x5000) = some ⟨0x1000, readWriteExecute, writeBack⟩ ∧
    ¬ Inv twoReclaims.sys := by
  have hroot : (twoReclaims.sys.root.ept.translate 0x1000).isSome := by decide
  have hrec : pageAlreadyDonatedTo twoReclaims.sys.root.donated 1 0x1000 = true := by decide
  refine ⟨hroot, by decide, fun h => ?_⟩
  have := h.unmapped 1 0x1000 ((pageAlreadyDonatedTo_iff h.wf).mp hrec)
  rw [this] at hroot
  cases hroot

end MicroV

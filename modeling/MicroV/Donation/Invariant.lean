import MicroV.Donation.Reclaim

/-!
# The donation invariant

`Inv s` is what holds in every state the donation operations reach from setup:

* the tracker is well formed, records each page for at most one borrower, and a
  recorded page is not present in the root's EPT;
* the root maps addresses below `2 ^ 52` to themselves, read-write-execute and
  write-back, with no 1G page;
* what a live guest's EPT maps, and what a live Xen guest was handed, is recorded for
  that guest.

`Inv.init` and `Inv.step` give `Reachable.inv`.  The step lemmas follow the
operations: `Inv.donate` through the stages of `donateTry_root` (`Inv.tryBlock`) and
`installRootPage_guests`, `Inv.reclaim` through `reclaimRootPage_root`,
`Inv.reclaimAll` through the loop lemmas, and `Inv.create`, `Inv.destroy`.

**`donateRootPage_takes_page`**: with no 1G page in the root, a successful donation
takes exactly its 4K page from the root's translations.  **`reachable_isolation`** is
the isolation the protocol is for: no donated page is reachable at the same time by
the root and a live guest, or by two live guests.
-/

namespace MicroV

open Ept PageRangeSet

/-- **The donation invariant.** -/
structure Inv (s : System) : Prop where
  root_id : s.root.id = 0
  wf : TrackerWf s.root.donated
  exclusive : ∀ g g' a, Recorded s.root.donated g a → Recorded s.root.donated g' a → g = g'
  unmapped : ∀ g a, Recorded s.root.donated g a → s.root.ept.translate a = none
  recorded_lt : ∀ g a, Recorded s.root.donated g a → a < 2 ^ 52
  identity : ∀ a m, s.root.ept.translate a = some m →
    a < 2 ^ 52 ∧ m = ⟨a, readWriteExecute, writeBack⟩
  no1g : ∀ i l, s.root.ept.pdpt i ≠ .leaf l
  guest_ept : ∀ g d, s.guests g = some d → ∀ a m, d.ept.translate a = some m →
    Recorded s.root.donated g m.hpa
  guest_xen : ∀ g d, s.guests g = some d → ∀ a m, d.rootPages a = some m →
    Recorded s.root.donated g m.hpa

section Preservation

variable {s s' : System}

/-- The invariant reads only the root and the registry. -/
theorem Inv.congr (h : Inv s) (hr : s'.root = s.root) (hg : s'.guests = s.guests) : Inv s' := by
  obtain ⟨r, gs, _, _, _⟩ := s'
  simp only at hr hg
  subst hr hg
  exact ⟨h.1, h.2, h.3, h.4, h.5, h.6, h.7, h.8, h.9⟩

theorem Inv.not_recorded_of_translate (h : Inv s) {a : Nat} {m : Mapping}
    (ha : s.root.ept.translate a = some m) (g : Nat) : ¬ Recorded s.root.donated g a := fun hr => by
  rw [h.unmapped g a hr] at ha; cases ha

/-- **A change of the root's EPT that adds no translation and no 1G page keeps the
invariant.** -/
theorem Inv.setRootEpt (h : Inv s) {e : Ept}
    (ht : ∀ a m, e.translate a = some m → s.root.ept.translate a = some m)
    (hno : ∀ i l, e.pdpt i ≠ .leaf l) : Inv (s.setRootEpt e) where
  root_id := h.root_id
  wf := h.wf
  exclusive := h.exclusive
  unmapped g a hr := by
    show e.translate a = none
    cases hm : e.translate a with
    | none => rfl
    | some m => exact absurd hr (h.not_recorded_of_translate (ht a m hm) g)
  recorded_lt := h.recorded_lt
  identity a m hm := h.identity a m (ht a m hm)
  no1g := hno
  guest_ept := h.guest_ept
  guest_xen := h.guest_xen

/-- Recording a page the root maps for no one, once it is unmapped, keeps the
invariant. -/
theorem Inv.add (h : Inv s) {g : Nat} {p : BitVec 64} (hal : p.toNat % 4096 = 0)
    (hlt : p.toNat < 2 ^ 52) (hfree : ∀ g', ¬ Recorded s.root.donated g' p.toNat)
    (hun : ∀ a, InPage p a → s.root.ept.translate a = none) :
    Inv (s.setDonated (addPageToDonatedRange s.root.donated g p)) := by
  obtain ⟨hwf, hrec⟩ := addPageToDonatedRange_spec h.wf hal (by omega) (hfree g)
  have hpage : ∀ g' a, InPage p a → ¬ Recorded s.root.donated g' a := fun g' a ha hr => by
    rw [recorded_page h.wf] at hr
    exact hfree g' (by rwa [show a / 4096 * 4096 = p.toNat by simp only [InPage] at ha; omega] at hr)
  refine ⟨h.root_id, hwf, fun g₁ g₂ a h₁ h₂ => ?_, fun g' a hr => ?_, fun g' a hr => ?_,
    h.identity, h.no1g, fun g' d hd a m hm => ?_, fun g' d hd a m hm => ?_⟩
  · simp only [System.setDonated_root_donated, hrec] at h₁ h₂
    rcases h₁ with h₁ | ⟨rfl, ha⟩ <;> rcases h₂ with h₂ | ⟨rfl, hb⟩
    · exact h.exclusive _ _ _ h₁ h₂
    · exact absurd h₁ (hpage _ _ hb)
    · exact absurd h₂ (hpage _ _ ha)
    · rfl
  · simp only [System.setDonated_root_donated, hrec] at hr
    rcases hr with hr | ⟨-, ha⟩
    exacts [h.unmapped g' a hr, hun a ha]
  · simp only [System.setDonated_root_donated, hrec] at hr
    rcases hr with hr | ⟨-, ha⟩
    exacts [h.recorded_lt g' a hr, by simp only [InPage] at ha; omega]
  · simp only [System.setDonated_root_donated, hrec]
    exact .inl (h.guest_ept g' d hd a m hm)
  · simp only [System.setDonated_root_donated, hrec]
    exact .inl (h.guest_xen g' d hd a m hm)

theorem Inv.install (h : Inv s) {g guestGpa perm mtype : Nat} {p : BitVec 64}
    (hal : p.toNat % 4096 = 0) (hp : Recorded s.root.donated g p.toNat) :
    Inv (installRootPage s g guestGpa p perm mtype).2 := by
  obtain ⟨hroot, hguests⟩ := installRootPage_guests s g guestGpa perm mtype hal
  have hrec : ∀ hpa : Nat, hpa / 4096 = p.toNat / 4096 → Recorded s.root.donated g hpa :=
    fun hpa hh => (recorded_page h.wf).mpr (by rwa [hh, show p.toNat / 4096 * 4096 = p.toNat by omega])
  refine ⟨?_, ?_, ?_, ?_, ?_, ?_, ?_, fun g' d' hd' a m hm => ?_, fun g' d' hd' a m hm => ?_⟩
  all_goals try rw [hroot]
  · exact h.root_id
  · exact h.wf
  · exact h.exclusive
  · exact h.unmapped
  · exact h.recorded_lt
  · exact h.identity
  · exact h.no1g
  · obtain ⟨d, hd, hept, -⟩ := hguests g' d' hd'
    rcases hept a m hm with hm | ⟨rfl, hh⟩
    exacts [h.guest_ept g' d hd a m hm, hrec _ hh]
  · obtain ⟨d, hd, -, hxen⟩ := hguests g' d' hd'
    rcases hxen a m hm with hm | ⟨rfl, hh⟩
    exacts [h.guest_xen g' d hd a m hm, hrec _ hh]

theorem Inv.shift_ne (h : Inv s) {a hpa shift : Nat} (hg : s.root.ept.gpaToHpa a = some (hpa, shift)) :
    shift ≠ pdptFrom := by
  rintro rfl
  obtain ⟨l, hw, -, -⟩ := gpaToHpa_eq_some.mp hg
  rcases Entry.walk_eq_some.mp hw with ⟨h1, -⟩ | ⟨-, -, h'⟩ | ⟨-, -, -, h'⟩
  exacts [h.no1g _ _ h1, absurd h' (by decide), absurd h' (by decide)]

theorem Inv.afterUnmap (h : Inv s) {rootGpa : BitVec 64} {hpa shift : Nat}
    (hg : s.root.ept.gpaToHpa (Bfn.upper rootGpa ptFrom).toNat = some (hpa, shift)) :
    Inv (s.setRootEpt (unmapConverted s.root.ept rootGpa shift)) := by
  refine h.setRootEpt (fun a m hm => ?_) (by rw [unmapConverted_pdpt hg (h.shift_ne hg)]; exact h.no1g)
  rw [translate_unmapConverted hg (h.shift_ne hg)] at hm
  split_ifs at hm
  exact hm

/-- **The `try` block keeps the invariant**, whichever collaborator raises. -/
theorem Inv.tryBlock (h : Inv s) (r : Raises) (rootGpa : BitVec 64) (g : Nat) :
    Inv (donateTry r s rootGpa (Bfn.upper rootGpa ptFrom) g).2 := by
  obtain ⟨hguests, ⟨-, hroot⟩ | ⟨shift, hg, -, hroot⟩⟩ := donateTry_root r s rootGpa g
  · exact h.congr hroot hguests
  have hU := h.afterUnmap hg
  rcases hroot with ⟨-, hroot⟩ | ⟨-, hroot⟩ | ⟨-, hroot⟩
  · refine (h.setRootEpt (fun a m hm => ?_) ?_).congr hroot hguests
    · rwa [translate_convertedEpt] at hm
    · rw [convertedEpt_pdpt]; exact h.no1g
  · exact hU.congr hroot hguests
  · obtain ⟨m, hm, -⟩ := translate_of_gpaToHpa hg
    have hal := upper_ptFrom_aligned rootGpa
    refine (hU.add hal (h.identity _ m hm).1 (fun g' => h.not_recorded_of_translate hm g')
      (fun a ha => ?_)).congr hroot hguests
    rw [System.setRootEpt_root_ept, translate_unmapConverted hg (h.shift_ne hg),
      if_pos (by simp only [InPage] at ha; omega)]

theorem Inv.tryBlock_recorded (h : Inv s) {r : Raises} {rootGpa : BitVec 64} {g : Nat}
    (hs : (donateTry r s rootGpa (Bfn.upper rootGpa ptFrom) g).1 = .success) :
    Recorded (donateTry r s rootGpa (Bfn.upper rootGpa ptFrom) g).2.root.donated g
      (Bfn.upper rootGpa ptFrom).toNat := by
  obtain ⟨-, ⟨hs', -⟩ | ⟨shift, hg, -, hroot⟩⟩ := donateTry_root r s rootGpa g
  · exact absurd hs hs'
  rcases hroot with ⟨hs', -⟩ | ⟨hs', -⟩ | ⟨-, hroot⟩
  · exact absurd hs hs'
  · exact absurd hs hs'
  rw [hroot]
  obtain ⟨m, hm, -⟩ := translate_of_gpaToHpa hg
  exact ((addPageToDonatedRange_spec h.wf (upper_ptFrom_aligned rootGpa)
    (by have := (h.identity _ m hm).1; omega) (h.not_recorded_of_translate hm g)).2 g _).mpr
    (.inr ⟨rfl, by simp [InPage]⟩)

/-- **`donate_root_page` keeps the invariant**, whichever collaborator raises. -/
theorem Inv.donate (h : Inv s) (r : Raises) (rootGpa : BitVec 64) (g guestGpa perm mtype : Nat) :
    Inv (donateRootPage r s rootGpa g guestGpa perm mtype).2 := by
  have hal := upper_ptFrom_aligned rootGpa
  unfold donateRootPage
  by_cases h0 : s.root.id ≠ 0
  · rw [if_pos h0]; exact h
  rw [if_neg h0]
  by_cases hd : pageAlreadyDonatedTo s.root.donated g (Bfn.upper rootGpa ptFrom) = true
  · simp only [hd, if_true]
    exact h.install hal ((pageAlreadyDonatedTo_iff h.wf).mp hd)
  simp only [hd, Bool.false_eq_true, if_false]
  split_ifs with hs
  · exact (h.tryBlock r rootGpa g).install hal (h.tryBlock_recorded hs)
  · exact h.tryBlock r rootGpa g

/-- Forgetting pages, none of them of a live guest, keeps the invariant. -/
theorem Inv.shrink (h : Inv s) {m : DonatedPageMap} (hwf : TrackerWf m)
    (hsub : ∀ g a, Recorded m g a → Recorded s.root.donated g a)
    (hlive : ∀ g d a, s.guests g = some d → Recorded s.root.donated g a → Recorded m g a) :
    Inv (s.setDonated m) where
  root_id := h.root_id
  wf := hwf
  exclusive g g' a h₁ h₂ := h.exclusive g g' a (hsub g a h₁) (hsub g' a h₂)
  unmapped g a hr := h.unmapped g a (hsub g a hr)
  recorded_lt g a hr := h.recorded_lt g a (hsub g a hr)
  identity := h.identity
  no1g := h.no1g
  guest_ept g d hd a m hm := hlive g d _ hd (h.guest_ept g d hd a m hm)
  guest_xen g d hd a m hm := hlive g d _ hd (h.guest_xen g d hd a m hm)

/-- Mapping back, identity, read-write-execute and write-back, pages below `2 ^ 52`
recorded for no one keeps the invariant. -/
theorem Inv.remap (h : Inv s) {e : Ept}
    (ht : ∀ a m, e.translate a = some m → s.root.ept.translate a = some m ∨
      (m = ⟨a, readWriteExecute, writeBack⟩ ∧ a < 2 ^ 52 ∧ ∀ g, ¬ Recorded s.root.donated g a))
    (hno : ∀ i l, e.pdpt i ≠ .leaf l) : Inv (s.setRootEpt e) where
  root_id := h.root_id
  wf := h.wf
  exclusive := h.exclusive
  unmapped g a hr := by
    show e.translate a = none
    cases hm : e.translate a with
    | none => rfl
    | some m =>
      rcases ht a m hm with hm | ⟨-, -, hfree⟩
      exacts [absurd hr (h.not_recorded_of_translate hm g), absurd hr (hfree g)]
  recorded_lt := h.recorded_lt
  identity a m hm := by
    rcases ht a m hm with hm | ⟨rfl, hlt, -⟩
    exacts [h.identity a m hm, ⟨hlt, rfl⟩]
  no1g := hno
  guest_ept := h.guest_ept
  guest_xen := h.guest_xen

/-- `map_4k_rwe(p, p)` on an aligned page below `2 ^ 52` recorded for no one keeps the
invariant. -/
theorem Inv.mapPage (h : Inv s) {p : BitVec 64} {e : Ept} (hal : p.toNat % 4096 = 0)
    (hlt : p.toNat < 2 ^ 52) (hfree : ∀ g, ¬ Recorded s.root.donated g p.toNat)
    (hm : map4kRwe s.root.ept p p = some e) : Inv (s.setRootEpt e) := by
  refine h.remap (fun a m ha => ?_) (fun i l hi => ?_)
  · rw [translate_map4k hm] at ha
    split_ifs at ha with hp
    · refine .inr ⟨?_, by omega, fun g hr => hfree g ?_⟩
      · exact (Option.some.inj ((Mapping.some_eq_of_hpa (by omega)).symm.trans ha)).symm
      · rwa [recorded_page h.wf, show a / 4096 * 4096 = p.toNat by omega] at hr
    · exact .inl ha
  · rcases map4k_pdpt hm i with hi' | hi' <;> rw [hi'] at hi
    exacts [h.no1g i l hi, Entry.noConfusion hi]

/-- **`reclaim_root_page` keeps the invariant.** -/
theorem Inv.reclaim (h : Inv s) (g : Nat) (rootGpa : BitVec 64) :
    Inv (reclaimRootPage s g rootGpa).2 := by
  have hal := upper_ptFrom_aligned rootGpa
  rcases reclaimRootPage_eq s g rootGpa with heq | ⟨-, hg, hd, hres⟩
  · rw [heq]; exact h
  have hp := (pageAlreadyDonatedTo_iff h.wf).mp hd
  obtain ⟨hwf, hrec⟩ := removePageFromDonatedRange_spec h.wf hal (g := g)
  have hR := h.shrink hwf (fun g' a hr => ((hrec g' a).mp hr).1) fun g' d a hd' hr =>
    (hrec g' a).mpr ⟨hr, fun ⟨hgg, _⟩ => by subst hgg; rw [hg] at hd'; cases hd'⟩
  rcases hres with ⟨e, hm, heq⟩ | ⟨-, heq⟩ <;> rw [heq]
  · refine hR.mapPage hal (h.recorded_lt g _ hp) (fun g' hr => ?_) hm
    obtain ⟨hr, hn⟩ := (hrec g' _).mp hr
    exact hn ⟨h.exclusive _ _ _ hr hp, by simp [InPage]⟩
  · exact hR

/-- **`reclaim_root_pages` keeps the invariant.** -/
theorem Inv.reclaimAll (h : Inv s) {g : Nat} {st : Status} (hr : reclaimRootPages s g = some (st, s')) :
    Inv s' := by
  unfold reclaimRootPages at hr
  split_ifs at hr with h0 hg
  · cases hr; exact h
  · cases hr; exact h
  have hg := Option.not_isSome_iff_eq_none.mp hg
  split at hr
  · cases hr; exact h
  · next set hl =>
    have hw := h.wf g set hl
    rw [mapRanges_eq hw, Option.map_some'] at hr
    cases hml : mapList set.pages s.root.ept with
    | error e =>
      rw [hml] at hr
      cases hr
      rw [mapList_error (pages_increasing hw) (fun p hp => ((mem_pages hw).mp hp).1) hml]
      exact h.congr rfl rfl
    | ok e =>
      rw [hml] at hr
      cases hr
      have hE := h.shrink (h.wf.erase g) (fun g' a hr => (recorded_erase.mp hr).2)
        fun g' d a hd hr => recorded_erase.mpr ⟨fun hgg => (by subst hgg; rw [hg] at hd; cases hd), hr⟩
      obtain ⟨e', he', ht⟩ := mapList_ok (mapList_ok_mem hml) s.root.ept
      rw [hml, Except.ok.injEq] at he'
      subst he'
      refine (hE.remap (fun a m ha => ?_) (mapList_no1g hml h.no1g)).congr rfl rfl
      rw [ht] at ha
      split_ifs at ha with hp
      · obtain ⟨p, hp, hap⟩ := hp
        obtain ⟨hal, hcov⟩ := (mem_pages hw).mp hp
        have hrp : Recorded s.root.donated g p.toNat := ⟨set, hl, hcov⟩
        have hra : Recorded s.root.donated g a := by
          rwa [recorded_page h.wf, show a / 4096 * 4096 = p.toNat by omega]
        have := h.recorded_lt g _ hrp
        refine .inr ⟨(Option.some.inj ha).symm, by omega, fun g' hr' => ?_⟩
        obtain ⟨hne, hr'⟩ := recorded_erase.mp hr'
        exact hne (h.exclusive _ _ _ hr' hra)
      · exact .inl ha

theorem Inv.destroy (h : Inv s) (g : Nat) : Inv (s.destroyDomain g) := by
  refine ⟨h.root_id, h.wf, h.exclusive, h.unmapped, h.recorded_lt, h.identity, h.no1g,
    fun g' d hd => ?_, fun g' d hd => ?_⟩ <;>
  · simp only [System.destroyDomain_guests] at hd
    by_cases hg : g' = g
    · subst hg; simp at hd
    · rw [Function.update_noteq hg] at hd
      first
      | exact h.guest_ept g' d hd
      | exact h.guest_xen g' d hd

/-- Creating a guest keeps the invariant: its EPT and its Xen root pages are empty. -/
theorem Inv.create (h : Inv s) (g : Nat) (info : SodInfo) : Inv (s.createDomain g info) := by
  refine ⟨h.root_id, h.wf, h.exclusive, h.unmapped, h.recorded_lt, h.identity, h.no1g,
    fun g' d hd a m hm => ?_, fun g' d hd a m hm => ?_⟩ <;>
  · simp only [System.createDomain, System.setGuest_guests] at hd
    rcases update_eq_some hd with ⟨-, rfl⟩ | ⟨-, hd⟩
    · simp [setupDomU_eq, Domain.new] at hm
    · first
      | exact h.guest_ept g' d hd a m hm
      | exact h.guest_xen g' d hd a m hm


/-- **Every step keeps the invariant.** -/
theorem Inv.step (h : Inv s) (hs : Step s s') : Inv s' := by
  cases hs with
  | donate r rootGpa guestGpa perm mtype _ => exact h.donate r rootGpa _ guestGpa perm mtype
  | reclaim g rootGpa => exact h.reclaim g rootGpa
  | reclaimAll g hr => exact h.reclaimAll hr
  | create info _ _ => exact h.create _ info
  | destroy g => exact h.destroy g

end Preservation

/-- **Setup establishes the invariant**: the root is identity-mapped by 2M pages and
the tracker is empty. -/
theorem Inv.init {maxPhysAddr : Nat} (hmax : maxPhysAddr ≤ 2 ^ 52) (pciPassthru : Bool)
    (pciPassthruList : List PciDev) (info : SodInfo) :
    Inv (System.init maxPhysAddr pciPassthru pciPassthruList info) where
  root_id := rfl
  wf := trackerWf_empty
  exclusive g _ a hr := absurd hr (recorded_empty g a)
  unmapped g a hr := absurd hr (recorded_empty g a)
  recorded_lt g a hr := absurd hr (recorded_empty g a)
  identity a m hm := by
    simp only [System.init, Domain.setupDom0, translate_identityMap] at hm
    split_ifs at hm with ha
    exact ⟨by omega, (Option.some.inj hm).symm⟩
  no1g i l hi := by
    rcases identityMap_pdpt maxPhysAddr i with h | h <;>
      simp only [System.init, Domain.setupDom0, h] at hi <;> cases hi
  guest_ept _ _ hd := by cases hd
  guest_xen _ _ hd := by cases hd

theorem Reachable.inv {s : System} (h : Reachable s) : Inv s := by
  induction h with
  | init hmax pciPassthru pciPassthruList info => exact Inv.init hmax pciPassthru pciPassthruList info
  | step _ hs ih => exact ih.step hs

/-- What a successful donation leaves in the root's EPT: the translations of before,
but those of the page at `root_gpa`. -/
theorem Inv.donateRootPage_translate {s : System} (hinv : Inv s) {r : Raises} {rootGpa : BitVec 64}
    {g guestGpa perm mtype : Nat} (h : (donateRootPage r s rootGpa g guestGpa perm mtype).1 = .success)
    (a : Nat) :
    (donateRootPage r s rootGpa g guestGpa perm mtype).2.root.ept.translate a =
      if a / 4096 = (Bfn.upper rootGpa ptFrom).toNat / 4096 then none else s.root.ept.translate a := by
  have hal := upper_ptFrom_aligned rootGpa
  obtain ⟨-, ⟨hd, hi⟩ | ⟨-, ht, hi⟩⟩ := donateRootPage_success (Prod.ext h rfl)
  · -- a page already recorded for the borrower: the root is left as it was, without the page
    rw [← congrArg Prod.snd hi, (installRootPage_guests s g guestGpa perm mtype hal).1]
    split_ifs with hin
    · refine hinv.unmapped g a ((recorded_page hinv.wf).mpr ?_)
      rw [show a / 4096 * 4096 = (Bfn.upper rootGpa ptFrom).toNat by omega]
      exact (pageAlreadyDonatedTo_iff hinv.wf).mp hd
    · rfl
  · -- the `try` block split the page's entry and unmapped the page
    rcases (donateTry_root r s rootGpa g).2 with ⟨hne, -⟩ | ⟨shift, hg, -, ⟨hne, -⟩ | ⟨hne, -⟩ | ⟨-, hroot⟩⟩
    · exact absurd ht hne
    · exact absurd ht hne
    · exact absurd ht hne
    rw [← congrArg Prod.snd hi, (installRootPage_guests _ g guestGpa perm mtype hal).1, hroot]
    exact translate_unmapConverted hg (hinv.shift_ne hg) a

/-- **A successful donation takes exactly its 4K page from the root.**  In every
reachable state the root maps by 4K and 2M entries only (`Inv.no1g`: setup maps no 1G
page).  There a `donate_root_page` that returns `SUCCESS`, whichever collaborators
were set to raise, leaves no address of the page at `root_gpa` present in the root's
EPT, and every other address translated as before: to the same host address, with the
same permission and memory type. -/
theorem donateRootPage_takes_page {s : System} (hs : Reachable s) (r : Raises) (rootGpa : BitVec 64)
    (g guestGpa perm mtype : Nat) (h : (donateRootPage r s rootGpa g guestGpa perm mtype).1 = .success) :
    (∀ a, InPage (Bfn.upper rootGpa ptFrom) a →
      (donateRootPage r s rootGpa g guestGpa perm mtype).2.root.ept.translate a = none) ∧
    (∀ a, ¬ InPage (Bfn.upper rootGpa ptFrom) a →
      (donateRootPage r s rootGpa g guestGpa perm mtype).2.root.ept.translate a = s.root.ept.translate a) := by
  have hal := upper_ptFrom_aligned rootGpa
  refine ⟨fun a ha => ?_, fun a ha => ?_⟩ <;> rw [hs.inv.donateRootPage_translate h] <;> simp only [InPage] at ha
  · rw [if_pos (by omega)]
  · rw [if_neg (by omega)]

theorem donateRootPage_takes_page_one_guest :
    Reachable oneGuest ∧
    (donateRootPage Raises.never oneGuest 0x1000 1 0x5000 readWriteExecute writeBack).1 = .success ∧
    (∀ a, InPage (Bfn.upper 0x1000 ptFrom) a →
      (donateRootPage Raises.never oneGuest 0x1000 1 0x5000 readWriteExecute writeBack).2.root.ept.translate a =
        none) ∧
    (∀ a, ¬ InPage (Bfn.upper 0x1000 ptFrom) a →
      (donateRootPage Raises.never oneGuest 0x1000 1 0x5000 readWriteExecute writeBack).2.root.ept.translate a =
        oneGuest.root.ept.translate a) :=
  ⟨reachable_oneGuest, by decide,
    donateRootPage_takes_page reachable_oneGuest Raises.never 0x1000 1 0x5000 readWriteExecute writeBack
      (by decide)⟩

/-- Guest `d` reaches host address `m.hpa` from `gpa`, through its EPT or through the
root pages its Xen domain was handed. -/
def GuestMaps (d : Domain) (gpa : Nat) (m : Mapping) : Prop :=
  d.ept.translate gpa = some m ∨ d.rootPages gpa = some m

theorem Inv.guestMaps_recorded {s : System} (h : Inv s) {g : Nat} {d : Domain} {gpa : Nat} {m : Mapping}
    (hd : s.guests g = some d) (hm : GuestMaps d gpa m) : Recorded s.root.donated g (m.hpa / 4096 * 4096) :=
  (recorded_page h.wf).mp (hm.elim (h.guest_ept g d hd gpa m) (h.guest_xen g d hd gpa m))

theorem Inv.guestMaps_eq {s : System} (h : Inv s) {g g' : Nat} {d d' : Domain} {x y : Nat} {m m' : Mapping}
    (hd : s.guests g = some d) (hd' : s.guests g' = some d') (hm : GuestMaps d x m) (hm' : GuestMaps d' y m')
    (hpage : m.hpa / 4096 = m'.hpa / 4096) : g = g' :=
  h.exclusive g g' _ (h.guestMaps_recorded hd hm) (by rw [hpage]; exact h.guestMaps_recorded hd' hm')

/-- **Donated pages are isolated.**  In every state reached from setup by donations,
reclaims and guest creations and destructions: a page recorded in the tracker is
recorded for one borrower only, and is not present in the root's EPT; what a live
guest's EPT maps, or its Xen domain was handed, is recorded for that guest.  So no
translation of the root leads into a page a live guest reaches, and no page is reached
by two live guests. -/
theorem reachable_isolation {s : System} (hs : Reachable s) :
    (∀ g g' a, Recorded s.root.donated g a → Recorded s.root.donated g' a → g = g') ∧
    (∀ g a, Recorded s.root.donated g a → s.root.ept.translate a = none) ∧
    (∀ g d, s.guests g = some d → ∀ gpa m, d.ept.translate gpa = some m →
      Recorded s.root.donated g m.hpa) ∧
    (∀ g d, s.guests g = some d → ∀ gpa m, d.rootPages gpa = some m →
      Recorded s.root.donated g m.hpa) ∧
    (∀ g d gpa m a m₀, s.guests g = some d → GuestMaps d gpa m →
      s.root.ept.translate a = some m₀ → m₀.hpa / 4096 ≠ m.hpa / 4096) ∧
    (∀ g g' d d' x y m m', s.guests g = some d → s.guests g' = some d' → GuestMaps d x m →
      GuestMaps d' y m' → m.hpa / 4096 = m'.hpa / 4096 → g = g') := by
  have h := hs.inv
  refine ⟨h.exclusive, h.unmapped, h.guest_ept, h.guest_xen, fun g d gpa m a m₀ hd hm ha hpage => ?_,
    fun _ _ _ _ _ _ _ _ hd hd' hm hm' hpage => h.guestMaps_eq hd hd' hm hm' hpage⟩
  obtain ⟨-, rfl⟩ := h.identity a m₀ ha
  refine h.not_recorded_of_translate ha g ((recorded_page h.wf).mpr ?_)
  rw [show a / 4096 * 4096 = m.hpa / 4096 * 4096 by dsimp only at hpage; omega]
  exact h.guestMaps_recorded hd hm

/-- The state after guest `1` is created and borrows the root's page `0x1000`. -/
theorem reachable_isolation_one_donation :
    Reachable (donateRootPage Raises.never oneGuest 0x1000 1 0x5000 readWriteExecute writeBack).2 ∧
    ∀ g a, Recorded (donateRootPage Raises.never oneGuest 0x1000 1 0x5000 readWriteExecute
      writeBack).2.root.donated g a → (donateRootPage Raises.never oneGuest 0x1000 1 0x5000
        readWriteExecute writeBack).2.root.ept.translate a = none :=
  have hr : Reachable (donateRootPage Raises.never oneGuest 0x1000 1 0x5000 readWriteExecute
      writeBack).2 :=
    .step (.step (.init (by decide) false [] ⟨false, false⟩) (.create ⟨false, false⟩ (by decide) rfl))
      (.donate Raises.never 0x1000 0x5000 readWriteExecute writeBack (by decide))
  ⟨hr, (reachable_isolation hr).2.1⟩

end MicroV

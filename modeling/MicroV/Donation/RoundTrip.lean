import MicroV.Donation.Invariant
import MicroV.Donation.Effects

/-!
# Donating again, and donating then reclaiming

Two relations between calls, in every reachable state:

* **`donateRootPage_again`**: once `donate_root_page` has succeeded, the same call
  for any address of the same page succeeds again and changes nothing: the page is
  recorded for the borrower, so the second call skips the shootdown and the unmap and
  installs the page where it already is;
* **`donate_reclaim_roundtrip`**: a page recorded for no one, donated, then reclaimed
  once its borrower is destroyed, leaves the root's translations and the tracker's
  page sets as they were.
-/

namespace MicroV

open Ept PageRangeSet

variable {s s₁ s₂ : System} {r : Raises} {rootGpa : BitVec 64} {g guestGpa perm mtype : Nat}

/-- After a successful donation the page is recorded for the borrower, and the last
state is what installing the page made. -/
theorem Inv.donate_success (h : Inv s)
    (hd : donateRootPage r s rootGpa g guestGpa perm mtype = (.success, s₁)) :
    s₁.root.id = 0 ∧ Recorded s₁.root.donated g (Bfn.upper rootGpa ptFrom).toNat ∧
      ∃ t, installRootPage t g guestGpa (Bfn.upper rootGpa ptFrom) perm mtype = (.success, s₁) := by
  have hal := upper_ptFrom_aligned rootGpa
  obtain ⟨h0, ⟨hd, hins⟩ | ⟨-, hs, hins⟩⟩ := donateRootPage_success hd
  · have hroot := (installRootPage_guests s g guestGpa perm mtype hal).1
    rw [hins] at hroot
    rw [hroot]
    exact ⟨h0, (pageAlreadyDonatedTo_iff h.wf).mp hd, s, hins⟩
  · have hroot := (installRootPage_guests (donateTry r s rootGpa (Bfn.upper rootGpa ptFrom) g).2 g
      guestGpa perm mtype hal).1
    rw [hins] at hroot
    obtain ⟨-, ⟨hs', -⟩ | ⟨shift, -, -, hr⟩⟩ := donateTry_root r s rootGpa g
    · exact absurd hs hs'
    rw [hroot]
    refine ⟨?_, h.tryBlock_recorded hs, _, hins⟩
    rcases hr with ⟨-, hr⟩ | ⟨-, hr⟩ | ⟨-, hr⟩ <;> rw [hr] <;> exact h0

/-- **Donating a page again changes nothing.**  In a reachable state, after
`donate_root_page` succeeded, the same call for any address of the same page, with
any collaborator able to raise, succeeds and leaves the state as the first call left
it: no shootdown begun, the root's EPT, the tracker and the guests unchanged. -/
theorem donateRootPage_again (hs : Reachable s) {r' : Raises} {rootGpa' : BitVec 64}
    (hd : donateRootPage r s rootGpa g guestGpa perm mtype = (.success, s₁))
    (hpage : rootGpa'.toNat / 4096 = rootGpa.toNat / 4096) :
    donateRootPage r' s₁ rootGpa' g guestGpa perm mtype = (.success, s₁) := by
  have hi := hs.inv
  obtain ⟨h0, hrec, t, hins⟩ := hi.donate_success hd
  have hp : Bfn.upper rootGpa' ptFrom = Bfn.upper rootGpa ptFrom := (upper_eq_iff _ _).mpr hpage
  have hwf := (hi.donate r rootGpa g guestGpa perm mtype).wf
  rw [hd] at hwf
  rw [donateRootPage_of_donated h0 (by rw [hp]; exact (pageAlreadyDonatedTo_iff hwf).mpr hrec), hp]
  exact installRootPage_idem hins

/-- Two calls, the second in a state reached by the first. -/
theorem donateRootPage_again_one_page :
    donateRootPage Raises.never oneGuest 0x1000 1 0x5000 readWriteExecute writeBack =
      (.success, (donateRootPage Raises.never oneGuest 0x1000 1 0x5000 readWriteExecute
        writeBack).2) ∧
    donateRootPage { Raises.never with unmap := true }
        (donateRootPage Raises.never oneGuest 0x1000 1 0x5000 readWriteExecute writeBack).2
        0x1abc 1 0x5000 readWriteExecute writeBack =
      (.success, (donateRootPage Raises.never oneGuest 0x1000 1 0x5000 readWriteExecute
        writeBack).2) :=
  have hd : donateRootPage Raises.never oneGuest 0x1000 1 0x5000 readWriteExecute writeBack =
      (.success, (donateRootPage Raises.never oneGuest 0x1000 1 0x5000 readWriteExecute
        writeBack).2) := Prod.ext (by decide) rfl
  ⟨hd, donateRootPage_again reachable_oneGuest hd (by decide)⟩

/-- **A successful donation of a page no one has** went through the `try` block: it
found the page identity-mapped, unmapped it and recorded it for the borrower. -/
theorem Inv.donate_fresh (h : Inv s)
    (hfree : ∀ g', ¬ Recorded s.root.donated g' (Bfn.upper rootGpa ptFrom).toNat)
    (hd : donateRootPage r s rootGpa g guestGpa perm mtype = (.success, s₁)) :
    ∃ shift, s.root.ept.gpaToHpa (Bfn.upper rootGpa ptFrom).toNat =
        some ((Bfn.upper rootGpa ptFrom).toNat, shift) ∧
      s₁.root = { s.root with ept := unmapConverted s.root.ept rootGpa shift
                              donated := addPageToDonatedRange s.root.donated g
                                (Bfn.upper rootGpa ptFrom) } := by
  obtain ⟨-, ⟨hd', -⟩ | ⟨-, hs, hins⟩⟩ := donateRootPage_success hd
  · exact absurd ((pageAlreadyDonatedTo_iff h.wf).mp hd') (hfree g)
  obtain ⟨-, ⟨hs', -⟩ | ⟨shift, hg, -, hroot⟩⟩ := donateTry_root r s rootGpa g
  · exact absurd hs hs'
  rcases hroot with ⟨hs', -⟩ | ⟨hs', -⟩ | ⟨-, hroot⟩
  · exact absurd hs hs'
  · exact absurd hs hs'
  refine ⟨shift, hg, ?_⟩
  rw [← hroot, ← (installRootPage_guests (donateTry r s rootGpa (Bfn.upper rootGpa ptFrom) g).2 g
    guestGpa perm mtype (upper_ptFrom_aligned rootGpa)).1, hins]

/-- **Donating a page and reclaiming it restores the root and the tracker.**  In a
reachable state, take a page no borrower has (`page_already_donated` is false).  If
`donate_root_page` succeeds on it for guest `g`, `g` is destroyed, and
`reclaim_root_page(g, ·)` on an address of the page succeeds, then the root translates
every address as before (host address, permission and memory type), every borrower has
the pages it had, and `page_already_donated(g, page)` is false. -/
theorem donate_reclaim_roundtrip (hs : Reachable s) {rootGpa' : BitVec 64}
    (hfree : pageAlreadyDonated s.root.donated (Bfn.upper rootGpa ptFrom) = false)
    (hd : donateRootPage r s rootGpa g guestGpa perm mtype = (.success, s₁))
    (hpage : rootGpa'.toNat / 4096 = rootGpa.toNat / 4096)
    (hr : reclaimRootPage (s₁.destroyDomain g) g rootGpa' = (.success, s₂)) :
    (∀ a, s₂.root.ept.translate a = s.root.ept.translate a) ∧
    (∀ g' a, Recorded s₂.root.donated g' a ↔ Recorded s.root.donated g' a) ∧
    pageAlreadyDonatedTo s₂.root.donated g (Bfn.upper rootGpa ptFrom) = false := by
  have hi := hs.inv
  have hal := upper_ptFrom_aligned rootGpa
  have hp : Bfn.upper rootGpa' ptFrom = Bfn.upper rootGpa ptFrom := (upper_eq_iff _ _).mpr hpage
  have hfree' : ∀ g', ¬ Recorded s.root.donated g' (Bfn.upper rootGpa ptFrom).toNat := fun g' hg =>
    absurd ((pageAlreadyDonated_iff hi.wf).mpr ⟨g', hg⟩) (by rw [hfree]; decide)
  obtain ⟨shift, hg, hroot⟩ := hi.donate_fresh hfree' hd
  obtain ⟨m, hm, -⟩ := translate_of_gpaToHpa hg
  have hlt := (hi.identity _ m hm).1
  -- the tracker: the page added, then removed
  obtain ⟨hwfA, hrecA⟩ := addPageToDonatedRange_spec hi.wf hal (by omega) (hfree' g)
  obtain ⟨hwfR, hrecR⟩ := removePageFromDonatedRange_spec hwfA hal (g := g)
  have hrec : ∀ g' a, Recorded (removePageFromDonatedRange (addPageToDonatedRange s.root.donated g
      (Bfn.upper rootGpa ptFrom)) g (Bfn.upper rootGpa ptFrom)) g' a ↔ Recorded s.root.donated g' a := by
    intro g' a
    rw [hrecR, hrecA]
    constructor
    · rintro ⟨hr | hr, hn⟩
      exacts [hr, absurd hr hn]
    · refine fun hr => ⟨.inl hr, fun ⟨_, ha⟩ => hfree' g' ?_⟩
      rwa [recorded_page hi.wf, show a / 4096 * 4096 = (Bfn.upper rootGpa ptFrom).toNat by
        simp only [InPage] at ha; omega] at hr
  -- the reclaim went through and mapped the page back
  rcases reclaimRootPage_eq (s₁.destroyDomain g) g rootGpa' with heq | ⟨-, -, -, ⟨e, hm', heq⟩ | ⟨-, heq⟩⟩
  · rw [hr] at heq; cases heq
  · rw [hr] at heq
    cases heq
    simp only [System.destroyDomain_root, System.setRootEpt_root_ept, System.setDonated_root_donated,
      hroot, hp] at hm' ⊢
    refine ⟨fun a => ?_, hrec, ?_⟩
    · rw [translate_map4k hm', translate_unmapConverted hg (hi.shift_ne hg)]
      split_ifs with ha
      · obtain ⟨m', hm''⟩ := Option.isSome_iff_exists.mp
          (by rw [translate_isSome_page ha, hm]; rfl : (s.root.ept.translate a).isSome)
        rw [hm'', (hi.identity a m' hm'').2]
        exact Mapping.some_eq_of_hpa (by omega)
      · rfl
    · cases hq : pageAlreadyDonatedTo _ g (Bfn.upper rootGpa ptFrom)
      · rfl
      · exact absurd ((hrec g _).mp ((pageAlreadyDonatedTo_iff hwfR).mp hq)) (hfree' g)
  · rw [hr] at heq; cases heq

/-- Page `0x1000` donated to guest `1`, the guest destroyed, and the page reclaimed by
another address in it. -/
theorem donate_reclaim_roundtrip_one_page :
    donateRootPage Raises.never oneGuest 0x1000 1 0x5000 readWriteExecute writeBack =
      (.success, (donateRootPage Raises.never oneGuest 0x1000 1 0x5000 readWriteExecute
        writeBack).2) ∧
    reclaimRootPage ((donateRootPage Raises.never oneGuest 0x1000 1 0x5000 readWriteExecute
        writeBack).2.destroyDomain 1) 1 0x1abc =
      (.success, (reclaimRootPage ((donateRootPage Raises.never oneGuest 0x1000 1 0x5000
        readWriteExecute writeBack).2.destroyDomain 1) 1 0x1abc).2) ∧
    ∀ a, (reclaimRootPage ((donateRootPage Raises.never oneGuest 0x1000 1 0x5000 readWriteExecute
        writeBack).2.destroyDomain 1) 1 0x1abc).2.root.ept.translate a = oneGuest.root.ept.translate a :=
  have hd : donateRootPage Raises.never oneGuest 0x1000 1 0x5000 readWriteExecute writeBack =
      (.success, (donateRootPage Raises.never oneGuest 0x1000 1 0x5000 readWriteExecute
        writeBack).2) := Prod.ext (by decide) rfl
  have hr : reclaimRootPage ((donateRootPage Raises.never oneGuest 0x1000 1 0x5000 readWriteExecute
      writeBack).2.destroyDomain 1) 1 0x1abc =
      (.success, (reclaimRootPage ((donateRootPage Raises.never oneGuest 0x1000 1 0x5000
        readWriteExecute writeBack).2.destroyDomain 1) 1 0x1abc).2) := Prod.ext (by decide) rfl
  ⟨hd, hr, (donate_reclaim_roundtrip reachable_oneGuest (by decide) hd (by decide) hr).1⟩

end MicroV

import MicroV.Donation.Invariant
import MicroV.Donation.Effects

/-!
# Reclaiming all of a borrower's pages at once

`reclaim_root_pages(g)` against `reclaim_root_page(g, p)` called for each page `p`
recorded for `g` (`reclaimEach`), in any order:

* `Inv.reclaimEach_spec`: one page at a time, every call succeeds; the root's EPT goes
  through the `map_4k_rwe` calls `mapList` makes, and the pages are forgotten;
* **`reclaimRootPages_eq_reclaimEach`**: when the borrower does not hold host page
  zero, which callers validate away upstream, the bulk call ends, visits each recorded
  page once, and leaves the root's translations and every borrower's pages as the
  page-by-page reclaim in any order.  A borrower can hold page zero only after a
  caller donated it against that validation, to a non-Xen guest whose `map_4k` then
  refused the zero physical address; there the bulk call raises at its first page and
  changes nothing, while the page-by-page reclaim forgets the page before its
  `map_4k_rwe` raises;
* **`donatedPagesToGuest_iff`**: some page is recorded for a borrower exactly when it
  has a set that is not empty.  `reclaim_root_page` on a borrower's last page leaves
  its set in the map, empty, and `donated_pages_to_guest` still holds
  (`donatedPagesToGuest_after_last_reclaim`).
-/

namespace MicroV

open Ept PageRangeSet

/-- The pages recorded for borrower `g`, in the order `reclaim_root_pages` visits them. -/
def donatedPages (m : DonatedPageMap) (g : Nat) : List (BitVec 64) := ((m.lookup g).getD []).pages

/-- `reclaim_root_page(g, p)` for each page `p` of the list in turn: the statuses it
returns and the last state. -/
def reclaimEach (g : Nat) : System → List (BitVec 64) → List Status × System
  | s, [] => ([], s)
  | s, p :: ps =>
    let t := reclaimRootPage s g p
    let rest := reclaimEach g t.2 ps
    (t.1 :: rest.1, rest.2)

variable {m : DonatedPageMap} {g : Nat}

theorem mem_donatedPages (h : TrackerWf m) {x : BitVec 64} :
    x ∈ donatedPages m g ↔ x.toNat % 4096 = 0 ∧ Recorded m g x.toNat := by
  rw [donatedPages, mem_pages (trackerWf_getD h g), recorded_iff_getD]

theorem donatedPages_nodup (h : TrackerWf m) : (donatedPages m g).Nodup :=
  (pages_increasing (trackerWf_getD h g)).imp fun hab heq => by rw [heq] at hab; omega

/-- An address below `2 ^ 64` is recorded exactly when one of the borrower's pages holds
it. -/
theorem recorded_iff_exists_page (h : TrackerWf m) {a : Nat} (ha : a < 2 ^ 64) :
    Recorded m g a ↔ ∃ q ∈ donatedPages m g, InPage q a := by
  constructor
  · intro hr
    have hq : (BitVec.ofNat 64 (a / 4096 * 4096)).toNat = a / 4096 * 4096 := by
      rw [BitVec.toNat_ofNat]; exact Nat.mod_eq_of_lt (by omega)
    refine ⟨BitVec.ofNat 64 (a / 4096 * 4096), (mem_donatedPages h).mpr ⟨by omega, ?_⟩, ?_⟩
    · rw [hq]; exact (recorded_page h).mp hr
    · simp only [InPage, hq]; omega
  · rintro ⟨q, hq, hin⟩
    obtain ⟨hal, hr⟩ := (mem_donatedPages h).mp hq
    rwa [recorded_page h, show a / 4096 * 4096 = q.toNat by simp only [InPage] at hin; omega]

theorem upper_of_aligned {q : BitVec 64} (h : q.toNat % 4096 = 0) : Bfn.upper q ptFrom = q := by
  rw [BitVec.toNat_eq, upper_ptFrom_toNat]; omega

/-- **Reclaiming recorded pages one at a time**: every call succeeds, the root's EPT
goes through the `map_4k_rwe` calls of `mapList`, and the pages are forgotten. -/
theorem Inv.reclaimEach_spec {s : System} (h : Inv s) (hg : s.guests g = none) {qs : List (BitVec 64)}
    (hnd : qs.Nodup)
    (hq : ∀ q ∈ qs, q.toNat % 4096 = 0 ∧ q.toNat ≠ 0 ∧ Recorded s.root.donated g q.toNat) :
    (reclaimEach g s qs).1 = qs.map (fun _ => .success) ∧ Inv (reclaimEach g s qs).2 ∧
      (reclaimEach g s qs).2.guests = s.guests ∧
      mapList qs s.root.ept = .ok (reclaimEach g s qs).2.root.ept ∧
      ∀ g' a, Recorded (reclaimEach g s qs).2.root.donated g' a ↔
        Recorded s.root.donated g' a ∧ ¬ (g' = g ∧ ∃ q ∈ qs, InPage q a) := by
  induction qs generalizing s with
  | nil => simp [reclaimEach, mapList, h]
  | cons q qs ih =>
    obtain ⟨hal, h0, hrec⟩ := hq q (List.mem_cons_self _ _)
    obtain ⟨e, he⟩ := Option.isSome_iff_exists.mp ((map4kRwe_isSome s.root.ept q).mpr ⟨hal, h0⟩)
    have hd : pageAlreadyDonatedTo s.root.donated g q = true := (pageAlreadyDonatedTo_iff h.wf).mpr hrec
    -- the first call succeeds
    have h1 : reclaimRootPage s g q = (.success, (s.setDonated (removePageFromDonatedRange
        s.root.donated g q)).setRootEpt e) := by
      rcases reclaimRootPage_eq s g q with heq | ⟨-, -, -, ⟨e', hm, heq⟩ | ⟨hm, -⟩⟩
      · simp [reclaimRootPage, h.root_id, hg, upper_of_aligned hal, hd, he] at heq
      · rw [upper_of_aligned hal, he] at hm
        rw [heq, upper_of_aligned hal, Option.some.inj hm]
      · rw [upper_of_aligned hal, he] at hm; cases hm
    have hi₁ : Inv ((s.setDonated (removePageFromDonatedRange s.root.donated g q)).setRootEpt e) := by
      have := h.reclaim g q; rwa [h1] at this
    obtain ⟨-, hrem⟩ := removePageFromDonatedRange_spec (g := g) h.wf hal
    obtain ⟨hs, hi, hgs, hml, hr⟩ := ih hi₁ hg (List.nodup_cons.mp hnd).2 fun q' hq' => by
      obtain ⟨hal', h0', hrec'⟩ := hq q' (List.mem_cons_of_mem _ hq')
      refine ⟨hal', h0', (hrem g _).mpr ⟨hrec', fun ⟨_, hin⟩ => ?_⟩⟩
      have hne : q' ≠ q := fun heq => (List.nodup_cons.mp hnd).1 (heq ▸ hq')
      exact hne (BitVec.eq_of_toNat_eq (by simp only [InPage] at hin; omega))
    simp only [reclaimEach, h1] at hs hi hgs hml hr ⊢
    refine ⟨by rw [hs]; rfl, hi, hgs,
      by simpa only [mapList, he, System.setRootEpt_root_ept] using hml, fun g' a => ?_⟩
    rw [hr, System.setRootEpt_root_donated, System.setDonated_root_donated, hrem]
    constructor
    · rintro ⟨⟨hr, hn⟩, hn'⟩
      refine ⟨hr, fun ⟨hgg, q', hq', hin⟩ => ?_⟩
      rcases List.mem_cons.mp hq' with rfl | hq'
      exacts [hn ⟨hgg, hin⟩, hn' ⟨hgg, q', hq', hin⟩]
    · rintro ⟨hr, hn⟩
      exact ⟨⟨hr, fun ⟨hgg, hin⟩ => hn ⟨hgg, q, List.mem_cons_self _ _, hin⟩⟩,
        fun ⟨hgg, q', hq', hin⟩ => hn ⟨hgg, q', List.mem_cons_of_mem _ hq', hin⟩⟩

variable {s : System}

/-- **Reclaiming all pages at once is reclaiming them one at a time.**  In a reachable
state, let `g` be no live guest.  Its callers donated it no address of page zero:
`map` treats the zero physical address as malformed input, which callers validate
upstream.  The loop of `reclaim_root_pages(g)` ends, and visits the pages
recorded for `g` once each: `mapRanges` maps `mapList` over them, and they repeat
nowhere.  For any order `ps` of those pages, each `reclaim_root_page(g, p)` in turn
succeeds; and the bulk call returns, leaving the root translating every address as the
page-by-page calls leave it, and every borrower with the pages they leave it. -/
theorem reclaimRootPages_eq_reclaimEach (hs : Reachable s) (hg : s.guests g = none)
    (h0 : ¬ Recorded s.root.donated g 0) {ps : List (BitVec 64)}
    (hps : ps.Perm (donatedPages s.root.donated g)) :
    (donatedPages s.root.donated g).Nodup ∧
    (∀ set, s.root.donated.lookup g = some set →
      mapRanges pageLoopFuel set s.root.ept = some (mapList set.pages s.root.ept)) ∧
    ∃ st s₁, reclaimRootPages s g = some (st, s₁) ∧
      (reclaimEach g s ps).1 = ps.map (fun _ => .success) ∧
      (∀ a, s₁.root.ept.translate a = (reclaimEach g s ps).2.root.ept.translate a) ∧
      ∀ g' a, Recorded s₁.root.donated g' a ↔ Recorded (reclaimEach g s ps).2.root.donated g' a := by
  have hi := hs.inv
  have hnz : ∀ q ∈ donatedPages s.root.donated g,
      q.toNat % 4096 = 0 ∧ q.toNat ≠ 0 ∧ Recorded s.root.donated g q.toNat := fun q hq => by
    obtain ⟨hal, hr⟩ := (mem_donatedPages hi.wf).mp hq
    exact ⟨hal, fun h => h0 (h ▸ hr), hr⟩
  have hnd := donatedPages_nodup (g := g) hi.wf
  obtain ⟨hst, -, -, hml, hrec⟩ :=
    hi.reclaimEach_spec hg (hps.nodup_iff.mpr hnd) fun q hq => hnz q (hps.subset hq)
  obtain ⟨e₁, hml₁, htr₁⟩ := mapList_ok (fun q hq => ⟨(hnz q (hps.subset hq)).1,
    (hnz q (hps.subset hq)).2.1⟩) s.root.ept
  rw [hml] at hml₁
  cases Except.ok.inj hml₁
  refine ⟨hnd, fun set hl => mapRanges_eq (hi.wf g set hl) _, ?_⟩
  cases hl : s.root.donated.lookup g with
  | none =>
    have hnil : donatedPages s.root.donated g = [] := by simp [donatedPages, hl, PageRangeSet.pages]
    obtain rfl : ps = [] := List.perm_nil.mp (hnil ▸ hps)
    refine ⟨.failure, s, by simp [reclaimRootPages, hi.root_id, hg, hl], hst, fun a => ?_,
      fun g' a => ?_⟩
    · simp [htr₁]
    · simp [hrec]
  | some set =>
    have hpages : donatedPages s.root.donated g = set.pages := by simp [donatedPages, hl]
    obtain ⟨e₂, hml₂, htr₂⟩ := mapList_ok (fun q hq => ⟨(hnz q (hpages ▸ hq)).1,
      (hnz q (hpages ▸ hq)).2.1⟩) s.root.ept
    refine ⟨.success, (s.setRootEpt e₂).setDonated (s.root.donated.erase g), ?_, hst,
      fun a => ?_, fun g' a => ?_⟩
    · simp [reclaimRootPages, hi.root_id, hg, hl, mapRanges_eq (hi.wf g set hl), hml₂]
    · simp only [System.setDonated_root_ept, System.setRootEpt_root_ept, htr₁, htr₂,
        ← hpages, hps.mem_iff]
    · rw [System.setDonated_root_donated, recorded_erase, hrec]
      by_cases hgg : g' = g
      · subst hgg
        simp only [ne_eq, not_true_eq_false, false_and, true_and, false_iff, not_and, not_not]
        intro hr
        obtain ⟨q, hq, hin⟩ := (recorded_iff_exists_page hi.wf
          (by have := hi.recorded_lt g' a hr; omega)).mp hr
        exact ⟨q, hps.mem_iff.mpr hq, hin⟩
      · simp [hgg]

/-- Page `0x1000` lent to guest `1`, which is then destroyed. -/
def onePageLent : System :=
  ((donateRootPage Raises.never oneGuest 0x1000 1 0x5000 readWriteExecute writeBack).2).destroyDomain 1

theorem reachable_onePageLent : Reachable onePageLent :=
  .step (.step reachable_oneGuest
    (.donate Raises.never 0x1000 0x5000 readWriteExecute writeBack (by decide))) (.destroy 1)

/-- Reclaiming guest `1`'s one page at once, or by itself. -/
theorem reclaimRootPages_one_page :
    onePageLent.guests 1 = none ∧ ¬ Recorded onePageLent.root.donated 1 0 ∧
    [0x1000].Perm (donatedPages onePageLent.root.donated 1) ∧
    ∃ st s₁, reclaimRootPages onePageLent 1 = some (st, s₁) ∧
      ∀ a, s₁.root.ept.translate a = (reclaimEach 1 onePageLent [0x1000]).2.root.ept.translate a := by
  have h0 : ¬ Recorded onePageLent.root.donated 1 0 := by
    rw [recorded_iff_getD]; unfold covers; decide
  have hp : [0x1000].Perm (donatedPages onePageLent.root.donated 1) := by
    rw [show donatedPages onePageLent.root.donated 1 = [0x1000] by decide]
  obtain ⟨-, -, st, s₁, h, -, ht, -⟩ :=
    reclaimRootPages_eq_reclaimEach (g := 1) reachable_onePageLent rfl h0 hp
  exact ⟨rfl, h0, hp, st, s₁, h, ht⟩

/-- Guest `1` handed host page zero against the upstream validation: `map_4k` refuses
the zero physical address, so the donation raises after recording the page; then the
guest is destroyed. -/
def pageZeroLent : System :=
  ((donateRootPage Raises.never oneGuest 0 1 0x5000 readWriteExecute writeBack).2).destroyDomain 1

/-- With page zero lent, `reclaim_root_pages(1)` raises at its first page and leaves the
page recorded, while `reclaim_root_page(1, 0)` forgets the page before its
`map_4k_rwe` raises. -/
example :
    Reachable pageZeroLent ∧ pageZeroLent.guests 1 = none ∧
    donatedPages pageZeroLent.root.donated 1 = [0] ∧
    (reclaimRootPages pageZeroLent 1).map (fun t => (t.1, pageAlreadyDonatedTo t.2.root.donated 1 0)) =
      some (.raised, true) ∧
    (reclaimEach 1 pageZeroLent [0]).1 = [.raised] ∧
    pageAlreadyDonatedTo (reclaimEach 1 pageZeroLent [0]).2.root.donated 1 0 = false :=
  ⟨.step (.step reachable_oneGuest
    (.donate Raises.never 0 0x5000 readWriteExecute writeBack (by decide))) (.destroy 1), rfl,
    by decide⟩

/-! ### Borrowers left with an empty set -/

/-- **Some page is recorded for a borrower exactly when it has a set that is not
empty.**  In every reachable state, `page_already_donated(g, q)` holds for some page `q`
exactly when `donated_pages_to_guest(g)` holds and `g`'s set is not empty.
`reclaim_root_pages` erases the set; `reclaim_root_page` on the last page leaves it
in the map, empty. -/
theorem donatedPagesToGuest_iff {s : System} (hs : Reachable s) (g : Nat) :
    (∃ q, pageAlreadyDonatedTo s.root.donated g q = true) ↔
      donatedPagesToGuest s.root.donated g = true ∧ s.root.donated.lookup g ≠ some [] :=
  exists_pageAlreadyDonatedTo_iff hs.inv.wf

/-- Guest `1` holding page `0x1000`. -/
theorem donatedPagesToGuest_iff_one_page :
    Reachable onePageLent ∧ ((∃ q, pageAlreadyDonatedTo onePageLent.root.donated 1 q = true) ↔
      donatedPagesToGuest onePageLent.root.donated 1 = true ∧
        onePageLent.root.donated.lookup 1 ≠ some []) :=
  ⟨reachable_onePageLent, donatedPagesToGuest_iff reachable_onePageLent 1⟩

/-- Guest `1`'s one page reclaimed by itself: its set is empty and stays in the map, so
`donated_pages_to_guest(1)` holds while `page_already_donated(1, q)` fails for every
page `q`. -/
theorem donatedPagesToGuest_after_last_reclaim :
    Reachable (reclaimRootPage onePageLent 1 0x1000).2 ∧
    donatedPagesToGuest (reclaimRootPage onePageLent 1 0x1000).2.root.donated 1 = true ∧
    ∀ q, pageAlreadyDonatedTo (reclaimRootPage onePageLent 1 0x1000).2.root.donated 1 q = false := by
  have hl : (reclaimRootPage onePageLent 1 0x1000).2.root.donated.lookup 1 = some [] := by decide
  refine ⟨.step reachable_onePageLent (.reclaim 1 0x1000), by rw [donatedPagesToGuest, hl]; rfl,
    fun q => ?_⟩
  rw [pageAlreadyDonatedTo, hl]
  rfl

end MicroV

import MicroV.PageRange.Update

/-!
# The donated-page tracker

`m_donated_page_map` maps each borrower's domain id to its `page_range_set`
(`DonatedPageMap`, an association list with one entry per key, as a `std::map`).
The root keeps it under `m_donated_page_lock`; each function below is one
lock-holding call.

`Recorded m g a` says address `a` lies in a page recorded for borrower `g`, and
`TrackerWf m` that every borrower's set is well formed.  On such a map:

* `pageAlreadyDonatedTo_iff`, `pageAlreadyDonated_iff`: the two
  `page_already_donated` overloads test `Recorded`;
* `exists_pageAlreadyDonatedTo_iff`: some page is recorded for a borrower exactly
  when it has a set that is not empty;
* `addPageToDonatedRange_spec`, `removePageFromDonatedRange_spec`: the two
  mutations record exactly the page for exactly the borrower.

**`trackerRun_refines`** reads a run of adds and removes, as `donate_root_page` and
`reclaim_root_page` make them, as operations on one set of pages per borrower, and
shows the tracker answers every membership query as those sets do, after every step
of every run.  `addPageToDonatedRange_adjacent` is a run after which a borrower
holds two adjacent ranges: a page that fills a one-page gap extends only the range
above it.
-/

namespace MicroV

/-- `m_donated_page_map`: the donated ranges of each borrower. -/
abbrev DonatedPageMap := AList (fun _ : Nat => PageRangeSet)

/-- `page_already_donated(page_gpa)`: some borrower's set holds the address. -/
def pageAlreadyDonated (m : DonatedPageMap) (gpa : BitVec 64) : Bool :=
  m.entries.any fun e => (findPageRange e.2 gpa).isSome

/-- `donated_pages_to_guest(guest_domid)`: the borrower has a set. -/
def donatedPagesToGuest (m : DonatedPageMap) (g : Nat) : Bool := (m.lookup g).isSome

/-- `page_already_donated(guest_domid, page_gpa)`. -/
def pageAlreadyDonatedTo (m : DonatedPageMap) (g : Nat) (gpa : BitVec 64) : Bool :=
  match m.lookup g with
  | none => false
  | some s => (findPageRange s gpa).isSome

/-- `add_page_to_donated_range`: make the borrower an empty set if it has none, then
add the page to it. -/
def addPageToDonatedRange (m : DonatedPageMap) (g : Nat) (gpa : BitVec 64) : DonatedPageMap :=
  m.insert g (addPage ((m.lookup g).getD []) gpa)

/-- Whether `add_page_to_donated_range` allocates: a set for a new borrower, or a
range node. -/
def addAllocates (m : DonatedPageMap) (g : Nat) (gpa : BitVec 64) : Bool :=
  match m.lookup g with
  | none => true
  | some s => addPageAllocates s gpa

/-- `remove_page_from_donated_range`: nothing when the borrower has no set. -/
def removePageFromDonatedRange (m : DonatedPageMap) (g : Nat) (gpa : BitVec 64) :
    DonatedPageMap :=
  match m.lookup g with
  | none => m
  | some s => m.insert g (removePage s gpa)

/-- Address `a` lies in a page recorded for borrower `g`. -/
def Recorded (m : DonatedPageMap) (g : Nat) (a : Nat) : Prop :=
  ∃ s, m.lookup g = some s ∧ s.covers a

/-- Every borrower's set is well formed. -/
def TrackerWf (m : DonatedPageMap) : Prop := ∀ g s, m.lookup g = some s → s.Wf

open PageRangeSet

variable {m : DonatedPageMap} {g : Nat} {gpa : BitVec 64}

theorem recorded_empty (g a : Nat) : ¬ Recorded ∅ g a := by
  simp [Recorded, AList.lookup_empty]

theorem trackerWf_empty : TrackerWf ∅ := by
  simp [TrackerWf, AList.lookup_empty]

/-- The borrower's set, or the empty one `add_page_to_donated_range` would make. -/
theorem recorded_iff_getD : Recorded m g a ↔ ((m.lookup g).getD []).covers a := by
  cases h : m.lookup g <;> simp [Recorded, h]

theorem trackerWf_getD (h : TrackerWf m) (g : Nat) : ((m.lookup g).getD []).Wf := by
  cases hg : m.lookup g with
  | none => exact wf_nil
  | some s => exact h g s hg

/-- A recorded page is recorded whole. -/
theorem recorded_page (h : TrackerWf m) {a : Nat} :
    Recorded m g a ↔ Recorded m g (a / 4096 * 4096) := by
  simp only [Recorded]
  refine exists_congr fun s => and_congr_right fun hs => ?_
  simp only [covers]
  refine exists_congr fun r => and_congr_right fun hr => ?_
  have hw := (h g s hs).range_wf r hr
  have := hw.aligned; have := hw.hi_aligned
  omega

theorem recorded_insert_self (s : PageRangeSet) (a : Nat) :
    Recorded (m.insert g s) g a ↔ s.covers a := by
  simp [Recorded, AList.lookup_insert]

theorem recorded_insert_ne {g' : Nat} (hg : g' ≠ g) (s : PageRangeSet) (a : Nat) :
    Recorded (m.insert g s) g' a ↔ Recorded m g' a := by
  simp [Recorded, AList.lookup_insert_ne hg]

theorem recorded_erase {g' : Nat} {a : Nat} :
    Recorded (m.erase g) g' a ↔ g' ≠ g ∧ Recorded m g' a := by
  by_cases hg : g' = g
  · subst hg; simp [Recorded, AList.lookup_erase]
  · simp [Recorded, AList.lookup_erase_ne hg, hg]

theorem TrackerWf.erase (h : TrackerWf m) (g : Nat) : TrackerWf (m.erase g) := by
  intro g' s hs
  by_cases hg : g' = g
  · subst hg; simp [AList.lookup_erase] at hs
  · rw [AList.lookup_erase_ne hg] at hs; exact h g' s hs

theorem pageAlreadyDonatedTo_iff (h : TrackerWf m) :
    pageAlreadyDonatedTo m g gpa = true ↔ Recorded m g gpa.toNat := by
  unfold pageAlreadyDonatedTo Recorded
  cases hg : m.lookup g with
  | none => simp
  | some s => simp [findPageRange_isSome (h g s hg)]

theorem pageAlreadyDonated_iff (h : TrackerWf m) :
    pageAlreadyDonated m gpa = true ↔ ∃ g, Recorded m g gpa.toNat := by
  simp only [pageAlreadyDonated, List.any_eq_true, Recorded]
  constructor
  · rintro ⟨⟨g, s⟩, he, hf⟩
    have hs : m.lookup g = some s := AList.mem_lookup_iff.mpr he
    exact ⟨g, s, hs, (findPageRange_isSome (h g s hs)).mp hf⟩
  · rintro ⟨g, s, hs, hc⟩
    exact ⟨⟨g, s⟩, AList.mem_lookup_iff.mp hs, (findPageRange_isSome (h g s hs)).mpr hc⟩

/-- Some page is recorded for the borrower exactly when it has a set and the set is not
empty; `donated_pages_to_guest` tests only the first. -/
theorem exists_pageAlreadyDonatedTo_iff (h : TrackerWf m) :
    (∃ q, pageAlreadyDonatedTo m g q = true) ↔
      donatedPagesToGuest m g = true ∧ m.lookup g ≠ some [] := by
  simp only [pageAlreadyDonatedTo_iff h, Recorded, donatedPagesToGuest]
  cases hg : m.lookup g with
  | none => simp
  | some s =>
    simp only [ne_eq, Option.some.injEq, exists_eq_left', Option.isSome_some, true_and]
    constructor
    · rintro ⟨q, r, hr, -⟩ rfl
      cases hr
    · intro hne
      obtain ⟨r, hr⟩ := List.exists_mem_of_ne_nil s hne
      exact ⟨r.start, r, hr, le_refl _, ((h g s hg).range_wf r hr).lo_lt_hi⟩

/-- **`add_page_to_donated_range` records exactly the page, for exactly the
borrower.** -/
theorem addPageToDonatedRange_spec (h : TrackerWf m) (ha : gpa.toNat % 4096 = 0)
    (hlt : gpa.toNat + 4096 < 2 ^ 64) (hn : ¬ Recorded m g gpa.toNat) :
    TrackerWf (addPageToDonatedRange m g gpa) ∧ ∀ g' a,
      Recorded (addPageToDonatedRange m g gpa) g' a ↔ Recorded m g' a ∨ (g' = g ∧ InPage gpa a) := by
  obtain ⟨hwf, hcov⟩ := addPage_spec (trackerWf_getD h g) ha hlt (recorded_iff_getD.not.mp hn)
  refine ⟨fun g' s hs => ?_, fun g' a => ?_⟩
  · by_cases hg : g' = g
    · subst hg
      simp only [addPageToDonatedRange, AList.lookup_insert, Option.some.injEq] at hs
      exact hs ▸ hwf
    · rw [addPageToDonatedRange, AList.lookup_insert_ne hg] at hs
      exact h g' s hs
  · by_cases hg : g' = g
    · subst hg
      rw [addPageToDonatedRange, recorded_insert_self, hcov, ← recorded_iff_getD]
      simp
    · rw [addPageToDonatedRange, recorded_insert_ne hg]
      simp [hg]

/-- **`remove_page_from_donated_range` forgets exactly the page, for exactly the
borrower.** -/
theorem removePageFromDonatedRange_spec (h : TrackerWf m) (ha : gpa.toNat % 4096 = 0) :
    TrackerWf (removePageFromDonatedRange m g gpa) ∧ ∀ g' a,
      Recorded (removePageFromDonatedRange m g gpa) g' a ↔
        Recorded m g' a ∧ ¬ (g' = g ∧ InPage gpa a) := by
  unfold removePageFromDonatedRange
  cases hg : m.lookup g with
  | none =>
    refine ⟨h, fun g' a => ⟨fun hr => ⟨hr, ?_⟩, fun hr => hr.1⟩⟩
    rintro ⟨rfl, -⟩
    obtain ⟨s, hs, -⟩ := hr
    simp [hg] at hs
  | some s =>
    obtain ⟨hwf, hcov⟩ := removePage_spec (h g s hg) ha
    refine ⟨fun g' s' hs => ?_, fun g' a => ?_⟩
    · by_cases hg' : g' = g
      · subst hg'
        simp only [AList.lookup_insert, Option.some.injEq] at hs
        exact hs ▸ hwf
      · rw [AList.lookup_insert_ne hg'] at hs
        exact h g' s' hs
    · by_cases hg' : g' = g
      · subst hg'
        rw [recorded_insert_self, hcov]
        simp [Recorded, hg]
      · rw [recorded_insert_ne hg']
        simp [hg']

/-! ### The tracker refines one set of pages per borrower -/

/-- The pages lent to each borrower. -/
abbrev PageSets := Nat → Finset (BitVec 64)

/-- A run of the tracker from the empty map, paired with the page sets it stands for:
an add of a 4K-aligned page below the top of the address space that
`page_already_donated` does not find (as `donate_root_page` calls it) adds the page
to the borrower's set, and a remove of a 4K-aligned page takes it out. -/
inductive TrackerRun : DonatedPageMap → PageSets → Prop
  | empty : TrackerRun ∅ fun _ => ∅
  | add {m S g gpa} : TrackerRun m S → gpa.toNat % 4096 = 0 → gpa.toNat + 4096 < 2 ^ 64 →
      pageAlreadyDonatedTo m g gpa = false →
      TrackerRun (addPageToDonatedRange m g gpa) (Function.update S g (insert gpa (S g)))
  | remove {m S g gpa} : TrackerRun m S → gpa.toNat % 4096 = 0 →
      TrackerRun (removePageFromDonatedRange m g gpa) (Function.update S g ((S g).erase gpa))

/-- The map and the page sets agree on every address. -/
structure Refines (m : DonatedPageMap) (S : PageSets) : Prop where
  wf : TrackerWf m
  aligned : ∀ g, ∀ p ∈ S g, p.toNat % 4096 = 0
  recorded : ∀ g (q : BitVec 64), Recorded m g q.toNat ↔ Bfn.upper q ptFrom ∈ S g

/-- For an aligned page, being in it is having it as one's page. -/
theorem inPage_iff_upper (ha : gpa.toNat % 4096 = 0) (q : BitVec 64) :
    InPage gpa q.toNat ↔ Bfn.upper q ptFrom = gpa := by
  rw [InPage, BitVec.toNat_eq, upper_ptFrom_toNat]; omega

theorem refines_add {S : PageSets} (h : Refines m S) (ha : gpa.toNat % 4096 = 0)
    (hlt : gpa.toNat + 4096 < 2 ^ 64) (hn : pageAlreadyDonatedTo m g gpa = false) :
    Refines (addPageToDonatedRange m g gpa) (Function.update S g (insert gpa (S g))) := by
  have hn' : ¬ Recorded m g gpa.toNat := by
    rw [← pageAlreadyDonatedTo_iff h.wf]; simp [hn]
  obtain ⟨hwf, hrec⟩ := addPageToDonatedRange_spec h.wf ha hlt hn'
  refine ⟨hwf, fun g' p hp => ?_, fun g' q => ?_⟩
  · by_cases hg : g' = g
    · subst hg
      simp only [Function.update_same, Finset.mem_insert] at hp
      rcases hp with rfl | hp
      exacts [ha, h.aligned _ p hp]
    · rw [Function.update_noteq hg] at hp; exact h.aligned g' p hp
  · rw [hrec, h.recorded, inPage_iff_upper ha]
    by_cases hg : g' = g
    · subst hg; simp [or_comm]
    · simp [Function.update_noteq hg, hg]

theorem refines_remove {S : PageSets} (h : Refines m S) (ha : gpa.toNat % 4096 = 0) :
    Refines (removePageFromDonatedRange m g gpa) (Function.update S g ((S g).erase gpa)) := by
  obtain ⟨hwf, hrec⟩ := removePageFromDonatedRange_spec h.wf ha (g := g)
  refine ⟨hwf, fun g' p hp => ?_, fun g' q => ?_⟩
  · by_cases hg : g' = g
    · subst hg
      simp only [Function.update_same, Finset.mem_erase] at hp
      exact h.aligned _ p hp.2
    · rw [Function.update_noteq hg] at hp; exact h.aligned g' p hp
  · rw [hrec, h.recorded, inPage_iff_upper ha]
    by_cases hg : g' = g
    · subst hg; simp [and_comm]
    · simp [Function.update_noteq hg, hg]

theorem TrackerRun.refines {S : PageSets} (h : TrackerRun m S) : Refines m S := by
  induction h with
  | empty => exact ⟨trackerWf_empty, by simp, fun g q => by simp [recorded_empty]⟩
  | add _ ha hlt hn ih => exact refines_add ih ha hlt hn
  | remove _ ha ih => exact refines_remove ih ha

/-- **The tracker refines one set of pages per borrower.**  After every run of adds
and removes under the conditions `donate_root_page` and `reclaim_root_page` meet,
`page_already_donated(g, q)` holds iff `q`'s page is in `g`'s set,
`page_already_donated(q)` iff it is in some borrower's set, and every borrower's
ranges are in strictly increasing start order, pairwise disjoint (each ends at or
before the next begins), nonempty and 4K-aligned. -/
theorem trackerRun_refines {S : PageSets} (h : TrackerRun m S) :
    (∀ g q, pageAlreadyDonatedTo m g q = true ↔ Bfn.upper q ptFrom ∈ S g) ∧
    (∀ q, pageAlreadyDonated m q = true ↔ ∃ g, Bfn.upper q ptFrom ∈ S g) ∧
    (∀ g s, m.lookup g = some s →
      s.Pairwise (fun x y => x.start < y.start) ∧ s.Pairwise (fun x y => x.hi ≤ y.lo) ∧
      ∀ r ∈ s, 0 < r.count.toNat ∧ r.start.toNat % 4096 = 0) := by
  have hr := h.refines
  refine ⟨fun g q => by rw [pageAlreadyDonatedTo_iff hr.wf, hr.recorded],
    fun q => by simp only [pageAlreadyDonated_iff hr.wf, hr.recorded], fun g s hs => ?_⟩
  have hw := hr.wf g s hs
  refine ⟨hw.sorted.imp_of_mem fun hx _ hxy => ?_, hw.sorted,
    fun r hr => ⟨(hw.range_wf r hr).count_pos, (hw.range_wf r hr).aligned⟩⟩
  have := (hw.range_wf _ hx).lo_lt_hi
  rw [BitVec.lt_def]; simp only [PageRange.lo] at *; omega

theorem trackerRun_refines_two_pages :
    pageAlreadyDonatedTo (addPageToDonatedRange (addPageToDonatedRange ∅ 1 0x1000) 1 0x2000) 1
      0x2abc = true ↔
    Bfn.upper 0x2abc ptFrom ∈ (Function.update (Function.update (fun _ => ∅) 1 {0x1000}) 1
      {0x2000, 0x1000} : PageSets) 1 :=
  (trackerRun_refines (.add (.add .empty (by decide) (by decide) (by decide)) (by decide)
    (by decide) (by decide))).1 1 0x2abc

/-- A run after which a borrower holds two adjacent ranges, `{0x1000, 1}` and
`{0x2000, 2}`: the page `0x2000` fills the gap between `0x1000` and `0x3000` and only
the range above it is extended (`extend_page_range_below`). -/
theorem addPageToDonatedRange_adjacent :
    ∃ S, TrackerRun (addPageToDonatedRange (addPageToDonatedRange
        (addPageToDonatedRange ∅ 1 0x1000) 1 0x3000) 1 0x2000) S ∧
      (addPageToDonatedRange (addPageToDonatedRange
        (addPageToDonatedRange ∅ 1 0x1000) 1 0x3000) 1 0x2000).lookup 1 =
        some [⟨0x1000, 1⟩, ⟨0x2000, 2⟩] :=
  ⟨_, .add (.add (.add .empty (by decide) (by decide) (by decide)) (by decide) (by decide)
    (by decide)) (by decide) (by decide) (by decide), by decide⟩

end MicroV

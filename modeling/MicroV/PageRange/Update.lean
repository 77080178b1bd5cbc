import MicroV.PageRange.Find

/-!
# Adding and removing a page

The two mutations of a borrower's set, on a well-formed set and under the
conditions `donate_root_page` and `reclaim_root_page` call them with (a 4K-aligned
page, not yet in the set when it is added, below the top page of the 64-bit space):

* **`addPage_spec`**: every branch of `add_page_to_donated_range` (a new singleton,
  `extend_page_range_above` on the range below, `extend_page_range_below` on the
  range above) keeps the set well formed and adds exactly the page;
* **`removePage_spec`**: every branch of `remove_page_from_donated_range` (erase,
  shrink from the top or the bottom, split of a middle page into two nonempty
  ranges) keeps the set well formed and removes exactly the page.

The in-place edits change a range's start or count inside the `std::set`; the
proofs show the order by start survives them, which is what keeps `lower_bound`
meaningful afterwards.
-/

namespace MicroV

namespace PageRange

variable {r : PageRange}

theorem count_lt (h : r.hi < 2 ^ 64) : r.count.toNat < 2 ^ 52 := by
  simp only [hi] at h; omega

theorem extendPageRangeAbove_lo : r.extendPageRangeAbove.lo = r.lo := rfl

theorem extendPageRangeAbove_hi (h : r.hi < 2 ^ 64) :
    r.extendPageRangeAbove.hi = r.hi + 4096 := by
  have := count_lt h
  simp only [extendPageRangeAbove, hi, BitVec.toNat_add, BitVec.ofNat_eq_ofNat, BitVec.toNat_ofNat]
  omega

theorem extendPageRangeBelow_lo (h : 4096 ≤ r.lo) : r.extendPageRangeBelow.lo = r.lo - 4096 := by
  simp only [lo] at h
  simp only [extendPageRangeBelow, lo, BitVec.toNat_sub, uvPageSize_toNat]
  omega

theorem extendPageRangeBelow_hi (h : 4096 ≤ r.lo) (h' : r.hi < 2 ^ 64) :
    r.extendPageRangeBelow.hi = r.hi := by
  have := count_lt h'
  simp only [lo] at h
  simp only [extendPageRangeBelow, hi, BitVec.toNat_sub, BitVec.toNat_add, BitVec.ofNat_eq_ofNat,
    BitVec.toNat_ofNat, uvPageSize_toNat]
  omega

variable {gpa : BitVec 64}

/-- The range above a middle page, `{page_gpa + UV_PAGE_SIZE, (limit() - upper_start) >>
UV_PAGE_FROM}`, starts right above the page. -/
theorem upperPart_lo (hg : gpa.toNat + 4096 < 2 ^ 64) (c : BitVec 64) :
    (⟨gpa + uvPageSize, c⟩ : PageRange).lo = gpa.toNat + 4096 := by
  simp only [lo, BitVec.toNat_add, uvPageSize_toNat]; omega

/-- ... and ends where the split range ended. -/
theorem upperPart_hi (h : r.Wf) (hg : gpa.toNat % 4096 = 0) (hmid : gpa.toNat + 4096 < r.hi) :
    (⟨gpa + uvPageSize, (r.limit - (gpa + uvPageSize)) >>> uvPageFrom⟩ : PageRange).hi = r.hi := by
  have := h.hi_aligned; have := h.hi_lt
  show (gpa + uvPageSize).toNat + ((r.limit - (gpa + uvPageSize)) >>> uvPageFrom).toNat * 4096 = r.hi
  simp only [BitVec.toNat_add, BitVec.toNat_sub, BitVec.toNat_ushiftRight, limit_toNat h.hi_lt,
    uvPageSize_toNat, uvPageFrom, Nat.shiftRight_eq_div_pow]
  omega

/-- The range below a middle page, `{start(), (page_gpa - lower_start) >> UV_PAGE_FROM}`,
ends right below the page. -/
theorem lowerPart_hi (h : r.Wf) (hg : gpa.toNat % 4096 = 0) (hlo : r.lo < gpa.toNat) :
    (⟨r.start, (gpa - r.start) >>> uvPageFrom⟩ : PageRange).hi = gpa.toNat := by
  have := h.aligned
  simp only [lo] at hlo this
  simp only [hi, BitVec.toNat_sub, BitVec.toNat_ushiftRight, uvPageFrom, Nat.shiftRight_eq_div_pow]
  omega

theorem shrinkTop_hi (h : 1 ≤ r.count.toNat) :
    ({ r with count := r.count - 1 } : PageRange).hi = r.hi - 4096 := by
  simp only [hi, BitVec.toNat_sub, BitVec.ofNat_eq_ofNat, BitVec.toNat_ofNat]
  omega

theorem shrinkBottom_lo (h : r.hi < 2 ^ 64) (h1 : 2 ≤ r.count.toNat) :
    (⟨r.start + uvPageSize, r.count - 1⟩ : PageRange).lo = r.lo + 4096 := by
  simp only [hi] at h
  simp only [lo, BitVec.toNat_add, uvPageSize_toNat]
  omega

theorem shrinkBottom_hi (h : r.hi < 2 ^ 64) (h1 : 2 ≤ r.count.toNat) :
    (⟨r.start + uvPageSize, r.count - 1⟩ : PageRange).hi = r.hi := by
  simp only [hi] at h
  simp only [hi, BitVec.toNat_add, BitVec.toNat_sub, uvPageSize_toNat, BitVec.ofNat_eq_ofNat,
    BitVec.toNat_ofNat]
  omega

end PageRange

namespace PageRangeSet

variable {s b a : PageRangeSet} {r : PageRange} {gpa : BitVec 64}

/-- The addresses of the 4K page at `gpa`. -/
def InPage (gpa : BitVec 64) (x : Nat) : Prop := gpa.toNat ≤ x ∧ x < gpa.toNat + 4096

theorem Wf.covers_before (h : Wf (b ++ r :: a)) {x : Nat} (hx : covers b x) : x < r.lo := by
  obtain ⟨y, hy, hc⟩ := hx
  have := h.around.1 y hy; omega

theorem Wf.covers_after (h : Wf (b ++ r :: a)) {x : Nat} (hx : covers a x) : r.hi ≤ x := by
  obtain ⟨y, hy, hc⟩ := hx
  have := h.around.2 y hy; omega

/-! ### Adding a page -/

/-- `s'` is `s` with the page at `gpa` added, and well formed. -/
def AddsPage (s s' : PageRangeSet) (gpa : BitVec 64) : Prop :=
  Wf s' ∧ ∀ x, covers s' x ↔ covers s x ∨ InPage gpa x

/-- A new singleton range, inserted by `emplace`. -/
theorem addsPage_emplace (hs : Wf s) (ha : gpa.toNat % 4096 = 0)
    (hlt : gpa.toNat + 4096 < 2 ^ 64) (hn : ¬ covers s gpa.toNat) :
    AddsPage s (emplace ⟨gpa, 1⟩ s) gpa := by
  have hr : PageRange.Wf ⟨gpa, 1⟩ := ⟨by simp, ha, by simpa [PageRange.hi] using hlt⟩
  obtain ⟨hwf, hcov⟩ := hs.emplace hr fun x hx => by
    have := hs.apart_page ha hn x hx
    simp only [Apart, PageRange.lo, PageRange.hi] at this ⊢
    simpa using this
  refine ⟨hwf, fun x => ?_⟩
  rw [hcov]
  simp only [InPage, PageRange.lo, PageRange.hi, BitVec.ofNat_eq_ofNat, BitVec.toNat_ofNat]
  exact or_comm

/-- Replacing the range `r` by `r'`, which holds `r`'s addresses and the page. -/
theorem addsPage_replace (hs : Wf (b ++ r :: a)) {r' : PageRange} (hr' : r'.Wf)
    (hb : ∀ x ∈ b, x.hi ≤ r'.lo) (ha : ∀ x ∈ a, r'.hi ≤ x.lo)
    (hcov : ∀ x, (r'.lo ≤ x ∧ x < r'.hi) ↔ (r.lo ≤ x ∧ x < r.hi) ∨ InPage gpa x) :
    AddsPage (b ++ r :: a) (b ++ r' :: a) gpa := by
  refine ⟨hs.replace hr' hb ha, fun x => ?_⟩
  simp only [covers_append, covers_cons, hcov]
  exact (or_congr_right or_right_comm).trans or_assoc.symm

/-- The branch through `std::prev` of the iterator. -/
theorem addsPage_extendAboveOrEmplace {before after : PageRangeSet}
    (hs : Wf (before ++ after)) (ha : gpa.toNat % 4096 = 0) (hlt : gpa.toNat + 4096 < 2 ^ 64)
    (hn : ¬ covers (before ++ after) gpa.toNat) (hafter : ∀ x ∈ after, gpa.toNat + 4096 ≤ x.lo) :
    AddsPage (before ++ after) (extendAboveOrEmplace (before ++ after) before after gpa) gpa := by
  unfold extendAboveOrEmplace
  split
  · rename_i q hq
    have hsplit := List.dropLast_append_getLast? q hq
    have hs' : Wf (before.dropLast ++ q :: after) := by
      rw [← hsplit, List.append_assoc] at hs; exact hs
    have hq := hs.range_wf q (by rw [← hsplit]; simp)
    split_ifs with hc
    · rw [PageRange.contiguousBelow_iff hq.hi_lt] at hc
      have hsame : before ++ after = before.dropLast ++ q :: after := by
        conv_lhs => rw [← hsplit]
        simp
      rw [hsame]
      have hhi := PageRange.extendPageRangeAbove_hi hq.hi_lt
      refine addsPage_replace hs' ⟨?_, hq.aligned, by omega⟩ ?_ ?_ ?_
      · have := PageRange.count_lt hq.hi_lt
        simp only [PageRange.extendPageRangeAbove, BitVec.toNat_add, BitVec.ofNat_eq_ofNat,
          BitVec.toNat_ofNat]
        omega
      · exact fun x hx => hs'.around.1 x hx
      · intro x hx; have := hafter x hx; omega
      · intro x
        simp only [PageRange.extendPageRangeAbove_lo, InPage]
        have := hq.lo_lt_hi
        omega
    · exact addsPage_emplace hs ha hlt hn
  · exact addsPage_emplace hs ha hlt hn

/-- **`add_page_to_donated_range` adds exactly the page** to a well-formed set, and
the set stays well formed. -/
theorem addPage_spec (hs : Wf s) (ha : gpa.toNat % 4096 = 0) (hlt : gpa.toNat + 4096 < 2 ^ 64)
    (hn : ¬ covers s gpa.toNat) : AddsPage s (addPage s gpa) gpa := by
  unfold addPage
  split_ifs with he
  · exact addsPage_emplace hs ha hlt hn
  have hls := lowerBound_append s gpa
  have hl := lowerBound_fst_lt (s := s) gpa
  have hr := lowerBound_snd_ge hs gpa
  rcases hlb : lowerBound s gpa with ⟨before, rest⟩
  rw [hlb] at hls hl hr
  subst hls
  cases rest with
  | nil => exact addsPage_extendAboveOrEmplace hs ha hlt hn (by simp)
  | cons r after =>
    have hrw := hs.range_wf r (by simp)
    have hr0 := hr r (by simp)
    have hrap := hs.apart_page ha hn r (by simp)
    have := hrw.lo_lt_hi
    have hgap : gpa.toNat + 4096 ≤ r.lo := by omega
    simp only
    split_ifs with hc
    · rw [PageRange.contiguousAbove_iff hlt] at hc
      have hlo := PageRange.extendPageRangeBelow_lo (r := r) (by omega)
      have hhi := PageRange.extendPageRangeBelow_hi (r := r) (by omega) hrw.hi_lt
      refine addsPage_replace hs ⟨?_, ?_, by rw [hhi]; exact hrw.hi_lt⟩ ?_ ?_ ?_
      · have := PageRange.count_lt hrw.hi_lt
        simp only [PageRange.extendPageRangeBelow, BitVec.toNat_add, BitVec.ofNat_eq_ofNat,
          BitVec.toNat_ofNat]
        omega
      · rw [hlo]; have := hrw.aligned; omega
      · intro x hx
        have := hs.apart_page ha hn x (by simp [hx])
        have := hl x hx
        omega
      · intro x hx; rw [hhi]; exact hs.around.2 x hx
      · intro x; simp only [InPage]; omega
    · refine addsPage_extendAboveOrEmplace hs ha hlt hn fun x hx => ?_
      rcases List.mem_cons.mp hx with rfl | hx
      · exact hgap
      · have := hs.around (b := before) (a := after) |>.2 x hx
        omega

/-! ### Removing a page -/

/-- `s'` is `s` with the page at `gpa` taken out, and well formed. -/
def RemovesPage (s s' : PageRangeSet) (gpa : BitVec 64) : Prop :=
  Wf s' ∧ ∀ x, covers s' x ↔ covers s x ∧ ¬ InPage gpa x

theorem covers_around (b a : PageRangeSet) (r : PageRange) :
    ∀ x, covers (b ++ r :: a) x ↔ covers b x ∨ (r.lo ≤ x ∧ x < r.hi) ∨ covers a x := by
  simp only [covers_append, covers_cons, implies_true]

/-- Taking the page out of the range `r` of a well-formed set, when what is left in
its place holds `r`'s addresses but the page's. -/
theorem removesPage_of (hs : Wf (b ++ r :: a)) {s' : PageRangeSet} (hwf : Wf s')
    (ha : gpa.toNat % 4096 = 0) (hg : r.lo ≤ gpa.toNat ∧ gpa.toNat < r.hi) {P : Nat → Prop}
    (hcov : ∀ x, covers s' x ↔ covers b x ∨ P x ∨ covers a x)
    (hP : ∀ x, P x ↔ (r.lo ≤ x ∧ x < r.hi) ∧ ¬ InPage gpa x) :
    RemovesPage (b ++ r :: a) s' gpa := by
  have hr := hs.range_wf r (by simp)
  have := hr.hi_aligned; have := hr.lo_lt_hi
  refine ⟨hwf, fun x => ?_⟩
  have h1 := fun hx => hs.covers_before (x := x) hx
  have h2 := fun hx => hs.covers_after (x := x) hx
  rw [hcov, hP, covers_append, covers_cons]
  simp only [InPage] at *
  constructor
  · rintro (hx | hx | hx)
    · exact ⟨.inl hx, by have := h1 hx; omega⟩
    · exact ⟨.inr (.inl hx.1), hx.2⟩
    · exact ⟨.inr (.inr hx), by have := h2 hx; omega⟩
  · rintro ⟨hx | hx | hx, hn⟩
    · exact .inl hx
    · exact .inr (.inl ⟨hx, hn⟩)
    · exact .inr (.inr hx)

/-- When no range holds the page, the set holds none of its addresses. -/
theorem not_covers_page (hs : Wf s) (ha : gpa.toNat % 4096 = 0) (hn : ¬ covers s gpa.toNat)
    {x : Nat} (hx : covers s x) : ¬ InPage gpa x := by
  obtain ⟨y, hy, hc⟩ := hx
  have := hs.apart_page ha hn y hy
  simp only [InPage]; omega

/-- A middle page splits its range into the ranges below and above it. -/
theorem removesPage_split (hs : Wf (b ++ r :: a)) (ha : gpa.toNat % 4096 = 0)
    (hmid : r.lo < gpa.toNat ∧ gpa.toNat + 4096 < r.hi) :
    RemovesPage (b ++ r :: a)
      (emplace ⟨r.start, (gpa - r.start) >>> uvPageFrom⟩
        (emplace ⟨gpa + uvPageSize, (r.limit - (gpa + uvPageSize)) >>> uvPageFrom⟩ (b ++ a))) gpa := by
  have hrw := hs.range_wf r (by simp)
  have := hrw.hi_lt
  have hul := PageRange.upperPart_lo (show gpa.toNat + 4096 < 2 ^ 64 by omega)
    ((r.limit - (gpa + uvPageSize)) >>> uvPageFrom)
  have huh := PageRange.upperPart_hi hrw ha hmid.2
  have hlh := PageRange.lowerPart_hi hrw ha hmid.1
  have hupper := PageRange.wf_of (r := ⟨gpa + uvPageSize, (r.limit - (gpa + uvPageSize)) >>> uvPageFrom⟩)
    (by omega) (by omega) (by omega)
  have hlower := PageRange.wf_of (r := ⟨r.start, (gpa - r.start) >>> uvPageFrom⟩)
    (by show r.lo < _; omega) hrw.aligned (by omega)
  obtain ⟨hw1, hc1⟩ := hs.erase.emplace hupper fun x hx => by
    rcases List.mem_append.mp hx with hx | hx
    · have := hs.around.1 x hx; exact .inl (by omega)
    · have := hs.around.2 x hx; exact .inr (by omega)
  obtain ⟨hw2, hc2⟩ := hw1.emplace hlower fun x hx => by
    rcases mem_emplace hx with rfl | hx
    · exact .inr (by rw [hlh, hul]; omega)
    rcases List.mem_append.mp hx with hx | hx
    · exact .inl (hs.around.1 x hx)
    · have := hs.around.2 x hx; exact .inr (by omega)
  have hll : (⟨r.start, (gpa - r.start) >>> uvPageFrom⟩ : PageRange).lo = r.lo := rfl
  refine removesPage_of hs hw2 ha ⟨by omega, by omega⟩
    (P := fun x => (r.lo ≤ x ∧ x < gpa.toNat) ∨ (gpa.toNat + 4096 ≤ x ∧ x < r.hi))
    (fun x => ?_) fun x => ?_
  · rw [hc2, hc1, covers_append, hul, huh, hlh, hll]
    constructor
    · rintro (h | h | h | h)
      exacts [.inr (.inl (.inl h)), .inr (.inl (.inr h)), .inl h, .inr (.inr h)]
    · rintro (h | (h | h) | h)
      exacts [.inr (.inr (.inl h)), .inl h, .inr (.inl h), .inr (.inr (.inr h))]
  · simp only [InPage]; omega

/-- The only page of its range: the range is erased. -/
theorem removesPage_erase (hs : Wf (b ++ r :: a)) (ha : gpa.toNat % 4096 = 0)
    (htop : gpa.toNat + 4096 = r.hi) (hone : r.count.toNat = 1) :
    RemovesPage (b ++ r :: a) (b ++ a) gpa := by
  have hcount : r.hi = r.lo + r.count.toNat * 4096 := rfl
  refine removesPage_of hs hs.erase ha ⟨by omega, by omega⟩ (P := fun _ => False) (by simp)
    fun x => ?_
  simp only [InPage, false_iff, not_and, not_not]; omega

/-- The top page of a longer range: `m_page_count--`. -/
theorem removesPage_shrinkTop (hs : Wf (b ++ r :: a)) (ha : gpa.toNat % 4096 = 0)
    (htop : gpa.toNat + 4096 = r.hi) (hone : r.count.toNat ≠ 1) :
    RemovesPage (b ++ r :: a) (b ++ { r with count := r.count - 1 } :: a) gpa := by
  have hrw := hs.range_wf r (by simp)
  have := hrw.count_pos; have := hrw.hi_lt
  have hcount : r.hi = r.lo + r.count.toNat * 4096 := rfl
  have hhi := PageRange.shrinkTop_hi (r := r) (by omega)
  refine removesPage_of hs (hs.replace (PageRange.wf_of (by show r.lo < _; omega) hrw.aligned
    (by omega)) hs.around.1 ?_) ha ⟨by omega, by omega⟩ (covers_around b a _) fun x => ?_
  · intro x hx; have := hs.around.2 x hx; rw [hhi]; omega
  · rw [hhi]; show (r.lo ≤ x ∧ _) ↔ _; simp only [InPage]; omega

/-- The bottom page of a longer range: `m_page_start += UV_PAGE_SIZE; m_page_count--`. -/
theorem removesPage_shrinkBottom (hs : Wf (b ++ r :: a)) (ha : gpa.toNat % 4096 = 0)
    (hbot : gpa.toNat = r.lo) (hone : r.count.toNat ≠ 1) :
    RemovesPage (b ++ r :: a) (b ++ ⟨r.start + uvPageSize, r.count - 1⟩ :: a) gpa := by
  have hrw := hs.range_wf r (by simp)
  have := hrw.count_pos; have := hrw.hi_lt; have := hrw.aligned
  have hcount : r.hi = r.lo + r.count.toNat * 4096 := rfl
  have hlo := PageRange.shrinkBottom_lo hrw.hi_lt (by omega)
  have hhi := PageRange.shrinkBottom_hi hrw.hi_lt (by omega)
  refine removesPage_of hs (hs.replace (PageRange.wf_of (by omega) (by omega) (by omega))
    ?_ ?_) ha ⟨by omega, by omega⟩ (covers_around b a _) fun x => ?_
  · intro x hx; have := hs.around.1 x hx; omega
  · intro x hx; rw [hhi]; exact hs.around.2 x hx
  · rw [hlo, hhi]; simp only [InPage]; omega

/-- **`remove_page_from_donated_range` removes exactly the page** from a well-formed
set, and the set stays well formed: a middle page splits its range into two nonempty
ranges. -/
theorem removePage_spec (hs : Wf s) (ha : gpa.toNat % 4096 = 0) :
    RemovesPage s (removePage s gpa) gpa := by
  unfold removePage
  split
  · rename_i hf
    have hn : ¬ covers s gpa.toNat := fun hc => by
      simpa [hf] using (findPageRange_isSome hs).mpr hc
    exact ⟨hs, fun x => ⟨fun hx => ⟨hx, not_covers_page hs ha hn hx⟩, fun hx => hx.1⟩⟩
  rename_i before r after hf
  obtain ⟨hset, hc⟩ := findPageRange_some hf
  simp only [PageRangeIterator.toSet] at hset
  subst hset
  have hrw := hs.range_wf r (by simp)
  have hone : r.count = 1 ↔ r.count.toNat = 1 :=
    ⟨fun h => by rw [h]; rfl, fun h => BitVec.eq_of_toNat_eq (by rw [h]; rfl)⟩
  split_ifs with htop hc1 hmid hbot hc1'
  · exact removesPage_erase hs ha ((PageRange.topPage_iff hrw).mp htop) (hone.mp hc1)
  · exact removesPage_shrinkTop hs ha ((PageRange.topPage_iff hrw).mp htop) (hone.not.mp hc1)
  · exact removesPage_split hs ha ((PageRange.middlePage_iff hrw).mp hmid)
  · -- the bottom page of a one-page range is its top page, handled above
    rw [PageRange.topPage_iff hrw] at htop
    rw [PageRange.bottomPage_iff] at hbot
    have := hone.mp hc1'
    have hcount : r.hi = r.lo + r.count.toNat * 4096 := rfl
    omega
  · exact removesPage_shrinkBottom hs ha (PageRange.bottomPage_iff.mp hbot) (hone.not.mp hc1')
  · -- an aligned page of the range is its bottom, its top, or in its middle
    rw [PageRange.contains_iff hrw.hi_lt] at hc
    rw [PageRange.topPage_iff hrw] at htop
    rw [PageRange.middlePage_iff hrw] at hmid
    rw [PageRange.bottomPage_iff] at hbot
    have := hrw.aligned; have := hrw.hi_aligned
    omega

end PageRangeSet

end MicroV

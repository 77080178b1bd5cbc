import MicroV.PageRange

/-!
# Well-formed range sets and `find_page_range`

The code reads a range through its 64-bit `start` and `limit()`.  For the proofs a
range is read as the numbers `lo` and `hi`: `hi` is `limit()` without wrapping, and
a range is **well formed** (`PageRange.Wf`) when it is nonempty, 4K-aligned and ends
below `2^64`, so that `limit().toNat = hi` (`limit_toNat`).  A set is well formed
(`PageRangeSet.Wf`) when its ranges are, in increasing order with each ending at or
below the start of the next.  `PageRangeSet.covers s a` says address `a` lies in a
range of `s`.

* `contains_iff` and its siblings turn the methods of `page_range` into arithmetic.
* `lowerBound_fst_lt`, `lowerBound_snd_ge`: `lower_bound` splits the set into the
  ranges starting below the address and those starting at or above it.
* `Wf.emplace`: inserting a range disjoint from the set keeps it well formed and
  adds exactly the range's addresses.
* `findPageRange_some`, **`findPageRange_isSome`**: on a well-formed set,
  `find_page_range` returns an iterator into the set at a range holding the
  address, and it returns one exactly when some range holds the address.
-/

namespace MicroV

namespace PageRange

/-- The range's first address. -/
def lo (r : PageRange) : Nat := r.start.toNat

/-- The address just above the range, without wrapping. -/
def hi (r : PageRange) : Nat := r.start.toNat + r.count.toNat * 4096

/-- A range as the tracker keeps it: nonempty, 4K-aligned, below `2^64`. -/
structure Wf (r : PageRange) : Prop where
  count_pos : 0 < r.count.toNat
  aligned : r.lo % 4096 = 0
  hi_lt : r.hi < 2 ^ 64

variable {r : PageRange} {gpa : BitVec 64}

theorem Wf.lo_lt_hi (h : r.Wf) : r.lo < r.hi := by
  have := h.count_pos; simp only [lo, hi]; omega

/-- A range is well formed when it ends above its aligned start and below `2^64`. -/
theorem wf_of (hlo : r.lo < r.hi) (ha : r.lo % 4096 = 0) (hh : r.hi < 2 ^ 64) : r.Wf :=
  ⟨by simp only [lo, hi] at hlo; omega, ha, hh⟩

theorem limit_toNat (h : r.hi < 2 ^ 64) : r.limit.toNat = r.hi := by
  simp only [hi] at h
  simp only [limit, hi, BitVec.toNat_add, BitVec.toNat_shiftLeft, uvPageFrom, Nat.shiftLeft_eq]
  omega

theorem limit_toNat_le (r : PageRange) : r.limit.toNat ≤ r.hi := by
  simp only [limit, hi, BitVec.toNat_add, BitVec.toNat_shiftLeft, uvPageFrom, Nat.shiftLeft_eq]
  omega

theorem contains_iff (h : r.hi < 2 ^ 64) :
    r.contains gpa = true ↔ r.lo ≤ gpa.toNat ∧ gpa.toNat < r.hi := by
  simp [contains, BitVec.le_def, BitVec.lt_def, limit_toNat h, lo]

theorem contiguousBelow_iff (h : r.hi < 2 ^ 64) :
    r.contiguousBelow gpa = true ↔ r.hi = gpa.toNat := by
  simp [contiguousBelow, BitVec.toNat_eq, limit_toNat h]

theorem contiguousAbove_iff (h : gpa.toNat + 4096 < 2 ^ 64) :
    r.contiguousAbove gpa = true ↔ gpa.toNat + 4096 = r.lo := by
  simp only [contiguousAbove, beq_iff_eq, BitVec.toNat_eq, BitVec.toNat_add, uvPageSize_toNat, lo]
  omega

theorem topPage_iff (h : r.Wf) : r.topPage gpa = true ↔ gpa.toNat + 4096 = r.hi := by
  have := h.lo_lt_hi; have := h.aligned; have := h.hi_lt
  simp only [lo, hi] at *
  simp only [topPage, beq_iff_eq, BitVec.toNat_eq, BitVec.toNat_sub, limit_toNat h.hi_lt,
    uvPageSize_toNat, hi]
  omega

theorem bottomPage_iff : r.bottomPage gpa = true ↔ gpa.toNat = r.lo := by
  simp [bottomPage, BitVec.toNat_eq, lo]

theorem middlePage_iff (h : r.Wf) :
    r.middlePage gpa = true ↔ r.lo < gpa.toNat ∧ gpa.toNat + 4096 < r.hi := by
  have := h.lo_lt_hi; have := h.aligned; have := h.hi_lt
  simp only [lo, hi] at *
  simp only [middlePage, Bool.and_eq_true, decide_eq_true_eq, BitVec.lt_def, BitVec.toNat_sub,
    limit_toNat h.hi_lt, uvPageSize_toNat, hi]
  omega

/-- The range's addresses are the 4K pages from `lo` to `hi`, so a whole page is in
or out. -/
theorem Wf.hi_aligned (h : r.Wf) : r.hi % 4096 = 0 := by
  have := h.aligned; simp only [lo, hi] at *; omega

end PageRange

namespace PageRangeSet

/-- The address lies in one of the set's ranges. -/
def covers (s : PageRangeSet) (a : Nat) : Prop := ∃ r ∈ s, r.lo ≤ a ∧ a < r.hi

/-- What the tracker keeps true of a borrower's set: every range well formed, in
increasing order, each ending at or below the start of the next. -/
structure Wf (s : PageRangeSet) : Prop where
  range_wf : ∀ r ∈ s, r.Wf
  sorted : s.Pairwise (fun a b => a.hi ≤ b.lo)

@[simp] theorem covers_nil (a : Nat) : covers [] a ↔ False := by simp [covers]

@[simp] theorem covers_cons (r : PageRange) (s : PageRangeSet) (a : Nat) :
    covers (r :: s) a ↔ (r.lo ≤ a ∧ a < r.hi) ∨ covers s a := by simp [covers]

@[simp] theorem covers_append (s t : PageRangeSet) (a : Nat) :
    covers (s ++ t) a ↔ covers s a ∨ covers t a := by
  simp only [covers, List.mem_append]
  constructor
  · rintro ⟨r, hr | hr, h⟩
    · exact .inl ⟨r, hr, h⟩
    · exact .inr ⟨r, hr, h⟩
  · rintro (⟨r, hr, h⟩ | ⟨r, hr, h⟩)
    · exact ⟨r, .inl hr, h⟩
    · exact ⟨r, .inr hr, h⟩

@[simp] theorem wf_nil : Wf [] := ⟨by simp, .nil⟩

variable {s b a : PageRangeSet} {r r' : PageRange} {gpa : BitVec 64}

theorem Wf.sublist (h : Wf s) (hsub : b.Sublist s) : Wf b :=
  ⟨fun x hx => h.range_wf x (hsub.subset hx), h.sorted.sublist hsub⟩

/-- Where a range sits in a well-formed set: every range before it ends below it,
every range after it starts above it. -/
theorem Wf.around (h : Wf (b ++ r :: a)) :
    (∀ x ∈ b, x.hi ≤ r.lo) ∧ ∀ x ∈ a, r.hi ≤ x.lo := by
  have hs := h.sorted
  rw [List.pairwise_append, List.pairwise_cons] at hs
  exact ⟨fun x hx => hs.2.2 x hx r (by simp), hs.2.1.1⟩

theorem Wf.erase (h : Wf (b ++ r :: a)) : Wf (b ++ a) :=
  h.sublist (List.Sublist.append_left (List.sublist_cons_self r a) b)

/-- Replacing a range by one that still fits between its neighbours. -/
theorem Wf.replace (h : Wf (b ++ r :: a)) (hr' : r'.Wf) (hb : ∀ x ∈ b, x.hi ≤ r'.lo)
    (ha : ∀ x ∈ a, r'.hi ≤ x.lo) : Wf (b ++ r' :: a) := by
  have hs := h.sorted
  rw [List.pairwise_append, List.pairwise_cons] at hs
  refine ⟨fun x hx => ?_, ?_⟩
  · rcases List.mem_append.mp hx with hx | hx
    · exact h.range_wf x (by simp [hx])
    · rcases List.mem_cons.mp hx with rfl | hx
      · exact hr'
      · exact h.range_wf x (by simp [hx])
  · rw [List.pairwise_append, List.pairwise_cons]
    refine ⟨hs.1, ⟨ha, hs.2.1.2⟩, fun x hx y hy => ?_⟩
    rcases List.mem_cons.mp hy with rfl | hy
    · exact hb x hx
    · exact hs.2.2 x hx y (by simp [hy])

/-- Two well-formed ranges that do not overlap. -/
def Apart (x y : PageRange) : Prop := x.hi ≤ y.lo ∨ y.hi ≤ x.lo

/-- **`emplace` of a range apart from every range of the set** inserts it, keeps the
set well formed, and adds exactly its addresses. -/
theorem Wf.emplace (h : Wf s) (hr : r.Wf) (hap : ∀ x ∈ s, Apart x r) :
    Wf (emplace r s) ∧ ∀ x, covers (emplace r s) x ↔ (r.lo ≤ x ∧ x < r.hi) ∨ covers s x := by
  induction s with
  | nil =>
    exact ⟨⟨by simpa [MicroV.emplace] using hr, by simp [MicroV.emplace]⟩, by simp [MicroV.emplace]⟩
  | cons q qs ih =>
    have hq := h.range_wf q (by simp)
    have hsorted := List.pairwise_cons.mp h.sorted
    have hqs : Wf qs := ⟨fun x hx => h.range_wf x (by simp [hx]), hsorted.2⟩
    have hrq := hap q (by simp)
    have := hr.lo_lt_hi; have := hq.lo_lt_hi
    simp only [Apart] at hrq
    by_cases hlt : r.start < q.start
    · have hlt' : r.lo < q.lo := by simpa [BitVec.lt_def, PageRange.lo] using hlt
      simp only [MicroV.emplace, if_pos hlt]
      refine ⟨⟨fun x hx => ?_, List.Pairwise.cons (fun x hx => ?_) h.sorted⟩, fun x => ?_⟩
      · rcases List.mem_cons.mp hx with rfl | hx
        · exact hr
        · exact h.range_wf x hx
      · rcases List.mem_cons.mp hx with rfl | hx
        · omega
        · have := hsorted.1 x hx; omega
      · simp only [covers_cons]
    · have hgt : q.lo < r.lo := by
        have : q.lo ≤ r.lo := by simpa [BitVec.lt_def, PageRange.lo] using hlt
        omega
      have hgt' : q.start < r.start := by simpa [BitVec.lt_def, PageRange.lo] using hgt
      obtain ⟨hwf, hcov⟩ := ih hqs (fun x hx => hap x (by simp [hx]))
      simp only [MicroV.emplace, if_neg hlt, if_pos hgt']
      refine ⟨⟨fun x hx => ?_, List.Pairwise.cons (fun x hx => ?_) hwf.sorted⟩, fun x => ?_⟩
      · rcases List.mem_cons.mp hx with rfl | hx
        · exact hq
        · exact hwf.range_wf x hx
      · have hx' := (hcov x.lo).mp ⟨x, hx, le_refl _, (hwf.range_wf x hx).lo_lt_hi⟩
        rcases hx' with hx' | ⟨y, hy, hy'⟩
        · omega
        · have := hsorted.1 y hy; omega
      · simp only [covers_cons, hcov]; exact or_left_comm

theorem mem_emplace {x : PageRange} (hx : x ∈ emplace r s) : x = r ∨ x ∈ s := by
  induction s with
  | nil => simpa [MicroV.emplace] using hx
  | cons q qs ih =>
    simp only [MicroV.emplace] at hx
    split_ifs at hx
    · simpa using hx
    · rcases List.mem_cons.mp hx with rfl | hx
      · simp
      · rcases ih hx with h | h <;> simp [h]
    · exact .inr hx

/-- An aligned page that no range holds lies wholly below or above each range. -/
theorem Wf.apart_page (h : Wf s) (ha : gpa.toNat % 4096 = 0) (hn : ¬ covers s gpa.toNat) :
    ∀ x ∈ s, x.hi ≤ gpa.toNat ∨ gpa.toNat + 4096 ≤ x.lo := by
  intro x hx
  have hxa := (h.range_wf x hx).aligned
  have hxh := (h.range_wf x hx).hi_aligned
  have : ¬ (x.lo ≤ gpa.toNat ∧ gpa.toNat < x.hi) := fun hc => hn ⟨x, hx, hc⟩
  simp only [PageRange.lo] at *
  omega

/-! ### `lower_bound` -/

theorem lowerBound_append (s : PageRangeSet) (gpa : BitVec 64) :
    (lowerBound s gpa).1 ++ (lowerBound s gpa).2 = s :=
  List.takeWhile_append_dropWhile _ _

theorem lowerBound_fst_lt (gpa : BitVec 64) : ∀ x ∈ (lowerBound s gpa).1, x.lo < gpa.toNat := by
  intro x hx
  simpa [BitVec.lt_def, PageRange.lo] using List.mem_takeWhile_imp hx

theorem lowerBound_snd_ge (h : Wf s) (gpa : BitVec 64) :
    ∀ x ∈ (lowerBound s gpa).2, gpa.toNat ≤ x.lo := by
  induction s with
  | nil => simp [lowerBound]
  | cons q qs ih =>
    have hqs : Wf qs := h.sublist (List.sublist_cons_self q qs)
    by_cases hq : q.start < gpa
    · rw [lowerBound, List.dropWhile_cons_of_pos (by simpa using hq)]
      exact ih hqs
    · intro x hx
      have hq' : gpa.toNat ≤ q.lo := by simpa [BitVec.lt_def, PageRange.lo] using hq
      rw [lowerBound, List.dropWhile_cons_of_neg (by simpa using hq), List.mem_cons] at hx
      rcases hx with rfl | hx
      · exact hq'
      · have := (List.pairwise_cons.mp h.sorted).1 x hx
        have := (h.range_wf q (by simp)).lo_lt_hi
        omega

/-! ### `find_page_range` -/

/-- `find_page_range` once `lower_bound` has split the set: the iterator at the
range holding the address, looking at the range `lower_bound` returned and then at
its predecessor. -/
def findAt (before rest : PageRangeSet) (gpa : BitVec 64) : Option PageRangeIterator :=
  match rest with
  | [] => prevIfContains before [] gpa
  | r :: after =>
    if r.contains gpa then some ⟨before, r, after⟩ else prevIfContains before (r :: after) gpa

/-- The `cbegin()` case of `find_page_range` is the general one with no predecessor. -/
theorem findPageRange_eq (s : PageRangeSet) (gpa : BitVec 64) :
    findPageRange s gpa = findAt (lowerBound s gpa).1 (lowerBound s gpa).2 gpa := by
  unfold findPageRange
  by_cases hs : s = []
  · subst hs; rfl
  · rw [if_neg (by simpa using hs)]
    rcases lowerBound s gpa with ⟨_ | ⟨x, l⟩, _ | ⟨r, after⟩⟩ <;>
      simp [findAt, prevIfContains]

theorem prevIfContains_some {before after : PageRangeSet} {it : PageRangeIterator}
    (h : prevIfContains before after gpa = some it) :
    it.toSet = before ++ after ∧ it.range.contains gpa = true := by
  unfold prevIfContains at h
  split at h
  · rename_i q hq
    split_ifs at h with hc
    cases h
    refine ⟨?_, hc⟩
    rw [PageRangeIterator.toSet, ← List.dropLast_append_getLast? q hq]
    simp
  · cases h

theorem findAt_some {before rest : PageRangeSet} {it : PageRangeIterator}
    (h : findAt before rest gpa = some it) :
    it.toSet = before ++ rest ∧ it.range.contains gpa = true := by
  unfold findAt at h
  split at h
  · exact prevIfContains_some h
  · split_ifs at h with hc
    · cases h; exact ⟨rfl, hc⟩
    · exact prevIfContains_some h

/-- The range before the `lower_bound` iterator is the only one below it that can
hold the address. -/
theorem getLast?_of_covers {l rest : PageRangeSet} (h : Wf (l ++ rest))
    (hl : ∀ y ∈ l, y.lo < gpa.toNat) {x : PageRange} (hx : x ∈ l)
    (hc : x.lo ≤ gpa.toNat ∧ gpa.toNat < x.hi) : l.getLast? = some x := by
  have hne : l ≠ [] := List.ne_nil_of_mem hx
  obtain ⟨q, hq⟩ : ∃ q, l.getLast? = some q := ⟨_, List.getLast?_eq_getLast l hne⟩
  have hsplit := List.dropLast_append_getLast? q hq
  rw [hq]
  rw [← hsplit, List.mem_append, List.mem_singleton] at hx
  rcases hx with hx | rfl
  · have hs := h.sorted
    rw [← hsplit, List.append_assoc, List.pairwise_append] at hs
    have := hs.2.2 x hx q (by simp)
    have := hl q (by rw [← hsplit]; simp)
    omega
  · rfl

theorem prevIfContains_isSome {l after : PageRangeSet} {x : PageRange} (hx : l.getLast? = some x)
    (hrx : x.hi < 2 ^ 64) (hc : x.lo ≤ gpa.toNat ∧ gpa.toNat < x.hi) :
    (prevIfContains l after gpa).isSome := by
  simp [prevIfContains, hx, (PageRange.contains_iff hrx).mpr hc]

/-- **`find_page_range` on a well-formed set**: it returns an iterator into the set at
a range holding the address, and it returns one whenever a range holds the address. -/
theorem findPageRange_some {it : PageRangeIterator}
    (hf : findPageRange s gpa = some it) : it.toSet = s ∧ it.range.contains gpa = true := by
  rw [findPageRange_eq] at hf
  rw [← lowerBound_append s gpa]
  exact findAt_some hf

theorem findPageRange_isSome (h : Wf s) :
    (findPageRange s gpa).isSome ↔ covers s gpa.toNat := by
  constructor
  · intro hf
    obtain ⟨it, hit⟩ := Option.isSome_iff_exists.mp hf
    obtain ⟨hset, hc⟩ := findPageRange_some hit
    have hw := h.range_wf it.range (by rw [← hset]; simp [PageRangeIterator.toSet])
    exact ⟨it.range, by rw [← hset]; simp [PageRangeIterator.toSet],
      (PageRange.contains_iff hw.hi_lt).mp hc⟩
  · rintro ⟨x, hx, hc⟩
    have hls := lowerBound_append s gpa
    have hl := lowerBound_fst_lt (s := s) gpa
    have hr := lowerBound_snd_ge h gpa
    have hw : Wf ((lowerBound s gpa).1 ++ (lowerBound s gpa).2) := by rw [hls]; exact h
    have hxw := h.range_wf x hx
    rw [findPageRange_eq]
    rw [← hls, List.mem_append] at hx
    generalize (lowerBound s gpa).1 = l at hl hw hx
    generalize (lowerBound s gpa).2 = rest at hr hw hx
    cases rest with
    | nil =>
      simp only [List.not_mem_nil, or_false] at hx
      exact prevIfContains_isSome (getLast?_of_covers hw hl hx hc) hxw.hi_lt hc
    | cons r after =>
      have hrw := hw.range_wf r (by simp)
      by_cases hrc : r.contains gpa = true
      · simp [findAt, hrc]
      · simp only [findAt, hrc, if_false, Bool.false_eq_true]
        rcases hx with hx | hx
        · exact prevIfContains_isSome (getLast?_of_covers hw hl hx hc) hxw.hi_lt hc
        · exfalso
          rcases List.mem_cons.mp hx with rfl | hx
          · exact hrc ((PageRange.contains_iff hxw.hi_lt).mpr hc)
          · have := (hw.sublist (List.sublist_append_right l _)).around (b := []) |>.2 x hx
            have := hr r (by simp)
            have := hrw.lo_lt_hi
            omega

/-! ### Sets ordered by start

`std::set` keeps the ranges in increasing `start` order.  When each range also ends at
or below the start of the next, as the tracker's do (`Wf.start_lt`), `find_page_range`
finds the range holding an address, whatever the ranges' sizes
(`findPageRange_ordered`).  The `start` order alone is not enough: a range starting
inside the one that holds the address hides it from the predecessor test. -/

theorem contains_iff_toNat {x : BitVec 64} :
    r.contains x = true ↔ r.start.toNat ≤ x.toNat ∧ x.toNat < r.limit.toNat := by
  simp [PageRange.contains, BitVec.le_def, BitVec.lt_def]

/-- A well-formed set is ordered by start. -/
theorem Wf.start_lt (h : Wf s) : s.Pairwise (fun a b => a.start < b.start) :=
  h.sorted.imp_of_mem fun {a _} ha _ hab => by
    have := (h.range_wf a ha).lo_lt_hi
    rw [BitVec.lt_def]; simp only [PageRange.lo] at *; omega

/-- Ranges each ending at or below the start of the next share no address. -/
theorem disjoint_of_hi_le (hd : s.Pairwise (fun a b => a.hi ≤ b.lo)) :
    s.Pairwise (fun a b => ∀ x, ¬ (a.contains x = true ∧ b.contains x = true)) :=
  hd.imp fun {a _} hab x ⟨hxa, hxb⟩ => by
    rw [contains_iff_toNat] at hxa hxb
    have := a.limit_toNat_le
    simp only [PageRange.lo] at hab; omega

theorem lowerBound_snd_start (hs : s.Pairwise (fun a b => a.start < b.start)) (gpa : BitVec 64) :
    ∀ x ∈ (lowerBound s gpa).2, gpa.toNat ≤ x.lo := by
  induction s with
  | nil => simp [lowerBound]
  | cons q qs ih =>
    by_cases hq : q.start < gpa
    · rw [lowerBound, List.dropWhile_cons_of_pos (by simpa using hq)]
      exact ih (List.pairwise_cons.mp hs).2
    · intro x hx
      have hq' : gpa.toNat ≤ q.lo := by simpa [BitVec.lt_def, PageRange.lo] using hq
      rw [lowerBound, List.dropWhile_cons_of_neg (by simpa using hq), List.mem_cons] at hx
      rcases hx with rfl | hx
      · exact hq'
      · have := (List.pairwise_cons.mp hs).1 x hx
        rw [BitVec.lt_def] at this; simp only [PageRange.lo] at *; omega

/-- Among the ranges that start below the address, only the last can hold it: a range
further back ends at or below the last one's start. -/
theorem getLast?_of_contains {l rest : PageRangeSet} (hd : (l ++ rest).Pairwise (fun a b => a.hi ≤ b.lo))
    (hl : ∀ y ∈ l, y.lo < gpa.toNat) {x : PageRange} (hx : x ∈ l) (hc : x.contains gpa = true) :
    l.getLast? = some x := by
  obtain ⟨q, hq⟩ : ∃ q, l.getLast? = some q :=
    ⟨_, List.getLast?_eq_getLast l (List.ne_nil_of_mem hx)⟩
  have hsplit := List.dropLast_append_getLast? q hq
  rw [hq]
  rw [← hsplit, List.mem_append, List.mem_singleton] at hx
  rcases hx with hx | rfl
  · rw [← hsplit, List.append_assoc, List.pairwise_append] at hd
    have := hd.2.2 x hx q (by simp)
    have := hl q (by rw [← hsplit]; simp)
    have := x.limit_toNat_le
    rw [contains_iff_toNat] at hc
    omega
  · rfl

/-- In a set whose ranges share no address, a range holding the address is the one an
iterator into the set points at, when that one holds it too. -/
theorem eq_range_of_contains {it : PageRangeIterator}
    (hd : s.Pairwise (fun a b => ∀ x, ¬ (a.contains x = true ∧ b.contains x = true)))
    (hs : it.toSet = s) (hi : it.range.contains gpa = true) (hr : r ∈ s)
    (hc : r.contains gpa = true) : r = it.range := by
  subst hs
  rw [PageRangeIterator.toSet, List.pairwise_append, List.pairwise_cons] at hd
  rw [PageRangeIterator.toSet, List.mem_append, List.mem_cons] at hr
  rcases hr with hr | rfl | hr
  · exact absurd ⟨hc, hi⟩ (hd.2.2 r hr it.range (by simp) gpa)
  · rfl
  · exact absurd ⟨hi, hc⟩ (hd.2.1.1 r hr gpa)

theorem findPageRange_isSome_of_ordered (hs : s.Pairwise (fun a b => a.start < b.start))
    (hd : s.Pairwise (fun a b => a.hi ≤ b.lo)) {x : PageRange} (hx : x ∈ s) (hc : x.contains gpa = true) :
    (findPageRange s gpa).isSome := by
  have hls := lowerBound_append s gpa
  have hl := lowerBound_fst_lt (s := s) gpa
  have hr := lowerBound_snd_start hs gpa
  rw [← hls] at hs hd
  rw [findPageRange_eq]
  rw [← hls, List.mem_append] at hx
  generalize (lowerBound s gpa).1 = l at hl hs hd hx
  generalize (lowerBound s gpa).2 = rest at hr hs hd hx
  have hprev : x ∈ l → ∀ after, (prevIfContains l after gpa).isSome := fun hxl after => by
    simp [prevIfContains, getLast?_of_contains hd hl hxl hc, hc]
  cases rest with
  | nil =>
    simp only [List.not_mem_nil, or_false] at hx
    exact hprev hx []
  | cons r after =>
    by_cases hrc : r.contains gpa = true
    · simp [findAt, hrc]
    · simp only [findAt, hrc, if_false, Bool.false_eq_true]
      rcases hx with hx | hx
      · exact hprev hx _
      · exfalso
        rcases List.mem_cons.mp hx with rfl | hx
        · exact hrc hc
        · have hrx := (List.pairwise_cons.mp (hs.sublist (List.sublist_append_right l _))).1 x hx
          have := hr r (by simp)
          rw [contains_iff_toNat] at hc
          rw [BitVec.lt_def] at hrx; simp only [PageRange.lo] at this; omega

/-- **`find_page_range` finds the range holding the address**, in a set ordered by
start whose ranges each end at or below the start of the next, of whatever sizes: it
returns an iterator into the set at a range holding the address, which is then the
only range holding it, and it returns `end()` exactly when no range holds the
address. -/
theorem findPageRange_ordered (hs : s.Pairwise (fun a b => a.start < b.start))
    (hd : s.Pairwise (fun a b => a.hi ≤ b.lo)) (gpa : BitVec 64) :
    (∀ it, findPageRange s gpa = some it → it.toSet = s ∧ it.range.contains gpa = true ∧
      ∀ r ∈ s, r.contains gpa = true → r = it.range) ∧
    (findPageRange s gpa = none ↔ ∀ r ∈ s, r.contains gpa = false) := by
  refine ⟨fun it hf => ?_, ⟨fun hf r hr => ?_, fun hn => ?_⟩⟩
  · obtain ⟨hset, hc⟩ := findPageRange_some hf
    exact ⟨hset, hc, fun r hr hrc => eq_range_of_contains (disjoint_of_hi_le hd) hset hc hr hrc⟩
  · cases hc : r.contains gpa
    · rfl
    · simpa [hf] using findPageRange_isSome_of_ordered hs hd hr hc
  · cases hf : findPageRange s gpa with
    | none => rfl
    | some it =>
      obtain ⟨hset, hc⟩ := findPageRange_some hf
      rw [hn it.range (by rw [← hset]; simp [PageRangeIterator.toSet])] at hc
      cases hc

/-- Two ranges of the tracker's kind, and an address between them. -/
theorem findPageRange_ordered_two_ranges :
    ([⟨0x1000, 2⟩, ⟨0x3000, 1⟩] : PageRangeSet).Pairwise (fun a b => a.start < b.start) ∧
    ([⟨0x1000, 2⟩, ⟨0x3000, 1⟩] : PageRangeSet).Pairwise (fun a b => a.hi ≤ b.lo) ∧
    (findPageRange [⟨0x1000, 2⟩, ⟨0x3000, 1⟩] 0x3800 = none ↔
      ∀ r ∈ ([⟨0x1000, 2⟩, ⟨0x3000, 1⟩] : PageRangeSet), r.contains 0x3800 = false) :=
  ⟨by decide, by decide, (findPageRange_ordered (by decide) (by decide) 0x3800).2⟩

/-- With the `start` order alone: the empty range at `0x2000` starts inside the range
at `0x1000`, `lower_bound(0x2800)` is `end()`, its predecessor is the empty range, and
`find_page_range` returns `end()` although the range at `0x1000` holds `0x2800`. -/
example :
    ([⟨0x1000, 2⟩, ⟨0x2000, 0⟩] : PageRangeSet).Pairwise (fun a b => a.start < b.start) ∧
    (⟨0x1000, 2⟩ : PageRange).contains 0x2800 = true ∧
    findPageRange [⟨0x1000, 2⟩, ⟨0x2000, 0⟩] 0x2800 = none := by
  decide

end PageRangeSet

end MicroV

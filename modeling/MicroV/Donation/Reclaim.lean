import MicroV.Donation.Effects

/-!
# Reclaiming pages

`reclaim_root_pages` walks every range of the borrower with two nested loops.  On
well-formed ranges the loops end, and they call `map_4k_rwe` once on each page of
each range, in increasing order:

* `pagesFrom`, `PageRange.pages`, `PageRangeSet.pages`: the pages a loop visits;
* `mapPages_eq`, `mapRanges_eq`: **the loops end within their fuel** and do what
  `mapList` does on the list of the pages;
* `mapList_ok`: mapping aligned pages other than page zero identity-maps exactly
  them; `mapList_error`: on increasing pages, `map_4k_rwe` can only raise at the first
  page, so a raise leaves the EPT as it was.

`reclaimRootPage_eq` is the one-page reclaim: it leaves the root as it was, or
forgets the page for the borrower and, unless `map_4k_rwe` raises, maps it back.
-/

namespace MicroV

open Ept PageRangeSet

/-! ### The pages a loop visits -/

/-- The `n` pages from `gpa` on, `UV_PAGE_SIZE` apart. -/
def pagesFrom (gpa : BitVec 64) : Nat → List (BitVec 64)
  | 0 => []
  | n + 1 => gpa :: pagesFrom (gpa + uvPageSize) n

/-- The pages of a range, in the order `reclaim_root_pages` visits them. -/
def PageRange.pages (r : PageRange) : List (BitVec 64) := pagesFrom r.start r.count.toNat

/-- The pages of a set's ranges, in iteration order. -/
def PageRangeSet.pages (s : PageRangeSet) : List (BitVec 64) := s.flatMap PageRange.pages

theorem add_uvPageSize_toNat (gpa : BitVec 64) (h : gpa.toNat + 4096 < 2 ^ 64) :
    (gpa + uvPageSize).toNat = gpa.toNat + 4096 := by
  rw [BitVec.toNat_add, uvPageSize_toNat]; exact Nat.mod_eq_of_lt h

theorem mem_pagesFrom {gpa : BitVec 64} {n : Nat} (h : gpa.toNat + n * 4096 < 2 ^ 64)
    {x : BitVec 64} : x ∈ pagesFrom gpa n ↔
      gpa.toNat ≤ x.toNat ∧ x.toNat < gpa.toNat + n * 4096 ∧ x.toNat % 4096 = gpa.toNat % 4096 := by
  induction n generalizing gpa with
  | zero => simp only [pagesFrom, List.not_mem_nil, false_iff]; omega
  | succ n ih =>
    have h' := add_uvPageSize_toNat gpa (by omega)
    rw [pagesFrom, List.mem_cons, ih (by omega), h', BitVec.toNat_eq]
    omega

theorem pagesFrom_increasing {gpa : BitVec 64} {n : Nat} (h : gpa.toNat + n * 4096 < 2 ^ 64) :
    (pagesFrom gpa n).Pairwise (fun a b => a.toNat < b.toNat) := by
  induction n generalizing gpa with
  | zero => exact .nil
  | succ n ih =>
    have h' := add_uvPageSize_toNat gpa (by omega)
    refine List.pairwise_cons.mpr ⟨fun y hy => ?_, ih (by omega)⟩
    have := (mem_pagesFrom (by omega)).mp hy
    omega

/-- **The pages of a range are its aligned addresses.** -/
theorem PageRange.mem_pages {r : PageRange} (h : r.Wf) {x : BitVec 64} :
    x ∈ r.pages ↔ x.toNat % 4096 = 0 ∧ r.lo ≤ x.toNat ∧ x.toNat < r.hi := by
  have := h.aligned; have := h.hi_lt
  rw [PageRange.pages, mem_pagesFrom (by simpa only [PageRange.hi] using h.hi_lt)]
  simp only [PageRange.lo, PageRange.hi] at *
  omega

theorem PageRangeSet.mem_pages {s : PageRangeSet} (h : s.Wf) {x : BitVec 64} :
    x ∈ s.pages ↔ x.toNat % 4096 = 0 ∧ s.covers x.toNat := by
  simp only [PageRangeSet.pages, List.mem_flatMap, covers]
  constructor
  · rintro ⟨r, hr, hx⟩
    obtain ⟨ha, hlo, hhi⟩ := (PageRange.mem_pages (h.range_wf r hr)).mp hx
    exact ⟨ha, r, hr, hlo, hhi⟩
  · rintro ⟨ha, r, hr, hlo, hhi⟩
    exact ⟨r, hr, (PageRange.mem_pages (h.range_wf r hr)).mpr ⟨ha, hlo, hhi⟩⟩

/-- The pages of a well-formed set increase. -/
theorem PageRangeSet.pages_increasing {s : PageRangeSet} (h : s.Wf) :
    s.pages.Pairwise (fun a b => a.toNat < b.toNat) := by
  refine List.pairwise_flatMap.mpr ⟨fun r hr => ?_, ?_⟩
  · exact pagesFrom_increasing (by simpa only [PageRange.hi] using (h.range_wf r hr).hi_lt)
  · refine h.sorted.imp_of_mem fun {a b} ha hb hab x hx y hy => ?_
    have := (PageRange.mem_pages (h.range_wf a ha)).mp hx
    have := (PageRange.mem_pages (h.range_wf b hb)).mp hy
    omega

/-! ### The loops -/

/-- `map_4k_rwe(gpa, gpa)` on each page in turn; `.error e` at the EPT where one raises. -/
def mapList : List (BitVec 64) → Ept → Except Ept Ept
  | [], e => .ok e
  | p :: ps, e =>
    match map4kRwe e p p with
    | none => .error e
    | some e' => mapList ps e'

theorem mapList_append (l₁ l₂ : List (BitVec 64)) (e : Ept) :
    mapList (l₁ ++ l₂) e = match mapList l₁ e with
      | .ok e' => mapList l₂ e'
      | .error e' => .error e' := by
  induction l₁ generalizing e with
  | nil => rfl
  | cons p ps ih =>
    simp only [List.cons_append, mapList]
    cases map4kRwe e p p with
    | none => rfl
    | some e' => exact ih e'

/-- **The inner loop ends within its fuel** and maps the pages from `gpa` to `limit`. -/
theorem mapPages_eq {n fuel : Nat} {gpa limit : BitVec 64} (e : Ept)
    (hn : gpa.toNat + n * 4096 = limit.toNat) (hf : n < fuel) :
    mapPages fuel gpa limit e = some (mapList (pagesFrom gpa n) e) := by
  induction n generalizing gpa e fuel with
  | zero =>
    obtain ⟨f, rfl⟩ : ∃ f, fuel = f + 1 := ⟨fuel - 1, by omega⟩
    have : ¬ gpa < limit := by rw [BitVec.lt_def]; omega
    simp only [mapPages, this, if_false, pagesFrom, mapList]
  | succ n ih =>
    obtain ⟨f, rfl⟩ : ∃ f, fuel = f + 1 := ⟨fuel - 1, by omega⟩
    have hlt : gpa < limit := by rw [BitVec.lt_def]; omega
    have h' := add_uvPageSize_toNat gpa (by have := limit.isLt; omega)
    simp only [mapPages, hlt, if_true, pagesFrom, mapList]
    cases map4kRwe e gpa gpa with
    | none => rfl
    | some e' => exact ih e' (by omega) (by omega)

/-- **The nested loop of `reclaim_root_pages` ends** on well-formed ranges, and maps
their pages in order. -/
theorem mapRanges_eq {s : PageRangeSet} (h : s.Wf) (e : Ept) :
    mapRanges pageLoopFuel s e = some (mapList s.pages e) := by
  induction s generalizing e with
  | nil => rfl
  | cons r rs ih =>
    have hr := h.range_wf r (List.mem_cons_self _ _)
    have hlim : r.start.toNat + r.count.toNat * 4096 = r.limit.toNat :=
      (PageRange.limit_toNat hr.hi_lt).symm
    have hrs : Wf rs := h.sublist (List.sublist_cons_self _ _)
    have hf : r.count.toNat < pageLoopFuel := PageRange.count_lt hr.hi_lt
    rw [mapRanges, mapPages_eq e hlim hf, PageRangeSet.pages, List.flatMap_cons, mapList_append,
      PageRange.pages]
    cases mapList (pagesFrom r.start r.count.toNat) e with
    | ok e' => exact ih hrs e'
    | error e' => rfl

theorem map4kRwe_isSome (e : Ept) (p : BitVec 64) :
    (map4kRwe e p p).isSome ↔ p.toNat % 4096 = 0 ∧ p.toNat ≠ 0 := by
  unfold map4kRwe map4k
  split_ifs with h <;> simp_all

/-- **Mapping aligned pages other than page zero succeeds and identity-maps exactly
them**, read-write-execute and write-back. -/
theorem mapList_ok {ps : List (BitVec 64)} (hps : ∀ p ∈ ps, p.toNat % 4096 = 0 ∧ p.toNat ≠ 0)
    (e : Ept) : ∃ e', mapList ps e = .ok e' ∧ ∀ a, e'.translate a =
      if ∃ p ∈ ps, a / 4096 = p.toNat / 4096 then some ⟨a, readWriteExecute, writeBack⟩
      else e.translate a := by
  induction ps generalizing e with
  | nil => exact ⟨e, rfl, fun a => by simp⟩
  | cons p ps ih =>
    obtain ⟨e₁, he₁⟩ := Option.isSome_iff_exists.mp
      ((map4kRwe_isSome e p).mpr (hps p (List.mem_cons_self _ _)))
    obtain ⟨e', he', ht⟩ := ih (fun q hq => hps q (List.mem_cons_of_mem _ hq)) e₁
    refine ⟨e', by simp only [mapList, he₁, he'], fun a => ?_⟩
    have hp := (hps p (List.mem_cons_self _ _)).1
    have hm : e₁.translate a = if a / 4096 = p.toNat / 4096 then
        some ⟨p.toNat + a % 4096, readWriteExecute, writeBack⟩ else e.translate a :=
      translate_map4k he₁ a
    rw [ht, hm]
    by_cases hq : ∃ q ∈ ps, a / 4096 = q.toNat / 4096
    · obtain ⟨q, hq1, hq2⟩ := hq
      rw [if_pos ⟨q, hq1, hq2⟩, if_pos ⟨q, List.mem_cons_of_mem _ hq1, hq2⟩]
    · by_cases ha : a / 4096 = p.toNat / 4096
      · rw [if_neg hq, if_pos ha, if_pos ⟨p, List.mem_cons_self _ _, ha⟩]
        exact Mapping.some_eq_of_hpa (by omega)
      · rw [if_neg hq, if_neg ha, if_neg]
        rintro ⟨q, hq1, hq2⟩
        rcases List.mem_cons.mp hq1 with rfl | hq1
        exacts [ha hq2, hq ⟨q, hq1, hq2⟩]

/-- On increasing aligned pages, `map_4k_rwe` can only raise at the first one (page
zero), so a raise leaves the EPT as it was. -/
theorem mapList_error {ps : List (BitVec 64)} (hinc : ps.Pairwise (fun a b => a.toNat < b.toNat))
    (hal : ∀ p ∈ ps, p.toNat % 4096 = 0) {e e' : Ept} (h : mapList ps e = .error e') : e' = e := by
  cases ps with
  | nil => cases h
  | cons p ps =>
    simp only [mapList] at h
    split at h
    · exact (Except.error.inj h).symm
    · next e₁ _ =>
      have hps : ∀ q ∈ ps, q.toNat % 4096 = 0 ∧ q.toNat ≠ 0 := fun q hq =>
        ⟨hal q (List.mem_cons_of_mem _ hq), by have := List.rel_of_pairwise_cons hinc hq; omega⟩
      obtain ⟨e'', he'', -⟩ := mapList_ok hps e₁
      rw [he''] at h
      cases h

theorem mapList_ok_mem {ps : List (BitVec 64)} {e e' : Ept} (h : mapList ps e = .ok e') :
    ∀ p ∈ ps, p.toNat % 4096 = 0 ∧ p.toNat ≠ 0 := by
  induction ps generalizing e with
  | nil => simp
  | cons p ps ih =>
    simp only [mapList] at h
    split at h
    · cases h
    · next e₁ he₁ =>
      intro q hq
      rcases List.mem_cons.mp hq with rfl | hq
      exacts [(map4kRwe_isSome e q).mp (by rw [he₁]; rfl), ih h q hq]

/-- The loop makes at most 1G entries tables: it adds no 1G page. -/
theorem mapList_no1g {ps : List (BitVec 64)} {e e' : Ept} (h : mapList ps e = .ok e')
    (hno : ∀ i l, e.pdpt i ≠ .leaf l) : ∀ i l, e'.pdpt i ≠ .leaf l := by
  induction ps generalizing e with
  | nil => cases h; exact hno
  | cons p ps ih =>
    simp only [mapList] at h
    split at h
    · cases h
    · next e₁ he₁ =>
      refine ih h fun i l hi => ?_
      rcases map4k_pdpt he₁ i with hi' | hi' <;> rw [hi'] at hi
      exacts [hno i l hi, Entry.noConfusion hi]

/-! ### `reclaim_root_page` -/

/-- **What `reclaim_root_page` does**: nothing, or, on a page recorded for a borrower
that is no longer live, it forgets the page and, unless `map_4k_rwe` raises, maps it
back into the root read-write-execute. -/
theorem reclaimRootPage_eq (s : System) (g : Nat) (rootGpa : BitVec 64) :
    let p := Bfn.upper rootGpa ptFrom
    let t := reclaimRootPage s g rootGpa
    let s' := s.setDonated (removePageFromDonatedRange s.root.donated g p)
    t = (.failure, s) ∨ (s.root.id = 0 ∧ s.guests g = none ∧ pageAlreadyDonatedTo s.root.donated g p ∧
      ((∃ e, map4kRwe s.root.ept p p = some e ∧ t = (.success, s'.setRootEpt e)) ∨
        map4kRwe s.root.ept p p = none ∧ t = (.raised, s'))) := by
  intro p t s'
  dsimp only [t, reclaimRootPage]
  split_ifs with h0 hg hd
  · exact .inl rfl
  · exact .inl rfl
  · exact .inl rfl
  · refine .inr ⟨not_not.mp h0, Option.not_isSome_iff_eq_none.mp hg, by simpa using hd, ?_⟩
    split
    · next hm => exact .inr ⟨hm, rfl⟩
    · next e hm => exact .inl ⟨e, hm, rfl⟩

end MicroV

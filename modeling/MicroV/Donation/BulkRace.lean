import MicroV.Donation.ReclaimRace

/-!
# Reclaiming all of a borrower's pages while donations race

`reclaim_root_pages(g)` holds the tracker's lock from the lookup of `g` to the erasure
of its set, and in between maps the pages back in the root's EPT one at a time.  Root
vCPUs donating meanwhile spin on the lock in `page_already_donated` and
`add_page_to_donated_range`, but run their other steps, `gpa_to_hpa` and `unmap` among
them, between the loop's `map_4k_rwe` calls.  A donation can so take a page the loop
has just mapped back, while it is still recorded for `g`.

* `bulkStep`: one step of the call: its checks with the lookup, one `map_4k_rwe` of the
  loop, or the erasure; `runBulk_eq_reclaimRootPages`: alone, its steps compute
  `reclaimRootPages`;
* `BulkRace`: the donating vCPUs and the reclaiming one in any interleaving, a vCPU that
  needs the lock while the reclaim holds it spinning in place;
* `LoopInv`: what holds while the reclaim holds the lock: forgetting `g`'s records, the
  donation invariant;
* **`bulk_race_inv`**: along every interleaving, the donation invariant holds whenever
  the lock is free, and with `g`'s records forgotten while the reclaim holds it.
-/

namespace MicroV

open Ept PageRangeSet

/-- Where the root vCPU in `reclaim_root_pages(g)` is: at its checks and the lookup of
`g`, in the loop with the pages still to map (holding the tracker's lock), or returned. -/
inductive BulkPc
  | check
  | loop (pages : List (BitVec 64))
  | done (st : Status)
  deriving DecidableEq, Repr

/-- `m_donated_page_map.erase(itr)`. -/
def System.eraseDonated (s : System) (g : Nat) : System := s.setDonated (s.root.donated.erase g)

/-- One atomic step of `reclaim_root_pages(g)`: the `id()` and `get_domain` checks with
the lock's acquisition and the lookup of `g`; one `map_4k_rwe(gpa, gpa)` of the nested
loop, whose pages are those of `g`'s set in order; the erasure of the set once the loop
is over. -/
def bulkStep (g : Nat) : BulkPc → System → BulkPc × System
  | .check, s =>
    if s.root.id ≠ 0 then (.done .failure, s)
    else if (s.guests g).isSome then (.done .failure, s)
    else match s.root.donated.lookup g with
      | none => (.done .failure, s)
      | some set => (.loop set.pages, s)
  | .loop [], s => (.done .success, s.eraseDonated g)
  | .loop (q :: qs), s =>
    match map4kRwe s.root.ept q q with
    | none => (.done .raised, s)
    | some e => (.loop qs, s.setRootEpt e)
  | .done st, s => (.done st, s)

/-- `k` steps of `reclaim_root_pages(g)` with no other vCPU running. -/
def runBulk (g : Nat) : Nat → BulkPc → System → BulkPc × System
  | 0, pc, s => (pc, s)
  | k + 1, pc, s => runBulk g k (bulkStep g pc s).1 (bulkStep g pc s).2

theorem runBulk_done (g k : Nat) (st : Status) (s : System) : runBulk g k (.done st) s = (.done st, s) := by
  induction k with
  | zero => rfl
  | succ k ih => exact ih

/-- Alone, the loop maps its pages as `mapList` does and then erases the set, or stops
where `map_4k_rwe` raises. -/
theorem runBulk_loop (g : Nat) (qs : List (BitVec 64)) (s : System) :
    runBulk g (qs.length + 1) (.loop qs) s =
      match mapList qs s.root.ept with
      | .ok e => (.done .success, (s.setRootEpt e).eraseDonated g)
      | .error e => (.done .raised, s.setRootEpt e) := by
  induction qs generalizing s with
  | nil => rfl
  | cons q qs ih =>
    show runBulk g (qs.length + 1) (bulkStep g (.loop (q :: qs)) s).1 (bulkStep g (.loop (q :: qs)) s).2 = _
    simp only [bulkStep, mapList]
    cases he : map4kRwe s.root.ept q q with
    | none => exact runBulk_done _ _ _ _
    | some e => exact ih _

/-- **Alone, the steps compute `reclaim_root_pages`**: from a well-formed tracker, the
call's steps, one per page recorded for `g` and two more, return what
`reclaimRootPages` returns, in the state it leaves. -/
theorem runBulk_eq_reclaimRootPages (s : System) (g : Nat) (hwf : TrackerWf s.root.donated) :
    ∃ st s', reclaimRootPages s g = some (st, s') ∧
      runBulk g ((donatedPages s.root.donated g).length + 2) .check s = (.done st, s') := by
  by_cases h0 : s.root.id ≠ 0
  · exact ⟨_, _, by rw [reclaimRootPages, if_pos h0], by simp [runBulk, bulkStep, h0, runBulk_done]⟩
  by_cases hg : (s.guests g).isSome
  · exact ⟨_, _, by rw [reclaimRootPages, if_neg h0, if_pos hg],
      by simp [runBulk, bulkStep, h0, hg, runBulk_done]⟩
  cases hl : s.root.donated.lookup g with
  | none =>
    exact ⟨_, _, by rw [reclaimRootPages, if_neg h0, if_neg hg, hl],
      by simp [runBulk, bulkStep, h0, hg, hl, runBulk_done]⟩
  | some set =>
    have hrun : runBulk g ((donatedPages s.root.donated g).length + 2) .check s =
        runBulk g (set.pages.length + 1) (.loop set.pages) s := by
      simp [runBulk, bulkStep, h0, hg, hl, donatedPages]
    rw [hrun, runBulk_loop]
    cases hm : mapList set.pages s.root.ept <;> exact ⟨_, _, by simp [reclaimRootPages, h0, hg, hl, mapRanges_eq (hwf g set hl), hm,
      System.eraseDonated], rfl⟩

/-! ### The race -/

/-- The steps of `donate_root_page` that take the tracker's lock: `page_already_donated`
and `add_page_to_donated_range`. -/
def Pc.usesLock : Pc → Bool
  | .check | .add => true
  | _ => false

/-- In the loop, `reclaim_root_pages` holds the tracker's lock. -/
def BulkPc.holdsLock : BulkPc → Bool
  | .loop _ => true
  | _ => false

/-- Root vCPUs `Fin n`, each in its own `donate_root_page` call, and one more in
`reclaim_root_pages`, on one system. -/
structure BulkRace (n : Nat) where
  sys : System
  dpc : Fin n → Pc
  bpc : BulkPc

namespace BulkRace

variable {n : Nat}

/-- Every vCPU at the start of its call. -/
def start (s : System) : BulkRace n := ⟨s, fun _ => .check, .check⟩

/-- `some i`: the donating vCPU `i` runs one step of its call, or spins in place on the
tracker's lock while the reclaim holds it; `none`: the reclaiming vCPU of guest `g` runs
one step of its call. -/
def step (calls : Fin n → DonateCall) (g : Nat) (r : BulkRace n) : Option (Fin n) → BulkRace n
  | some i =>
    if (r.dpc i).usesLock && r.bpc.holdsLock then r
    else ⟨(donateStep (calls i) (r.dpc i) r.sys).2,
      Function.update r.dpc i (donateStep (calls i) (r.dpc i) r.sys).1, r.bpc⟩
  | none => ⟨(bulkStep g r.bpc r.sys).2, r.dpc, (bulkStep g r.bpc r.sys).1⟩

/-- The vCPUs run one step each in the order of the schedule. -/
def run (calls : Fin n → DonateCall) (g : Nat) (r : BulkRace n) (sched : List (Option (Fin n))) :
    BulkRace n :=
  sched.foldl (step calls g) r

end BulkRace

section Lockless

variable {c : DonateCall} {pc : Pc}

/-- A step that takes no lock writes nothing to the tracker. -/
theorem donateStep_donated (hpc : pc.usesLock = false) (s : System) :
    (donateStep c pc s).2.root.donated = s.root.donated := by
  rcases (donateStep_cases c pc s).2 with hr | ⟨_, -, hr⟩ | ⟨-, hr⟩ | ⟨rfl, hr⟩ <;> rw [hr]
  cases hpc

theorem installRootPage_setDonated (s : System) (g guestGpa : Nat) (p : BitVec 64) (perm mtype : Nat)
    (m : DonatedPageMap) :
    installRootPage (s.setDonated m) g guestGpa p perm mtype =
      ((installRootPage s g guestGpa p perm mtype).1, (installRootPage s g guestGpa p perm mtype).2.setDonated m) := by
  simp only [installRootPage, System.setDonated_guests]
  split
  · rfl
  · split
    · rfl
    · split <;> rfl

/-- **A step that takes no lock reads nothing of the tracker**: it runs alike on a
system with other records. -/
theorem donateStep_setDonated (hpc : pc.usesLock = false) (s : System) (m : DonatedPageMap) :
    donateStep c pc (s.setDonated m) = ((donateStep c pc s).1, (donateStep c pc s).2.setDonated m) := by
  cases pc with
  | check | add => cases hpc
  | translate =>
    simp only [donateStep, System.setDonated_root_ept]
    split
    · rfl
    · split_ifs <;> rfl
  | begin shift => simp only [donateStep, System.setDonated_shootdown]; split_ifs <;> rfl
  | install => simp only [donateStep, installRootPage_setDonated]
  | done _ => rfl
  | convert _ | unmap | endShootdown => simp only [donateStep, System.setDonated_root_ept]; split_ifs <;> rfl

end Lockless

/-! ### What holds while the reclaim holds the lock -/

section Invariant

variable {n : Nat} (calls : Fin n → DonateCall) (g : Nat)

/-- While `reclaim_root_pages(g)` holds the lock with the pages `qs` still to map: `g` is
gone; with `g`'s records forgotten, the donation invariant holds and each donating vCPU
has what it needs; no page is recorded for two guests; the pages still to map are
increasing, aligned, free once `g`'s records are forgotten, and unmapped; no vCPU in its
window donates one of them; and while page zero is still to map, the loop has mapped
nothing and the invariant holds as it is. -/
structure LoopInv (dpc : Fin n → Pc) (qs : List (BitVec 64)) (s : System) : Prop where
  gone : s.guests g = none
  inv : Inv (s.eraseDonated g)
  pc : ∀ i, PcInv (calls i) (dpc i) (s.eraseDonated g).root
  exclusive : ∀ g₁ g₂ a, Recorded s.root.donated g₁ a → Recorded s.root.donated g₂ a → g₁ = g₂
  sorted : qs.Pairwise fun p q => p.toNat < q.toNat
  pages : ∀ q ∈ qs, q.toNat % 4096 = 0 ∧ Free (s.eraseDonated g).root q ∧ Unmapped s.root.ept q
  window : ∀ i, (dpc i).inWindow = true → (calls i).page ∉ qs
  zero : ∀ q ∈ qs, q.toNat = 0 → RaceInv calls ⟨s, dpc⟩

/-- What the reclaiming vCPU's program point needs: the donation invariant and each
donating vCPU's needs, before the lock and after the call; `LoopInv` in the loop; and
once it returned `SUCCESS`, `g` gone with nothing recorded for it. -/
def BulkPcInv (dpc : Fin n → Pc) : BulkPc → System → Prop
  | .check, s => RaceInv calls ⟨s, dpc⟩
  | .loop qs, s => LoopInv calls g dpc qs s
  | .done st, s => RaceInv calls ⟨s, dpc⟩ ∧
      (st = .success → s.guests g = none ∧ ∀ a, ¬ Recorded s.root.donated g a)

/-- What a run keeps: the donating vCPUs' borrowers stay live, and what the reclaiming
vCPU's program point needs. -/
structure BulkInv (r : BulkRace n) : Prop where
  live : ∀ i, (r.sys.guests (calls i).g).isSome
  bulk : BulkPcInv calls g r.dpc r.bpc r.sys

end Invariant

/-! ### Each step keeps what a run keeps -/

section Keeps

variable {n : Nat} {calls : Fin n → DonateCall} {g : Nat} {dpc : Fin n → Pc} {s : System}
  {qs : List (BitVec 64)}

theorem bulkStep_guests (g : Nat) (pc : BulkPc) (s : System) : (bulkStep g pc s).2.guests = s.guests := by
  cases pc with
  | check =>
    simp only [bulkStep]
    split_ifs
    · rfl
    · rfl
    · split <;> rfl
  | loop qs =>
    cases qs with
    | nil => rfl
    | cons q qs => simp only [bulkStep]; split <;> rfl
  | done _ => rfl

/-- A donation's borrower, live, is not the gone guest. -/
theorem borrower_ne (hl : ∀ i, (s.guests (calls i).g).isSome) (hg : s.guests g = none) (i : Fin n) :
    (calls i).g ≠ g := fun he => by
  have := hl i
  rw [he, hg] at this
  cases this

/-- Taking the lock, the reclaim finds `g`'s pages recorded: unmapped, free once `g`'s
records are forgotten, and in no donating vCPU's window. -/
theorem LoopInv.start (h : RaceInv calls ⟨s, dpc⟩) (hl : ∀ i, (s.guests (calls i).g).isSome)
    (hg : s.guests g = none) {set : PageRangeSet} (hset : s.root.donated.lookup g = some set) :
    LoopInv calls g dpc set.pages s := by
  have hinv := h.inv
  have hw := hinv.wf g set hset
  have hrec : ∀ q ∈ set.pages, q.toNat % 4096 = 0 ∧ Recorded s.root.donated g q.toNat := fun q hq =>
    have hm := (mem_pages hw).mp hq
    ⟨hm.1, set, hset, hm.2⟩
  refine ⟨hg, hinv.shrink (hinv.wf.erase g) (fun _ _ hr => (recorded_erase.mp hr).2)
      fun g' d a hd hr => recorded_erase.mpr ⟨fun hgg => (by subst hgg; rw [hg] at hd; cases hd), hr⟩,
    fun i => (h.pc i).frame (fun ⟨hlt, hf⟩ => ⟨hlt, fun g' hr => hf g' (recorded_erase.mp hr).2⟩)
      (.of_eq rfl) id fun hr => recorded_erase.mpr ⟨borrower_ne hl hg i, hr⟩,
    hinv.exclusive, pages_increasing hw, fun q hq => ?_, fun i hwi hq => ?_, fun _ _ _ => h⟩
  · obtain ⟨hal, hr⟩ := hrec q hq
    refine ⟨hal, ⟨hinv.recorded_lt g _ hr, fun g' hr' => (recorded_erase.mp hr').1
      (hinv.exclusive _ _ _ (recorded_erase.mp hr').2 hr)⟩, fun a ha => hinv.unmapped g a ?_⟩
    rwa [recorded_page hinv.wf, show a / 4096 * 4096 = q.toNat by simp only [InPage] at ha; omega]
  · exact ((h.pc i).free_of_inWindow hwi).2 g (hrec _ hq).2

/-- **A donating vCPU's step in the loop keeps `LoopInv`**: it takes no lock, so it runs
alike with `g`'s records forgotten, and it adds no translation to the root. -/
theorem LoopInv.vcpu (hd : ∀ i j, i ≠ j → (calls i).page ≠ (calls j).page) (h : LoopInv calls g dpc qs s)
    (i : Fin n) (hu : (dpc i).usesLock = false) :
    LoopInv calls g (Function.update dpc i (donateStep (calls i) (dpc i) s).1) qs
      (donateStep (calls i) (dpc i) s).2 := by
  have hc := donateStep_setDonated (c := calls i) hu s (s.root.donated.erase g)
  have hdon := donateStep_donated (c := calls i) hu s
  have hview : (donateStep (calls i) (dpc i) s).2.eraseDonated g =
      (donateStep (calls i) (dpc i) (s.eraseDonated g)).2 := by
    rw [System.eraseDonated, hdon]
    exact (congrArg Prod.snd hc).symm
  have hpc : (donateStep (calls i) (dpc i) s).1 = (donateStep (calls i) (dpc i) (s.eraseDonated g)).1 :=
    (congrArg Prod.fst hc).symm
  obtain ⟨hinv, hself⟩ := donateStep_inv h.inv (h.pc i)
  refine ⟨donateStep_guests_none h.gone, hview ▸ hinv, fun j => ?_, by rw [hdon]; exact h.exclusive,
    h.sorted, fun q hq => ?_, fun j hj hq => ?_, fun q hq h0 => (h.zero q hq h0).step hd i⟩
  · rw [hview]
    by_cases hji : j = i
    · subst hji
      rw [Function.update_same, hpc]
      exact hself
    · rw [Function.update_noteq hji]
      exact (h.pc j).other h.inv (h.pc i) (hd j i hji)
  · obtain ⟨hal, hfree, hun⟩ := h.pages q hq
    refine ⟨hal, by rw [System.eraseDonated, hdon]; exact hfree, fun a ha => ?_⟩
    have ht := donateStep_translate_none (h.pc i) (hun a ha)
    rwa [← hview] at ht
  · by_cases hji : j = i
    · subst hji
      rw [Function.update_same, hpc] at hj
      rcases donateStep_inWindow hj with hw | ht
      · exact h.window j hw hq
      · -- the vCPU entered its window at a page the root translates
        have hun := (h.pages _ hq).2.2 _ (inPage_page (calls j))
        simp only [System.eraseDonated, System.setDonated_root_ept, hun] at ht
        cases ht
    · rw [Function.update_noteq hji] at hj
      exact h.window j hj hq

/-- **A `map_4k_rwe` of the loop keeps `LoopInv`**: it maps back a page free once `g`'s
records are forgotten, which no vCPU in its window donates. -/
theorem LoopInv.map {q : BitVec 64} (h : LoopInv calls g dpc (q :: qs) s) {e : Ept}
    (hm : map4kRwe s.root.ept q q = some e) : LoopInv calls g dpc qs (s.setRootEpt e) := by
  obtain ⟨hal, hfree, -⟩ := h.pages q (List.mem_cons_self _ _)
  have hlt : ∀ q' ∈ qs, q.toNat < q'.toNat := fun _ hq' => List.rel_of_pairwise_cons h.sorted hq'
  refine ⟨h.gone, h.inv.mapPage hal hfree.1 hfree.2 hm, fun j => ?_, h.exclusive, h.sorted.of_cons,
    fun q' hq' => ?_, fun j hj hq' => h.window j hj (List.mem_cons_of_mem _ hq'),
    fun q' hq' h0 => absurd h0 (by have := hlt q' hq'; omega)⟩
  · cases hw : (dpc j).inWindow
    · exact (h.pc j).of_not_inWindow hw id
    · exact (h.pc j).mapOther h.inv.no1g hal (fun he => h.window j hw (he ▸ List.mem_cons_self _ _)) hm
  · obtain ⟨hal', hfree', hun⟩ := h.pages q' (List.mem_cons_of_mem _ hq')
    have := hlt q' hq'
    refine ⟨hal', hfree', fun a ha => ?_⟩
    show e.translate a = none
    rw [translate_map4k hm, if_neg (by simp only [InPage] at ha; omega)]
    exact hun a ha

/-- **A step of the reclaiming vCPU keeps what its program point needs.**  It stops
at a `map_4k_rwe` that raises only for page zero, the first page, before the loop has
mapped anything. -/
theorem BulkPcInv.bulk (hl : ∀ i, (s.guests (calls i).g).isSome) {pc : BulkPc}
    (h : BulkPcInv calls g dpc pc s) : BulkPcInv calls g dpc (bulkStep g pc s).1 (bulkStep g pc s).2 := by
  cases pc with
  | check =>
    simp only [bulkStep]
    split_ifs with h0 hg
    · exact ⟨h, nofun⟩
    · exact ⟨h, nofun⟩
    · split
      · exact ⟨h, nofun⟩
      · next set hset => exact LoopInv.start h hl (Option.not_isSome_iff_eq_none.mp hg) hset
  | loop qs =>
    cases qs with
    | nil => exact ⟨⟨h.inv, h.pc⟩, fun _ => ⟨h.gone, fun a hr => (recorded_erase.mp hr).1 rfl⟩⟩
    | cons q qs =>
      simp only [bulkStep]
      cases hm : map4kRwe s.root.ept q q with
      | none =>
        have hal := (h.pages q (List.mem_cons_self _ _)).1
        have h0 : q.toNat = 0 := by
          by_contra h0
          have := (map4kRwe_isSome s.root.ept q).mpr ⟨hal, h0⟩
          rw [hm] at this
          cases this
        exact ⟨h.zero q (List.mem_cons_self _ _) h0, nofun⟩
      | some e => exact h.map hm
  | done _ => exact h

/-- **A donating vCPU's step that does not spin keeps what the reclaiming vCPU needs.** -/
theorem BulkPcInv.vcpu (hd : ∀ i j, i ≠ j → (calls i).page ≠ (calls j).page)
    (hl : ∀ i, (s.guests (calls i).g).isSome) {pc : BulkPc} (h : BulkPcInv calls g dpc pc s) (i : Fin n)
    (hu : ((dpc i).usesLock && pc.holdsLock) = false) :
    BulkPcInv calls g (Function.update dpc i (donateStep (calls i) (dpc i) s).1) pc (donateStep (calls i) (dpc i) s).2 := by
  cases pc with
  | check => exact h.step hd i
  | loop qs => exact LoopInv.vcpu hd h i (by simpa [BulkPc.holdsLock] using hu)
  | done st =>
    refine ⟨h.1.step hd i, fun hs => ?_⟩
    obtain ⟨hg, hnr⟩ := h.2 hs
    refine ⟨donateStep_guests_none hg, fun a hr => ?_⟩
    rcases (donateStep_recorded h.1.inv (h.1.pc i) g a).2 hr with hr | ⟨-, hgc, -⟩
    · exact hnr a hr
    · exact borrower_ne hl hg i hgc.symm

variable {r : BulkRace n}

theorem BulkInv.step (hd : ∀ i j, i ≠ j → (calls i).page ≠ (calls j).page) (h : BulkInv calls g r) :
    ∀ x, BulkInv calls g (r.step calls g x)
  | some i => by
    by_cases hb : ((r.dpc i).usesLock && r.bpc.holdsLock) = true
    · rw [BulkRace.step, if_pos hb]
      exact h
    · rw [BulkRace.step, if_neg hb]
      exact ⟨fun j => (donateStep_guests_isSome _ _ _ _).trans (h.live j),
        h.bulk.vcpu hd h.live i (by simpa using hb)⟩
  | none => ⟨fun j => by rw [BulkRace.step, bulkStep_guests]; exact h.live j, h.bulk.bulk h.live⟩

theorem BulkInv.run (hd : ∀ i j, i ≠ j → (calls i).page ≠ (calls j).page) :
    ∀ (sched : List (Option (Fin n))) {r : BulkRace n}, BulkInv calls g r →
      BulkInv calls g (r.run calls g sched)
  | [], _, h => h
  | x :: sched, _, h => BulkInv.run hd sched (h.step hd x)

end Keeps

/-- **Reclaiming all of a gone guest's pages is safe beside racing donations.**  From a
reachable state, root vCPUs run `donate_root_page` calls to live guests on pairwise
different pages, and one more runs `reclaim_root_pages(g)`, whose loop maps the pages
back one by one while it holds the tracker's lock; the steps interleave in any order,
and a vCPU that needs the lock meanwhile spins.  After every step: when the lock is
free, the donation invariant holds; while the reclaim holds it, the invariant holds
with `g`'s records forgotten, the pages the loop has mapped back being still recorded
for `g`; no page is ever recorded for two guests; a donation that returned `SUCCESS`
has its page recorded for its borrower; and once the reclaim returned `SUCCESS`,
nothing is recorded for `g`. -/
theorem bulk_race_inv {n : Nat} {s : System} (hs : Reachable s) (calls : Fin n → DonateCall) (g : Nat)
    (hd : ∀ i j, i ≠ j → (calls i).page ≠ (calls j).page) (hl : ∀ i, (s.guests (calls i).g).isSome)
    (sched : List (Option (Fin n))) :
    (((BulkRace.start s).run calls g sched).bpc.holdsLock = false →
      Inv ((BulkRace.start s).run calls g sched).sys) ∧
    (((BulkRace.start s).run calls g sched).bpc.holdsLock = true →
      Inv (((BulkRace.start s).run calls g sched).sys.eraseDonated g)) ∧
    (∀ g₁ g₂ a, Recorded ((BulkRace.start s).run calls g sched).sys.root.donated g₁ a →
      Recorded ((BulkRace.start s).run calls g sched).sys.root.donated g₂ a → g₁ = g₂) ∧
    (∀ i, ((BulkRace.start s).run calls g sched).dpc i = .done .success →
      Recorded ((BulkRace.start s).run calls g sched).sys.root.donated (calls i).g (calls i).page.toNat) ∧
    (((BulkRace.start s).run calls g sched).bpc = .done .success →
      ∀ a, ¬ Recorded ((BulkRace.start s).run calls g sched).sys.root.donated g a) := by
  have h := BulkInv.run hd sched (⟨hl, RaceInv.start hs.inv⟩ : BulkInv calls g (BulkRace.start s))
  generalize (BulkRace.start s).run calls g sched = r at h ⊢
  obtain ⟨-, hb⟩ := h
  obtain ⟨t, dpc, bpc⟩ := r
  have hsucc : ∀ {d : Domain} i, PcInv (calls i) (dpc i) d → dpc i = .done .success →
      Recorded d.donated (calls i).g (calls i).page.toNat := fun i hp hi => by
    rw [hi] at hp
    exact hp rfl
  cases bpc with
  | check => exact ⟨fun _ => hb.inv, nofun, hb.inv.exclusive, fun i => hsucc i (hb.pc i), nofun⟩
  | loop qs =>
    exact ⟨nofun, fun _ => hb.inv, hb.exclusive, fun i hi => (recorded_erase.mp (hsucc i (hb.pc i) hi)).2, nofun⟩
  | done st =>
    exact ⟨fun _ => hb.1.inv, nofun, hb.1.inv.exclusive, fun i => hsucc i (hb.1.pc i),
      fun hs => (hb.2 (BulkPc.done.inj hs)).2⟩

/-- The donation checks the tracker while page `0x1000` is still recorded for the gone
guest `2`; the reclaim takes the lock and maps the page back; the donation takes the
page from the root and spins at `add_page_to_donated_range` until the reclaim erases
guest `2`'s set; then the donation runs to its end. -/
def bulkThenLend : List (Option (Fin 1)) :=
  [some 0, none, none, some 0, some 0, some 0, some 0, some 0, some 0, none, some 0, some 0]

theorem bulk_race_inv_lent_again :
    Reachable lentToGone ∧ (∀ i j : Fin 1, i ≠ j → (lendCall i).page ≠ (lendCall j).page) ∧
    (∀ i, (lentToGone.guests (lendCall i).g).isSome) ∧
    ((((BulkRace.start lentToGone).run lendCall 2 bulkThenLend).bpc.holdsLock = false →
      Inv ((BulkRace.start lentToGone).run lendCall 2 bulkThenLend).sys) ∧
    (((BulkRace.start lentToGone).run lendCall 2 bulkThenLend).bpc.holdsLock = true →
      Inv (((BulkRace.start lentToGone).run lendCall 2 bulkThenLend).sys.eraseDonated 2)) ∧
    (∀ g₁ g₂ a, Recorded ((BulkRace.start lentToGone).run lendCall 2 bulkThenLend).sys.root.donated g₁ a →
      Recorded ((BulkRace.start lentToGone).run lendCall 2 bulkThenLend).sys.root.donated g₂ a → g₁ = g₂) ∧
    (∀ i, ((BulkRace.start lentToGone).run lendCall 2 bulkThenLend).dpc i = .done .success →
      Recorded ((BulkRace.start lentToGone).run lendCall 2 bulkThenLend).sys.root.donated
        (lendCall i).g (lendCall i).page.toNat) ∧
    (((BulkRace.start lentToGone).run lendCall 2 bulkThenLend).bpc = .done .success →
      ∀ a, ¬ Recorded ((BulkRace.start lentToGone).run lendCall 2 bulkThenLend).sys.root.donated 2 a)) :=
  ⟨reachable_lentToGone, by decide, by decide,
    bulk_race_inv reachable_lentToGone lendCall 2 (by decide) (by decide) _⟩

/-- Both calls return `SUCCESS` in `bulkThenLend`, and page `0x1000` ends lent to
guest `1`. -/
example : ((BulkRace.start lentToGone).run lendCall 2 bulkThenLend).dpc 0 = .done .success ∧
    ((BulkRace.start lentToGone).run lendCall 2 bulkThenLend).bpc = .done .success ∧
    pageAlreadyDonatedTo ((BulkRace.start lentToGone).run lendCall 2 bulkThenLend).sys.root.donated 1 0x1000 := by
  decide

end MicroV

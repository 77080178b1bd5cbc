import MicroV.Donation.ReclaimRace

/-!
# Cached translations beside racing donations

A root vCPU in `donate_root_page` unmaps its page, then runs `end_shootdown` and
`invept`, and only then records the page for the borrower.  Here the processors cache
present translations and drop cached ones at any time while root vCPUs donate pairwise
different pages in any interleaving, beside reclaims of other pages and guests created
and destroyed (`RaceCacheStep`); a vCPU's step at `end_shootdown` empties the root's
caches when neither `end_shootdown` nor `invept` raises, and a guest's caches go with
the guest.

That order is what keeps the caches right.  A vCPU between `invept` and
`add_page_to_donated_range` has its page unmapped, so no processor can cache it again,
and `invept` dropped what was cached (`RaceCacheInv.flushed`).  Its record, then, lands
on a page no root processor holds, whatever the other vCPUs did in between.

* `RaceCacheStep`, `RaceCacheRun`: the steps and their runs;
* `RaceCacheInv.step`: each step keeps `RaceCacheInv`;
* **`race_cache_isolation`**: along every run from a reachable state and its caches,
  the root's processors cache only identity translations of addresses recorded for no
  guest, and a guest's only translations to pages recorded for it while it is live.
-/

namespace MicroV

open Ept PageRangeSet

/-- A reclaim keeps no record it did not have, and every record of another guest. -/
theorem reclaimRootPage_recorded {s : System} (hwf : TrackerWf s.root.donated) {g : Nat}
    (rootGpa : BitVec 64) (g' a : Nat) :
    (Recorded (reclaimRootPage s g rootGpa).2.root.donated g' a → Recorded s.root.donated g' a) ∧
    (g' ≠ g → Recorded s.root.donated g' a → Recorded (reclaimRootPage s g rootGpa).2.root.donated g' a) := by
  rcases reclaimRootPage_eq s g rootGpa with heq | ⟨-, -, -, hres⟩
  · rw [heq]; exact ⟨id, fun _ => id⟩
  obtain ⟨-, hrec⟩ := removePageFromDonatedRange_spec hwf (upper_ptFrom_aligned rootGpa) (g := g)
  rcases hres with ⟨e, -, heq⟩ | ⟨-, heq⟩ <;> rw [heq] <;>
    exact ⟨fun hr => ((hrec _ _).mp hr).1, fun hne hr => (hrec _ _).mpr ⟨hr, fun ⟨he, _⟩ => hne he⟩⟩

/-- A donation reaches `add_page_to_donated_range` only from `end_shootdown`, with
`end_shootdown` and `invept` run to their end. -/
theorem donateStep_add {c : DonateCall} {pc : Pc} {s : System} (h : (donateStep c pc s).1 = .add) :
    pc = .endShootdown ∧ c.raises.endShootdown = false ∧ c.raises.invept = false := by
  cases pc with
  | translate =>
    simp only [donateStep] at h
    split at h
    · cases h
    · split_ifs at h
  | endShootdown =>
    simp only [donateStep] at h
    split_ifs at h with h1 h2
    exact ⟨rfl, Bool.eq_false_iff.mpr h1, Bool.eq_false_iff.mpr h2⟩
  | install | done _ => cases h
  | _ => simp only [donateStep] at h; split_ifs at h

section Steps

variable {n : Nat} (calls : Fin n → DonateCall)

/-- A step of a root vCPU in its donation, whose `invept` at `end_shootdown` empties the
root's caches unless it or `end_shootdown` raises; a reclaim of a page none of the calls donates; a guest created or
destroyed, its caches going with it; a processor caching a present translation; or
processors dropping cached translations. -/
inductive RaceCacheStep : Race n → Caches → Race n → Caches → Prop
  | vcpu (r : Race n) (c : Caches) (i : Fin n) :
      RaceCacheStep r c (r.step calls i) (if r.pc i = .endShootdown ∧ (calls i).raises.endShootdown = false ∧
        (calls i).raises.invept = false then c.flushRoot else c)
  | reclaim {r : Race n} {c : Caches} (g : Nat) (rootGpa : BitVec 64)
      (hp : ∀ i, (calls i).page ≠ Bfn.upper rootGpa ptFrom) :
      RaceCacheStep r c ⟨(reclaimRootPage r.sys g rootGpa).2, r.pc⟩ c
  | create {r : Race n} {c : Caches} {g : Nat} (info : SodInfo) (h0 : g ≠ 0) (hg : r.sys.guests g = none) :
      RaceCacheStep r c ⟨r.sys.createDomain g info, r.pc⟩ c
  | destroy {r : Race n} {c : Caches} (g : Nat) :
      RaceCacheStep r c ⟨r.sys.destroyDomain g, r.pc⟩ (c.dropGuest g)
  | fillRoot {r : Race n} {c : Caches} {a : Nat} {m : Mapping} (h : r.sys.root.ept.translate a = some m) :
      RaceCacheStep r c r { c with root := Function.update c.root a (some m) }
  | fillGuest {r : Race n} {c : Caches} {g : Nat} {d : Domain} {a : Nat} {m : Mapping}
      (hg : r.sys.guests g = some d) (h : d.ept.translate a = some m) :
      RaceCacheStep r c r { c with guest := Function.update c.guest g (Function.update (c.guest g) a (some m)) }
  | evict {r : Race n} {c c' : Caches} (hr : ∀ a m, c'.root a = some m → c.root a = some m)
      (hg : ∀ g a m, c'.guest g a = some m → c.guest g a = some m) : RaceCacheStep r c r c'

/-- The runs of `RaceCacheStep`. -/
inductive RaceCacheRun : Race n → Caches → Race n → Caches → Prop
  | refl (r : Race n) (c : Caches) : RaceCacheRun r c r c
  | step {r r' r'' : Race n} {c c' c'' : Caches} :
      RaceCacheStep calls r c r' c' → RaceCacheRun r' c' r'' c'' → RaceCacheRun r c r'' c''

/-- What a run keeps: the donation invariant and what each vCPU needs; the root's
processors cache only identity translations of addresses recorded for no guest, and
none of the page of a vCPU between `invept` and `add_page_to_donated_range`; a guest's
processors cache only translations to pages recorded for it, while it is live. -/
structure RaceCacheInv (r : Race n) (c : Caches) : Prop where
  race : RaceInv calls r
  root : ∀ a m, c.root a = some m → m = ⟨a, readWriteExecute, writeBack⟩ ∧ ∀ g, ¬ Recorded r.sys.root.donated g a
  flushed : ∀ i a m, r.pc i = .add → c.root a = some m → ¬ InPage (calls i).page a
  guest : ∀ g a m, c.guest g a = some m → (r.sys.guests g).isSome ∧ Recorded r.sys.root.donated g m.hpa

end Steps

section Keeps

variable {n : Nat} {calls : Fin n → DonateCall} {r r' : Race n} {c c' : Caches}

/-- What a run keeps holds the caches' invariant of the calls made one at a time. -/
theorem RaceCacheInv.cacheInv (h : RaceCacheInv calls r c) : CacheInv r.sys c :=
  ⟨fun a m hm => ⟨(h.root a m hm).1, fun g ho => (h.root a m hm).2 g ho.2⟩, h.guest⟩

/-- **Every step keeps what a run keeps.** -/
theorem RaceCacheInv.step (hd : ∀ i j, i ≠ j → (calls i).page ≠ (calls j).page)
    (h : RaceCacheInv calls r c) (hst : RaceCacheStep calls r c r' c') : RaceCacheInv calls r' c' := by
  have hinv := h.race.inv
  cases hst with
  | vcpu i =>
    have hrec := donateStep_recorded hinv (h.race.pc i)
    by_cases hend : r.pc i = .endShootdown ∧ (calls i).raises.endShootdown = false ∧
      (calls i).raises.invept = false
    · -- `invept` empties the root's caches
      rw [if_pos hend]
      exact ⟨h.race.step hd i, fun _ _ hm => (nomatch hm), fun _ _ _ _ hm => (nomatch hm),
        fun g a m hm => ⟨(donateStep_guests_isSome _ _ _ g).trans (h.guest g a m hm).1,
          (hrec _ _).1 (h.guest g a m hm).2⟩⟩
    rw [if_neg hend]
    refine ⟨h.race.step hd i, fun a m hm => ⟨(h.root a m hm).1, fun g hr => ?_⟩, fun j a m hj hm => ?_,
      fun g a m hm => ⟨(donateStep_guests_isSome _ _ _ g).trans (h.guest g a m hm).1,
        (hrec _ _).1 (h.guest g a m hm).2⟩⟩
    · rcases (hrec _ _).2 hr with hr | ⟨hadd, -, ha⟩
      · exact (h.root a m hm).2 g hr
      · exact h.flushed i a m hadd hm ha
    · by_cases hji : j = i
      · subst hji
        rw [Race.step_pc_self] at hj
        exact absurd (donateStep_add hj) hend
      · rw [r.step_pc_of_ne calls hji] at hj
        exact h.flushed j a m hj hm
  | reclaim g rootGpa hp =>
    have hrec := reclaimRootPage_recorded hinv.wf (g := g) rootGpa
    refine ⟨h.race.env (.reclaim g rootGpa hp), fun a m hm => ⟨(h.root a m hm).1, fun g' hr =>
      (h.root a m hm).2 g' ((hrec g' a).1 hr)⟩, h.flushed, fun g' a m hm => ?_⟩
    obtain ⟨hl, hr⟩ := h.guest g' a m hm
    refine ⟨by rw [reclaimRootPage_guests]; exact hl, ?_⟩
    by_cases hg : g' = g
    · subst hg
      rw [reclaimRootPage_of_live rootGpa hl]
      exact hr
    · exact (hrec g' m.hpa).2 hg hr
  | create info h0 hg =>
    refine ⟨h.race.env (.create info h0 hg), h.root, h.flushed, fun g' a m hm => ?_⟩
    obtain ⟨hl, hr⟩ := h.guest g' a m hm
    refine ⟨?_, hr⟩
    show (Function.update r.sys.guests _ _ g').isSome
    rw [Function.update_apply]
    split_ifs
    · rfl
    · exact hl
  | destroy g => exact ⟨h.race.env (.destroy g), h.root, h.flushed, (h.cacheInv.destroy g).guest⟩
  | @fillRoot a m ht =>
    refine ⟨h.race, fun b m' hm => ?_, fun i b m' hi hm ha => ?_, h.guest⟩
    · rcases update_eq_some hm with ⟨rfl, rfl⟩ | ⟨-, hm⟩
      · exact ⟨(hinv.identity b _ ht).2, fun g => hinv.not_recorded_of_translate ht g⟩
      · exact h.root b m' hm
    · rcases update_eq_some hm with ⟨rfl, -⟩ | ⟨-, hm⟩
      · -- the page of a vCPU at `add_page_to_donated_range` is unmapped
        have hpc := h.race.pc i
        rw [hi] at hpc
        rw [hpc.2 b ha] at ht
        cases ht
      · exact h.flushed i b m' hi hm ha
  | fillGuest hg ht => exact ⟨h.race, h.root, h.flushed, (h.cacheInv.fillGuest hinv hg ht).guest⟩
  | evict hr hg =>
    exact ⟨h.race, fun a m hm => h.root a m (hr a m hm), fun i a m hi hm => h.flushed i a m hi (hr a m hm),
      fun g a m hm => h.guest g a m (hg g a m hm)⟩

theorem RaceCacheInv.run (hd : ∀ i j, i ≠ j → (calls i).page ≠ (calls j).page)
    (hrun : RaceCacheRun calls r c r' c') : RaceCacheInv calls r c → RaceCacheInv calls r' c' := by
  induction hrun with
  | refl => exact id
  | step hst _ ih => exact fun h => ih (h.step hd hst)

/-- A reachable state and its caches start a run, with the vCPUs at the start of their
calls. -/
theorem RaceCacheInv.start {s : System} (hs : CacheReachable s c) : RaceCacheInv calls (Race.start s) c := by
  have hinv := hs.reachable.inv
  have hc := hs.cacheInv
  refine ⟨RaceInv.start hinv, fun a m hm => ⟨(hc.root a m hm).1, fun g hr => ?_⟩, fun _ _ _ hi => (by cases hi),
    hc.guest⟩
  -- a cached address the root still translates is recorded for no one; one it does not
  -- translate any more is recorded for no guest, as the caches' invariant says
  cases ht : s.root.ept.translate a with
  | none => exact (hc.root a m hm).2 g ⟨ht, hr⟩
  | some m' => exact hinv.not_recorded_of_translate ht g hr

end Keeps

/-- **The shootdown keeps the caches right while donations race.**  From a reachable
state and its caches, root vCPUs donate pairwise different pages in any interleaving,
beside reclaims of other pages and guests created and destroyed, with the processors
caching present translations and dropping cached ones at any time, and the root's
caches emptied only by a vCPU's `invept` at its `end_shootdown`, when neither raises.  Along every run, the
root's processors cache only identity translations of addresses recorded for no guest,
and a guest's processors only translations to pages recorded for it while it is
live. -/
theorem race_cache_isolation {n : Nat} {s : System} {c : Caches} (hs : CacheReachable s c)
    (calls : Fin n → DonateCall) (hd : ∀ i j, i ≠ j → (calls i).page ≠ (calls j).page) {r' : Race n}
    {c' : Caches} (hrun : RaceCacheRun calls (Race.start s) c r' c') :
    (∀ a m, c'.root a = some m → m = ⟨a, readWriteExecute, writeBack⟩ ∧ ∀ g, ¬ Recorded r'.sys.root.donated g a) ∧
    (∀ g a m, c'.guest g a = some m → (r'.sys.guests g).isSome ∧ Recorded r'.sys.root.donated g m.hpa) :=
  have h := RaceCacheInv.run hd hrun (RaceCacheInv.start hs)
  ⟨h.root, h.guest⟩

/-- A root processor caches page `0x1000`, then vCPU `0` donates it to guest `1`. -/
theorem race_cache_isolation_cached_page :
    CacheReachable twoGuests Caches.empty ∧ (∀ i j, i ≠ j → (twoPageCalls i).page ≠ (twoPageCalls j).page) ∧
    ∃ r' c', RaceCacheRun twoPageCalls (Race.start twoGuests) Caches.empty r' c' ∧
      (∀ a m, c'.root a = some m → m = ⟨a, readWriteExecute, writeBack⟩ ∧ ∀ g, ¬ Recorded r'.sys.root.donated g a) ∧
      (∀ g a m, c'.guest g a = some m → (r'.sys.guests g).isSome ∧ Recorded r'.sys.root.donated g m.hpa) := by
  have h₀ : CacheReachable oneGuest Caches.empty :=
    .step (.init (by decide) false [] ⟨false, false⟩) (.create ⟨false, false⟩ (by decide) rfl)
  have hs : CacheReachable twoGuests Caches.empty := .step h₀ (.create ⟨false, false⟩ (by decide) rfl)
  have hd : ∀ i j, i ≠ j → (twoPageCalls i).page ≠ (twoPageCalls j).page := by decide
  have ht : twoGuests.root.ept.translate 0x1000 = some ⟨0x1000, readWriteExecute, writeBack⟩ := by decide
  have hrun : RaceCacheRun twoPageCalls (Race.start twoGuests) Caches.empty _ _ :=
    RaceCacheRun.step (RaceCacheStep.fillRoot ht) <|
    RaceCacheRun.step (RaceCacheStep.vcpu _ _ 0) <| RaceCacheRun.step (RaceCacheStep.vcpu _ _ 0) <|
    RaceCacheRun.step (RaceCacheStep.vcpu _ _ 0) <| RaceCacheRun.step (RaceCacheStep.vcpu _ _ 0) <|
    RaceCacheRun.step (RaceCacheStep.vcpu _ _ 0) <| RaceCacheRun.step (RaceCacheStep.vcpu _ _ 0) <|
    RaceCacheRun.step (RaceCacheStep.vcpu _ _ 0) <| RaceCacheRun.step (RaceCacheStep.vcpu _ _ 0) <|
    RaceCacheRun.refl _ _
  exact ⟨hs, hd, _, _, hrun, race_cache_isolation hs twoPageCalls hd hrun⟩

end MicroV

import MicroV.Donation.RaceCaches

/-!
# The shootdown's acknowledgement

`begin_shootdown` sets the in-flight flag and waits until every other processor has
acknowledged the shootdown.  A processor that acknowledged waits in turn for
`end_shootdown`, and flushes only then, so that none caches the page again between its
flush and the `unmap`.  A root vCPU inside a call of `donate_root_page` runs in the VMM
and takes the shootdown's IPI only once its call returned: hence the note before
`begin_shootdown` that a lock held there must be one no other processor spins on.

`Race.ready` says which vCPU may take its next step, and `Race.ackRun` runs a schedule
in which a vCPU that is not ready waits:

* `AckInv.step`: every step keeps the donation invariant, what each vCPU needs, and the
  order the acknowledgement imposes, whatever pages the calls donate;
* **`ack_race_isolation`**: in every acknowledged interleaving of `donate_root_page`
  calls, on one page or on many, no page is recorded for two borrowers or reached by
  two guests, and the tracker stays well formed;
* `LiveInv.complete`: while a vCPU has not returned, one that has not returned is
  ready, and each step brings its call closer to its end;
* **`ack_race_completes`**: with no shootdown in flight at the start and no call
  raising between `begin_shootdown` and `end_shootdown`, every schedule can be
  continued, by at most eight steps a call, until every call has returned.
-/

namespace MicroV

open Ept

/-- Inside a call: past its start and not yet returned. -/
def Pc.inCall : Pc → Bool
  | .check | .done _ => false
  | _ => true

/-- Waiting in `begin_shootdown` for the other processors' acknowledgements. -/
def Pc.waits : Pc → Bool
  | .convert _ => true
  | _ => false

namespace Pc

variable {pc : Pc}

theorem inShootdown_of_waits (h : pc.waits = true) : pc.inShootdown = true := by
  cases pc <;> first | rfl | cases h

theorem inCall_of_inShootdown (h : pc.inShootdown = true) : pc.inCall = true := by
  cases pc <;> first | rfl | cases h

theorem inCall_of_inWindow (h : pc.inWindow = true) : pc.inCall = true := by
  cases pc <;> first | rfl | cases h

theorem stepsLeft_pos_of_inCall (h : pc.inCall = true) : 0 < pc.stepsLeft := by
  cases pc <;> simp [stepsLeft, inCall] at h ⊢

end Pc

namespace Race

variable {n : Nat}

/-- Whether vCPU `i` may take its next step.  With no shootdown in flight every vCPU
may.  While one is, its holder waits in `begin_shootdown` until every other vCPU is
outside its call, and from then on runs alone; a vCPU inside its call runs on while the
holder waits, and one outside its call has acknowledged and waits for
`end_shootdown`. -/
def ready (r : Race n) (i : Fin n) : Bool :=
  !r.sys.shootdown.inFlight ||
    if (r.pc i).waits then decide (∀ j, j ≠ i → (r.pc j).inCall = false)
    else (r.pc i).inShootdown || ((r.pc i).inCall && decide (∃ j, (r.pc j).waits = true))

/-- vCPU `i` takes its next step if it is ready, and waits otherwise. -/
def ackStep (calls : Fin n → DonateCall) (r : Race n) (i : Fin n) : Race n :=
  if r.ready i then r.step calls i else r

/-- The vCPUs take their steps in the order of the schedule, each when it is ready. -/
def ackRun (calls : Fin n → DonateCall) (r : Race n) (sched : List (Fin n)) : Race n :=
  sched.foldl (ackStep calls) r

variable {r : Race n} {i j : Fin n}

/-- While a shootdown is in flight, a vCPU outside its call waits. -/
theorem ready_of_not_inCall (hf : r.sys.shootdown.inFlight = true) (hi : (r.pc i).inCall = false) :
    r.ready i = false := by
  have hs : (r.pc i).inShootdown = false :=
    Bool.eq_false_iff.mpr fun hs => by rw [Pc.inCall_of_inShootdown hs] at hi; cases hi
  have hw : (r.pc i).waits = false := Bool.eq_false_iff.mpr fun hw => by
    rw [Pc.inShootdown_of_waits hw] at hs; cases hs
  simp [ready, hf, hw, hs, hi]

/-- The holder leaves `begin_shootdown` only once every other vCPU is outside its
call. -/
theorem ready_waits (h : ShootdownInv r) (hr : r.ready i = true) (hw : (r.pc i).waits = true) (hji : j ≠ i) :
    (r.pc j).inCall = false := by
  have hf := h.flag i (Pc.inShootdown_of_waits hw)
  simp [ready, hf, hw] at hr
  exact hr j hji

end Race

/-! ### What an acknowledged run keeps -/

/-- A vCPU that enters `unmap` or `end_shootdown` was already past `begin_shootdown`. -/
theorem donateStep_inShootdown {c : DonateCall} {pc : Pc} {s : System}
    (h : (donateStep c pc s).1.inShootdown = true) (hw : (donateStep c pc s).1.waits = false) :
    pc.inShootdown = true := by
  cases pc with
  | convert _ | unmap | endShootdown => rfl
  | translate =>
    simp only [donateStep] at h
    split at h
    · cases h
    · split_ifs at h <;> cases h
  | begin _ =>
    simp only [donateStep] at h hw
    split_ifs at h hw
    · cases h
    · cases hw
  | install | done _ => cases h
  | _ => simp only [donateStep] at h; split_ifs at h <;> cases h

/-- What an acknowledged run keeps: the donation invariant and what each vCPU needs;
one vCPU at most between `begin_shootdown` and `end_shootdown`, with the flag set; once
the holder has its acknowledgements, every other vCPU outside its call; and no vCPU
between `gpa_to_hpa` and `add_page_to_donated_range` for a page another vCPU is about
to record. -/
structure AckInv {n : Nat} (calls : Fin n → DonateCall) (r : Race n) : Prop where
  race : RaceInv calls r
  shootdown : ShootdownInv r
  parked : ∀ i j, j ≠ i → (r.pc i).inShootdown = true → (r.pc i).waits = false → (r.pc j).inCall = false
  recording : ∀ i j, j ≠ i → (calls j).page = (calls i).page → r.pc i = .add → (r.pc j).inWindow = false

section Keeps

variable {n : Nat} {calls : Fin n → DonateCall} {r : Race n}

theorem AckInv.start {s : System} (h : Inv s) : AckInv calls (Race.start s) :=
  ⟨RaceInv.start h, ShootdownInv.start s, fun _ _ _ h => (by cases h), fun _ _ _ _ h => (by cases h)⟩

/-- A vCPU that steps leaves the root alone while another vCPU is between `gpa_to_hpa`
and `add_page_to_donated_range` for its page: the split and the `unmap` run only once
every other vCPU is outside its call, and the record only while no other vCPU is in
that window for the page. -/
theorem AckInv.root_of_inWindow (h : AckInv calls r) {k j : Fin n} (hk : r.ready k = true) (hjk : j ≠ k)
    (hpg : (calls j).page = (calls k).page) (hw : (r.pc j).inWindow = true) :
    (r.step calls k).sys.root = r.sys.root := by
  have hj := Pc.inCall_of_inWindow hw
  rcases (donateStep_cases (calls k) (r.pc k) r.sys).2 with hr | ⟨shift, hpk, -⟩ | ⟨hpk, -⟩ | ⟨hpk, -⟩
  · exact hr
  · rw [Race.ready_waits h.shootdown hk (by rw [hpk]; rfl) hjk] at hj; cases hj
  · rw [h.parked k j hjk (by rw [hpk]; rfl) (by rw [hpk]; rfl)] at hj; cases hj
  · rw [h.recording k j hjk hpg hpk] at hw; cases hw

/-- **A step of a ready vCPU keeps what an acknowledged run keeps**, whatever pages the
calls donate. -/
theorem AckInv.step (h : AckInv calls r) {k : Fin n} (hk : r.ready k = true) :
    AckInv calls (r.step calls k) := by
  have hother : ∀ j, j ≠ k → (r.step calls k).pc j = r.pc j := fun _ => r.step_pc_of_ne calls
  have hself := r.step_pc_self calls k
  obtain ⟨hinv, hpc⟩ := donateStep_inv h.race.inv (h.race.pc k)
  refine ⟨⟨hinv, fun j => ?_⟩, h.shootdown.step k, fun i j hji hi hw => ?_, fun i j hji hpg hi => ?_⟩
  · -- what each vCPU needs
    by_cases hjk : j = k
    · subst hjk; rw [hself]; exact hpc
    rw [hother j hjk]
    by_cases hpg : (calls j).page = (calls k).page
    · cases hw : (r.pc j).inWindow
      · exact (h.race.pc j).of_not_inWindow hw ((donateStep_recorded h.race.inv (h.race.pc k) _ _).1)
      · rw [h.root_of_inWindow hk hjk hpg hw]; exact h.race.pc j
    · exact (h.race.pc j).other h.race.inv (h.race.pc k) hpg
  · -- once the holder has its acknowledgements, every other vCPU is parked
    by_cases hik : i = k
    · subst hik
      rw [hself] at hi hw
      rw [hother j hji]
      cases hwk : (r.pc i).waits
      · exact h.parked i j hji (donateStep_inShootdown hi hw) hwk
      · exact Race.ready_waits h.shootdown hk hwk hji
    rw [hother i hik] at hi hw
    have hj := h.parked i j hji hi hw
    by_cases hjk : j = k
    · subst hjk
      rw [Race.ready_of_not_inCall (h.shootdown.flag i hi) hj] at hk; cases hk
    · rwa [hother j hjk]
  · -- a vCPU about to record its page has no other vCPU in the window for it
    by_cases hik : i = k
    · subst hik
      rw [hself] at hi
      rw [hother j hji]
      cases hwin : (r.pc j).inWindow
      · rfl
      · have hin : (r.pc i).inShootdown = true := by rw [(donateStep_add hi).1]; rfl
        have hj := h.parked i j hji hin (by rw [(donateStep_add hi).1]; rfl)
        rw [Pc.inCall_of_inWindow hwin] at hj; cases hj
    rw [hother i hik] at hi
    by_cases hjk : j = k
    · subst hjk
      rw [hself]
      cases hwin : (donateStep (calls j) (r.pc j) r.sys).1.inWindow
      · rfl
      rcases donateStep_inWindow hwin with hw | ht
      · rw [h.recording i j hji hpg hi] at hw; cases hw
      · -- the page of a vCPU at `add_page_to_donated_range` is unmapped
        have hu := h.race.pc i
        rw [hi] at hu
        rw [hpg, hu.2 _ (inPage_page _)] at ht; cases ht
    · rw [hother j hjk]; exact h.recording i j hji hpg hi

theorem AckInv.ackStep (h : AckInv calls r) (k : Fin n) : AckInv calls (r.ackStep calls k) := by
  unfold Race.ackStep
  split
  · exact h.step ‹_›
  · exact h

theorem AckInv.ackRun (h : AckInv calls r) (sched : List (Fin n)) : AckInv calls (r.ackRun calls sched) := by
  induction sched generalizing r with
  | nil => exact h
  | cons k sched ih => exact ih (h.ackStep k)

end Keeps

/-- **The acknowledgement keeps racing donations of one page apart.**  From a reachable
system, root vCPUs run `donate_root_page` calls, any number of them on one page for one
guest or for different guests, their steps interleaved in any order the shootdown's
acknowledgement allows.  After every step no page is recorded for two borrowers, no
page is reached by two live guests through their EPTs or their Xen root pages, and
every borrower's ranges are well formed, increasing and pairwise disjoint. -/
theorem ack_race_isolation {n : Nat} {s : System} (hs : Reachable s) (calls : Fin n → DonateCall)
    (sched : List (Fin n)) :
    (∀ g g' a, Recorded ((Race.start s).ackRun calls sched).sys.root.donated g a →
      Recorded ((Race.start s).ackRun calls sched).sys.root.donated g' a → g = g') ∧
    (∀ g g' d d' x y m m', ((Race.start s).ackRun calls sched).sys.guests g = some d →
      ((Race.start s).ackRun calls sched).sys.guests g' = some d' → GuestMaps d x m → GuestMaps d' y m' →
      m.hpa / 4096 = m'.hpa / 4096 → g = g') ∧
    TrackerWf ((Race.start s).ackRun calls sched).sys.root.donated :=
  have h := ((AckInv.start hs.inv).ackRun sched).race.inv
  ⟨h.exclusive, fun _ _ _ _ _ _ _ _ hd hd' hm hm' hpage => h.guestMaps_eq hd hd' hm hm' hpage, h.wf⟩

/-- vCPU `0` donates page `0x1000` to guest `1` at `0x5000`, vCPU `1` the same page to
guest `2` at `0x7000`. -/
def samePageCalls : Fin 2 → DonateCall
  | 0 => ⟨0x1000, 1, 0x5000, readWriteExecute, writeBack, Raises.never⟩
  | 1 => ⟨0x1000, 2, 0x7000, readWriteExecute, writeBack, Raises.never⟩

/-- Both vCPUs pass `page_already_donated` and `gpa_to_hpa`; then vCPU `0` runs to its
end, then vCPU `1`. -/
def racedSchedule : List (Fin 2) := [0, 1, 0, 1, 0, 0, 0, 0, 0, 0, 1, 1, 1, 1, 1, 1]

theorem ack_race_isolation_same_page :
    Reachable twoGuests ∧
    (∀ g g' a, Recorded ((Race.start twoGuests).ackRun samePageCalls racedSchedule).sys.root.donated g a →
      Recorded ((Race.start twoGuests).ackRun samePageCalls racedSchedule).sys.root.donated g' a → g = g') ∧
    (∀ g g' d d' x y m m', ((Race.start twoGuests).ackRun samePageCalls racedSchedule).sys.guests g = some d →
      ((Race.start twoGuests).ackRun samePageCalls racedSchedule).sys.guests g' = some d' →
      GuestMaps d x m → GuestMaps d' y m' → m.hpa / 4096 = m'.hpa / 4096 → g = g') ∧
    TrackerWf ((Race.start twoGuests).ackRun samePageCalls racedSchedule).sys.root.donated :=
  ⟨reachable_twoGuests, ack_race_isolation reachable_twoGuests samePageCalls racedSchedule⟩

/-- With the flag alone, the raced schedule records page `0x1000` for both guests; with
the acknowledgement, vCPU `0` waits in `begin_shootdown` until vCPU `1` has returned
`AGAIN`, and five more steps of vCPU `0` donate the page to guest `1`. -/
example :
    pageAlreadyDonatedTo ((Race.start twoGuests).run samePageCalls racedSchedule).sys.root.donated 1 0x1000 ∧
    pageAlreadyDonatedTo ((Race.start twoGuests).run samePageCalls racedSchedule).sys.root.donated 2 0x1000 ∧
    ((Race.start twoGuests).ackRun samePageCalls racedSchedule).pc 1 = .done .again ∧
    ((Race.start twoGuests).ackRun samePageCalls (racedSchedule ++ [0, 0, 0, 0, 0])).pc 0 = .done .success := by
  decide

/-! ### Every call returns -/

/-- The steps the calls have left. -/
def Race.stepsLeft {n : Nat} (r : Race n) : Nat := ∑ i, (r.pc i).stepsLeft

/-- With no raise between `begin_shootdown` and `end_shootdown`, a vCPU leaves that
section only at `end_shootdown`, which clears the flag. -/
theorem donateStep_leave {c : DonateCall} {pc : Pc} {s : System}
    (hr : c.raises.convert = false ∧ c.raises.unmap = false ∧ c.raises.endShootdown = false)
    (hin : pc.inShootdown = true) (hout : (donateStep c pc s).1.inShootdown = false) :
    (donateStep c pc s).2.shootdown.inFlight = false := by
  obtain ⟨hc, hu, he⟩ := hr
  cases pc with
  | convert _ => simp [donateStep, hc, Pc.inShootdown] at hout
  | unmap => simp [donateStep, hu, Pc.inShootdown] at hout
  | endShootdown =>
    simp only [donateStep]
    split_ifs with h1
    · rw [he] at h1; cases h1
    all_goals rfl
  | _ => cases hin

/-- What keeps an acknowledged run going: one vCPU at most between `begin_shootdown`
and `end_shootdown`, and one there while the flag is set. -/
structure LiveInv {n : Nat} (r : Race n) : Prop where
  shootdown : ShootdownInv r
  holder : r.sys.shootdown.inFlight = true → ∃ i, (r.pc i).inShootdown = true

section Live

variable {n : Nat} {calls : Fin n → DonateCall} {r : Race n}

theorem LiveInv.step (hr : ∀ i, (calls i).raises.convert = false ∧ (calls i).raises.unmap = false ∧
    (calls i).raises.endShootdown = false) (h : LiveInv r) (k : Fin n) : LiveInv (r.step calls k) := by
  have hself := r.step_pc_self calls k
  refine ⟨h.shootdown.step k, fun hf => ?_⟩
  rcases donateStep_shootdown (calls k) (r.pc k) r.sys with ⟨hpc, hfl⟩ | ⟨-, hin, -⟩ | ⟨hin, hout, -⟩
  · -- the flag was already set, and its holder is still there
    obtain ⟨i, hi⟩ := h.holder (hfl.symm.trans hf)
    by_cases hik : i = k
    · subst hik; exact ⟨i, by rw [hself, hpc, hi]⟩
    · exact ⟨i, by rw [r.step_pc_of_ne calls hik]; exact hi⟩
  · exact ⟨k, by rw [hself, hin]⟩
  · exact absurd ((donateStep_leave (hr k) hin hout).symm.trans hf) Bool.false_ne_true

/-- While a call has not returned, a vCPU whose call has not returned is ready. -/
theorem LiveInv.exists_ready (h : LiveInv r) {i : Fin n} (hi : 0 < (r.pc i).stepsLeft) :
    ∃ j, r.ready j = true ∧ 0 < (r.pc j).stepsLeft := by
  cases hf : r.sys.shootdown.inFlight
  · exact ⟨i, by simp [Race.ready, hf], hi⟩
  obtain ⟨k, hk⟩ := h.holder hf
  have hk0 := Pc.stepsLeft_pos_of_inCall (Pc.inCall_of_inShootdown hk)
  cases hw : (r.pc k).waits
  · exact ⟨k, by simp [Race.ready, hf, hw, hk], hk0⟩
  by_cases hall : ∀ j, j ≠ k → (r.pc j).inCall = false
  · exact ⟨k, by simpa [Race.ready, hf, hw] using hall, hk0⟩
  -- another vCPU inside its call runs on while the holder waits
  push_neg at hall
  obtain ⟨j, hjk, hj⟩ := hall
  have hj : (r.pc j).inCall = true := by simpa using hj
  have hjs : (r.pc j).inShootdown = false :=
    Bool.eq_false_iff.mpr fun hjs => hjk (h.shootdown.unique j k hjs hk)
  have hjw : (r.pc j).waits = false :=
    Bool.eq_false_iff.mpr fun hjw => by rw [Pc.inShootdown_of_waits hjw] at hjs; cases hjs
  exact ⟨j, by simp [Race.ready, hf, hjw, hjs, hj]; exact ⟨k, hw⟩, Pc.stepsLeft_pos_of_inCall hj⟩

/-- A step of a call that has not returned lowers the steps left. -/
theorem Race.stepsLeft_step {i : Fin n} (hi : 0 < (r.pc i).stepsLeft) :
    (r.step calls i).stepsLeft < r.stepsLeft := by
  refine Finset.sum_lt_sum (fun j _ => ?_) ⟨i, Finset.mem_univ _, ?_⟩
  · by_cases hj : j = i
    · subst hj
      rw [Race.step_pc_self]
      exact (donateStep_stepsLeft _ _ _).trans (Nat.sub_le _ _)
    · rw [r.step_pc_of_ne calls hj]
  · rw [Race.step_pc_self]
    have := donateStep_stepsLeft (calls i) (r.pc i) r.sys
    omega

theorem Race.stepsLeft_le (r : Race n) : r.stepsLeft ≤ 8 * n := by
  calc r.stepsLeft ≤ ∑ _i : Fin n, 8 := Finset.sum_le_sum fun i _ => (r.pc i).stepsLeft_le
    _ = 8 * n := by simp [mul_comm]

/-- **No acknowledged run is stuck**: with no raise between `begin_shootdown` and
`end_shootdown`, as many more steps as the calls have left end every call. -/
theorem LiveInv.complete (hr : ∀ i, (calls i).raises.convert = false ∧ (calls i).raises.unmap = false ∧
    (calls i).raises.endShootdown = false) (h : LiveInv r) :
    ∃ more : List (Fin n), more.length ≤ r.stepsLeft ∧ ∀ i, ∃ st, (r.ackRun calls more).pc i = .done st := by
  generalize hm : r.stepsLeft = m
  induction m using Nat.strong_induction_on generalizing r with
  | _ m ih =>
    by_cases hall : ∀ i, (r.pc i).stepsLeft = 0
    · exact ⟨[], Nat.zero_le _, fun i => Pc.stepsLeft_eq_zero.mp (hall i)⟩
    push_neg at hall
    obtain ⟨i, hi⟩ := hall
    obtain ⟨j, hj, hj0⟩ := h.exists_ready (Nat.pos_of_ne_zero hi)
    have hlt : (r.step calls j).stepsLeft < r.stepsLeft := Race.stepsLeft_step hj0
    obtain ⟨more, hlen, hdone⟩ := ih _ (hm ▸ hlt) (h.step hr j) rfl
    refine ⟨j :: more, by simp only [List.length_cons]; omega, fun k => ?_⟩
    have hstep : r.ackStep calls j = r.step calls j := if_pos hj
    simpa only [Race.ackRun, List.foldl_cons, hstep] using hdone k

theorem LiveInv.ackRun (hr : ∀ i, (calls i).raises.convert = false ∧ (calls i).raises.unmap = false ∧
    (calls i).raises.endShootdown = false) (h : LiveInv r) (sched : List (Fin n)) :
    LiveInv (r.ackRun calls sched) := by
  induction sched generalizing r with
  | nil => exact h
  | cons k sched ih =>
    refine ih ?_
    unfold Race.ackStep
    split
    · exact h.step hr k
    · exact h

end Live

/-- **Every acknowledged interleaving can finish.**  From a system with no shootdown in
flight, root vCPUs run `donate_root_page` calls whose split, `unmap` and
`end_shootdown` do not raise.  Whatever schedule they have followed, in the order the
shootdown's acknowledgement allows, at most eight more steps a call end every call:
the acknowledgement never deadlocks them. -/
theorem ack_race_completes {n : Nat} {s : System} (hf : s.shootdown.inFlight = false)
    (calls : Fin n → DonateCall)
    (hr : ∀ i, (calls i).raises.convert = false ∧ (calls i).raises.unmap = false ∧
      (calls i).raises.endShootdown = false) (sched : List (Fin n)) :
    ∃ more : List (Fin n), more.length ≤ 8 * n ∧
      ∀ i, ∃ st, ((Race.start s).ackRun calls (sched ++ more)).pc i = .done st := by
  have h : LiveInv ((Race.start s).ackRun calls sched) :=
    LiveInv.ackRun hr ⟨ShootdownInv.start s, fun h => absurd (hf.symm.trans h) Bool.false_ne_true⟩ sched
  obtain ⟨more, hlen, hdone⟩ := h.complete hr
  exact ⟨more, hlen.trans (Race.stepsLeft_le _), by simpa only [Race.ackRun, List.foldl_append] using hdone⟩

theorem ack_race_completes_same_page :
    twoGuests.shootdown.inFlight = false ∧
    (∀ i, (samePageCalls i).raises.convert = false ∧ (samePageCalls i).raises.unmap = false ∧
      (samePageCalls i).raises.endShootdown = false) ∧
    ∃ more : List (Fin 2), more.length ≤ 8 * 2 ∧
      ∀ i, ∃ st, ((Race.start twoGuests).ackRun samePageCalls (racedSchedule ++ more)).pc i = .done st :=
  ⟨rfl, by decide, ack_race_completes rfl samePageCalls (by decide) racedSchedule⟩

/-- A split that raises after the acknowledgements leaves the flag set and the other
vCPU waiting for an `end_shootdown` that never comes. -/
example :
    ((Race.start twoGuests).ackRun (Function.update samePageCalls 0
      { samePageCalls 0 with raises := { Raises.never with convert := true } }) [0, 0, 0, 0, 1, 1, 1]).pc 1 =
      .check := by
  decide

end MicroV

import MicroV.Donation.Effects

/-!
# Root vCPUs donating at once

`donate_root_page` holds the tracker's lock only inside `page_already_donated` and
`add_page_to_donated_range`, and the shootdown's in-flight flag only from
`begin_shootdown` to `end_shootdown`.  Here each of its steps is one atomic step of a
root vCPU (`donateStep`, at the program point `Pc`), with the `catch` that a raising
collaborator sends the call to, and any number of vCPUs run their calls in any
interleaving (`Race.run` over a schedule):

* `runAlone_eq_donateRootPage`: a vCPU that runs alone computes `donateRootPage`;
* **`race_shootdown_exclusive`**: in every interleaving at most one vCPU is between its
  `begin_shootdown` and its `end_shootdown`, and the flag is set while one is.  A call
  that raises there leaves the flag set with no vCPU inside;
* `donateStep_stepsLeft`: each step brings a call closer to its end.

The wait of `begin_shootdown` for the other processors' acknowledgements is not a step
of its own; `MicroV.Donation.Acknowledge` adds it as a guard on the schedule.
-/

namespace MicroV

open Ept

/-- The arguments of one `donate_root_page` call on the root, and which of its
collaborators raise. -/
structure DonateCall where
  rootGpa : BitVec 64
  g : Nat
  guestGpa : Nat
  perm : Nat
  mtype : Nat
  raises : Raises
  deriving DecidableEq, Repr

/-- `root_gpa_4k`. -/
def DonateCall.page (c : DonateCall) : BitVec 64 := Bfn.upper c.rootGpa ptFrom

/-- Where a root vCPU is in `donate_root_page`: the step it runs next, or the status it
returned.  `begin` and `convert` carry the page size `gpa_to_hpa` reported. -/
inductive Pc
  | check
  | translate
  | begin (shift : Nat)
  | convert (shift : Nat)
  | unmap
  | endShootdown
  | add
  | install
  | done (st : Status)
  deriving DecidableEq, Repr

/-- One atomic step of a root vCPU in `donate_root_page` for the call `c`: the
`expects` with `page_already_donated`, `gpa_to_hpa` with its `expects`,
`begin_shootdown`, `identity_map_convert_2m_to_4k`, `unmap`, `end_shootdown` with
`invept`, `add_page_to_donated_range`, and the installation in the guest.  A
collaborator that raises ends the call in the `catch`, with `FAILURE`. -/
def donateStep (c : DonateCall) : Pc → System → Pc × System
  | .check, s =>
    if s.root.id ≠ 0 then (.done .raised, s)
    else if pageAlreadyDonatedTo s.root.donated c.g c.page then (.install, s)
    else (.translate, s)
  | .translate, s =>
    match (if c.raises.gpaToHpa then none else s.root.ept.gpaToHpa c.page.toNat) with
    | none => (.done .failure, s)
    | some (hpa, shift) => if hpa ≠ c.page.toNat then (.done .failure, s) else (.begin shift, s)
  | .begin shift, s =>
    if s.shootdown.inFlight then (.done .again, s) else (.convert shift, s.beginShootdown)
  | .convert shift, s =>
    if shift = pdFrom ∧ c.raises.convert then (.done .failure, s)
    else (.unmap, s.setRootEpt (convertedEpt s.root.ept c.rootGpa shift))
  | .unmap, s =>
    if c.raises.unmap then (.done .failure, s)
    else (.endShootdown, s.setRootEpt (s.root.ept.unmap c.page.toNat))
  | .endShootdown, s =>
    if c.raises.endShootdown then (.done .failure, s)
    else if c.raises.invept then (.done .failure, s.endShootdown)
    else (.add, s.endShootdown)
  | .add, s =>
    if c.raises.alloc ∧ addAllocates s.root.donated c.g c.page then (.done .failure, s)
    else (.install, s.setDonated (addPageToDonatedRange s.root.donated c.g c.page))
  | .install, s =>
    let t := installRootPage s c.g c.guestGpa c.page c.perm c.mtype
    (.done t.1, t.2)
  | .done st, s => (.done st, s)

/-- `n` steps of one vCPU with no other running. -/
def runAlone (c : DonateCall) : Nat → Pc → System → Pc × System
  | 0, pc, s => (pc, s)
  | n + 1, pc, s => runAlone c n (donateStep c pc s).1 (donateStep c pc s).2

/-- Root vCPUs `Fin n`, each in its own `donate_root_page` call, on one system. -/
structure Race (n : Nat) where
  sys : System
  pc : Fin n → Pc

namespace Race

variable {n : Nat}

/-- Every vCPU at the start of its call. -/
def start (s : System) : Race n := ⟨s, fun _ => .check⟩

/-- vCPU `i` runs one step of its call. -/
def step (calls : Fin n → DonateCall) (r : Race n) (i : Fin n) : Race n :=
  ⟨(donateStep (calls i) (r.pc i) r.sys).2,
    Function.update r.pc i (donateStep (calls i) (r.pc i) r.sys).1⟩

/-- The vCPUs run one step each in the order of the schedule. -/
def run (calls : Fin n → DonateCall) (r : Race n) (sched : List (Fin n)) : Race n :=
  sched.foldl (step calls) r

@[simp] theorem step_pc_self (calls : Fin n → DonateCall) (r : Race n) (i : Fin n) :
    (r.step calls i).pc i = (donateStep (calls i) (r.pc i) r.sys).1 :=
  Function.update_same _ _ _

theorem step_pc_of_ne (calls : Fin n → DonateCall) (r : Race n) {i j : Fin n} (h : j ≠ i) :
    (r.step calls i).pc j = r.pc j :=
  Function.update_noteq h _ _

end Race

/-! ### One vCPU alone -/

theorem runAlone_done (c : DonateCall) (n : Nat) (st : Status) (s : System) :
    runAlone c n (.done st) s = (.done st, s) := by
  induction n with
  | zero => rfl
  | succ n ih => exact ih

theorem runAlone_add (c : DonateCall) (m k : Nat) (pc : Pc) (s : System) :
    runAlone c (m + k) pc s = runAlone c k (runAlone c m pc s).1 (runAlone c m pc s).2 := by
  induction m generalizing pc s with
  | zero => rw [Nat.zero_add]; rfl
  | succ m ih => rw [Nat.succ_add]; exact ih _ _

/-- From `gpa_to_hpa`, six steps run the `try` block: they end at the installation when
it succeeds, and return its status otherwise. -/
theorem runAlone_translate (c : DonateCall) (s : System) :
    runAlone c 6 .translate s =
      (if (donateTry c.raises s c.rootGpa c.page c.g).1 = .success then .install
        else .done (donateTry c.raises s c.rootGpa c.page c.g).1,
        (donateTry c.raises s c.rootGpa c.page c.g).2) := by
  dsimp only [donateTry]
  cases hg : (if c.raises.gpaToHpa then none else s.root.ept.gpaToHpa c.page.toNat) with
  | none => simp [runAlone, donateStep, hg, runAlone_done]
  | some v =>
    obtain ⟨hpa, shift⟩ := v
    by_cases h1 : hpa ≠ c.page.toNat
    · simp [runAlone, donateStep, hg, h1, runAlone_done]
    by_cases h2 : s.shootdown.inFlight
    · simp [runAlone, donateStep, hg, h1, h2, runAlone_done]
    by_cases h3 : shift = pdFrom ∧ c.raises.convert
    · simp [runAlone, donateStep, hg, h1, h2, h3, runAlone_done]
    by_cases h4 : c.raises.unmap
    · simp [runAlone, donateStep, hg, h1, h2, h3, h4, runAlone_done]
    by_cases h5 : c.raises.endShootdown
    · simp [runAlone, donateStep, hg, h1, h2, h3, h4, h5, runAlone_done]
    by_cases h6 : c.raises.invept
    · simp [runAlone, donateStep, hg, h1, h2, h3, h4, h5, h6, runAlone_done]
    by_cases h7 : c.raises.alloc ∧ addAllocates s.root.donated c.g c.page
    · simp [runAlone, donateStep, hg, h1, h2, h3, h4, h5, h6, h7, runAlone_done]
    · simp [runAlone, donateStep, hg, h1, h2, h3, h4, h5, h6, h7]

/-- **Alone, a vCPU computes `donate_root_page`**: its eight steps from the start of a
call return what `donateRootPage` returns with the call's collaborators raising as it
says, in the state it leaves. -/
theorem runAlone_eq_donateRootPage (c : DonateCall) (s : System) :
    runAlone c 8 .check s =
      (.done (donateRootPage c.raises s c.rootGpa c.g c.guestGpa c.perm c.mtype).1,
        (donateRootPage c.raises s c.rootGpa c.g c.guestGpa c.perm c.mtype).2) := by
  have hpg : Bfn.upper c.rootGpa ptFrom = c.page := rfl
  dsimp only [donateRootPage]
  rw [hpg]
  by_cases h0 : s.root.id ≠ 0
  · simp [runAlone, donateStep, h0, runAlone_done]
  cases hd : pageAlreadyDonatedTo s.root.donated c.g c.page
  · have h1 : runAlone c 1 .check s = (.translate, s) := by simp [runAlone, donateStep, h0, hd]
    rw [show 8 = 1 + (6 + 1) from rfl, runAlone_add, h1, runAlone_add, runAlone_translate]
    simp only [hd, Bool.false_eq_true, if_false]
    split_ifs with hs
    · rfl
    · simp [runAlone, donateStep]
  · simp [runAlone, donateStep, h0, hd, runAlone_done]

/-! ### The shootdown flag -/

/-- Between `begin_shootdown` and `end_shootdown`. -/
def Pc.inShootdown : Pc → Bool
  | .convert _ | .unmap | .endShootdown => true
  | _ => false

theorem installRootPage_shootdown (s : System) (g guestGpa : Nat) (p : BitVec 64) (perm mtype : Nat) :
    (installRootPage s g guestGpa p perm mtype).2.shootdown = s.shootdown := by
  unfold installRootPage
  split
  · rfl
  · split_ifs
    · rfl
    · split <;> rfl

/-- What one step does to the shootdown: nothing; or the vCPU enters the section and
sets the flag, which was clear; or it leaves the section, clearing the flag at
`end_shootdown` or leaving it as it was when a collaborator raises. -/
theorem donateStep_shootdown (c : DonateCall) (pc : Pc) (s : System) :
    ((donateStep c pc s).1.inShootdown = pc.inShootdown ∧
      (donateStep c pc s).2.shootdown.inFlight = s.shootdown.inFlight) ∨
    (s.shootdown.inFlight = false ∧ (donateStep c pc s).1.inShootdown = true ∧
      (donateStep c pc s).2.shootdown.inFlight = true) ∨
    (pc.inShootdown = true ∧ (donateStep c pc s).1.inShootdown = false ∧
      ((donateStep c pc s).2.shootdown.inFlight = true → s.shootdown.inFlight = true)) := by
  cases pc with
  | check => left; simp only [donateStep]; split_ifs <;> exact ⟨rfl, rfl⟩
  | translate =>
    left; simp only [donateStep]
    split
    · exact ⟨rfl, rfl⟩
    · split_ifs <;> exact ⟨rfl, rfl⟩
  | begin shift =>
    simp only [donateStep]
    cases hf : s.shootdown.inFlight
    · exact .inr (.inl ⟨rfl, rfl, rfl⟩)
    · exact .inl ⟨rfl, hf⟩
  | convert shift | unmap =>
    simp only [donateStep]
    split_ifs
    · exact .inr (.inr ⟨rfl, rfl, id⟩)
    · exact .inl ⟨rfl, rfl⟩
  | endShootdown =>
    simp only [donateStep]
    split_ifs
    · exact .inr (.inr ⟨rfl, rfl, id⟩)
    all_goals exact .inr (.inr ⟨rfl, rfl, fun h => by simp at h⟩)
  | add => left; simp only [donateStep]; split_ifs <;> exact ⟨rfl, rfl⟩
  | install => exact .inl ⟨rfl, congrArg Shootdown.inFlight (installRootPage_shootdown ..)⟩
  | done st => exact .inl ⟨rfl, rfl⟩

/-- No two vCPUs are between `begin_shootdown` and `end_shootdown`, and the flag is set
while one is. -/
structure ShootdownInv {n : Nat} (r : Race n) : Prop where
  flag : ∀ i, (r.pc i).inShootdown = true → r.sys.shootdown.inFlight = true
  unique : ∀ i j, (r.pc i).inShootdown = true → (r.pc j).inShootdown = true → i = j

section Shootdown

variable {n : Nat} {calls : Fin n → DonateCall} {r : Race n}

theorem ShootdownInv.start (s : System) : ShootdownInv (Race.start s : Race n) :=
  ⟨fun _ h => (by cases h), fun _ _ h => (by cases h)⟩

theorem ShootdownInv.step (h : ShootdownInv r) (i : Fin n) : ShootdownInv (r.step calls i) := by
  have hother : ∀ j, j ≠ i → (r.step calls i).pc j = r.pc j := fun _ => r.step_pc_of_ne calls
  have hself := r.step_pc_self calls i
  have hsys : (r.step calls i).sys = (donateStep (calls i) (r.pc i) r.sys).2 := rfl
  rcases donateStep_shootdown (calls i) (r.pc i) r.sys with ⟨hpc, hfl⟩ | ⟨hfl, hpc, hfl'⟩ |
    ⟨hin, hpc, -⟩
  · -- nothing changes
    have hsame : ∀ j, ((r.step calls i).pc j).inShootdown = (r.pc j).inShootdown := fun j => by
      by_cases hj : j = i
      · rw [hj, hself, hpc]
      · rw [hother j hj]
    exact ⟨fun j hj => by rw [hsys, hfl]; exact h.flag j (by rwa [← hsame]),
      fun j k hj hk => h.unique j k (by rwa [← hsame]) (by rwa [← hsame])⟩
  · -- vCPU `i` enters, and no one was inside
    have honly : ∀ j, ((r.step calls i).pc j).inShootdown = true → j = i := fun j hj => by
      by_cases hji : j = i
      · exact hji
      · rw [hother j hji] at hj
        have := h.flag j hj
        rw [hfl] at this
        cases this
    exact ⟨fun _ _ => by rw [hsys, hfl'], fun j k hj hk => (honly j hj).trans (honly k hk).symm⟩
  · -- vCPU `i` leaves, and it was the only one inside
    have hnone : ∀ j, ((r.step calls i).pc j).inShootdown = false := fun j => by
      by_cases hj : j = i
      · rw [hj, hself, hpc]
      · rw [hother j hj]
        cases hj' : (r.pc j).inShootdown
        · rfl
        · exact absurd (h.unique j i hj' hin) hj
    exact ⟨fun j hj => (by rw [hnone j] at hj; cases hj), fun j _ hj => (by rw [hnone j] at hj; cases hj)⟩

theorem ShootdownInv.run (h : ShootdownInv r) (sched : List (Fin n)) :
    ShootdownInv (r.run calls sched) := by
  induction sched generalizing r with
  | nil => exact h
  | cons i sched ih => exact ih (h.step i)

end Shootdown

/-- The steps a call has left at its program point. -/
def Pc.stepsLeft : Pc → Nat
  | .check => 8
  | .translate => 7
  | .begin _ => 6
  | .convert _ => 5
  | .unmap => 4
  | .endShootdown => 3
  | .add => 2
  | .install => 1
  | .done _ => 0

theorem Pc.stepsLeft_eq_zero {pc : Pc} : pc.stepsLeft = 0 ↔ ∃ st, pc = .done st := by
  cases pc <;> simp [Pc.stepsLeft]

theorem Pc.stepsLeft_le (pc : Pc) : pc.stepsLeft ≤ 8 := by
  cases pc <;> simp [Pc.stepsLeft]

/-- Each step of a call brings it closer to its end: `begin_shootdown` returns `AGAIN`
rather than wait for the shootdown in flight, and a raise ends the call. -/
theorem donateStep_stepsLeft (c : DonateCall) (pc : Pc) (s : System) :
    (donateStep c pc s).1.stepsLeft ≤ pc.stepsLeft - 1 := by
  cases pc with
  | translate =>
    simp only [donateStep]
    split
    · simp [Pc.stepsLeft]
    · split_ifs <;> simp [Pc.stepsLeft]
  | install | done _ => simp [donateStep, Pc.stepsLeft]
  | _ => simp only [donateStep]; split_ifs <;> simp [Pc.stepsLeft]

/-- Guests `1` and `2` next to a root identity-mapped by 2M pages up to 1G. -/
def twoGuests : System := oneGuest.createDomain 2 ⟨false, false⟩

theorem reachable_twoGuests : Reachable twoGuests :=
  .step reachable_oneGuest (.create ⟨false, false⟩ (by decide) rfl)

end MicroV

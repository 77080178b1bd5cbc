import MicroV.Donation.Bulk

/-!
# Every page of the root has one owner

`System.init` gives the root every page below `MAX_PHYS_ADDR`, identity-mapped.  A
donation moves a page out of the root's EPT into the tracker, a reclaim moves it back.
Seen one address at a time, the donation protocol is a small machine whose states are
the address's owners:

* `Owner`, `OwnedBy s a o`: `a` is the root's (its EPT translates `a`), borrower `g`'s
  (the root has let go of `a` and the tracker records it for `g`), or no one's;
  `Inv.ownedBy_unique`: in a state of the invariant an address has one owner;
* `Moves`: the machine's transitions.  An address stays, is lent by the root, comes back
  to the root, or is lost from the root or from a borrower; it never goes from one
  borrower to another, and a lost address stays lost;
* `donate_moves`, `reclaim_moves`, `reclaimAll_moves`: what each operation does to the
  owner of each address: only the addresses of its page move, and only to its borrower
  or from it;
* **`reachable_step_moves`**: every step from a reachable state moves every address
  along `Moves`; **`lost_forever`**: a lost address is lost in every later state.

An address is lost only when a collaborator raises after the root has let go of it:
`end_shootdown`, `invept` or the tracker's allocation in `donate_root_page` (the page
is unmapped and not yet recorded), or `map_4k_rwe` in `reclaim_root_page` (the page is
forgotten and not yet mapped back).  Runs free of those raises lose nothing:

* `QuietStep`, `QuietReachable`: the steps in which none of those collaborators
  raises, and the states they reach from setup;
* **`quietReachable_owner`**: in every state such a run reaches, each address below
  `MAX_PHYS_ADDR` is either mapped by the root to itself and recorded for no one, or
  unmapped by the root and recorded for exactly one borrower.
-/

namespace MicroV

open Ept PageRangeSet

/-- Who has an address. -/
inductive Owner
  | root
  | guest (g : Nat)
  | lost
  deriving DecidableEq, Repr

/-- The root has `a` when its EPT translates it; borrower `g` has it when the root does
not and the tracker records it for `g`; no one has it otherwise. -/
def OwnedBy (s : System) (a : Nat) : Owner → Prop
  | .root => (s.root.ept.translate a).isSome
  | .guest g => s.root.ept.translate a = none ∧ Recorded s.root.donated g a
  | .lost => s.root.ept.translate a = none ∧ ∀ g, ¬ Recorded s.root.donated g a

/-- The abstract donation protocol for one address. -/
inductive Moves : Owner → Owner → Prop
  | stay (o : Owner) : Moves o o
  | lend (g : Nat) : Moves .root (.guest g)
  | back (g : Nat) : Moves (.guest g) .root
  | dropRoot : Moves .root .lost
  | dropGuest (g : Nat) : Moves (.guest g) .lost

/-- Nothing leaves the lost state. -/
theorem Moves.of_lost {o : Owner} (h : Moves .lost o) : o = .lost := by
  cases h; rfl

/-- No collaborator raises once the root has let go of the page: `end_shootdown`,
`invept` and the allocation in `add_page_to_donated_range`. -/
def Raises.Quiet (r : Raises) : Prop := r.endShootdown = false ∧ r.invept = false ∧ r.alloc = false

section Owners

variable {s s' : System} {a : Nat} {o o' : Owner}

/-- Every address has an owner. -/
theorem ownedBy_exists (s : System) (a : Nat) : ∃ o, OwnedBy s a o := by
  by_cases ht : (s.root.ept.translate a).isSome
  · exact ⟨.root, ht⟩
  have ht := Option.not_isSome_iff_eq_none.mp ht
  by_cases hg : ∃ g, Recorded s.root.donated g a
  · obtain ⟨g, hg⟩ := hg
    exact ⟨.guest g, ht, hg⟩
  · exact ⟨.lost, ht, not_exists.mp hg⟩

/-- **In a state of the invariant an address has one owner**: no borrower has an address
the root translates, and no two borrowers have one address. -/
theorem Inv.ownedBy_unique (h : Inv s) (ho : OwnedBy s a o) (ho' : OwnedBy s a o') : o = o' :=
  match o, o', ho, ho' with
  | .root, .root, _, _ | .lost, .lost, _, _ => rfl
  | .root, .guest _, ht, ⟨ht', _⟩ | .root, .lost, ht, ⟨ht', _⟩
  | .guest _, .root, ⟨ht', _⟩, ht | .lost, .root, ⟨ht', _⟩, ht => absurd ht (by simp [OwnedBy, ht'])
  | .guest g, .guest g', ⟨_, hg⟩, ⟨_, hg'⟩ => by rw [h.exclusive g g' a hg hg']
  | .guest g, .lost, ⟨_, hg⟩, ⟨_, hn⟩ | .lost, .guest g, ⟨_, hn⟩, ⟨_, hg⟩ => absurd hg (hn g)

/-- A change that keeps the root's translation of `a` and the tracker's records of it
keeps `a`'s owner. -/
theorem Inv.owner_stays (h : Inv s) (ho : OwnedBy s a o) (ho' : OwnedBy s' a o')
    (ht : s'.root.ept.translate a = s.root.ept.translate a)
    (hr : ∀ g, Recorded s'.root.donated g a ↔ Recorded s.root.donated g a) : o' = o :=
  h.ownedBy_unique (by cases o' <;> simpa only [OwnedBy, ht, hr] using ho') ho

theorem Inv.owner_stays_of_root (h : Inv s) (ho : OwnedBy s a o) (ho' : OwnedBy s' a o')
    (hr : s'.root = s.root) : o' = o :=
  h.owner_stays ho ho' (by rw [hr]) fun _ => by rw [hr]

/-- An address of a page the root's EPT translates is the root's. -/
theorem Inv.owner_of_page (h : Inv s) (ho : OwnedBy s a o) {p : Nat} {m : Mapping}
    (hm : s.root.ept.translate p = some m) (hp : a / 2 ^ 12 = p / 2 ^ 12) : o = .root :=
  h.ownedBy_unique ho (show (s.root.ept.translate a).isSome by rw [translate_isSome_page hp, hm]; rfl)

/-- An address of a page recorded for `g` is `g`'s. -/
theorem Inv.owner_of_recorded (h : Inv s) (ho : OwnedBy s a o) {g : Nat} {p : BitVec 64}
    (hr : Recorded s.root.donated g p.toNat) (hal : p.toNat % 4096 = 0)
    (hp : a / 2 ^ 12 = p.toNat / 2 ^ 12) : o = .guest g := by
  have hra : Recorded s.root.donated g a := by
    rwa [recorded_page h.wf, show a / 4096 * 4096 = p.toNat by omega]
  exact h.ownedBy_unique ho ⟨h.unmapped g a hra, hra⟩

end Owners

/-! ### What each operation does to an owner -/

section Operations

variable {s s' : System} {a : Nat} {o o' : Owner}

/-- **A `try` block that fails without those raises keeps the root's translations and
the tracker**: it stopped before `unmap`. -/
theorem donateTry_quiet {r : Raises} (hq : r.Quiet) (s : System) (rootGpa p : BitVec 64) (g : Nat)
    (hf : (donateTry r s rootGpa p g).1 ≠ .success) :
    (∀ a, (donateTry r s rootGpa p g).2.root.ept.translate a = s.root.ept.translate a) ∧
      (donateTry r s rootGpa p g).2.root.donated = s.root.donated := by
  obtain ⟨h5, h6, h7⟩ := hq
  unfold donateTry at hf ⊢
  revert hf
  cases (if r.gpaToHpa then none else s.root.ept.gpaToHpa p.toNat) with
  | none => exact fun _ => ⟨fun _ => rfl, rfl⟩
  | some v =>
    dsimp only
    simp only [h5, h6, h7, Bool.false_eq_true, false_and, if_false]
    split_ifs <;>
      first
      | exact fun hf => absurd rfl hf
      | exact fun _ => ⟨fun _ => rfl, rfl⟩
      | exact fun _ => ⟨fun a => translate_convertedEpt _ _ _ a, rfl⟩

/-- A status chosen by an `if` whose first branch fails came from the second. -/
theorem fst_ite_eq_success {c : Prop} [Decidable c] {x y : Status × System}
    (h : (if c then x else y).1 = .success) (hx : x.1 ≠ .success) : ¬ c ∧ y.1 = .success := by
  by_cases hc : c
  · rw [if_pos hc] at h; exact absurd h hx
  · rw [if_neg hc] at h; exact ⟨hc, h⟩

/-- A `try` block that succeeds has run `invept` to its end: it passed each test before
it. -/
theorem donateTryInvepts_of_success {r : Raises} {s : System} {rootGpa p : BitVec 64} {g : Nat}
    (hs : (donateTry r s rootGpa p g).1 = .success) : donateTryInvepts r s p = true := by
  unfold donateTry at hs
  unfold donateTryInvepts
  revert hs
  cases (if r.gpaToHpa then none else s.root.ept.gpaToHpa p.toNat) with
  | none => exact nofun
  | some v =>
    dsimp only
    intro hs
    obtain ⟨h1, hs⟩ := fst_ite_eq_success hs nofun
    obtain ⟨h2, hs⟩ := fst_ite_eq_success hs nofun
    obtain ⟨h3, hs⟩ := fst_ite_eq_success hs nofun
    obtain ⟨h4, hs⟩ := fst_ite_eq_success hs nofun
    obtain ⟨h5, hs⟩ := fst_ite_eq_success hs nofun
    obtain ⟨h6, -⟩ := fst_ite_eq_success hs nofun
    simp only [ne_eq, not_not, Bool.not_eq_true, not_and] at h1 h2 h3 h4 h5 h6
    simpa [h1, h2, h4, h5, h6, imp_iff_not_or] using h3

/-- **What a `try` block does to an owner**: an address keeps its owner, or it is an
address of the donated page, the root's, and goes to the borrower once `invept` has
run, or to no one when `end_shootdown`, `invept` or the allocation raises. -/
theorem donateTry_moves (h : Inv s) (r : Raises) (rootGpa : BitVec 64) (g : Nat)
    (ho : OwnedBy s a o) (ho' : OwnedBy (donateTry r s rootGpa (Bfn.upper rootGpa ptFrom) g).2 a o') :
    o' = o ∨ a / 2 ^ 12 = (Bfn.upper rootGpa ptFrom).toNat / 2 ^ 12 ∧ o = .root ∧
      (o' = .guest g ∧ donateTryInvepts r s (Bfn.upper rootGpa ptFrom) = true ∨
        o' = .lost ∧ ¬ r.Quiet) := by
  have h' := h.tryBlock r rootGpa g
  obtain ⟨-, ⟨-, hroot⟩ | ⟨shift, hg, -, ⟨-, hroot⟩ | ⟨hf, hroot⟩ | ⟨hs, hroot⟩⟩⟩ :=
    donateTry_root r s rootGpa g
  · exact .inl (h.owner_stays_of_root ho ho' hroot)
  · exact .inl (h.owner_stays ho ho' (by rw [hroot, translate_convertedEpt]) fun _ => by rw [hroot])
  all_goals
    obtain ⟨m, hm, -⟩ := translate_of_gpaToHpa hg
    have ht : ∀ b, (donateTry r s rootGpa (Bfn.upper rootGpa ptFrom) g).2.root.ept.translate b =
        if b / 2 ^ 12 = (Bfn.upper rootGpa ptFrom).toNat / 2 ^ 12 then none else s.root.ept.translate b := by
      rw [hroot]; exact translate_unmapConverted hg (h.shift_ne hg)
  · by_cases hp : a / 2 ^ 12 = (Bfn.upper rootGpa ptFrom).toNat / 2 ^ 12
    · refine .inr ⟨hp, h.owner_of_page ho hm hp, .inr ⟨h'.ownedBy_unique ho' ⟨?_, ?_⟩, fun hq => ?_⟩⟩
      · rw [ht, if_pos hp]
      · rw [hroot]
        obtain ⟨ma, hma⟩ := Option.isSome_iff_exists.mp
          (show (s.root.ept.translate a).isSome by rw [translate_isSome_page hp, hm]; rfl)
        exact h.not_recorded_of_translate hma
      · have := (donateTry_quiet hq s rootGpa _ g hf).1 (Bfn.upper rootGpa ptFrom).toNat
        rw [ht, if_pos rfl, hm] at this
        cases this
    · exact .inl (h.owner_stays ho ho' (by rw [ht, if_neg hp]) fun _ => by rw [hroot])
  · have hal := upper_ptFrom_aligned rootGpa
    obtain ⟨-, hrec⟩ := addPageToDonatedRange_spec h.wf hal
      (by have := (h.identity _ m hm).1; omega) (h.not_recorded_of_translate hm g)
    by_cases hp : a / 2 ^ 12 = (Bfn.upper rootGpa ptFrom).toNat / 2 ^ 12
    · refine .inr ⟨hp, h.owner_of_page ho hm hp,
        .inl ⟨h'.ownedBy_unique ho' ⟨?_, ?_⟩, donateTryInvepts_of_success hs⟩⟩
      · rw [ht, if_pos hp]
      · rw [hroot]
        exact (hrec g a).mpr (.inr ⟨rfl, by simp only [InPage]; omega⟩)
    · refine .inl (h.owner_stays ho ho' (by rw [ht, if_neg hp]) fun g' => ?_)
      rw [hroot]
      exact (hrec g' a).trans (or_iff_left fun ⟨_, hin⟩ => hp (by simp only [InPage] at hin; omega))

/-- **What `donate_root_page` does to an owner**: that of its `try` block, or nothing. -/
theorem donate_moves (h : Inv s) (r : Raises) (rootGpa : BitVec 64) (g guestGpa perm mtype : Nat)
    (ho : OwnedBy s a o) (ho' : OwnedBy (donateRootPage r s rootGpa g guestGpa perm mtype).2 a o') :
    o' = o ∨ a / 2 ^ 12 = (Bfn.upper rootGpa ptFrom).toNat / 2 ^ 12 ∧ o = .root ∧
      (o' = .guest g ∧ donateInvepts r s rootGpa g = true ∨ o' = .lost ∧ ¬ r.Quiet) := by
  have hal := upper_ptFrom_aligned rootGpa
  unfold donateRootPage at ho'
  by_cases h0 : s.root.id ≠ 0
  · rw [if_pos h0] at ho'
    exact .inl (h.owner_stays_of_root ho ho' rfl)
  rw [if_neg h0] at ho'
  by_cases hd : pageAlreadyDonatedTo s.root.donated g (Bfn.upper rootGpa ptFrom) = true
  · simp only [hd, if_true] at ho'
    exact .inl (h.owner_stays_of_root ho ho' (installRootPage_guests s g guestGpa perm mtype hal).1)
  simp only [hd, Bool.false_eq_true, if_false] at ho'
  have hi : donateTryInvepts r s (Bfn.upper rootGpa ptFrom) = true → donateInvepts r s rootGpa g = true :=
    fun hi => by simp only [donateInvepts, not_not.mp h0, hd, hi]; rfl
  have ho'' : OwnedBy (donateTry r s rootGpa (Bfn.upper rootGpa ptFrom) g).2 a o' := by
    split_ifs at ho'
    · have hinst := (installRootPage_guests (donateTry r s rootGpa (Bfn.upper rootGpa ptFrom) g).2 g
        guestGpa perm mtype hal).1
      cases o' <;> simpa only [OwnedBy, hinst] using ho'
    · exact ho'
  exact (donateTry_moves h r rootGpa g ho ho'').imp_right
    fun ⟨hp, hr, hm⟩ => ⟨hp, hr, hm.imp_left fun ⟨hg, hs⟩ => ⟨hg, hi hs⟩⟩

/-- **What `reclaim_root_page` does to an owner**: an address keeps its owner, or it is
an address of the reclaimed page, the borrower's, and goes back to the root, or to no
one when `map_4k_rwe` raises. -/
theorem reclaim_moves (h : Inv s) (g : Nat) (rootGpa : BitVec 64)
    (ho : OwnedBy s a o) (ho' : OwnedBy (reclaimRootPage s g rootGpa).2 a o') :
    o' = o ∨ a / 2 ^ 12 = (Bfn.upper rootGpa ptFrom).toNat / 2 ^ 12 ∧ o = .guest g ∧
      (o' = .root ∨ o' = .lost ∧ (reclaimRootPage s g rootGpa).1 = .raised) := by
  have hal := upper_ptFrom_aligned rootGpa
  have h' := h.reclaim g rootGpa
  obtain ⟨-, hrec⟩ := removePageFromDonatedRange_spec h.wf hal (g := g)
  have hkeep : ¬ a / 2 ^ 12 = (Bfn.upper rootGpa ptFrom).toNat / 2 ^ 12 → ∀ g',
      Recorded (removePageFromDonatedRange s.root.donated g (Bfn.upper rootGpa ptFrom)) g' a ↔
        Recorded s.root.donated g' a := fun hp g' =>
    (hrec g' a).trans (and_iff_left fun ⟨_, hin⟩ => hp (by simp only [InPage] at hin; omega))
  rcases reclaimRootPage_eq s g rootGpa with heq | ⟨-, -, hd, ⟨e, hm, heq⟩ | ⟨-, heq⟩⟩
  · rw [heq] at ho'
    exact .inl (h.owner_stays_of_root ho ho' rfl)
  all_goals
    rw [heq] at ho' h' ⊢
    have hr := (pageAlreadyDonatedTo_iff h.wf).mp hd
  · by_cases hp : a / 2 ^ 12 = (Bfn.upper rootGpa ptFrom).toNat / 2 ^ 12
    · refine .inr ⟨hp, h.owner_of_recorded ho hr hal hp, .inl (h'.ownedBy_unique ho' ?_)⟩
      show Option.isSome _
      rw [System.setRootEpt_root_ept, translate_map4k hm, if_pos hp]
      rfl
    · exact .inl (h.owner_stays ho ho' (by rw [System.setRootEpt_root_ept, translate_map4k hm, if_neg hp])
        (hkeep hp))
  · by_cases hp : a / 2 ^ 12 = (Bfn.upper rootGpa ptFrom).toNat / 2 ^ 12
    · have hra : Recorded s.root.donated g a := by
        rwa [recorded_page h.wf, show a / 4096 * 4096 = (Bfn.upper rootGpa ptFrom).toNat by omega]
      refine .inr ⟨hp, h.owner_of_recorded ho hr hal hp, .inr ⟨h'.ownedBy_unique ho'
        ⟨h.unmapped g a hra, fun g' hr' => ?_⟩, rfl⟩⟩
      obtain ⟨hr', hn⟩ := (hrec g' a).mp hr'
      exact hn ⟨h.exclusive _ _ _ hr' hra, by simp only [InPage]; omega⟩
    · exact .inl (h.owner_stays ho ho' rfl (hkeep hp))

/-- **What `reclaim_root_pages` does to an owner**: an address keeps its owner, or it is
the borrower's and goes back to the root. -/
theorem reclaimAll_moves (h : Inv s) {g : Nat} {st : Status} (hr : reclaimRootPages s g = some (st, s'))
    (ho : OwnedBy s a o) (ho' : OwnedBy s' a o') : o' = o ∨ o = .guest g ∧ o' = .root := by
  have h' := h.reclaimAll hr
  unfold reclaimRootPages at hr
  split_ifs at hr
  · cases hr; exact .inl (h.owner_stays_of_root ho ho' rfl)
  · cases hr; exact .inl (h.owner_stays_of_root ho ho' rfl)
  split at hr
  · cases hr; exact .inl (h.owner_stays_of_root ho ho' rfl)
  · next set hl =>
    have hw := h.wf g set hl
    rw [mapRanges_eq hw, Option.map_some'] at hr
    cases hml : mapList set.pages s.root.ept with
    | error e =>
      rw [hml] at hr
      cases hr
      rw [mapList_error (pages_increasing hw) (fun p hp => ((mem_pages hw).mp hp).1) hml] at ho'
      exact .inl (h.owner_stays_of_root ho ho' rfl)
    | ok e =>
      rw [hml] at hr
      cases hr
      obtain ⟨e', he', ht⟩ := mapList_ok (mapList_ok_mem hml) s.root.ept
      rw [hml, Except.ok.injEq] at he'
      subst he'
      by_cases hp : ∃ p ∈ set.pages, a / 4096 = p.toNat / 4096
      · obtain ⟨p, hp', hap⟩ := hp
        obtain ⟨hal, hcov⟩ := (mem_pages hw).mp hp'
        refine .inr ⟨h.owner_of_recorded ho ⟨set, hl, hcov⟩ hal (by omega), h'.ownedBy_unique ho' ?_⟩
        show Option.isSome _
        rw [System.setDonated_root_ept, System.setRootEpt_root_ept, ht, if_pos ⟨p, hp', hap⟩]
        rfl
      · refine .inl (h.owner_stays ho ho' (by
          rw [System.setDonated_root_ept, System.setRootEpt_root_ept, ht, if_neg hp]) fun g' => ?_)
        rw [System.setDonated_root_donated, recorded_erase]
        refine and_iff_right_of_imp fun hr' hgg => hp ?_
        subst hgg
        obtain ⟨q, hq, hin⟩ := (recorded_iff_exists_page h.wf
          (by have := h.recorded_lt g' a hr'; omega)).mp hr'
        rw [donatedPages, hl, Option.getD_some] at hq
        have := ((mem_pages hw).mp hq).1
        exact ⟨q, hq, by simp only [InPage] at hin; omega⟩

/-- Every step moves every address along the abstract machine. -/
theorem Step.moves (h : Inv s) (hst : Step s s') (ho : OwnedBy s a o) (ho' : OwnedBy s' a o') :
    Moves o o' := by
  cases hst with
  | donate r rootGpa guestGpa perm mtype _ =>
    rcases donate_moves h r rootGpa _ guestGpa perm mtype ho ho' with rfl | ⟨-, rfl, ⟨rfl, -⟩ | ⟨rfl, -⟩⟩
    · exact .stay _
    · exact .lend _
    · exact .dropRoot
  | reclaim g rootGpa =>
    rcases reclaim_moves h g rootGpa ho ho' with rfl | ⟨-, rfl, rfl | ⟨rfl, -⟩⟩
    · exact .stay _
    · exact .back _
    · exact .dropGuest _
  | reclaimAll g hr =>
    rcases reclaimAll_moves h hr ho ho' with rfl | ⟨rfl, rfl⟩
    · exact .stay _
    · exact .back _
  | create info _ _ | destroy g =>
    rw [h.owner_stays_of_root ho ho' rfl]
    exact .stay _

end Operations

/-- **Every step of the system moves each address along the abstract protocol.**  From
every reachable state, a donation, a reclaim, a guest's creation or destruction either
leaves an address with its owner, or moves it from the root to a borrower or to no one,
or from a borrower back to the root or to no one. -/
theorem reachable_step_moves {s s' : System} (hs : Reachable s) (hst : Step s s') {a : Nat}
    {o o' : Owner} (ho : OwnedBy s a o) (ho' : OwnedBy s' a o') : Moves o o' :=
  hst.moves hs.inv ho ho'

/-- Guest `1` borrows page `0x1000` of the root. -/
theorem reachable_step_moves_lend :
    Reachable oneGuest ∧ OwnedBy oneGuest 0x1000 .root ∧
    OwnedBy (donateRootPage Raises.never oneGuest 0x1000 1 0x5000 readWriteExecute writeBack).2
      0x1000 (.guest 1) ∧ Moves .root (.guest 1) := by
  have hs := reachable_oneGuest
  have ho : OwnedBy oneGuest 0x1000 .root := (by decide : (oneGuest.root.ept.translate 0x1000).isSome)
  have ho' : OwnedBy (donateRootPage Raises.never oneGuest 0x1000 1 0x5000 readWriteExecute writeBack).2
      0x1000 (.guest 1) :=
    ⟨by decide, (pageAlreadyDonatedTo_iff (hs.step (.donate Raises.never 0x1000 0x5000
      readWriteExecute writeBack (by decide))).inv.wf).mp (by decide : pageAlreadyDonatedTo
        (donateRootPage Raises.never oneGuest 0x1000 1 0x5000 readWriteExecute writeBack).2.root.donated
        1 0x1000 = true)⟩
  exact ⟨hs, ho, ho', reachable_step_moves hs (.donate Raises.never 0x1000 0x5000 readWriteExecute
    writeBack (by decide)) ho ho'⟩

section Runs

variable {s s' : System}

theorem Reachable.run (hs : Reachable s) (hrun : Relation.ReflTransGen Step s s') : Reachable s' := by
  induction hrun with
  | refl => exact hs
  | tail _ hst ih => exact ih.step hst

end Runs

/-- **A lost address is lost for good.**  When the root does not translate `a` and no
borrower has it recorded, in a reachable state, no run of donations, reclaims, guest
creations and destructions from there gives `a` back to the root or to a borrower. -/
theorem lost_forever {s s' : System} (hs : Reachable s) (hrun : Relation.ReflTransGen Step s s')
    {a : Nat} (hl : OwnedBy s a .lost) : OwnedBy s' a .lost := by
  induction hrun with
  | refl => exact hl
  | tail hrun hst ih =>
    obtain ⟨o, ho⟩ := ownedBy_exists _ a
    rwa [← (hst.moves (hs.run hrun).inv ih ho).of_lost]

/-- Guest `1` borrows page `0x1000`, and `end_shootdown` raises. -/
def pageLostToShootdown : System :=
  (donateRootPage { Raises.never with endShootdown := true } oneGuest 0x1000 1 0x5000
    readWriteExecute writeBack).2

/-- With page `0x1000` lost to the raise, donating it again does not bring it back. -/
theorem lost_forever_end_shootdown :
    Reachable pageLostToShootdown ∧ Relation.ReflTransGen Step pageLostToShootdown
      (donateRootPage Raises.never pageLostToShootdown 0x1000 1 0x5000 readWriteExecute writeBack).2 ∧
    OwnedBy pageLostToShootdown 0x1000 .lost ∧
    OwnedBy (donateRootPage Raises.never pageLostToShootdown 0x1000 1 0x5000 readWriteExecute
      writeBack).2 0x1000 .lost := by
  have hs : Reachable pageLostToShootdown := reachable_oneGuest.step (.donate _ 0x1000 0x5000
    readWriteExecute writeBack (by decide))
  have hrun : Relation.ReflTransGen Step pageLostToShootdown
      (donateRootPage Raises.never pageLostToShootdown 0x1000 1 0x5000 readWriteExecute writeBack).2 :=
    .single (.donate Raises.never 0x1000 0x5000 readWriteExecute writeBack (by decide))
  have hl : OwnedBy pageLostToShootdown 0x1000 .lost := ⟨by decide, fun _ ⟨_, hl, _⟩ => by cases hl⟩
  exact ⟨hs, hrun, hl, lost_forever hs hrun hl⟩

/-! ### Runs without a raise -/

/-- A `Step` in which no collaborator raises once the root has let go of a page. -/
inductive QuietStep : System → System → Prop
  | donate {s : System} {r : Raises} (hq : r.Quiet) (rootGpa : BitVec 64) {g : Nat}
      (guestGpa perm mtype : Nat) (hg : (s.guests g).isSome) :
      QuietStep s (donateRootPage r s rootGpa g guestGpa perm mtype).2
  | reclaim {s : System} (g : Nat) (rootGpa : BitVec 64)
      (hr : (reclaimRootPage s g rootGpa).1 ≠ .raised) : QuietStep s (reclaimRootPage s g rootGpa).2
  | reclaimAll {s s' : System} {st : Status} (g : Nat) (h : reclaimRootPages s g = some (st, s')) :
      QuietStep s s'
  | create {s : System} {g : Nat} (info : SodInfo) (h0 : g ≠ 0) (hg : s.guests g = none) :
      QuietStep s (s.createDomain g info)
  | destroy {s : System} (g : Nat) : QuietStep s (s.destroyDomain g)

/-- The states reached from setup with `MAX_PHYS_ADDR = maxPhysAddr` by quiet steps. -/
inductive QuietReachable (maxPhysAddr : Nat) : System → Prop
  | init (hmax : maxPhysAddr ≤ 2 ^ 52) (pciPassthru : Bool) (pciPassthruList : List PciDev)
      (info : SodInfo) :
      QuietReachable maxPhysAddr (System.init maxPhysAddr pciPassthru pciPassthruList info)
  | step {s s' : System} : QuietReachable maxPhysAddr s → QuietStep s s' →
      QuietReachable maxPhysAddr s'

section Quiet

variable {M : Nat} {s s' : System} {a : Nat} {o : Owner}

theorem QuietStep.step : QuietStep s s' → Step s s'
  | .donate _ rootGpa guestGpa perm mtype hg => .donate _ rootGpa guestGpa perm mtype hg
  | .reclaim g rootGpa _ => .reclaim g rootGpa
  | .reclaimAll g h => .reclaimAll g h
  | .create info h0 hg => .create info h0 hg
  | .destroy g => .destroy g

theorem QuietReachable.reachable (h : QuietReachable M s) : Reachable s := by
  induction h with
  | init hmax pciPassthru pciPassthruList info => exact .init hmax pciPassthru pciPassthruList info
  | step _ hs ih => exact .step ih hs.step

/-- A quiet step loses no address. -/
theorem QuietStep.not_lost (h : Inv s) (hst : QuietStep s s') (ho : OwnedBy s a o)
    (hl : OwnedBy s' a .lost) : o = .lost := by
  cases hst with
  | donate hq rootGpa guestGpa perm mtype _ =>
    rcases donate_moves h _ rootGpa _ guestGpa perm mtype ho hl with h' | ⟨-, -, ⟨h', -⟩ | ⟨-, hn⟩⟩
    · exact h'.symm
    · cases h'
    · exact absurd hq hn
  | reclaim g rootGpa hr =>
    rcases reclaim_moves h g rootGpa ho hl with h' | ⟨-, -, h' | ⟨-, hs⟩⟩
    · exact h'.symm
    · cases h'
    · exact absurd hs hr
  | reclaimAll _ hr =>
    rcases reclaimAll_moves h hr ho hl with h' | ⟨-, h'⟩
    · exact h'.symm
    · cases h'
  | create _ _ _ | destroy _ => exact (h.owner_stays_of_root ho hl rfl).symm

/-- No address below `MAX_PHYS_ADDR` is lost along a quiet run. -/
theorem QuietReachable.not_lost (h : QuietReachable M s) : ∀ a < M, ¬ OwnedBy s a .lost := by
  induction h with
  | init hmax pciPassthru pciPassthruList info =>
    intro a ha hl
    have ht := hl.1
    simp only [System.init, Domain.setupDom0, translate_identityMap] at ht
    rw [if_pos (by omega)] at ht
    cases ht
  | step hr hs ih =>
    intro a ha hl
    obtain ⟨o, ho⟩ := ownedBy_exists _ a
    exact ih a ha (by rwa [hs.not_lost hr.reachable.inv ho hl] at ho)

end Quiet

/-- **Every page of the root has exactly one owner.**  In every state reached from setup
by donations, reclaims and guest creations and destructions in which no collaborator
raises once the root has let go of a page, each address below `MAX_PHYS_ADDR` is
either mapped by the root to itself (read-write-execute, write-back) and recorded for
no borrower, or not mapped by the root and recorded for exactly one borrower. -/
theorem quietReachable_owner {M : Nat} {s : System} (hs : QuietReachable M s) (a : Nat) (ha : a < M) :
    (s.root.ept.translate a = some ⟨a, readWriteExecute, writeBack⟩ ∧
      ∀ g, ¬ Recorded s.root.donated g a) ∨
    (s.root.ept.translate a = none ∧ ∃! g, Recorded s.root.donated g a) := by
  have hi := hs.reachable.inv
  obtain ⟨o, ho⟩ := ownedBy_exists s a
  cases o with
  | root =>
    obtain ⟨m, hm⟩ := Option.isSome_iff_exists.mp ho
    exact .inl ⟨by rw [hm, (hi.identity a m hm).2], fun g => hi.not_recorded_of_translate hm g⟩
  | guest g => exact .inr ⟨ho.1, g, ho.2, fun g' hg' => hi.exclusive _ _ _ hg' ho.2⟩
  | lost => exact absurd ho (hs.not_lost a ha)

/-- Page `0x1000` lent to guest `1`, which is then destroyed: the page is its alone. -/
theorem quietReachable_owner_one_page :
    QuietReachable (2 ^ 30) onePageLent ∧ 0x1000 < 2 ^ 30 ∧
    ((onePageLent.root.ept.translate 0x1000 = some ⟨0x1000, readWriteExecute, writeBack⟩ ∧
      ∀ g, ¬ Recorded onePageLent.root.donated g 0x1000) ∨
    (onePageLent.root.ept.translate 0x1000 = none ∧ ∃! g, Recorded onePageLent.root.donated g 0x1000)) :=
  have hs : QuietReachable (2 ^ 30) onePageLent :=
    .step (.step (.step (.init (by decide) false [] ⟨false, false⟩) (.create ⟨false, false⟩ (by decide) rfl))
      (.donate ⟨rfl, rfl, rfl⟩ 0x1000 0x5000 readWriteExecute writeBack (by decide))) (.destroy 1)
  ⟨hs, by decide, quietReachable_owner hs 0x1000 (by decide)⟩

end MicroV

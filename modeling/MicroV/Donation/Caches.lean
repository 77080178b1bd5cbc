import MicroV.Donation.Ownership

/-!
# The processors' cached translations

A processor caches the translations it walks.  `invept` drops those of the root's EPT
on the processor that runs it, and the shootdown `donate_root_page` begins before
`unmap` has the other processors drop theirs.  `reclaim_root_page` and
`reclaim_root_pages` map pages back with no invalidation: their comment argues that
`donate_root_page` left the page not present, "and the CPU does not populate TLB
entries of non-present pages".  Here the root's processors and each guest's hold
caches, filled from present translations and emptied of any entries at any time:

* `Caches`, `CacheStep`, `CacheReachable`: the caches; a step of the system with what
  it does to them, or a processor caching a present translation or dropping cached
  ones; and what is reached from setup with nothing cached.  A call of
  `donate_root_page` empties the root's caches when it runs `invept` to its end
  (`donateInvepts`); a guest's caches go with the guest;
* `CacheInv`: the root's processors cache only the root's identity translations, of
  addresses no guest has; a live guest's processors cache only translations to pages
  lent to it;
* `NoLend`, `KeepsLive`: what a step must do to keep `CacheInv`.  Every step lends no
  address, except a donation that runs `invept`; every step keeps each live guest live
  with its addresses, except the guest's destruction;
* **`cacheReachable_isolation`**: in every state reached, whatever the processors
  cached, each cached root translation is current or of an address no one has, no
  address a guest has is cached by the root, and each guest caches translations only
  to pages lent to it.
-/

namespace MicroV

open Ept

/-- The translations the processors have cached: the root's from the root's EPT, guest
`g`'s from `g`'s. -/
structure Caches where
  root : Nat → Option Mapping
  guest : Nat → Nat → Option Mapping

/-- Nothing cached. -/
def Caches.empty : Caches := ⟨fun _ => none, fun _ _ => none⟩

/-- The root's processors drop every cached translation. -/
def Caches.flushRoot (c : Caches) : Caches := { c with root := fun _ => none }

/-- Guest `g`'s processors are gone. -/
def Caches.dropGuest (c : Caches) (g : Nat) : Caches :=
  { c with guest := Function.update c.guest g fun _ => none }

/-- A step of the system with what it does to the caches, or a processor caching a
present translation, or processors dropping cached translations. -/
inductive CacheStep : System → Caches → System → Caches → Prop
  | donate {s : System} {c : Caches} (r : Raises) (rootGpa : BitVec 64) {g : Nat}
      (guestGpa perm mtype : Nat) (hg : (s.guests g).isSome) :
      CacheStep s c (donateRootPage r s rootGpa g guestGpa perm mtype).2
        (if donateInvepts r s rootGpa g then c.flushRoot else c)
  | reclaim {s : System} {c : Caches} (g : Nat) (rootGpa : BitVec 64) :
      CacheStep s c (reclaimRootPage s g rootGpa).2 c
  | reclaimAll {s s' : System} {c : Caches} {st : Status} (g : Nat)
      (h : reclaimRootPages s g = some (st, s')) : CacheStep s c s' c
  | create {s : System} {c : Caches} {g : Nat} (info : SodInfo) (h0 : g ≠ 0)
      (hg : s.guests g = none) : CacheStep s c (s.createDomain g info) c
  | destroy {s : System} {c : Caches} (g : Nat) : CacheStep s c (s.destroyDomain g) (c.dropGuest g)
  | fillRoot {s : System} {c : Caches} {a : Nat} {m : Mapping} (h : s.root.ept.translate a = some m) :
      CacheStep s c s { c with root := Function.update c.root a (some m) }
  | fillGuest {s : System} {c : Caches} {g : Nat} {d : Domain} {a : Nat} {m : Mapping}
      (hg : s.guests g = some d) (h : d.ept.translate a = some m) :
      CacheStep s c s { c with guest := Function.update c.guest g (Function.update (c.guest g) a (some m)) }
  | evict {s : System} {c c' : Caches} (hr : ∀ a m, c'.root a = some m → c.root a = some m)
      (hg : ∀ g a m, c'.guest g a = some m → c.guest g a = some m) : CacheStep s c s c'

/-- The states and caches reached from setup, with nothing cached, by cache steps. -/
inductive CacheReachable : System → Caches → Prop
  | init {maxPhysAddr : Nat} (hmax : maxPhysAddr ≤ 2 ^ 52) (pciPassthru : Bool)
      (pciPassthruList : List PciDev) (info : SodInfo) :
      CacheReachable (System.init maxPhysAddr pciPassthru pciPassthruList info) Caches.empty
  | step {s s' : System} {c c' : Caches} : CacheReachable s c → CacheStep s c s' c' →
      CacheReachable s' c'

/-- The root's processors cache only the root's identity translations, of addresses no
guest has; a guest's processors cache only translations to pages lent to it, and only
while it is live. -/
structure CacheInv (s : System) (c : Caches) : Prop where
  root : ∀ a m, c.root a = some m → m = ⟨a, readWriteExecute, writeBack⟩ ∧ ∀ g, ¬ OwnedBy s a (.guest g)
  guest : ∀ g a m, c.guest g a = some m → (s.guests g).isSome ∧ Recorded s.root.donated g m.hpa

/-- No address passes to a guest. -/
def NoLend (s s' : System) : Prop := ∀ a o g, OwnedBy s a o → OwnedBy s' a (.guest g) → o = .guest g

/-- Each live guest stays live, with every address it has. -/
def KeepsLive (s s' : System) : Prop :=
  ∀ g, (s.guests g).isSome → (s'.guests g).isSome ∧ ∀ a, OwnedBy s a (.guest g) → OwnedBy s' a (.guest g)

theorem CacheStep.step_or_eq {s s' : System} {c c' : Caches} : CacheStep s c s' c' → Step s s' ∨ s' = s
  | .donate r rootGpa guestGpa perm mtype hg => .inl (.donate r rootGpa guestGpa perm mtype hg)
  | .reclaim g rootGpa => .inl (.reclaim g rootGpa)
  | .reclaimAll g h => .inl (.reclaimAll g h)
  | .create info h0 hg => .inl (.create info h0 hg)
  | .destroy g => .inl (.destroy g)
  | .fillRoot _ | .fillGuest _ _ | .evict _ _ => .inr rfl

theorem CacheReachable.reachable {s : System} {c : Caches} (h : CacheReachable s c) : Reachable s := by
  induction h with
  | init hmax pciPassthru pciPassthruList info => exact .init hmax pciPassthru pciPassthruList info
  | step _ hst ih => exact hst.step_or_eq.elim ih.step fun he => he ▸ ih

/-! ### What the steps keep -/

section Keeps

variable {s s' : System} {c : Caches}

theorem isSome_setGuest {g g' : Nat} {d : Domain} (hg : (s.guests g').isSome) :
    ((s.setGuest g d).guests g').isSome := by
  rw [System.setGuest_guests, Function.update_apply]
  split_ifs
  · rfl
  · exact hg

theorem installRootPage_live {g g' : Nat} (guestGpa : Nat) (p : BitVec 64) (perm mtype : Nat)
    (hg : (s.guests g').isSome) : ((installRootPage s g guestGpa p perm mtype).2.guests g').isSome := by
  unfold installRootPage
  split
  · exact hg
  · split_ifs
    · exact isSome_setGuest hg
    · split
      · exact hg
      · exact isSome_setGuest hg

theorem donateRootPage_live (r : Raises) (rootGpa : BitVec 64) {g g' : Nat} (guestGpa perm mtype : Nat)
    (hg : (s.guests g').isSome) : ((donateRootPage r s rootGpa g guestGpa perm mtype).2.guests g').isSome := by
  have ht : ((if pageAlreadyDonatedTo s.root.donated g (Bfn.upper rootGpa ptFrom)
      then ((.success, s) : Status × System)
      else donateTry r s rootGpa (Bfn.upper rootGpa ptFrom) g).2.guests g').isSome := by
    split
    · exact hg
    · rw [(donateTry_root r s rootGpa g).1]; exact hg
  dsimp only [donateRootPage]
  generalize (if pageAlreadyDonatedTo s.root.donated g (Bfn.upper rootGpa ptFrom)
      then ((.success, s) : Status × System)
      else donateTry r s rootGpa (Bfn.upper rootGpa ptFrom) g) = t at ht ⊢
  split_ifs
  · exact hg
  · exact installRootPage_live guestGpa _ perm mtype ht
  · exact ht

theorem reclaimRootPage_guests (g : Nat) (rootGpa : BitVec 64) :
    (reclaimRootPage s g rootGpa).2.guests = s.guests := by
  rcases reclaimRootPage_eq s g rootGpa with heq | ⟨-, -, -, ⟨e, -, heq⟩ | ⟨-, heq⟩⟩ <;> rw [heq] <;> rfl

theorem reclaimRootPages_guests {g : Nat} {st : Status} (h : reclaimRootPages s g = some (st, s')) :
    s'.guests = s.guests := by
  unfold reclaimRootPages at h
  split_ifs at h
  · cases h; rfl
  · cases h; rfl
  split at h
  · cases h; rfl
  · obtain ⟨res, -, hres⟩ := Option.map_eq_some'.mp h
    split at hres <;> (cases hres; rfl)

/-- A reclaim from a live guest changes nothing. -/
theorem reclaimRootPage_of_live {g : Nat} (rootGpa : BitVec 64) (hg : (s.guests g).isSome) :
    reclaimRootPage s g rootGpa = (.failure, s) := by
  unfold reclaimRootPage
  split_ifs <;> rfl

theorem reclaimRootPages_of_live {g : Nat} (hg : (s.guests g).isSome) :
    reclaimRootPages s g = some (.failure, s) := by
  unfold reclaimRootPages
  split_ifs <;> rfl

theorem noLend_of_root (h : Inv s) (hr : s'.root = s.root) : NoLend s s' :=
  fun _ _ _ ho ho' => (h.owner_stays_of_root ho ho' hr).symm

theorem keepsLive_of_root (hr : s'.root = s.root) (hg : ∀ g, (s.guests g).isSome → (s'.guests g).isSome) :
    KeepsLive s s' :=
  fun g hl => ⟨hg g hl, fun _ ho => by simpa only [OwnedBy, hr] using ho⟩

/-- **A donation that does not run `invept` lends nothing**: the page goes to the guest
only after `invept`. -/
theorem noLend_donate (h : Inv s) {r : Raises} {rootGpa : BitVec 64} {g : Nat} (guestGpa perm mtype : Nat)
    (hi : donateInvepts r s rootGpa g = false) :
    NoLend s (donateRootPage r s rootGpa g guestGpa perm mtype).2 := fun _ _ _ ho ho' => by
  rcases donate_moves h r rootGpa g guestGpa perm mtype ho ho' with h' | ⟨-, -, ⟨-, hi'⟩ | ⟨h', -⟩⟩
  · exact h'.symm
  · rw [hi] at hi'; cases hi'
  · cases h'

theorem keepsLive_donate (h : Inv s) (r : Raises) (rootGpa : BitVec 64) (g guestGpa perm mtype : Nat) :
    KeepsLive s (donateRootPage r s rootGpa g guestGpa perm mtype).2 := fun _ hl =>
  ⟨donateRootPage_live r rootGpa guestGpa perm mtype hl, fun a ho => by
    obtain ⟨o', ho'⟩ := ownedBy_exists _ a
    rcases donate_moves h r rootGpa g guestGpa perm mtype ho ho' with rfl | ⟨-, h', -⟩
    · exact ho'
    · cases h'⟩

theorem noLend_reclaim (h : Inv s) (g : Nat) (rootGpa : BitVec 64) :
    NoLend s (reclaimRootPage s g rootGpa).2 := fun _ _ _ ho ho' => by
  rcases reclaim_moves h g rootGpa ho ho' with h' | ⟨-, -, h' | ⟨h', -⟩⟩
  · exact h'.symm
  · cases h'
  · cases h'

/-- **A reclaim keeps each live guest's addresses**: it takes back only addresses of a
guest that is gone. -/
theorem keepsLive_reclaim (h : Inv s) (g : Nat) (rootGpa : BitVec 64) :
    KeepsLive s (reclaimRootPage s g rootGpa).2 := fun g' hl => by
  rw [reclaimRootPage_guests]
  refine ⟨hl, fun a ho => ?_⟩
  by_cases hgg : g = g'
  · subst hgg
    rwa [reclaimRootPage_of_live rootGpa hl]
  obtain ⟨o', ho'⟩ := ownedBy_exists _ a
  rcases reclaim_moves h g rootGpa ho ho' with rfl | ⟨-, h', -⟩
  · exact ho'
  · cases h'; exact absurd rfl hgg

theorem noLend_reclaimAll (h : Inv s) {g : Nat} {st : Status} (hr : reclaimRootPages s g = some (st, s')) :
    NoLend s s' := fun _ _ _ ho ho' => by
  rcases reclaimAll_moves h hr ho ho' with h' | ⟨-, h'⟩
  · exact h'.symm
  · cases h'

theorem keepsLive_reclaimAll (h : Inv s) {g : Nat} {st : Status} (hr : reclaimRootPages s g = some (st, s')) :
    KeepsLive s s' := fun g' hl => by
  rw [reclaimRootPages_guests hr]
  refine ⟨hl, fun a ho => ?_⟩
  by_cases hgg : g = g'
  · subst hgg
    rw [reclaimRootPages_of_live hl, Option.some.injEq, Prod.mk.injEq] at hr
    rwa [← hr.2]
  obtain ⟨o', ho'⟩ := ownedBy_exists _ a
  rcases reclaimAll_moves h hr ho ho' with rfl | ⟨h', -⟩
  · exact ho'
  · cases h'; exact absurd rfl hgg

/-- A step that lends nothing and keeps each live guest with its addresses keeps the
caches' invariant, with the caches as they are. -/
theorem CacheInv.keep (h : Inv s) (hc : CacheInv s c) (hn : NoLend s s') (hl : KeepsLive s s') :
    CacheInv s' c where
  root a m hm := ⟨(hc.root a m hm).1, fun g hg => by
    obtain ⟨o, ho⟩ := ownedBy_exists s a
    exact (hc.root a m hm).2 g (hn a o g ho hg ▸ ho)⟩
  guest g a m hm := by
    obtain ⟨hlive, hr⟩ := hc.guest g a m hm
    exact ⟨(hl g hlive).1, ((hl g hlive).2 _ ⟨h.unmapped g _ hr, hr⟩).2⟩

/-- With the root's caches emptied, keeping each live guest with its addresses is
enough. -/
theorem CacheInv.keep_flushRoot (h : Inv s) (hc : CacheInv s c) (hl : KeepsLive s s') :
    CacheInv s' c.flushRoot where
  root _ _ hm := by cases hm
  guest g a m hm := by
    obtain ⟨hlive, hr⟩ := hc.guest g a m hm
    exact ⟨(hl g hlive).1, ((hl g hlive).2 _ ⟨h.unmapped g _ hr, hr⟩).2⟩

theorem CacheInv.destroy (hc : CacheInv s c) (g : Nat) : CacheInv (s.destroyDomain g) (c.dropGuest g) where
  root a m hm := by simpa only [OwnedBy, System.destroyDomain_root] using hc.root a m hm
  guest g' a m hm := by
    by_cases hgg : g' = g
    · subst hgg
      simp only [Caches.dropGuest, Function.update_same] at hm
      cases hm
    · simp only [Caches.dropGuest, Function.update_noteq hgg] at hm
      rw [System.destroyDomain_guests, Function.update_noteq hgg]
      exact hc.guest g' a m hm

theorem CacheInv.fillRoot (h : Inv s) (hc : CacheInv s c) {a : Nat} {m : Mapping}
    (ht : s.root.ept.translate a = some m) :
    CacheInv s { c with root := Function.update c.root a (some m) } where
  root b m' hm := by
    dsimp only at hm
    by_cases hb : b = a
    · subst hb
      rw [Function.update_same, Option.some.injEq] at hm
      subst hm
      exact ⟨(h.identity b _ ht).2, fun g ho => by rw [ho.1] at ht; cases ht⟩
    · rw [Function.update_noteq hb] at hm
      exact hc.root b m' hm
  guest := hc.guest

theorem CacheInv.fillGuest (h : Inv s) (hc : CacheInv s c) {g : Nat} {d : Domain} {a : Nat} {m : Mapping}
    (hg : s.guests g = some d) (ht : d.ept.translate a = some m) :
    CacheInv s { c with guest := Function.update c.guest g (Function.update (c.guest g) a (some m)) } where
  root := hc.root
  guest g' b m' hm := by
    dsimp only at hm
    by_cases hgg : g' = g
    · subst hgg
      rw [Function.update_same] at hm
      by_cases hb : b = a
      · subst hb
        rw [Function.update_same, Option.some.injEq] at hm
        subst hm
        exact ⟨by rw [hg]; rfl, h.guest_ept g' d hg b _ ht⟩
      · rw [Function.update_noteq hb] at hm
        exact hc.guest g' b m' hm
    · rw [Function.update_noteq hgg] at hm
      exact hc.guest g' b m' hm

/-- **Every cache step keeps the caches' invariant.** -/
theorem CacheInv.step (h : Inv s) (hc : CacheInv s c) {c' : Caches} :
    CacheStep s c s' c' → CacheInv s' c'
  | .donate r rootGpa guestGpa perm mtype _ => by
    split
    · exact hc.keep_flushRoot h (keepsLive_donate h r rootGpa _ guestGpa perm mtype)
    · next hi =>
      exact hc.keep h (noLend_donate h guestGpa perm mtype (Bool.eq_false_iff.mpr hi))
        (keepsLive_donate h r rootGpa _ guestGpa perm mtype)
  | .reclaim g rootGpa => hc.keep h (noLend_reclaim h g rootGpa) (keepsLive_reclaim h g rootGpa)
  | .reclaimAll _ hr => hc.keep h (noLend_reclaimAll h hr) (keepsLive_reclaimAll h hr)
  | .create _ _ _ => hc.keep h (noLend_of_root h rfl) (keepsLive_of_root rfl fun _ => isSome_setGuest)
  | .destroy g => hc.destroy g
  | .fillRoot ht => hc.fillRoot h ht
  | .fillGuest hg ht => hc.fillGuest h hg ht
  | .evict hr hg => ⟨fun a m hm => hc.root a m (hr a m hm), fun g a m hm => hc.guest g a m (hg g a m hm)⟩

theorem CacheReachable.cacheInv (h : CacheReachable s c) : CacheInv s c := by
  induction h with
  | init => exact ⟨fun _ _ => nofun, fun _ _ _ => nofun⟩
  | step hr hst ih => exact ih.step hr.reachable.inv hst

end Keeps

/-- **No processor holds a translation it should not.**  In every state reached from
setup by donations (whichever collaborator raises), reclaims, guest creations and
destructions, with the processors caching present translations and dropping cached
ones at any time: each translation a root processor has cached is the root's current
one, or is of an address that neither the root nor any guest has; no address recorded
for a guest is cached by a root processor, though the reclaims map pages back with no
invalidation; and each translation a guest's processor has cached is of a live guest,
to a page recorded for it. -/
theorem cacheReachable_isolation {s : System} {c : Caches} (h : CacheReachable s c) :
    (∀ a m, c.root a = some m → s.root.ept.translate a = some m ∨
      (s.root.ept.translate a = none ∧ ∀ g, ¬ Recorded s.root.donated g a)) ∧
    (∀ g a, Recorded s.root.donated g a → c.root a = none) ∧
    (∀ g a m, c.guest g a = some m → (s.guests g).isSome ∧ Recorded s.root.donated g m.hpa) := by
  have hi := h.reachable.inv
  have hc := h.cacheInv
  refine ⟨fun a m hm => ?_, fun g a hr => ?_, hc.guest⟩
  · obtain ⟨rfl, hn⟩ := hc.root a m hm
    obtain ⟨o, ho⟩ := ownedBy_exists s a
    cases o with
    | root =>
      obtain ⟨m', hm'⟩ := Option.isSome_iff_exists.mp ho
      exact .inl (by rw [hm', (hi.identity a m' hm').2])
    | guest g => exact absurd ho (hn g)
    | lost => exact .inr ho
  · cases hm : c.root a with
    | none => rfl
    | some m => exact absurd ⟨hi.unmapped g a hr, hr⟩ ((hc.root a m hm).2 g)

/-- A root processor caches page `0x1000`, which is then lent to guest `1`, whose
processor caches its translation `0x5000 ↦ 0x1000`. -/
theorem cacheReachable_isolation_one_donation :
    let s := (donateRootPage Raises.never oneGuest 0x1000 1 0x5000 readWriteExecute writeBack).2
    let c : Caches := ⟨fun _ => none, Function.update (fun _ _ => none) 1
      (Function.update (fun _ => none) 0x5000 (some ⟨0x1000, readWriteExecute, writeBack⟩))⟩
    CacheReachable s c ∧
    (∀ a m, c.root a = some m → s.root.ept.translate a = some m ∨
      (s.root.ept.translate a = none ∧ ∀ g, ¬ Recorded s.root.donated g a)) ∧
    (∀ g a, Recorded s.root.donated g a → c.root a = none) ∧
    (∀ g a m, c.guest g a = some m → (s.guests g).isSome ∧ Recorded s.root.donated g m.hpa) := by
  intro s c
  have h₀ : CacheReachable oneGuest Caches.empty :=
    .step (.init (by decide) false [] ⟨false, false⟩) (.create ⟨false, false⟩ (by decide) rfl)
  have h₁ : CacheReachable oneGuest ⟨Function.update (fun _ => none) 0x1000
      (some ⟨0x1000, readWriteExecute, writeBack⟩), fun _ _ => none⟩ := .step h₀ (.fillRoot (by decide))
  have h₂ : CacheReachable s Caches.empty :=
    .step h₁ (.donate Raises.never 0x1000 0x5000 readWriteExecute writeBack (by decide))
  have h₃ : CacheReachable s c := .step h₂ (.fillGuest rfl (by decide))
  exact ⟨h₃, cacheReachable_isolation h₃⟩

end MicroV

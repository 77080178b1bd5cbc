import MicroV.Donation

/-!
# What one donation does

The effects of one call of `donate_root_page`, stage by stage.

* `translate_unmapConverted`: when `gpa_to_hpa` finds the page in a 4K or a 2M
  entry, splitting the 2M entry and unmapping the page removes exactly the
  translations of that 4K page from the root;
* `donateTry_root`: whatever collaborator raises, the `try` block leaves the
  root as it was, with its EPT split, with the page unmapped, or, when it succeeds,
  with the page unmapped and recorded for the borrower; it never touches a guest;
* `installRootPage_guests`: installing the page changes only the borrower, whose
  new translations all lead into the page.

A run shows what the stages do when they are cut short:
`donateRootPage_unmap_raises` leaves a shootdown in flight after a `FAILURE`.
-/

namespace MicroV

open Ept

/-! ### The root's EPT during a donation -/

section Converted

variable {e : Ept} {rootGpa : BitVec 64} {shift : Nat}

theorem translate_convertedEpt (e : Ept) (rootGpa : BitVec 64) (shift a : Nat) :
    (convertedEpt e rootGpa shift).translate a = e.translate a := by
  unfold convertedEpt identityMapConvert2mTo4k
  split_ifs <;> simp only [translate_demote2m]

theorem convertedEpt_pdpt (e : Ept) (rootGpa : BitVec 64) (shift : Nat) :
    (convertedEpt e rootGpa shift).pdpt = e.pdpt := by
  unfold convertedEpt identityMapConvert2mTo4k
  split_ifs <;> simp only [demote2m_pdpt]

/-- `root_gpa_2m` and `root_gpa_4k` lie in one 2M page. -/
theorem upper_pdFrom_div (rootGpa : BitVec 64) :
    (Bfn.upper rootGpa pdFrom).toNat / 2 ^ 21 = (Bfn.upper rootGpa ptFrom).toNat / 2 ^ 21 := by
  rw [upper_toNat, upper_toNat]; simp only [pdFrom, ptFrom]; omega

/-- Once split, the page's walk ends at a 4K leaf. -/
theorem walk_convertedEpt {l : Leaf} (hw : e.walk (Bfn.upper rootGpa ptFrom).toNat = some (shift, l))
    (h30 : shift ≠ pdptFrom) :
    ∃ l', (convertedEpt e rootGpa shift).walk (Bfn.upper rootGpa ptFrom).toNat = some (ptFrom, l') := by
  set p := (Bfn.upper rootGpa ptFrom).toNat
  rcases Entry.walk_eq_some.mp hw with ⟨-, rfl⟩ | ⟨h1, h2, rfl⟩ | ⟨h1, h2, h3, rfl⟩
  · exact absurd rfl h30
  · have hj : (Bfn.upper rootGpa pdFrom).toNat / 2 ^ 21 = p / 2 ^ 21 := upper_pdFrom_div rootGpa
    refine ⟨{ l with phys := l.phys + p / 2 ^ 12 % 512 * 4096 }, ?_⟩
    simp only [convertedEpt, if_true, identityMapConvert2mTo4k, hj, demote2m, h2, walk,
      Function.update_apply, if_true, div_pt_div, h1, Entry.walk_table_table_leaf]
  · simp only [convertedEpt, show ptFrom ≠ pdFrom by decide, if_false]
    exact ⟨l, by simp only [walk, h1, h2, h3, Entry.walk_table_table_leaf]⟩

/-- Unmapping a page whose walk ends at a 4K leaf changes no 1G or 2M entry. -/
theorem unmap_pdpt_of_walk {p : Nat} {l : Leaf} (h : e.walk p = some (ptFrom, l)) :
    (e.unmap p).pdpt = e.pdpt := by
  rcases Entry.walk_eq_some.mp h with ⟨-, h'⟩ | ⟨-, -, h'⟩ | ⟨h1, h2, h3, -⟩
  · exact absurd h' (by decide)
  · exact absurd h' (by decide)
  · simp only [unmap, h1, h2, h3]

/-- The root's EPT once `donate_root_page` has unmapped the page. -/
def unmapConverted (e : Ept) (rootGpa : BitVec 64) (shift : Nat) : Ept :=
  (convertedEpt e rootGpa shift).unmap (Bfn.upper rootGpa ptFrom).toNat

/-- **A donation removes exactly the translations of its 4K page from the root,
when `gpa_to_hpa` finds the page in a 4K or a 2M entry.** -/
theorem translate_unmapConverted {hpa : Nat}
    (hg : e.gpaToHpa (Bfn.upper rootGpa ptFrom).toNat = some (hpa, shift)) (h30 : shift ≠ pdptFrom)
    (a : Nat) : (unmapConverted e rootGpa shift).translate a =
      if a / 2 ^ 12 = (Bfn.upper rootGpa ptFrom).toNat / 2 ^ 12 then none else e.translate a := by
  obtain ⟨l, hw, -, -⟩ := gpaToHpa_eq_some.mp hg
  obtain ⟨l', hw'⟩ := walk_convertedEpt hw h30
  rw [unmapConverted, translate_unmap hw', translate_convertedEpt]
  rfl

theorem unmapConverted_pdpt {hpa : Nat}
    (hg : e.gpaToHpa (Bfn.upper rootGpa ptFrom).toNat = some (hpa, shift)) (h30 : shift ≠ pdptFrom) :
    (unmapConverted e rootGpa shift).pdpt = e.pdpt := by
  obtain ⟨l, hw, -, -⟩ := gpaToHpa_eq_some.mp hg
  obtain ⟨l', hw'⟩ := walk_convertedEpt hw h30
  rw [unmapConverted, unmap_pdpt_of_walk hw', convertedEpt_pdpt]

end Converted

/-! ### The stages of a donation -/

/-- **What the `try` block of `donate_root_page` does to the root and the guests**,
whichever collaborator raises: when it fails it leaves the root as it was, with the
page's 2M entry split, or with the page unmapped; when it succeeds the page is
unmapped and recorded for the borrower.  Past `gpa_to_hpa` the page was found
identity-mapped.  It never touches a guest. -/
theorem donateTry_root (r : Raises) (s : System) (rootGpa : BitVec 64) (g : Nat) :
    let p := Bfn.upper rootGpa ptFrom
    let t := donateTry r s rootGpa p g
    t.2.guests = s.guests ∧ (t.1 ≠ .success ∧ t.2.root = s.root ∨ ∃ shift,
      s.root.ept.gpaToHpa p.toNat = some (p.toNat, shift) ∧ s.shootdown.inFlight = false ∧
      (t.1 ≠ .success ∧ t.2.root = { s.root with ept := convertedEpt s.root.ept rootGpa shift } ∨
       t.1 ≠ .success ∧ t.2.root = { s.root with ept := unmapConverted s.root.ept rootGpa shift } ∨
       t.1 = .success ∧
        t.2.root = { s.root with ept := unmapConverted s.root.ept rootGpa shift
                                 donated := addPageToDonatedRange s.root.donated g p })) := by
  intro p t
  dsimp only [t, donateTry]
  cases hgh : (if r.gpaToHpa then none else s.root.ept.gpaToHpa p.toNat) with
  | none => exact ⟨rfl, .inl ⟨nofun, rfl⟩⟩
  | some v =>
    obtain ⟨hpa, shift⟩ := v
    have hg : s.root.ept.gpaToHpa p.toNat = some (hpa, shift) := by split_ifs at hgh; exact hgh
    dsimp only
    by_cases h1 : hpa ≠ p.toNat
    · rw [if_pos h1]; exact ⟨rfl, .inl ⟨nofun, rfl⟩⟩
    by_cases h2 : s.shootdown.inFlight
    · rw [if_neg h1, if_pos h2]; exact ⟨rfl, .inl ⟨nofun, rfl⟩⟩
    rw [if_neg h1, if_neg h2]
    have hg' : s.root.ept.gpaToHpa p.toNat = some (p.toNat, shift) :=
      hg.trans (by rw [not_not.mp h1])
    have hf := Bool.eq_false_iff.mpr h2
    by_cases h3 : shift = pdFrom ∧ r.convert
    · rw [if_pos h3]; exact ⟨rfl, .inl ⟨nofun, rfl⟩⟩
    rw [if_neg h3]
    by_cases h4 : r.unmap
    · rw [if_pos h4]; exact ⟨rfl, .inr ⟨shift, hg', hf, .inl ⟨nofun, rfl⟩⟩⟩
    rw [if_neg h4]
    by_cases h5 : r.endShootdown
    · rw [if_pos h5]; exact ⟨rfl, .inr ⟨shift, hg', hf, .inr (.inl ⟨nofun, rfl⟩)⟩⟩
    rw [if_neg h5]
    by_cases h6 : r.invept
    · rw [if_pos h6]; exact ⟨rfl, .inr ⟨shift, hg', hf, .inr (.inl ⟨nofun, rfl⟩)⟩⟩
    rw [if_neg h6]
    by_cases h7 : r.alloc ∧ addAllocates s.root.donated g p
    · rw [if_pos h7]; exact ⟨rfl, .inr ⟨shift, hg', hf, .inr (.inl ⟨nofun, rfl⟩)⟩⟩
    rw [if_neg h7]
    exact ⟨rfl, .inr ⟨shift, hg', hf, .inr (.inr ⟨rfl, rfl⟩)⟩⟩

theorem update_eq_some {α : Type} {f : Nat → Option α} {g g' : Nat} {d d' : α}
    (h : Function.update f g (some d) g' = some d') : (g' = g ∧ d' = d) ∨ (g' ≠ g ∧ f g' = some d') := by
  by_cases hg : g' = g
  · subst hg; simp only [Function.update_same, Option.some.injEq] at h; exact .inl ⟨rfl, h.symm⟩
  · rw [Function.update_noteq hg] at h; exact .inr ⟨hg, h⟩

/-- **Installing the page changes only the borrower**, and each translation or Xen
root page it adds leads into the page. -/
theorem installRootPage_guests (s : System) (g guestGpa : Nat) {p : BitVec 64} (perm mtype : Nat)
    (hp : p.toNat % 4096 = 0) :
    let t := installRootPage s g guestGpa p perm mtype
    t.2.root = s.root ∧ ∀ g' d', t.2.guests g' = some d' → ∃ d, s.guests g' = some d ∧
      (∀ a m, d'.ept.translate a = some m →
        d.ept.translate a = some m ∨ (g' = g ∧ m.hpa / 4096 = p.toNat / 4096)) ∧
      (∀ a m, d'.rootPages a = some m →
        d.rootPages a = some m ∨ (g' = g ∧ m.hpa / 4096 = p.toNat / 4096)) := by
  intro t
  dsimp only [t, installRootPage]
  split
  · exact ⟨rfl, fun g' d' h => ⟨d', h, fun _ _ => .inl, fun _ _ => .inl⟩⟩
  · next d hd =>
    split_ifs
    · refine ⟨rfl, fun g' d' h => ?_⟩
      rcases update_eq_some h with ⟨rfl, rfl⟩ | ⟨-, h⟩
      · refine ⟨d, hd, fun _ _ => .inl, fun a m ha => ?_⟩
        by_cases hg : a = guestGpa
        · subst hg
          simp only [Function.update_same, Option.some.injEq] at ha
          exact .inr ⟨rfl, by rw [← ha]⟩
        · exact .inl (by simpa only [Function.update_noteq hg] using ha)
      · exact ⟨d', h, fun _ _ => .inl, fun _ _ => .inl⟩
    · split
      · exact ⟨rfl, fun g' d' h => ⟨d', h, fun _ _ => .inl, fun _ _ => .inl⟩⟩
      · next e he =>
        refine ⟨rfl, fun g' d' h => ?_⟩
        rcases update_eq_some h with ⟨rfl, rfl⟩ | ⟨-, h⟩
        · refine ⟨d, hd, fun a m ha => ?_, fun _ _ => .inl⟩
          rw [translate_map4k he] at ha
          split_ifs at ha
          · simp only [Option.some.injEq] at ha
            exact .inr ⟨rfl, by rw [← ha]; dsimp only; omega⟩
          · exact .inl ha
        · exact ⟨d', h, fun _ _ => .inl, fun _ _ => .inl⟩

theorem demote1g_of_table {e : Ept} {i : Nat} (h : e.pdpt i = .table) : e.demote1g i = e := by
  simp only [demote1g, h]

theorem demote2m_of_table {e : Ept} {j : Nat} (h : e.pd j = .table) : e.demote2m j = e := by
  simp only [demote2m, h]

/-- `map_4k` again with the same arguments changes nothing. -/
theorem map4k_idem {e e' : Ept} {gpa hpa attr mtype : Nat} (h : e.map4k gpa hpa attr mtype = some e') :
    e'.map4k gpa hpa attr mtype = some e' := by
  unfold map4k at h ⊢
  split_ifs at h with ha
  cases h
  rw [if_pos ha]
  set e2 := (e.demote1g (gpa / 2 ^ 30)).demote2m (gpa / 2 ^ 21)
  set leaf : Entry := .leaf ⟨hpa, attr, mtype, true⟩
  have h1 : ({ e2 with pt := Function.update e2.pt (gpa / 2 ^ 12) leaf } : Ept).pdpt (gpa / 2 ^ 30)
      = .table := by
    show e2.pdpt _ = _
    rw [demote2m_pdpt, demote1g_pdpt_self]
  have h2 : ({ e2 with pt := Function.update e2.pt (gpa / 2 ^ 12) leaf } : Ept).pd (gpa / 2 ^ 21)
      = .table := demote2m_pd_self _ _
  rw [demote1g_of_table h1, demote2m_of_table h2]
  simp only [Function.update_idem]

/-- **Installing a page twice changes nothing the second time.** -/
theorem installRootPage_idem {s s' : System} {g guestGpa : Nat} {p : BitVec 64} {perm mtype : Nat}
    (h : installRootPage s g guestGpa p perm mtype = (.success, s')) :
    installRootPage s' g guestGpa p perm mtype = (.success, s') := by
  unfold installRootPage at h ⊢
  split at h
  · cases h
  · next d hd =>
    split_ifs at h with hx
    · cases h
      simp only [System.setGuest_guests, Function.update_same, hx, if_true,
        Function.update_idem, Function.update_same]
      simp only [System.setGuest, Function.update_idem, Function.update_same]
    · split at h
      · cases h
      · next e he =>
        cases h
        simp only [System.setGuest_guests, Function.update_same, hx, Bool.false_eq_true, if_false,
          map4k_idem he]
        simp only [System.setGuest, Function.update_idem]

/-- A successful installation sets the borrower's entry: a Xen guest gets the page as a
root page, any other guest gets it mapped `map_4k` at the guest address. -/
theorem installRootPage_success {s s' : System} {g guestGpa perm mtype : Nat} {p : BitVec 64}
    (h : installRootPage s g guestGpa p perm mtype = (.success, s')) :
    ∃ d d', s.guests g = some d ∧ s' = s.setGuest g d' ∧ d'.sodInfo = d.sodInfo ∧
      (d.sodInfo.isXenDom = true ∧ d'.ept = d.ept ∧
          d'.rootPages = Function.update d.rootPages guestGpa (some ⟨p.toNat, perm, mtype⟩) ∨
        d.sodInfo.isXenDom = false ∧ d'.rootPages = d.rootPages ∧ ∀ a, d'.ept.translate a =
          if a / 2 ^ 12 = guestGpa / 2 ^ 12 then some ⟨p.toNat + a % 2 ^ 12, perm, mtype⟩
          else d.ept.translate a) := by
  unfold installRootPage at h
  split at h
  · cases h
  · next d hd =>
    split_ifs at h with hx
    · cases h
      exact ⟨d, _, hd, rfl, rfl, .inl ⟨hx, rfl, rfl⟩⟩
    · split at h
      · cases h
      · next e he =>
        cases h
        exact ⟨d, _, hd, rfl, rfl, .inr ⟨Bool.eq_false_iff.mpr hx, rfl, translate_map4k he⟩⟩

/-- An installation that does not succeed changes nothing. -/
theorem installRootPage_of_ne {s : System} {g guestGpa perm mtype : Nat} {p : BitVec 64}
    (h : (installRootPage s g guestGpa p perm mtype).1 ≠ .success) :
    installRootPage s g guestGpa p perm mtype = (.raised, s) := by
  unfold installRootPage at h ⊢
  revert h
  cases s.guests g with
  | none => exact fun _ => rfl
  | some d =>
    dsimp only
    split_ifs
    · exact fun h => absurd rfl h
    · cases d.ept.map4k guestGpa p.toNat perm mtype with
      | none => exact fun _ => rfl
      | some e => exact fun h => absurd rfl h

/-- On a page already recorded for the borrower, `donate_root_page` only installs it. -/
theorem donateRootPage_of_donated {r : Raises} {s : System} {rootGpa : BitVec 64}
    {g guestGpa perm mtype : Nat} (h0 : s.root.id = 0)
    (hd : pageAlreadyDonatedTo s.root.donated g (Bfn.upper rootGpa ptFrom) = true) :
    donateRootPage r s rootGpa g guestGpa perm mtype =
      installRootPage s g guestGpa (Bfn.upper rootGpa ptFrom) perm mtype := by
  simp [donateRootPage, h0, hd]

/-- **How `donate_root_page` succeeds**: from the root, by installing the page, either
at once because the page is already recorded for the borrower, or after the `try`
block succeeded. -/
theorem donateRootPage_success {r : Raises} {s s₁ : System} {rootGpa : BitVec 64}
    {g guestGpa perm mtype : Nat}
    (h : donateRootPage r s rootGpa g guestGpa perm mtype = (.success, s₁)) :
    let p := Bfn.upper rootGpa ptFrom
    s.root.id = 0 ∧
      (pageAlreadyDonatedTo s.root.donated g p = true ∧
        installRootPage s g guestGpa p perm mtype = (.success, s₁) ∨
      pageAlreadyDonatedTo s.root.donated g p = false ∧ (donateTry r s rootGpa p g).1 = .success ∧
        installRootPage (donateTry r s rootGpa p g).2 g guestGpa p perm mtype = (.success, s₁)) := by
  intro p
  unfold donateRootPage at h
  by_cases h0 : s.root.id ≠ 0
  · rw [if_pos h0] at h; cases h
  rw [if_neg h0] at h
  refine ⟨not_not.mp h0, ?_⟩
  cases hd : pageAlreadyDonatedTo s.root.donated g p
  · simp only [p, hd, Bool.false_eq_true, if_false] at h
    split_ifs at h with hs
    · exact .inr ⟨rfl, hs, h⟩
    · exact absurd (congrArg Prod.fst h) hs
  · simp only [p, hd, if_true] at h
    exact .inl ⟨rfl, h⟩

/-! ### Donations cut short -/

/-- A guest `1` next to a root identity-mapped by 2M pages up to 1G. -/
def oneGuest : System := (System.init (2 ^ 30) false [] ⟨false, false⟩).createDomain 1 ⟨false, false⟩

theorem reachable_oneGuest : Reachable oneGuest :=
  .step (.init (by decide) false [] ⟨false, false⟩) (.create ⟨false, false⟩ (by decide) rfl)

/-- When `unmap` raises, `donate_root_page` returns `FAILURE` from its `catch` with the
shootdown it began still in flight; when `invept` raises, it returns `FAILURE` with
the page already unmapped from the root. -/
theorem donateRootPage_unmap_raises :
    oneGuest.shootdown.inFlight = false ∧
    (donateRootPage { Raises.never with unmap := true } oneGuest 0x1000 1 0x5000 readWriteExecute
      writeBack).1 = .failure ∧
    (donateRootPage { Raises.never with unmap := true } oneGuest 0x1000 1 0x5000 readWriteExecute
      writeBack).2.shootdown.inFlight = true ∧
    oneGuest.root.ept.translate 0x1000 = some ⟨0x1000, readWriteExecute, writeBack⟩ ∧
    (donateRootPage { Raises.never with invept := true } oneGuest 0x1000 1 0x5000 readWriteExecute
      writeBack).1 = .failure ∧
    (donateRootPage { Raises.never with invept := true } oneGuest 0x1000 1 0x5000 readWriteExecute
      writeBack).2.root.ept.translate 0x1000 = none := by
  decide

end MicroV

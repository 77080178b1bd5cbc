import MicroV.Basic

/-!
# The extended page table

Each domain owns an `ept::mmap`, the second-level page table the CPU walks to
translate a guest-physical address.  `ept::mmap` and the helpers `identity_map` and
`identity_map_convert_2m_to_4k` belong to the hypervisor library `domain.cpp` is
built on and are not part of the sources: `Ept` is modelled from the spec (a map
from guest-physical pages to host page, permission and memory type, at 4K, 2M or 1G
granularity, with `unmap` marking an entry not present and a larger page split
before a smaller one is mapped inside it).

The model keeps the three levels a walk can stop at, the 1G, 2M and 4K entries,
each indexed by the guest-physical address shifted by its page size.  `init_eptp`
sets a walk length of four, so addresses of 48 bits are translated.

* `Ept.walk`: the leaf entry a walk ends at, with the shift of its page size;
* `Ept.translate`: the host address, permission and memory type of an address;
* `Ept.map4k`, `Ept.map2m`, `Ept.map1g`, `Ept.unmap`;
* `identityMap`, `identityMapConvert2mTo4k`.

The frame lemmas say what each operation does to `translate`: splitting a large
page changes no translation (`translate_demote1g`, `translate_demote2m`), `map4k`,
`map2m` and `map1g` change exactly their page (`translate_map4k`, `translate_map2m`,
`translate_map1g`), and `unmap` removes exactly the page
of the entry the walk ends at, whatever its size (`translate_unmap`).
-/

namespace MicroV

/-- `ept::mmap::attr_type::read_write_execute`: the read, write and execute bits. -/
def readWriteExecute : Nat := 7

/-- `ept::mmap::memory_type::write_back`. -/
def writeBack : Nat := 6

/-- A leaf entry: the host page it maps, its permission and memory type, and whether it
is present. -/
structure Leaf where
  phys : Nat
  attr : Nat
  mtype : Nat
  present : Bool
  deriving DecidableEq, Repr

/-- An entry of a paging structure: zero, a pointer to the next level, or a leaf. -/
inductive Entry
  | absent
  | table
  | leaf (l : Leaf)
  deriving DecidableEq, Repr

/-- Modelled from the spec: `ept::mmap`, its 1G, 2M and 4K entries indexed by
`gpa >> 30`, `gpa >> 21` and `gpa >> 12`. -/
structure Ept where
  pdpt : Nat → Entry
  pd : Nat → Entry
  pt : Nat → Entry

/-- A translation: host-physical address, permission and memory type. -/
structure Mapping where
  hpa : Nat
  attr : Nat
  mtype : Nat
  deriving DecidableEq, Repr

/-- Two translations that differ at most in how their host address is written. -/
theorem Mapping.some_eq_of_hpa {x y attr mtype : Nat} (h : x = y) :
    some (Mapping.mk x attr mtype) = some ⟨y, attr, mtype⟩ := by rw [h]

namespace Entry

/-- The leaf a walk through the 1G, 2M and 4K entries `e1`, `e2`, `e3` ends at, with
the shift of its page size. -/
def walk : Entry → Entry → Entry → Option (Nat × Leaf)
  | .leaf l, _, _ => some (pdptFrom, l)
  | .table, .leaf l, _ => some (pdFrom, l)
  | .table, .table, .leaf l => some (ptFrom, l)
  | _, _, _ => none


@[simp] theorem walk_leaf (l : Leaf) (e2 e3 : Entry) : walk (.leaf l) e2 e3 = some (pdptFrom, l) := rfl
@[simp] theorem walk_table_leaf (l : Leaf) (e3 : Entry) : walk .table (.leaf l) e3 = some (pdFrom, l) := rfl
@[simp] theorem walk_table_table_leaf (l : Leaf) : walk .table .table (.leaf l) = some (ptFrom, l) := rfl
@[simp] theorem walk_absent (e2 e3 : Entry) : walk .absent e2 e3 = none := rfl
@[simp] theorem walk_table_absent (e3 : Entry) : walk .table .absent e3 = none := rfl
@[simp] theorem walk_table_table_absent : walk .table .table .absent = none := rfl
@[simp] theorem walk_table_table_table : walk .table .table .table = none := rfl

/-- The three ways a walk ends at a leaf. -/
theorem walk_eq_some {e1 e2 e3 : Entry} {s : Nat} {l : Leaf} :
    walk e1 e2 e3 = some (s, l) ↔ (e1 = .leaf l ∧ s = pdptFrom) ∨
      (e1 = .table ∧ e2 = .leaf l ∧ s = pdFrom) ∨
      (e1 = .table ∧ e2 = .table ∧ e3 = .leaf l ∧ s = ptFrom) := by
  cases e1 <;> cases e2 <;> cases e3 <;> simp [eq_comm, and_comm]

end Entry

/-- The translation of `gpa` by a leaf whose page size has shift `shift`. -/
def Leaf.translate (l : Leaf) (shift gpa : Nat) : Option Mapping :=
  if l.present then some ⟨l.phys + gpa % 2 ^ shift, l.attr, l.mtype⟩ else none

@[simp] theorem Leaf.translate_not_present (l : Leaf) (s a : Nat) :
    { l with present := false }.translate s a = none := rfl

namespace Ept

/-- A map with no entries, as a domain's `m_ept_map` is constructed. -/
def empty : Ept := ⟨fun _ => .absent, fun _ => .absent, fun _ => .absent⟩

/-- The leaf a walk for `gpa` ends at, with the shift of its page size. -/
def walk (e : Ept) (gpa : Nat) : Option (Nat × Leaf) :=
  Entry.walk (e.pdpt (gpa / 2 ^ 30)) (e.pd (gpa / 2 ^ 21)) (e.pt (gpa / 2 ^ 12))

/-- The translation of `gpa`, when the walk ends at a present leaf. -/
def translate (e : Ept) (gpa : Nat) : Option Mapping :=
  (e.walk gpa).bind fun w => w.2.translate w.1 gpa

/-- `vcpu::gpa_to_hpa`: the host address of `gpa` and the shift of the page size
mapping it; `none` is the exception it raises when the walk finds no present entry. -/
def gpaToHpa (e : Ept) (gpa : Nat) : Option (Nat × Nat) :=
  (e.walk gpa).bind fun w => if w.2.present then some (w.2.phys + gpa % 2 ^ w.1, w.1) else none

/-- Make the 1G entry `i` a table: a 1G leaf is split into the 512 2M leaves mapping
the same addresses, and a zero entry gets a fresh table. -/
def demote1g (e : Ept) (i : Nat) : Ept :=
  match e.pdpt i with
  | .leaf l =>
    { e with pdpt := Function.update e.pdpt i .table,
             pd := fun j => if j / 512 = i then .leaf { l with phys := l.phys + j % 512 * 2 ^ 21 }
                            else e.pd j }
  | .absent =>
    { e with pdpt := Function.update e.pdpt i .table,
             pd := fun j => if j / 512 = i then .absent else e.pd j }
  | .table => e

/-- Make the 2M entry `j` a table: a 2M leaf is split into the 512 4K leaves mapping
the same addresses, and a zero entry gets a fresh table. -/
def demote2m (e : Ept) (j : Nat) : Ept :=
  match e.pd j with
  | .leaf l =>
    { e with pd := Function.update e.pd j .table,
             pt := fun k => if k / 512 = j then .leaf { l with phys := l.phys + k % 512 * 4096 }
                            else e.pt k }
  | .absent =>
    { e with pd := Function.update e.pd j .table,
             pt := fun k => if k / 512 = j then .absent else e.pt k }
  | .table => e

/-- `mmap::map_4k`; `none` is its `expects` failure on a misaligned address or a zero
physical address. -/
def map4k (e : Ept) (gpa hpa attr mtype : Nat) : Option Ept :=
  if gpa % 4096 = 0 ∧ hpa % 4096 = 0 ∧ hpa ≠ 0 then
    let e := (e.demote1g (gpa / 2 ^ 30)).demote2m (gpa / 2 ^ 21)
    some { e with pt := Function.update e.pt (gpa / 2 ^ 12) (.leaf ⟨hpa, attr, mtype, true⟩) }
  else none

/-- `mmap::map_2m`; `none` on a misaligned address or a zero physical address. -/
def map2m (e : Ept) (gpa hpa attr mtype : Nat) : Option Ept :=
  if gpa % 2 ^ 21 = 0 ∧ hpa % 2 ^ 21 = 0 ∧ hpa ≠ 0 then
    let e := e.demote1g (gpa / 2 ^ 30)
    some { e with pd := Function.update e.pd (gpa / 2 ^ 21) (.leaf ⟨hpa, attr, mtype, true⟩) }
  else none

/-- `mmap::map_1g`; `none` on a misaligned address or a zero physical address. -/
def map1g (e : Ept) (gpa hpa attr mtype : Nat) : Option Ept :=
  if gpa % 2 ^ 30 = 0 ∧ hpa % 2 ^ 30 = 0 ∧ hpa ≠ 0 then
    some { e with pdpt := Function.update e.pdpt (gpa / 2 ^ 30) (.leaf ⟨hpa, attr, mtype, true⟩) }
  else none

/-- `mmap::unmap`: mark the entry the walk for `gpa` ends at not present, whatever
the size of its page; the table structure stays. -/
def unmap (e : Ept) (gpa : Nat) : Ept :=
  match e.pdpt (gpa / 2 ^ 30), e.pd (gpa / 2 ^ 21), e.pt (gpa / 2 ^ 12) with
  | .leaf l, _, _ =>
    { e with pdpt := Function.update e.pdpt (gpa / 2 ^ 30) (.leaf { l with present := false }) }
  | .table, .leaf l, _ =>
    { e with pd := Function.update e.pd (gpa / 2 ^ 21) (.leaf { l with present := false }) }
  | .table, .table, .leaf l =>
    { e with pt := Function.update e.pt (gpa / 2 ^ 12) (.leaf { l with present := false }) }
  | _, _, _ => e

/-! ### What each operation does to a translation -/

section Frame

variable {e : Ept} {a p : Nat}

/-- A translation reads only the three entries on the walk for the address. -/
theorem translate_congr {e' : Ept} (h1 : e'.pdpt (a / 2 ^ 30) = e.pdpt (a / 2 ^ 30))
    (h2 : e'.pd (a / 2 ^ 21) = e.pd (a / 2 ^ 21)) (h3 : e'.pt (a / 2 ^ 12) = e.pt (a / 2 ^ 12)) :
    e'.translate a = e.translate a := by
  simp only [translate, walk, h1, h2, h3]

theorem div_pd_div (a : Nat) : a / 2 ^ 21 / 512 = a / 2 ^ 30 := by omega

theorem div_pt_div (a : Nat) : a / 2 ^ 12 / 512 = a / 2 ^ 21 := by omega

/-- **Splitting a 1G entry changes no translation.** -/
theorem translate_demote1g (e : Ept) (i a : Nat) : (e.demote1g i).translate a = e.translate a := by
  unfold demote1g
  split
  next l hl =>
    by_cases ha : a / 2 ^ 30 = i
    · subst ha
      simp only [translate, walk, Function.update_same, div_pd_div, if_true, hl, Entry.walk_leaf,
        Entry.walk_table_leaf, Option.some_bind, Leaf.translate, pdptFrom, pdFrom]
      split_ifs
      · exact Mapping.some_eq_of_hpa (by omega)
      · rfl
    · exact translate_congr (Function.update_noteq ha _ _) (by simp only [div_pd_div, if_neg ha]) rfl
  next hl =>
    by_cases ha : a / 2 ^ 30 = i
    · subst ha
      simp only [translate, walk, Function.update_same, div_pd_div, if_true, hl,
        Entry.walk_absent, Entry.walk_table_absent]
    · exact translate_congr (Function.update_noteq ha _ _) (by simp only [div_pd_div, if_neg ha]) rfl
  next => rfl

/-- **Splitting a 2M entry changes no translation.** -/
theorem translate_demote2m (e : Ept) (j a : Nat) : (e.demote2m j).translate a = e.translate a := by
  unfold demote2m
  split
  next l hl =>
    by_cases ha : a / 2 ^ 21 = j
    · subst ha
      simp only [translate, walk, Function.update_same, div_pt_div, if_true, hl]
      cases e.pdpt (a / 2 ^ 30) with
      | absent => rfl
      | leaf _ => rfl
      | table =>
        simp only [Entry.walk_table_table_leaf, Entry.walk_table_leaf, Option.some_bind,
          Leaf.translate, ptFrom, pdFrom]
        split_ifs
        · exact Mapping.some_eq_of_hpa (by omega)
        · rfl
    · exact translate_congr rfl (Function.update_noteq ha _ _) (by simp only [div_pt_div, if_neg ha])
  next hl =>
    by_cases ha : a / 2 ^ 21 = j
    · subst ha
      simp only [translate, walk, Function.update_same, div_pt_div, if_true, hl]
      cases e.pdpt (a / 2 ^ 30) <;> rfl
    · exact translate_congr rfl (Function.update_noteq ha _ _) (by simp only [div_pt_div, if_neg ha])
  next => rfl

theorem demote2m_pdpt (e : Ept) (j : Nat) : (e.demote2m j).pdpt = e.pdpt := by
  unfold demote2m; split <;> rfl

theorem demote1g_pdpt_self (e : Ept) (i : Nat) : (e.demote1g i).pdpt i = .table := by
  unfold demote1g; split <;> simp_all

theorem demote2m_pd_self (e : Ept) (j : Nat) : (e.demote2m j).pd j = .table := by
  unfold demote2m; split <;> simp_all

/-- **`map_4k` changes exactly the translations of its page.** -/
theorem translate_map4k {hpa attr mtype : Nat} {e' : Ept} (h : e.map4k p hpa attr mtype = some e')
    (a : Nat) : e'.translate a =
      if a / 2 ^ 12 = p / 2 ^ 12 then some ⟨hpa + a % 2 ^ 12, attr, mtype⟩ else e.translate a := by
  unfold map4k at h
  split_ifs at h
  cases h
  split_ifs with ha
  · have h1 : a / 2 ^ 30 = p / 2 ^ 30 := by omega
    have h2 : a / 2 ^ 21 = p / 2 ^ 21 := by omega
    simp only [translate, walk, ha, h1, h2, Function.update_apply, if_true, demote2m_pdpt,
      demote1g_pdpt_self, demote2m_pd_self, Entry.walk_table_table_leaf, Option.some_bind,
      Leaf.translate, ptFrom]
  · have h3 := Function.update_noteq ha (Entry.leaf ⟨hpa, attr, mtype, true⟩)
      ((e.demote1g (p / 2 ^ 30)).demote2m (p / 2 ^ 21)).pt
    rw [translate_congr (by rfl) (by rfl) h3, translate_demote2m, translate_demote1g]

/-- **`map_2m` changes exactly the translations of its page.** -/
theorem translate_map2m {hpa attr mtype : Nat} {e' : Ept} (h : e.map2m p hpa attr mtype = some e')
    (a : Nat) : e'.translate a =
      if a / 2 ^ 21 = p / 2 ^ 21 then some ⟨hpa + a % 2 ^ 21, attr, mtype⟩ else e.translate a := by
  unfold map2m at h
  split_ifs at h
  cases h
  split_ifs with ha
  · have h1 : a / 2 ^ 30 = p / 2 ^ 30 := by omega
    simp only [translate, walk, ha, h1, Function.update_apply, if_true, demote1g_pdpt_self,
      Entry.walk_table_leaf, Option.some_bind, Leaf.translate, pdFrom]
  · have h2 := Function.update_noteq ha (Entry.leaf ⟨hpa, attr, mtype, true⟩)
      (e.demote1g (p / 2 ^ 30)).pd
    rw [translate_congr (by rfl) h2 (by rfl), translate_demote1g]

/-- **`map_1g` changes exactly the translations of its page.** -/
theorem translate_map1g {hpa attr mtype : Nat} {e' : Ept} (h : e.map1g p hpa attr mtype = some e')
    (a : Nat) : e'.translate a =
      if a / 2 ^ 30 = p / 2 ^ 30 then some ⟨hpa + a % 2 ^ 30, attr, mtype⟩ else e.translate a := by
  unfold map1g at h
  split_ifs at h
  cases h
  split_ifs with ha
  · simp only [translate, walk, ha, Function.update_apply, if_true, Entry.walk_leaf,
      Option.some_bind, Leaf.translate, pdptFrom]
  · exact translate_congr (Function.update_noteq ha _ _) rfl rfl

/-- **`unmap` removes exactly the translations of the page its walk ends at**, a 4K,
2M or 1G page. -/
theorem translate_unmap {s : Nat} {l : Leaf} (h : e.walk p = some (s, l)) (a : Nat) :
    (e.unmap p).translate a = if a / 2 ^ s = p / 2 ^ s then none else e.translate a := by
  rcases Entry.walk_eq_some.mp h with ⟨h1, rfl⟩ | ⟨h1, h2, rfl⟩ | ⟨h1, h2, h3, rfl⟩
  · simp only [unmap, h1, pdptFrom]
    split_ifs with ha
    · simp only [translate, walk, ha, Function.update_apply, if_true, Entry.walk_leaf,
        Option.some_bind, Leaf.translate_not_present]
    · exact translate_congr (Function.update_noteq ha _ _) rfl rfl
  · simp only [unmap, h1, h2, pdFrom]
    split_ifs with ha
    · have h1' : a / 2 ^ 30 = p / 2 ^ 30 := by omega
      simp only [translate, walk, ha, h1', h1, Function.update_apply, if_true,
        Entry.walk_table_leaf, Option.some_bind, Leaf.translate_not_present]
    · exact translate_congr rfl (Function.update_noteq ha _ _) rfl
  · simp only [unmap, h1, h2, h3, ptFrom]
    split_ifs with ha
    · have h1' : a / 2 ^ 30 = p / 2 ^ 30 := by omega
      have h2' : a / 2 ^ 21 = p / 2 ^ 21 := by omega
      simp only [translate, walk, ha, h1', h2', h1, h2, Function.update_apply, if_true,
        Entry.walk_table_table_leaf, Option.some_bind, Leaf.translate_not_present]
    · exact translate_congr rfl rfl (Function.update_noteq ha _ _)

/-- `unmap` of an address no walk reaches a leaf for changes nothing. -/
theorem unmap_of_walk_none (h : e.walk p = none) : e.unmap p = e := by
  unfold walk at h
  unfold unmap
  split <;> simp_all

/-- `gpa_to_hpa` answers with the host address of the walk's leaf and its page size. -/
theorem gpaToHpa_eq_some {hpa s : Nat} :
    e.gpaToHpa a = some (hpa, s) ↔
      ∃ l, e.walk a = some (s, l) ∧ l.present ∧ hpa = l.phys + a % 2 ^ s := by
  unfold gpaToHpa
  rcases e.walk a with _ | ⟨s', l⟩
  · simp
  · constructor
    · intro h
      simp only [Option.some_bind] at h
      split_ifs at h with hp
      obtain ⟨rfl, rfl⟩ := Prod.mk.inj (Option.some.inj h)
      exact ⟨l, rfl, hp, rfl⟩
    · rintro ⟨l', h, hp, rfl⟩
      obtain ⟨rfl, rfl⟩ := Prod.mk.inj (Option.some.inj h)
      simp [hp]

/-- `map_4k` makes at most its 1G entry a table. -/
theorem map4k_pdpt {hpa attr mtype : Nat} {e' : Ept} (h : e.map4k p hpa attr mtype = some e') (i : Nat) :
    e'.pdpt i = e.pdpt i ∨ e'.pdpt i = .table := by
  unfold map4k at h
  split_ifs at h
  cases h
  show ((e.demote1g (p / 2 ^ 30)).demote2m (p / 2 ^ 21)).pdpt i = _ ∨ _
  rw [demote2m_pdpt]
  unfold demote1g
  split
  all_goals
    first
    | exact .inl rfl
    | by_cases hi : i = p / 2 ^ 30
      · exact .inr (by rw [hi]; exact Function.update_same _ _ _)
      · exact .inl (Function.update_noteq hi _ _)

theorem translate_of_gpaToHpa {hpa s : Nat} (h : e.gpaToHpa a = some (hpa, s)) :
    ∃ m, e.translate a = some m ∧ m.hpa = hpa := by
  obtain ⟨l, hw, hp, rfl⟩ := gpaToHpa_eq_some.mp h
  exact ⟨⟨l.phys + a % 2 ^ s, l.attr, l.mtype⟩,
    by simp only [translate, hw, Option.some_bind, Leaf.translate, hp, if_true], rfl⟩

/-- `gpa_to_hpa` finds a page exactly where the EPT translates. -/
theorem gpaToHpa_isSome : (e.gpaToHpa a).isSome = (e.translate a).isSome := by
  unfold gpaToHpa translate Leaf.translate
  cases e.walk a with
  | none => rfl
  | some w => simp only [Option.some_bind]; split_ifs <;> rfl

/-- Addresses of one 4K page share their walk. -/
theorem walk_eq_of_page {b : Nat} (h : a / 2 ^ 12 = b / 2 ^ 12) : e.walk a = e.walk b := by
  have h2 : a / 2 ^ 21 = b / 2 ^ 21 := by omega
  have h3 : a / 2 ^ 30 = b / 2 ^ 30 := by omega
  simp only [walk, h, h2, h3]

/-- A walk that ends at a 4K leaf passes two tables. -/
theorem walk_eq_pt {l : Leaf} : e.walk a = some (ptFrom, l) ↔
    e.pdpt (a / 2 ^ 30) = .table ∧ e.pd (a / 2 ^ 21) = .table ∧ e.pt (a / 2 ^ 12) = .leaf l := by
  rw [walk, Entry.walk_eq_some]
  constructor
  · rintro (⟨-, h'⟩ | ⟨-, -, h'⟩ | ⟨h1, h2, h3, -⟩)
    · exact absurd h' (by decide)
    · exact absurd h' (by decide)
    · exact ⟨h1, h2, h3⟩
  · rintro ⟨h1, h2, h3⟩
    exact .inr (.inr ⟨h1, h2, h3, rfl⟩)

/-- Splitting a 2M entry keeps a walk that ends at a 4K leaf. -/
theorem walk_demote2m_of_pt {l : Leaf} (h : e.walk a = some (ptFrom, l)) (j : Nat) :
    (e.demote2m j).walk a = some (ptFrom, l) := by
  obtain ⟨h1, h2, h3⟩ := walk_eq_pt.mp h
  by_cases hj : a / 2 ^ 21 = j
  · subst hj
    simp only [demote2m, h2]
    exact h
  · unfold demote2m
    split <;> simp only [walk, Function.update_noteq hj, div_pt_div, if_neg hj, h1, h2, h3,
      Entry.walk_table_table_leaf]

/-- Splitting a 2M entry leaves every walk as it was, or makes it end at a 4K leaf. -/
theorem walk_demote2m {s : Nat} {l : Leaf} (h : e.walk a = some (s, l)) (j : Nat) :
    (e.demote2m j).walk a = some (s, l) ∨ ∃ l', (e.demote2m j).walk a = some (ptFrom, l') := by
  rcases Entry.walk_eq_some.mp h with ⟨h1, rfl⟩ | ⟨h1, h2, rfl⟩ | ⟨-, -, -, rfl⟩
  · exact .inl (by rw [walk, demote2m_pdpt, h1, Entry.walk_leaf])
  · by_cases hj : a / 2 ^ 21 = j
    · subst hj
      right
      simp only [demote2m, h2, walk, Function.update_same, div_pt_div, if_true, demote2m_pdpt, h1,
        Entry.walk_table_table_leaf, Option.some.injEq, Prod.mk.injEq, true_and, exists_eq']
    · left
      rw [walk, demote2m_pdpt]
      unfold demote2m
      split <;> simp only [Function.update_noteq hj, h1, h2, Entry.walk_table_leaf]
  · exact .inl (walk_demote2m_of_pt h j)

/-- Unmapping a page whose walk ends at a 4K leaf keeps the walk of every other 4K page. -/
theorem walk_unmap_of_ne {q : Nat} {l : Leaf} (h : e.walk p = some (ptFrom, l))
    (hq : q / 2 ^ 12 ≠ p / 2 ^ 12) : (e.unmap p).walk q = e.walk q := by
  obtain ⟨h1, h2, h3⟩ := walk_eq_pt.mp h
  simp only [unmap, h1, h2, h3, walk, Function.update_noteq hq]

/-- With no 1G leaf, making a 1G entry a table keeps every walk. -/
theorem walk_demote1g {i s : Nat} {l : Leaf} (hno : ∀ l, e.pdpt i ≠ .leaf l)
    (h : e.walk a = some (s, l)) : (e.demote1g i).walk a = some (s, l) := by
  unfold demote1g
  split
  next l' hl => exact absurd hl (hno l')
  next hl =>
    have hi : a / 2 ^ 30 ≠ i := fun hi => by rw [walk, hi, hl] at h; cases h
    simp only [walk, Function.update_noteq hi, div_pd_div, if_neg hi]
    exact h
  next => exact h

/-- With no 1G leaf, `map_4k` keeps the walk of every other 4K page, or makes it end at
a 4K leaf. -/
theorem walk_map4k_of_ne {q hpa attr mtype s : Nat} {l : Leaf} {e' : Ept}
    (hm : e.map4k q hpa attr mtype = some e') (hno : ∀ i l, e.pdpt i ≠ .leaf l)
    (h : e.walk a = some (s, l)) (hq : a / 2 ^ 12 ≠ q / 2 ^ 12) :
    e'.walk a = some (s, l) ∨ ∃ l', e'.walk a = some (ptFrom, l') := by
  unfold map4k at hm
  split_ifs at hm
  cases hm
  have hw := walk_demote2m (walk_demote1g (hno (q / 2 ^ 30)) h) (q / 2 ^ 21)
  simp only [walk, Function.update_noteq hq] at hw ⊢
  exact hw

/-- A 4K page is translated whole or not at all. -/
theorem translate_isSome_page {b : Nat} (h : a / 2 ^ 12 = b / 2 ^ 12) :
    (e.translate a).isSome = (e.translate b).isSome := by
  simp only [translate, walk_eq_of_page h]
  cases e.walk b with
  | none => rfl
  | some w => simp only [Option.some_bind, Leaf.translate]; split_ifs <;> rfl

end Frame

end Ept

/-- Modelled from the spec: `ept::identity_map(m_ept_map, max)` on an empty map,
1:1 read-write-execute, write-back mappings of the 2M pages below `max`.  (The
`setup_dom0` note plans a move to 1G pages; today the map is built of 2M pages.) -/
def identityMap (max : Nat) : Ept where
  pdpt i := if i * 2 ^ 30 < max then .table else .absent
  pd j := if j * 2 ^ 21 < max then .leaf ⟨j * 2 ^ 21, readWriteExecute, writeBack, true⟩ else .absent
  pt _ := .absent

@[simp] theorem translate_empty (a : Nat) : Ept.empty.translate a = none := rfl

/-- **`identity_map` maps every address of a 2M page below `max` to itself**,
read-write-execute and write-back, and nothing else. -/
theorem translate_identityMap (max a : Nat) : (identityMap max).translate a =
    if a / 2 ^ 21 * 2 ^ 21 < max then some ⟨a, readWriteExecute, writeBack⟩ else none := by
  simp only [Ept.translate, Ept.walk, identityMap]
  by_cases h2 : a / 2 ^ 21 * 2 ^ 21 < max
  · have h1 : a / 2 ^ 30 * 2 ^ 30 < max := by omega
    simp only [h1, h2, if_true, Entry.walk_table_leaf, Option.some_bind, Leaf.translate, pdFrom]
    exact Mapping.some_eq_of_hpa (by omega)
  · simp only [h2, if_false]
    split_ifs <;> rfl

theorem identityMap_pdpt (max i : Nat) : (identityMap max).pdpt i = .table ∨
    (identityMap max).pdpt i = .absent := by
  simp only [identityMap]; split_ifs <;> simp

/-- Modelled from the spec: `identity_map_convert_2m_to_4k(ept, gpa_2m)`, the 2M page
at `gpa_2m` split into 4K pages that keep its translations. -/
def identityMapConvert2mTo4k (e : Ept) (gpa2m : Nat) : Ept := e.demote2m (gpa2m / 2 ^ 21)

end MicroV

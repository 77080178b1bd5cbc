import Mathlib

/-!
# Pages, page frames and return codes

The donation code of `domain.cpp` works on 64-bit guest-physical addresses
(`uint64_t`), which are `BitVec 64` here, so that `page_gpa + UV_PAGE_SIZE` and
`m_page_start -= UV_PAGE_SIZE` wrap as they do in C++.

* `uvPageSize`, `uvPageFrom`: the 4K page, `UV_PAGE_SIZE` and `UV_PAGE_FROM`.
* `ptFrom`, `pdFrom`, `pdptFrom`: the shifts `::x64::pt::from`, `pd::from`,
  `pdpt::from` of the three page sizes an EPT entry can map.
* `Bfn.upper`: `bfn::upper`, an address rounded down to its page.
* `Status`: how a call of the donation protocol ends.

`upper_toNat` and `upper_lt_of_lt` are what later files use of `Bfn.upper`.
-/

namespace MicroV

/-- `UV_PAGE_SIZE`. -/
def uvPageSize : BitVec 64 := 4096

/-- `UV_PAGE_FROM`: `UV_PAGE_SIZE = 1 << UV_PAGE_FROM`. -/
def uvPageFrom : Nat := 12

/-- `::x64::pt::from`, the shift of a 4K page. -/
def ptFrom : Nat := 12

/-- `::x64::pd::from`, the shift of a 2M page. -/
def pdFrom : Nat := 21

/-- `::x64::pdpt::from`, the shift of a 1G page. -/
def pdptFrom : Nat := 30

@[simp] theorem uvPageSize_toNat : uvPageSize.toNat = 4096 := rfl

/-- `bfn::upper(addr, from)`: `addr` with its low `from` bits cleared. -/
def Bfn.upper (addr : BitVec 64) (shift : Nat) : BitVec 64 := addr >>> shift <<< shift

theorem upper_toNat (addr : BitVec 64) (shift : Nat) :
    (Bfn.upper addr shift).toNat = addr.toNat / 2 ^ shift * 2 ^ shift := by
  have hlt : addr.toNat / 2 ^ shift * 2 ^ shift < 2 ^ 64 :=
    Nat.lt_of_le_of_lt (Nat.div_mul_le_self _ _) addr.isLt
  simp only [Bfn.upper, BitVec.toNat_shiftLeft, BitVec.toNat_ushiftRight,
    Nat.shiftRight_eq_div_pow, Nat.shiftLeft_eq]
  exact Nat.mod_eq_of_lt hlt

@[simp] theorem upper_ptFrom_toNat (addr : BitVec 64) :
    (Bfn.upper addr ptFrom).toNat = addr.toNat / 4096 * 4096 :=
  upper_toNat addr 12

theorem upper_ptFrom_aligned (addr : BitVec 64) : (Bfn.upper addr ptFrom).toNat % 4096 = 0 := by
  rw [upper_ptFrom_toNat]; omega

/-- The two addresses lie in the same 4K page. -/
theorem upper_eq_iff (a b : BitVec 64) :
    Bfn.upper a ptFrom = Bfn.upper b ptFrom ↔ a.toNat / 4096 = b.toNat / 4096 := by
  rw [BitVec.toNat_eq, upper_ptFrom_toNat, upper_ptFrom_toNat]
  omega

/-- How a call of the donation protocol ends: with the hypercall status it returns,
or with an exception leaving it (an `expects` failure or a collaborator's exception
outside its `try` block). -/
inductive Status
  | success
  | failure
  | again
  | raised
  deriving DecidableEq, Repr

end MicroV

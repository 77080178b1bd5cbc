import MicroV.Basic

/-!
# Donated page ranges

A borrower's donated pages are kept in a `page_range_set`, a `std::set` of
`page_range`s ordered by start address.  Here the set is the list of its ranges in
iteration order, and an iterator that is not `end()` is a `PageRangeIterator`: the
ranges before it, the range it points at, and the ranges after it.

`page_range` and its methods are declared in `domain.h`, which is not part of the
sources; they are modelled from the spec's classification of an address relative to
a range (bottom, top, middle, not contained).  The functions of `domain.cpp` are
translated as the code computes them:

* `lowerBound`: `range_set->lower_bound(page_gpa)`, as the split of the set at the
  iterator it returns;
* `findPageRange`: `find_page_range`, with its `cbegin()`, `cend()` and
  `std::prev` cases;
* `addPage`, `removePage`: the bodies of `add_page_to_donated_range` and
  `remove_page_from_donated_range` once the borrower's set has been found, with the
  in-place edits `extend_page_range_above`, `extend_page_range_below` and the
  shrinks from the top and the bottom;
* `emplace`: `std::set::emplace` and `emplace_hint`, an ordered insertion that does
  nothing when a range with the same start is present.
-/

namespace MicroV

/-- `page_range`: `count` consecutive 4K pages from `start`. -/
structure PageRange where
  start : BitVec 64
  count : BitVec 64
  deriving DecidableEq, Repr

namespace PageRange

/-! ### The methods of `page_range`

Modelled from the spec: `limit()` is the address just above the last page,
`start + count * UV_PAGE_SIZE`; `contains`, `contiguous_below`, `contiguous_above`,
`top_page`, `bottom_page` and `middle_page` place an address against the range.
`extend_page_range_above` is `m_page_count++`, and `extend_page_range_below` is
`m_page_start -= UV_PAGE_SIZE; m_page_count++`. -/

def limit (r : PageRange) : BitVec 64 := r.start + (r.count <<< uvPageFrom)

def contains (r : PageRange) (gpa : BitVec 64) : Bool := r.start ≤ gpa && gpa < r.limit

def contiguousBelow (r : PageRange) (gpa : BitVec 64) : Bool := r.limit == gpa

def contiguousAbove (r : PageRange) (gpa : BitVec 64) : Bool := gpa + uvPageSize == r.start

def topPage (r : PageRange) (gpa : BitVec 64) : Bool := gpa == r.limit - uvPageSize

def bottomPage (r : PageRange) (gpa : BitVec 64) : Bool := gpa == r.start

def middlePage (r : PageRange) (gpa : BitVec 64) : Bool :=
  r.start < gpa && gpa < r.limit - uvPageSize

def extendPageRangeAbove (r : PageRange) : PageRange := { r with count := r.count + 1 }

def extendPageRangeBelow (r : PageRange) : PageRange :=
  { start := r.start - uvPageSize, count := r.count + 1 }

end PageRange

abbrev PageRangeSet := List PageRange

structure PageRangeIterator where
  before : PageRangeSet
  range : PageRange
  after : PageRangeSet
  deriving DecidableEq, Repr

def PageRangeIterator.toSet (it : PageRangeIterator) : PageRangeSet :=
  it.before ++ it.range :: it.after

/-- `std::set::emplace(start, count)` and `emplace_hint`: insert in start order, unless
a range with that start is already there. -/
def emplace (r : PageRange) : PageRangeSet → PageRangeSet
  | [] => [r]
  | q :: qs =>
    if r.start < q.start then r :: q :: qs
    else if q.start < r.start then q :: emplace r qs
    else q :: qs

/-- `range_set->lower_bound(page_gpa)`, as the split of the set at the returned
iterator: the ranges that start below `gpa`, and the rest, up to `end()`. -/
def lowerBound (s : PageRangeSet) (gpa : BitVec 64) : PageRangeSet × PageRangeSet :=
  (s.takeWhile (·.start < gpa), s.dropWhile (·.start < gpa))

/-- `range = std::prev(range); return range->contains(page_gpa) ? range : end();`,
for the iterator whose predecessors are `before`. -/
def prevIfContains (before after : PageRangeSet) (gpa : BitVec 64) :
    Option PageRangeIterator :=
  match before.getLast? with
  | some q => if q.contains gpa then some ⟨before.dropLast, q, after⟩ else none
  | none => none

/-- `find_page_range`: the range holding `page_gpa`, or `end()` (`none`).  The three
cases are `range == cbegin()`, `range == cend()` and the general one. -/
def findPageRange (s : PageRangeSet) (gpa : BitVec 64) : Option PageRangeIterator :=
  if s.isEmpty then none else
  match lowerBound s gpa with
  | ([], r :: after) => if r.contains gpa then some ⟨[], r, after⟩ else none
  | ([], []) => none
  | (before, []) => prevIfContains before [] gpa
  | (before, r :: after) =>
    if r.contains gpa then some ⟨before, r, after⟩ else prevIfContains before (r :: after) gpa

/-- In `add_page_to_donated_range`: on `std::prev` of the iterator, extend the range
upward when it ends right below `page_gpa`; otherwise, or when the iterator is
`begin()`, `emplace_hint(range, page_gpa, 1)`. -/
def extendAboveOrEmplace (s before after : PageRangeSet) (gpa : BitVec 64) : PageRangeSet :=
  match before.getLast? with
  | some q =>
    if q.contiguousBelow gpa then before.dropLast ++ q.extendPageRangeAbove :: after
    else emplace ⟨gpa, 1⟩ s
  | none => emplace ⟨gpa, 1⟩ s

def addPage (s : PageRangeSet) (gpa : BitVec 64) : PageRangeSet :=
  if s.isEmpty then emplace ⟨gpa, 1⟩ s else
  match lowerBound s gpa with
  | (before, []) => extendAboveOrEmplace s before [] gpa
  | (before, r :: after) =>
    if r.contiguousAbove gpa then before ++ r.extendPageRangeBelow :: after
    else extendAboveOrEmplace s before (r :: after) gpa

/-- Whether `add_page_to_donated_range` allocates a range node on the borrower's set:
it does unless it extends a range in place. -/
def addPageAllocates (s : PageRangeSet) (gpa : BitVec 64) : Bool :=
  if s.isEmpty then true else
  match lowerBound s gpa with
  | (before, []) => !(before.getLast?.any (·.contiguousBelow gpa))
  | (before, r :: _) => !r.contiguousAbove gpa && !(before.getLast?.any (·.contiguousBelow gpa))

def removePage (s : PageRangeSet) (gpa : BitVec 64) : PageRangeSet :=
  match findPageRange s gpa with
  | none => s
  | some ⟨before, r, after⟩ =>
    if r.topPage gpa then
      if r.count = 1 then before ++ after
      else before ++ { r with count := r.count - 1 } :: after
    else if r.middlePage gpa then
      let upperStart := gpa + uvPageSize
      let upperCount := (r.limit - upperStart) >>> uvPageFrom
      let lowerStart := r.start
      let lowerCount := (gpa - lowerStart) >>> uvPageFrom
      emplace ⟨lowerStart, lowerCount⟩ (emplace ⟨upperStart, upperCount⟩ (before ++ after))
    else if r.bottomPage gpa then
      if r.count = 1 then before ++ after
      else before ++ ⟨r.start + uvPageSize, r.count - 1⟩ :: after
    else s

end MicroV

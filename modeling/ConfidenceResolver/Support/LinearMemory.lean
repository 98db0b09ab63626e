import Mathlib.Algebra.Order.Ring.Nat
import Mathlib.Data.List.Perm.Basic
import Mathlib.Tactic.NormNum
import ConfidenceResolver.Support.Effects
import ConfidenceResolver.Support.WireFormat

/-!
# Support — linear memory and its blocks

A memory of bytes with an allocator.  A block is an extent of the memory that was allocated and
not yet given back.  Reading, writing or giving back what is not a block is a misuse, at which a
run stops.

* `Memory.read`, `Memory.write`: bytes at an address.
* `Allocator`: any bookkeeping that hands out fresh extents.
* `Heap.Holds`: the blocks of a heap, with their contents, one apart from the other.
* `Heap.Holds.alloc`, `dealloc`, `load`, `store`: what each operation does to them.
-/

namespace ConfidenceResolver

/-! ### Bytes -/

abbrev Memory := Nat → UInt8

namespace Memory

def read (m : Memory) (a n : Nat) : Bytes := (List.range n).map fun i => m (a + i)

def write (m : Memory) (a : Nat) (bs : Bytes) : Memory := fun x =>
  if a ≤ x then (bs[x - a]?).getD (m x) else m x

variable (m : Memory) {a b n : Nat} {bs : Bytes}

@[simp] theorem length_read : (m.read a n).length = n := by simp [read]

theorem read_write_self (a : Nat) (bs : Bytes) : (m.write a bs).read a bs.length = bs := by
  refine List.ext_getElem (by simp) fun i hi hi' => ?_
  simp [read, write, hi']

/-- What lies apart from the written bytes keeps its contents. -/
theorem read_write_apart (h : a + n ≤ b ∨ b + bs.length ≤ a) :
    (m.write b bs).read a n = m.read a n := by
  refine List.map_congr_left fun i hi => ?_
  have hi : i < n := List.mem_range.mp hi
  rw [write]
  split
  · rw [List.getElem?_eq_none (by omega), Option.getD_none]
  · rfl

theorem read_add (a n k : Nat) : m.read a (n + k) = m.read a n ++ m.read (a + n) k := by
  simp [read, List.range_add, Nat.add_assoc]

end Memory

/-! ### Words -/

/-- The four bytes of a 32-bit word, the lowest first. -/
def le32 (n : Nat) : Bytes :=
  [UInt8.ofNat n, UInt8.ofNat (n / 2 ^ 8), UInt8.ofNat (n / 2 ^ 16), UInt8.ofNat (n / 2 ^ 24)]

def ofLe : Bytes → Nat
  | [] => 0
  | b :: bs => b.toNat + 2 ^ 8 * ofLe bs

@[simp] theorem length_le32 (n : Nat) : (le32 n).length = 4 := rfl

theorem ofLe_le32 {n : Nat} (h : n < 2 ^ 32) : ofLe (le32 n) = n := by
  simp only [le32, ofLe, UInt8.toNat_ofNat']
  omega

/-! ### Blocks -/

/-- Where a block lies. -/
structure Extent where
  addr : Nat
  size : Nat
  deriving DecidableEq, Repr

namespace Extent

/-- The bytes from `a` on lie in the extent. -/
def Covers (e : Extent) (a n : Nat) : Prop := e.addr ≤ a ∧ a + n ≤ e.addr + e.size

instance (e : Extent) (a n : Nat) : Decidable (e.Covers a n) :=
  inferInstanceAs (Decidable (_ ∧ _))

def Apart (e f : Extent) : Prop := e.addr + e.size ≤ f.addr ∨ f.addr + f.size ≤ e.addr

theorem Apart.symm {e f : Extent} (h : e.Apart f) : f.Apart e := h.elim .inr .inl

/-- The extent lies in the memory, and neither starts nor ends at the address 0. -/
def InBounds (e : Extent) : Prop := 0 < e.addr ∧ e.addr + e.size < 2 ^ 32

end Extent

/-- The bookkeeping of an allocator: which blocks are live, and that a new one is apart from
them.  How it finds room, and when it finds none, is its own affair. -/
structure Allocator where
  Book : Type
  live : Book → List Extent
  alloc : Book → Nat → Option (Nat × Book)
  dealloc : Book → Extent → Book
  live_alloc : ∀ {book n a book'}, alloc book n = some (a, book') →
    live book' = ⟨a, n⟩ :: live book
  fresh : ∀ {book n a book'}, alloc book n = some (a, book') →
    Extent.InBounds ⟨a, n⟩ ∧ ∀ e ∈ live book, Extent.Apart ⟨a, n⟩ e
  live_dealloc : ∀ {book e}, e ∈ live book → live (dealloc book e) = (live book).erase e

/-- A memory and the book of its allocator.  The answers of the allocator, the last one first, are
recorded for what is said of a run; no run reads them. -/
structure Heap (A : Allocator) where
  mem : Memory
  book : A.Book
  answers : List (Option Nat)

/-- The heap at the start of a run, in which nothing was asked of the allocator yet. -/
def Heap.unasked {A : Allocator} (h : Heap A) : Heap A := { h with answers := [] }

/-- Why a run over a memory stops. -/
inductive Stop where
  /-- The program itself gives up. -/
  | panic (message : String)
  /-- Bytes outside of every block are read, written or given back. -/
  | misuse
  deriving DecidableEq, Repr

/-- A run over a memory. -/
abbrev OnHeap (A : Allocator) := Eff (Heap A) Stop

namespace OnHeap

variable {A : Allocator}

def panic {α : Type} (message : String) : OnHeap A α := Eff.throw (.panic message)

def alloc (n : Nat) : OnHeap A (Option Nat) := fun h =>
  match A.alloc h.book n with
  | none => (.ok none, { h with answers := none :: h.answers })
  | some (a, book) => (.ok (some a), { h with book := book, answers := some a :: h.answers })

def dealloc (e : Extent) : OnHeap A Unit := fun h =>
  if e ∈ A.live h.book then (.ok (), { h with book := A.dealloc h.book e })
  else (.error .misuse, h)

/-- Some block has the `n` bytes from `a` on. -/
def covered (h : Heap A) (a n : Nat) : Bool := (A.live h.book).any fun e => e.Covers a n

def load (a n : Nat) : OnHeap A Bytes := fun h =>
  if covered h a n then (.ok (h.mem.read a n), h) else (.error .misuse, h)

def store (a : Nat) (bs : Bytes) : OnHeap A Unit := fun h =>
  if covered h a bs.length then (.ok (), { h with mem := h.mem.write a bs })
  else (.error .misuse, h)

/-- Only an allocation is answered. -/
theorem answers_store {a : Nat} {bs : Bytes} {h h' : Heap A} {r : Except Stop Unit}
    (hrun : store a bs h = (r, h')) : h'.answers = h.answers := by
  rw [store] at hrun
  split at hrun
  · cases hrun; rfl
  · cases hrun; rfl

end OnHeap

/-! ### An allocator -/

namespace Allocator

/-- Above every block. -/
def top (book : List Extent) : Nat := book.foldr (fun e t => max (e.addr + e.size) t) 1

theorem top_pos (book : List Extent) : 0 < top book := by
  induction book with
  | nil => simp [top]
  | cons e book ih =>
      rw [top, List.foldr_cons, ← top]
      omega

theorem le_top {book : List Extent} {e : Extent} (he : e ∈ book) : e.addr + e.size ≤ top book := by
  induction book with
  | nil => cases he
  | cons f book ih =>
      rw [top, List.foldr_cons, ← top]
      rcases List.mem_cons.mp he with rfl | he
      · exact le_max_left _ _
      · exact le_trans (ih he) (le_max_right _ _)

/-- The allocator that takes the room above its last block. -/
def bump : Allocator where
  Book := List Extent
  live := id
  alloc book n :=
    if top book + n < 2 ^ 32 then some (top book, ⟨top book, n⟩ :: book) else none
  dealloc book e := book.erase e
  live_alloc := by
    intro book n a book' h
    split at h
    · cases h; rfl
    · cases h
  fresh := by
    intro book n a book' h
    split at h
    · next hroom =>
        cases h
        exact ⟨⟨top_pos book, hroom⟩, fun e he => .inr (le_top he)⟩
    · cases h
  live_dealloc := by
    intro book e _
    rfl

end Allocator

/-! ### Blocks with their contents -/

/-- A block with its contents. -/
structure Block where
  addr : Nat
  bytes : Bytes
  deriving DecidableEq, Repr

def Block.extent (c : Block) : Extent := ⟨c.addr, c.bytes.length⟩

/-- The live blocks of `h` are `blocks`, each has its contents, and no two overlap. -/
structure Heap.Holds {A : Allocator} (h : Heap A) (blocks : List Block) : Prop where
  live : (A.live h.book).Perm (blocks.map Block.extent)
  contents : ∀ c ∈ blocks, h.mem.read c.addr c.bytes.length = c.bytes
  apart : blocks.Pairwise fun c d => c.extent.Apart d.extent
  inBounds : ∀ c ∈ blocks, c.extent.InBounds

namespace Heap.Holds

variable {A : Allocator} {h : Heap A} {blocks blocks' : List Block} {c : Block}

/-- The order of the blocks says nothing. -/
theorem perm (hh : h.Holds blocks) (hp : blocks.Perm blocks') : h.Holds blocks' where
  live := hh.live.trans (hp.map _)
  contents := fun c hc => hh.contents c (hp.mem_iff.mpr hc)
  apart := hp.pairwise hh.apart fun hapart => hapart.symm
  inBounds := fun c hc => hh.inBounds c (hp.mem_iff.mpr hc)

theorem mem_live (hh : h.Holds blocks) (hc : c ∈ blocks) : c.extent ∈ A.live h.book :=
  hh.live.mem_iff.mpr (List.mem_map_of_mem hc)

theorem covered (hh : h.Holds blocks) (hc : c ∈ blocks) {a n : Nat} (hin : c.extent.Covers a n) :
    OnHeap.covered h a n = true :=
  List.any_eq_true.mpr ⟨c.extent, hh.mem_live hc, decide_eq_true hin⟩

/-- No block starts at the address 0. -/
theorem not_covered_zero (hh : h.Holds blocks) (n : Nat) : OnHeap.covered h 0 n = false := by
  refine List.any_eq_false.mpr fun e he => ?_
  obtain ⟨c, hc, rfl⟩ := List.mem_map.mp (hh.live.mem_iff.mp he)
  have hpos : 0 < c.extent.addr := (hh.inBounds c hc).1
  have hnot : ¬ c.extent.Covers 0 n := fun hcovers => Nat.not_le.mpr hpos hcovers.1
  simp [hnot]

/-- What was asked before says nothing. -/
theorem unasked (hh : h.Holds blocks) : h.unasked.Holds blocks :=
  ⟨hh.live, hh.contents, hh.apart, hh.inBounds⟩

/-- A new block is one more, with whatever the memory has there, or there is no room. -/
theorem alloc (hh : h.Holds blocks) (n : Nat) :
    ∃ answer h', OnHeap.alloc n h = (.ok answer, h') ∧ h'.answers = answer :: h.answers ∧
      match answer with
      | none => h'.Holds blocks
      | some a => h'.Holds (⟨a, h.mem.read a n⟩ :: blocks) := by
  rw [OnHeap.alloc]
  rcases halloc : A.alloc h.book n with _ | ⟨a, book⟩
  · exact ⟨none, _, rfl, rfl, hh.live, hh.contents, hh.apart, hh.inBounds⟩
  · refine ⟨some a, _, rfl, rfl, ?_⟩
    obtain ⟨hbounds, hfresh⟩ := A.fresh halloc
    have hextent : Block.extent ⟨a, h.mem.read a n⟩ = ⟨a, n⟩ := by simp [Block.extent]
    refine ⟨?_, ?_, ?_, ?_⟩
    · rw [List.map_cons, hextent, A.live_alloc halloc]
      exact hh.live.cons _
    · intro c hc
      rcases List.mem_cons.mp hc with rfl | hc
      · simp
      · exact hh.contents c hc
    · refine List.pairwise_cons.mpr ⟨fun d hd => ?_, hh.apart⟩
      rw [hextent]
      exact hfresh _ (hh.mem_live hd)
    · intro c hc
      rcases List.mem_cons.mp hc with rfl | hc
      · rw [hextent]; exact hbounds
      · exact hh.inBounds c hc

theorem dealloc (hh : h.Holds (c :: blocks)) :
    ∃ h', OnHeap.dealloc c.extent h = (.ok (), h') ∧ h'.Holds blocks := by
  have hlive := hh.mem_live List.mem_cons_self
  refine ⟨{ h with book := A.dealloc h.book c.extent }, by rw [OnHeap.dealloc, if_pos hlive], ?_⟩
  have herase := hh.live.erase c.extent
  rw [List.map_cons, List.erase_cons_head] at herase
  exact {
    live := by rw [A.live_dealloc hlive]; exact herase
    contents := fun d hd => hh.contents d (List.mem_cons_of_mem _ hd)
    apart := (List.pairwise_cons.mp hh.apart).2
    inBounds := fun d hd => hh.inBounds d (List.mem_cons_of_mem _ hd) }

/-- Part of a block is read. -/
theorem load (hh : h.Holds blocks) (hc : c ∈ blocks) (front middle back : Bytes)
    (hbytes : c.bytes = front ++ middle ++ back) :
    OnHeap.load (c.addr + front.length) middle.length h = (.ok middle, h) := by
  have hin : c.extent.Covers (c.addr + front.length) middle.length := by
    simp only [Extent.Covers, Block.extent, hbytes, List.length_append]
    omega
  have hread := hh.contents c hc
  simp only [hbytes, List.length_append, Memory.read_add] at hread
  -- The parts of what was read have the lengths of the parts of the contents.
  have hparts := List.append_inj hread (by simp)
  have hfront := List.append_inj hparts.1 (by simp)
  rw [OnHeap.load, if_pos (hh.covered hc hin), hfront.2]

/-- Part of a block is written over; the other blocks, and the rest of this one, stay. -/
theorem store (hh : h.Holds (c :: blocks)) (front old back : Bytes) {bs : Bytes}
    (hbytes : c.bytes = front ++ old ++ back) (hlength : bs.length = old.length) :
    ∃ h', OnHeap.store (c.addr + front.length) bs h = (.ok (), h') ∧
      h'.Holds (⟨c.addr, front ++ bs ++ back⟩ :: blocks) := by
  have hin : c.extent.Covers (c.addr + front.length) bs.length := by
    simp only [Extent.Covers, Block.extent, hbytes, List.length_append, hlength]
    omega
  refine ⟨{ h with mem := h.mem.write (c.addr + front.length) bs },
    by rw [OnHeap.store, if_pos (hh.covered List.mem_cons_self hin)], ?_⟩
  have hextent : Block.extent ⟨c.addr, front ++ bs ++ back⟩ = c.extent := by
    simp [Block.extent, hbytes, hlength]
  have hothers := List.pairwise_cons.mp hh.apart
  refine ⟨?_, ?_, ?_, ?_⟩
  · rw [List.map_cons, hextent]
    exact hh.live
  · intro d hd
    rcases List.mem_cons.mp hd with rfl | hd
    · have hread := hh.contents c List.mem_cons_self
      simp only [hbytes, List.length_append, Memory.read_add, ← Nat.add_assoc] at hread
      have hparts := List.append_inj hread (by simp)
      have hfront := List.append_inj hparts.1 (by simp)
      simp only [List.length_append, Memory.read_add, ← Nat.add_assoc]
      rw [Memory.read_write_apart _ (.inl (le_refl _)), hfront.1, Memory.read_write_self,
        Memory.read_write_apart _ (.inr (by omega)), hlength, hparts.2]
    · have hapart : c.extent.Apart d.extent := hothers.1 d hd
      rw [Memory.read_write_apart _ ?_]
      · exact hh.contents d (List.mem_cons_of_mem _ hd)
      · simp only [Extent.Apart, Block.extent] at hapart
        simp only [Extent.Covers, Block.extent] at hin
        omega
  · exact List.pairwise_cons.mpr ⟨fun d hd => by rw [hextent]; exact hothers.1 d hd, hothers.2⟩
  · intro d hd
    rcases List.mem_cons.mp hd with rfl | hd
    · rw [hextent]; exact hh.inBounds c List.mem_cons_self
    · exact hh.inBounds d (List.mem_cons_of_mem _ hd)

end Heap.Holds

end ConfidenceResolver

/-
The 64 KiB address space, as 256 pages of 256 bytes.

There is no banking: an image only stores bytes, and whoever maps a chip into
the address space routes the accesses. A store changes one byte and leaves
every other one alone (`read_write`), and a block is loaded whole or not at
all (`load`).
-/
import Chiptune.Byte
import Chiptune.Machine.RunError

namespace Chiptune.Machine

/-- Bytes in the address space. -/
def addressSpace : Nat := 0x10000

/-- The contents of the address space, page by page. -/
structure Memory where
  pages : Vector (Vector UInt8 256) 256
deriving DecidableEq

namespace Memory

/-- All bytes zero. -/
def zeroed : Memory := ⟨Vector.replicate 256 (Vector.replicate 256 0)⟩

instance : Inhabited Memory := ⟨zeroed⟩

theorem page_lt (address : UInt16) : address.toNat / 256 < 256 := by
  have := address.toNat_lt
  omega

theorem column_lt (address : UInt16) : address.toNat % 256 < 256 :=
  Nat.mod_lt _ (by omega)

/-- The byte at an address. -/
def read (m : Memory) (address : UInt16) : UInt8 :=
  have := page_lt address
  have := column_lt address
  m.pages[address.toNat / 256][address.toNat % 256]

/-- The image with one byte replaced. -/
def write (m : Memory) (address : UInt16) (value : UInt8) : Memory :=
  have := page_lt address
  have := column_lt address
  let page := m.pages[address.toNat / 256]
  ⟨m.pages.set (address.toNat / 256) (page.set (address.toNat % 256) value)⟩

/-- The little-endian word at an address; the high byte of the word at `$FFFF` is at `$0000`. -/
def readWord (m : Memory) (address : UInt16) : UInt16 :=
  Word.ofBytes (m.read address) (m.read (address + 1))

/-- The image with a little-endian word stored, wrapping at the top of memory. -/
def writeWord (m : Memory) (address value : UInt16) : Memory :=
  (m.write address (Word.low value)).write (address + 1) (Word.high value)

/-- The image with consecutive bytes replaced, wrapping at the top of memory. -/
def writeAll (m : Memory) (address : UInt16) : Bytes → Memory
  | [] => m
  | b :: bs => writeAll (m.write address b) (address + 1) bs

/-- The image with a block copied in; a block that runs past `$FFFF` is refused. -/
def load (m : Memory) (address : UInt16) (block : Bytes) : Except RunError Memory :=
  if addressSpace < address.toNat + block.length then
    .error (.blockOverflow address block.length)
  else
    .ok (m.writeAll address block)

/-- An image that holds one block and zeros. -/
def ofBlock (address : UInt16) (block : Bytes) : Except RunError Memory :=
  zeroed.load address block

/-- The bytes from `start` up to `stop`, both clamped to the address space. -/
def slice (m : Memory) (start stop : Nat) : Bytes :=
  let stop := min stop addressSpace
  (List.range' start (stop - start)).map fun i => m.read (UInt16.ofNat i)

/-- How many bytes of the image are not zero. -/
def occupied (m : Memory) : Nat :=
  m.pages.toList.foldl (fun n page => n + page.toList.countP (· != 0)) 0

/-! ## What a store changes -/

theorem read_write (m : Memory) (a b : UInt16) (v : UInt8) :
    (m.write a v).read b = if a = b then v else m.read b := by
  simp only [read, write, Vector.getElem_set]
  by_cases h : a = b
  · subst h
    simp
  · have hne : a.toNat ≠ b.toNat := fun e => h (UInt16.toNat_inj.mp e)
    by_cases hp : a.toNat / 256 = b.toNat / 256
    · have hc : a.toNat % 256 ≠ b.toNat % 256 := by omega
      simp [hp, h, hc]
    · simp [hp, h]

@[simp] theorem read_write_self (m : Memory) (a : UInt16) (v : UInt8) :
    (m.write a v).read a = v := by
  simp [read_write]

theorem read_write_of_ne {m : Memory} {a b : UInt16} {v : UInt8} (h : a ≠ b) :
    (m.write a v).read b = m.read b := by
  simp [read_write, h]

@[simp] theorem read_zeroed (a : UInt16) : zeroed.read a = 0 := by
  simp [read, zeroed]

/-- A block changes nothing before it. -/
theorem read_writeAll_of_lt : ∀ (block : Bytes) {m : Memory} {a b : UInt16}, a.toNat + block.length ≤ addressSpace →
    b.toNat < a.toNat → (m.writeAll a block).read b = m.read b
  | [], _, _, _, _, _ => rfl
  | v :: block, m, a, b, hroom, hlt => by
    have hne : a ≠ b := fun he => by
      rw [he] at hlt
      exact Nat.lt_irrefl _ hlt
    rw [List.length_cons] at hroom
    cases block with
    | nil => exact read_write_of_ne hne
    | cons w block =>
      have hnext : (a + 1).toNat = a.toNat + 1 := by
        rw [UInt16.toNat_add]
        show (a.toNat + 1) % 65536 = _
        have : addressSpace = 65536 := rfl
        rw [List.length_cons] at hroom
        omega
      have hrest := read_writeAll_of_lt (w :: block) (m := m.write a v) (a := a + 1) (b := b)
        (by rw [hnext]; omega) (by omega)
      exact hrest.trans (read_write_of_ne hne)

/-- A block that is loaded can be read. -/
theorem read_writeAll : ∀ {block : Bytes} {m : Memory} {a : UInt16}, a.toNat + block.length ≤ addressSpace →
    ∀ {i : Nat} {v : UInt8}, block[i]? = some v → (m.writeAll a block).read (a + UInt16.ofNat i) = v
  | [], _, _, _, _, _, h => by simp at h
  | w :: block, m, a, hroom, i, v, h => by
    rw [List.length_cons] at hroom
    have hspace : addressSpace = 65536 := rfl
    have hnext (hblock : 0 < block.length) : (a + 1).toNat = a.toNat + 1 := by
      rw [UInt16.toNat_add]
      show (a.toNat + 1) % 65536 = _
      omega
    cases i with
    | zero =>
      cases h
      show (writeAll (m.write a w) (a + 1) block).read (a + 0) = w
      rw [UInt16.add_zero]
      rcases Nat.eq_zero_or_pos block.length with hnil | hblock
      · rw [List.length_eq_zero_iff.mp hnil]
        exact read_write_self m a w
      · rw [read_writeAll_of_lt block (by rw [hnext hblock]; omega) (by rw [hnext hblock]; omega), read_write_self]
    | succ i =>
      have hi : block[i]? = some v := by simpa using h
      have hblock := (List.getElem?_eq_some_iff.mp hi).1
      have hrest := read_writeAll (m := m.write a w) (a := a + 1) (by rw [hnext (by omega)]; omega) hi
      rw [show a + UInt16.ofNat (i + 1) = a + 1 + UInt16.ofNat i by
        rw [UInt16.ofNat_add, UInt16.add_assoc, UInt16.add_comm (UInt16.ofNat i)]
        rfl]
      exact hrest

end Memory

end Chiptune.Machine

/-
Players and the chip's window.

What the processor reads and stores in the window is not memory but the chip's
(`isMemory_iff`). The limit of a player's music depends on its base alone: it is
the window for a player below it, and the top of memory for any other. So a
player whose base is outside the window has nothing but memory up to its limit,
and what is encoded can be read there (`outside_window`). One whose base is in
the window is laid out all the same (`template_in_window`).
-/
import Chiptune.Proofs.Player.Minimal.Encoded
import Chiptune.Proofs.Player.Sections

namespace Chiptune.Playback

open Machine Sound

/-- The processor reads memory at the address, and what it stores there. -/
def IsMemory (a : UInt16) : Prop :=
  ∀ (bus : Bus) (v : UInt8), bus.read a = bus.memory.read a ∧ (bus.write ⟨a, v⟩).read a = v

/-- **Every address has memory but those of the chip.** -/
theorem isMemory_iff (a : UInt16) : IsMemory a ↔ inWindow a = false := by
  constructor
  · intro h
    by_contra hwindow
    -- memory that differs from what the chip answers
    let answer := Bank.cleared.read (Word.low a)
    let bus : Bus := { memory := Memory.zeroed.write a (answer + 1) }
    have hread := (h bus 0).1
    have hchip : bus.read a = answer := if_pos (by simpa using hwindow)
    rw [hchip, Memory.read_write_self] at hread
    have hne : answer + 1 ≠ answer := by simp
    exact hne hread.symm
  · intro hwindow bus v
    simp [Bus.read, Bus.write, hwindow]

end Chiptune.Playback

namespace Chiptune.Player

open File Song Machine Sound Playback

variable {t : Template} {base : UInt16} {l : Layout}

/-! ## Layouts -/

namespace Layout

/-- The address is in the player or in the room for its music. -/
def Covers (l : Layout) (a : UInt16) : Prop := l.base ≤ a ∧ a.toNat < l.limit

theorem lt_limitOf (base : UInt16) : base.toNat < limitOf base := by
  have hspace : base.toNat < addressSpace := base.toNat_lt
  unfold limitOf
  split <;> omega

/-- From a base outside the window up to its limit there is nothing of the window. -/
theorem not_inWindow_of_lt_limitOf {a : UInt16} (hbase : inWindow base = false) (hlow : base ≤ a)
    (hhigh : a.toNat < limitOf base) : inWindow a = false := by
  have hlow : base.toNat ≤ a.toNat := UInt16.le_iff_toNat_le.mp hlow
  simp only [inWindow, Bool.and_eq_false_iff, decide_eq_false_iff_not] at hbase ⊢
  unfold limitOf at hhigh
  split at hhigh <;> omega

/-- **Memory that is taken up to the limit** has nothing of the window exactly if the base is outside of it. -/
theorem covers_memory_iff (h : Layout.of t base = .ok l) :
    (∀ a, l.Covers a → IsMemory a) ↔ inWindow base = false := by
  obtain ⟨-, rfl⟩ := of_eq_ok.mp h
  constructor
  · intro hall
    exact (isMemory_iff base).mp (hall base ⟨UInt16.le_refl base, lt_limitOf base⟩)
  · intro hbase a ha
    exact (isMemory_iff a).mpr (not_inWindow_of_lt_limitOf hbase ha.1 ha.2)

end Layout

/-! ## What is encoded -/

/-- A byte of a block that fits below a limit has an address below it. -/
theorem toNat_add_ofNat {block : Bytes} {limit i : Nat} {v : UInt8} (hroom : base.toNat + block.length ≤ limit)
    (hlimit : limit ≤ addressSpace) (hi : block[i]? = some v) :
    (base + UInt16.ofNat i).toNat = base.toNat + i ∧ base.toNat + i < limit := by
  have hlt : i < block.length := (List.getElem?_eq_some_iff.mp hi).1
  have hspace : addressSpace = 65536 := rfl
  rw [UInt16.toNat_add, UInt16.toNat_ofNat']
  omega

/-- **Players outside the chip's window.** A layout takes memory from its base up to its limit, and all of that is
memory to the processor exactly if the base is outside the window. Every byte that is encoded there is in it, and is
what the processor reads once the image is loaded. -/
theorem outside_window (h : Layout.of t base = .ok l) :
    ((∀ a, l.Covers a → inWindow a = false ∧ IsMemory a) ↔ inWindow base = false) ∧
    (inWindow base = false → ∀ (s : Song) (options : EncodeOptions) (j j' : Journal) (e : Encoded),
      encode s t options j = .ok e j' → e.base = base → e.container.loadAddress = base ∧
        ∀ before : Memory, ∃ memory, before.load base e.container.image = .ok memory ∧
          ∀ i v, e.container.image[i]? = some v → l.Covers (base + UInt16.ofNat i) ∧
            ∀ bus : Bus, bus.memory = memory → bus.read (base + UInt16.ofNat i) = v) := by
  have hcovers := Layout.covers_memory_iff h
  constructor
  · rw [← hcovers]
    constructor
    · intro hall a ha
      exact (hall a ha).2
    · intro hall a ha
      exact ⟨(isMemory_iff a).mp (hall a ha), hall a ha⟩
  · intro hbase s options j j' e hencode hat
    obtain ⟨-, p, hcontainer, he⟩ := packed_of_encode hencode
    obtain rfl : p.base = base := he.symm.trans hat
    obtain ⟨-, rfl⟩ := Layout.of_eq_ok.mp h
    have hroom := p.image_le_limit
    have hspace := Layout.limitOf_le p.base
    rw [hcontainer]
    refine ⟨rfl, ?_⟩
    intro before
    refine ⟨_, if_neg (by omega), ?_⟩
    intro i v hv
    obtain ⟨haddress, hlt⟩ := toNat_add_ofNat hroom hspace hv
    have hin : (Layout.placed t p.base).Covers (p.base + UInt16.ofNat i) := by
      refine ⟨UInt16.le_iff_toNat_le.mpr ?_, ?_⟩
      · show p.base.toNat ≤ _
        omega
      · show _ < Layout.limitOf p.base
        omega
    refine ⟨hin, ?_⟩
    intro bus hbus
    rw [(hcovers.mpr hbase _ hin bus 0).1, hbus]
    exact Memory.read_writeAll (by omega) hv

namespace Minimal

/-- The song that leaves the table stands below the window, as all of its player's memory does. -/
theorem outside_window_overreach : ∃ l e j, Layout.of template 0x1000 = .ok l ∧ inWindow 0x1000 = false ∧
    (∀ a, l.Covers a → inWindow a = false ∧ IsMemory a) ∧
    encode overreach template { base := some 0x1000 } {} = .ok e j ∧ e.base = 0x1000 ∧
    ∃ memory, Memory.zeroed.load 0x1000 e.container.image = .ok memory ∧
      ∀ i v, e.container.image[i]? = some v → l.Covers (0x1000 + UInt16.ofNat i) ∧
        ∀ bus : Bus, bus.memory = memory → bus.read (0x1000 + UInt16.ofNat i) = v := by
  have hlayout := @layout_template 0x1000 (by decide)
  obtain ⟨hwindow, hencoded⟩ := outside_window hlayout
  obtain ⟨e, j, hencode, hbase, -⟩ := played_of_seen seen_overreach.1
  obtain ⟨-, hload⟩ := hencoded (by decide) _ _ _ _ _ hencode hbase
  exact ⟨_, e, j, hlayout, by decide, hwindow.mpr (by decide), hencode, hbase, hload .zeroed⟩

/-- A player is laid out in the window as well, where its first byte is not memory but the chip's first register. -/
theorem template_in_window : ∃ l, Layout.of template 0xD400 = .ok l ∧ l.Covers 0xD400 ∧ inWindow 0xD400 = true ∧
    ¬ IsMemory 0xD400 := by
  have hlayout := @layout_template 0xD400 (by decide)
  have hwindow : inWindow 0xD400 = true := by decide
  refine ⟨_, hlayout, ⟨UInt16.le_refl _, Layout.lt_limitOf _⟩, hwindow, ?_⟩
  rw [isMemory_iff, hwindow]
  decide

end Minimal

end Chiptune.Player

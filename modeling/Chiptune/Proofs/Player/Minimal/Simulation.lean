/-
The processor carries out what the code of the minimal player means.

A core shows a state if memory holds its variables and pointers, the stack its
pushed bytes over those of the callers, and everything else what was loaded
(`Shows`). Each instruction keeps the two together (`act_sound`), and so does
each block (`run_sound`). A routine that returns therefore comes to what
`exec` says, if that is never stuck (`exec_sound`).
-/
import Mathlib.Data.List.TakeWhile
import Chiptune.Proofs.Playback.Execution
import Chiptune.Proofs.Player.Fetch
import Chiptune.Proofs.Player.Layout
import Chiptune.Proofs.Player.Minimal
import Chiptune.Proofs.Player.Minimal.Meaning

namespace Chiptune.Player.Minimal

open Machine Sound Playback

/-! ## Instructions -/

/-- The operand with its address forgotten. -/
def away : Operand → Operand
  | .none => .none
  | .accumulator => .accumulator
  | .address _ => .address 0

/-- An instruction computes from its operand's value and the plain registers alone, and stores
nowhere but to its operand. -/
theorem execute_plain {m : Mnemonic} (hm : m ∈ computing) (read : UInt16 → UInt8) (o : Operand) (r : Registers) :
    plain (m.execute read o r).regs = plain (m.execute (fun _ => o.load read r) (away o) (plain r)).regs ∧
      (m.execute read o r).regs.pc = r.pc ∧ (m.execute read o r).regs.sp = r.sp ∧
      (m.execute read o r).stores.map (·.value) =
        (m.execute (fun _ => o.load read r) (away o) (plain r)).stores.map (·.value) ∧
      ∀ s ∈ (m.execute read o r).stores, o = .address s.address := by
  simp only [computing, List.mem_cons, List.not_mem_nil, or_false] at hm
  rcases hm with rfl | rfl | rfl | rfl | rfl | rfl | rfl | rfl | rfl | rfl | rfl | rfl | rfl | rfl | rfl | rfl | rfl |
    rfl | rfl | rfl
  all_goals cases o
  all_goals
    refine ⟨rfl, rfl, rfl, rfl, ?_⟩
    simp [Mnemonic.execute, Operand.store, Operand.modify]

/-! ## Sites -/

namespace Site

variable {here : Site}

/-- The address of a symbol. -/
def resolve (here : Site) (s : Symbol) : Option UInt16 := (offsetOf? s).map here.address

/-- The player's code is in memory, clear of the first two pages and of the chip. -/
structure Stands (here : Site) : Prop where
  low : 0x200 ≤ here.base.toNat
  clear : here.base.toNat < windowStart ∨ windowEnd ≤ here.base.toNat
  high : here.base.toNat + musicAt ≤ Layout.limitOf here.base
  loaded : Assembly.Loaded here.base labels here.resolve listing here.image.read

theorem toNat_address (hhere : here.Stands) {n : Nat} (hn : n < musicAt) :
    (here.address n).toNat = here.base.toNat + n := by
  have hhigh := hhere.high
  have htop := Layout.limitOf_le here.base
  have hspace : addressSpace = 65536 := rfl
  rw [address, UInt16.toNat_add, UInt16.toNat_ofNat']
  omega

/-- Memory from the player to the limit of its music is not the chip's. -/
theorem inWindow_of_clear (hhere : here.Stands) {a : UInt16} (hlow : here.base.toNat ≤ a.toNat)
    (hhigh : a.toNat < Layout.limitOf here.base) : inWindow a = false := by
  simp only [inWindow, Bool.and_eq_false_iff, decide_eq_false_iff_not]
  rcases hhere.clear with hbelow | habove
  · rw [Layout.limitOf, if_pos hbelow] at hhigh
    exact .inl (Nat.not_le.mpr hhigh)
  · exact .inr (Nat.not_lt.mpr (Nat.le_trans habove hlow))

/-- Memory that the player leaves alone: all but its variables, its pointers and the stack. -/
def Kept (here : Site) (address : UInt16) : Prop :=
  ¬ (here.base.toNat + variablesAt ≤ address.toNat ∧ address.toNat < here.base.toNat + slotsAt) ∧
    ¬ (0xFB ≤ address.toNat ∧ address.toNat ≤ 0xFE) ∧ ¬ (0x100 ≤ address.toNat ∧ address.toNat < 0x200)

theorem kept_address (hhere : here.Stands) {n : Nat} (hn : n < variablesAt ∨ slotsAt ≤ n) (hbound : n < musicAt) :
    here.Kept (here.address n) := by
  have hlow := hhere.low
  have hhigh := toNat_address hhere hbound
  have hvariables : variablesAt = 771 := rfl
  have hslots : slotsAt = 841 := rfl
  simp only [Kept]
  omega

theorem kept_of_isData (hhere : here.Stands) {a : UInt16} (h : here.isData a = true) :
    here.Kept a ∧ inWindow a = false := by
  have hlow := hhere.low
  have hslots : slotsAt = 841 := rfl
  simp only [isData, Bool.and_eq_true, decide_eq_true_eq] at h
  refine ⟨?_, inWindow_of_clear hhere (by omega) h.2⟩
  simp only [Kept]
  omega

theorem inWindow_address (hhere : here.Stands) {n : Nat} (hn : n < musicAt) : inWindow (here.address n) = false := by
  have hhigh := hhere.high
  have haddress := toNat_address hhere hn
  exact inWindow_of_clear hhere (by omega) (by omega)

/-- Variables stand behind the code, and so behind the first two pages. -/
theorem toNat_cell (hhere : here.Stands) {n : Nat} (hn : n < 70) :
    (here.address (variablesAt + n)).toNat = here.base.toNat + variablesAt + n ∧
      0x200 ≤ (here.address (variablesAt + n)).toNat := by
  have hlow := hhere.low
  have hmusic : musicAt = 2736 := rfl
  have hvariables : variablesAt = 771 := rfl
  have haddress := toNat_address hhere (show variablesAt + n < musicAt by omega)
  omega

theorem inWindow_cell (hhere : here.Stands) {n : Nat} (hn : n < 70) :
    inWindow (here.address (variablesAt + n)) = false := by
  have hmusic : musicAt = 2736 := rfl
  have hvariables : variablesAt = 771 := rfl
  exact inWindow_address hhere (by omega)

end Site

theorem isPointer_iff {z : UInt8} : isPointer z = true ↔ 0xFB ≤ z.toNat ∧ z.toNat ≤ 0xFE := by
  simp [isPointer, UInt8.le_iff_toNat_le]

theorem inWindow_zeroPage (z : UInt8) : inWindow z.toUInt16 = false := by
  have hz := z.toNat_lt
  have hwindow : windowStart = 0xD400 := rfl
  simp only [inWindow, Bool.and_eq_false_iff, decide_eq_false_iff_not, UInt8.toNat_toUInt16]
  omega

/-! ## Cores and states -/

variable {here : Site}

/-- The core's memory is that of a state with bytes on the stack. -/
structure Shows (here : Site) (stack : Bytes) (s : State) (c : Core) : Prop where
  regs : plain c.regs = s.regs
  pointer : c.regs.sp.toNat + stack.length = 255
  stack : ∀ (i : Nat) (b : UInt8), stack[i]? = some b → c.memory.read (UInt16.ofNat (0x200 - stack.length + i)) = b
  cells : ∀ n < 70, c.memory.read (here.address (variablesAt + n)) = s.cells n
  page : ∀ z, isPointer z = true → c.memory.read z.toUInt16 = s.page z
  kept : ∀ a, here.Kept a → c.memory.read a = here.image.read a
  sid : c.sid = s.sid

/-- An operand that stands for a place. -/
inductive Matches (here : Site) (c : Core) : Place → Operand → Prop
  | nothing : Matches here c .nothing .none
  | accumulator : Matches here c .accumulator .accumulator
  | value {v : UInt8} {t : UInt16} (h : c.read t = v) : Matches here c (.value v) (.address t)
  | cell {n : Nat} (h : n < 70) : Matches here c (.cell n) (.address (here.address (variablesAt + n)))
  | page {z : UInt8} (h : isPointer z = true) : Matches here c (.page z) (.address z.toUInt16)
  | chip {t : UInt16} (h : inWindow t = true) : Matches here c (.chip t) (.address t)

namespace Matches

variable {c : Core} {p : Place} {o : Operand} {s : State} {stack : Bytes}

theorem away_eq (h : Matches here c p o) : away o = p.operand := by cases h <;> rfl

theorem load_eq (hhere : here.Stands) (hs : Shows here stack s c) (h : Matches here c p o) {r : Registers}
    (hr : r.a = s.regs.a) : o.load c.read r = s.load p := by
  cases h with
  | nothing => rfl
  | accumulator => exact hr
  | value h => exact h
  | @cell n h =>
    show c.read _ = s.cells n
    rw [Core.read_of_not_inWindow (here.inWindow_cell hhere h), hs.cells n h]
  | @page z h =>
    show c.read _ = s.page z
    rw [Core.read_of_not_inWindow (inWindow_zeroPage z), hs.page z h]
  | @chip t h =>
    show c.read _ = s.sid.read (Word.low t)
    rw [Core.read, h, if_pos rfl, hs.sid]

theorem withRegs (h : Matches here c p o) (r : Registers) : Matches here { c with regs := r } p o := by
  cases h with
  | nothing => exact .nothing
  | accumulator => exact .accumulator
  | value h => exact .value h
  | cell h => exact .cell h
  | page h => exact .page h
  | chip h => exact .chip h

theorem anywhere (h : Matches here c p o) {v : UInt8} (hstore : s.store p v ≠ none) (d : Core) :
    Matches here d p o := by
  cases h with
  | nothing | accumulator | value => exact absurd rfl hstore
  | cell h => exact .cell h
  | page h => exact .page h
  | chip h => exact .chip h

end Matches

namespace Shows

variable {c : Core} {p : Place} {s s' : State} {stack : Bytes} {t : UInt16} {v : UInt8}

theorem length_stack (hs : Shows here stack s c) : stack.length ≤ 255 := by
  have := hs.pointer
  omega

/-- A byte that is written to a variable or a pointer. The stack is elsewhere, and so is all that the player
leaves alone. -/
theorem write (hs : Shows here stack s c) (hwindow : inWindow t = false) (hkept : ¬ here.Kept t)
    (hstack : t.toNat < 0x100 ∨ 0x200 ≤ t.toNat) {cells : Nat → UInt8} {page : UInt8 → UInt8}
    (hcells : ∀ n < 70, cells n = if t = here.address (variablesAt + n) then v else s.cells n)
    (hpage : ∀ z, isPointer z = true → page z = if t = z.toUInt16 then v else s.page z) :
    Shows here stack { s with cells, page } (c.write ⟨t, v⟩) := by
  rw [Core.write_of_not_inWindow hwindow]
  refine ⟨hs.regs, hs.pointer, ?_, ?_, ?_, ?_, hs.sid⟩
  · intro i b hi
    have hbound := (List.getElem?_eq_some_iff.mp hi).1
    have hlength := hs.length_stack
    have hne : t ≠ UInt16.ofNat (0x200 - stack.length + i) := by
      rintro rfl
      rw [UInt16.toNat_ofNat'] at hstack
      omega
    rw [Memory.read_write_of_ne hne, hs.stack i b hi]
  · intro n hn
    rw [Memory.read_write, hs.cells n hn]
    exact (hcells n hn).symm
  · intro z hz
    rw [Memory.read_write, hs.page z hz]
    exact (hpage z hz).symm
  · intro a ha
    have hne : t ≠ a := by
      rintro rfl
      exact hkept ha
    rw [Memory.read_write_of_ne hne, hs.kept a ha]

theorem storeCell (hhere : here.Stands) (hs : Shows here stack s c) {n : Nat} (hn : n < 70) (v : UInt8) :
    Shows here stack { s with cells := Function.update s.cells n v }
      (c.write ⟨here.address (variablesAt + n), v⟩) := by
  obtain ⟨haddress, hlow⟩ := here.toNat_cell hhere hn
  have hslots : slotsAt = variablesAt + 70 := rfl
  refine hs.write (here.inWindow_cell hhere hn) (fun hkept => hkept.1 (by omega)) (.inr hlow) ?_ ?_
  · intro k hk
    by_cases hkn : k = n
    · subst hkn
      rw [if_pos rfl, Function.update_self]
    · have hne : here.address (variablesAt + n) ≠ here.address (variablesAt + k) := by
        intro he
        have hother := (here.toNat_cell hhere hk).1
        rw [← he] at hother
        omega
      rw [if_neg hne, Function.update_of_ne hkn]
  · intro z _
    have hne : here.address (variablesAt + n) ≠ z.toUInt16 := by
      intro he
      have hz := z.toNat_lt
      rw [he, UInt8.toNat_toUInt16] at hlow
      omega
    rw [if_neg hne]

theorem storePage (hhere : here.Stands) (hs : Shows here stack s c) {z : UInt8} (hz : isPointer z = true) (v : UInt8) :
    Shows here stack { s with page := Function.update s.page z v } (c.write ⟨z.toUInt16, v⟩) := by
  have haddress : z.toUInt16.toNat = z.toNat := UInt8.toNat_toUInt16 z
  have hbounds := isPointer_iff.mp hz
  refine hs.write (inWindow_zeroPage z) (fun hkept => hkept.2.1 (by omega)) (.inl (by omega)) ?_ ?_
  · intro n hn
    have hne : z.toUInt16 ≠ here.address (variablesAt + n) := by
      intro he
      have hlow := (here.toNat_cell hhere hn).2
      rw [← he] at hlow
      omega
    rw [if_neg hne]
  · intro y _
    by_cases hyz : y = z
    · subst hyz
      rw [if_pos rfl, Function.update_self]
    · have hne : z.toUInt16 ≠ y.toUInt16 := by
        intro he
        have hnat := congrArg UInt16.toNat he
        rw [UInt8.toNat_toUInt16, UInt8.toNat_toUInt16] at hnat
        exact hyz (UInt8.toNat_inj.mp hnat).symm
      rw [if_neg hne, Function.update_of_ne hyz]

/-- A store to a place changes just that place. -/
theorem store (hhere : here.Stands) (hs : Shows here stack s c) (h : Matches here c p (.address t))
    (hstore : s.store p v = some s') : Shows here stack s' (c.write ⟨t, v⟩) := by
  cases h with
  | value => cases hstore
  | cell hn =>
    cases hstore
    exact hs.storeCell hhere hn v
  | page hz =>
    cases hstore
    exact hs.storePage hhere hz v
  | chip ht =>
    cases hstore
    rw [Core.write, if_pos ht]
    exact ⟨hs.regs, hs.pointer, hs.stack, hs.cells, hs.page, hs.kept, by rw [hs.sid]⟩

theorem storeAll (hhere : here.Stands) {o : Operand} : ∀ {stores : List Store} {s : State} {c : Core},
    Shows here stack s c → Matches here c p o → (∀ w ∈ stores, o = .address w.address) →
      (stores.map (·.value)).foldlM (fun s v => s.store p v) s = some s' → Shows here stack s' (c.writeAll stores)
  | [], s, c, hs, _, _, h => by
    cases h
    exact hs
  | w :: stores, s, c, hs, hp, hstores, h => by
    rw [List.map_cons, List.foldlM_cons] at h
    obtain ⟨s₁, hs₁, hrest⟩ := Option.bind_eq_some_iff.mp h
    have ho := hstores w (by simp)
    have hnext := hs.store hhere (ho ▸ hp) hs₁
    exact hnext.storeAll hhere (hp.anywhere (by rw [hs₁]; simp) _) (fun w hw => hstores w (by simp [hw])) hrest

end Shows

/-! ## Arguments -/

/-- The address that the code has for a target. -/
def Site.target (here : Site) (t : Target) : UInt16 := Assembly.addressOf here.base labels here.resolve t

section Arguments

variable {c : Core} {p : Place} {s : State} {stack : Bytes}

theorem address_toNat (w : UInt16) : here.base + w = here.address w.toNat := by rw [Site.address, UInt16.ofNat_toNat]

theorem datum_matches (hhere : here.Stands) (hs : Shows here stack s c) {n : Nat} (h : here.datum? n = some p) :
    Matches here c p (.address (here.address n)) := by
  rw [Site.datum?, Option.ite_none_right_eq_some] at h
  obtain ⟨⟨hn, hbound⟩, hp⟩ := h
  cases hp
  refine .value ?_
  rw [Core.read_of_not_inWindow (here.inWindow_address hhere hbound), hs.kept _ (here.kept_address hhere hn hbound)]
  rfl

theorem target_matches (hhere : here.Stands) (hs : Shows here stack s c) {t : Target} {index : UInt8}
    (h : here.target? t index = some p) : Matches here c p (.address (here.target t + index.toUInt16)) := by
  have hindex : index.toUInt16.toNat = index.toNat := UInt8.toNat_toUInt16 index
  cases t with
  | fixed address =>
    rw [Site.target?, Option.ite_none_right_eq_some] at h
    obtain ⟨hwindow, hp⟩ := h
    cases hp
    exact .chip hwindow
  | label name =>
    obtain ⟨n, hn, h⟩ := Option.bind_eq_some_iff.mp h
    have htarget : here.target (.label name) = here.address n.toNat := by
      simp only [Site.target, Assembly.addressOf, Assembly.targetAddress?, hn, Option.map_some, Option.getD_some,
        address_toNat]
    rw [htarget, address_add, hindex]
    exact datum_matches hhere hs h
  | symbol symbol n =>
    have htarget {start : Nat} (hstart : offsetOf? symbol = some start) :
        here.target (.symbol symbol n) + index.toUInt16 = here.address (start + n.toNat + index.toNat) := by
      simp only [Site.target, Assembly.addressOf, Assembly.targetAddress?, Site.resolve, hstart, Option.map_some,
        Option.getD_some, address_add, hindex]
    by_cases hwork : symbol = .workArea
    · subst hwork
      simp only [Site.target?, Option.ite_none_right_eq_some] at h
      obtain ⟨hbound, hp⟩ := h
      cases hp
      rw [htarget rfl, Nat.add_assoc]
      exact .cell hbound
    · rw [target?_symbol hwork] at h
      obtain ⟨start, hstart, h⟩ := Option.bind_eq_some_iff.mp h
      rw [htarget hstart]
      exact datum_matches hhere hs h

/-- **What an argument stands for** is what the processor finds. -/
theorem place_matches (hhere : here.Stands) (hs : Shows here stack s c) {r : Registers} {a : Argument}
    (hx : r.x = s.regs.x) (hy : r.y = s.regs.y) (himmediate : ∀ v, a = .immediate v → c.read r.pc = v)
    (h : here.place? s a = some p) : Matches here c p (a.operand here.target c.read r) := by
  cases a with
  | implied | accumulator =>
    cases h
    constructor
  | immediate v =>
    cases h
    exact .value (himmediate v rfl)
  | zeroPage z =>
    rw [Site.place?, Option.ite_none_right_eq_some] at h
    obtain ⟨hz, hp⟩ := h
    cases hp
    exact .page hz
  | absolute t =>
    have hmatches := target_matches hhere hs h
    rwa [show ((0 : UInt8).toUInt16 : UInt16) = 0 from rfl, UInt16.add_zero] at hmatches
  | absoluteX t =>
    show Matches here c p (.address (here.target t + r.x.toUInt16))
    rw [hx]
    exact target_matches hhere hs h
  | absoluteY t =>
    show Matches here c p (.address (here.target t + r.y.toUInt16))
    rw [hy]
    exact target_matches hhere hs h
  | indirectIndexed z =>
    simp only [Site.place?, Site.through?, Option.ite_none_right_eq_some, Bool.and_eq_true] at h
    obtain ⟨⟨hz, hz'⟩, hdata, hp⟩ := h
    cases hp
    have hlow : c.read z.toUInt16 = s.page z := (Matches.page hz).load_eq hhere hs (r := s.regs) rfl
    have hhigh : c.read (z + 1).toUInt16 = s.page (z + 1) := (Matches.page hz').load_eq hhere hs (r := s.regs) rfl
    show Matches here c _ (.address (zeroPagePointer c.read z + r.y.toUInt16))
    rw [zeroPagePointer, hlow, hhigh, hy]
    obtain ⟨hkept, hwindow⟩ := here.kept_of_isData hhere hdata
    exact .value (by rw [Core.read_of_not_inWindow hwindow, hs.kept _ hkept])
  | zeroPageX z | zeroPageY z | indirect t | indexedIndirect z | branch l => cases h

end Arguments

/-! ## The listing -/

theorem nodup_labels : (labels.map (·.1)).Nodup := by decide

theorem listing_faults : Assembly.faults frame.base (Layout.placed frame frame.base).address? listing = [] :=
  listing_assembles.2

section Listing

variable {before after : List Item} {m : Mnemonic} {a : Argument} {l : String} {n : UInt16}

theorem encode_item (hitems : listing = before ++ .instruction m a :: after) :
    ∃ op, Opcode.encode m a.mode = some op := by
  have hfaults := listing_faults
  simp only [Assembly.faults, List.append_eq_nil_iff] at hfaults
  exact Assembly.encode_of_listingFaults hfaults.1.1 (by rw [hitems]; simp)

theorem branchFault?_item (hitems : listing = before ++ .instruction m a :: after) :
    Assembly.branchFault? labels (Assembly.length before) (.instruction m a) = none := by
  have hfaults := listing_faults
  simp only [Assembly.faults, List.append_eq_nil_iff] at hfaults
  have hmem := Assembly.mem_place_append before after (.instruction m a) 0
  rw [← hitems, Nat.zero_add] at hmem
  exact List.filterMap_eq_nil_iff.mp hfaults.1.2 _ hmem

theorem offset_of_target (hitems : listing = before ++ .instruction m a :: after)
    (htarget : a.target? = some (.label l)) : ∃ n, Assembly.offset? labels l = some n := by
  have hfault := Assembly.targetFault?_eq_none listing_faults (.instruction m a) (by rw [hitems]; simp)
  obtain ⟨op, hop⟩ := encode_item hitems
  simp only [Assembly.targetFault?, hop, htarget, Assembly.targetAddress?] at hfault
  cases hn : Assembly.offset? (Assembly.labelsOf (Assembly.place 0 listing)) l with
  | some n => exact ⟨n, hn⟩
  | none => simp [hn] at hfault

/-- A label has the offset of where it stands. -/
theorem offset?_label (hitems : listing = before ++ .label l :: after) :
    Assembly.offset? labels l = some (UInt16.ofNat (Assembly.length before)) := by
  refine (Assembly.offset?_eq_some nodup_labels).mpr (Assembly.mem_labelsOf.mpr ⟨_, ?_, rfl⟩)
  have hmem := Assembly.mem_place_append before after (.label l) 0
  rwa [← hitems, Nat.zero_add] at hmem

/-- The items from a label on are the rest of the listing. -/
theorem listing_itemsFrom (h : Assembly.offset? labels l = some n) :
    ∃ before, listing = before ++ itemsFrom l ∧ n = UInt16.ofNat (Assembly.length before) := by
  obtain ⟨position, hmem, rfl⟩ := Assembly.mem_labelsOf.mp ((Assembly.offset?_eq_some nodup_labels).mp h)
  obtain ⟨before, after, hitems, rfl⟩ := Assembly.exists_append_of_mem_place hmem
  have hsplit : listing.takeWhile (· ≠ .label l) ++ itemsFrom l = listing := List.takeWhile_append_dropWhile
  have hne : itemsFrom l ≠ [] := by
    intro hnil
    have hall := List.dropWhile_eq_nil_iff.mp hnil (.label l) (by rw [hitems]; simp)
    simp at hall
  have hhead : (itemsFrom l).head hne = .label l := by
    have hnot := List.head_dropWhile_not (fun item => decide (item ≠ Item.label l)) hne
    simpa [itemsFrom] using hnot
  refine ⟨_, hsplit.symm, ?_⟩
  have hitems : listing = listing.takeWhile (· ≠ .label l) ++ .label l :: (itemsFrom l).tail := by
    rw [show Item.label l :: (itemsFrom l).tail = itemsFrom l by rw [← hhead, List.cons_head_tail], hsplit]
  have hfirst := offset?_label hitems
  rw [h] at hfirst
  exact Option.some.inj hfirst

end Listing

/-! ## Steps -/

section Steps

variable {before after : List Item} {m : Mnemonic} {a : Argument} {c : Core} {s s' : State} {stack σ : Bytes}

theorem writeAll_withRegs : ∀ (stores : List Store) (c : Core) (r : Registers),
    ({ c with regs := r } : Core).writeAll stores = { c.writeAll stores with regs := r }
  | [], _, _ => rfl
  | w :: stores, c, r => by
    have hwrite : ({ c with regs := r } : Core).write w = { c.write w with regs := r } := by
      unfold Core.write
      split <;> rfl
    show (({ c with regs := r } : Core).write w).writeAll stores = _
    rw [hwrite]
    exact writeAll_withRegs stores (c.write w) r

theorem Shows.withRegs {r r' : Registers} (hs : Shows here stack s c) (saved : Bytes) (hr : plain r = r')
    (hsp : r.sp = c.regs.sp) : Shows here stack { s with regs := r', saved } { c with regs := r } :=
  ⟨hr, by rw [hsp]; exact hs.pointer, hs.stack, hs.cells, hs.page, hs.kept, hs.sid⟩

theorem Shows.loaded (hhere : here.Stands) (hs : Shows here stack s c) :
    Assembly.Loaded here.base labels here.resolve listing c.read := by
  intro i b hb
  have hi := (List.getElem?_eq_some_iff.mp hb).1
  rw [Assembly.length_codeFrom, listing_assembles.1] at hi
  have hmusic : musicAt = 2736 := rfl
  have hvariables : variablesAt = 771 := rfl
  show c.read (here.address i) = b
  rw [Core.read_of_not_inWindow (here.inWindow_address hhere (by omega)),
    hs.kept _ (here.kept_address hhere (.inl (by omega)) (by omega))]
  exact hhere.loaded i b hb

/-- A step at an item of the listing. -/
theorem next_item (hhere : here.Stands) (hs : Shows here stack s c)
    (hitems : listing = before ++ .instruction m a :: after) (hpc : c.regs.pc = here.address (Assembly.length before)) :
    let operand := a.operand here.target c.read { c.regs with pc := c.regs.pc + 1 }
    let next := { c.regs with pc := here.address (Assembly.length before + Assembly.sizeOf (.instruction m a)) }
    c.next? = some { c.writeAll (m.execute c.read operand next).stores with
      regs := (m.execute c.read operand next).regs } := by
  intro operand next
  obtain ⟨op, hop⟩ := encode_item hitems
  obtain ⟨o, ho, hregs, hstores⟩ := Assembly.step_item (hs.loaded hhere) hitems hop (branchFault?_item hitems) hpc
  rw [Core.next?, ho]
  dsimp only
  rw [hregs, hstores]
  rfl

theorem read_immediate (hhere : here.Stands) (hs : Shows here stack s c) {v : UInt8}
    (hitems : listing = before ++ .instruction m (.immediate v) :: after)
    (hpc : c.regs.pc = here.address (Assembly.length before)) : c.read (c.regs.pc + 1) = v := by
  obtain ⟨op, hop⟩ := encode_item hitems
  have hb := (hs.loaded hhere).read_item hitems (k := 1) (b := v) (by simp [Assembly.itemBytes, hop, Assembly.operandBytes])
  rw [hpc, show (1 : UInt16) = UInt16.ofNat 1 from rfl, address_add]
  exact hb

theorem saved_store {p : Place} {v : UInt8} (h : s.store p v = some s') : s'.saved = s.saved := by
  cases p <;> cases h <;> rfl

theorem saved_storeAll {p : Place} : ∀ {values : Bytes} {s : State},
    values.foldlM (fun s v => s.store p v) s = some s' → s'.saved = s.saved
  | [], _, h => by
    cases h
    rfl
  | v :: values, s, h => by
    rw [List.foldlM_cons] at h
    obtain ⟨s₁, hs₁, hrest⟩ := Option.bind_eq_some_iff.mp h
    exact (saved_storeAll hrest).trans (saved_store hs₁)

/-- An instruction that computes. -/
theorem compute_sound (hhere : here.Stands) (hs : Shows here stack s c)
    (hitems : listing = before ++ .instruction m a :: after) (hpc : c.regs.pc = here.address (Assembly.length before))
    (h : here.compute? m a s = some s') : s'.saved = s.saved ∧ ∃ d, c.next? = some d ∧ Shows here stack s' d ∧
      d.regs.pc = here.address (Assembly.length before + Assembly.sizeOf (.instruction m a)) := by
  rw [Site.compute?, Option.ite_none_right_eq_some] at h
  obtain ⟨hm, h⟩ := h
  obtain ⟨p, hp, hfold⟩ := Option.bind_eq_some_iff.mp h
  have hregs (r : Registers) (hr : plain r = plain c.regs) : plain r = s.regs := hr.trans hs.regs
  have hx : (plain c.regs).x = s.regs.x := congrArg Registers.x hs.regs
  have hy : (plain c.regs).y = s.regs.y := congrArg Registers.y hs.regs
  have ha : (plain c.regs).a = s.regs.a := congrArg Registers.a hs.regs
  have hmatches := @place_matches here c p s stack hhere hs { c.regs with pc := c.regs.pc + 1 } a hx hy
    (fun v hv => by
      subst hv
      exact read_immediate hhere hs hitems hpc) hp
  have hnext := next_item hhere hs hitems hpc
  dsimp only at hnext
  generalize a.operand here.target c.read { c.regs with pc := c.regs.pc + 1 } = o at hmatches hnext
  generalize hend : { c.regs with pc := here.address (Assembly.length before + Assembly.sizeOf (.instruction m a)) } = r
    at hnext
  have hplain : plain r = s.regs := by
    rw [← hend]
    exact hs.regs
  obtain ⟨heffect, hpc', hsp, hvalues, haddresses⟩ := execute_plain hm c.read o r
  rw [hmatches.load_eq hhere hs (r := r) (by rw [← hend]; exact ha), hmatches.away_eq, hplain] at heffect hvalues
  have hstart := hs.withRegs (r := (m.execute c.read o r).regs) s.saved heffect (by rw [hsp, ← hend])
  rw [← List.foldlM_map (f := fun w : Store => w.value) (g := fun (s : State) v => s.store p v), ← hvalues] at hfold
  have hstored := hstart.storeAll hhere (hmatches.withRegs _) haddresses hfold
  rw [writeAll_withRegs] at hstored
  have hsaved := saved_storeAll hfold
  refine ⟨hsaved, _, hnext, hstored, ?_⟩
  show (m.execute c.read o r).regs.pc = _
  rw [hpc', ← hend]

/-! ## The stack -/

theorem Shows.push (hhere : here.Stands) (hs : Shows here stack s c) (hlength : stack.length < 255) (v : UInt8) :
    Shows here (v :: stack) s
      { c.write ⟨Registers.stackAddress c.regs.sp, v⟩ with regs := { c.regs with sp := c.regs.sp - 1 } } := by
  have hpointer := hs.pointer
  have haddress := Registers.toNat_stackAddress c.regs.sp
  have hlt := c.regs.sp.toNat_lt
  have hsp : (c.regs.sp - 1).toNat = c.regs.sp.toNat - 1 := by
    have hone : (1 : UInt8).toNat = 1 := rfl
    rw [UInt8.toNat_sub_of_le _ _ (by rw [UInt8.le_iff_toNat_le]; omega)]
    rfl
  have hother {a : UInt16} (ha : a.toNat ≠ 0x100 + c.regs.sp.toNat) :
      (c.memory.write (Registers.stackAddress c.regs.sp) v).read a = c.memory.read a :=
    Memory.read_write_of_ne fun he => ha (he ▸ haddress)
  rw [Core.write_of_not_inWindow (inWindow_stackAddress c.regs.sp)]
  refine ⟨hs.regs, ?_, ?_, ?_, ?_, ?_, hs.sid⟩
  · show (c.regs.sp - 1).toNat + (stack.length + 1) = 255
    omega
  · intro i b hi
    have hbound : i < stack.length + 1 := (List.getElem?_eq_some_iff.mp hi).1
    show (c.memory.write _ _).read (UInt16.ofNat (0x200 - (stack.length + 1) + i)) = b
    cases i with
    | zero =>
      cases hi
      have hslot : Registers.stackAddress c.regs.sp = UInt16.ofNat (0x200 - (stack.length + 1) + 0) := by
        rw [← UInt16.toNat_inj, haddress, UInt16.toNat_ofNat']
        omega
      rw [hslot, Memory.read_write_self]
    | succ i =>
      rw [show 0x200 - (stack.length + 1) + (i + 1) = 0x200 - stack.length + i by omega,
        hother (by rw [UInt16.toNat_ofNat']; omega)]
      exact hs.stack i b hi
  · intro n hn
    have hcell := (here.toNat_cell hhere hn).2
    exact (hother (by omega)).trans (hs.cells n hn)
  · intro z hz
    have hz' := z.toNat_lt
    exact (hother (by rw [UInt8.toNat_toUInt16]; omega)).trans (hs.page z hz)
  · intro a ha
    have hbounds := ha.2.2
    exact (hother (by omega)).trans (hs.kept a ha)

theorem Shows.pull {v : UInt8} (hs : Shows here (v :: stack) s c) :
    c.read (Registers.stackAddress (c.regs.sp + 1)) = v ∧
      Shows here stack s { c with regs := { c.regs with sp := c.regs.sp + 1 } } := by
  have hpointer := hs.pointer
  rw [List.length_cons] at hpointer
  have hone : (1 : UInt8).toNat = 1 := rfl
  have hsp : (c.regs.sp + 1).toNat = c.regs.sp.toNat + 1 := by
    rw [UInt8.toNat_add]
    omega
  refine ⟨?_, hs.regs, ?_, fun i b hi => ?_, hs.cells, hs.page, hs.kept, hs.sid⟩
  · rw [Core.read_of_not_inWindow (inWindow_stackAddress _), ← hs.stack 0 v rfl]
    congr 1
    rw [← UInt16.toNat_inj, Registers.toNat_stackAddress, UInt16.toNat_ofNat', List.length_cons]
    omega
  · show (c.regs.sp + 1).toNat + stack.length = 255
    omega
  · have hbound : i < stack.length := (List.getElem?_eq_some_iff.mp hi).1
    rw [← hs.stack (i + 1) b hi, List.length_cons]
    congr 2
    omega

/-! ## Items -/

/-- A routine's return address as it is on the stack. -/
def returnBytes (w : UInt16) : Bytes := [Word.low (w - 1), Word.high (w - 1)]

/-- What an instruction's act says of the core after it; `σ` is what the callers have on the stack. -/
def Leads (here : Site) (σ : Bytes) (s : State) (c : Core) (after : UInt16) : Act → Prop
  | .next s' => ∃ d, c.next? = some d ∧ Shows here (s'.saved ++ σ) s' d ∧ d.regs.pc = after
  | .jump l => ∃ d n, c.next? = some d ∧ Shows here (s.saved ++ σ) s d ∧ Assembly.offset? labels l = some n ∧
      d.regs.pc = here.base + n
  | .call l => s.saved = [] ∧ ∃ d n, c.next? = some d ∧ Shows here (returnBytes after ++ σ) s d ∧
      Assembly.offset? labels l = some n ∧ d.regs.pc = here.base + n
  | .ret => s.saved = [] ∧ ∀ w σ', σ = returnBytes w ++ σ' → ∃ d, c.next? = some d ∧ Shows here σ' s d ∧ d.regs.pc = w
  | .stuck => True

section

variable (hhere : here.Stands) (hs : Shows here (s.saved ++ σ) s c)
  (hpc : c.regs.pc = here.address (Assembly.length before))

include hhere hs hpc

/-- The return address is what is left on the stack. -/
theorem ret_sound (hitems : listing = before ++ .instruction .rts .implied :: after) (hsaved : s.saved = []) :
    Leads here σ s c (here.address (Assembly.length before + Assembly.sizeOf (.instruction .rts .implied))) .ret := by
  refine ⟨hsaved, fun w σ' hσ' => ?_⟩
  rw [hsaved, hσ'] at hs
  obtain ⟨hlow, hs₁⟩ := hs.pull
  obtain ⟨hhigh, hs₂⟩ := hs₁.pull
  refine ⟨_, next_item hhere hs hitems hpc, hs₂.withRegs s.saved hs₂.regs rfl, ?_⟩
  show Word.ofBytes (c.read (Registers.stackAddress (c.regs.sp + 1)))
    (c.read (Registers.stackAddress (c.regs.sp + 1 + 1))) + 1 = w
  rw [hlow, show c.read (Registers.stackAddress (c.regs.sp + 1 + 1)) = Word.high (w - 1) from hhigh,
    Word.ofBytes_low_high, UInt16.sub_add_cancel]

theorem pha_sound (hσ : σ.length ≤ 200) (hitems : listing = before ++ .instruction .pha .implied :: after)
    (hsaved : s.saved = []) :
    Leads here σ s c (here.address (Assembly.length before + Assembly.sizeOf (.instruction .pha .implied)))
      (.next { s with saved := [s.regs.a] }) := by
  rw [hsaved] at hs
  have ha : (plain c.regs).a = s.regs.a := congrArg Registers.a hs.regs
  have hpush := hs.push hhere (show σ.length < 255 by omega) c.regs.a
  refine ⟨_, next_item hhere hs hitems hpc, ?_, rfl⟩
  show Shows here (s.regs.a :: σ) _ _
  rw [← ha]
  exact hpush.withRegs [c.regs.a] hs.regs rfl

theorem pla_sound (hitems : listing = before ++ .instruction .pla .implied :: after) {b : UInt8} (hsaved : s.saved = [b]) :
    Leads here σ s c (here.address (Assembly.length before + Assembly.sizeOf (.instruction .pla .implied)))
      (.next { s with regs := s.regs.setA b, saved := [] }) := by
  rw [hsaved] at hs
  obtain ⟨htop, hs₁⟩ := hs.pull
  refine ⟨_, next_item hhere hs hitems hpc, hs₁.withRegs [] ?_ rfl, rfl⟩
  show plain (Registers.setA _ (c.read (Registers.stackAddress (c.regs.sp + 1)))) = _
  rw [htop, ← hs.regs]
  rfl

end

theorem actHere_sound (hhere : here.Stands) (hs : Shows here (s.saved ++ σ) s c) (hσ : σ.length ≤ 200)
    (hitems : listing = before ++ .instruction m a :: after) (hpc : c.regs.pc = here.address (Assembly.length before)) :
    Leads here σ s c (here.address (Assembly.length before + Assembly.sizeOf (.instruction m a))) (here.actHere m a s) := by
  unfold Site.actHere
  split
  · split
    next h =>
      obtain ⟨rfl, hsaved⟩ := h
      exact ret_sound hhere hs hpc hitems hsaved
    · trivial
  · split
    next h =>
      obtain ⟨rfl, hsaved⟩ := h
      exact pha_sound hhere hs hpc hσ hitems hsaved
    · trivial
  · split
    next b hsaved =>
      split
      next h =>
        subst h
        exact pla_sound hhere hs hpc hitems hsaved
      · trivial
    · trivial
  · cases h : here.compute? m a s with
    | some s' =>
      obtain ⟨hsaved, d, hd, hs', hpc'⟩ := compute_sound hhere hs hitems hpc h
      exact ⟨d, hd, by rw [hsaved]; exact hs', hpc'⟩
    | none => trivial

theorem execute_branch {b : Bool} {r : Registers} (h : taken? m (plain r).p = some b) (read : UInt16 → UInt8)
    (pc t : UInt16) : m.execute read (.address t) { r with pc } = branch b (.address t) { r with pc } := by
  cases m <;> first | cases h; rfl | cases h

theorem target_label {l : String} {n : UInt16} (h : Assembly.offset? labels l = some n) :
    here.target (.label l) = here.base + n := by
  simp only [Site.target, Assembly.addressOf, Assembly.targetAddress?, h, Option.map_some, Option.getD_some]

theorem branch_sound (hhere : here.Stands) (hs : Shows here (s.saved ++ σ) s c) {l : String}
    (hitems : listing = before ++ .instruction m (.branch l) :: after)
    (hpc : c.regs.pc = here.address (Assembly.length before)) :
    Leads here σ s c (here.address (Assembly.length before + Assembly.sizeOf (.instruction m (.branch l))))
      (.branch l s (taken? m s.regs.p)) := by
  cases htaken : taken? m s.regs.p with
  | none => trivial
  | some b =>
    rw [← hs.regs] at htaken
    obtain ⟨op, hop⟩ := encode_item hitems
    obtain ⟨n, hn, -⟩ := Assembly.reachable_of_branchFault? hop (branchFault?_item hitems)
    have hnext := next_item hhere hs hitems hpc
    simp only [Argument.operand, target_label hn] at hnext
    rw [execute_branch htaken] at hnext
    cases b with
    | true => exact ⟨_, n, hnext, hs.withRegs s.saved hs.regs rfl, hn, rfl⟩
    | false => exact ⟨_, hnext, hs.withRegs s.saved hs.regs rfl, rfl⟩

/-- What is called returns to the item after the call. -/
theorem call_sound (hhere : here.Stands) (hs : Shows here (s.saved ++ σ) s c) (hσ : σ.length ≤ 200) {l : String}
    (hitems : listing = before ++ .instruction .jsr (.absolute (.label l)) :: after)
    (hpc : c.regs.pc = here.address (Assembly.length before)) (hsaved : s.saved = []) :
    Leads here σ s c
      (here.address (Assembly.length before + Assembly.sizeOf (.instruction .jsr (.absolute (.label l))))) (.call l) := by
  obtain ⟨n, hn⟩ := offset_of_target hitems rfl
  have hnext := next_item hhere hs hitems hpc
  simp only [Argument.operand, target_label hn] at hnext
  generalize here.address (Assembly.length before + Assembly.sizeOf (.instruction .jsr (.absolute (.label l)))) = w
    at hnext ⊢
  rw [hsaved] at hs
  have hlength : ([] ++ σ : Bytes).length ≤ 200 := hσ
  have hfirst := hs.push hhere (by omega) (Word.high (w - 1))
  have hsecond := hfirst.push hhere (by rw [List.length_cons]; omega) (Word.low (w - 1))
  refine ⟨hsaved, _, n, hnext, ?_, hn, rfl⟩
  have hcalled := hsecond.withRegs s.saved (r := { c.regs with pc := here.base + n, sp := c.regs.sp - 1 - 1 }) hs.regs rfl
  have hcores := writeAll_withRegs [⟨Registers.stackAddress (c.regs.sp - 1), Word.low (w - 1)⟩]
    (c.write ⟨Registers.stackAddress c.regs.sp, Word.high (w - 1)⟩) { c.regs with sp := c.regs.sp - 1 }
  simp only [Core.writeAll, List.foldl_cons, List.foldl_nil] at hcores
  rw [hcores] at hcalled
  exact hcalled

/-- **An instruction leads to what it means.** -/
theorem act_sound (hhere : here.Stands) (hs : Shows here (s.saved ++ σ) s c) (hσ : σ.length ≤ 200)
    (hitems : listing = before ++ .instruction m a :: after) (hpc : c.regs.pc = here.address (Assembly.length before)) :
    Leads here σ s c (here.address (Assembly.length before + Assembly.sizeOf (.instruction m a))) (here.act m a s) := by
  have hother := actHere_sound hhere hs hσ hitems hpc
  cases a with
  | branch l => exact branch_sound hhere hs hitems hpc
  | absolute t =>
    cases t with
    | fixed address => exact hother
    | symbol symbol n => exact hother
    | label l =>
      cases m with
      | jmp =>
        obtain ⟨n, hn⟩ := offset_of_target hitems rfl
        have hnext := next_item hhere hs hitems hpc
        simp only [Argument.operand, target_label hn] at hnext
        exact ⟨_, n, hnext, hs.withRegs s.saved hs.regs rfl, hn, rfl⟩
      | jsr =>
        show Leads here σ s c _ (if s.saved = [] then .call l else .stuck)
        split
        next hsaved => exact call_sound hhere hs hσ hitems hpc hsaved
        · trivial
      | _ => trivial
  | _ => exact hother

end Steps

/-! ## Blocks -/

section Blocks

variable {c : Core} {s s' : State} {σ : Bytes}

/-- The core is at an offset of the code. -/
theorem not_halted (hhere : here.Stands) {n : Nat} (hn : n < musicAt) (hpc : c.regs.pc = here.address n) :
    ¬ c.Halted := by
  intro hhalt
  have haddress := here.toNat_address hhere hn
  have hlow := hhere.low
  rw [← hpc, show c.regs.pc = haltAddress from hhalt] at haddress
  have hzero : haltAddress.toNat = 0 := rfl
  omega

/-- What a way out says of the core there, so many instructions later; `σ` is what the callers have on
the stack. -/
def Arrives (here : Site) (σ : Bytes) (c : Core) (k : Nat) (s : State) : Way → Prop
  | .ret => s.saved = [] ∧ ∀ w σ', σ = returnBytes w ++ σ' → ∃ d, c.Reaches k d ∧ Shows here σ' s d ∧ d.regs.pc = w
  | .goto l => ∃ d n, c.Reaches k d ∧ Shows here (s.saved ++ σ) s d ∧ Assembly.offset? labels l = some n ∧
      d.regs.pc = here.base + n
  | .call l rest => s.saved = [] ∧ ∃ d n before, listing = before ++ rest ∧ c.Reaches k d ∧
      Shows here (returnBytes (here.address (Assembly.length before)) ++ σ) s d ∧
      Assembly.offset? labels l = some n ∧ d.regs.pc = here.base + n
  | .fall | .stuck => True

theorem Arrives.after {d : Core} {j k : Nat} {w : Way} (hcd : c.Reaches j d) (h : Arrives here σ d k s w) :
    Arrives here σ c (j + k) s w := by
  cases w with
  | ret =>
    refine ⟨h.1, fun w σ' hσ => ?_⟩
    obtain ⟨e, hde, he⟩ := h.2 w σ' hσ
    exact ⟨e, hcd.trans hde, he⟩
  | goto l =>
    obtain ⟨e, n, hde, he⟩ := h
    exact ⟨e, n, hcd.trans hde, he⟩
  | call l rest =>
    obtain ⟨hsaved, e, n, before, hitems, hde, he⟩ := h
    exact ⟨hsaved, e, n, before, hitems, hcd.trans hde, he⟩
  | fall | stuck => trivial

/-- Where a core is that is to run a block. -/
def Starts (here : Site) (before : List Item) (c : Core) : Option String → Prop
  | none => c.regs.pc = here.address (Assembly.length before)
  | some l => ∃ n, Assembly.offset? labels l = some n ∧ c.regs.pc = here.base + n

/-- An instruction and what follows it run to the way out that they mean, if what follows does from where the
instruction leads. -/
theorem run_instruction_sound (hhere : here.Stands) (hσ : σ.length ≤ 200) {m : Mnemonic} {a : Argument}
    {before rest : List Item} (hitems : listing = before ++ .instruction m a :: rest) (hs : Shows here (s.saved ++ σ) s c)
    (hpc : c.regs.pc = here.address (Assembly.length before))
    (hrest : ∀ (seek : Option String) {c : Core} {s : State}, Shows here (s.saved ++ σ) s c →
      Starts here (before ++ [.instruction m a]) c seek →
        ∃ k, Arrives here σ c k (run here seek rest s).2 (run here seek rest s).1) :
    ∃ k, Arrives here σ c k (run here none (.instruction m a :: rest) s).2 (run here none (.instruction m a :: rest) s).1 ∧
      0 < k := by
  have hleads := act_sound hhere hs hσ hitems hpc
  have hrunning : ¬ c.Halted := by
    refine not_halted hhere ?_ hpc
    have hlength := congrArg Assembly.length hitems
    rw [listing_assembles.1, Assembly.length_append] at hlength
    have hmusic : musicAt = 2736 := rfl
    omega
  rw [run]
  cases hact : here.act m a s with
  | next s₁ =>
    rw [hact] at hleads
    obtain ⟨d, hd, hs₁, hpc⟩ := hleads
    obtain ⟨k, hk⟩ := hrest none hs₁ (by
      rw [Starts, Assembly.length_append]
      exact hpc)
    exact ⟨1 + k, hk.after (.step hrunning hd), by omega⟩
  | jump l =>
    rw [hact] at hleads
    obtain ⟨d, n, hd, hs₁, hn, hpc⟩ := hleads
    obtain ⟨k, hk⟩ := hrest (some l) hs₁ ⟨n, hn, hpc⟩
    exact ⟨1 + k, hk.after (.step hrunning hd), by omega⟩
  | call l =>
    rw [hact] at hleads
    obtain ⟨hsaved, d, n, hd, hs₁, hn, hpc⟩ := hleads
    have hlength := Assembly.length_append before [.instruction m a]
    refine ⟨1, ⟨hsaved, d, n, before ++ [.instruction m a], by simp [hitems], .step hrunning hd, ?_, hn, hpc⟩, Nat.one_pos⟩
    rw [hlength]
    exact hs₁
  | ret =>
    rw [hact] at hleads
    obtain ⟨hsaved, hret⟩ := hleads
    refine ⟨1, ⟨hsaved, fun w σ' hσ' => ?_⟩, Nat.one_pos⟩
    obtain ⟨d, hd, hs₁⟩ := hret w σ' hσ'
    exact ⟨d, .step hrunning hd, hs₁⟩
  | stuck => exact ⟨1, trivial, Nat.one_pos⟩

/-- **A block runs to the way out that it means**, in a step at least if it is run from its start. -/
theorem run_sound (hhere : here.Stands) (hσ : σ.length ≤ 200) : ∀ (items : List Item) (seek : Option String)
    {before : List Item} {c : Core} {s : State}, listing = before ++ items → Shows here (s.saved ++ σ) s c →
      Starts here before c seek →
      ∃ k, Arrives here σ c k (run here seek items s).2 (run here seek items s).1 ∧ (seek = none → 0 < k)
  | [], none, before, c, s, _, _, _ => ⟨1, trivial, fun _ => Nat.one_pos⟩
  | [], some l, before, c, s, _, hs, ⟨n, hn, hpc⟩ => ⟨0, ⟨c, n, .refl c, hs, hn, hpc⟩, fun h => by cases h⟩
  | item :: rest, some l, before, c, s, hitems, hs, hstart => by
    have hrest : listing = (before ++ [item]) ++ rest := by simp [hitems]
    rw [run]
    split
    next hitem =>
      obtain ⟨n, hn, hpc⟩ := hstart
      subst hitem
      rw [offset?_label hitems] at hn
      cases hn
      obtain ⟨k, hk, -⟩ := run_sound hhere hσ rest none hrest hs (by
        rw [Starts, Assembly.length_append]
        exact hpc)
      exact ⟨k, hk, fun h => by cases h⟩
    · obtain ⟨k, hk, -⟩ := run_sound hhere hσ rest (some l) hrest hs hstart
      exact ⟨k, hk, fun h => by cases h⟩
  | .label name :: rest, none, before, c, s, hitems, hs, hstart => by
    have hrest : listing = (before ++ [.label name]) ++ rest := by simp [hitems]
    exact run_sound hhere hσ rest none hrest hs (by
      rw [Starts, Assembly.length_append]
      exact hstart)
  | .data _ :: _, none, _, _, _, _, _, _ => ⟨1, trivial, fun _ => Nat.one_pos⟩
  | .instruction m a :: rest, none, before, c, s, hitems, hs, hstart => by
    have hrest : listing = (before ++ [.instruction m a]) ++ rest := by simp [hitems]
    obtain ⟨k, hk, hpositive⟩ := run_instruction_sound hhere hσ hitems hs hstart fun seek _ _ hs hstart => by
      obtain ⟨k, hk, -⟩ := run_sound hhere hσ rest seek hrest hs hstart
      exact ⟨k, hk⟩
    exact ⟨k, hk, fun _ => hpositive⟩

end Blocks

/-! ## Routines -/

theorem exec_succ (depth fuel : Nat) (items : List Item) (s : State) (h : exec here depth fuel items s ≠ .timeout) :
    exec here depth (fuel + 1) items s = exec here depth fuel items s := by
  induction fuel generalizing depth items s with
  | zero => exact absurd rfl h
  | succ fuel ih =>
    rw [exec] at h
    rw [exec, exec]
    rcases hrun : run here none items s with ⟨w, s₁⟩
    rw [hrun] at h
    cases w with
    | ret | fall | stuck => rfl
    | goto l => exact ih depth (itemsFrom l) s₁ h
    | call l rest =>
      dsimp only at h ⊢
      split
      · rfl
      next hdepth =>
        rw [if_neg hdepth] at h
        have hcallee : exec here (depth + 2) fuel (itemsFrom l) s₁ ≠ .timeout := by
          intro htimeout
          rw [htimeout] at h
          exact h rfl
        rw [ih (depth + 2) (itemsFrom l) s₁ hcallee]
        cases hdone : exec here (depth + 2) fuel (itemsFrom l) s₁ with
        | done s₂ =>
          rw [hdone] at h
          exact ih depth rest s₂ h
        | timeout | stuck => rfl

/-- With more fuel a routine comes to the same. -/
theorem exec_mono {depth fuel fuel' : Nat} {items : List Item} {s : State} {o : Outcome} (hfuel : fuel ≤ fuel')
    (h : exec here depth fuel items s = o) (ho : o ≠ .timeout) : exec here depth fuel' items s = o := by
  induction hfuel with
  | refl => exact h
  | step _ ih =>
    rw [exec_succ depth _ items s (by rw [ih]; exact ho)]
    exact ih

/-- The routine is not stuck, whatever the fuel. -/
def Runs (here : Site) (depth : Nat) (items : List Item) (s : State) : Prop :=
  ∀ fuel, exec here depth fuel items s ≠ .stuck

/-- **A routine that returns comes to what `exec` says**, if that is never stuck. The induction is on the
steps to the end of the run, of which every block takes some. -/
theorem exec_sound (hhere : here.Stands) : ∀ (k : Nat) {c h : Core} {before items : List Item} {s : State} {σ : Bytes}
    {depth : Nat} {w : UInt16}, c.Reaches k h → h.Halted → listing = before ++ items →
      c.regs.pc = here.address (Assembly.length before) → Shows here (s.saved ++ (returnBytes w ++ σ)) s c →
      (returnBytes w ++ σ).length = depth → depth ≤ stackLimit → Runs here depth items s →
      ∃ fuel s' d j, exec here depth fuel items s = .done s' ∧ s'.saved = [] ∧ Shows here σ s' d ∧ d.regs.pc = w ∧
        j < k ∧ d.Reaches j h := by
  intro k
  induction k using Nat.strong_induction_on with
  | _ k ih =>
    intro c h before items s σ depth w hch hh hitems hpc hs hdepth hlimit hruns
    have hbound : stackLimit = 16 := rfl
    obtain ⟨j, harrives, hj⟩ := run_sound hhere (by omega) items none hitems hs hpc
    have hj := hj rfl
    rcases hrun : run here none items s with ⟨way, s₁⟩
    rw [hrun] at harrives
    cases way with
    | ret =>
      obtain ⟨hsaved₁, hret⟩ := harrives
      obtain ⟨d, hcd, hs₁, hpc₁⟩ := hret w σ rfl
      obtain ⟨i, rfl, hdh⟩ := hch.past hh hcd
      exact ⟨1, s₁, d, i, exec_ret hrun, hsaved₁, hs₁, hpc₁, by omega, hdh⟩
    | goto l =>
      obtain ⟨d, n, hcd, hs₁, hn, hpc₁⟩ := harrives
      obtain ⟨i, rfl, hdh⟩ := hch.past hh hcd
      obtain ⟨before₁, hitems₁, rfl⟩ := listing_itemsFrom hn
      obtain ⟨fuel, s', e, m, hexec, hsaved', hs', hpc', hm, heh⟩ := ih i (by omega) hdh hh hitems₁ hpc₁ hs₁ hdepth
        hlimit fun fuel => by
          rw [← exec_goto hrun]
          exact hruns _
      exact ⟨fuel + 1, s', e, m, (exec_goto hrun).trans hexec, hsaved', hs', hpc', by omega, heh⟩
    | call l rest =>
      have hroom : depth + 2 ≤ stackLimit := by
        by_contra hfull
        have hstuck := hruns 1
        rw [exec, hrun] at hstuck
        exact hstuck (if_pos (Nat.not_le.mp hfull))
      obtain ⟨hsaved₁, d, n, before₁, hrest, hcd, hs₁, hn, hpc₁⟩ := harrives
      obtain ⟨i, rfl, hdh⟩ := hch.past hh hcd
      obtain ⟨before₂, hitems₂, rfl⟩ := listing_itemsFrom hn
      -- the callee, whose caller is what was called so far
      obtain ⟨fuel, s₂, e, m, hcallee, hsaved₂, hs₂, hpc₂, hm, heh⟩ := ih i (by omega) hdh hh hitems₂ hpc₁
        (by rw [hsaved₁]; exact hs₁) (show _ = depth + 2 by rw [List.length_append, hdepth, returnBytes]; simp; omega)
        hroom fun fuel hstuck => hruns (fuel + 1) (by rw [exec_call hroom hrun, hstuck]; rfl)
      -- and what follows the call
      obtain ⟨fuel', s', e', m', hexec, hsaved', hs', hpc', hm', heh'⟩ := ih m (by omega) heh hh hrest hpc₂
        (by rw [hsaved₂]; exact hs₂) hdepth hlimit fun fuel' hstuck => by
          refine hruns (max fuel fuel' + 1) ?_
          rw [exec_call hroom hrun, exec_mono (Nat.le_max_left ..) hcallee (by simp)]
          exact exec_mono (Nat.le_max_right ..) hstuck (by simp)
      refine ⟨max fuel fuel' + 1, s', e', m', ?_, hsaved', hs', hpc', by omega, heh'⟩
      rw [exec_call hroom hrun, exec_mono (Nat.le_max_left ..) hcallee (by simp)]
      exact exec_mono (Nat.le_max_right ..) hexec (by simp)
    | fall => exact absurd (show exec here depth 1 items s = .stuck by rw [exec, hrun]) (hruns 1)
    | stuck => exact absurd (show exec here depth 1 items s = .stuck by rw [exec, hrun]) (hruns 1)

end Chiptune.Player.Minimal

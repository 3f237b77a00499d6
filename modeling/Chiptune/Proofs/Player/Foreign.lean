/-
What decoding ends with for a container of any origin.

The addresses, counts and pointers in a file may be any, so decoding ends with a
song or names what cannot be read (`Decode.Unreadable`). That leaves one case,
in which an address is counted past the top of memory. It takes a table of
pointers that is not over when the top is reached and an image that goes up to
there, since the pointer before has been read from the last byte of memory
(`Decode.Overrun`).
-/
import Chiptune.Player.Decode
import Chiptune.Proofs.File.Container
import Chiptune.Proofs.File.Image
import Chiptune.Proofs.Outcome

namespace Chiptune.Player

open File Song

/-! ## Music -/

namespace Music

theorem decodeEvents_yields {E : Failure → Prop} {commands : List Command}
    (hmissing : ∀ id : UInt8, commands[id.toNat]? = none → E (.invalidData (.missingCommand id)))
    (hclass : ∀ code, EventClass.ofCode? code = none → E (.invalidData (.eventClass code)))
    (hcut : E (.invalidData .sequenceCutOff)) :
    ∀ bytes : Bytes, Yields (decodeEvents commands bytes) (fun _ => True) E
  | [] => hcut
  | [_] => hcut
  | code :: param :: rest => by
    have hgo (e : Event) : Yields (do return e :: (← decodeEvents commands rest)) (fun _ => True) E :=
      (decodeEvents_yields hmissing hclass hcut rest).bind fun _ _ _ => trivial
    unfold decodeEvents
    dsimp only
    split
    · trivial
    · exact hgo _
    · exact hgo _
    · exact hgo _
    · exact hgo _
    · exact hgo _
    · split
      · exact hgo _
      next hnone => exact hmissing param hnone
    next hnone => exact hclass code hnone

theorem decodeOrderList_yields {E : Failure → Prop} (hcut : E (.invalidData .orderListCutOff)) :
    ∀ bytes : Bytes, Yields (decodeOrderList bytes) (fun _ => True) E
  | [] => hcut
  | [_] => hcut
  | first :: second :: rest => by
    unfold decodeOrderList
    split
    · trivial
    split
    · trivial
    · exact (decodeOrderList_yields hcut rest).bind fun _ _ _ => trivial

end Music

namespace Decode

/-- What of a container cannot be read. -/
inductive Unreadable (c : Container) : Failure → Prop where
  | voices : c.music.voices.toNat ≠ voiceCount → Unreadable c (.incompatible (.voices c.music.voices))
  | tempo : c.byte? c.music.tempo = none → Unreadable c (.invalidData .tempoOutside)
  | table {t : TableDescriptor} : t ∈ c.tables → c.memory? t.address (t.columns.toNat * t.capacity.toNat) = none →
      Unreadable c (.invalidSource (.tableOutside t.name))
  | commandKind {id : UInt8} : CommandKind.ofId? id = none → Unreadable c (.invalidData (.commandKind id))
  | pointer {lo hi : UInt16} {index : Nat} :
      c.byte? (lo + UInt16.ofNat index) = none ∨ c.byte? (hi + UInt16.ofNat index) = none →
        Unreadable c (.invalidSource (.pointerOutside index))
  | sequence {address : UInt16} {index : Nat} : c.memoryFrom? address = none →
      Unreadable c (.invalidData (.sequenceOutside index))
  | orderList {address : UInt16} {voice : Nat} : c.memoryFrom? address = none →
      Unreadable c (.invalidData (.orderListOutside voice))
  /-- A sequence names a command that no table of commands has. -/
  | missingCommand {id : UInt8} : Unreadable c (.invalidData (.missingCommand id))
  | eventClass {code : UInt8} : Music.EventClass.ofCode? code = none → Unreadable c (.invalidData (.eventClass code))
  /-- The image ends before a sequence does. -/
  | sequenceEnd : Unreadable c (.invalidData .sequenceCutOff)
  /-- The image ends before an order list does. -/
  | orderListEnd : Unreadable c (.invalidData .orderListCutOff)

/-- The image goes up to the top of memory, and a pointer of one of the tables would be past it. -/
structure Overrun (c : Container) (index : Nat) : Prop where
  image : c.loadAddress.toNat + c.image.length = Machine.addressSpace
  table : (index < c.music.sequenceCount.toNat ∧
      max c.music.sequenceLo.toNat c.music.sequenceHi.toNat + index = Machine.addressSpace) ∨
    (index < voiceCount ∧ max c.music.orderLo.toNat c.music.orderHi.toNat + index = Machine.addressSpace)

/-- How decoding a container fails. -/
def Fails (c : Container) (e : Failure) : Prop :=
  Unreadable c e ∨ ∃ index, e = .invalidSource (.pointerPastMemory index) ∧ Overrun c index

variable {c : Container}

theorem fails_of_unreadable {α : Type} {x : Except Failure α} {Q : α → Prop} (h : Yields x Q (Unreadable c)) :
    Yields x Q (Fails c) := h.mono (fun _ => id) fun _ => .inl

/-! ## Tables -/

theorem tableRows_yields {t : TableDescriptor} (ht : t ∈ c.tables) :
    Yields (tableRows c t) (fun _ => True) (Unreadable c) := by
  unfold tableRows
  dsimp only
  split
  · trivial
  next hnone => exact .table ht hnone

theorem decodeCommand_yields (row : Bytes) : Yields (Rows.decodeCommand row) (fun _ => True) (Unreadable c) := by
  unfold Rows.decodeCommand
  dsimp only
  split
  · trivial
  next hnone => exact .commandKind hnone

theorem add_yields (found : Found) {t : TableDescriptor} (ht : t ∈ c.tables) :
    Yields (found.add c t) (fun _ => True) (Unreadable c) := by
  unfold Found.add
  split
  · trivial
  next slot _ =>
    split
    · trivial
    refine (tableRows_yields ht).bind fun rows _ _ => ?_
    split
    · trivial
    · exact (Yields.mapM rows fun row _ => decodeCommand_yields row).bind fun _ _ _ => trivial
    all_goals
      split <;> trivial

/-! ## Pointers -/

/-- A pointer past the top of memory is the first one there, and the one before it was read. -/
theorem overrun_of_pointer {lo hi : UInt16} {index : Nat} {p : UInt16}
    (hpast : Machine.addressSpace ≤ max lo.toNat hi.toNat + (index + 1)) (hp : pointer c lo hi index = .ok p) :
    max lo.toNat hi.toNat + (index + 1) = Machine.addressSpace ∧
      Machine.addressSpace ≤ c.loadAddress.toNat + c.image.length := by
  unfold pointer at hp
  split at hp
  · cases hp
  next hroom =>
    have htop : max lo.toNat hi.toNat + (index + 1) = Machine.addressSpace := by omega
    refine ⟨htop, ?_⟩
    have haddress (a : UInt16) : (a + UInt16.ofNat index).toNat = (a.toNat + index) % Machine.addressSpace := by
      rw [UInt16.toNat_add, UInt16.toNat_ofNat']
      simp only [Machine.addressSpace]
      omega
    dsimp only at hp
    split at hp
    next l h hl hh =>
      have hlo := Container.lt_of_byte? hl
      have hhi := Container.lt_of_byte? hh
      rw [haddress] at hlo hhi
      simp only [Machine.addressSpace] at hroom htop hlo hhi ⊢
      omega
    · cases hp

theorem pointer_yields {lo hi : UInt16} {index : Nat} (hearlier : ∀ k < index, ∃ p, pointer c lo hi k = .ok p) :
    Yields (pointer c lo hi index) (fun _ => True) fun e => Unreadable c e ∨
      e = .invalidSource (.pointerPastMemory index) ∧ max lo.toNat hi.toNat + index = Machine.addressSpace ∧
        Machine.addressSpace ≤ c.loadAddress.toNat + c.image.length := by
  cases hpointer : pointer c lo hi index with
  | ok p => trivial
  | error e =>
    unfold pointer at hpointer
    split at hpointer
    next hpast =>
      cases hpointer
      have hlo := lo.toNat_lt
      have hhi := hi.toNat_lt
      cases index with
      | zero =>
        simp only [Machine.addressSpace] at hpast
        omega
      | succ index =>
        obtain ⟨p, hp⟩ := hearlier index (Nat.lt_succ_self index)
        exact .inr ⟨rfl, overrun_of_pointer hpast hp⟩
    next =>
      dsimp only at hpointer
      split at hpointer
      · cases hpointer
      next hnone =>
        cases hpointer
        have hmissing : c.byte? (lo + UInt16.ofNat index) = none ∨ c.byte? (hi + UInt16.ofNat index) = none := by
          cases hlo : c.byte? (lo + UInt16.ofNat index) with
          | none => exact .inl rfl
          | some l =>
            cases hhi : c.byte? (hi + UInt16.ofNat index) with
            | none => exact .inr rfl
            | some h => exact absurd hhi (hnone l h hlo)
        exact .inl (.pointer hmissing)

theorem memoryFrom_yields {address : UInt16} {fault : DataFault}
    (h : c.memoryFrom? address = none → Unreadable c (.invalidData fault)) :
    Yields (memoryFrom c address fault) (fun _ => True) (Unreadable c) := by
  unfold memoryFrom
  split
  · trivial
  next hnone => exact h hnone

/-! ## Sequences and order lists -/

theorem sequence_yields (himage : c.loadAddress.toNat + c.image.length ≤ Machine.addressSpace)
    (commands : List Command) {index : Nat} (hindex : index < c.music.sequenceCount.toNat)
    (hearlier : ∀ k < index, ∃ q, sequence c commands k = .ok q) :
    Yields (sequence c commands index) (fun _ => True) (Fails c) := by
  have hpointers : ∀ k < index, ∃ p, pointer c c.music.sequenceLo c.music.sequenceHi k = .ok p := fun k hk => by
    obtain ⟨q, hq⟩ := hearlier k hk
    obtain ⟨p, hp, -⟩ := bind_eq_ok.mp hq
    exact ⟨p, hp⟩
  refine ((pointer_yields hpointers).mono (fun _ => id) fun e he => ?_).bind fun address _ _ => ?_
  · refine he.imp_right ?_
    rintro ⟨heq, htop, hle⟩
    exact ⟨index, heq, Nat.le_antisymm himage hle, .inl ⟨hindex, htop⟩⟩
  · refine fails_of_unreadable ((memoryFrom_yields .sequence).bind fun bytes _ _ => ?_)
    have hevents : Yields (Music.decodeEvents commands bytes) (fun _ => True) (Unreadable c) :=
      Music.decodeEvents_yields (fun _ _ => .missingCommand) (fun _ => .eventClass) .sequenceEnd bytes
    exact hevents.bind fun _ _ _ => trivial

theorem orderList_yields (himage : c.loadAddress.toNat + c.image.length ≤ Machine.addressSpace) {voice : Nat}
    (hvoice : voice < voiceCount) (hearlier : ∀ k < voice, ∃ l, orderList c k = .ok l) :
    Yields (orderList c voice) (fun _ => True) (Fails c) := by
  have hpointers : ∀ k < voice, ∃ p, pointer c c.music.orderLo c.music.orderHi k = .ok p := fun k hk => by
    obtain ⟨l, hl⟩ := hearlier k hk
    obtain ⟨p, hp, -⟩ := bind_eq_ok.mp hl
    exact ⟨p, hp⟩
  refine ((pointer_yields hpointers).mono (fun _ => id) fun e he => ?_).bind fun address _ _ => ?_
  · refine he.imp_right ?_
    rintro ⟨heq, htop, hle⟩
    exact ⟨voice, heq, Nat.le_antisymm himage hle, .inr ⟨hvoice, htop⟩⟩
  · refine fails_of_unreadable ((memoryFrom_yields .orderList).bind fun bytes _ _ => ?_)
    exact Music.decodeOrderList_yields .orderListEnd bytes

end Decode

/-! ## Songs -/

theorem decode_yields {c : Container} (himage : c.loadAddress.toNat + c.image.length ≤ Machine.addressSpace) :
    Yields (decode c)
      (fun s => s.sequences.length = c.music.sequenceCount.toNat ∧ s.orderLists.length = voiceCount)
      (Decode.Fails c) := by
  have hvoices (h : c.music.voices.toNat ≠ voiceCount) :
      decode c = .error (.incompatible (.voices c.music.voices)) := by
    unfold decode
    rw [if_pos h]
    split <;> rfl
  by_cases h : c.music.voices.toNat = voiceCount
  · unfold decode
    simp only [h, ne_eq, not_true, if_false]
    split
    next htempo => exact .inl (.tempo htempo)
    next tempo _ =>
      have htables : Yields (c.tables.foldlM (fun found t => found.add c t) ({} : Decode.Found)) (fun _ => True)
          (Decode.Fails c) :=
        .foldlM _ (fun t ht found _ => Decode.fails_of_unreadable (Decode.add_yields found ht)) trivial
      refine htables.bind fun found _ _ => ?_
      have hsequences := Yields.mapM_range c.music.sequenceCount.toNat fun i hi =>
        Decode.sequence_yields himage found.commands hi
      refine hsequences.bind fun sequences _ hcount => ?_
      have horders := Yields.mapM_range voiceCount fun voice hvoice => Decode.orderList_yields himage hvoice
      exact horders.bind fun orderLists _ hlength => ⟨hcount, hlength⟩
  · rw [hvoices h]
    exact .inl (.voices h)

/-- **Decoding what was parsed** ends with a song, or with what the container cannot have read of it; an address
is counted past the top of memory only by a table of pointers that is not over there. -/
theorem decode_parsed {bytes : Bytes} {c : Container} (h : Container.parse bytes = .ok c) :
    Yields (decode c)
      (fun s => s.sequences.length = c.music.sequenceCount.toNat ∧ s.orderLists.length = voiceCount)
      (fun e => Decode.Unreadable c e ∨
        ∃ index, e = .invalidSource (.pointerPastMemory index) ∧ Decode.Overrun c index) :=
  decode_yields (Container.length_image_le_of_parse h)

/-- A container with nothing in it but music. -/
def bare (loadAddress : UInt16) (music : MusicPointers) (image : Bytes) : Container where
  loadAddress
  descriptor := { driverType := 0, codeSize := 0, name := "bare", major := 1, minor := 0 }
  common := { init := loadAddress, stop := loadAddress, play := loadAddress, state := [] }
  tables := []
  music
  info := {}
  extraBlocks := []
  image

/-- The last pointer of its order lists ends with the address space. -/
def summit : Container := bare 0xFFF0 ⟨3, 0xFFFD, 0xFFF3, 0xFFF6, 0xFFF7, 1, 0xFFF2⟩
  [0xFE, 0x00, 0x06, 0xFF, 0xFF, 0xFF, 0xF8, 0xFF, 0x00, 0x30, 0x7F, 0x00, 0x00, 0xF0, 0xF0, 0xF0]

/-- The first pointer of its order lists ends with the address space. -/
def brink : Container := bare 0xFFF8 ⟨3, 0xFFFF, 0xFFFB, 0xFFF8, 0xFFF8, 0, 0xFFFA⟩
  [0xFE, 0x00, 0x06, 0xFF, 0xFF, 0xFF, 0x00, 0xF8]

theorem decode_parsed_summit : ∃ bytes, Container.parse bytes = .ok summit ∧
    Yields (decode summit)
      (fun s => s.sequences.length = summit.music.sequenceCount.toNat ∧ s.orderLists.length = voiceCount)
      (fun e => Decode.Unreadable summit e ∨
        ∃ index, e = .invalidSource (.pointerPastMemory index) ∧ Decode.Overrun summit index) := by
  obtain ⟨bytes, hbytes⟩ := Container.exists_parse_eq (c := summit) (by decide) (by simp [summit, bare]) (by decide) (by decide)
  exact ⟨bytes, hbytes, decode_parsed hbytes⟩

theorem brink_overruns : ∃ bytes, Container.parse bytes = .ok brink ∧
    decode brink = .error (.invalidSource (.pointerPastMemory 1)) := by
  obtain ⟨bytes, hbytes⟩ := Container.exists_parse_eq (c := brink) (by decide) (by simp [brink, bare]) (by decide) (by decide)
  exact ⟨bytes, hbytes, by rfl⟩

end Chiptune.Player
